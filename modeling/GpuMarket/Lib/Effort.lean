import GpuMarket.Lib.Run

universe u v

namespace GpuMarket.Lib

variable {σ : Type u} {α : Type v} (step : σ → α → σ)

def effort (Acts : σ → α → Prop) [∀ s a, Decidable (Acts s a)] : σ → List α → Nat
  | _, [] => 0
  | s, a :: as => (if Acts s a then 1 else 0) + effort Acts (step s a) as

variable {step}

/-- A rank that these actions lower and no other raises pays for all of them. -/
theorem effort_add_rank_le {Acts : σ → α → Prop} [∀ s a, Decidable (Acts s a)] {I : σ → Prop}
    {rank : σ → Nat} (hI : ∀ s a, I s → I (step s a))
    (hacts : ∀ s a, I s → Acts s a → rank (step s a) < rank s)
    (hrest : ∀ s a, I s → rank (step s a) ≤ rank s) {s : σ} (hs : I s) (as : List α) :
    effort step Acts s as + rank (run step s as) ≤ rank s := by
  induction as generalizing s with
  | nil => exact Nat.le_of_eq (Nat.zero_add _)
  | cons a as ih =>
    have htail := ih (hI s a hs)
    rw [effort, run_cons]
    split
    case isTrue ha =>
      have hless := hacts s a hs ha
      omega
    case isFalse =>
      have hle := hrest s a hs
      omega

/-- Where the rank can always be lowered it can be brought to zero. -/
theorem exists_run_rank_eq_zero {C : α → Prop} {rank : σ → Nat}
    (hcan : ∀ s, 0 < rank s → ∃ a, C a ∧ rank (step s a) < rank s) (s : σ) :
    ∃ as, (∀ a ∈ as, C a) ∧ as.length ≤ rank s ∧ rank (run step s as) = 0 := by
  induction hr : rank s using Nat.strongRecOn generalizing s with
  | ind r ih =>
    rcases Nat.eq_zero_or_pos r with rfl | hpos
    · exact ⟨[], fun _ h => absurd h List.not_mem_nil, Nat.le_refl 0, hr⟩
    · obtain ⟨a, ha, hless⟩ := hcan s (hr ▸ hpos)
      obtain ⟨as, has, hlength, hzero⟩ := ih _ (hr ▸ hless) (step s a) rfl
      refine ⟨a :: as, List.forall_mem_cons.mpr ⟨ha, has⟩, ?_, hzero⟩
      rw [List.length_cons]
      omega

theorem countP_map_lt {p : α → Bool} {f : α → α} {l : List α}
    (hle : ∀ a, p (f a) = true → p a = true) {a : α} (ha : a ∈ l) (hbefore : p a = true)
    (hafter : p (f a) = false) : (l.map f).countP p < l.countP p := by
  obtain ⟨pre, post, rfl⟩ := List.append_of_mem ha
  have hpre : (pre.map f).countP p ≤ pre.countP p := by
    rw [List.countP_map]
    exact List.countP_mono_left fun a _ => hle a
  have hpost : (post.map f).countP p ≤ post.countP p := by
    rw [List.countP_map]
    exact List.countP_mono_left fun a _ => hle a
  simp only [List.map_append, List.map_cons, List.countP_append, List.countP_cons, hbefore, hafter,
    if_true, Bool.false_eq_true, if_false]
  omega

end GpuMarket.Lib
