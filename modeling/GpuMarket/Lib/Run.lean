import Mathlib.Data.List.Infix

universe u v

namespace GpuMarket.Lib

section

variable {σ : Type u} {α : Type v} (step : σ → α → σ)

def run (s : σ) (as : List α) : σ := as.foldl step s

/-- `P` holds in every state that the run passes through, its first and last included. -/
def Always (P : σ → Prop) (s : σ) (as : List α) : Prop :=
  ∀ pre, pre <+: as → P (run step s pre)

/-- Every action of the run meets `C` in the state in which it is taken. -/
def Along (C : σ → α → Prop) (s : σ) (as : List α) : Prop :=
  ∀ pre a, pre ++ [a] <+: as → C (run step s pre) a

end

section

variable {σ : Type u} {α : Type v} {step : σ → α → σ}

@[simp] theorem run_nil (s : σ) : run step s [] = s := rfl

@[simp] theorem run_cons (s : σ) (a : α) (as : List α) :
    run step s (a :: as) = run step (step s a) as := rfl

theorem run_append (s : σ) (as bs : List α) :
    run step s (as ++ bs) = run step (run step s as) bs := List.foldl_append

@[simp] theorem run_concat (s : σ) (as : List α) (a : α) :
    run step s (as ++ [a]) = step (run step s as) a := by simp [run_append]

theorem run_map_of {τ : Type u} {β : Type v} {step' : τ → β → τ} {f : σ → τ} {g : α → β}
    {C : α → Prop} (h : ∀ s a, C a → step' (f s) (g a) = f (step s a)) (s : σ) {as : List α}
    (hC : ∀ a ∈ as, C a) : run step' (f s) (as.map g) = f (run step s as) := by
  induction as generalizing s with
  | nil => rfl
  | cons a as ih =>
    obtain ⟨ha, has⟩ := List.forall_mem_cons.mp hC
    rw [List.map_cons, run_cons, run_cons, h s a ha, ih (step s a) has]

theorem run_map {τ : Type u} {β : Type v} {step' : τ → β → τ} {f : σ → τ} {g : α → β}
    (h : ∀ s a, step' (f s) (g a) = f (step s a)) (s : σ) (as : List α) :
    run step' (f s) (as.map g) = f (run step s as) :=
  run_map_of (C := fun _ => True) (fun s a _ => h s a) s fun _ _ => trivial

theorem run_congr {step' : σ → α → σ} {s : σ} {as : List α}
    (h : Along step (fun s a => step' s a = step s a) s as) : run step' s as = run step s as := by
  induction as using List.reverseRecOn with
  | nil => rfl
  | append_singleton as a ih =>
    have hlast := h as a (List.prefix_refl _)
    rw [run_concat, run_concat, ih fun pre b hpre => h pre b (hpre.trans (List.prefix_append _ _)),
      hlast]

theorem Along.of_prefix {C : σ → α → Prop} {s : σ} {as bs : List α} (h : Along step C s bs)
    (hp : as <+: bs) : Along step C s as := fun pre a hpre => h pre a (hpre.trans hp)

@[simp] theorem along_nil {C : σ → α → Prop} {s : σ} : Along step C s [] := by
  intro pre a hpre
  simp at hpre

@[simp] theorem along_cons {C : σ → α → Prop} {s : σ} {a : α} {as : List α} :
    Along step C s (a :: as) ↔ C s a ∧ Along step C (step s a) as := by
  refine ⟨fun h => ⟨h [] a (by simp), fun pre b hpre => ?_⟩, fun ⟨ha, has⟩ pre b hpre => ?_⟩
  · simpa using h (a :: pre) b (by simpa using hpre)
  · cases pre with
    | nil =>
      obtain ⟨rfl, -⟩ := List.cons_prefix_cons.mp hpre
      exact ha
    | cons c pre =>
      obtain ⟨rfl, hpre'⟩ := List.cons_prefix_cons.mp hpre
      exact has pre b hpre'

instance decidableAlong {C : σ → α → Prop} [∀ s a, Decidable (C s a)] (s : σ) :
    (as : List α) → Decidable (Along step C s as)
  | [] => .isTrue along_nil
  | a :: as =>
    have := decidableAlong (C := C) (step s a) as
    decidable_of_iff _ along_cons.symm

/-- An invariant that only has to survive the actions meeting `C`. -/
theorem run_invariant_along {I : σ → Prop} {C : σ → α → Prop}
    (hstep : ∀ s a, I s → C s a → I (step s a)) {s : σ} (hs : I s) (as : List α)
    (hC : Along step C s as) : I (run step s as) := by
  induction as using List.reverseRecOn with
  | nil => exact hs
  | append_singleton as a ih =>
    rw [run_concat]
    exact hstep _ _ (ih (hC.of_prefix (List.prefix_append _ _))) (hC as a (List.prefix_refl _))

theorem run_invariant {I : σ → Prop} (hstep : ∀ s a, I s → I (step s a)) {s : σ} (hs : I s)
    (as : List α) : I (run step s as) :=
  run_invariant_along (C := fun _ _ => True) (fun s a h _ => hstep s a h) hs as
    (fun _ _ _ => trivial)

theorem along_congr {I : σ → Prop} {C D : σ → α → Prop} (hCD : ∀ s a, I s → (C s a ↔ D s a))
    (hstep : ∀ s a, I s → I (step s a)) {s : σ} (hs : I s) (as : List α) :
    Along step C s as ↔ Along step D s as :=
  forall₃_congr fun pre a _ => hCD _ a (run_invariant hstep hs pre)

theorem always_of_along {I P : σ → Prop} {C : σ → α → Prop} (hIP : ∀ s, I s → P s)
    (hstep : ∀ s a, I s → C s a → I (step s a)) {s : σ} (hs : I s) {as : List α}
    (hC : Along step C s as) : Always step P s as :=
  fun pre hpre => hIP _ (run_invariant_along hstep hs pre (hC.of_prefix hpre))

theorem always_iff_along_of {I P : σ → Prop} {C : σ → α → Prop} {D : α → Prop}
    (hIP : ∀ s, I s → P s) (hstep : ∀ s a, I s → D a → C s a → I (step s a))
    (hbad : ∀ s a, I s → D a → ¬C s a → ¬P (step s a)) {s : σ} (hs : I s) {as : List α}
    (hD : ∀ a ∈ as, D a) : Always step P s as ↔ Along step C s as := by
  have hpair : ∀ {as : List α}, (∀ a ∈ as, D a) → Along step C s as →
      Along step (fun s a => D a ∧ C s a) s as := by
    intro as hD hC pre a hpre
    exact ⟨hD a (hpre.subset (by simp)), hC pre a hpre⟩
  refine ⟨fun hP pre a hpre => ?_, fun hC =>
    always_of_along hIP (fun s a hI hDC => hstep s a hI hDC.1 hDC.2) hs (hpair hD hC)⟩
  -- the actions before `a` meet `C`, so the state in which `a` is taken satisfies `I`
  induction as using List.reverseRecOn generalizing pre a with
  | nil => simp at hpre
  | append_singleton as b ih =>
    have hP' : Always step P s as := fun pre hpre => hP pre (hpre.trans (List.prefix_append _ _))
    have hD' : ∀ a ∈ as, D a := fun a ha => hD a (List.mem_append_left _ ha)
    rcases List.prefix_concat_iff.mp hpre with heq | hpre'
    · obtain ⟨rfl, hab⟩ := List.append_inj' heq rfl
      cases hab
      have hI := run_invariant_along (fun s a hI hDC => hstep s a hI hDC.1 hDC.2) hs pre
        (hpair hD' (ih hD' hP'))
      by_contra hC
      exact hbad _ _ hI (hD b (by simp)) hC (by simpa using hP _ (List.prefix_refl _))
    · exact ih hD' hP' pre a hpre'

/-- Where the actions that break `C` are the ones that break `P`, a run stays in `P` exactly
when each of its actions meets `C`. -/
theorem always_iff_along {I P : σ → Prop} {C : σ → α → Prop} (hIP : ∀ s, I s → P s)
    (hstep : ∀ s a, I s → C s a → I (step s a))
    (hbad : ∀ s a, I s → ¬C s a → ¬P (step s a)) {s : σ} (hs : I s) (as : List α) :
    Always step P s as ↔ Along step C s as :=
  always_iff_along_of (D := fun _ => True) hIP (fun s a hI _ hC => hstep s a hI hC)
    (fun s a hI _ hC => hbad s a hI hC) hs fun _ _ => trivial

end

end GpuMarket.Lib
