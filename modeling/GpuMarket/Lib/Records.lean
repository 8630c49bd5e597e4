import Mathlib.Data.List.Basic
import Mathlib.Data.List.Perm.Basic

universe u v w

namespace GpuMarket.Lib

variable {α : Type u} {β : Type v} {γ : Type w}

theorem append_sep_inj {sep : α} {a a' b b' : List α} (ha : sep ∉ a) (ha' : sep ∉ a')
    (h : a ++ sep :: b = a' ++ sep :: b') : a = a' ∧ b = b' := by
  induction a generalizing a' with
  | nil =>
    cases a' with
    | nil => exact ⟨rfl, (List.cons.inj h).2⟩
    | cons x a' =>
      have hx : sep = x := (List.cons.inj h).1
      exact absurd (hx ▸ List.mem_cons_self) ha'
  | cons x a ih =>
    cases a' with
    | nil =>
      have hx : x = sep := (List.cons.inj h).1
      exact absurd (hx ▸ List.mem_cons_self) ha
    | cons y a' =>
      obtain ⟨hxy, hrest⟩ := List.cons.inj h
      obtain ⟨rfl, hb⟩ := ih (List.not_mem_of_not_mem_cons ha)
        (List.not_mem_of_not_mem_cons ha') hrest
      exact ⟨hxy ▸ rfl, hb⟩

def terminated (term : α) (rs : List (List α)) : List α := rs.flatMap (· ++ [term])

@[simp] theorem terminated_nil (term : α) : terminated term [] = [] := rfl

@[simp] theorem terminated_cons (term : α) (r : List α) (rs : List (List α)) :
    terminated term (r :: rs) = r ++ term :: terminated term rs := by
  simp [terminated]

theorem terminated_inj {term : α} {rs rs' : List (List α)} (h : ∀ r ∈ rs, term ∉ r)
    (h' : ∀ r ∈ rs', term ∉ r) (heq : terminated term rs = terminated term rs') : rs = rs' := by
  induction rs generalizing rs' with
  | nil =>
    cases rs' with
    | nil => rfl
    | cons r' rs' => simp at heq
  | cons r rs ih =>
    cases rs' with
    | nil => simp at heq
    | cons r' rs' =>
      rw [List.forall_mem_cons] at h h'
      rw [terminated_cons, terminated_cons] at heq
      obtain ⟨rfl, hrest⟩ := append_sep_inj h.1 h'.1 heq
      rw [ih h.2 h'.2 hrest]

theorem flatMap_injective_of_length {code : α → List β} {n : Nat}
    (hlen : ∀ a, (code a).length = n + 1) (hcode : Function.Injective code) :
    Function.Injective fun as : List α => as.flatMap code := by
  intro as bs h
  have hne : ∀ a (rest : List β), code a ++ rest ≠ [] := by
    intro a rest hnil
    have hzero := congrArg List.length hnil
    rw [List.length_append, hlen, List.length_nil] at hzero
    omega
  induction as generalizing bs with
  | nil =>
    cases bs with
    | nil => rfl
    | cons b bs => exact absurd h.symm (hne b _)
  | cons a as ih =>
    cases bs with
    | nil => exact absurd h (hne a _)
    | cons b bs =>
      simp only [List.flatMap_cons] at h
      obtain ⟨hab, hrest⟩ := List.append_inj h ((hlen a).trans (hlen b).symm)
      rw [hcode hab, ih hrest]

theorem perm_map_of_perm_map {f : α → β} {g : α → γ} {l l' : List α}
    (hfg : ∀ a ∈ l, ∀ b ∈ l', f a = f b → g a = g b) (h : (l.map f).Perm (l'.map f)) :
    (l.map g).Perm (l'.map g) := by
  induction l generalizing l' with
  | nil =>
    have hnil : l' = [] := List.map_eq_nil_iff.mp (List.nil_perm.mp h)
    rw [hnil]
  | cons a l ih =>
    obtain ⟨b, hb, hba⟩ := List.mem_map.mp (h.subset List.mem_cons_self)
    obtain ⟨s, t, rfl⟩ := List.append_of_mem hb
    have hmid : (s ++ b :: t).Perm (b :: (s ++ t)) := List.perm_middle
    have hf := h.trans (hmid.map f)
    rw [List.map_cons, List.map_cons, hba] at hf
    have hrest := ih (fun x hx y hy => hfg x (List.mem_cons_of_mem a hx) y
      (hmid.symm.subset (List.mem_cons_of_mem b hy))) hf.cons_inv
    rw [List.map_cons, hfg a List.mem_cons_self b hb hba.symm]
    exact (hrest.cons (g b)).trans (hmid.map g).symm

theorem map_filterMap_sublist {f : α → Option β} {g : β → γ} {k : α → γ} {l : List α}
    (h : ∀ a ∈ l, ∀ b, f a = some b → g b = k a) : ((l.filterMap f).map g).Sublist (l.map k) := by
  induction l with
  | nil => exact .slnil
  | cons a l ih =>
    have rest := ih fun a ha => h a (List.mem_cons_of_mem _ ha)
    cases hf : f a with
    | none =>
      rw [List.filterMap_cons_none hf]
      exact rest.cons _
    | some b =>
      rw [List.filterMap_cons_some hf, List.map_cons, List.map_cons, h a List.mem_cons_self b hf]
      exact rest.cons_cons _

theorem exists_filterMap_set {f : α → Option β} {l : List α} {i : Nat} {a : α}
    (h : l[i]? = some a) : ∃ rest, (l.filterMap f).Perm ((f a).toList ++ rest) ∧
      ∀ b, ((l.set i b).filterMap f).Perm ((f b).toList ++ rest) := by
  induction l generalizing i with
  | nil => cases h
  | cons c l ih =>
    have head : ∀ b, ((b :: l).filterMap f).Perm ((f b).toList ++ l.filterMap f) := by
      intro b
      rw [List.filterMap_cons]
      cases f b <;> exact .refl _
    cases i with
    | zero =>
      cases h
      exact ⟨l.filterMap f, head a, head⟩
    | succ i =>
      obtain ⟨rest, hold, hnew⟩ := ih h
      have push : ∀ {l' : List α} {x : List β}, (l'.filterMap f).Perm (x ++ rest) →
          ((c :: l').filterMap f).Perm (x ++ ((f c).toList ++ rest)) := by
        intro l' x hl'
        rw [List.filterMap_cons]
        cases f c with
        | none => exact hl'
        | some d => exact (hl'.cons d).trans List.perm_middle.symm
      exact ⟨(f c).toList ++ rest, push hold, fun b => push (hnew b)⟩

theorem perm_cons_filter_ne [DecidableEq β] {key : α → β} {l : List α} (h : (l.map key).Nodup)
    {a : α} (ha : a ∈ l) : l.Perm (a :: l.filter (key · ≠ key a)) := by
  induction l with
  | nil => cases ha
  | cons c l ih =>
    obtain ⟨hc, hl⟩ := List.nodup_cons.mp h
    have apart : ∀ b ∈ l, key b ≠ key c := fun b hb hsame => hc (hsame ▸ List.mem_map_of_mem hb)
    rcases List.mem_cons.mp ha with rfl | ha
    · rw [List.filter_cons_of_neg (by simp), List.filter_eq_self.mpr (by simpa using apart)]
    · rw [List.filter_cons_of_pos (by simpa using (apart a ha).symm)]
      exact ((ih hl ha).cons c).trans (.swap a c _)

section Sorting

variable {le : α → α → Bool} (trans : ∀ a b c, le a b → le b c → le a c)
  (total : ∀ a b, le a b || le b a) (antisymm : ∀ a b, le a b → le b a → a = b)
include trans total antisymm

/-- Sorting by a linear order is a canonical form of the multiset. -/
theorem mergeSort_eq_iff_perm {l l' : List α} :
    l.mergeSort le = l'.mergeSort le ↔ l.Perm l' := by
  constructor
  · intro h
    exact (List.mergeSort_perm l le).symm.trans (h ▸ List.mergeSort_perm l' le)
  · intro h
    have hperm : (l.mergeSort le).Perm (l'.mergeSort le) :=
      (List.mergeSort_perm l le).trans (h.trans (List.mergeSort_perm l' le).symm)
    exact hperm.eq_of_pairwise (fun a b _ _ => antisymm a b)
      (List.pairwise_mergeSort trans total l) (List.pairwise_mergeSort trans total l')

end Sorting

end GpuMarket.Lib
