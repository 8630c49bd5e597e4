import Mathlib.Data.List.Basic

namespace GpuMarket.Lib

def byteLen : List Char → Nat
  | [] => 0
  | c :: s => c.utf8Size + byteLen s

@[simp] theorem byteLen_nil : byteLen [] = 0 := rfl

@[simp] theorem byteLen_cons (c : Char) (s : List Char) :
    byteLen (c :: s) = c.utf8Size + byteLen s := rfl

@[simp] theorem byteLen_append (s t : List Char) : byteLen (s ++ t) = byteLen s + byteLen t := by
  induction s with
  | nil => rw [List.nil_append, byteLen_nil, Nat.zero_add]
  | cons c s ih => rw [List.cons_append, byteLen_cons, byteLen_cons, ih, Nat.add_assoc]

def rfind (c : Char) : List Char → Option Nat
  | [] => none
  | d :: s =>
    match rfind c s with
    | some i => some (d.utf8Size + i)
    | none => if d = c then some 0 else none

def sliceFrom : List Char → Nat → Option (List Char)
  | s, 0 => some s
  | [], _ + 1 => none
  | d :: s, i + 1 => if d.utf8Size ≤ i + 1 then sliceFrom s (i + 1 - d.utf8Size) else none

def sliceTo : List Char → Nat → Option (List Char)
  | _, 0 => some []
  | [], _ + 1 => none
  | d :: s, i + 1 =>
    if d.utf8Size ≤ i + 1 then (sliceTo s (i + 1 - d.utf8Size)).map (d :: ·) else none

theorem rfind_eq_none {c : Char} {s : List Char} (h : c ∉ s) : rfind c s = none := by
  induction s with
  | nil => rfl
  | cons d s ih =>
    rw [List.mem_cons, not_or] at h
    rw [rfind, ih h.2, if_neg (Ne.symm h.1)]

theorem rfind_append_cons {c : Char} (s : List Char) {t : List Char} (h : c ∉ t) :
    rfind c (s ++ c :: t) = some (byteLen s) := by
  induction s with
  | nil => rw [List.nil_append, rfind, rfind_eq_none h, if_pos rfl, byteLen_nil]
  | cons d s ih => rw [List.cons_append, rfind, ih, byteLen_cons]

theorem sliceFrom_cons (d : Char) (s : List Char) (i : Nat) :
    sliceFrom (d :: s) (d.utf8Size + i) = sliceFrom s i := by
  obtain ⟨n, hn⟩ := Nat.exists_eq_add_one.mpr (Nat.add_pos_left d.utf8Size_pos i)
  rw [hn, sliceFrom, ← hn, if_pos (Nat.le_add_right _ _), Nat.add_sub_cancel_left]

theorem sliceTo_cons (d : Char) (s : List Char) (i : Nat) :
    sliceTo (d :: s) (d.utf8Size + i) = (sliceTo s i).map (d :: ·) := by
  obtain ⟨n, hn⟩ := Nat.exists_eq_add_one.mpr (Nat.add_pos_left d.utf8Size_pos i)
  rw [hn, sliceTo, ← hn, if_pos (Nat.le_add_right _ _), Nat.add_sub_cancel_left]

@[simp] theorem sliceFrom_append (s t : List Char) : sliceFrom (s ++ t) (byteLen s) = some t := by
  induction s with
  | nil => cases t <;> rfl
  | cons d s ih => rw [List.cons_append, byteLen_cons, sliceFrom_cons, ih]

@[simp] theorem sliceTo_append (s t : List Char) : sliceTo (s ++ t) (byteLen s) = some s := by
  induction s with
  | nil => cases t <;> rfl
  | cons d s ih =>
    rw [List.cons_append, byteLen_cons, sliceTo_cons, ih]
    rfl

theorem exists_last_segment (sep : Char) (s : List Char) :
    ∃ dir last, s = dir ++ last ∧ sep ∉ last ∧ (dir = [] ∨ ∃ d, dir = d ++ [sep]) := by
  induction s with
  | nil => exact ⟨[], [], rfl, List.not_mem_nil, .inl rfl⟩
  | cons c s ih =>
    obtain ⟨dir, last, rfl, hlast, rfl | ⟨d, rfl⟩⟩ := ih
    · by_cases hc : c = sep
      · exact ⟨[c], last, rfl, hlast, .inr ⟨[], hc ▸ rfl⟩⟩
      · exact ⟨[], c :: last, rfl, List.not_mem_cons_of_ne_of_not_mem (Ne.symm hc) hlast, .inl rfl⟩
    · exact ⟨c :: (d ++ [sep]), last, rfl, hlast, .inr ⟨c :: d, rfl⟩⟩

theorem mem_of_append_cons_eq {c d : Char} {a b s t : List Char} (h : a ++ c :: b = s ++ d :: t)
    (hcd : c ≠ d) (hc : c ∉ t) : d ∈ b := by
  obtain ⟨m, rfl, hm⟩ | ⟨m, rfl, hm⟩ := List.append_eq_append_iff.mp h
  · cases m with
    | nil => exact absurd (List.cons.inj hm).1 hcd
    | cons x m =>
      obtain ⟨-, rfl⟩ := List.cons.inj hm
      exact List.mem_append_right m List.mem_cons_self
  · have hmem : c ∈ d :: t := hm ▸ List.mem_append_right m List.mem_cons_self
    exact absurd ((List.mem_cons.mp hmem).resolve_left hcd) hc

theorem notMem_intercalate {c : Char} {sep : List Char} {ls : List (List Char)} (hsep : c ∉ sep)
    (hls : ∀ l ∈ ls, c ∉ l) : c ∉ sep.intercalate ls := by
  induction ls with
  | nil => exact List.not_mem_nil
  | cons l ls ih =>
    rw [List.forall_mem_cons] at hls
    cases ls with
    | nil => simpa using hls.1
    | cons l' ls => simpa [List.intercalate, List.intersperse, hls.1, hsep] using ih hls.2

def splitOnce (sep : Char) : List Char → Option (List Char × List Char)
  | [] => none
  | c :: s => if c = sep then some ([], s) else (splitOnce sep s).map fun (a, b) => (c :: a, b)

theorem splitOnce_append {sep : Char} {s : List Char} (h : sep ∉ s) (t : List Char) :
    splitOnce sep (s ++ sep :: t) = some (s, t) := by
  induction s with
  | nil => rw [List.nil_append, splitOnce, if_pos rfl]
  | cons c s ih =>
    rw [List.mem_cons, not_or] at h
    rw [List.cons_append, splitOnce, if_neg (Ne.symm h.1), ih h.2]
    rfl

theorem eq_append_of_splitOnce {sep : Char} {s a b : List Char}
    (h : splitOnce sep s = some (a, b)) : s = a ++ sep :: b ∧ sep ∉ a := by
  induction s generalizing a with
  | nil => cases h
  | cons c s ih =>
    rw [splitOnce] at h
    split at h
    case isTrue hc =>
      cases h
      exact ⟨by rw [hc, List.nil_append], List.not_mem_nil⟩
    case isFalse hc =>
      obtain ⟨⟨a', b'⟩, hs, heq⟩ := Option.map_eq_some_iff.mp h
      cases heq
      obtain ⟨rfl, hnot⟩ := ih hs
      exact ⟨rfl, by simp [Ne.symm hc, hnot]⟩

end GpuMarket.Lib
