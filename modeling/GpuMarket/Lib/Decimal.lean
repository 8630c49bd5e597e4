import Mathlib.Algebra.Group.Int.Defs
import Mathlib.Algebra.Group.Nat.Defs
import Mathlib.Data.Char
import Mathlib.Data.Nat.Init
import Mathlib.Data.List.TakeWhile

namespace GpuMarket.Lib.Decimal

/-! Integers of fixed width as text: an optional sign and at least one decimal digit. -/

def value (ds : List Char) : Option Nat :=
  if ds ≠ [] ∧ ds.all Char.isDigit then some (Nat.ofDigitChars 10 ds 0) else none

def unsignedValue (cs : List Char) : Option Nat :=
  value (if cs.head? = some '+' then cs.tail else cs)

def signedValue (cs : List Char) : Option Int :=
  if cs.head? = some '-' then (value cs.tail).map fun n => -(n : Int)
  else (unsignedValue cs).map Int.ofNat

def parseUnsigned (bits : Nat) (s : String) : Option Nat :=
  (unsignedValue s.toList).filter (· < 2 ^ bits)

def parseSigned (bits : Nat) (s : String) : Option Int :=
  (signedValue s.toList).filter fun n => decide (-2 ^ (bits - 1) ≤ n ∧ n < 2 ^ (bits - 1))

theorem value_toDigits (n : Nat) : value (Nat.toDigits 10 n) = some n := by
  have digits : ∀ c ∈ Nat.toDigits 10 n, c.isDigit = true := fun _ hc =>
    Nat.isDigit_of_mem_toDigits (by decide) (by decide) hc
  rw [value, if_pos ⟨Nat.toDigits_ne_nil, List.all_eq_true.mpr digits⟩,
    Nat.ofDigitChars_toDigits (by decide) (by decide)]

theorem head?_toDigits (n : Nat) {c : Char} (hc : c.isDigit = false) :
    (Nat.toDigits 10 n).head? ≠ some c := by
  intro h
  have hdigit := Nat.isDigit_of_mem_toDigits (b := 10) (by decide) (by decide)
    (List.mem_of_head? h)
  rw [hc] at hdigit
  cases hdigit

theorem unsignedValue_toDigits (n : Nat) : unsignedValue (Nat.toDigits 10 n) = some n := by
  rw [unsignedValue, if_neg (head?_toDigits n (by decide)), value_toDigits]

theorem toList_toString_nat (n : Nat) : (toString n).toList = Nat.toDigits 10 n :=
  Nat.toList_repr

theorem toList_toString_negSucc (m : Nat) :
    (toString (Int.negSucc m)).toList = '-' :: Nat.toDigits 10 (m + 1) := by
  rw [show toString (Int.negSucc m) = "-" ++ Nat.repr (m + 1) from rfl, String.toList_append,
    Nat.toList_repr]
  rfl

theorem signedValue_toString (n : Int) : signedValue (toString n).toList = some n := by
  cases n with
  | ofNat m =>
    have htext : (toString (Int.ofNat m)).toList = Nat.toDigits 10 m := Nat.toList_repr
    rw [signedValue, htext, if_neg (head?_toDigits m (by decide)), unsignedValue_toDigits]
    rfl
  | negSucc m =>
    rw [signedValue, toList_toString_negSucc, List.head?_cons, if_pos rfl, List.tail_cons, value_toDigits]
    rfl

theorem parseUnsigned_toString (bits n : Nat) :
    parseUnsigned bits (toString n) = if n < 2 ^ bits then some n else none := by
  rw [parseUnsigned, toList_toString_nat, unsignedValue_toDigits]
  by_cases h : n < 2 ^ bits
  · simp [h]
  · simp [h, Nat.not_lt.mp h]

theorem parseUnsigned_toString_int (bits : Nat) (n : Int) :
    parseUnsigned bits (toString n) = if 0 ≤ n ∧ n < 2 ^ bits then some n.toNat else none := by
  cases n with
  | ofNat m =>
    have htext : toString (Int.ofNat m) = toString m := rfl
    rw [htext, parseUnsigned_toString]
    refine if_congr ?_ rfl rfl
    simpa using by exact_mod_cast Iff.rfl
  | negSucc m =>
    have hneg : unsignedValue ('-' :: Nat.toDigits 10 (m + 1)) = none := by
      simp [unsignedValue, value]
    rw [parseUnsigned, toList_toString_negSucc, hneg, if_neg (by omega)]
    rfl

theorem parseSigned_toString {bits : Nat} {n : Int} (hlow : -2 ^ (bits - 1) ≤ n)
    (hhigh : n < 2 ^ (bits - 1)) : parseSigned bits (toString n) = some n := by
  rw [parseSigned, signedValue_toString]
  simp [hlow, hhigh]

theorem toString_int_injective {m n : Int} (h : toString m = toString n) : m = n := by
  have hvalues := congrArg (fun s : String => signedValue s.toList) h
  simpa only [signedValue_toString, Option.some.injEq] using hvalues

end GpuMarket.Lib.Decimal
