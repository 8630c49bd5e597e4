import Mathlib.Data.List.TakeWhile
import Mathlib.Data.Char

namespace GpuMarket.Lib.Json

/-! JSON integer and string literals as compact writers print them, and readers of that form.
A reader returns what it has read together with the rest of the input. -/

def writeNat (n : Nat) : List Char := Nat.toDigits 10 n

def readNat (s : List Char) : Option (Nat × List Char) :=
  match s.takeWhile Char.isDigit with
  | [] => none
  | ds => some (Nat.ofDigitChars 10 ds 0, s.dropWhile Char.isDigit)

def writeInt : Int → List Char
  | .ofNat n => writeNat n
  | .negSucc n => '-' :: writeNat (n + 1)

def readInt : List Char → Option (Int × List Char)
  | '-' :: s => (readNat s).map fun (n, s) => (-(n : Int), s)
  | s => (readNat s).map fun (n, s) => ((n : Int), s)

theorem isDigit_of_mem_writeNat {n : Nat} {c : Char} (h : c ∈ writeNat n) : c.isDigit = true :=
  Nat.isDigit_of_mem_toDigits (by decide) (by decide) h

theorem readNat_writeNat (n : Nat) {rest : List Char} (h : ∀ c ∈ rest.head?, c.isDigit = false) :
    readNat (writeNat n ++ rest) = some (n, rest) := by
  have digits : ∀ c ∈ writeNat n, c.isDigit = true := fun _ => isDigit_of_mem_writeNat
  have stop : rest.takeWhile Char.isDigit = [] ∧ rest.dropWhile Char.isDigit = rest := by
    cases rest with
    | nil => exact ⟨rfl, rfl⟩
    | cons c rest => simp [h c rfl]
  rw [readNat, List.takeWhile_append_of_pos digits, List.dropWhile_append_of_pos digits, stop.1,
    stop.2, List.append_nil]
  split
  case h_1 hnil => exact absurd hnil Nat.toDigits_ne_nil
  case h_2 => rw [writeNat, Nat.ofDigitChars_toDigits (by decide) (by decide)]

theorem readInt_writeInt (n : Int) {rest : List Char} (h : ∀ c ∈ rest.head?, c.isDigit = false) :
    readInt (writeInt n ++ rest) = some (n, rest) := by
  cases n with
  | ofNat n =>
    have hread := readNat_writeNat n h
    rw [writeInt]
    unfold readInt
    split
    case h_1 s hs =>
      cases hw : writeNat n with
      | nil => exact absurd hw Nat.toDigits_ne_nil
      | cons c cs =>
        have hc := isDigit_of_mem_writeNat (n := n) (c := c) (by simp [hw])
        rw [hw, List.cons_append] at hs
        obtain ⟨rfl, -⟩ := List.cons.inj hs
        exact absurd hc (by decide)
    case h_2 => rw [hread]; rfl
  | negSucc n =>
    rw [writeInt, List.cons_append, readInt, readNat_writeNat (n + 1) h]
    rfl

def quote : Char := Char.ofNat 0x22

def backslash : Char := Char.ofNat 0x5C

def hexDigit (n : Nat) : Char := Nat.digitChar n

def hexValue (c : Char) : Option Nat :=
  if c.isDigit then some (c.toNat - 0x30)
  else if 0x61 ≤ c.toNat ∧ c.toNat ≤ 0x66 then some (c.toNat - 0x61 + 10)
  else none

def shortEscape (c : Char) : Option Char :=
  if c.toNat = 0x08 then some 'b' else if c.toNat = 0x09 then some 't'
  else if c.toNat = 0x0A then some 'n' else if c.toNat = 0x0C then some 'f'
  else if c.toNat = 0x0D then some 'r' else none

def escapeChar (c : Char) : List Char :=
  if c = quote then [backslash, quote]
  else if c = backslash then [backslash, backslash]
  else if c.toNat < 0x20 then
    match shortEscape c with
    | some e => [backslash, e]
    | none => [backslash, 'u', '0', '0', hexDigit (c.toNat / 16), hexDigit (c.toNat % 16)]
  else [c]

def writeString (s : String) : List Char := quote :: s.toList.flatMap escapeChar ++ [quote]

def shortValue (c : Char) : Option Char :=
  if c = quote then some quote else if c = backslash then some backslash
  else if c = 'b' then some (Char.ofNat 0x08) else if c = 't' then some (Char.ofNat 0x09)
  else if c = 'n' then some (Char.ofNat 0x0A) else if c = 'f' then some (Char.ofNat 0x0C)
  else if c = 'r' then some (Char.ofNat 0x0D) else none

def readChars : List Char → Option (List Char × List Char)
  | [] => none
  | c :: s =>
    if c = quote then some ([], s)
    else if c = backslash then
      match s with
      | [] => none
      | 'u' :: '0' :: '0' :: hi :: lo :: s =>
        match hexValue hi, hexValue lo with
        | some hi, some lo => (readChars s).map fun (cs, s) => (Char.ofNat (16 * hi + lo) :: cs, s)
        | _, _ => none
      | e :: s =>
        match shortValue e with
        | some c => (readChars s).map fun (cs, s) => (c :: cs, s)
        | none => none
    else (readChars s).map fun (cs, s) => (c :: cs, s)

def readString : List Char → Option (String × List Char)
  | [] => none
  | c :: s => if c = quote then (readChars s).map fun (cs, s) => (String.ofList cs, s) else none

theorem hexValue_hexDigit {n : Nat} (h : n < 16) : hexValue (hexDigit n) = some n := by
  have all : ∀ n : Fin 16, hexValue (hexDigit n) = some n.1 := by decide
  exact all ⟨n, h⟩

section Reader

variable (s : List Char)

theorem readChars_quote : readChars (quote :: s) = some ([], s) := by
  rw [readChars.eq_def]
  simp

theorem readChars_plain {c : Char} (hquote : c ≠ quote) (hback : c ≠ backslash) :
    readChars (c :: s) = (readChars s).map fun (cs, s) => (c :: cs, s) := by
  rw [readChars.eq_def]
  simp [hquote, hback]

theorem readChars_short {e c : Char} (he : e ≠ 'u') (hvalue : shortValue e = some c) :
    readChars (backslash :: e :: s) = (readChars s).map fun (cs, s) => (c :: cs, s) := by
  have hne : backslash ≠ quote := by decide
  rw [readChars.eq_def]
  simp only [hne, if_false, if_true]
  split
  case h_1 h => cases h
  case h_2 h => exact absurd (List.cons.inj h).1 he
  case h_3 h =>
    obtain ⟨rfl, rfl⟩ := List.cons.inj h
    rw [hvalue]

theorem readChars_hex {hi lo : Char} {a b : Nat} (hhi : hexValue hi = some a)
    (hlo : hexValue lo = some b) :
    readChars (backslash :: 'u' :: '0' :: '0' :: hi :: lo :: s) =
      (readChars s).map fun (cs, s) => (Char.ofNat (16 * a + b) :: cs, s) := by
  have hne : backslash ≠ quote := by decide
  rw [readChars.eq_def]
  simp [hne, hhi, hlo]

end Reader

theorem shortValue_of_shortEscape {c e : Char} (h : shortEscape c = some e) :
    e ≠ 'u' ∧ shortValue e = some c := by
  have letter : ∀ n, c.toNat = n → Char.ofNat n = c := fun n hn => by rw [← hn, Char.ofNat_toNat]
  unfold shortEscape at h
  repeat' split at h
  all_goals cases h
  all_goals exact ⟨by decide, by rw [← letter _ ‹_›]; decide⟩

theorem readChars_escapeChar (c : Char) (s : List Char) :
    readChars (escapeChar c ++ s) = (readChars s).map fun (cs, s) => (c :: cs, s) := by
  unfold escapeChar
  split
  case isTrue h => subst h; exact readChars_short s (by decide) (by decide)
  case isFalse hquote =>
    split
    case isTrue h => subst h; exact readChars_short s (by decide) (by decide)
    case isFalse hback =>
      split
      case isFalse => exact readChars_plain s hquote hback
      case isTrue hctl =>
        split
        case h_1 e he =>
          obtain ⟨hu, hvalue⟩ := shortValue_of_shortEscape he
          exact readChars_short s hu hvalue
        case h_2 =>
          have hhi := hexValue_hexDigit (n := c.toNat / 16) (by omega)
          have hlo := hexValue_hexDigit (n := c.toNat % 16) (by omega)
          have hread := readChars_hex s hhi hlo
          rwa [Nat.div_add_mod, Char.ofNat_toNat] at hread

theorem readChars_flatMap (cs s : List Char) :
    readChars (cs.flatMap escapeChar ++ quote :: s) = some (cs, s) := by
  induction cs with
  | nil => exact readChars_quote s
  | cons c cs ih =>
    rw [List.flatMap_cons, List.append_assoc, readChars_escapeChar, ih]
    rfl

theorem readString_writeString (str : String) (s : List Char) :
    readString (writeString str ++ s) = some (str, s) := by
  rw [writeString, List.cons_append, List.cons_append, readString, if_pos rfl, List.append_assoc,
    List.singleton_append, readChars_flatMap]
  simp

def openBrace : Char := Char.ofNat 0x7B

def closeBrace : Char := Char.ofNat 0x7D

def writeKey (before : Char) (name : String) : List Char := before :: writeString name ++ [':']

def expect (text s : List Char) : Option (List Char) :=
  if text.isPrefixOf s then some (s.drop text.length) else none

theorem expect_append (text s : List Char) : expect text (text ++ s) = some s := by
  simp [expect]

section Prefixes

def Stops (read : List Char → Option (α × List Char)) : Prop :=
  ∀ {s a rest} q, read s = some (a, rest) → rest ≠ [] → read (s ++ q) = some (a, rest ++ q)

theorem expect_append_right {text s rest : List Char} (q : List Char)
    (h : expect text s = some rest) : expect text (s ++ q) = some (rest ++ q) := by
  obtain ⟨hpre, hrest⟩ := Option.ite_none_right_eq_some.mp h
  obtain ⟨t, rfl⟩ := List.isPrefixOf_iff_prefix.mp hpre
  rw [List.drop_left, Option.some.injEq] at hrest
  rw [List.append_assoc, expect_append, hrest]

theorem readChars_append {s cs rest : List Char} (q : List Char)
    (h : readChars s = some (cs, rest)) : readChars (s ++ q) = some (cs, rest ++ q) := by
  fun_induction readChars s generalizing cs rest with
  | case1 => cases h
  | case2 s =>
    cases h
    exact readChars_quote _
  | case3 => cases h
  | case4 hi lo s a b hlo hhi hne ih =>
    obtain ⟨⟨cs', s'⟩, hs, heq⟩ := Option.map_eq_some_iff.mp h
    cases heq
    rw [List.cons_append, List.cons_append, List.cons_append, List.cons_append, List.cons_append,
      List.cons_append, readChars_hex _ hhi hlo, ih hs]
    rfl
  | case5 => cases h
  | case6 e s hex c hshort hne ih =>
    obtain ⟨⟨cs', s'⟩, hs, heq⟩ := Option.map_eq_some_iff.mp h
    cases heq
    have hu : e ≠ 'u' := by
      rintro rfl
      have hnone : shortValue 'u' = none := by decide
      rw [hnone] at hshort
      cases hshort
    rw [List.cons_append, List.cons_append, readChars_short _ hu hshort, ih hs]
    rfl
  | case7 => cases h
  | case8 c s hquote hback ih =>
    obtain ⟨⟨cs', s'⟩, hs, heq⟩ := Option.map_eq_some_iff.mp h
    cases heq
    rw [List.cons_append, readChars_plain _ hquote hback, ih hs]
    rfl

theorem readString_stops : Stops readString := by
  intro s a rest q h _
  cases s with
  | nil => cases h
  | cons c s =>
    obtain ⟨hc, h⟩ := Option.ite_none_right_eq_some.mp h
    obtain ⟨⟨cs, s'⟩, hs, heq⟩ := Option.map_eq_some_iff.mp h
    cases heq
    rw [List.cons_append, readString, if_pos hc, readChars_append q hs]
    rfl

theorem readNat_stops : Stops readNat := by
  intro s n rest q h hrest
  have same : (s ++ q).takeWhile Char.isDigit = s.takeWhile Char.isDigit ∧
      (s ++ q).dropWhile Char.isDigit = s.dropWhile Char.isDigit ++ q := by
    have hdrop : s.dropWhile Char.isDigit ≠ [] := by
      unfold readNat at h
      split at h
      · cases h
      · cases h
        exact hrest
    constructor
    · rw [List.takeWhile_append, if_neg]
      intro hlen
      have hsplit := congrArg List.length (List.takeWhile_append_dropWhile (p := Char.isDigit) (l := s))
      rw [List.length_append, hlen] at hsplit
      exact hdrop (List.length_eq_zero_iff.mp (by omega))
    · rw [List.dropWhile_append, if_neg (by simpa using hdrop)]
  unfold readNat at h ⊢
  rw [same.1, same.2]
  split at h
  · cases h
  · cases h
    rfl

theorem readInt_stops : Stops readInt := by
  intro s n rest q h hrest
  cases s with
  | nil => cases h
  | cons c s =>
    by_cases hc : c = '-'
    · subst hc
      obtain ⟨⟨m, s'⟩, hs, heq⟩ := Option.map_eq_some_iff.mp h
      cases heq
      rw [List.cons_append, readInt, readNat_stops q hs hrest]
      rfl
    · have plain : ∀ t, readInt (c :: t) = (readNat (c :: t)).map fun (n, s) => ((n : Int), s) := by
        intro t
        unfold readInt
        split
        case h_1 t' heq => exact absurd (List.cons.inj heq).1 hc
        case h_2 => rfl
      rw [plain] at h
      obtain ⟨⟨m, s'⟩, hs, heq⟩ := Option.map_eq_some_iff.mp h
      cases heq
      have hq := readNat_stops q hs hrest
      rw [List.cons_append] at hq ⊢
      rw [plain, hq]
      rfl

def readNullable (read : List Char → Option (α × List Char)) (s : List Char) :
    Option (Option α × List Char) :=
  match expect "null".toList s with
  | some s => some (none, s)
  | none => (read s).map fun (a, s) => (some a, s)

theorem readNullable_stops {read : List Char → Option (α × List Char)} (h : Stops read)
    (hnil : read [] = none) (hn : ∀ s, read ('n' :: s) = none) : Stops (readNullable read) := by
  intro s a rest q hread hrest
  unfold readNullable at hread ⊢
  split at hread
  case h_1 s' hs =>
    cases hread
    rw [expect_append_right q hs]
  case h_2 hs =>
    obtain ⟨⟨b, s'⟩, hb, heq⟩ := Option.map_eq_some_iff.mp hread
    cases heq
    have other : expect "null".toList (s ++ q) = none := by
      cases s with
      | nil => rw [hnil] at hb; cases hb
      | cons c s =>
        have hc : c ≠ 'n' := by
          rintro rfl
          rw [hn] at hb
          cases hb
        rw [expect, if_neg]
        simp [Ne.symm hc]
    rw [other, h q hb hrest]
    rfl

end Prefixes

end GpuMarket.Lib.Json
