import GpuMarket.Lib.Records

namespace GpuMarket

def hexValue (c : Char) : Nat := if c.toNat < 97 then c.toNat - 48 else c.toNat - 87

def ofHex (cs : List Char) : Nat := cs.foldl (fun v c => 16 * v + hexValue c) 0

theorem hexValue_digitChar {d : Nat} (h : d < 16) : hexValue d.digitChar = d := by
  decide +revert

theorem ofHex_concat (cs : List Char) (c : Char) :
    ofHex (cs ++ [c]) = 16 * ofHex cs + hexValue c := by
  simp [ofHex]

theorem ofHex_toDigits (n : Nat) : ofHex (Nat.toDigits 16 n) = n := by
  induction n using Nat.strongRecOn with
  | ind n ih =>
    by_cases hn : n < 16
    · rw [Nat.toDigits_of_lt_base hn]
      simpa [ofHex] using hexValue_digitChar hn
    · have hlast : n % 16 < 16 := Nat.mod_lt _ (by decide)
      have hsplit : Nat.toDigits 16 (n / 16) ++ Nat.toDigits 16 (n % 16) = Nat.toDigits 16 n := by
        rw [Nat.toDigits_append_toDigits (by decide) (by omega) hlast, Nat.div_add_mod]
      rw [← hsplit, Nat.toDigits_of_lt_base hlast, ofHex_concat, ih (n / 16) (by omega),
        hexValue_digitChar hlast, Nat.div_add_mod]

theorem ofHex_leftpad (k : Nat) (cs : List Char) : ofHex (cs.leftpad k '0') = ofHex cs := by
  have hzeros : ∀ j, (List.replicate j '0').foldl (fun v c => 16 * v + hexValue c) 0 = 0 := by
    intro j
    induction j with
    | zero => rfl
    | succ j ih => simpa [List.replicate_succ, hexValue] using ih
  rw [ofHex, List.leftpad, List.foldl_append, hzeros, ofHex]

/-- `{b:02x}`. -/
def hexByte (b : UInt8) : List Char := (Nat.toDigits 16 b.toNat).leftpad 2 '0'

theorem length_hexByte (b : UInt8) : (hexByte b).length = 2 := by
  have hdigits : (Nat.toDigits 16 b.toNat).length ≤ 2 := by
    rw [Nat.length_toDigits_le_iff (by decide) (by decide)]
    exact b.toNat_lt
  rw [hexByte, List.length_leftpad]
  exact Nat.max_eq_left hdigits

theorem hexByte_injective : Function.Injective hexByte := by
  intro b c h
  have hvalue := congrArg ofHex h
  simp only [hexByte, ofHex_leftpad, ofHex_toDigits] at hvalue
  exact UInt8.toNat_inj.mp hvalue

def hexString (bs : List UInt8) : String := String.ofList (bs.flatMap hexByte)

theorem hexString_injective : Function.Injective hexString := by
  intro as bs h
  exact Lib.flatMap_injective_of_length length_hexByte hexByte_injective
    (String.ofList_injective h)

end GpuMarket
