import GpuMarket.Lib.Grid

namespace GpuMarket

def divCeil (a b : UInt32) : UInt32 := if a % b > 0 then a / b + 1 else a / b

theorem toNat_add_of_lt {a b : UInt32} (h : a.toNat + b.toNat < 2 ^ 32) :
    (a + b).toNat = a.toNat + b.toNat := by
  rw [UInt32.toNat_add, Nat.mod_eq_of_lt h]

theorem toNat_mul_of_lt {a b : UInt32} (h : a.toNat * b.toNat < 2 ^ 32) :
    (a * b).toNat = a.toNat * b.toNat := by
  rw [UInt32.toNat_mul, Nat.mod_eq_of_lt h]

theorem toNat_div_lt {a b : UInt32} (h : 0 < a.toNat % b.toNat) :
    a.toNat / b.toNat + 1 < 2 ^ 32 := by
  have ha : a.toNat < 2 ^ 32 := a.toNat_lt
  have hdiv : a.toNat / b.toNat * b.toNat ≤ a.toNat := Nat.div_mul_le_self a.toNat b.toNat
  cases hb : b.toNat with
  | zero => simp
  | succ d =>
    cases d with
    | zero => simp [hb, Nat.mod_one] at h
    | succ d =>
      rw [hb] at hdiv
      have htwo : a.toNat / (d + 1 + 1) * 2 ≤ a.toNat / (d + 1 + 1) * (d + 1 + 1) :=
        Nat.mul_le_mul_left _ (by omega)
      omega

theorem divCeil_mul {a b : UInt32} (hb : 0 < b.toNat) :
    a.toNat ≤ (divCeil a b).toNat * b.toNat ∧
      (divCeil a b).toNat * b.toNat < a.toNat + b.toNat := by
  have hdiv : a.toNat / b.toNat * b.toNat + a.toNat % b.toNat = a.toNat :=
    Nat.div_add_mod' a.toNat b.toNat
  have hmod : a.toNat % b.toNat < b.toNat := Nat.mod_lt _ hb
  unfold divCeil
  split
  case isTrue hpos =>
    have hrest : 0 < a.toNat % b.toNat := by
      simpa [UInt32.lt_iff_toNat_lt] using hpos
    have hsucc : (a / b + 1).toNat = (a / b).toNat + 1 := by
      apply toNat_add_of_lt
      simpa using toNat_div_lt hrest
    rw [hsucc, UInt32.toNat_div, Nat.succ_mul]
    omega
  case isFalse hzero =>
    have hrest : a.toNat % b.toNat = 0 := by
      simpa [UInt32.lt_iff_toNat_lt] using hzero
    rw [UInt32.toNat_div]
    omega

theorem place_eq_iff {w q r i : Nat} (hr : r < w) : q * w + r = i ↔ i / w = q ∧ i % w = r := by
  rw [Nat.div_mod_unique (by omega), and_iff_left hr, Nat.add_comm, Nat.mul_comm]

end GpuMarket
