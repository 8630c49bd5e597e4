import Mathlib.Algebra.Order.Ring.Int

namespace GpuMarket

/-- The value of an `i64` operation whose exact result is `x`: without overflow checks it wraps
around. -/
def wrap64 (x : Int) : Int := x.bmod (2 ^ 64)

theorem wrap64_lt (x : Int) : wrap64 x < 2 ^ 63 := by
  rw [wrap64, Int.bmod_def]
  omega

theorem wrap64_of_nonneg {x : Int} (h : 0 ≤ x) (hx : x < 2 ^ 63) : wrap64 x = x := by
  rw [wrap64, Int.bmod_def]
  omega

theorem wrap64_le {x : Int} (h : 0 ≤ x) : wrap64 x ≤ x := by
  rw [wrap64, Int.bmod_def]
  omega

theorem wrap64_le_of_le {x : Int} (h : 2 ^ 63 ≤ x) : wrap64 x ≤ x - 2 ^ 64 := by
  rw [wrap64, Int.bmod_def]
  omega

theorem wrap64_eq_self_iff {x : Int} (h : 0 ≤ x) : wrap64 x = x ↔ x < 2 ^ 63 :=
  ⟨fun heq => heq ▸ wrap64_lt x, wrap64_of_nonneg h⟩

/-- How the result of an `i64` operation is taken: as it is, or wrapped around as a build without
overflow checks leaves it. -/
inductive Arith
  | exact
  | wrapping
  deriving DecidableEq, Repr

def Arith.int64 : Arith → Int → Int
  | .exact, x => x
  | .wrapping, x => wrap64 x

theorem Arith.int64_of_fits (arith : Arith) {x : Int} (h : 0 ≤ x) (hx : x < 2 ^ 63) :
    arith.int64 x = x := by
  cases arith with
  | exact => rfl
  | wrapping => exact wrap64_of_nonneg h hx

theorem Arith.int64_le (arith : Arith) {x : Int} (h : 0 ≤ x) : arith.int64 x ≤ x := by
  cases arith with
  | exact => exact le_rfl
  | wrapping => exact wrap64_le h

end GpuMarket
