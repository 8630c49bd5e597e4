import GpuMarket.Core.Api
import GpuMarket.Core.Hex
import Mathlib.Algebra.Group.Nat.Defs

namespace GpuMarket

/-- `{n:064x}`. -/
def hex64 (n : Nat) : String := String.ofList ((Nat.toDigits 16 n).leftpad 64 '0')

/-- The in-process Lightning backend; an `Instant` is an integer. -/
structure MockBackend where
  settleDelay : Nat
  counter : Nat := 1
  /-- from a payment hash to the instant from which it counts as settled, latest entry first -/
  settleAt : List (String × Int) := []

namespace MockBackend

def new (settleDelay : Nat) : MockBackend := { settleDelay }

/-- The counter is an `AtomicU64`, which wraps around. -/
def createInvoice (b : MockBackend) (sats now : Int) : Invoice × MockBackend :=
  let n := b.counter
  let paymentHash := hex64 n
  let bolt11 := "lnbcmock" ++ toString sats ++ "n" ++ toString n
  ({ bolt11, paymentHash },
    { b with
      counter := (n + 1) % 2 ^ 64
      settleAt := (paymentHash, now + b.settleDelay) :: b.settleAt })

def isSettled (b : MockBackend) (paymentHash : String) (now : Int) : Bool :=
  (b.settleAt.lookup paymentHash).any fun instant => decide (instant ≤ now)

theorem mem_of_isSettled {b : MockBackend} {hash : String} {now : Int}
    (h : b.isSettled hash now = true) : hash ∈ b.settleAt.map (·.1) := by
  by_contra hnot
  have hnone : b.settleAt.lookup hash = none := by
    refine List.lookup_eq_none_iff.mpr fun e he => ?_
    have hne : hash ≠ e.1 := fun heq => hnot (List.mem_map.mpr ⟨e, he, heq.symm⟩)
    simpa using hne
  rw [isSettled, hnone] at h
  cases h

end MockBackend

theorem hex64_injective : Function.Injective hex64 := by
  intro n m h
  have hdigits := congrArg ofHex (String.ofList_injective h)
  rwa [ofHex_leftpad, ofHex_leftpad, ofHex_toDigits, ofHex_toDigits] at hdigits

/-- The first `2 ^ 64` values of a counter that starts at 1 are distinct. -/
theorem hex64_counter_inj {j k : Nat} (hj : j < 2 ^ 64) (hk : k < 2 ^ 64)
    (h : hex64 ((j + 1) % 2 ^ 64) = hex64 ((k + 1) % 2 ^ 64)) : j = k := by
  have hmod := hex64_injective h
  omega

end GpuMarket
