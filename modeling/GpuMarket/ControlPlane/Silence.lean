import GpuMarket.ControlPlane.Rentals
import GpuMarket.ControlPlane.Sequential
import Mathlib.Data.List.Count
import Mathlib.Tactic.Ring

namespace GpuMarket

open Lib

def Op.clock : Op → Option Int
  | .register _ _ now | .heartbeat _ _ now | .report _ _ now | .payout _ _ _ now
  | .createAccount _ now | .deposit _ _ _ now | .createRental _ now | .deleteRental _ now
  | .markOffline now => some now
  | .health | .offers _ | .getAccount _ | .getRental _ | .rate .. | .pollInvoices ..
  | .enforceBudgets _ => none

/-- The clock does not go back. -/
def Clocked (ops : List Op) : Prop := (ops.filterMap Op.clock).Pairwise (· ≤ ·)

instance (ops : List Op) : Decidable (Clocked ops) :=
  inferInstanceAs (Decidable (List.Pairwise _ _))

def upTo (s : Int) (ops : List Op) : List Op := ops.takeWhile fun op => op.clock.all (· ≤ s)

/-- At second `s` of a run the machine's last heartbeat is within the timeout. -/
def LiveAt (env : Env) (ops : List Op) (machineId s : Int) : Prop :=
  ∃ m ∈ (perform env (upTo s ops)).machines.rows, m.id = machineId ∧
    s - m.lastHeartbeat ≤ env.heartbeatTimeoutSecs

instance (env : Env) (ops : List Op) (machineId : Int) : DecidablePred (LiveAt env ops machineId) :=
  fun s => inferInstanceAs (Decidable (∃ m ∈ (perform env (upTo s ops)).machines.rows, _ ∧ _))

def seconds (start stop : Int) : List Int :=
  (List.range (stop - start).toNat).map (start + Int.ofNat ·)

/-- How many of the seconds from `start` to `stop` the machine was not silent at. -/
def liveSeconds (env : Env) (ops : List Op) (machineId start stop : Int) : Int :=
  (seconds start stop).countP fun s => LiveAt env ops machineId s

def silentSeconds (env : Env) (ops : List Op) (machineId start stop : Int) : Int :=
  (seconds start stop).countP fun s => ¬LiveAt env ops machineId s

theorem live_add_silent (env : Env) (ops : List Op) (machineId start stop : Int) :
    liveSeconds env ops machineId start stop + silentSeconds env ops machineId start stop =
      max (stop - start) 0 := by
  have split := (seconds start stop).length_eq_countP_add_countP
    fun s => decide (LiveAt env ops machineId s)
  have length : (seconds start stop).length = (stop - start).toNat := by simp [seconds]
  rw [length] at split
  rw [← Int.toNat_eq_max, split, Nat.cast_add]
  simp [liveSeconds, silentSeconds]

/-- A report that bills a rental, in the state that it meets. -/
def Op.Settles (db : Db) (rental : RentalRow) (now : Int) : Op → Prop
  | .report auth req t =>
    t = now ∧ settles rental req = true ∧ ∃ machine, authenticate db auth = .ok machine ∧
      rentalOfMachine db req.rentalId machine.id = .ok rental
  | _ => False

/-- Every rental that the last operation of a run bills is charged at most for the seconds in which
its machine was not silent. -/
def BilledForLive (env : Env) (ops : List Op) (op : Op) : Prop :=
  ∀ rental now, op.Settles (perform env ops) rental now →
    ∀ r ∈ (op.step env (perform env ops)).rentals.rows, r.id = rental.id →
      60 * r.satsCharged ≤
        r.rateSatsPerMin * liveSeconds env ops r.machineId r.createdAt now

/-- What the charge leaves out of the price of the elapsed seconds: where the product wraps around,
what it loses by that, and the remainder of the division. -/
def RentalRow.lost (env : Env) (r : RentalRow) (now : Int) : Int :=
  let product :=
    env.arith.int64 (max (env.arith.int64 (now - r.createdAt)) 0 * r.rateSatsPerMin)
  max (now - r.createdAt) 0 * r.rateSatsPerMin - product + product.tmod 60

/-- What the silent seconds cost is lost in the arithmetic, or the account is too poor to pay for
more than the other seconds. -/
def SilenceFree (env : Env) (ops : List Op) (op : Op) : Prop :=
  ∀ rental now, op.Settles (perform env ops) rental now →
    ∀ a ∈ (perform env ops).accounts.rows, a.id = rental.accountId →
      rental.rateSatsPerMin * silentSeconds env ops rental.machineId rental.createdAt now ≤
        rental.lost env now ∨
      60 * a.balanceSats ≤
        rental.rateSatsPerMin * liveSeconds env ops rental.machineId rental.createdAt now

theorem Op.Settles.charges {env : Env} {db : Db} (hwf : db.Wf) {op : Op} {rental : RentalRow}
    {now : Int} (h : op.Settles db rental now) :
    ∃ a ∈ db.accounts.rows, a.id = rental.accountId ∧
      ∃ r ∈ (op.step env db).rentals.rows, r.terms = rental.terms ∧
        r.satsCharged = chargeOf env rental now a.balanceSats := by
  cases op with
  | report auth req t =>
    obtain ⟨rfl, hset, machine, hm, hr⟩ := h
    obtain ⟨v, hx⟩ := @Op.report_step_of_ok env db hwf auth req t machine rental hm hr
    obtain ⟨hmem, hid, hmachine⟩ := rentalOfMachine_ok hr
    have hv : (Txn.report machine rental req t).Valid db :=
      ⟨authenticate_hasMachine hm, ⟨rental, hmem, rfl⟩, hid, hmachine⟩
    obtain ⟨charge, new, hrows, -, -, -, hcharge⟩ := exec_rentals hv hx
    obtain ⟨a, ha, haid, rfl⟩ := hcharge machine rental req t rfl hset
    refine ⟨a, ha, haid, _, hrows ▸ List.mem_append_left _ (List.mem_map_of_mem hmem),
      Txn.rewrite_terms _ _ _, ?_⟩
    simp [Txn.rewrite, hid, hset]
  | _ => exact h.elim

theorem chargeOf_le_iff {env : Env} {rental : RentalRow} {now sats live silent : Int}
    (h : live + silent = max (now - rental.createdAt) 0) :
    60 * chargeOf env rental now sats ≤ rental.rateSatsPerMin * live ↔
      rental.rateSatsPerMin * silent ≤ rental.lost env now ∨
        60 * sats ≤ rental.rateSatsPerMin * live := by
  have hdiv := Int.mul_tdiv_add_tmod (env.arith.int64
    (max (env.arith.int64 (now - rental.createdAt)) 0 * rental.rateSatsPerMin)) 60
  have hprice : max (now - rental.createdAt) 0 * rental.rateSatsPerMin =
      rental.rateSatsPerMin * live + rental.rateSatsPerMin * silent := by
    rw [← h]
    ring
  simp only [chargeOf, accruedCharge, RentalRow.lost, hprice]
  omega

theorem billedForLive_iff (env : Env) (ops : List Op) (op : Op) :
    BilledForLive env ops op ↔ SilenceFree env ops op := by
  have hwf := perform_wf env ops
  refine forall₃_congr fun rental now hset => ?_
  obtain ⟨a, ha, haid, r, hr, hterms, hcharge⟩ := @Op.Settles.charges env _ hwf _ _ _ hset
  obtain ⟨hm, -, -, -, hrate, hcreated, hid⟩ := RentalRow.terms_eq_iff.mp hterms
  have price := @chargeOf_le_iff env rental now a.balanceSats _ _
    (live_add_silent env ops rental.machineId rental.createdAt now)
  constructor
  · intro h a' ha' haid'
    rw [Table.eq_of_key_eq ha' ha (haid'.trans haid.symm), ← price]
    have hbound := h r hr hid
    rwa [hcharge, hm, hrate, hcreated] at hbound
  · intro h r' hr' hid'
    rw [Table.eq_of_key_eq hr' hr (hid'.trans hid.symm), hcharge, hm, hrate, hcreated, price]
    exact h a ha haid

/-- In a run of operations one at a time, no rental is charged for a second in which its host was
silent, exactly as long as every report that bills a rental finds that the arithmetic of its charge
loses what the silent seconds cost, or a balance below the price of the others. -/
theorem silence_unbilled_iff (env : Env) (ops : List Op) :
    (∀ pre op, pre ++ [op] <+: ops → BilledForLive env pre op) ↔
      ∀ pre op, pre ++ [op] <+: ops → SilenceFree env pre op :=
  forall₃_congr fun pre op _ => billedForLive_iff env pre op

/-- The host starts a rental, and is silent from then on. -/
def goneHost : List Op :=
  [.register testHost "agt_1" 0, .createAccount "acct_1" 0,
    .deposit "acct_1" ⟨100⟩ (some ⟨"lnbc1", "01"⟩) 0, .pollInvoices (fun _ => some true) (fun _ => 0),
    .createRental ⟨1, "acct_1", "nvidia/cuda:latest", some "ssh-ed25519 AAAA"⟩ 0,
    .heartbeat bearer ⟨true⟩ 0, .report bearer { rentalId := 1, status := .running } 0,
    .markOffline 240, .enforceBudgets fun _ => 240]

def lateStop : Op := .report bearer { rentalId := 1, status := .stopped } 240

theorem lateStop_bills_silence :
    Clocked (goneHost ++ [lateStop]) ∧ ¬BilledForLive testEnv goneHost lateStop := by
  refine ⟨by decide, fun h => ?_⟩
  have settled : ∃ machine ∈ (perform testEnv goneHost).machines.rows,
      ∃ rental ∈ (perform testEnv goneHost).rentals.rows,
        settles rental { rentalId := 1, status := .stopped } = true ∧
        authenticate (perform testEnv goneHost) bearer = .ok machine ∧
        rentalOfMachine (perform testEnv goneHost) 1 machine.id = .ok rental ∧
        ∃ r ∈ (lateStop.step testEnv (perform testEnv goneHost)).rentals.rows, r.id = rental.id ∧
          r.machineId = 1 ∧ r.createdAt = 0 ∧ r.rateSatsPerMin = 10 ∧ r.satsCharged = 40 := by
    decide +kernel
  obtain ⟨machine, -, rental, -, hset, hm, hrental, r, hr, hid, hmachine, hcreated, hrate,
    hcharged⟩ := settled
  have bound := h rental 240 ⟨rfl, hset, machine, hm, hrental⟩ r hr hid
  have live : liveSeconds testEnv goneHost 1 0 240 = 91 := by
    decide +kernel
  rw [hcharged, hrate, hmachine, hcreated, live] at bound
  exact absurd bound (by decide)

end GpuMarket
