import GpuMarket.Core.Int64
import GpuMarket.Core.Wire
import GpuMarket.ControlPlane.Db

namespace GpuMarket

open Lib

/-- What `AppState` holds beside the database and the clock, and the arithmetic of the build. -/
structure Env where
  serde : Serde
  arith : Arith := .wrapping
  heartbeatTimeout : Nat := 90
  lnBackendName : String := "mock"

def Env.exactly (env : Env) : Env := { env with arith := .exact }

def Env.heartbeatTimeoutSecs (env : Env) : Int := env.heartbeatTimeout

/-- Prorated charge in whole sats.  Division truncates, as `i64` division does. -/
def accruedCharge (arith : Arith) (start stop ratePerMin : Int) : Int :=
  let elapsed := max (arith.int64 (stop - start)) 0
  (arith.int64 (elapsed * ratePerMin)).tdiv 60

theorem accruedCharge_nonneg {rate : Int} (h : 0 ≤ rate) (start stop : Int) :
    0 ≤ accruedCharge .exact start stop rate :=
  Int.tdiv_nonneg (Int.mul_nonneg (le_max_right _ _) h) (by decide)

theorem accruedCharge_eq {rate : Int} (h : 0 ≤ rate) (start stop : Int) :
    accruedCharge .exact start stop rate = max (stop - start) 0 * rate / 60 :=
  Int.tdiv_eq_ediv_of_nonneg (Int.mul_nonneg (le_max_right _ _) h)

theorem accruedCharge_eq_ediv {start stop rate : Int} (hrate : 0 ≤ rate) (hstop : start ≤ stop) :
    accruedCharge .exact start stop rate = (stop - start) * rate / 60 := by
  rw [accruedCharge_eq hrate, max_eq_left (Int.sub_nonneg.mpr hstop)]

section Fitting

variable {start stop rate : Int}

theorem accruedCharge_of_fits (arith : Arith) (hrate : 1 ≤ rate) (hstop : start ≤ stop)
    (hfits : (stop - start) * rate < 2 ^ 63) :
    accruedCharge arith start stop rate = (stop - start) * rate / 60 := by
  have hpos : 0 ≤ stop - start := Int.sub_nonneg.mpr hstop
  have hprod : 0 ≤ (stop - start) * rate := Int.mul_nonneg hpos (by omega)
  have helapsed : stop - start ≤ (stop - start) * rate := le_mul_of_one_le_right hpos hrate
  rw [accruedCharge, arith.int64_of_fits hpos (by omega), max_eq_left hpos,
    arith.int64_of_fits hprod hfits, Int.tdiv_eq_ediv_of_nonneg hprod]

/-- A charge whose product wraps around falls short. -/
theorem accruedCharge_lt (hrate : 1 ≤ rate) (hover : 2 ^ 63 ≤ (stop - start) * rate) :
    accruedCharge .wrapping start stop rate < (stop - start) * rate / 60 := by
  have hwrap : wrap64 (max (wrap64 (stop - start)) 0 * rate) ≤ (stop - start) * rate - 60 := by
    by_cases hlt : stop - start < 2 ^ 63
    · have hpos : 0 ≤ stop - start := by
        by_contra hneg
        have hle : (stop - start) * rate ≤ 0 :=
          Int.mul_nonpos_of_nonpos_of_nonneg (by omega) (by omega)
        omega
      rw [wrap64_of_nonneg hpos hlt, max_eq_left hpos]
      have hle := wrap64_le_of_le hover
      omega
    · have hshort : max (wrap64 (stop - start)) 0 ≤ stop - start - 2 ^ 63 := by
        have hle := wrap64_le_of_le (not_lt.mp hlt)
        omega
      have hprod : 0 ≤ max (wrap64 (stop - start)) 0 * rate :=
        Int.mul_nonneg (le_max_right _ _) (by omega)
      calc wrap64 (max (wrap64 (stop - start)) 0 * rate)
          ≤ max (wrap64 (stop - start)) 0 * rate := wrap64_le hprod
        _ ≤ (stop - start - 2 ^ 63) * rate := Int.mul_le_mul_of_nonneg_right hshort (by omega)
        _ = (stop - start) * rate - 2 ^ 63 * rate := Int.sub_mul ..
        _ ≤ (stop - start) * rate - 60 := by omega
  rw [accruedCharge, Arith.int64, Arith.int64]
  generalize wrap64 (max (wrap64 (stop - start)) 0 * rate) = w at hwrap
  by_cases hw : 0 ≤ w
  · rw [Int.tdiv_eq_ediv_of_nonneg hw]
    omega
  · have hneg : 0 ≤ (-w).tdiv 60 := Int.tdiv_nonneg (by omega) (by decide)
    rw [Int.neg_tdiv] at hneg
    omega

end Fitting

def RentalRow.accrued (env : Env) (r : RentalRow) (now : Int) : Int :=
  accruedCharge env.arith r.createdAt now r.rateSatsPerMin

/-- The seconds since the rental's creation are computed without overflow. -/
def RentalRow.ClockFits (env : Env) (r : RentalRow) (now : Int) : Prop :=
  env.arith.int64 (now - r.createdAt) = now - r.createdAt

theorem RentalRow.accrued_le_exactly {env : Env} {r : RentalRow} {now : Int}
    (h : r.ClockFits env now) (hrate : 0 ≤ r.rateSatsPerMin) :
    r.accrued env now ≤ r.accrued env.exactly now := by
  have hpos : 0 ≤ max (now - r.createdAt) 0 * r.rateSatsPerMin :=
    Int.mul_nonneg (le_max_right _ _) hrate
  simp only [accrued, accruedCharge, show env.arith.int64 _ = _ from h]
  exact Int.tdiv_le_tdiv (by decide) (env.arith.int64_le hpos)

structure PendingInvoice where
  paymentHash : String
  accountId : String
  sats : Int
  deriving DecidableEq, Repr

/-- `SELECT payment_hash, account_id, sats FROM invoices WHERE settled = 0`. -/
def pendingInvoices (db : Db) : List PendingInvoice :=
  (db.invoices.rows.filter (!·.settled)).map fun i => ⟨i.paymentHash, i.accountId, i.sats⟩

def pollInvoiceTx (p : PendingInvoice) (now : Int) (db : Db) : Except SqlxError Db := do
  let db := db.settleInvoice p.paymentHash
  let db ← db.addBalance p.accountId p.sats
  return db.record now .deposit p.sats (some p.accountId) none none (some "deposit")

inductive TickError
  | isSettled
  | sqlx (e : SqlxError)

/-- `isSettled` answers with `none` where the backend's call fails, and `now` is the clock when
the invoice with a given hash is credited. -/
def pollInvoicesLoop (isSettled : String → Option Bool) (now : String → Int) :
    List PendingInvoice → Db → Db × Except TickError Unit
  | [], db => (db, .ok ())
  | p :: rest, db =>
    match isSettled p.paymentHash with
    | none => (db, .error .isSettled)
    | some false => pollInvoicesLoop isSettled now rest db
    | some true =>
      match pollInvoiceTx p (now p.paymentHash) db with
      | .ok db => pollInvoicesLoop isSettled now rest db
      | .error e => (db, .error (.sqlx e))

def pollInvoices (isSettled : String → Option Bool) (now : String → Int) (db : Db) :
    Db × Except TickError Unit :=
  pollInvoicesLoop isSettled now (pendingInvoices db) db

def markOffline (env : Env) (now : Int) (db : Db) : Db :=
  db.setOffline (now - env.heartbeatTimeoutSecs)

def runningRentals (db : Db) : List RentalRow :=
  db.rentals.rows.filter (·.status = .running)

/-- `SELECT last_heartbeat FROM machines WHERE id=?`. -/
def lastHeartbeat (db : Db) (machineId : Int) : Except SqlxError Int :=
  match db.machines.find? machineId with
  | none => .error .rowNotFound
  | some m => .ok m.lastHeartbeat

def evictTx (env : Env) (r : RentalRow) (now : Int) (db : Db) : Except SqlxError Db := do
  let db := db.updateRental r.id
    (fun r => { r with status := .evicting, error := some "insufficient balance" }) fun _ => rfl
  let payload := env.serde.toString (.stopRental r.id)
  let db ← db.insertCommand r.machineId payload now
  return db.record now .evict 0 (some r.accountId) none (some r.id) (some "insufficient balance")

/-- `now` is the clock when the rental with a given id is looked at. -/
def enforceBudgetsLoop (env : Env) (now : Int → Int) :
    List RentalRow → Db → Db × Except TickError Unit
  | [], db => (db, .ok ())
  | r :: rest, db =>
    match lastHeartbeat db r.machineId with
    | .error e => (db, .error (.sqlx e))
    | .ok lastHeartbeat =>
      if now r.id - lastHeartbeat > env.heartbeatTimeoutSecs then
        enforceBudgetsLoop env now rest db
      else
        match db.balanceOf r.accountId with
        | .error e => (db, .error (.sqlx e))
        | .ok balance =>
          if accruedCharge env.arith r.createdAt (now r.id) r.rateSatsPerMin ≤ balance then
            enforceBudgetsLoop env now rest db
          else
            match evictTx env r (now r.id) db with
            | .ok db => enforceBudgetsLoop env now rest db
            | .error e => (db, .error (.sqlx e))

def enforceBudgets (env : Env) (now : Int → Int) (db : Db) : Db × Except TickError Unit :=
  enforceBudgetsLoop env now (runningRentals db) db

end GpuMarket
