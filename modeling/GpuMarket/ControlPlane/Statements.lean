import GpuMarket.Lib.Transaction
import GpuMarket.ControlPlane.Server

namespace GpuMarket

open Lib

/-! The writes of the transactions keep the row's key. -/

theorem MachineRow.live_id (req : HeartbeatRequest) (now : Int) (m : MachineRow) :
    { m with lastHeartbeat := now, online := req.online }.id = m.id := rfl

theorem MachineRow.credited_id (charge : Int) (m : MachineRow) :
    { m with payoutBalance := m.payoutBalance + charge }.id = m.id := rfl

theorem MachineRow.paid_id (m : MachineRow) : { m with payoutBalance := 0 }.id = m.id := rfl

theorem RentalRow.billed_id (charge minutes : Int) (r : RentalRow) :
    { r with satsCharged := charge, minutesBilled := minutes }.id = r.id := rfl

theorem RentalRow.evicting_id (r : RentalRow) : { r with status := .evicting }.id = r.id := rfl

theorem RentalRow.insolvent_id (r : RentalRow) :
    { r with status := .evicting, error := some "insufficient balance" }.id = r.id := rfl

namespace Statements

def write (f : Db → Except SqlxError Db) : Stmts Db ApiError Unit :=
  .execute fun db => (sql (f db)).map (·, ())

def update (f : Db → Db) : Stmts Db ApiError Unit := .execute fun db => .ok (f db, ())

def record (ts : Int) (kind : LedgerKind) (deltaSats : Int) (accountId : Option String)
    (machineId rentalId : Option Int) (note : Option String) : Stmts Db ApiError Unit :=
  update (·.record ts kind deltaSats accountId machineId rentalId note)

def recordCharge (ts : Int) (accountId : String) (machineId rentalId rate : Int) :
    Stmts Db ApiError Unit := do
  record ts .rentalCharge (-rate) (some accountId) none (some rentalId) none
  record ts .hostCredit rate none (some machineId) (some rentalId) none

/-! The bodies of the transactions, statement by statement. -/

section Bodies

variable (env : Env)

def createRental (req : CreateRentalRequest) (now : Int) : Stmts Db ApiError Reply := do
  let machine ← .fetch (findMachine · req.machineId)
  let account ← .fetch (findAccount · req.accountId)
  let sshPubkey ← .done (sshKey req)
  if ¬machine.online then .fail (.conflict "machine is offline")
  let occupied ← .select fun db => decide (occupied db req.machineId)
  if occupied then .fail (.conflict "machine already rented")
  let rate := machine.rateSatsPerMin
  if account.balanceSats < rate then
    .fail (.paymentRequired "balance below one minute at the machine's rate")
  let rentalId ← .execute fun db =>
    (sql (db.insertRental req.machineId req.accountId req.image sshPubkey rate now)).map Prod.swap
  let payload := env.serde.toString (.startRental rentalId req.image sshPubkey)
  write (·.insertCommand req.machineId payload now)
  return .rental rentalId .provisioning rate

def deleteRental (r : RentalRow) (now : Int) : Stmts Db ApiError Reply := do
  update (·.updateRental r.id (fun r => { r with status := .evicting }) RentalRow.evicting_id)
  let payload := env.serde.toString (.stopRental r.id)
  write (·.insertCommand r.machineId payload now)
  return .rentalStatus r.id "evicting"

def heartbeat (machine : MachineRow) (req : HeartbeatRequest) (now : Int) :
    Stmts Db ApiError Reply := do
  update (·.updateMachine machine.id
    (fun m => { m with lastHeartbeat := now, online := req.online }) (MachineRow.live_id req now))
  let rows ← .select (undelivered · machine.id)
  rows.forM fun c => .execute fun db => .ok (db.setDelivered c.id, ())
  let commands ← .done (rows.mapM fun c => decode env c.payload)
  return .commands commands

def report (machine : MachineRow) (rental : RentalRow) (req : ReportRequest) (now : Int) :
    Stmts Db ApiError Reply := do
  update (·.updateRental req.rentalId (req.apply machine now) (req.apply_id machine now))
  if settles rental req then
    let accrued := accruedCharge env.arith rental.createdAt now rental.rateSatsPerMin
    let balance ← .fetch fun db => sql (db.balanceOf rental.accountId)
    let charge := min accrued balance
    if charge > 0 then
      write (·.addBalance rental.accountId (-charge))
      update (·.updateMachine machine.id
        (fun m => { m with payoutBalance := m.payoutBalance + charge })
        (MachineRow.credited_id charge))
      recordCharge now rental.accountId machine.id rental.id charge
    let minutes := (max (now - rental.createdAt) 0).tdiv 60
    update (·.updateRental rental.id
      (fun r => { r with satsCharged := charge, minutesBilled := minutes })
      (RentalRow.billed_id charge minutes))
  return .ok

def payout (machine : MachineRow) (now : Int) : Stmts Db ApiError Reply := do
  let balance := machine.payoutBalance
  update (·.updateMachine machine.id (fun m => { m with payoutBalance := 0 }) MachineRow.paid_id)
  record now .payout (-balance) none (some machine.id) none (some "payout")
  return .paid balance

def pollInvoice (p : PendingInvoice) (now : Int) : Stmts Db ApiError Reply := do
  update (·.settleInvoice p.paymentHash)
  write (·.addBalance p.accountId p.sats)
  record now .deposit p.sats (some p.accountId) none none (some "deposit")
  return .ok

def evict (r : RentalRow) (now : Int) : Stmts Db ApiError Reply := do
  update (·.updateRental r.id
    (fun r => { r with status := .evicting, error := some "insufficient balance" })
    RentalRow.insolvent_id)
  let payload := env.serde.toString (.stopRental r.id)
  write (·.insertCommand r.machineId payload now)
  record now .evict 0 (some r.accountId) none (some r.id) (some "insufficient balance")
  return .ok

end Bodies

/-! Where nothing fails, they are the transactions of the handlers. -/

open Stmts

section Bind

variable (g : Unit → Stmts Db ApiError Reply) (db : Db)

@[simp] theorem meaning_write_bind (f : Db → Except SqlxError Db) :
    (write f >>= g).meaning db = sql (f db) >>= fun db => (g ()).meaning db := by
  rw [write, meaning_execute_bind]
  cases sql (f db) <;> rfl

@[simp] theorem meaning_update_bind (f : Db → Db) :
    (update f >>= g).meaning db = (g ()).meaning (f db) := rfl

@[simp] theorem meaning_record_bind (ts : Int) (kind : LedgerKind) (delta : Int)
    (accountId : Option String) (machineId rentalId : Option Int) (note : Option String) :
    (record ts kind delta accountId machineId rentalId note >>= g).meaning db =
      (g ()).meaning (db.record ts kind delta accountId machineId rentalId note) := rfl

@[simp] theorem meaning_recordCharge_bind (ts : Int) (accountId : String)
    (machineId rentalId charge : Int) :
    (recordCharge ts accountId machineId rentalId charge >>= g).meaning db =
      (g ()).meaning (db.recordCharge ts accountId machineId rentalId charge) := rfl

end Bind

theorem deleteRental_meaning (env : Env) (r : RentalRow) (now : Int) (db : Db) :
    (deleteRental env r now).meaning db = deleteRentalTx env r now db := by
  simp only [deleteRental, meaning_update_bind, meaning_write_bind]
  rfl

theorem payout_meaning (machine : MachineRow) (now : Int) (db : Db) :
    (payout machine now).meaning db = payoutTx machine now db := rfl

theorem heartbeat_meaning (env : Env) (machine : MachineRow) (req : HeartbeatRequest) (now : Int)
    (db : Db) : (heartbeat env machine req now).meaning db = heartbeatTx env machine req now db := by
  simp only [heartbeat, meaning_update_bind, meaning_select_bind]
  refine (meaning_forM_bind _ (fun (db : Db) (c : CommandRow) => db.setDelivered c.id) _ _).trans ?_
  rw [meaning_done_bind]
  rfl

theorem map_sql_bind (x : Except SqlxError Db) (f : Db → Db) (v : Reply) :
    (sql (x >>= fun db => .ok (f db))).map (·, v) = sql x >>= fun db => .ok (f db, v) := by
  cases x <;> rfl

theorem pollInvoice_meaning (env : Env) (p : PendingInvoice) (now : Int) (db : Db) :
    (pollInvoice p now).meaning db = (Txn.pollInvoice p now).exec env db := by
  simp only [pollInvoice, meaning_update_bind, meaning_write_bind, meaning_record_bind]
  exact (map_sql_bind ..).symm

theorem evict_meaning (env : Env) (r : RentalRow) (now : Int) (db : Db) :
    (evict env r now).meaning db = (Txn.evict r now).exec env db := by
  simp only [evict, meaning_update_bind, meaning_write_bind, meaning_record_bind]
  exact (map_sql_bind ..).symm

theorem report_meaning (env : Env) (machine : MachineRow) (rental : RentalRow)
    (req : ReportRequest) (now : Int) (db : Db) :
    (report env machine rental req now).meaning db = reportTx env machine rental req now db := by
  simp only [report, reportTx, meaning_update_bind]
  split
  case isFalse => rfl
  case isTrue =>
    rw [meaning_fetch_bind]
    refine bind_congr fun balance => ?_
    split
    case isTrue =>
      rw [meaning_write_bind]
      rfl
    case isFalse => rfl

theorem createRental_meaning (env : Env) (req : CreateRentalRequest) (now : Int) (db : Db) :
    (createRental env req now).meaning db = createRentalTx env req now db := by
  simp only [createRental, createRentalTx, meaning_fetch_bind, meaning_done_bind]
  refine bind_congr fun machine => bind_congr fun account => bind_congr fun key => ?_
  split
  case isTrue => rfl
  case isFalse =>
    simp only [meaning_select_bind, decide_eq_true_eq]
    split
    case isTrue => rfl
    case isFalse =>
      split
      case isTrue => rfl
      case isFalse =>
        simp only [meaning_execute_bind, meaning_write_bind]
        cases sql (db.insertRental req.machineId req.accountId req.image key
          machine.rateSatsPerMin now) <;> rfl

end Statements

/-- The statements of a transaction.  What is not run between `BEGIN IMMEDIATE` and `COMMIT` is a
single statement. -/
def Txn.statements (env : Env) : Txn → Stmts Db ApiError Reply
  | .heartbeat machine req now => Statements.heartbeat env machine req now
  | .report machine rental req now => Statements.report env machine rental req now
  | .payout machine now => Statements.payout machine now
  | .createRental req now => Statements.createRental env req now
  | .deleteRental r now => Statements.deleteRental env r now
  | .pollInvoice p now => Statements.pollInvoice p now
  | .evict r now => Statements.evict env r now
  | txn => .execute (txn.exec env)

theorem Txn.statements_meaning (env : Env) (txn : Txn) (db : Db) :
    (txn.statements env).meaning db = txn.exec env db := by
  cases txn with
  | heartbeat machine req now => exact Statements.heartbeat_meaning env machine req now db
  | report machine rental req now => exact Statements.report_meaning env machine rental req now db
  | payout machine now => exact Statements.payout_meaning machine now db
  | createRental req now => exact Statements.createRental_meaning env req now db
  | deleteRental r now => exact Statements.deleteRental_meaning env r now db
  | pollInvoice p now => exact Statements.pollInvoice_meaning env p now db
  | evict r now => exact Statements.evict_meaning env r now db
  | _ => exact Stmts.meaning_execute _ db

end GpuMarket
