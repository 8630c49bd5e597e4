import GpuMarket.Lib.Table
import GpuMarket.Core.Api

namespace GpuMarket

open Lib

structure MachineRow where
  id : Int
  agentToken : String
  hostId : String
  gpuName : String
  gpuCount : Int
  vramMb : Int
  cpuName : String
  cpuCores : Int
  ramMb : Int
  diskGb : Int
  diskType : DiskType
  publicIp : String
  portStart : Int
  portEnd : Int
  inetDownMbps : Option ℚ
  inetUpMbps : Option ℚ
  country : Option String
  dlperf : ℚ
  rateSatsPerMin : Int
  payoutBalance : Int := 0
  online : Bool := false
  lastHeartbeat : Int := 0
  hwFingerprint : String
  createdAt : Int
  deriving DecidableEq

structure AccountRow where
  id : String
  balanceSats : Int := 0
  createdAt : Int
  deriving DecidableEq, Repr

structure RentalRow where
  id : Int
  machineId : Int
  accountId : String
  image : String
  sshPubkey : String
  status : RentalStatus
  kind : RentalKind := .ssh
  sshHost : Option String := none
  sshPort : Option Int := none
  containerId : Option String := none
  error : Option String := none
  rateSatsPerMin : Int
  satsCharged : Int := 0
  minutesBilled : Int := 0
  paidThrough : Int := 0
  createdAt : Int
  endedAt : Option Int := none
  deriving DecidableEq, Repr

structure InvoiceRow where
  paymentHash : String
  accountId : String
  sats : Int
  bolt11 : String
  settled : Bool := false
  createdAt : Int
  deriving DecidableEq, Repr

structure LedgerRow where
  ts : Int
  accountId : Option String
  machineId : Option Int
  rentalId : Option Int
  deltaSats : Int
  kind : LedgerKind
  note : Option String
  deriving DecidableEq, Repr

structure CommandRow where
  id : Int
  machineId : Int
  payload : String
  delivered : Bool := false
  createdAt : Int
  deriving DecidableEq, Repr

/-- The committed database.  Rows are never deleted, and each table keeps them in the order of
their insertion. -/
structure Db where
  machines : Table MachineRow.id
  accounts : Table AccountRow.id
  rentals : Table RentalRow.id
  invoices : Table InvoiceRow.paymentHash
  ledger : List LedgerRow
  commands : Table CommandRow.id

namespace SqlxError

def unique (column : String) : SqlxError := .database 2067 ("UNIQUE constraint failed: " ++ column)

def primaryKey (column : String) : SqlxError :=
  .database 1555 ("UNIQUE constraint failed: " ++ column)

def foreignKey : SqlxError := .database 787 "FOREIGN KEY constraint failed"

def check (constraint : String) : SqlxError :=
  .database 275 ("CHECK constraint failed: " ++ constraint)

end SqlxError

def RegisterRequest.toRow (req : RegisterRequest) (id : Int) (agentToken : String) (now : Int) :
    MachineRow where
  id
  agentToken
  hostId := req.hostId
  gpuName := req.gpuName
  gpuCount := req.gpuCount
  vramMb := req.vramMb
  cpuName := req.cpuName
  cpuCores := req.cpuCores
  ramMb := req.ramMb
  diskGb := req.diskGb
  diskType := req.diskType
  publicIp := req.publicIp
  portStart := req.portStart
  portEnd := req.portEnd
  inetDownMbps := req.inetDownMbps
  inetUpMbps := req.inetUpMbps
  country := req.country
  dlperf := req.dlperf
  rateSatsPerMin := req.rateSatsPerMin
  hwFingerprint := req.hwFingerprint
  online := true
  lastHeartbeat := now
  createdAt := now

@[simp] theorem RegisterRequest.toRow_id (req : RegisterRequest) (id : Int) (agentToken : String)
    (now : Int) : (req.toRow id agentToken now).id = id := rfl

def RegisterRequest.refresh (req : RegisterRequest) (now : Int) (m : MachineRow) : MachineRow :=
  { m with
    gpuName := req.gpuName
    gpuCount := req.gpuCount
    vramMb := req.vramMb
    cpuName := req.cpuName
    cpuCores := req.cpuCores
    ramMb := req.ramMb
    diskGb := req.diskGb
    diskType := req.diskType
    publicIp := req.publicIp
    portStart := req.portStart
    portEnd := req.portEnd
    inetDownMbps := req.inetDownMbps
    inetUpMbps := req.inetUpMbps
    country := req.country
    dlperf := req.dlperf
    rateSatsPerMin := req.rateSatsPerMin
    hwFingerprint := req.hwFingerprint
    online := true
    lastHeartbeat := now }

@[simp] theorem RegisterRequest.refresh_id (req : RegisterRequest) (now : Int) (m : MachineRow) :
    (req.refresh now m).id = m.id := rfl

def RentalRow.created (machineId : Int) (accountId image sshPubkey : String) (rate now id : Int) :
    RentalRow where
  id
  machineId
  accountId
  image
  sshPubkey
  status := .provisioning
  rateSatsPerMin := rate
  createdAt := now

@[simp] theorem RentalRow.created_id (machineId : Int) (accountId image sshPubkey : String)
    (rate now id : Int) : (created machineId accountId image sshPubkey rate now id).id = id := rfl

def CommandRow.queued (machineId : Int) (payload : String) (now id : Int) : CommandRow where
  id
  machineId
  payload
  createdAt := now

@[simp] theorem CommandRow.queued_id (machineId : Int) (payload : String) (now id : Int) :
    (queued machineId payload now id).id = id := rfl

namespace Db

def empty : Db := ⟨.empty, .empty, .empty, .empty, [], .empty⟩

/-! The statements that the handlers run. -/

def insertMachine (db : Db) (req : RegisterRequest) (agentToken : String) (now : Int) :
    Except SqlxError (Int × Db) :=
  if db.machines.rows.any (·.agentToken = agentToken) then .error (.unique "machines.agent_token")
  else if db.machines.rows.any (·.hostId = req.hostId) then .error (.unique "machines.host_id")
  else .ok (db.machines.nextId,
    { db with machines := db.machines.append (req.toRow · agentToken now) fun _ => req.toRow_id .. })

def updateMachine (db : Db) (id : Int) (f : MachineRow → MachineRow) (hf : ∀ m, (f m).id = m.id) :
    Db := { db with machines := db.machines.update id f hf }

/-- `UPDATE machines SET online = 0 WHERE online = 1 AND last_heartbeat < ?`. -/
def setOffline (db : Db) (threshold : Int) : Db :=
  { db with
    machines := db.machines.mapRows
      (fun m => if m.online ∧ m.lastHeartbeat < threshold then { m with online := false } else m)
      (by intro m; split <;> rfl) }

def insertAccount (db : Db) (id : String) (now : Int) : Except SqlxError Db :=
  if h : db.accounts.Has id then .error (.primaryKey "accounts.id")
  else .ok { db with accounts := db.accounts.insert { id, createdAt := now } h }

/-- `SELECT balance_sats FROM accounts WHERE id=?`. -/
def balanceOf (db : Db) (id : String) : Except SqlxError Int :=
  match db.accounts.find? id with
  | none => .error .rowNotFound
  | some a => .ok a.balanceSats

/-- `UPDATE accounts SET balance_sats = balance_sats + ? WHERE id = ?`, under the column's
`CHECK (balance_sats >= 0)`. -/
def addBalance (db : Db) (id : String) (delta : Int) : Except SqlxError Db :=
  if (db.accounts.find? id).any (·.balanceSats + delta < 0) then
    .error (.check "balance_sats >= 0")
  else .ok { db with
    accounts := db.accounts.update id (fun a => { a with balanceSats := a.balanceSats + delta })
      fun _ => rfl }

def withBalance (db : Db) (id : String) (delta : Int) : Db :=
  { db with
    accounts := db.accounts.update id (fun a => { a with balanceSats := a.balanceSats + delta })
      fun _ => rfl }

def insertRental (db : Db) (machineId : Int) (accountId image sshPubkey : String) (rate now : Int) :
    Except SqlxError (Int × Db) :=
  if db.machines.Has machineId ∧ db.accounts.Has accountId then
    .ok (db.rentals.nextId,
      { db with
        rentals := db.rentals.append (.created machineId accountId image sshPubkey rate now)
          fun _ => RentalRow.created_id .. })
  else .error .foreignKey

def updateRental (db : Db) (id : Int) (f : RentalRow → RentalRow) (hf : ∀ r, (f r).id = r.id) :
    Db := { db with rentals := db.rentals.update id f hf }

def insertInvoice (db : Db) (paymentHash accountId : String) (sats : Int) (bolt11 : String)
    (now : Int) : Except SqlxError Db :=
  if h : db.invoices.Has paymentHash then .error (.primaryKey "invoices.payment_hash")
  else if db.accounts.Has accountId then
    .ok { db with
      invoices := db.invoices.insert
        { paymentHash, accountId, sats, bolt11, createdAt := now } h }
  else .error .foreignKey

def settleInvoice (db : Db) (paymentHash : String) : Db :=
  { db with
    invoices := db.invoices.update paymentHash (fun i => { i with settled := true }) fun _ => rfl }

def insertCommand (db : Db) (machineId : Int) (payload : String) (now : Int) :
    Except SqlxError Db :=
  if db.machines.Has machineId then
    .ok { db with
      commands := db.commands.append (.queued machineId payload now) fun _ => CommandRow.queued_id .. }
  else .error .foreignKey

def setDelivered (db : Db) (id : Int) : Db :=
  { db with
    commands := db.commands.update id (fun c => { c with delivered := true }) fun _ => rfl }

/-- The only way to write to the ledger. -/
def record (db : Db) (ts : Int) (kind : LedgerKind) (deltaSats : Int) (accountId : Option String)
    (machineId rentalId : Option Int) (note : Option String) : Db :=
  { db with
    ledger := db.ledger ++ [{ ts, accountId, machineId, rentalId, deltaSats, kind, note }] }

/-- A metered charge: debit the account, credit the host, in two rows that sum to zero. -/
def recordCharge (db : Db) (ts : Int) (accountId : String) (machineId rentalId rate : Int) : Db :=
  (db.record ts .rentalCharge (-rate) (some accountId) none (some rentalId) none).record
    ts .hostCredit rate none (some machineId) (some rentalId) none

end Db

end GpuMarket
