import GpuMarket.ControlPlane.Billing

namespace GpuMarket

open Lib

def health (env : Env) : Reply := .health env.lnBackendName

/-- Occupying statuses as the SQL list of the offer index and of rental creation. -/
def occupyingInList : List String := (RentalStatus.all.filter (·.occupiesMachine)).map (·.asStr)

theorem asStr_mem_occupyingInList (s : RentalStatus) :
    s.asStr ∈ occupyingInList ↔ s.occupiesMachine := by cases s <;> decide

def occupied (db : Db) (machineId : Int) : Prop :=
  ∃ r ∈ db.rentals.rows, r.machineId = machineId ∧ r.status.asStr ∈ occupyingInList

instance (db : Db) (machineId : Int) : Decidable (occupied db machineId) :=
  inferInstanceAs (Decidable (∃ r ∈ db.rentals.rows, _))

def machineToOffer (m : MachineRow) : Offer where
  machineId := m.id
  gpuName := m.gpuName
  gpuCount := m.gpuCount
  vramMb := m.vramMb
  cpuName := m.cpuName
  cpuCores := m.cpuCores
  ramMb := m.ramMb
  diskGb := m.diskGb
  diskType := m.diskType
  publicIp := m.publicIp
  country := m.country
  inetDownMbps := m.inetDownMbps
  inetUpMbps := m.inetUpMbps
  dlperf := m.dlperf
  rateSatsPerMin := m.rateSatsPerMin
  rateSatsPerHour := m.rateSatsPerMin * 60

/-- SQLite's `LIKE`: `%` is any run of characters, `_` any single one, and ASCII letters match
in either case. -/
def like : List Char → List Char → Bool
  | [], s => s.isEmpty
  | c :: p, s =>
    if c = '%' then s.tails.any (like p)
    else
      match s with
      | [] => false
      | d :: s => (c = '_' || c.toLower == d.toLower) && like p s

def OffersQuery.accepts (q : OffersQuery) (m : MachineRow) : Bool :=
  q.gpuName.all (fun name => like ("%" ++ name ++ "%").toList m.gpuName.toList) &&
    q.minVramMb.all (fun v => decide (v ≤ m.vramMb)) &&
    q.minGpuCount.all (fun c => decide (c ≤ m.gpuCount)) &&
    q.maxRateSatsPerMin.all (fun r => decide (m.rateSatsPerMin ≤ r))

/-- The sort column of the query, ascending. -/
def OffersQuery.sortKey (q : OffersQuery) (m : MachineRow) : ℚ :=
  if q.sort = some "rate" then m.rateSatsPerMin
  else if q.sort = some "dlperf" then -m.dlperf
  else m.rateSatsPerMin / max m.dlperf (1 / 100)

def OffersQuery.limitOrDefault (q : OffersQuery) : Nat := (max 1 (min (q.limit.getD 200) 200)).toNat

def offers (q : OffersQuery) (db : Db) : Reply :=
  let machines := db.machines.rows.filter fun m => m.online ∧ ¬occupied db m.id ∧ q.accepts m
  let machines := machines.insertionSort fun a b => q.sortKey a ≤ q.sortKey b
  .offers ((machines.take q.limitOrDefault).map machineToOffer)

def createAccountTx (id : String) (now : Int) (db : Db) : Except ApiError (Db × Reply) := do
  let db ← sql (db.insertAccount id now)
  return (db, .account id)

def findAccount (db : Db) (id : String) : Except ApiError AccountRow :=
  match db.accounts.find? id with
  | none => .error (.notFound "unknown account")
  | some a => .ok a

/-- `SELECT COALESCE(SUM(rate_sats_per_min), 0) FROM rentals WHERE account_id=? AND status=?`. -/
def burnSatsPerMin (db : Db) (id : String) : Int :=
  ((db.rentals.rows.filter fun r => r.accountId = id ∧ r.status = .running).map
    (·.rateSatsPerMin)).sum

def getAccount (id : String) (db : Db) : Except ApiError Reply := do
  let acct ← findAccount db id
  let burn := burnSatsPerMin db id
  return .accountDetails
    { accountId := acct.id
      balanceSats := acct.balanceSats
      burnSatsPerMin := burn
      runwayMinutes := if burn > 0 then some (acct.balanceSats.tdiv burn) else none }

def checkDeposit (req : DepositRequest) : Except ApiError Unit :=
  if req.sats < 1 then .error (.badRequest "deposit must be >= 1 sat") else .ok ()

def depositTx (id : String) (req : DepositRequest) (invoice : Invoice) (now : Int) (db : Db) :
    Except ApiError (Db × Reply) := do
  let db ← sql (db.insertInvoice invoice.paymentHash id req.sats invoice.bolt11 now)
  return (db, .invoice invoice.bolt11 invoice.paymentHash req.sats)

/-- `invoice` is the answer of `create_invoice`, `none` where the call fails. -/
def deposit (id : String) (req : DepositRequest) (invoice : Option Invoice) (now : Int) (db : Db) :
    Except ApiError (Db × Reply) := do
  checkDeposit req
  let _ ← findAccount db id
  match invoice with
  | none => .error ⟨.badGateway, .invoiceCreationFailed⟩
  | some invoice => depositTx id req invoice now db

/-- The key that a rental stores: only `metal:` images may omit it. -/
def sshKey (req : CreateRentalRequest) : Except ApiError String :=
  let keyless : Except ApiError String :=
    if isHttpStatusImage req.image then .ok ""
    else .error (.badRequest
      "ssh_pubkey is required for this image (only metal: images may omit it)")
  match req.sshPubkey.map trim with
  | some k => if k ≠ "" then .ok k else keyless
  | none => keyless

def findMachine (db : Db) (id : Int) : Except ApiError MachineRow :=
  match db.machines.find? id with
  | none => .error (.notFound "unknown machine")
  | some m => .ok m

/-- Nothing is billed up front: the account only has to hold one minute's rate. -/
def createRentalTx (env : Env) (req : CreateRentalRequest) (now : Int) (db : Db) :
    Except ApiError (Db × Reply) := do
  let machine ← findMachine db req.machineId
  let account ← findAccount db req.accountId
  let sshPubkey ← sshKey req
  if ¬machine.online then throw (.conflict "machine is offline")
  if occupied db req.machineId then throw (.conflict "machine already rented")
  let rate := machine.rateSatsPerMin
  if account.balanceSats < rate then
    throw (.paymentRequired "balance below one minute at the machine's rate")
  let (rentalId, db) ← sql (db.insertRental req.machineId req.accountId req.image sshPubkey rate now)
  let payload := env.serde.toString (.startRental rentalId req.image sshPubkey)
  let db ← sql (db.insertCommand req.machineId payload now)
  return (db, .rental rentalId .provisioning rate)

def findRental (db : Db) (id : Int) : Except ApiError RentalRow :=
  match db.rentals.find? id with
  | none => .error (.notFound "unknown rental")
  | some r => .ok r

/-- `ssh -p <port> root@<host>`, for the container tier only. -/
def sshCommand (r : RentalRow) : Option String :=
  match r.kind, r.sshHost, r.sshPort with
  | .ssh, some host, some port => some ("ssh -p " ++ toString port ++ " root@" ++ host)
  | _, _, _ => none

def getRental (id : Int) (db : Db) : Except ApiError Reply := do
  let r ← findRental db id
  match db.machines.find? r.machineId with
  | none => .error (.ofSqlx .rowNotFound)
  | some m =>
    return .rentalDetails
      { id := r.id
        machineId := r.machineId
        accountId := r.accountId
        image := r.image
        status := r.status
        kind := r.kind
        gpuName := m.gpuName
        gpuCount := m.gpuCount
        sshHost := r.sshHost
        sshPort := r.sshPort
        sshCommand := sshCommand r
        rateSatsPerMin := r.rateSatsPerMin
        satsCharged := r.satsCharged
        minutesBilled := r.minutesBilled
        paidThrough := r.paidThrough
        error := r.error
        createdAt := r.createdAt
        endedAt := r.endedAt }

/-- `r` is the row as it was read before the transaction. -/
def deleteRentalTx (env : Env) (r : RentalRow) (now : Int) (db : Db) :
    Except ApiError (Db × Reply) := do
  let db := db.updateRental r.id (fun r => { r with status := .evicting }) fun _ => rfl
  let payload := env.serde.toString (.stopRental r.id)
  let db ← sql (db.insertCommand r.machineId payload now)
  return (db, .rentalStatus r.id "evicting")

def alreadyStopping (r : RentalRow) : Bool := r.status.isTerminal || r.status = .evicting

def deleteRental (env : Env) (id : Int) (now : Int) (db : Db) : Except ApiError (Db × Reply) := do
  let r ← findRental db id
  if alreadyStopping r then return (db, .rentalStatus r.id r.status.asStr)
  else deleteRentalTx env r now db

end GpuMarket
