import GpuMarket.ControlPlane.Billing

namespace GpuMarket

open Lib

/-- Resolve `Authorization: Bearer <agent_token>` to the owning machine. -/
def authenticate (db : Db) (authorization : Option String) : Except ApiError MachineRow :=
  match authorization.bind (stripPrefix "Bearer ") with
  | none => .error (.unauthorized "missing or malformed bearer token")
  | some token =>
    match db.machines.rows.find? (·.agentToken = token) with
    | none => .error (.unauthorized "invalid agent token")
    | some machine => .ok machine

/-- `SELECT * FROM machines WHERE host_id = ?`. -/
def machineOfHost (db : Db) (hostId : String) : Option MachineRow :=
  db.machines.rows.find? (·.hostId = hostId)

def registerUpdate (m : MachineRow) (req : RegisterRequest) (now : Int) (db : Db) :
    Except ApiError (Db × Reply) :=
  .ok (db.updateMachine m.id (req.refresh now) (req.refresh_id now), .registered m.id m.agentToken)

def registerInsert (req : RegisterRequest) (token : String) (now : Int) (db : Db) :
    Except ApiError (Db × Reply) := do
  let (id, db) ← sql (db.insertMachine req token now)
  return (db, .registered id token)

/-- Idempotent on `host_id`. -/
def register (req : RegisterRequest) (token : String) (now : Int) (db : Db) :
    Except ApiError (Db × Reply) :=
  match machineOfHost db req.hostId with
  | some m => registerUpdate m req now db
  | none => registerInsert req token now db

/-- `SELECT id, payload FROM commands WHERE machine_id=? AND delivered=0 ORDER BY id`. -/
def undelivered (db : Db) (machineId : Int) : List CommandRow :=
  Table.orderBy CommandRow.id
    (db.commands.rows.filter fun c => c.machineId = machineId ∧ c.delivered = false)

def decode (env : Env) (payload : String) : Except ApiError Command :=
  match env.serde.fromStr payload with
  | none => .error .ofSerde
  | some cmd => .ok cmd

/-- Refresh liveness and drain the command queue. -/
def heartbeatTx (env : Env) (machine : MachineRow) (req : HeartbeatRequest) (now : Int) (db : Db) :
    Except ApiError (Db × Reply) := do
  let db := db.updateMachine machine.id
    (fun m => { m with lastHeartbeat := now, online := req.online }) fun _ => rfl
  let rows := undelivered db machine.id
  let db := rows.foldl (fun db c => db.setDelivered c.id) db
  let commands ← rows.mapM fun c => decode env c.payload
  return (db, .commands commands)

def heartbeat (env : Env) (auth : Option String) (req : HeartbeatRequest) (now : Int) (db : Db) :
    Except ApiError (Db × Reply) := do
  let machine ← authenticate db auth
  heartbeatTx env machine req now db

/-- `SELECT * FROM rentals WHERE id=? AND machine_id=?`. -/
def rentalOfMachine (db : Db) (id machineId : Int) : Except ApiError RentalRow :=
  match db.rentals.rows.find? fun r => r.id = id ∧ r.machineId = machineId with
  | none => .error (.notFound "no such rental for this machine")
  | some r => .ok r

/-- The report bills the rental: a still-live rental (as it was read) reaches a terminal state. -/
def settles (rental : RentalRow) (req : ReportRequest) : Bool :=
  req.status.isTerminal && !rental.status.isTerminal

/-- The columns that every report writes; `COALESCE` keeps those the report leaves out. -/
def ReportRequest.apply (req : ReportRequest) (machine : MachineRow) (now : Int) (r : RentalRow) :
    RentalRow :=
  { r with
    status := req.status
    kind := req.kind.getD r.kind
    sshHost := some machine.publicIp
    sshPort := req.sshPort
    containerId := req.containerId <|> r.containerId
    error := req.error
    endedAt := (if req.status.isTerminal then some now else none) <|> r.endedAt }

@[simp] theorem ReportRequest.apply_id (req : ReportRequest) (machine : MachineRow) (now : Int)
    (r : RentalRow) : (req.apply machine now r).id = r.id := rfl

/-- `machine` and `rental` are the rows as they were read before the transaction. -/
def reportTx (env : Env) (machine : MachineRow) (rental : RentalRow) (req : ReportRequest)
    (now : Int) (db : Db) : Except ApiError (Db × Reply) := do
  let db := db.updateRental req.rentalId (req.apply machine now) (req.apply_id machine now)
  if settles rental req then
    let accrued := accruedCharge env.arith rental.createdAt now rental.rateSatsPerMin
    let balance ← sql (db.balanceOf rental.accountId)
    -- never debit below zero
    let charge := min accrued balance
    let db ← if charge > 0 then do
        let db ← sql (db.addBalance rental.accountId (-charge))
        let db := db.updateMachine machine.id
          (fun m => { m with payoutBalance := m.payoutBalance + charge }) fun _ => rfl
        pure (db.recordCharge now rental.accountId machine.id rental.id charge)
      else pure db
    let minutes := (max (now - rental.createdAt) 0).tdiv 60
    return (db.updateRental rental.id
      (fun r => { r with satsCharged := charge, minutesBilled := minutes }) fun _ => rfl, .ok)
  else return (db, .ok)

def report (env : Env) (auth : Option String) (req : ReportRequest) (now : Int) (db : Db) :
    Except ApiError (Db × Reply) := do
  let machine ← authenticate db auth
  let rental ← rentalOfMachine db req.rentalId machine.id
  reportTx env machine rental req now db

def rateTx (machine : MachineRow) (req : RateRequest) (db : Db) : Except ApiError (Db × Reply) :=
  .ok (db.updateMachine machine.id (fun m => { m with rateSatsPerMin := req.rateSatsPerMin })
    fun _ => rfl, .ok)

def checkRate (req : RateRequest) : Except ApiError Unit :=
  if req.rateSatsPerMin < 1 then .error (.badRequest "rate_sats_per_min must be >= 1") else .ok ()

def rate (auth : Option String) (req : RateRequest) (db : Db) : Except ApiError (Db × Reply) := do
  let machine ← authenticate db auth
  checkRate req
  rateTx machine req db

def checkOwed (machine : MachineRow) : Except ApiError Unit :=
  if machine.payoutBalance ≤ 0 then .error (.badRequest "nothing owed") else .ok ()

/-- The balance that is recorded and returned is the one read at authentication. -/
def payoutTx (machine : MachineRow) (now : Int) (db : Db) : Except ApiError (Db × Reply) :=
  let balance := machine.payoutBalance
  let db := db.updateMachine machine.id (fun m => { m with payoutBalance := 0 }) fun _ => rfl
  .ok (db.record now .payout (-balance) none (some machine.id) none (some "payout"), .paid balance)

/-- `paid` is the outcome of `pay_invoice` on the host's invoice. -/
def payout (auth : Option String) (paid : Bool) (now : Int) (db : Db) :
    Except ApiError (Db × Reply) := do
  let machine ← authenticate db auth
  checkOwed machine
  if paid then payoutTx machine now db else .error ⟨.badGateway, .payoutFailed⟩

end GpuMarket
