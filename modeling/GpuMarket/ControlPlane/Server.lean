import GpuMarket.Lib.Interleave
import GpuMarket.ControlPlane.Agent
import GpuMarket.ControlPlane.Tenant

namespace GpuMarket

open Lib

/-- The writes of the control plane, each with the rows its handler read before it.  A single
statement outside `BEGIN IMMEDIATE` is a transaction of its own. -/
inductive Txn : Type
  | registerUpdate (m : MachineRow) (req : RegisterRequest) (now : Int)
  | registerInsert (req : RegisterRequest) (token : String) (now : Int)
  | heartbeat (machine : MachineRow) (req : HeartbeatRequest) (now : Int)
  | report (machine : MachineRow) (rental : RentalRow) (req : ReportRequest) (now : Int)
  | rate (machine : MachineRow) (req : RateRequest)
  | payout (machine : MachineRow) (now : Int)
  | createAccount (id : String) (now : Int)
  | deposit (id : String) (req : DepositRequest) (invoice : Invoice) (now : Int)
  | createRental (req : CreateRentalRequest) (now : Int)
  | deleteRental (r : RentalRow) (now : Int)
  | pollInvoice (p : PendingInvoice) (now : Int)
  | markOffline (now : Int)
  | evict (r : RentalRow) (now : Int)

def Txn.exec (env : Env) : Txn → Db → Except ApiError (Db × Reply)
  | .registerUpdate m req now, db => GpuMarket.registerUpdate m req now db
  | .registerInsert req token now, db => GpuMarket.registerInsert req token now db
  | .heartbeat machine req now, db => heartbeatTx env machine req now db
  | .report machine rental req now, db => reportTx env machine rental req now db
  | .rate machine req, db => rateTx machine req db
  | .payout machine now, db => payoutTx machine now db
  | .createAccount id now, db => createAccountTx id now db
  | .deposit id req invoice now, db => depositTx id req invoice now db
  | .createRental req now, db => createRentalTx env req now db
  | .deleteRental r now, db => deleteRentalTx env r now db
  | .pollInvoice p now, db => (sql (pollInvoiceTx p now db)).map (·, .ok)
  | .markOffline now, db => .ok (GpuMarket.markOffline env now db, .ok)
  | .evict r now, db => (sql (evictTx env r now db)).map (·, .ok)

/-- The requests that write.  `auth` is the `Authorization` header. -/
inductive Request : Type
  | register (req : RegisterRequest)
  | heartbeat (auth : Option String) (req : HeartbeatRequest)
  | report (auth : Option String) (req : ReportRequest)
  | rate (auth : Option String) (req : RateRequest)
  | payout (auth : Option String) (req : PayoutRequest)
  | createAccount
  | deposit (id : String) (req : DepositRequest)
  | createRental (req : CreateRentalRequest)
  | deleteRental (id : Int)

/-- Where a request stands between two of its steps, with what it has read so far. -/
inductive Thread : Type
  | received (r : Request)
  | registerUpdate (m : MachineRow) (req : RegisterRequest) (now : Int)
  | registerInsert (req : RegisterRequest) (now : Int)
  | heartbeatTx (machine : MachineRow) (req : HeartbeatRequest) (now : Int)
  | reportRead (machine : MachineRow) (req : ReportRequest)
  | reportTx (machine : MachineRow) (rental : RentalRow) (req : ReportRequest) (now : Int)
  | rateUpdate (machine : MachineRow) (req : RateRequest)
  | payoutPay (machine : MachineRow) (req : PayoutRequest)
  | payoutTx (machine : MachineRow) (now : Int)
  | depositInvoice (id : String) (req : DepositRequest)
  | depositInsert (id : String) (req : DepositRequest) (invoice : Invoice) (now : Int)
  | deleteRentalTx (r : RentalRow) (now : Int)
  | done (reply : Except ApiError Reply)

/-- Where the billing ticker stands, with the rows it still has to look at. -/
inductive Ticker : Type
  | idle
  | poll (pending : List PendingInvoice)
  | pollTx (p : PendingInvoice) (now : Int) (rest : List PendingInvoice)
  | markOffline
  | enforce
  | budgets (running : List RentalRow)
  | balance (r : RentalRow) (now : Int) (rest : List RentalRow)
  | evictTx (r : RentalRow) (now : Int) (rest : List RentalRow)

/-- What the world outside supplies to one step. -/
structure Input : Type where
  now : Int := 0
  /-- `new_agent_token` or `new_account_id` -/
  token : String := ""
  /-- the answer of `create_invoice`, `none` where it fails -/
  invoice : Option Invoice := none
  /-- the answer of `is_settled`, `none` where it fails -/
  settled : Option Bool := none
  /-- `pay_invoice` succeeds -/
  paid : Bool := true
  /-- the statement or transaction of this step fails and is rolled back -/
  fails : Option SqlxError := none

def fetch (r : Except ApiError α) (next : α → Next Thread Txn) : Next Thread Txn :=
  match r with
  | .error e => .read (.done (.error e))
  | .ok a => next a

def Request.next (db : Db) (i : Input) : Request → Next Thread Txn
  | .register req =>
    match machineOfHost db req.hostId with
    | some m => .read (.registerUpdate m req i.now)
    | none => .read (.registerInsert req i.now)
  | .heartbeat auth req =>
    fetch (authenticate db auth) fun machine => .read (.heartbeatTx machine req i.now)
  | .report auth req => fetch (authenticate db auth) fun machine => .read (.reportRead machine req)
  | .rate auth req =>
    fetch (authenticate db auth) fun machine =>
      fetch (checkRate req) fun _ => .read (.rateUpdate machine req)
  | .payout auth req =>
    fetch (authenticate db auth) fun machine =>
      fetch (checkOwed machine) fun _ => .read (.payoutPay machine req)
  | .createAccount => .commit (.createAccount i.token i.now)
  | .deposit id req =>
    fetch (checkDeposit req) fun _ =>
      fetch (findAccount db id) fun _ => .read (.depositInvoice id req)
  | .createRental req => .commit (.createRental req i.now)
  | .deleteRental id =>
    fetch (findRental db id) fun r =>
      if alreadyStopping r then .read (.done (.ok (.rentalStatus r.id r.status.asStr)))
      else .read (.deleteRentalTx r i.now)

def Thread.next (i : Input) (db : Db) : Thread → Next Thread Txn
  | .received r => r.next db i
  | .registerUpdate m req now => .commit (.registerUpdate m req now)
  | .registerInsert req now => .commit (.registerInsert req i.token now)
  | .heartbeatTx machine req now => .commit (.heartbeat machine req now)
  | .reportRead machine req =>
    fetch (rentalOfMachine db req.rentalId machine.id) fun rental =>
      .read (.reportTx machine rental req i.now)
  | .reportTx machine rental req now => .commit (.report machine rental req now)
  | .rateUpdate machine req => .commit (.rate machine req)
  | .payoutPay machine _ =>
    if i.paid then .read (.payoutTx machine i.now)
    else .read (.done (.error ⟨.badGateway, .payoutFailed⟩))
  | .payoutTx machine now => .commit (.payout machine now)
  | .depositInvoice id req =>
    match i.invoice with
    | none => .read (.done (.error ⟨.badGateway, .invoiceCreationFailed⟩))
    | some invoice => .read (.depositInsert id req invoice i.now)
  | .depositInsert id req invoice now => .commit (.deposit id req invoice now)
  | .deleteRentalTx r now => .commit (.deleteRental r now)
  | .done reply => .read (.done reply)

def Thread.finish : Thread → Except ApiError Reply → Thread
  | .done reply, _ => .done reply
  | _, reply => .done reply

def Ticker.next (env : Env) (i : Input) (db : Db) : Ticker → Next Ticker Txn
  | .idle => .read (.poll (pendingInvoices db))
  | .poll [] => .read .markOffline
  | .poll (p :: rest) =>
    match i.settled with
    | none => .read .idle
    | some false => .read (.poll rest)
    | some true => .read (.pollTx p i.now rest)
  | .pollTx p now _ => .commit (.pollInvoice p now)
  | .markOffline => .commit (.markOffline i.now)
  | .enforce => .read (.budgets (runningRentals db))
  | .budgets [] => .read .idle
  | .budgets (r :: rest) =>
    match lastHeartbeat db r.machineId with
    | .error _ => .read .idle
    | .ok lastHeartbeat =>
      if i.now - lastHeartbeat > env.heartbeatTimeoutSecs then .read (.budgets rest)
      else .read (.balance r i.now rest)
  | .balance r now rest =>
    match db.balanceOf r.accountId with
    | .error _ => .read .idle
    | .ok sats =>
      if accruedCharge env.arith r.createdAt now r.rateSatsPerMin ≤ sats then .read (.budgets rest)
      else .read (.evictTx r now rest)
  | .evictTx r now _ => .commit (.evict r now)

/-- An error of any pass ends the tick; the next tick starts over. -/
def Ticker.resume : Ticker → Except ApiError Reply → Ticker
  | .pollTx _ _ rest, .ok _ => .poll rest
  | .markOffline, .ok _ => .enforce
  | .evictTx _ _ rest, .ok _ => .budgets rest
  | _, _ => .idle

abbrev ServerConf := Conf Db Txn Reply Thread Ticker

abbrev ServerAct := Act Request Input

/-- Any number of requests and the one billing ticker, interleaved step by step. -/
def server (env : Env) : System Db Txn Reply ApiError Thread Ticker Request Input where
  exec := Txn.exec env
  start := .received
  thread := Thread.next
  finish := Thread.finish
  daemon := Ticker.next env
  resume := Ticker.resume
  fails i := i.fails.map .ofSqlx

def ServerConf.init : ServerConf := ⟨.empty, .idle, [], []⟩

/-- Where a run of the control plane leads, from an empty database. -/
def serve (env : Env) (acts : List ServerAct) : ServerConf :=
  run (server env).step ServerConf.init acts

def call (n : Nat) (r : Request) (steps : List Input) : List ServerAct :=
  .request r :: steps.map (.thread n)

/-- The host of the acceptance test. -/
def testHost : RegisterRequest where
  hostId := "host-1"
  gpuName := "RTX 4090"
  gpuCount := 1
  vramMb := 24564
  cpuName := "AMD Ryzen 9 7950X"
  cpuCores := 16
  ramMb := 64000
  diskGb := 1000
  diskType := .nvme
  publicIp := "203.0.113.5"
  portStart := 40000
  portEnd := 40099
  inetDownMbps := none
  inetUpMbps := none
  country := none
  dlperf := 100
  rateSatsPerMin := 10
  hwFingerprint := "fp-abc"

def testEnv : Env := { serde := .json }

def opening (sats : Int) : List ServerAct :=
  call 0 (.register testHost) [{}, { token := "agt_1" }] ++
  call 1 .createAccount [{ token := "acct_1" }] ++
  call 2 (.deposit "acct_1" ⟨sats⟩) [{}, { invoice := some ⟨"lnbc1", "01"⟩ }, {}] ++
  [.daemon {}, .daemon { settled := some true }, .daemon {}]

def bearer : Option String := some "Bearer agt_1"

end GpuMarket
