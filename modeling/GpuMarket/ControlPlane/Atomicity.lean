import GpuMarket.ControlPlane.Statements
import GpuMarket.ControlPlane.Sequential

namespace GpuMarket

open Lib

/-- What `enforce_budgets` does for one running rental. -/
def enforceBudget (env : Env) (r : RentalRow) (now : Int) (db : Db) :
    Except ApiError (Db × Reply) := do
  let lastHeartbeat ← sql (lastHeartbeat db r.machineId)
  if now - lastHeartbeat > env.heartbeatTimeoutSecs then return (db, .ok)
  let balance ← sql (db.balanceOf r.accountId)
  if accruedCharge env.arith r.createdAt now r.rateSatsPerMin ≤ balance then return (db, .ok)
  (Txn.evict r now).exec env db

theorem sql_ok {α : Type} (a : α) : sql (.ok a) = .ok a := rfl

theorem enforceBudgetsLoop_eq_enforceBudget (env : Env) (now : Int → Int) (r : RentalRow)
    (rest : List RentalRow) (db : Db) :
    (enforceBudgetsLoop env now (r :: rest) db).1 =
      match enforceBudget env r (now r.id) db with
      | .ok (db', _) => (enforceBudgetsLoop env now rest db').1
      | .error _ => db := by
  simp only [enforceBudgetsLoop, enforceBudget]
  cases lastHeartbeat db r.machineId with
  | error e => rfl
  | ok last =>
    simp only [sql_ok, ok_bind]
    by_cases hsilent : now r.id - last > env.heartbeatTimeoutSecs
    · simp only [hsilent, if_true]
      rfl
    · simp only [hsilent, if_false]
      cases db.balanceOf r.accountId with
      | error e => rfl
      | ok balance =>
        simp only [sql_ok, ok_bind]
        by_cases hwithin : accruedCharge env.arith r.createdAt (now r.id) r.rateSatsPerMin ≤ balance
        · simp only [hwithin, if_true]
          rfl
        · simp only [hwithin, if_false, Txn.exec]
          cases evictTx env r (now r.id) db <;> rfl

/-- The operations that open a transaction, each with what the world outside answers. -/
inductive Operation : Type
  | createRental (req : CreateRentalRequest) (now : Int)
  | deleteRental (id : Int) (now : Int)
  | heartbeat (auth : Option String) (req : HeartbeatRequest) (now : Int)
  | report (auth : Option String) (req : ReportRequest) (now : Int)
  | payout (auth : Option String) (req : PayoutRequest) (paid : Bool) (now : Int)
  | pollInvoice (p : PendingInvoice) (now : Int)
  | enforceBudget (r : RentalRow) (now : Int)

/-- What an operation does to the database and returns, as long as no statement fails. -/
def Operation.exec (env : Env) (db : Db) : Operation → Except ApiError (Db × Reply)
  | .createRental req now => createRentalTx env req now db
  | .deleteRental id now => GpuMarket.deleteRental env id now db
  | .heartbeat auth req now => GpuMarket.heartbeat env auth req now db
  | .report auth req now => GpuMarket.report env auth req now db
  | .payout auth _ paid now => GpuMarket.payout auth paid now db
  | .pollInvoice p now => (Txn.pollInvoice p now).exec env db
  | .enforceBudget r now => GpuMarket.enforceBudget env r now db

namespace Statements

def authenticate (authorization : Option String) : Stmts Db ApiError MachineRow :=
  match authorization.bind (stripPrefix "Bearer ") with
  | none => .fail (.unauthorized "missing or malformed bearer token")
  | some _ => .fetch (GpuMarket.authenticate · authorization)

end Statements

/-- What an operation reads before its transaction, and the transaction that it goes on to, or its
reply where it runs none. -/
def Operation.reads (env : Env) : Operation → Stmts Db ApiError (Reply ⊕ Txn)
  | .createRental req now => return .inr (.createRental req now)
  | .deleteRental id now => do
    let r ← .fetch (findRental · id)
    if alreadyStopping r then return .inl (.rentalStatus r.id r.status.asStr)
    else return .inr (.deleteRental r now)
  | .heartbeat auth req now => do
    let machine ← Statements.authenticate auth
    return .inr (.heartbeat machine req now)
  | .report auth req now => do
    let machine ← Statements.authenticate auth
    let rental ← .fetch (rentalOfMachine · req.rentalId machine.id)
    return .inr (.report machine rental req now)
  | .payout auth _ paid now => do
    let machine ← Statements.authenticate auth
    .done (checkOwed machine)
    if paid then return .inr (.payout machine now) else .fail ⟨.badGateway, .payoutFailed⟩
  | .pollInvoice p now => return .inr (.pollInvoice p now)
  | .enforceBudget r now => do
    let lastHeartbeat ← .fetch fun db => sql (lastHeartbeat db r.machineId)
    if now - lastHeartbeat > env.heartbeatTimeoutSecs then return .inl .ok
    else
      let balance ← .fetch fun db => sql (db.balanceOf r.accountId)
      if accruedCharge env.arith r.createdAt now r.rateSatsPerMin ≤ balance then return .inl .ok
      else return .inr (.evict r now)

namespace Operation

/-- SQLite's answer to `BEGIN` where a transaction is open and to `COMMIT` where none is. -/
def misuse : SqlxError := .database 1 "SQL logic error"

theorem reads_reads (env : Env) (op : Operation) : (op.reads env).Reads := by
  have token : ∀ auth, (Statements.authenticate auth).Reads := by
    intro auth
    unfold Statements.authenticate
    split
    · trivial
    · exact Stmts.reads_fetch _
  cases op with
  | createRental req now => trivial
  | deleteRental id now =>
    refine (Stmts.reads_fetch _).bind fun r => ?_
    split <;> trivial
  | heartbeat auth req now => exact (token auth).bind fun _ => trivial
  | report auth req now =>
    exact (token auth).bind fun machine => (Stmts.reads_fetch _).bind fun _ => trivial
  | payout auth req paid now =>
    refine (token auth).bind fun machine => (Stmts.reads_done _).bind fun _ => ?_
    split <;> trivial
  | pollInvoice p now => trivial
  | enforceBudget r now =>
    refine (Stmts.reads_fetch _).bind fun last => ?_
    split
    · trivial
    · refine (Stmts.reads_fetch _).bind fun balance => ?_
      split <;> trivial

end Operation

theorem Statements.authenticate_bind {α : Type} (auth : Option String) (db : Db)
    (g : MachineRow → Stmts Db ApiError α) :
    (authenticate auth >>= g).meaning db =
      GpuMarket.authenticate db auth >>= fun machine => (g machine).meaning db := by
  unfold authenticate
  split
  case h_1 hnone =>
    have hfail : GpuMarket.authenticate db auth =
        .error (.unauthorized "missing or malformed bearer token") := by
      simp only [GpuMarket.authenticate, hnone]
    rw [hfail]
    rfl
  case h_2 => exact Stmts.meaning_fetch_bind ..

namespace Operation

theorem exec_eq (env : Env) (db : Db) (op : Operation) :
    op.exec env db = (op.reads env).meaning db >>= Stmts.proceed (Txn.statements env) := by
  have transaction : ∀ txn : Txn, txn.exec env db =
      Stmts.proceed (Txn.statements env) (db, .inr txn) :=
    fun txn => (txn.statements_meaning env db).symm
  cases op with
  | createRental req now => exact transaction (.createRental req now)
  | deleteRental id now =>
    simp only [reads, Stmts.meaning_fetch_bind, bind_assoc]
    refine bind_congr fun r => ?_
    split
    · rfl
    · exact transaction (.deleteRental r now)
  | heartbeat auth req now =>
    simp only [reads, Statements.authenticate_bind, bind_assoc]
    exact bind_congr fun machine => transaction (.heartbeat machine req now)
  | report auth req now =>
    simp only [reads, Statements.authenticate_bind, Stmts.meaning_fetch_bind, bind_assoc]
    refine bind_congr fun machine => bind_congr fun rental => ?_
    exact transaction (.report machine rental req now)
  | payout auth req paid now =>
    simp only [reads, Statements.authenticate_bind, Stmts.meaning_done_bind, bind_assoc]
    refine bind_congr fun machine => bind_congr fun _ => ?_
    split
    · exact transaction (.payout machine now)
    · rfl
  | pollInvoice p now => exact transaction (.pollInvoice p now)
  | enforceBudget r now =>
    simp only [reads, Stmts.meaning_fetch_bind, bind_assoc]
    refine bind_congr fun last => ?_
    split
    · rfl
    · simp only [Stmts.meaning_fetch_bind, bind_assoc]
      refine bind_congr fun balance => ?_
      split
      · rfl
      · exact transaction (.evict r now)

/-- The operation on a connection of the pool, statement by statement. -/
def session (env : Env) (op : Operation) : Session Db ApiError Reply :=
  Session.transact (.ofSqlx misuse) (op.reads env) (Txn.statements env)

/-- What is left when the operation returns its connection, where `verdicts` says which of the
statements it runs fail. -/
def outcome (env : Env) (op : Operation) (db : Db) (verdicts : List (Option SqlxError)) :
    Except ApiError Reply × Conn Db × Verdicts ApiError :=
  op.session env ({ committed := db }, verdicts.map (·.map .ofSqlx))

/-- The transaction of the operation is begun, and the statement that ends it fails: `COMMIT` where
its body succeeds, `ROLLBACK` where that fails. -/
def LeavesOpen (env : Env) (op : Operation) (db : Db) (verdicts : List (Option SqlxError)) : Prop :=
  Session.LeavesOpen (op.reads env) (Txn.statements env) db (verdicts.map (·.map .ofSqlx))

structure Clean (env : Env) (op : Operation) (db : Db)
    (out : Except ApiError Reply × Conn Db × Verdicts ApiError) : Prop where
  whole : out.2.1.committed = db ∨ ∃ v, op.exec env db = .ok (out.2.1.committed, v)
  success : ∀ v, out.1 = .ok v → op.exec env db = .ok (out.2.1.committed, v)
  closed : out.2.1.working = none

section Outcome

variable (env : Env) (op : Operation) (db : Db) (verdicts : List (Option SqlxError))

theorem outcome_atomic : Atomic db (op.exec env db) (op.outcome env db verdicts) := by
  rw [exec_eq]
  exact @Session.transact_atomic _ _ _ _ { committed := db } _ _ _ _ (op.reads_reads env) rfl

theorem outcome_open_iff :
    (op.outcome env db verdicts).2.1.working.isSome ↔ op.LeavesOpen env db verdicts :=
  Session.transact_open_iff (op.reads_reads env) rfl

theorem outcome_of_no_failure :
    (op.outcome env db []).1 = (op.exec env db).map (·.2) ∧
      (op.outcome env db []).2.1 = { committed := committed db (op.exec env db) } := by
  obtain ⟨hreply, hclosed⟩ := @Session.transact_clean Db ApiError Reply Txn { committed := db }
    (.ofSqlx misuse) (op.reads env) (Txn.statements env) (op.reads_reads env) rfl
  rw [← exec_eq] at hreply
  have hatomic := op.outcome_atomic env db []
  have hcommitted : (op.outcome env db []).2.1.committed = committed db (op.exec env db) := by
    cases hr : (op.outcome env db []).1 with
    | ok v => rw [hatomic.succeeded v hr, committed]
    | error e =>
      have hexec : (op.exec env db).map (·.2) = .error e := hreply.symm.trans hr
      rw [hatomic.failed e hr]
      cases hx : op.exec env db with
      | error e' => rfl
      | ok r => rw [hx] at hexec; cases hexec
  refine ⟨hreply, ?_⟩
  rw [← hcommitted, ← show _ = none from hclosed]
  rfl

end Outcome

end Operation

/-- An operation always does all or nothing, and it gives its connection back without an open
transaction exactly where the statement that ends the transaction does not fail. -/
theorem operation_clean_iff (env : Env) (op : Operation) (db : Db)
    (verdicts : List (Option SqlxError)) :
    op.Clean env db (op.outcome env db verdicts) ↔ ¬op.LeavesOpen env db verdicts := by
  have hatomic := op.outcome_atomic env db verdicts
  have hopen := op.outcome_open_iff env db verdicts
  constructor
  · intro hclean hleaves
    have hsome := hopen.mpr hleaves
    rw [hclean.closed] at hsome
    cases hsome
  · intro hleaves
    refine ⟨?_, hatomic.succeeded, ?_⟩
    · cases hr : (op.outcome env db verdicts).1 with
      | error e => exact .inl (hatomic.failed e hr)
      | ok v => exact .inr ⟨v, hatomic.succeeded v hr⟩
    · rw [← hopen] at hleaves
      exact Option.not_isSome_iff_eq_none.mp hleaves

/-- A machine is on offer, and an account holds a hundred sats. -/
def fundedDb : Db := perform testEnv
  [.register testHost "agt_1" 0, .createAccount "acct_1" 0,
    .deposit "acct_1" ⟨100⟩ (some ⟨"lnbc1", "01"⟩) 0,
    .pollInvoices (fun _ => some true) fun _ => 0]

def busy : SqlxError := .database 5 "database is locked"

/-- `BEGIN` and the five statements of the body succeed, and `COMMIT` is busy. -/
def busyCommit : Except ApiError Reply × Conn Db × Verdicts ApiError :=
  Operation.outcome testEnv
    (.createRental ⟨1, "acct_1", "nvidia/cuda:latest", some "ssh-ed25519 AAAA"⟩ 0) fundedDb
    [none, none, none, none, none, none, some busy]

theorem busyCommit_leavesOpen :
    ¬Operation.Clean testEnv
      (.createRental ⟨1, "acct_1", "nvidia/cuda:latest", some "ssh-ed25519 AAAA"⟩ 0) fundedDb
      busyCommit ∧
    busyCommit.1.toOption.isNone ∧ busyCommit.2.1.working.isSome := by
  have final : busyCommit.1.toOption.isNone ∧ busyCommit.2.1.working.isSome := by
    decide +kernel
  refine ⟨fun hclean => ?_, final⟩
  have hsome := final.2
  rw [hclean.closed] at hsome
  cases hsome

end GpuMarket
