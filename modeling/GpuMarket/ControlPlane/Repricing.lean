import GpuMarket.ControlPlane.Sequential

namespace GpuMarket

open Lib

/-! Every machine and every request names the same price, one sat per minute. -/

def MachineRow.unpriced (m : MachineRow) : MachineRow := { m with rateSatsPerMin := 1 }

theorem MachineRow.unpriced_id (m : MachineRow) : m.unpriced.id = m.id := rfl

def RegisterRequest.unpriced (req : RegisterRequest) : RegisterRequest :=
  { req with rateSatsPerMin := 1 }

def RateRequest.unpriced (req : RateRequest) : RateRequest := ⟨min req.rateSatsPerMin 1⟩

def Op.unpriced : Op → Op
  | .register req token now => .register req.unpriced token now
  | .rate auth req => .rate auth req.unpriced
  | op => op

def Db.unpriced (db : Db) : Db :=
  { db with machines := db.machines.mapRows MachineRow.unpriced MachineRow.unpriced_id }

def unpricedResult (r : Db × Reply) : Db × Reply := (r.1.unpriced, r.2)

def Op.rents : Op → Bool
  | .createRental .. => true
  | _ => false

section Statements

variable (db : Db)

theorem insertMachine_unpriced (req : RegisterRequest) (token : String) (now : Int) :
    db.unpriced.insertMachine req.unpriced token now =
      (db.insertMachine req token now).map fun r => (r.1, r.2.unpriced) := by
  have rows : (db.machines.append (req.toRow · token now)
      fun id => req.toRow_id id token now).mapRows MachineRow.unpriced MachineRow.unpriced_id =
      (db.machines.mapRows MachineRow.unpriced MachineRow.unpriced_id).append
        (req.unpriced.toRow · token now) fun id => req.unpriced.toRow_id id token now :=
    Table.mapRows_append _ fun _ => rfl
  have hid : db.unpriced.machines.nextId = db.machines.nextId :=
    Table.nextId_mapRows _ MachineRow.unpriced_id
  have htoken : (db.unpriced.machines.rows.any fun m => m.agentToken = token) =
      db.machines.rows.any fun m => m.agentToken = token := List.any_map
  have hhost : (db.unpriced.machines.rows.any fun m => m.hostId = req.unpriced.hostId) =
      db.machines.rows.any fun m => m.hostId = req.hostId := List.any_map
  simp only [Db.insertMachine, apply_ite (Except.map _), htoken, hhost, hid]
  refine if_congr Iff.rfl rfl (if_congr Iff.rfl rfl ?_)
  change _ = Except.ok (_, Db.unpriced _)
  simp only [Db.unpriced, rows]

theorem updateMachine_unpriced {id : Int} {f f' : MachineRow → MachineRow}
    {hf : ∀ m, (f m).id = m.id} {hf' : ∀ m, (f' m).id = m.id}
    (h : ∀ m, (f m).unpriced = f' m.unpriced) :
    db.unpriced.updateMachine id f' hf' = (db.updateMachine id f hf).unpriced := by
  have rows : (db.machines.update id f hf).mapRows MachineRow.unpriced MachineRow.unpriced_id =
      (db.machines.mapRows MachineRow.unpriced MachineRow.unpriced_id).update id f' hf' :=
    Table.mapRows_update _ _ h
  simp only [Db.updateMachine, Db.unpriced, rows]

theorem setOffline_unpriced (threshold : Int) :
    db.unpriced.setOffline threshold = (db.setOffline threshold).unpriced := by
  have rows : (db.unpriced.setOffline threshold).machines =
      (db.setOffline threshold).unpriced.machines := by
    refine Table.ext_rows ?_
    simp only [Db.setOffline, Db.unpriced, Table.rows_mapRows, List.map_map]
    refine List.map_congr_left fun m _ => ?_
    simp only [Function.comp_apply, apply_ite MachineRow.unpriced]
    rfl
  exact congrArg (fun machines => ({ db with machines } : Db)) rows

theorem insertCommand_unpriced (machineId : Int) (payload : String) (now : Int) :
    db.unpriced.insertCommand machineId payload now =
      (db.insertCommand machineId payload now).map (·.unpriced) := by
  have hhas : db.unpriced.machines.Has machineId ↔ db.machines.Has machineId :=
    @Table.has_mapRows _ _ _ db.machines machineId _ MachineRow.unpriced_id
  simp only [Db.insertCommand, apply_ite (Except.map _)]
  exact if_congr hhas rfl rfl

theorem insertAccount_unpriced (id : String) (now : Int) :
    db.unpriced.insertAccount id now = (db.insertAccount id now).map (·.unpriced) := by
  simp only [Db.insertAccount, apply_dite (Except.map _)]
  rfl

theorem addBalance_unpriced (id : String) (delta : Int) :
    db.unpriced.addBalance id delta = (db.addBalance id delta).map (·.unpriced) := by
  simp only [Db.addBalance, apply_ite (Except.map _)]
  rfl

theorem insertInvoice_unpriced (hash id : String) (sats : Int) (bolt11 : String) (now : Int) :
    db.unpriced.insertInvoice hash id sats bolt11 now =
      (db.insertInvoice hash id sats bolt11 now).map (·.unpriced) := by
  simp only [Db.insertInvoice, apply_dite (Except.map _), apply_ite (Except.map _)]
  rfl

end Statements

section Lookups

variable (db : Db)

theorem find?_unpriced (p : MachineRow → Bool) (hp : ∀ m, p m.unpriced = p m) :
    db.unpriced.machines.rows.find? p = (db.machines.rows.find? p).map (·.unpriced) := by
  have same : p ∘ MachineRow.unpriced = p := funext hp
  rw [Db.unpriced, Table.rows_mapRows, List.find?_map, same]

theorem authenticate_unpriced (auth : Option String) :
    authenticate db.unpriced auth = (authenticate db auth).map (·.unpriced) := by
  unfold authenticate
  cases auth.bind (stripPrefix "Bearer ") with
  | none => rfl
  | some token =>
    simp only [find?_unpriced db (fun m => decide (m.agentToken = token)) fun _ => rfl]
    cases db.machines.rows.find? fun m => decide (m.agentToken = token) <;> rfl

theorem machineOfHost_unpriced (hostId : String) :
    machineOfHost db.unpriced hostId = (machineOfHost db hostId).map (·.unpriced) :=
  find?_unpriced db (fun m => decide (m.hostId = hostId)) fun _ => rfl

theorem lastHeartbeat_unpriced (machineId : Int) :
    lastHeartbeat db.unpriced machineId = lastHeartbeat db machineId := by
  have hfind : db.unpriced.machines.find? machineId =
      (db.machines.find? machineId).map (·.unpriced) :=
    Table.find?_mapRows _ MachineRow.unpriced_id machineId
  simp only [lastHeartbeat, hfind]
  cases db.machines.find? machineId <;> rfl

end Lookups

section Transactions

variable {env : Env} (db : Db)

theorem registerUpdate_unpriced (m : MachineRow) (req : RegisterRequest) (now : Int) :
    registerUpdate m.unpriced req.unpriced now db.unpriced =
      (registerUpdate m req now db).map unpricedResult := by
  have write : db.unpriced.updateMachine m.id (req.unpriced.refresh now)
      (req.unpriced.refresh_id now) = (db.updateMachine m.id (req.refresh now)
        (req.refresh_id now)).unpriced := updateMachine_unpriced db fun _ => rfl
  exact congrArg (fun db => Except.ok (db, Reply.registered m.id m.agentToken)) write

theorem registerInsert_unpriced (req : RegisterRequest) (token : String) (now : Int) :
    registerInsert req.unpriced token now db.unpriced =
      (registerInsert req token now db).map unpricedResult := by
  simp only [registerInsert, insertMachine_unpriced, sql_map, bind_map, map_bind]
  rfl

theorem heartbeatTx_unpriced (machine : MachineRow) (req : HeartbeatRequest) (now : Int) :
    heartbeatTx env machine.unpriced req now db.unpriced =
      (heartbeatTx env machine req now db).map unpricedResult := by
  have hlive : db.unpriced.updateMachine machine.id
      (fun m => { m with lastHeartbeat := now, online := req.online }) (fun _ => rfl) =
      (db.updateMachine machine.id
        (fun m => { m with lastHeartbeat := now, online := req.online }) fun _ => rfl).unpriced :=
    updateMachine_unpriced db fun _ => rfl
  have hdeliver : ∀ (rows : List CommandRow) (db : Db),
      rows.foldl (fun db c => db.setDelivered c.id) db.unpriced =
        (rows.foldl (fun db c => db.setDelivered c.id) db).unpriced := by
    intro rows
    induction rows with
    | nil => exact fun _ => rfl
    | cons c rows ih => exact fun db => ih (db.setDelivered c.id)
  have hrows : undelivered (db.updateMachine machine.id
      (fun m => { m with lastHeartbeat := now, online := req.online }) fun _ => rfl).unpriced
        machine.id = undelivered (db.updateMachine machine.id
      (fun m => { m with lastHeartbeat := now, online := req.online }) fun _ => rfl) machine.id := rfl
  have hid : machine.unpriced.id = machine.id := rfl
  simp only [heartbeatTx, hid, hlive, hrows, hdeliver, map_bind]
  rfl

theorem withPayout_unpriced (machineId charge : Int) :
    db.unpriced.withPayout machineId charge = (db.withPayout machineId charge).unpriced :=
  updateMachine_unpriced db fun _ => rfl

theorem reportTx_unpriced (machine : MachineRow) (rental : RentalRow) (req : ReportRequest)
    (now : Int) :
    reportTx env machine.unpriced rental req now db.unpriced =
      (reportTx env machine rental req now db).map unpricedResult := by
  simp only [reportTx, apply_ite (Except.map _), map_bind]
  refine if_congr Iff.rfl (bind_congr fun balance => ?_) rfl
  refine if_congr Iff.rfl ?_ rfl
  change sql ((Db.unpriced (db.updateRental req.rentalId (req.apply machine now)
    (req.apply_id machine now))).addBalance _ _) >>= _ = _
  rw [addBalance_unpriced, sql_map, bind_map]
  refine bind_congr fun db' => ?_
  let charge := min (accruedCharge env.arith rental.createdAt now rental.rateSatsPerMin) balance
  have credited := withPayout_unpriced db' machine.id charge
  exact congrArg (fun db => Except.ok ((db.recordCharge now rental.accountId machine.id rental.id
    charge).updateRental rental.id
      (fun r =>
        { r with
          satsCharged := charge
          minutesBilled := (max (now - rental.createdAt) 0).tdiv 60 }) (fun _ => rfl),
    Reply.ok)) credited

theorem payoutTx_unpriced (machine : MachineRow) (now : Int) :
    payoutTx machine.unpriced now db.unpriced =
      (payoutTx machine now db).map unpricedResult := by
  have write : db.unpriced.updateMachine machine.id (fun m => { m with payoutBalance := 0 })
      (fun _ => rfl) = (db.updateMachine machine.id (fun m => { m with payoutBalance := 0 })
        fun _ => rfl).unpriced := updateMachine_unpriced db fun _ => rfl
  exact congrArg (fun db => Except.ok (db.record now .payout (-machine.payoutBalance) none
    (some machine.id) none (some "payout"), Reply.paid machine.payoutBalance)) write

theorem createAccountTx_unpriced (id : String) (now : Int) :
    createAccountTx id now db.unpriced = (createAccountTx id now db).map unpricedResult := by
  simp only [createAccountTx, insertAccount_unpriced, sql_map, bind_map, map_bind]
  rfl

theorem depositTx_unpriced (id : String) (req : DepositRequest) (invoice : Invoice) (now : Int) :
    depositTx id req invoice now db.unpriced =
      (depositTx id req invoice now db).map unpricedResult := by
  simp only [depositTx, insertInvoice_unpriced, sql_map, bind_map, map_bind]
  rfl

theorem deleteRentalTx_unpriced (r : RentalRow) (now : Int) :
    deleteRentalTx env r now db.unpriced = (deleteRentalTx env r now db).map unpricedResult := by
  have hmark : db.unpriced.updateRental r.id (fun r => { r with status := .evicting })
      (fun _ => rfl) = (db.updateRental r.id (fun r => { r with status := .evicting })
        fun _ => rfl).unpriced := rfl
  simp only [deleteRentalTx, hmark, insertCommand_unpriced, sql_map, bind_map, map_bind]
  rfl

theorem pollInvoiceTx_unpriced (p : PendingInvoice) (now : Int) :
    pollInvoiceTx p now db.unpriced = (pollInvoiceTx p now db).map (·.unpriced) := by
  have hsettle : db.unpriced.settleInvoice p.paymentHash =
      (db.settleInvoice p.paymentHash).unpriced := rfl
  simp only [pollInvoiceTx, hsettle, addBalance_unpriced, bind_map, map_bind]
  rfl

theorem evictTx_unpriced (r : RentalRow) (now : Int) :
    evictTx env r now db.unpriced = (evictTx env r now db).map (·.unpriced) := by
  have hmark : db.unpriced.updateRental r.id
      (fun r => { r with status := .evicting, error := some "insufficient balance" })
      (fun _ => rfl) = (db.updateRental r.id
        (fun r => { r with status := .evicting, error := some "insufficient balance" })
        fun _ => rfl).unpriced := rfl
  simp only [evictTx, hmark, insertCommand_unpriced, bind_map, map_bind]
  rfl

theorem rateTx_unpriced (machine : MachineRow) (req : RateRequest) (h : 1 ≤ req.rateSatsPerMin) :
    rateTx machine.unpriced req.unpriced db.unpriced = (rateTx machine req db).map unpricedResult := by
  have hrate : min req.rateSatsPerMin 1 = 1 := min_eq_right h
  have write : db.unpriced.updateMachine machine.id
      (fun m => { m with rateSatsPerMin := min req.rateSatsPerMin 1 }) (fun _ => rfl) =
      (db.updateMachine machine.id
        (fun m => { m with rateSatsPerMin := req.rateSatsPerMin }) fun _ => rfl).unpriced := by
    refine updateMachine_unpriced db fun m => ?_
    rw [hrate]
    rfl
  exact congrArg (fun db => Except.ok (db, Reply.ok)) write

end Transactions

section Handlers

variable {env : Env} (db : Db)

theorem register_unpriced (req : RegisterRequest) (token : String) (now : Int) :
    register req.unpriced token now db.unpriced =
      (register req token now db).map unpricedResult := by
  have hhost : machineOfHost db.unpriced req.unpriced.hostId =
      (machineOfHost db req.hostId).map (·.unpriced) := machineOfHost_unpriced db req.hostId
  simp only [register, hhost]
  cases machineOfHost db req.hostId with
  | some m => exact registerUpdate_unpriced db m req now
  | none => exact registerInsert_unpriced db req token now

theorem heartbeat_unpriced (auth : Option String) (req : HeartbeatRequest) (now : Int) :
    heartbeat env auth req now db.unpriced =
      (heartbeat env auth req now db).map unpricedResult := by
  rw [heartbeat, heartbeat, authenticate_unpriced, bind_map, map_bind]
  exact bind_congr fun machine => heartbeatTx_unpriced db machine req now

theorem report_unpriced (auth : Option String) (req : ReportRequest) (now : Int) :
    report env auth req now db.unpriced = (report env auth req now db).map unpricedResult := by
  rw [report, report, authenticate_unpriced, bind_map, map_bind]
  refine bind_congr fun machine => ?_
  rw [map_bind]
  exact bind_congr fun rental => reportTx_unpriced db machine rental req now

theorem rate_unpriced (auth : Option String) (req : RateRequest) :
    rate auth req.unpriced db.unpriced = (rate auth req db).map unpricedResult := by
  rw [rate, rate, authenticate_unpriced, bind_map, map_bind]
  refine bind_congr fun machine => ?_
  by_cases h : req.rateSatsPerMin < 1
  · have h' : req.unpriced.rateSatsPerMin < 1 := (min_le_left _ _).trans_lt h
    rw [checkRate, checkRate, if_pos h, if_pos h']
    rfl
  · have h' : ¬req.unpriced.rateSatsPerMin < 1 := by
      change ¬min req.rateSatsPerMin 1 < 1
      omega
    rw [checkRate, checkRate, if_neg h, if_neg h']
    exact rateTx_unpriced db machine req (not_lt.mp h)

theorem payout_unpriced (auth : Option String) (paid : Bool) (now : Int) :
    payout auth paid now db.unpriced = (payout auth paid now db).map unpricedResult := by
  rw [payout, payout, authenticate_unpriced, bind_map, map_bind]
  refine bind_congr fun machine => ?_
  rw [map_bind]
  refine bind_congr fun _ => ?_
  cases paid with
  | true => exact payoutTx_unpriced db machine now
  | false => rfl

theorem deposit_unpriced (id : String) (req : DepositRequest) (invoice : Option Invoice)
    (now : Int) :
    deposit id req invoice now db.unpriced =
      (deposit id req invoice now db).map unpricedResult := by
  unfold deposit
  rw [map_bind]
  refine bind_congr fun _ => ?_
  rw [map_bind]
  refine bind_congr fun _ => ?_
  cases invoice with
  | none => rfl
  | some invoice => exact depositTx_unpriced db id req invoice now

theorem deleteRental_unpriced (id : Int) (now : Int) :
    deleteRental env id now db.unpriced =
      (deleteRental env id now db).map unpricedResult := by
  rw [deleteRental, deleteRental, map_bind]
  refine bind_congr fun r => ?_
  rw [apply_ite (Except.map _)]
  exact if_congr Iff.rfl rfl (deleteRentalTx_unpriced db r now)

theorem pollInvoicesLoop_unpriced (isSettled : String → Option Bool) (now : String → Int)
    (pending : List PendingInvoice) :
    (pollInvoicesLoop isSettled now pending db.unpriced).1 =
      (pollInvoicesLoop isSettled now pending db).1.unpriced := by
  induction pending generalizing db with
  | nil => rfl
  | cons p rest ih =>
    simp only [pollInvoicesLoop, pollInvoiceTx_unpriced]
    cases isSettled p.paymentHash with
    | none => rfl
    | some settled =>
      cases settled with
      | false => exact ih db
      | true =>
        cases pollInvoiceTx p (now p.paymentHash) db with
        | ok db' => exact ih db'
        | error e => rfl

theorem enforceBudgetsLoop_unpriced (now : Int → Int) (running : List RentalRow) :
    (enforceBudgetsLoop env now running db.unpriced).1 =
      (enforceBudgetsLoop env now running db).1.unpriced := by
  induction running generalizing db with
  | nil => rfl
  | cons r rest ih =>
    have hbalance : db.unpriced.balanceOf r.accountId = db.balanceOf r.accountId := rfl
    simp only [enforceBudgetsLoop, lastHeartbeat_unpriced, hbalance, evictTx_unpriced]
    cases lastHeartbeat db r.machineId with
    | error e => rfl
    | ok last =>
      by_cases hsilent : now r.id - last > env.heartbeatTimeoutSecs
      · simp only [hsilent, if_true]
        exact ih db
      · simp only [hsilent, if_false]
        cases db.balanceOf r.accountId with
        | error e => rfl
        | ok balance =>
          by_cases hwithin :
              accruedCharge env.arith r.createdAt (now r.id) r.rateSatsPerMin ≤ balance
          · simp only [hwithin, if_true]
            exact ih db
          · simp only [hwithin, if_false]
            cases evictTx env r (now r.id) db with
            | ok db' => exact ih db'
            | error e => rfl

end Handlers

theorem committed_unpriced {db : Db} {x y : Except ApiError (Db × Reply)}
    (h : y = x.map unpricedResult) : committed db.unpriced y = (committed db x).unpriced := by
  subst h
  cases x <;> rfl

theorem Op.step_unpriced (env : Env) (db : Db) {op : Op} (hop : op.rents = false) :
    op.unpriced.step env db.unpriced = (op.step env db).unpriced := by
  cases op with
  | health | offers | getAccount | getRental => rfl
  | register req token now => exact committed_unpriced (register_unpriced db req token now)
  | heartbeat auth req now => exact committed_unpriced (heartbeat_unpriced db auth req now)
  | report auth req now => exact committed_unpriced (report_unpriced db auth req now)
  | rate auth req => exact committed_unpriced (rate_unpriced db auth req)
  | payout auth req paid now => exact committed_unpriced (payout_unpriced db auth paid now)
  | createAccount id now => exact committed_unpriced (createAccountTx_unpriced db id now)
  | deposit id req invoice now => exact committed_unpriced (deposit_unpriced db id req invoice now)
  | createRental req now => cases hop
  | deleteRental id now => exact committed_unpriced (deleteRental_unpriced db id now)
  | pollInvoices isSettled now => exact pollInvoicesLoop_unpriced db isSettled now _
  | markOffline now => exact setOffline_unpriced db _
  | enforceBudgets now => exact enforceBudgetsLoop_unpriced db now _

/-- Operations that create no rental do the same at any prices, up to the prices. -/
theorem run_unpriced (env : Env) (db : Db) {ops : List Op} (h : ∀ op ∈ ops, op.rents = false) :
    run (Op.step env) db.unpriced (ops.map Op.unpriced) = (run (Op.step env) db ops).unpriced :=
  run_map_of (fun db _ hop => Op.step_unpriced env db hop) db h

inductive Op.Repriced : Op → Op → Prop
  | same {op : Op} : op.rents = false → op.Repriced op
  | rate (auth : Option String) {rate rate' : Int} : 1 ≤ rate → 1 ≤ rate' →
      Repriced (.rate auth ⟨rate⟩) (.rate auth ⟨rate'⟩)
  | register (req : RegisterRequest) (rate : Int) (token : String) (now : Int) :
      Repriced (.register req token now)
        (.register { req with rateSatsPerMin := rate } token now)

namespace Op.Repriced

variable {op op' : Op} (h : op.Repriced op')
include h

theorem rents : op.rents = false ∧ op'.rents = false := by
  cases h with
  | same hop => exact ⟨hop, hop⟩
  | rate auth => exact ⟨rfl, rfl⟩
  | register req rate token now => exact ⟨rfl, rfl⟩

theorem unpriced : op.unpriced = op'.unpriced := by
  cases h with
  | same => rfl
  | rate auth hrate hrate' =>
    simp only [Op.unpriced, RateRequest.unpriced, min_eq_right hrate, min_eq_right hrate']
  | register req rate token now => rfl

end Op.Repriced

section Runs

variable {ops ops' : List Op} (h : List.Forall₂ Op.Repriced ops ops')
include h

theorem rents_of_repriced : (∀ op ∈ ops, op.rents = false) ∧ ∀ op ∈ ops', op.rents = false := by
  induction h with
  | nil => simp
  | cons hop _ ih =>
    exact ⟨List.forall_mem_cons.mpr ⟨hop.rents.1, ih.1⟩,
      List.forall_mem_cons.mpr ⟨hop.rents.2, ih.2⟩⟩

theorem unpriced_of_repriced : ops.map Op.unpriced = ops'.map Op.unpriced := by
  induction h with
  | nil => rfl
  | cons hop _ ih => rw [List.map_cons, List.map_cons, hop.unpriced, ih]

theorem run_unpriced_eq (env : Env) (db : Db) :
    (run (Op.step env) db ops).unpriced = (run (Op.step env) db ops').unpriced := by
  obtain ⟨hops, hops'⟩ := rents_of_repriced h
  rw [← run_unpriced env db hops, ← run_unpriced env db hops', unpriced_of_repriced h]

end Runs

/-- Prices set while no rental is created reach no rental, and nothing else but the machines'
price columns. -/
theorem repricing_only_reprices (env : Env) (db : Db) {ops ops' : List Op}
    (h : List.Forall₂ Op.Repriced ops ops') :
    let s := run (Op.step env) db ops
    let s' := run (Op.step env) db ops'
    s.accounts = s'.accounts ∧ s.rentals = s'.rentals ∧ s.invoices = s'.invoices ∧
      s.commands = s'.commands ∧ s.ledger = s'.ledger ∧
      s.machines.rows.map (fun m => (m.id, m.payoutBalance)) =
        s'.machines.rows.map (fun m => (m.id, m.payoutBalance)) ∧
      ∀ rate : Int, s.machines.rows.map (fun m => { m with rateSatsPerMin := rate }) =
        s'.machines.rows.map fun m => { m with rateSatsPerMin := rate } := by
  intro s s'
  have hsame : s.unpriced = s'.unpriced := run_unpriced_eq h env db
  have hmachines : s.machines.rows.map (·.unpriced) = s'.machines.rows.map (·.unpriced) :=
    congrArg (fun db => db.machines.rows) hsame
  refine ⟨(congrArg Db.accounts hsame :), (congrArg Db.rentals hsame :),
    (congrArg Db.invoices hsame :), (congrArg Db.commands hsame :), (congrArg Db.ledger hsame :),
    ?_, fun rate => ?_⟩
  · have hpayout := congrArg (List.map fun m => (m.id, m.payoutBalance)) hmachines
    rwa [List.map_map, List.map_map] at hpayout
  · have hrate := congrArg (List.map fun m => { m with rateSatsPerMin := rate }) hmachines
    rwa [List.map_map, List.map_map] at hrate

/-- A host that asks for a thousand times as much evicts nobody: the ticker reads the rate at which
the rental began. -/
theorem repricing_only_reprices_underway :
    let db := perform testEnv (underway 10 100)
    let dear := run (Op.step testEnv) db [.rate bearer ⟨10000⟩, .enforceBudgets fun _ => 60]
    let cheap := run (Op.step testEnv) db [.rate bearer ⟨10⟩, .enforceBudgets fun _ => 60]
    dear.rentals = cheap.rentals ∧ dear.rentals.rows.map (·.status) = [.running] ∧
      dear.machines.rows.map (·.rateSatsPerMin) = [10000] ∧
      cheap.machines.rows.map (·.rateSatsPerMin) = [10] := by
  intro db dear cheap
  have hrepriced : List.Forall₂ Op.Repriced
      [.rate bearer ⟨10000⟩, .enforceBudgets fun _ => 60]
      [.rate bearer ⟨10⟩, .enforceBudgets fun _ => 60] :=
    .cons (.rate bearer (by decide) (by decide)) (.cons (.same rfl) .nil)
  exact ⟨(repricing_only_reprices testEnv db hrepriced).2.1, by decide +kernel, by decide +kernel,
    by decide +kernel⟩

end GpuMarket
