import GpuMarket.ControlPlane.Sequential

namespace GpuMarket

open Lib

/-! Every key that is not blank is blotted out, in requests, rows and payloads alike. -/

def redactKey (key : String) : String := if key = "" then "" else "key"

def CreateRentalRequest.redact (req : CreateRentalRequest) : CreateRentalRequest :=
  { req with sshPubkey := req.sshPubkey.map fun key => if trim key = "" then key else "key" }

def RentalRow.redact (r : RentalRow) : RentalRow := { r with sshPubkey := redactKey r.sshPubkey }

def Command.redact : Command → Command
  | .startRental rentalId image sshPubkey => .startRental rentalId image (redactKey sshPubkey)
  | .stopRental rentalId => .stopRental rentalId

def redactPayload (env : Env) (payload : String) : String :=
  match env.serde.fromStr payload with
  | some cmd => env.serde.toString cmd.redact
  | none => payload

def CommandRow.redact (env : Env) (c : CommandRow) : CommandRow :=
  { c with payload := redactPayload env c.payload }

theorem RentalRow.redact_id (r : RentalRow) : r.redact.id = r.id := rfl

theorem CommandRow.redact_id (env : Env) (c : CommandRow) : (c.redact env).id = c.id := rfl

def Db.redact (env : Env) (db : Db) : Db :=
  { db with
    rentals := db.rentals.mapRows RentalRow.redact RentalRow.redact_id
    commands := db.commands.mapRows (CommandRow.redact env) (CommandRow.redact_id env) }

def Reply.redact : Reply → Reply
  | .commands cmds => .commands (cmds.map (·.redact))
  | v => v

def Op.redact : Op → Op
  | .createRental req now => .createRental req.redact now
  | op => op

def redactResult (env : Env) (r : Db × Reply) : Db × Reply := (r.1.redact env, r.2)

theorem sshKey_redact (req : CreateRentalRequest) :
    sshKey req.redact = (sshKey req).map redactKey := by
  obtain ⟨machineId, accountId, image, key⟩ := req
  cases key with
  | none =>
    simp only [sshKey, CreateRentalRequest.redact, Option.map_none,
      apply_ite (Except.map redactKey)]
    rfl
  | some k =>
    simp only [sshKey, CreateRentalRequest.redact, Option.map_some]
    by_cases hblank : trim k = ""
    · simp only [hblank, if_true, ne_eq, not_true_eq_false, if_false,
        apply_ite (Except.map redactKey)]
      rfl
    · have hkey : trim "key" = "key" := by decide
      simp only [hblank, if_false, ne_eq, not_false_eq_true, if_true, hkey]
      change (.ok "key" : Except ApiError String) = .ok (redactKey (trim k))
      rw [redactKey, if_neg hblank]

section Statements

variable {env : Env} (db : Db)

theorem insertMachine_redact (req : RegisterRequest) (token : String) (now : Int) :
    (db.redact env).insertMachine req token now =
      (db.insertMachine req token now).map fun r => (r.1, r.2.redact env) := by
  simp only [Db.insertMachine, apply_ite (Except.map _)]
  rfl

theorem insertAccount_redact (id : String) (now : Int) :
    (db.redact env).insertAccount id now = (db.insertAccount id now).map (·.redact env) := by
  simp only [Db.insertAccount, apply_dite (Except.map _)]
  rfl

theorem addBalance_redact (id : String) (delta : Int) :
    (db.redact env).addBalance id delta = (db.addBalance id delta).map (·.redact env) := by
  simp only [Db.addBalance, apply_ite (Except.map _)]
  rfl

theorem insertInvoice_redact (hash id : String) (sats : Int) (bolt11 : String) (now : Int) :
    (db.redact env).insertInvoice hash id sats bolt11 now =
      (db.insertInvoice hash id sats bolt11 now).map (·.redact env) := by
  simp only [Db.insertInvoice, apply_dite (Except.map _), apply_ite (Except.map _)]
  rfl

theorem insertRental_redact (machineId : Int) (accountId image key : String) (rate now : Int) :
    (db.redact env).insertRental machineId accountId image (redactKey key) rate now =
      (db.insertRental machineId accountId image key rate now).map
        fun r => (r.1, r.2.redact env) := by
  have rows : (db.rentals.append (.created machineId accountId image key rate now)
      (RentalRow.created_id machineId accountId image key rate now)).mapRows RentalRow.redact
        RentalRow.redact_id =
      (db.rentals.mapRows RentalRow.redact RentalRow.redact_id).append
        (.created machineId accountId image (redactKey key) rate now)
        (RentalRow.created_id machineId accountId image (redactKey key) rate now) :=
    Table.mapRows_append _ fun i => rfl
  have hid : (db.redact env).rentals.nextId = db.rentals.nextId :=
    Table.nextId_mapRows _ RentalRow.redact_id
  simp only [Db.insertRental, apply_ite (Except.map _), hid]
  refine if_congr Iff.rfl ?_ rfl
  change _ = Except.ok (_, Db.redact env _)
  simp only [Db.redact, rows]

theorem insertCommand_redact (machineId : Int) (payload : String) (now : Int) :
    (db.redact env).insertCommand machineId (redactPayload env payload) now =
      (db.insertCommand machineId payload now).map (·.redact env) := by
  have rows : (db.commands.append (.queued machineId payload now)
      (CommandRow.queued_id machineId payload now)).mapRows (CommandRow.redact env)
        (CommandRow.redact_id env) =
      (db.commands.mapRows (CommandRow.redact env) (CommandRow.redact_id env)).append
        (.queued machineId (redactPayload env payload) now)
        (CommandRow.queued_id machineId (redactPayload env payload) now) :=
    Table.mapRows_append _ fun i => rfl
  simp only [Db.insertCommand, apply_ite (Except.map _)]
  refine if_congr Iff.rfl ?_ rfl
  change _ = Except.ok (Db.redact env _)
  simp only [Db.redact, rows]

theorem updateRental_redact {id : Int} {f : RentalRow → RentalRow} {hf : ∀ r, (f r).id = r.id}
    (h : ∀ r, (f r).redact = f r.redact) :
    (db.redact env).updateRental id f hf = (db.updateRental id f hf).redact env := by
  have rows : (db.rentals.update id f hf).mapRows RentalRow.redact RentalRow.redact_id =
      (db.rentals.mapRows RentalRow.redact RentalRow.redact_id).update id f hf :=
    Table.mapRows_update _ _ h
  simp only [Db.updateRental, Db.redact, rows]

theorem setDelivered_redact (id : Int) :
    (db.redact env).setDelivered id = (db.setDelivered id).redact env := by
  have rows : (db.commands.update id (fun c => { c with delivered := true }) fun _ => rfl).mapRows
      (CommandRow.redact env) (CommandRow.redact_id env) =
      (db.commands.mapRows (CommandRow.redact env) (CommandRow.redact_id env)).update id
        (fun c => { c with delivered := true }) fun _ => rfl :=
    Table.mapRows_update _ _ fun c => rfl
  simp only [Db.setDelivered, Db.redact, rows]

end Statements

section Lookups

variable {env : Env} (db : Db)

theorem rentalOfMachine_redact (id machineId : Int) :
    rentalOfMachine (db.redact env) id machineId =
      (rentalOfMachine db id machineId).map (·.redact) := by
  have rows :
      (db.redact env).rentals.rows.find? (fun r => decide (r.id = id ∧ r.machineId = machineId)) =
        (db.rentals.rows.find? fun r => decide (r.id = id ∧ r.machineId = machineId)).map
          (·.redact) := by
    simp only [Db.redact, Table.rows_mapRows, List.find?_map]
    rfl
  simp only [rentalOfMachine, rows]
  cases db.rentals.rows.find? fun r => decide (r.id = id ∧ r.machineId = machineId) <;> rfl

theorem findRental_redact (id : Int) :
    findRental (db.redact env) id = (findRental db id).map (·.redact) := by
  have rows : (db.redact env).rentals.find? id = (db.rentals.find? id).map (·.redact) :=
    Table.find?_mapRows _ RentalRow.redact_id id
  simp only [findRental, rows]
  cases db.rentals.find? id <;> rfl

theorem occupied_redact (machineId : Int) :
    occupied (db.redact env) machineId ↔ occupied db machineId := by
  simp only [occupied, Db.redact, Table.rows_mapRows, List.mem_map]
  constructor
  · rintro ⟨-, ⟨r, hr, rfl⟩, h⟩
    exact ⟨r, hr, h⟩
  · rintro ⟨r, hr, h⟩
    exact ⟨r.redact, ⟨r, hr, rfl⟩, h⟩

theorem undelivered_redact (machineId : Int) :
    undelivered (db.redact env) machineId = (undelivered db machineId).map (·.redact env) := by
  simp only [undelivered, Table.orderBy, Db.redact, Table.rows_mapRows, List.filter_map]
  exact (List.map_insertionSort (fun c c' : CommandRow => c.id ≤ c'.id)
    (fun c c' : CommandRow => c.id ≤ c'.id) (·.redact env) _ fun _ _ _ _ => Iff.rfl).symm

theorem runningRentals_redact :
    runningRentals (db.redact env) = (runningRentals db).map (·.redact) := by
  simp only [runningRentals, Db.redact, Table.rows_mapRows, List.filter_map]
  rfl

theorem burnSatsPerMin_redact (id : String) :
    burnSatsPerMin (db.redact env) id = burnSatsPerMin db id := by
  simp only [burnSatsPerMin, Db.redact, Table.rows_mapRows, List.filter_map, List.map_map]
  rfl

end Lookups

section Transactions

variable {env : Env} (db : Db)

theorem redactPayload_toString (hserde : env.serde.RoundTrip) (cmd : Command) :
    redactPayload env (env.serde.toString cmd) = env.serde.toString cmd.redact := by
  simp only [redactPayload, hserde cmd]

theorem decode_redact (hserde : env.serde.RoundTrip) (payload : String) :
    decode env (redactPayload env payload) = (decode env payload).map (·.redact) := by
  simp only [decode, redactPayload]
  cases h : env.serde.fromStr payload with
  | none =>
    simp only [h]
    rfl
  | some cmd =>
    simp only [hserde cmd.redact]
    rfl

theorem decodeAll_redact (hserde : env.serde.RoundTrip) (rows : List CommandRow) :
    (rows.map (·.redact env)).mapM (fun c => decode env c.payload) =
      (rows.mapM fun c => decode env c.payload).map (List.map (·.redact)) := by
  induction rows with
  | nil => rfl
  | cons c rows ih =>
    rw [List.map_cons, List.mapM_cons, List.mapM_cons, ih, map_bind,
      show (c.redact env).payload = redactPayload env c.payload from rfl, decode_redact hserde,
      bind_map]
    refine bind_congr fun cmd => ?_
    rw [bind_map, map_bind]
    rfl

theorem registerInsert_redact (req : RegisterRequest) (token : String) (now : Int) :
    registerInsert req token now (db.redact env) =
      (registerInsert req token now db).map (redactResult env) := by
  simp only [registerInsert, insertMachine_redact, sql_map, bind_map, map_bind]
  rfl

theorem createAccountTx_redact (id : String) (now : Int) :
    createAccountTx id now (db.redact env) =
      (createAccountTx id now db).map (redactResult env) := by
  simp only [createAccountTx, insertAccount_redact, sql_map, bind_map, map_bind]
  rfl

theorem depositTx_redact (id : String) (req : DepositRequest) (invoice : Invoice) (now : Int) :
    depositTx id req invoice now (db.redact env) =
      (depositTx id req invoice now db).map (redactResult env) := by
  simp only [depositTx, insertInvoice_redact, sql_map, bind_map, map_bind]
  rfl

theorem pollInvoiceTx_redact (p : PendingInvoice) (now : Int) :
    pollInvoiceTx p now (db.redact env) = (pollInvoiceTx p now db).map (·.redact env) := by
  have hsettle : (db.redact env).settleInvoice p.paymentHash =
      (db.settleInvoice p.paymentHash).redact env := rfl
  simp only [pollInvoiceTx, hsettle, addBalance_redact, bind_map, map_bind]
  rfl

theorem stop_redact (hserde : env.serde.RoundTrip) (r : RentalRow) (db : Db) (now : Int) :
    (db.redact env).insertCommand r.machineId (env.serde.toString (.stopRental r.id)) now =
      (db.insertCommand r.machineId (env.serde.toString (.stopRental r.id)) now).map
        (·.redact env) := by
  rw [← insertCommand_redact, redactPayload_toString hserde]
  rfl

theorem deleteRentalTx_redact (hserde : env.serde.RoundTrip) (r : RentalRow) (now : Int) :
    deleteRentalTx env r.redact now (db.redact env) =
      (deleteRentalTx env r now db).map (redactResult env) := by
  have hmark : (db.redact env).updateRental r.id (fun r => { r with status := .evicting })
      (fun _ => rfl) = (db.updateRental r.id (fun r => { r with status := .evicting })
        fun _ => rfl).redact env := updateRental_redact db fun _ => rfl
  have hstop := stop_redact hserde r (db.updateRental r.id
    (fun r => { r with status := .evicting }) fun _ => rfl) now
  simp only [deleteRentalTx, map_bind]
  change sql (((db.redact env).updateRental r.id _ _).insertCommand r.machineId
    (env.serde.toString (.stopRental r.id)) now) >>= _ = _
  rw [hmark, hstop, sql_map, bind_map]
  rfl

theorem evictTx_redact (hserde : env.serde.RoundTrip) (r : RentalRow) (now : Int) :
    evictTx env r.redact now (db.redact env) = (evictTx env r now db).map (·.redact env) := by
  have hmark : (db.redact env).updateRental r.id
      (fun r => { r with status := .evicting, error := some "insufficient balance" })
      (fun _ => rfl) = (db.updateRental r.id
        (fun r => { r with status := .evicting, error := some "insufficient balance" })
        fun _ => rfl).redact env := updateRental_redact db fun _ => rfl
  have hstop := stop_redact hserde r (db.updateRental r.id
    (fun r => { r with status := .evicting, error := some "insufficient balance" })
      fun _ => rfl) now
  simp only [evictTx, map_bind]
  change ((db.redact env).updateRental r.id _ _).insertCommand r.machineId
    (env.serde.toString (.stopRental r.id)) now >>= _ = _
  rw [hmark, hstop, bind_map]
  rfl

theorem setDeliveredAll_redact (rows : List CommandRow) :
    (rows.map (·.redact env)).foldl (fun db c => db.setDelivered c.id) (db.redact env) =
      (rows.foldl (fun db c => db.setDelivered c.id) db).redact env := by
  induction rows generalizing db with
  | nil => rfl
  | cons c rows ih =>
    rw [List.map_cons, List.foldl_cons, List.foldl_cons, ← ih, ← setDelivered_redact]
    rfl

theorem heartbeatTx_redact (hserde : env.serde.RoundTrip) (machine : MachineRow)
    (req : HeartbeatRequest) (now : Int) :
    heartbeatTx env machine req now (db.redact env) =
      (heartbeatTx env machine req now db).map fun r => (r.1.redact env, r.2.redact) := by
  have hlive : (db.redact env).updateMachine machine.id
      (fun m => { m with lastHeartbeat := now, online := req.online }) (fun _ => rfl) =
      (db.updateMachine machine.id
        (fun m => { m with lastHeartbeat := now, online := req.online }) fun _ => rfl).redact env :=
    rfl
  simp only [heartbeatTx, hlive, undelivered_redact, setDeliveredAll_redact,
    decodeAll_redact hserde, bind_map, map_bind]
  rfl

theorem report_write_redact (machine : MachineRow) (req : ReportRequest) (now : Int) :
    (db.redact env).updateRental req.rentalId (req.apply machine now) (req.apply_id machine now) =
      (db.updateRental req.rentalId (req.apply machine now) (req.apply_id machine now)).redact env :=
  updateRental_redact db fun _ => rfl

theorem reportTx_redact (machine : MachineRow) (rental : RentalRow) (req : ReportRequest)
    (now : Int) :
    reportTx env machine rental.redact req now (db.redact env) =
      (reportTx env machine rental req now db).map (redactResult env) := by
  have hsettles : settles rental.redact req = settles rental req := rfl
  simp only [reportTx, report_write_redact, hsettles, apply_ite (Except.map _), map_bind]
  refine if_congr Iff.rfl (bind_congr fun balance => ?_) rfl
  have billed : ∀ db : Db, ∀ charge : Int,
      (db.redact env).updateRental rental.id
        (fun r =>
          { r with
            satsCharged := charge
            minutesBilled := (max (now - rental.createdAt) 0).tdiv 60 }) (fun _ => rfl) =
      (db.updateRental rental.id
        (fun r =>
          { r with
            satsCharged := charge
            minutesBilled := (max (now - rental.createdAt) 0).tdiv 60 }) fun _ => rfl).redact env :=
    fun db charge => updateRental_redact db fun _ => rfl
  refine if_congr Iff.rfl ?_ (congrArg (fun db => Except.ok (db, Reply.ok)) (billed _ _))
  rw [addBalance_redact, sql_map, bind_map]
  refine bind_congr fun db' => ?_
  let charge := min (accruedCharge env.arith rental.createdAt now rental.rateSatsPerMin) balance
  have credited := billed ((db'.withPayout machine.id charge).recordCharge now rental.accountId
    machine.id rental.id charge) charge
  exact congrArg (fun db => Except.ok (db, Reply.ok)) credited

theorem createRentalTx_redact (hserde : env.serde.RoundTrip) (req : CreateRentalRequest)
    (now : Int) :
    createRentalTx env req.redact now (db.redact env) =
      (createRentalTx env req now db).map (redactResult env) := by
  simp only [createRentalTx, map_bind, sshKey_redact, bind_map]
  refine bind_congr fun machine => bind_congr fun account => bind_congr fun key => ?_
  have hocc : occupied (db.redact env) req.redact.machineId ↔ occupied db req.machineId :=
    occupied_redact db req.machineId
  by_cases honline : machine.online
  · by_cases hrented : occupied db req.machineId
    · simp only [honline, not_true_eq_false, if_false, hocc, hrented, if_true]
      rfl
    · by_cases hrate : account.balanceSats < machine.rateSatsPerMin
      · simp only [honline, not_true_eq_false, if_false, hocc, hrented, hrate, if_true]
        rfl
      · simp only [honline, not_true_eq_false, if_false, hocc, hrented, hrate]
        change sql ((db.redact env).insertRental req.machineId req.accountId req.image
          (redactKey key) machine.rateSatsPerMin now) >>= _ = _
        rw [insertRental_redact, sql_map, bind_map, map_bind]
        refine bind_congr fun r => ?_
        have hqueue : (r.2.redact env).insertCommand req.machineId
            (env.serde.toString (.startRental r.1 req.image (redactKey key))) now =
            (r.2.insertCommand req.machineId
              (env.serde.toString (.startRental r.1 req.image key)) now).map (·.redact env) := by
          rw [← insertCommand_redact, redactPayload_toString hserde]
          rfl
        change sql ((r.2.redact env).insertCommand req.machineId
          (env.serde.toString (.startRental r.1 req.image (redactKey key))) now) >>= _ = _
        rw [hqueue, sql_map, bind_map, map_bind]
        rfl
  · simp only [honline]
    rfl

end Transactions

section Handlers

variable {env : Env} (db : Db)

theorem register_redact (req : RegisterRequest) (token : String) (now : Int) :
    register req token now (db.redact env) =
      (register req token now db).map (redactResult env) := by
  have hhost : machineOfHost (db.redact env) req.hostId = machineOfHost db req.hostId := rfl
  simp only [register, hhost]
  cases machineOfHost db req.hostId with
  | some m => rfl
  | none => exact registerInsert_redact db req token now

theorem heartbeat_redact (hserde : env.serde.RoundTrip) (auth : Option String)
    (req : HeartbeatRequest) (now : Int) :
    heartbeat env auth req now (db.redact env) =
      (heartbeat env auth req now db).map fun r => (r.1.redact env, r.2.redact) := by
  rw [heartbeat, heartbeat, map_bind]
  exact bind_congr fun machine => heartbeatTx_redact db hserde machine req now

theorem report_redact (auth : Option String) (req : ReportRequest) (now : Int) :
    report env auth req now (db.redact env) =
      (report env auth req now db).map (redactResult env) := by
  rw [report, report, map_bind]
  refine bind_congr fun machine => ?_
  rw [rentalOfMachine_redact, bind_map, map_bind]
  exact bind_congr fun rental => reportTx_redact db machine rental req now

theorem rate_redact (auth : Option String) (req : RateRequest) :
    rate auth req (db.redact env) = (rate auth req db).map (redactResult env) := by
  rw [rate, rate, map_bind]
  refine bind_congr fun machine => ?_
  rw [map_bind]
  rfl

theorem payout_redact (auth : Option String) (paid : Bool) (now : Int) :
    payout auth paid now (db.redact env) =
      (payout auth paid now db).map (redactResult env) := by
  rw [payout, payout, map_bind]
  refine bind_congr fun machine => ?_
  rw [map_bind]
  refine bind_congr fun _ => ?_
  cases paid <;> rfl

theorem deposit_redact (id : String) (req : DepositRequest) (invoice : Option Invoice)
    (now : Int) :
    deposit id req invoice now (db.redact env) =
      (deposit id req invoice now db).map (redactResult env) := by
  unfold deposit
  rw [map_bind]
  refine bind_congr fun _ => ?_
  rw [map_bind]
  refine bind_congr fun _ => ?_
  cases invoice with
  | none => rfl
  | some invoice => exact depositTx_redact db id req invoice now

theorem deleteRental_redact (hserde : env.serde.RoundTrip) (id : Int) (now : Int) :
    deleteRental env id now (db.redact env) =
      (deleteRental env id now db).map (redactResult env) := by
  rw [deleteRental, deleteRental, findRental_redact, bind_map, map_bind]
  refine bind_congr fun r => ?_
  rw [apply_ite (Except.map _)]
  exact if_congr Iff.rfl rfl (deleteRentalTx_redact db hserde r now)

theorem pollInvoicesLoop_redact (isSettled : String → Option Bool) (now : String → Int)
    (pending : List PendingInvoice) :
    (pollInvoicesLoop isSettled now pending (db.redact env)).1 =
      (pollInvoicesLoop isSettled now pending db).1.redact env := by
  induction pending generalizing db with
  | nil => rfl
  | cons p rest ih =>
    simp only [pollInvoicesLoop, pollInvoiceTx_redact]
    cases isSettled p.paymentHash with
    | none => rfl
    | some settled =>
      cases settled with
      | false => exact ih db
      | true =>
        cases pollInvoiceTx p (now p.paymentHash) db with
        | ok db' => exact ih db'
        | error e => rfl

theorem enforceBudgetsLoop_redact (hserde : env.serde.RoundTrip) (now : Int → Int)
    (running : List RentalRow) :
    (enforceBudgetsLoop env now (running.map (·.redact)) (db.redact env)).1 =
      (enforceBudgetsLoop env now running db).1.redact env := by
  induction running generalizing db with
  | nil => rfl
  | cons r rest ih =>
    have hlast : lastHeartbeat (db.redact env) r.redact.machineId = lastHeartbeat db r.machineId :=
      rfl
    have hbalance : (db.redact env).balanceOf r.redact.accountId = db.balanceOf r.accountId := rfl
    have hid : r.redact.id = r.id := rfl
    simp only [List.map_cons, enforceBudgetsLoop, hlast, hbalance, hid, evictTx_redact db hserde]
    cases lastHeartbeat db r.machineId with
    | error e => rfl
    | ok last =>
      by_cases hsilent : now r.id - last > env.heartbeatTimeoutSecs
      · simp only [hsilent, if_true]
        exact ih db
      · simp only [hsilent, if_false]
        cases db.balanceOf r.accountId with
        | error e => rfl
        | ok balance =>
          by_cases hwithin :
              accruedCharge env.arith r.createdAt (now r.id) r.rateSatsPerMin ≤ balance
          · have hsame : accruedCharge env.arith r.redact.createdAt (now r.id)
                r.redact.rateSatsPerMin ≤ balance := hwithin
            simp only [hwithin, hsame, if_true]
            exact ih db
          · have hsame : ¬accruedCharge env.arith r.redact.createdAt (now r.id)
                r.redact.rateSatsPerMin ≤ balance := hwithin
            simp only [hwithin, hsame, if_false]
            cases evictTx env r (now r.id) db with
            | ok db' => exact ih db'
            | error e => rfl

theorem offers_redact (q : OffersQuery) : offers q (db.redact env) = offers q db := by
  simp only [offers, occupied_redact]
  rfl

theorem getAccount_redact (id : String) : getAccount id (db.redact env) = getAccount id db := by
  simp only [getAccount, burnSatsPerMin_redact]
  rfl

theorem getRental_redact (id : Int) : getRental id (db.redact env) = getRental id db := by
  rw [getRental, getRental, findRental_redact, bind_map]
  rfl

end Handlers

theorem committed_redact {env : Env} {db : Db} {x y : Except ApiError (Db × Reply)}
    (h : y = x.map (redactResult env)) :
    committed (db.redact env) y = (committed db x).redact env := by
  subst h
  cases x <;> rfl

theorem Op.step_redact {env : Env} (hserde : env.serde.RoundTrip) (db : Db) (op : Op) :
    op.redact.step env (db.redact env) = (op.step env db).redact env := by
  cases op with
  | health | offers | getAccount | getRental => rfl
  | register req token now => exact committed_redact (register_redact db req token now)
  | heartbeat auth req now =>
    simp only [redact, step, heartbeat_redact db hserde]
    cases GpuMarket.heartbeat env auth req now db <;> rfl
  | report auth req now => exact committed_redact (report_redact db auth req now)
  | rate auth req => exact committed_redact (rate_redact db auth req)
  | payout auth req paid now => exact committed_redact (payout_redact db auth paid now)
  | createAccount id now => exact committed_redact (createAccountTx_redact db id now)
  | deposit id req invoice now => exact committed_redact (deposit_redact db id req invoice now)
  | createRental req now => exact committed_redact (createRentalTx_redact db hserde req now)
  | deleteRental id now => exact committed_redact (deleteRental_redact db hserde id now)
  | pollInvoices isSettled now => exact pollInvoicesLoop_redact db isSettled now _
  | markOffline now => rfl
  | enforceBudgets now =>
    have hloop := enforceBudgetsLoop_redact db hserde now (runningRentals db)
    rw [← runningRentals_redact] at hloop
    exact hloop

theorem map_snd_redact {env : Env} {x y : Except ApiError (Db × Reply)}
    (h : y = x.map (redactResult env)) : some (y.map (·.2)) = some (x.map (·.2)) := by
  subst h
  cases x <;> rfl

def Op.isHeartbeat : Op → Bool
  | .heartbeat .. => true
  | _ => false

theorem Op.reply_redact {env : Env} (hserde : env.serde.RoundTrip) (db : Db) {op : Op}
    (hop : op.isHeartbeat = false) : op.redact.reply env (db.redact env) = op.reply env db := by
  cases op with
  | health | pollInvoices | markOffline | enforceBudgets => rfl
  | offers q =>
    exact congrArg (fun v => some (Except.ok v : Except ApiError Reply)) (offers_redact db q)
  | getAccount id => exact congrArg some (getAccount_redact db id)
  | getRental id => exact congrArg some (getRental_redact db id)
  | register req token now => exact map_snd_redact (register_redact db req token now)
  | heartbeat auth req now => cases hop
  | report auth req now => exact map_snd_redact (report_redact db auth req now)
  | rate auth req => exact map_snd_redact (rate_redact db auth req)
  | payout auth req paid now => exact map_snd_redact (payout_redact db auth paid now)
  | createAccount id now => exact map_snd_redact (createAccountTx_redact db id now)
  | deposit id req invoice now => exact map_snd_redact (deposit_redact db id req invoice now)
  | createRental req now => exact map_snd_redact (createRentalTx_redact db hserde req now)
  | deleteRental id now => exact map_snd_redact (deleteRental_redact db hserde id now)

/-- What operations do with the keys blotted out is what they do, blotted out. -/
theorem perform_redact {env : Env} (hserde : env.serde.RoundTrip) (ops : List Op) :
    perform env (ops.map Op.redact) = (perform env ops).redact env :=
  run_map (f := Db.redact env) (Op.step_redact hserde) .empty ops

end GpuMarket
