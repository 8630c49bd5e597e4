import GpuMarket.Lib.Mailbox
import GpuMarket.ControlPlane.Contract

namespace GpuMarket

open Lib

/-- What a committed transaction does to the command queues of the machines. -/
def Txn.post : Txn × Reply → Post Int Command
  | (.createRental req _, .rental id _ _) =>
    match sshKey req with
    | .ok key => .send req.machineId (.startRental id req.image key)
    | .error _ => .idle
  | (.deleteRental r _, _) | (.evict r _, _) => .send r.machineId (.stopRental r.id)
  | (.heartbeat machine _ _, _) => .drain machine.id
  | _ => .idle

def queuedFor (log : List (Txn × Reply)) (machineId : Int) : List Command :=
  log.flatMap fun e => (Txn.post e).sends machineId

def returnedTo (machineId : Int) : Txn × Reply → List Command
  | (.heartbeat machine _ _, .commands commands) => if machine.id = machineId then commands else []
  | _ => []

def deliveredTo (log : List (Txn × Reply)) (machineId : Int) : List Command :=
  log.flatMap (returnedTo machineId)

def waitingFor (db : Db) (machineId : Int) : List String :=
  (undelivered db machineId).map (·.payload)

/-- The mailbox that the committed transactions amount to. -/
def mailbox (log : List (Txn × Reply)) : Mailbox Int Command := .replay (log.map Txn.post)

theorem waitingFor_eq {db : Db} (h : db.commands.Ascending) (machineId : Int) :
    waitingFor db machineId =
      (db.commands.rows.filter fun c => decide (c.waits machineId)).map (·.payload) := by
  unfold waitingFor undelivered
  rw [h.orderBy_filter]
  rfl

theorem waitingFor_withCommand {db : Db} (h : db.commands.Ascending) (machineId : Int)
    (payload : String) (now : Int) :
    waitingFor (db.withCommand machineId payload now) =
      (Post.send machineId payload).apply (waitingFor db) := by
  funext m
  have h' : (db.withCommand machineId payload now).commands.Ascending :=
    h.append (.queued machineId payload now) fun _ => CommandRow.queued_id ..
  have hrows : (db.withCommand machineId payload now).commands.rows =
      db.commands.rows ++ [.queued machineId payload now db.commands.nextId] := rfl
  rw [waitingFor_eq h', hrows, List.filter_append, List.map_append, ← waitingFor_eq h]
  by_cases hm : m = machineId
  · subst hm
    simp [Post.apply, CommandRow.waits, CommandRow.queued]
  · simp [Post.apply, CommandRow.waits, CommandRow.queued, Function.update_of_ne hm, Ne.symm hm]

theorem waitingFor_drain {db db' : Db} (h : db.commands.Ascending) {machineId : Int}
    (hcommands : db'.commands = db.commands.mapRows
      (fun c => if c.waits machineId then { c with delivered := true } else c)
      (by intro c; split <;> rfl)) :
    waitingFor db' = (Post.drain machineId).apply (waitingFor db) := by
  funext m
  have h' : db'.commands.Ascending := by
    rw [hcommands]
    exact h.mapRows _ (by intro c; split <;> rfl)
  rw [waitingFor_eq h', hcommands, Table.rows_mapRows]
  by_cases hm : m = machineId
  · subst hm
    have nothing : ∀ c : CommandRow,
        ¬(if c.waits m then { c with delivered := true } else c).waits m := by
      intro c
      split
      case isTrue => simp [CommandRow.waits]
      case isFalse hc => exact hc
    simp [Post.apply, List.filter_map, Function.comp_def, nothing]
  · have keep : ∀ c : CommandRow,
        (if c.waits machineId then { c with delivered := true } else c).waits m ↔ c.waits m := by
      intro c
      split
      case isTrue hc => simp [CommandRow.waits, hc.1, Ne.symm hm]
      case isFalse => rfl
    rw [Post.apply, Function.update_of_ne hm, waitingFor_eq h]
    simp only [List.filter_map, Function.comp_def, keep, List.map_map]
    refine List.map_congr_left fun c _ => ?_
    split <;> rfl

/-- What becomes of the rows of the queue when a transaction takes part as it says. -/
inductive Queued (env : Env) (db db' : Db) : Post Int Command → Prop
  | idle : db'.commands = db.commands → Queued env db db' .idle
  | send (machineId : Int) (cmd : Command) (now : Int) :
      db'.commands = (db.withCommand machineId (env.serde.toString cmd) now).commands →
      Queued env db db' (.send machineId cmd)
  | drain (machineId : Int) :
      db'.commands = db.commands.mapRows
        (fun c => if c.waits machineId then { c with delivered := true } else c)
        (by intro c; split <;> rfl) → Queued env db db' (.drain machineId)

theorem exec_queued {env : Env} {txn : Txn} {db db' : Db} {v : Reply}
    (hx : txn.exec env db = .ok (db', v)) : Queued env db db' (Txn.post (txn, v)) := by
  cases txn with
  | registerUpdate m req now => cases hx; exact .idle rfl
  | registerInsert req token now =>
    obtain ⟨-, rfl, -⟩ := registerInsert_ok hx
    exact .idle rfl
  | heartbeat machine req now =>
    obtain ⟨-, rfl⟩ := heartbeatTx_ok hx
    exact .drain _ rfl
  | report machine rental req now =>
    obtain ⟨-, rfl⟩ | ⟨-, a, -, -, rfl⟩ := reportTx_ok hx
    · exact .idle rfl
    · exact .idle (by simp [Db.billed, Db.updateRental])
  | rate machine req => cases hx; exact .idle rfl
  | payout machine now => cases hx; exact .idle rfl
  | createAccount id now =>
    obtain ⟨-, hid, rfl⟩ := createAccountTx_ok hx
    exact .idle rfl
  | deposit id req invoice now =>
    obtain ⟨-, hhash, rfl⟩ := depositTx_ok hx
    exact .idle rfl
  | createRental req now =>
    obtain ⟨m, -, -, a, -, -, -, -, -, rfl, key, hkey, rfl⟩ := createRentalTx_ok hx
    simp only [Txn.post, hkey]
    exact .send _ _ _ rfl
  | deleteRental r now =>
    obtain ⟨-, -, rfl⟩ := deleteRentalTx_ok hx
    exact .send _ _ _ rfl
  | pollInvoice p now =>
    obtain ⟨-, rfl⟩ := pollInvoice_ok hx
    exact .idle rfl
  | markOffline now => cases hx; exact .idle rfl
  | evict r now =>
    obtain ⟨-, rfl⟩ := evict_ok hx
    exact .send _ _ _ rfl

theorem Txn.rental_of_post {env : Env} {txn : Txn} {db db' : Db} {v : Reply} {machineId : Int}
    {cmd : Command} (hv : txn.Valid db) (hx : txn.exec env db = .ok (db', v))
    (hpost : Txn.post (txn, v) = .send machineId cmd) :
    ∃ r ∈ db'.rentals.rows, r.id = cmd.rentalId ∧ r.machineId = machineId := by
  have known : ∀ r : RentalRow, db.HasRental r →
      ∃ r' ∈ db'.rentals.rows, r'.id = r.id ∧ r'.machineId = r.machineId := by
    intro r hr
    obtain ⟨r', hr', hid, hmachine, -⟩ := (hr.mono (.exec hx)).row
    exact ⟨r', hr', hid, hmachine⟩
  cases txn with
  | createRental req now =>
    obtain ⟨m, -, -, a, -, -, -, -, -, rfl, key, hkey, rfl⟩ := createRentalTx_ok hx
    simp only [post, hkey] at hpost
    cases hpost
    exact ⟨_, Db.mem_withRental.mpr (.inr rfl), rfl, rfl⟩
  | deleteRental r now => cases hpost; exact known r hv.1
  | evict r now => cases hpost; exact known r hv.1
  | _ => cases hpost

theorem waitingFor_of_commands {db db' : Db} (h : db'.commands = db.commands) :
    waitingFor db' = waitingFor db := by
  funext m
  rw [waitingFor, waitingFor, undelivered, undelivered, h]

/-- The queues of the database take part in every transaction as the mailbox does. -/
theorem exec_commands {env : Env} {txn : Txn} {db db' : Db} {v : Reply}
    (h : db.commands.Ascending) (hx : txn.exec env db = .ok (db', v)) :
    waitingFor db' = ((Txn.post (txn, v)).map env.serde.toString).apply (waitingFor db) := by
  have hqueued := exec_queued hx
  generalize Txn.post (txn, v) = post at hqueued ⊢
  cases hqueued with
  | idle hsame => exact waitingFor_of_commands hsame
  | send machineId cmd now hsame =>
    rw [waitingFor_of_commands hsame]
    exact waitingFor_withCommand h _ _ _
  | drain machineId hsame => exact waitingFor_drain h hsame

theorem decode_all {env : Env} (hserde : env.serde.RoundTrip) {rows : List CommandRow}
    {commands : List Command} (h : rows.map (·.payload) = commands.map env.serde.toString) :
    rows.mapM (fun c => decode env c.payload) = .ok commands := by
  induction rows generalizing commands with
  | nil =>
    obtain rfl : commands = [] := by simpa using h.symm
    rfl
  | cons c rows ih =>
    cases commands with
    | nil => cases h
    | cons cmd commands =>
      obtain ⟨hc, hrows⟩ := List.cons.inj h
      simp only at hc
      have hdecode : decode env c.payload = .ok cmd := by rw [decode, hc, hserde]
      rw [List.mapM_cons, hdecode]
      exact bind_eq_ok.mpr ⟨cmd, rfl, bind_eq_ok.mpr ⟨commands, ih hrows, rfl⟩⟩

/-- The database and its heartbeats' replies follow the mailbox. -/
structure Db.Follows (env : Env) (db : Db) (log : List (Txn × Reply)) : Prop where
  waiting : ∀ m, waitingFor db m = ((mailbox log).pending m).map env.serde.toString
  delivered : ∀ m, deliveredTo log m = (mailbox log).received m

theorem mailbox_concat (log : List (Txn × Reply)) (e : Txn × Reply) :
    mailbox (log ++ [e]) = (mailbox log).post (Txn.post e) := by
  simp [mailbox]

theorem Db.Follows.heartbeat {env : Env} (hserde : env.serde.RoundTrip) {machine : MachineRow}
    {req : HeartbeatRequest} {now : Int} {db db' : Db} {v : Reply} {log : List (Txn × Reply)}
    (h : db.Follows env log) (hx : (Txn.heartbeat machine req now).exec env db = .ok (db', v)) :
    v = .commands ((mailbox log).pending machine.id) := by
  obtain ⟨⟨cmds, rfl, hcmds⟩, -⟩ := heartbeatTx_ok hx
  rw [decode_all hserde (h.waiting machine.id)] at hcmds
  cases hcmds
  rfl

theorem Db.Follows.exec {env : Env} (hserde : env.serde.RoundTrip) {txn : Txn} {db db' : Db}
    {v : Reply} {log : List (Txn × Reply)} (h : db.Follows env log) (hwf : db.Wf)
    (hx : txn.exec env db = .ok (db', v)) : db'.Follows env (log ++ [(txn, v)]) := by
  refine ⟨fun m => ?_, fun m => ?_⟩
  · rw [mailbox_concat, exec_commands hwf.commands hx, show waitingFor db = fun m =>
      ((mailbox log).pending m).map env.serde.toString from funext h.waiting]
    exact Post.apply_map _ _ _ _
  · have returns : returnedTo m (txn, v) = (Txn.post (txn, v)).hands (mailbox log).pending m := by
      cases txn with
      | heartbeat machine req now =>
        obtain rfl := h.heartbeat hserde hx
        by_cases hid : machine.id = m <;> simp [returnedTo, Txn.post, Post.hands, hid]
      | createRental req now =>
        obtain ⟨m, -, -, a, -, -, -, -, -, rfl, key, hkey, -⟩ := createRentalTx_ok hx
        simp [returnedTo, Txn.post, hkey, Post.hands]
      | _ => rfl
    rw [mailbox_concat, deliveredTo, List.flatMap_append, ← deliveredTo, h.delivered]
    simp [Mailbox.post, returns]

/-- In every state of every run, what a machine's heartbeats have returned and what still waits
for it are the commands queued for it, in the order in which they were committed; and a step
that commits nothing consumes nothing. -/
theorem commands_exactly_once {env : Env} (hserde : env.serde.RoundTrip) (acts : List ServerAct)
    (machineId : Int) :
    (deliveredTo (serve env acts).log machineId).map some ++
        (waitingFor (serve env acts).store machineId).map env.serde.fromStr =
      (queuedFor (serve env acts).log machineId).map some ∧
    ∀ a, ((server env).step (serve env acts) a).log = (serve env acts).log →
      waitingFor ((server env).step (serve env acts) a).store machineId =
        waitingFor (serve env acts).store machineId := by
  have follows : (serve env acts).store.Follows env (serve env acts).log := by
    refine (serverContract env).run_preserves (J := Db.Follows env)
      (fun hwf _ hx h => h.exec hserde hwf hx) (init_holds env) ?_ acts
    exact ⟨fun _ => rfl, fun _ => rfl⟩
  constructor
  · have decodes : env.serde.fromStr ∘ env.serde.toString = some := funext hserde
    have hsent : queuedFor (serve env acts).log machineId =
        (mailbox (serve env acts).log).sent machineId := by
      rw [mailbox, Mailbox.sent_replay, List.flatMap_map, queuedFor]
    rw [follows.delivered, follows.waiting, List.map_map, decodes, ← List.map_append,
      Mailbox.fifo, hsent]
  · intro a hlog
    obtain ⟨hstore, -⟩ | ⟨txn, v, -, -, hmore⟩ := (server env).step_store (serve env acts) a
    · rw [hstore]
    · rw [hmore] at hlog
      exact absurd hlog (by simp)

/-- A rental starts, and is deleted after the heartbeat that carried its start. -/
def startThenStop : List ServerAct :=
  opening 100 ++
  call 3 (.createRental ⟨1, "acct_1", "nvidia/cuda:latest", some "ssh-ed25519 AAAA"⟩) [{}] ++
  call 4 (.heartbeat bearer ⟨true⟩) [{}, {}] ++ call 5 (.deleteRental 1) [{}, {}]

theorem startThenStop_exactly_once :
    testEnv.serde.RoundTrip ∧
    (deliveredTo (serve testEnv startThenStop).log 1).map some ++
        (waitingFor (serve testEnv startThenStop).store 1).map testEnv.serde.fromStr =
      (queuedFor (serve testEnv startThenStop).log 1).map some ∧
    deliveredTo (serve testEnv startThenStop).log 1 =
      [.startRental 1 "nvidia/cuda:latest" "ssh-ed25519 AAAA"] ∧
    queuedFor (serve testEnv startThenStop).log 1 =
      [.startRental 1 "nvidia/cuda:latest" "ssh-ed25519 AAAA", .stopRental 1] :=
  ⟨Serde.json_roundTrip, (commands_exactly_once Serde.json_roundTrip startThenStop 1).1,
    by decide +kernel, by decide +kernel⟩

end GpuMarket
