import GpuMarket.Marketplace.Termination

namespace GpuMarket

open Lib

def Db.waiting (db : Db) : Nat := db.commands.rows.countP (·.delivered = false)

/-- A step of the hosts' agents: a heartbeat that comes after the first `n` requests, or a task's. -/
def WorldAct.ByAgents (n : Nat) : WorldAct → Prop
  | .server (.request r) => ∃ auth req, r = .heartbeat auth req
  | .server (.thread k _) => n ≤ k
  | .server (.daemon _) => False
  | .docker .. | .report .. => True

/-- A heartbeat under the machine's token, in the three steps that it takes. -/
def World.heartbeat (w : World) (m : MachineRow) (req : HeartbeatRequest) (i j : Input) :
    List WorldAct :=
  [.server (.request (.heartbeat (bearerAuth m.agentToken) req)),
    .server (.thread w.conf.threads.length i), .server (.thread w.conf.threads.length j)]

/-- The machine's next heartbeat brings the command along, and the agent makes it a task. -/
def World.HandsOut (env : Env) (w : World) (m : MachineRow) (c : CommandRow) (cmd : Command) :
    Prop :=
  ∀ req i j, i.fails = none → j.fails = none →
    (∃ cmds, (run (step env) w (w.heartbeat m req i j)).conf.threads[w.conf.threads.length]? =
        some (.done (.ok (.commands cmds))) ∧ cmd ∈ cmds) ∧
      { c with delivered := true } ∈
        (run (step env) w (w.heartbeat m req i j)).conf.store.commands.rows ∧
      dispatch m.agentToken ⟨m.portStart, m.portEnd⟩ cmd ∈
        (run (step env) w (w.heartbeat m req i j)).tasks

theorem heartbeat_exec_ok {env : Env} (hserde : env.serde.RoundTrip) {db : Db}
    {log : List (Txn × Reply)} (hfollows : db.Follows env log) (machine : MachineRow)
    (req : HeartbeatRequest) (now : Int) :
    ∃ db', heartbeatTx env machine req now db =
        .ok (db', .commands ((mailbox log).pending machine.id)) ∧
      db'.commands.rows = db.commands.rows.map
        fun c => if c.waits machine.id then { c with delivered := true } else c := by
  have hread : (undelivered db machine.id).mapM (fun c => decode env c.payload) =
      .ok ((mailbox log).pending machine.id) := decode_all hserde (hfollows.waiting machine.id)
  have hx : ∃ r, heartbeatTx env machine req now db = .ok r :=
    ⟨_, bind_eq_ok.mpr ⟨_, hread, rfl⟩⟩
  obtain ⟨⟨db', v⟩, hx⟩ := hx
  have hexec : (Txn.heartbeat machine req now).exec env db = .ok (db', v) := hx
  obtain rfl := hfollows.heartbeat hserde hexec
  obtain ⟨-, rfl⟩ := heartbeatTx_ok hx
  exact ⟨_, hx, rfl⟩

theorem reportTx_commands {env : Env} {machine : MachineRow} {rental : RentalRow}
    {req : ReportRequest} {now : Int} {db db' : Db} {v : Reply}
    (hx : reportTx env machine rental req now db = .ok (db', v)) :
    db'.commands = db.commands := by
  rcases reportTx_ok hx with ⟨-, rfl⟩ | ⟨-, a, -, -, rfl⟩
  · rfl
  · simp [Db.billed, Db.updateRental]

theorem Thread.Carries.commit {db db' : Db} {auth : Option String} {machineId : Int}
    {req : ReportRequest} {t : Thread} {i : Input} {txn : Txn}
    (h : t.Carries db auth machineId req) (hn : t.next i db' = .commit txn) :
    ∃ machine rental now, txn = .report machine rental req now := by
  cases t with
  | received r =>
    obtain rfl : r = .report auth req := h
    obtain ⟨m, -, hn⟩ := fetch_eq_commit.mp hn
    cases hn
  | reportRead machine q =>
    obtain ⟨rental, -, hn⟩ := fetch_eq_commit.mp hn
    cases hn
  | reportTx machine rental q now =>
    obtain ⟨rfl, -⟩ := h
    cases hn
    exact ⟨machine, rental, now, rfl⟩
  | done reply => cases hn
  | _ => exact h.elim

namespace World

variable {env : Env} {w : World}

theorem Inv.of_run (hserde : env.serde.RoundTrip) (h : w.Inv env) (acts : List WorldAct) :
    (run (step env) w acts).Inv env :=
  run_invariant (I := Inv env) (fun _ a h => (step_cases hserde h a).1) h acts

theorem Inv.step_commands (h : w.Inv env) {a : WorldAct} (ha : ∀ b, a ≠ .server b) :
    (w.step env a).conf.store.commands = w.conf.store.commands := by
  cases a with
  | server b => exact absurd rfl (ha b)
  | docker n a =>
    simp only [step]
    split
    case h_1 => rfl
    case h_2 t ht =>
      unfold dockerStep
      split
      case h_1 => rfl
      case h_2 => split <;> rfl
  | report n now =>
    simp only [step]
    split
    case h_1 => rfl
    case h_2 t ht =>
      obtain ⟨r, -, -, -, hphase⟩ := h.tasks t (List.mem_of_getElem? ht)
      unfold reportStep
      split
      case h_2 => rfl
      case h_1 rentalId outcome left thread hp =>
        rw [hp] at hphase
        obtain ⟨hstore, -⟩ | ⟨txn, v, hc, hx, -⟩ := (server env).step_store
          { w.conf with threads := thread :: w.conf.threads } (.thread 0 { now })
        · exact congrArg Db.commands hstore
        · obtain ⟨thread', ht', -, hn⟩ := (server env).commits_thread hc
          cases ht'
          obtain ⟨machine, rental, now', rfl⟩ := Thread.Carries.commit hphase hn
          exact reportTx_commands hx

theorem Inv.run_commands (hserde : env.serde.RoundTrip) (h : w.Inv env) {acts : List WorldAct}
    (hacts : ∀ a ∈ acts, ∀ b, a ≠ .server b) :
    (run (step env) w acts).conf.store.commands = w.conf.store.commands := by
  induction acts generalizing w with
  | nil => rfl
  | cons a acts ih =>
    obtain ⟨ha, hacts⟩ := List.forall_mem_cons.mp hacts
    rw [run_cons, ih (step_cases hserde h a).1 hacts, h.step_commands ha]

theorem Inv.authenticate (h : w.Inv env) {m : MachineRow}
    (hm : m ∈ w.conf.store.machines.rows) :
    authenticate w.conf.store (bearerAuth m.agentToken) = .ok m := by
  obtain ⟨m', hauth, hid⟩ := h.tokens.authenticate ⟨m, hm, rfl⟩
  rwa [w.conf.store.machines.eq_of_key_eq (authenticate_ok hauth).1 hm hid] at hauth

theorem Inv.heartbeat (hserde : env.serde.RoundTrip) (h : w.Inv env) {m : MachineRow}
    (hm : m ∈ w.conf.store.machines.rows) (req : HeartbeatRequest) {i j : Input}
    (hi : i.fails = none) (hj : j.fails = none) :
    (run (step env) w (w.heartbeat m req i j)).conf.store.commands.rows =
        w.conf.store.commands.rows.map
          (fun c => if c.waits m.id then { c with delivered := true } else c) ∧
      (run (step env) w (w.heartbeat m req i j)).conf.threads = w.conf.threads ++
        [.done (.ok (.commands ((mailbox w.conf.log).pending m.id)))] ∧
      (run (step env) w (w.heartbeat m req i j)).tasks = w.tasks ++
        ((mailbox w.conf.log).pending m.id).map
          (dispatch m.agentToken ⟨m.portStart, m.portEnd⟩) := by
  obtain ⟨db', hx, hrows⟩ := heartbeat_exec_ok hserde h.follows m req i.now
  have hauth := h.authenticate hm
  simp [World.heartbeat, step, ServerAct.isReport, serverStep, System.step, System.threadStep,
    server, Thread.next, Thread.finish, Request.next, hauth, fetch, Txn.exec, hx, hi, hj, hrows,
    spawned]

/-- A command that waits can be read, and its machine's next heartbeat hands it out. -/
theorem Inv.handsOut (hserde : env.serde.RoundTrip) (h : w.Inv env) {c : CommandRow}
    (hc : c ∈ w.conf.store.commands.rows) (hwaits : c.delivered = false) :
    ∃ m ∈ w.conf.store.machines.rows, m.id = c.machineId ∧
      ∃ cmd, env.serde.fromStr c.payload = some cmd ∧ w.HandsOut env m c cmd := by
  have hpayload : c.payload ∈ waitingFor w.conf.store c.machineId :=
    List.mem_map_of_mem (mem_undelivered.mpr ⟨hc, rfl, hwaits⟩)
  rw [h.follows.waiting] at hpayload
  obtain ⟨cmd, hcmd, hsame⟩ := List.mem_map.mp hpayload
  obtain ⟨r, hr, -, hmachine⟩ := h.addressed _ cmd hcmd
  obtain ⟨m, hm, hid⟩ := h.holds.inv.rental_machine r hr
  have hmine : m.id = c.machineId := hid.trans hmachine
  refine ⟨m, hm, hmine, cmd, hsame ▸ hserde cmd, fun req i j hi hj => ?_⟩
  obtain ⟨hrows, hthreads, htasks⟩ := h.heartbeat hserde hm req hi hj
  refine ⟨⟨_, by rw [hthreads, List.getElem?_concat_length], hmine ▸ hcmd⟩, ?_, ?_⟩
  · rw [hrows]
    exact List.mem_map.mpr ⟨c, hc, if_pos ⟨hmine.symm, hwaits⟩⟩
  · rw [htasks]
    exact List.mem_append_right _ (List.mem_map_of_mem (hmine ▸ hcmd))

theorem Inv.deliver (hserde : env.serde.RoundTrip) (h : w.Inv env) {c : CommandRow}
    (hc : c ∈ w.conf.store.commands.rows) (hwaits : c.delivered = false) :
    ∃ m, (run (step env) w (w.heartbeat m ⟨true⟩ {} {})).conf.store.waiting <
        w.conf.store.waiting ∧
      w.conf.threads.length ≤ (run (step env) w (w.heartbeat m ⟨true⟩ {} {})).conf.threads.length := by
  obtain ⟨m, hm, hmine, -⟩ := h.handsOut hserde hc hwaits
  obtain ⟨hrows, hthreads, -⟩ := h.heartbeat hserde hm ⟨true⟩ (i := {}) (j := {}) rfl rfl
  refine ⟨m, ?_, ?_⟩
  · rw [Db.waiting, Db.waiting, hrows]
    have htaken : c.waits m.id := ⟨hmine.symm, hwaits⟩
    refine countP_map_lt (fun c' hopen => ?_) hc (by simpa using hwaits) (by simp [htaken])
    split at hopen
    case isTrue => simp at hopen
    case isFalse => exact hopen
  · rw [hthreads, List.length_append]
    exact Nat.le_add_right _ _

theorem Inv.deliver_all (hserde : env.serde.RoundTrip) (h : w.Inv env) {n : Nat}
    (hn : n ≤ w.conf.threads.length) :
    ∃ acts : List WorldAct, (∀ a ∈ acts, a.ByAgents n) ∧
      ∀ c ∈ (run (step env) w acts).conf.store.commands.rows, c.delivered = true := by
  induction hk : w.conf.store.waiting using Nat.strongRecOn generalizing w with
  | ind k ih =>
    by_cases hopen : ∃ c ∈ w.conf.store.commands.rows, c.delivered = false
    case neg =>
      simp only [not_exists, not_and, Bool.not_eq_false] at hopen
      exact ⟨[], fun a ha => absurd ha List.not_mem_nil, hopen⟩
    case pos =>
      obtain ⟨c, hc, hwaits⟩ := hopen
      obtain ⟨m, hless, hlonger⟩ := h.deliver hserde hc hwaits
      obtain ⟨more, hmore, hall⟩ :=
        ih _ (hless.trans_eq hk) (h.of_run hserde _) (hn.trans hlonger) rfl
      refine ⟨w.heartbeat m ⟨true⟩ {} {} ++ more, fun a ha => ?_, by rwa [run_append]⟩
      obtain ha | ha := List.mem_append.mp ha
      · simp only [World.heartbeat, List.mem_cons, List.not_mem_nil, or_false] at ha
        obtain rfl | rfl | rfl := ha
        · exact ⟨_, _, rfl⟩
        · exact hn
        · exact hn
      · exact hmore a ha

end World

/-- From wherever the marketplace has got to it comes to rest when its hosts send heartbeats and
finish what these give them to do. No command is stuck: it can be read, is for a machine on record,
and goes out with that machine's next heartbeat. -/
theorem comes_to_rest {env : Env} (hserde : env.serde.RoundTrip) {acts : List WorldAct} {w : World}
    (hw : run (World.step env) .init acts = w) :
    (∃ more : List WorldAct, (∀ a ∈ more, a.ByAgents w.conf.threads.length) ∧
      (run (World.step env) w more).AtRest) ∧
    ∀ c ∈ w.conf.store.commands.rows, c.delivered = false →
      ∃ m ∈ w.conf.store.machines.rows, m.id = c.machineId ∧
        ∃ cmd, env.serde.fromStr c.payload = some cmd ∧ w.HandsOut env m c cmd := by
  have hinv : w.Inv env := hw ▸ (World.init_inv env).of_run hserde acts
  refine ⟨?_, fun c hc hwaits => hinv.handsOut hserde hc hwaits⟩
  obtain ⟨heartbeats, hagents, hdelivered⟩ := hinv.deliver_all hserde le_rfl
  have hinv' := hinv.of_run hserde heartbeats
  obtain ⟨answers, hanswers, -, hfinished⟩ :=
    World.exists_finish env (run (World.step env) w heartbeats)
  refine ⟨heartbeats ++ answers, fun a ha => ?_, ?_, ?_⟩
  · obtain ha | ha := List.mem_append.mp ha
    · exact hagents a ha
    · cases a with
      | server b => exact absurd rfl (hanswers _ ha b)
      | docker | report => trivial
  · rw [run_append, hinv'.run_commands hserde hanswers]
    exact hdelivered
  · rw [run_append]
    exact hfinished

/-- Before the host's next heartbeat the command of the first rental waits. -/
theorem comes_to_rest_launch :
    let w := run (World.step testEnv) .init (launch.take (launch.length - 8))
    ¬w.AtRest ∧
      (∃ more : List WorldAct, (∀ a ∈ more, a.ByAgents w.conf.threads.length) ∧
        (run (World.step testEnv) w more).AtRest) ∧
      ∃ c ∈ w.conf.store.commands.rows, ∃ m ∈ w.conf.store.machines.rows, ∃ cmd,
        w.HandsOut testEnv m c cmd := by
  intro w
  have hwaits : ∃ c ∈ w.conf.store.commands.rows, c.delivered = false := by decide +kernel
  obtain ⟨c, hc, hopen⟩ := hwaits
  obtain ⟨hrest, hhands⟩ := comes_to_rest (w := w) Serde.json_roundTrip rfl
  obtain ⟨m, hm, -, cmd, -, hout⟩ := hhands c hc hopen
  refine ⟨fun hidle => ?_, hrest, c, hc, m, hm, cmd, hout⟩
  rw [hidle.1 c hc] at hopen
  cases hopen

end GpuMarket
