import GpuMarket.Marketplace.Launched

namespace GpuMarket

open Lib

def Daemon.Holds (d : Daemon) (spec : RentalSpec) (containerId : String) (sshPort : Int) : Prop :=
  ∀ c ∈ d, c.name = containerName spec.rentalId →
    c.id = containerId ∧ c.config = spec.config sshPort

/-- What a launch has found out, or reports, is so on its host. -/
def Phase.Housed (db : Db) (d : Daemon) : Phase → Prop
  | .starting spec s => db.Asks spec ∧
    ∀ sshPort containerId, s = .startContainer sshPort containerId → d.Holds spec containerId sshPort
  | .reporting rentalId (.started (.ok result)) _ _ => result.kind = .ssh ∧
    ∃ spec, db.Asks spec ∧ spec.rentalId = rentalId ∧ d.Holds spec result.containerId result.sshPort
  | .stopping .. | .reporting .. => True

def Task.HasLaunched (id : Int) (result : Started) (t : Task) : Prop :=
  ∃ left thread, t.phase = .reporting id (.started (.ok result)) left thread

def Thread.machine? : Thread → Option MachineRow
  | .reportRead machine _ | .reportTx machine _ _ _ => some machine
  | _ => none

def Task.machine? (t : Task) : Option MachineRow :=
  match t.phase with
  | .reporting _ _ _ thread => thread.machine?
  | .starting .. | .stopping .. => none

def RentalRow.Recorded (log : List (Txn × Reply)) (tasks : List Task) (r : RentalRow) : Prop :=
  ∃ result, (∃ t ∈ tasks, t.HasLaunched r.id result) ∧ r.kind = result.kind ∧
    r.sshPort = some result.sshPort ∧ r.containerId = some result.containerId ∧
    ∃ address, r.sshHost = some address ∧ Announced log r.machineId address

namespace Fleet

variable {env : Env} {f : Fleet}

structure Housed (f : Fleet) : Prop where
  once : ∀ id, f.world.launches id ≤ 1
  queues : f.world.conf.store.QueuesAsked f.world.conf.log
  addresses : f.world.conf.store.AddressesAnnounced f.world.conf.log
  read : ∀ t ∈ f.world.tasks, ∀ m, t.machine? = some m → Announced f.world.conf.log m.id m.publicIp
  tasks : ∀ t ∈ f.world.tasks, t.phase.Housed f.world.conf.store (f.hosts t.token)
  rows : ∀ r ∈ f.world.conf.store.rentals.rows, r.status = .running →
    r.Recorded f.world.conf.log f.world.tasks

theorem init_housed : init.Housed where
  once _ := Nat.zero_le _
  queues _ _ _ _ hcmd := absurd hcmd List.not_mem_nil
  addresses _ hm := absurd hm List.not_mem_nil
  read _ ht := absurd ht List.not_mem_nil
  tasks _ ht := absurd ht List.not_mem_nil
  rows _ hr := absurd hr List.not_mem_nil

end Fleet

theorem Phase.Housed.mono {db db' : Db} {d : Daemon} (h : db.Extends db') {p : Phase}
    (hp : p.Housed db d) : p.Housed db' d := by
  cases p with
  | starting spec s => exact ⟨hp.1.mono h, hp.2⟩
  | stopping => trivial
  | reporting rentalId outcome left thread =>
    cases outcome with
    | stopped => trivial
    | started outcome =>
      cases outcome with
      | error => trivial
      | ok result =>
        obtain ⟨hkind, spec, hasks, hid, hholds⟩ := hp
        exact ⟨hkind, spec, hasks.mono h, hid, hholds⟩

theorem RentalRow.Recorded.mono {log log' : List (Txn × Reply)} {tasks tasks' : List Task}
    {r : RentalRow} (h : r.Recorded log tasks)
    (hlog : ∀ id address, Announced log id address → Announced log' id address)
    (htasks : ∀ t ∈ tasks, ∀ result, t.HasLaunched r.id result →
      ∃ t' ∈ tasks', t'.HasLaunched r.id result) : r.Recorded log' tasks' := by
  obtain ⟨result, ⟨t, ht, hlaunched⟩, hkind, hport, hid, address, hhost, hannounced⟩ := h
  exact ⟨result, htasks t ht result hlaunched, hkind, hport, hid, address, hhost,
    hlog _ _ hannounced⟩

theorem recorded_exec {env : Env} {txn : Txn} {db db' : Db} {v : Reply} {log : List (Txn × Reply)}
    {tasks : List Task} (hv : txn.Valid db) (hx : txn.exec env db = .ok (db', v))
    (hne : ∀ machine rental req now, txn ≠ .report machine rental req now)
    (h : ∀ r ∈ db.rentals.rows, r.status = .running → r.Recorded log tasks) :
    ∀ r ∈ db'.rentals.rows, r.status = .running → r.Recorded log tasks := by
  obtain ⟨charge, new, hrows, hopens, -⟩ := exec_rentals hv hx
  intro r hr hrunning
  rw [hrows] at hr
  rcases List.mem_append.mp hr with hr | hr
  · obtain ⟨r₀, hr₀, rfl⟩ := List.mem_map.mp hr
    have hsame : txn.rewrite charge r₀ = r₀ := by
      rw [Txn.rewrite_status] at hrunning
      cases txn with
      | report machine rental req now => exact absurd rfl (hne machine rental req now)
      | deleteRental r₁ now | evict r₁ now =>
        simp only [Txn.statusOf] at hrunning
        split at hrunning
        case isTrue => cases hrunning
        case isFalse hid => simp [Txn.rewrite, hid]
      | _ => rfl
    rw [hsame] at hrunning ⊢
    exact h r₀ hr₀ hrunning
  · obtain rfl | ⟨r₁, rfl, -, -, hstatus, -⟩ := hopens
    · cases hr
    · rw [List.mem_singleton.mp hr, hstatus] at hrunning
      cases hrunning

theorem spawned_housed {env : Env} (hserde : env.serde.RoundTrip) {txn : Txn} {db db' : Db}
    {v : Reply} {log : List (Txn × Reply)} (hfollows : db.Follows env log)
    (hqueues : db.QueuesAsked log) (hx : txn.exec env db = .ok (db', v)) {t : Task}
    (ht : t ∈ spawned (txn, v)) (d : Daemon) : t.phase.Housed db d ∧ t.machine? = none := by
  cases txn with
  | heartbeat machine req now =>
    obtain rfl := hfollows.heartbeat hserde hx
    obtain ⟨cmd, hcmd, rfl⟩ := List.mem_map.mp ht
    cases cmd with
    | startRental rentalId image key => exact ⟨⟨hqueues _ _ _ _ hcmd, by intro _ _ h; cases h⟩, rfl⟩
    | stopRental rentalId => exact ⟨trivial, rfl⟩
  | _ => cases ht

section Calls

variable {ι : Type} {docker : DockerApi ι} {d d' : Daemon} {i : ι} {req : DockerRequest} {db : Db}

theorem Daemon.Holds.change {spec : RentalSpec} {containerId : String} {sshPort : Int}
    (h : d.Holds spec containerId sshPort) (hd : d.Change req d')
    (hreq : ∀ config, req ≠ .createContainer (containerName spec.rentalId) config) :
    d'.Holds spec containerId sshPort := by
  intro c hc hname
  rcases hd.mem hc with ⟨c₀, hc₀, hid, hname₀, hconfig⟩ | ⟨newId, name, config, rfl, rfl⟩
  · rw [hid, hconfig]
    exact h c₀ hc₀ (hname₀ ▸ hname)
  · subst hname
    exact absurd rfl (hreq config)

theorem Task.housed_change {t : Task} (h : t.phase.Housed db d) (hd : d.Change req d')
    (hreq : ∀ id, t.isLaunch id = true → ∀ config, req ≠ .createContainer (containerName id) config) :
    t.phase.Housed db d' := by
  obtain ⟨token, runtime, phase⟩ := t
  cases phase with
  | starting spec s =>
    refine ⟨h.1, fun sshPort containerId hs => (h.2 sshPort containerId hs).change hd ?_⟩
    exact hreq spec.rentalId (by simp [isLaunch])
  | stopping => trivial
  | reporting rentalId outcome left thread =>
    cases outcome with
    | stopped => trivial
    | started outcome =>
      cases outcome with
      | error => trivial
      | ok result =>
        obtain ⟨hkind, spec, hasks, rfl, hholds⟩ := h
        exact ⟨hkind, spec, hasks, rfl, hholds.change hd (hreq _ (by simp [isLaunch]))⟩

theorem Task.housed_advance (hdocker : docker.Documented) {t : Task} (h : t.phase.Housed db d)
    (hreq : t.request = some req) :
    (t.advance (docker.answer d i req t.rentalId)).phase.Housed db
      (docker.respond d i req).1 := by
  obtain ⟨token, runtime, phase⟩ := t
  cases phase with
  | starting spec s =>
    obtain ⟨hasks, hholds⟩ := h
    cases hreq
    simp only [advance]
    split
    case h_1 s' hnext =>
      refine ⟨hasks, ?_⟩
      rintro sshPort containerId rfl
      obtain ⟨rfl, hok, hid⟩ := DockerRuntime.startRental_created hnext
      obtain ⟨hfresh, hd⟩ := hdocker.created _ _ _ _ hok
      intro c hc hname
      rw [StartStage.request, hd] at hc
      rcases List.mem_append.mp hc with hc | hc
      · exact absurd hname (hfresh c hc)
      · obtain rfl := List.mem_singleton.mp hc
        exact ⟨hid, rfl⟩
    case h_2 outcome hdone =>
      cases outcome with
      | error e => trivial
      | ok result =>
        cases s with
        | startContainer sshPort containerId =>
          simp only [DockerRuntime.startRental] at hdone
          split at hdone
          case h_1 => cases hdone
          case h_2 =>
            cases hdone
            have hheld := (hholds sshPort containerId rfl).change
              (hdocker.change d i (.startContainer (containerName spec.rentalId)))
              (by intro _ h; cases h)
            exact ⟨rfl, spec, hasks, rfl, hheld⟩
        | usedPorts =>
          simp only [DockerRuntime.startRental] at hdone
          split at hdone
          case h_1 => cases hdone
          case h_2 => split at hdone <;> cases hdone
        | pullImage | forceRemove | createContainer =>
          simp only [DockerRuntime.startRental] at hdone
          split at hdone <;> cases hdone
  | stopping rentalId s =>
    simp only [advance]
    split <;> trivial
  | reporting => cases hreq

theorem Task.isLaunch_of_create {t : Task} {id : Int} {config : ContainerConfig}
    (h : t.request = some (.createContainer (containerName id) config)) : t.isLaunch id = true := by
  obtain ⟨token, runtime, phase⟩ := t
  cases phase with
  | starting spec s =>
    cases s with
    | createContainer sshPort =>
      simp only [request, StartStage.request, Option.some.injEq,
        DockerRequest.createContainer.injEq] at h
      simp [isLaunch, containerName_injective h.1]
    | _ => cases h
  | stopping rentalId s => cases s <;> cases h
  | reporting => cases h

@[simp] theorem Task.token_advance (t : Task) (a : DockerAnswer) :
    (t.advance a).token = t.token := by
  obtain ⟨token, runtime, phase⟩ := t
  cases phase with
  | starting spec s => simp only [advance]; split <;> rfl
  | stopping rentalId s => simp only [advance]; split <;> rfl
  | reporting => rfl

theorem Task.machine?_advance {t : Task} (hreq : t.request = some req) (a : DockerAnswer) :
    (t.advance a).machine? = none := by
  obtain ⟨token, runtime, phase⟩ := t
  cases phase with
  | starting spec s => simp only [advance]; split <;> rfl
  | stopping rentalId s => simp only [advance]; split <;> rfl
  | reporting => cases hreq

end Calls

theorem World.launch_alone {w : World} {t : Task} {id : Int} (honce : w.launches id ≤ 1)
    {pre post : List Task} (hsplit : w.tasks = pre ++ t :: post) (hl : t.isLaunch id = true) :
    ∀ t' ∈ pre ++ post, t'.isLaunch id = false := by
  have hcount : (pre ++ post).countP (·.isLaunch id) = 0 := by
    rw [launches, hsplit] at honce
    simp only [List.countP_append, List.countP_cons, hl, if_true] at honce ⊢
    omega
  intro t' ht'
  simpa using List.countP_eq_zero.mp hcount t' ht'

namespace Fleet

variable {env : Env} {f : Fleet}

theorem Housed.serverStep (hserde : env.serde.RoundTrip) (hi : f.Inv env) (h : f.Housed)
    {a : ServerAct}
    (honce : ∀ id, (f.world.serverStep env a).launches id ≤ 1) :
    Housed ⟨f.world.serverStep env a, f.hosts⟩ := by
  have hinv := hi.good.1
  obtain ⟨hstore, hlog⟩ | ⟨txn, v, hc, hx, hlog⟩ := (server env).step_store f.world.conf a
  · have htasks : (f.world.serverStep env a).tasks = f.world.tasks := by
      simp [World.serverStep, hlog]
    refine ⟨honce, ?_, ?_, ?_, ?_, ?_⟩
    · simpa [World.serverStep, hstore, hlog] using h.queues
    · simpa [World.serverStep, hstore, hlog] using h.addresses
    · simpa [World.serverStep, hlog] using h.read
    · simpa [World.serverStep, hstore, hlog] using h.tasks
    · simpa [World.serverStep, hstore, hlog] using h.rows
  · have hext := Db.Extends.exec hx
    have htasks : (f.world.serverStep env a).tasks = f.world.tasks ++ spawned (txn, v) := by
      simp [World.serverStep, hlog]
    have grow : ∀ id address, Announced f.world.conf.log id address →
        Announced (f.world.serverStep env a).conf.log id address := by
      intro id address hannounced
      simp only [World.serverStep, hlog]
      exact hannounced.append _
    refine ⟨honce, ?_, ?_, fun t ht m hm => ?_, fun t ht => ?_, ?_⟩
    · have hqueues := h.queues.exec hx
      rwa [← hlog] at hqueues
    · have haddresses := h.addresses.exec hx
      rwa [← hlog] at haddresses
    · rw [htasks] at ht
      rcases List.mem_append.mp ht with ht | ht
      · exact grow _ _ (h.read t ht m hm)
      · rw [(spawned_housed hserde hinv.follows h.queues hx ht []).2] at hm
        cases hm
    · rw [htasks] at ht
      rcases List.mem_append.mp ht with ht | ht
      · exact (h.tasks t ht).mono hext
      · exact (spawned_housed hserde hinv.follows h.queues hx ht _).1.mono hext
    · have hrows := recorded_exec (hinv.holds.valid _ hc) hx
        (commits_not_report hinv.threads hc) h.rows
      refine fun r hr hrunning => (hrows r hr hrunning).mono grow fun t ht result hlaunched => ?_
      exact ⟨t, htasks ▸ List.mem_append_left _ ht, hlaunched⟩

theorem Housed.dockerStep {ι : Type} {docker : DockerApi ι} (hdocker : docker.Documented)
    (hi : f.Inv env) (h : f.Housed) {n : Nat} {i : ι} {t : Task} {req : DockerRequest}
    (ht : f.world.tasks[n]? = some t) (hreq : t.request = some req)
    (hheard : f.Heard docker (.docker n i))
    (honce : ∀ id, (f.step docker env (.docker n i)).world.launches id ≤ 1) :
    (f.step docker env (.docker n i)).Housed := by
  obtain ⟨pre, post, hsplit, hset, -⟩ := exists_split_of_getElem? ht
  rw [hi.step_docker hdocker ht hreq hheard, hset] at honce ⊢
  have others : ∀ t' ∈ pre ++ post, t' ∈ f.world.tasks := by
    intro t' ht'
    rw [hsplit]
    simp only [List.mem_append, List.mem_cons] at ht' ⊢
    tauto
  have cases_new : ∀ t' ∈ pre ++ t.advance (docker.answer (f.hosts t.token) i req t.rentalId) :: post,
      t' ∈ pre ++ post ∨ t' = t.advance (docker.answer (f.hosts t.token) i req t.rentalId) := by
    intro t' ht'
    simp only [List.mem_append, List.mem_cons] at ht' ⊢
    tauto
  refine ⟨honce, h.queues, h.addresses, fun t' ht' m hm => ?_, fun t' ht' => ?_,
    fun r hr hrunning => (h.rows r hr hrunning).mono (fun _ _ => id) fun t' ht' result hl => ?_⟩
  · rcases cases_new t' ht' with hold | rfl
    · exact h.read t' (others t' hold) m hm
    · rw [Task.machine?_advance hreq] at hm
      cases hm
  · rcases cases_new t' ht' with hold | rfl
    · have hhoused := h.tasks t' (others t' hold)
      by_cases htoken : t'.token = t.token
      · rw [htoken] at hhoused ⊢
        simp only [Function.update_self]
        refine Task.housed_change hhoused (hdocker.change (f.hosts t.token) i req) ?_
        rintro id hl config rfl
        have hlaunch := Task.isLaunch_of_create hreq
        rw [World.launch_alone (h.once id) hsplit hlaunch t' hold] at hl
        cases hl
      · simp only [Function.update_of_ne htoken]
        exact hhoused
    · simp only [Task.token_advance, Function.update_self]
      exact Task.housed_advance hdocker (h.tasks t (List.mem_of_getElem? ht)) hreq
  · refine ⟨t', ?_, hl⟩
    rw [hsplit] at ht'
    simp only [List.mem_append, List.mem_cons] at ht' ⊢
    rcases ht' with ht' | rfl | ht'
    · exact .inl ht'
    · obtain ⟨left, thread, hp⟩ := hl
      simp [Task.request, hp] at hreq
    · exact .inr (.inr ht')

end Fleet

theorem Thread.machine?_next {db : Db} {auth : Option String} {machineId : Int}
    {req : ReportRequest} {i : Input} {t t' : Thread} (h : t.Carries db auth machineId req)
    (hn : t.next i db = .read t') {m : MachineRow} (hm : t'.machine? = some m) :
    t.machine? = some m ∨ m ∈ db.machines.rows := by
  cases t with
  | received r =>
    obtain rfl : r = .report auth req := h
    obtain ⟨e, rfl⟩ | ⟨machine, hauth, hnext⟩ := fetch_eq_read hn
    · cases hm
    · cases hnext
      cases hm
      exact .inr (authenticate_ok hauth).1
  | reportRead machine q =>
    obtain ⟨e, rfl⟩ | ⟨rental, -, hnext⟩ := fetch_eq_read hn
    · cases hm
    · cases hnext
      exact .inl hm
  | done reply =>
    cases hn
    cases hm
  | reportTx => cases hn
  | _ => exact h.elim

theorem Task.HasLaunched.awaiting {id rentalId : Int} {result : Started} {t : Task}
    {outcome : Outcome} {left : Bool} {thread thread' : Thread} (h : t.HasLaunched id result)
    (hp : t.phase = .reporting rentalId outcome left thread) :
    (t.awaiting rentalId outcome left thread').HasLaunched id result := by
  obtain ⟨left', thread'', hp'⟩ := h
  rw [hp] at hp'
  cases hp'
  exact ⟨left, thread', rfl⟩

theorem Task.HasLaunched.set {tasks : List Task} {n : Nat} {t t' : Task}
    (ht : tasks[n]? = some t) {id rentalId : Int} {result : Started} {outcome : Outcome}
    {left : Bool} {thread : Thread} (hp : t.phase = .reporting rentalId outcome left thread)
    (ht' : t' ∈ tasks) (hl : t'.HasLaunched id result) (thread' : Thread) :
    ∃ t'' ∈ tasks.set n (t.awaiting rentalId outcome left thread'), t''.HasLaunched id result := by
  obtain ⟨pre, post, hsplit, hset, -⟩ := exists_split_of_getElem? ht
  rw [hset]
  rw [hsplit] at ht'
  simp only [List.mem_append, List.mem_cons] at ht' ⊢
  rcases ht' with ht' | rfl | ht'
  · exact ⟨t', .inl ht', hl⟩
  · exact ⟨_, .inr (.inl rfl), hl.awaiting hp⟩
  · exact ⟨t', .inr (.inr ht'), hl⟩

theorem Phase.Housed.awaiting {db : Db} {d : Daemon} {rentalId : Int} {outcome : Outcome}
    {left : Bool} {thread : Thread} (h : (Phase.reporting rentalId outcome left thread).Housed db d)
    (thread' : Thread) : (Phase.reporting rentalId outcome left thread').Housed db d := by
  cases outcome with
  | stopped => trivial
  | started outcome =>
    cases outcome with
    | error => trivial
    | ok result => exact h

theorem recorded_report {env : Env} {machine : MachineRow} {rental : RentalRow} {now : Int}
    {rentalId : Int} {outcome : Outcome} {db db' : Db} {v : Reply} {log log' : List (Txn × Reply)}
    {tasks tasks' : List Task}
    (hv : (Txn.report machine rental (outcome.report rentalId) now).Valid db)
    (hx : (Txn.report machine rental (outcome.report rentalId) now).exec env db = .ok (db', v))
    (hlog : ∀ id address, Announced log id address → Announced log' id address)
    (hread : Announced log machine.id machine.publicIp)
    (htasks : ∀ t ∈ tasks, ∀ id result, t.HasLaunched id result →
      ∃ t' ∈ tasks', t'.HasLaunched id result)
    (hself : ∀ result, outcome = .started (.ok result) →
      ∃ t' ∈ tasks', t'.HasLaunched rentalId result)
    (h : ∀ r ∈ db.rentals.rows, r.status = .running → r.Recorded log tasks) :
    ∀ r ∈ db'.rentals.rows, r.status = .running → r.Recorded log' tasks' := by
  obtain ⟨charge, new, hrows, hopens, -⟩ := exec_rentals hv hx
  obtain rfl : new = [] := by
    obtain rfl | ⟨r, -, ⟨req, now, hcreate⟩, -⟩ := hopens
    · rfl
    · cases hcreate
  rw [List.append_nil] at hrows
  intro r hr hrunning
  rw [hrows] at hr
  obtain ⟨r₀, hr₀, rfl⟩ := List.mem_map.mp hr
  obtain ⟨-, hrental, hid, hmachine⟩ := hv
  rw [outcome.rentalId_report] at hid
  by_cases htarget : r₀.id = rentalId
  · obtain ⟨cur, hcur, hcid, hcm, -⟩ := hrental.row
    obtain rfl := Table.eq_of_key_eq hr₀ hcur (htarget.trans (hcid.trans hid).symm)
    rw [Txn.rewrite_status] at hrunning
    simp only [Txn.statusOf, outcome.rentalId_report, htarget, if_true] at hrunning
    -- only a launch that has succeeded reports a rental as running
    obtain ⟨result, rfl⟩ : ∃ result, outcome = .started (.ok result) := by
      cases outcome with
      | stopped outcome => cases outcome <;> cases hrunning
      | started outcome =>
        cases outcome with
        | error => cases hrunning
        | ok result => exact ⟨result, rfl⟩
    have hrewrite : (Txn.report machine rental ((Outcome.started (.ok result)).report rentalId)
        now).rewrite charge r₀ = (startReport rentalId (.ok result)).apply machine now r₀ := by
      simp [Txn.rewrite, Outcome.report, startReport, htarget, settles, RentalStatus.isTerminal]
    rw [hrewrite]
    refine ⟨result, ?_, rfl, rfl, rfl, machine.publicIp, rfl, ?_⟩
    · simpa [htarget] using hself result rfl
    · have hsame : r₀.machineId = machine.id := hcm.trans hmachine
      simpa [ReportRequest.apply, hsame] using hlog _ _ hread
  · have hsame : (Txn.report machine rental (outcome.report rentalId) now).rewrite charge r₀ =
        r₀ := by
      simp [Txn.rewrite, outcome.rentalId_report, htarget]
    rw [hsame] at hrunning ⊢
    exact (h r₀ hr₀ hrunning).mono hlog fun t ht result hl => htasks t ht _ result hl

theorem getRental_ok {id : Int} {db : Db} {rental : RentalResponse}
    (h : getRental id db = .ok (.rentalDetails rental)) :
    ∃ r ∈ db.rentals.rows, r.id = id ∧ rental.machineId = r.machineId ∧ rental.status = r.status ∧
      rental.kind = r.kind ∧ rental.sshHost = r.sshHost ∧ rental.sshPort = r.sshPort ∧
      rental.sshCommand = sshCommand r := by
  obtain ⟨r, hr, hrest⟩ := bind_eq_ok.mp h
  have hfound : db.rentals.find? id = some r := by
    unfold findRental at hr
    split at hr
    case h_1 => cases hr
    case h_2 hfind =>
      cases hr
      exact hfind
  obtain ⟨hmem, hid⟩ := Table.mem_of_find? hfound
  split at hrest
  case h_1 => cases hrest
  case h_2 =>
    cases hrest
    exact ⟨r, hmem, hid, rfl, rfl, rfl, rfl, rfl, rfl⟩

theorem getRental_of_mem {db : Db} {r : RentalRow} (hr : r ∈ db.rentals.rows)
    (hm : db.machines.Has r.machineId) :
    ∃ rental, getRental r.id db = .ok (.rentalDetails rental) ∧ rental.status = r.status := by
  obtain ⟨m, hm, hid⟩ := hm
  have hmachine : db.machines.find? r.machineId = some m := hid ▸ Table.find?_of_mem hm
  have hrental : findRental db r.id = .ok r := by rw [findRental, Table.find?_of_mem hr]
  simp only [getRental, hrental, ok_bind, hmachine]
  exact ⟨_, rfl, rfl⟩

namespace Fleet

variable {env : Env} {f : Fleet}

theorem Housed.awaiting (h : f.Housed) {n : Nat} {t : Task} (ht : f.world.tasks[n]? = some t)
    {rentalId : Int} {outcome : Outcome} {left : Bool} {thread thread' : Thread}
    (hp : t.phase = .reporting rentalId outcome left thread)
    (hmachine : ∀ m, thread'.machine? = some m →
      t.machine? = some m ∨ m ∈ f.world.conf.store.machines.rows) :
    Housed ⟨{ f.world with
      tasks := f.world.tasks.set n (t.awaiting rentalId outcome left thread') }, f.hosts⟩ := by
  have hmem := List.mem_of_getElem? ht
  refine ⟨fun id => ?_, h.queues, h.addresses, fun t' ht' m hm => ?_, fun t' ht' => ?_,
    fun r hr hrunning => (h.rows r hr hrunning).mono (fun _ _ => id) fun t' ht' result hl => ?_⟩
  · rw [World.launches_set ht (Task.isLaunch_awaiting hp thread')]
    exact h.once id
  · rcases List.mem_or_eq_of_mem_set ht' with hold | rfl
    · exact h.read t' hold m hm
    · rcases hmachine m hm with hread | hrow
      · exact h.read t hmem m hread
      · exact h.addresses m hrow
  · rcases List.mem_or_eq_of_mem_set ht' with hold | rfl
    · exact h.tasks t' hold
    · have hhoused := h.tasks t hmem
      rw [hp] at hhoused
      exact Phase.Housed.awaiting hhoused thread'
  · exact hl.set ht hp ht' thread'

theorem Housed.reportStep (hi : f.Inv env) (h : f.Housed) {n : Nat} {t : Task}
    (ht : f.world.tasks[n]? = some t) (now : Int)
    (honce : ∀ id, (f.world.reportStep env n t now).launches id ≤ 1) :
    Housed ⟨f.world.reportStep env n t now, f.hosts⟩ := by
  have hmem := List.mem_of_getElem? ht
  cases hp : t.phase with
  | starting | stopping => simpa [World.reportStep, hp] using h
  | reporting rentalId outcome left thread =>
    obtain ⟨r, hr, hid, hauth, hphase⟩ := hi.good.1.tasks t hmem
    rw [hp] at hphase
    have hreq : r.id = (outcome.report rentalId).rentalId := by
      rw [hid, outcome.rentalId_report, Task.rentalId, hp]
    have hreads : t.machine? = thread.machine? := by rw [Task.machine?, hp]
    obtain ⟨thread', hn, -, -⟩ | ⟨machine, rental, now', rfl⟩ :=
      Thread.Carries.served hr hreq hauth hphase { now }
    · rw [World.reportStep_read hp hn]
      refine h.awaiting ht hp fun m hm => ?_
      rw [hreads]
      exact Thread.machine?_next hphase hn hm
    · obtain ⟨-, hv⟩ := hphase
      obtain ⟨⟨db, v⟩, hx⟩ := @report_exec_ok env machine rental (outcome.report rentalId) now' _
        hi.good.1.holds.inv hv.2.1
      have hext := Db.Extends.exec hx
      have hread : Announced f.world.conf.log machine.id machine.publicIp :=
        h.read t hmem machine hreads
      rw [World.reportStep_commit hp hx] at honce ⊢
      refine ⟨honce, h.queues.exec hx, h.addresses.exec hx, fun t' ht' m hm => ?_,
        fun t' ht' => ?_, ?_⟩
      · rcases List.mem_or_eq_of_mem_set ht' with hold | rfl
        · exact (h.read t' hold m hm).append _
        · cases hm
      · rcases List.mem_or_eq_of_mem_set ht' with hold | rfl
        · exact (h.tasks t' hold).mono hext
        · have hhoused := (h.tasks t hmem).mono hext
          rw [hp] at hhoused
          exact hhoused.awaiting _
      · refine recorded_report hv hx (fun _ _ hannounced => hannounced.append _) hread
          (fun t' ht' id result hl => hl.set ht hp ht' _) ?_ h.rows
        rintro result rfl
        exact Task.HasLaunched.set ht hp hmem ⟨left, _, hp⟩ _

section Runs

variable {ι : Type} {docker : DockerApi ι} (hdocker : docker.Documented)
include hdocker

theorem Housed.step (hserde : env.serde.RoundTrip) (hi : f.Inv env) (h : f.Housed) {a : FleetAct ι}
    (hheard : f.Heard docker a) : (f.step docker env a).Housed := by
  have honce :=
    World.launches_step hserde hi.good.1 (fun id => (hi.good.2 id).1) (f.act docker a) h.once
  cases a with
  | server a =>
    cases ha : a.isReport with
    | true => simpa [Fleet.step, act, serve, World.step, ha] using h
    | false =>
      simp only [act, World.step, ha, Bool.false_eq_true, if_false] at honce
      simpa [Fleet.step, act, serve, World.step, ha] using h.serverStep hserde hi honce
  | report n now =>
    cases ht : f.world.tasks[n]? with
    | none => simpa [Fleet.step, act, serve, World.step, ht] using h
    | some t =>
      simp only [act, World.step, ht] at honce
      simpa [Fleet.step, act, serve, World.step, ht] using h.reportStep hi ht now honce
  | docker n i =>
    cases hcall : f.call n with
    | none =>
      rw [step_idle hcall]
      exact h
    | some e =>
      obtain ⟨t, req⟩ := e
      obtain ⟨ht, hreq⟩ := call_eq_some.mp hcall
      exact h.dockerStep hdocker hi ht hreq hheard honce

theorem housed_run (hserde : env.serde.RoundTrip) {as : List (FleetAct ι)}
    (hheard : Along (Fleet.step docker env) (Heard docker) .init as)
    (hcurrent : Along (Fleet.step docker env) (Current docker env) .init as) :
    (run (Fleet.step docker env) .init as).Inv env ∧
      (run (Fleet.step docker env) .init as).Housed :=
  run_invariant_along (I := fun f : Fleet => f.Inv env ∧ f.Housed)
    (C := fun f a => f.Heard docker a ∧ f.Current docker env a)
    (fun _ _ h hC => ⟨h.1.step hdocker hserde hC.1 hC.2, h.2.step hdocker hserde h.1 hC.1⟩)
    ⟨init_inv env, init_housed⟩ as fun pre a hpre => ⟨hheard pre a hpre, hcurrent pre a hpre⟩

end Runs

end Fleet

end GpuMarket
