import GpuMarket.HostAgent.Answers
import GpuMarket.Marketplace.Agreement

namespace GpuMarket

open Lib

variable {ι : Type}

/-- The marketplace with the containers of each host, which its agent's token stands for. -/
structure Fleet where
  world : World
  hosts : String → Daemon

/-- Steps as those of the marketplace, save that the daemon of the task's host answers a call. -/
inductive FleetAct (ι : Type)
  | server (a : ServerAct)
  | docker (n : Nat) (i : ι)
  | report (n : Nat) (now : Int)

def Task.request (t : Task) : Option DockerRequest :=
  match t.phase with
  | .starting spec s => some (s.request spec)
  | .stopping rentalId s => some (s.request rentalId)
  | .reporting .. => none

namespace Fleet

def init : Fleet := ⟨.init, fun _ => []⟩

def call (f : Fleet) (n : Nat) : Option (Task × DockerRequest) :=
  f.world.tasks[n]?.bind fun t => t.request.map (t, ·)

def act (docker : DockerApi ι) (f : Fleet) : FleetAct ι → WorldAct
  | .server a => .server a
  | .report n now => .report n now
  | .docker n i =>
    match f.call n with
    | none => .docker n { live := false }
    | some (t, req) => .docker n (docker.answer (f.hosts t.token) i req t.rentalId)

def serve (docker : DockerApi ι) (f : Fleet) : FleetAct ι → String → Daemon
  | .docker n i =>
    match f.call n with
    | none => f.hosts
    | some (t, req) =>
      Function.update f.hosts t.token (docker.respond (f.hosts t.token) i req).1
  | _ => f.hosts

def step (docker : DockerApi ι) (env : Env) (f : Fleet) (a : FleetAct ι) : Fleet :=
  ⟨f.world.step env (f.act docker a), f.serve docker a⟩

/-- The daemon's word on a container that it starts reaches the agent: a start that the agent takes
to have failed has changed nothing. -/
def Heard (docker : DockerApi ι) (f : Fleet) : FleetAct ι → Prop
  | .docker n i => ∀ e ∈ f.call n, e.2.call = .startContainer →
      (docker.respond (f.hosts e.1.token) i e.2).2.result ≠ .ok () →
        (docker.respond (f.hosts e.1.token) i e.2).1 = f.hosts e.1.token
  | _ => True

instance (docker : DockerApi ι) (f : Fleet) : (a : FleetAct ι) → Decidable (f.Heard docker a)
  | .docker n _ => inferInstanceAs (Decidable (∀ e ∈ f.call n, _))
  | .server _ | .report .. => .isTrue trivial

def Current (docker : DockerApi ι) (env : Env) (f : Fleet) (a : FleetAct ι) : Prop :=
  f.world.Current env (f.act docker a)

instance (docker : DockerApi ι) (env : Env) (f : Fleet) (a : FleetAct ι) :
    Decidable (f.Current docker env a) :=
  inferInstanceAs (Decidable (f.world.Current env _))

end Fleet

def Db.Hosts (db : Db) (token : String) (id : Int) : Prop :=
  ∃ r ∈ db.rentals.rows, r.id = id ∧ ∃ m, authenticate db (bearerAuth token) = .ok m ∧
    m.id = r.machineId

theorem authenticate_token {db : Db} {token : String} {m : MachineRow}
    (h : authenticate db (bearerAuth token) = .ok m) :
    m ∈ db.machines.rows ∧ m.agentToken = token := by
  obtain ⟨hm, htoken⟩ := authenticate_ok h
  simp only [bearerAuth, Option.bind_some, stripPrefix_append, Option.some.injEq] at htoken
  exact ⟨hm, htoken.symm⟩

theorem Db.Hosts.unique {db : Db} {token token' : String} {id : Int} (h : db.Hosts token id)
    (h' : db.Hosts token' id) : token = token' := by
  obtain ⟨r, hr, hid, m, hm, hmid⟩ := h
  obtain ⟨r', hr', hid', m', hm', hmid'⟩ := h'
  obtain rfl := Table.eq_of_key_eq hr hr' (hid.trans hid'.symm)
  obtain ⟨hmem, rfl⟩ := authenticate_token hm
  obtain ⟨hmem', rfl⟩ := authenticate_token hm'
  rw [Table.eq_of_key_eq hmem hmem' (hmid.trans hmid'.symm)]

theorem Db.Hosts.mono {db db' : Db} (h : db.Extends db') {token : String} {id : Int}
    (hh : db.Hosts token id) : db'.Hosts token id := by
  obtain ⟨r, hr, hid, m, hm, hmid⟩ := hh
  obtain ⟨r', hr', hsame⟩ := h.rental hr
  obtain ⟨hmachine, -, -, -, -, -, hid'⟩ := RentalRow.terms_eq_iff.mp hsame
  obtain ⟨m', hm', hmid'⟩ := authenticate_mono h hm
  exact ⟨r', hr', hid'.trans hid, m', hm', hmid'.trans (hmid.trans hmachine.symm)⟩

theorem Task.Ok.hosts {db : Db} {t : Task} (h : t.Ok db) : db.Hosts t.token t.rentalId := by
  obtain ⟨r, hr, hid, ⟨m, hm, hmid⟩, -⟩ := h
  exact ⟨r, hr, hid, m, hm, hmid⟩

theorem Task.request_isFor {t : Task} {req : DockerRequest} (h : t.request = some req) :
    req.IsFor t.rentalId ∧ t.call = some req.call := by
  obtain ⟨token, runtime, phase⟩ := t
  cases phase with
  | starting spec s =>
    cases h
    exact ⟨.inl ⟨spec, s, rfl, rfl⟩, congrArg some (s.request_call spec).symm⟩
  | stopping rentalId s =>
    cases h
    exact ⟨.inr ⟨s, rfl⟩, congrArg some (s.request_call rentalId).symm⟩
  | reporting => cases h

namespace World

variable {env : Env} {w : World}

theorem serverStep_extends (a : ServerAct) :
    w.conf.store.Extends (w.serverStep env a).conf.store :=
  server_extends env w.conf a

theorem reportStep_extends (n : Nat) (t : Task) (now : Int) :
    w.conf.store.Extends (w.reportStep env n t now).conf.store := by
  unfold reportStep
  split
  case h_1 rentalId outcome left thread hp =>
    exact server_extends env { w.conf with threads := thread :: w.conf.threads } (.thread 0 { now })
  case h_2 => exact Db.Extends.refl _

theorem step_live {a : WorldAct} (ha : ∀ n d, a ≠ .docker n d) :
    (w.step env a).live = w.live ∧ w.conf.store.Extends (w.step env a).conf.store := by
  cases a with
  | server a =>
    simp only [step]
    split
    case isTrue => exact ⟨rfl, Db.Extends.refl _⟩
    case isFalse => exact ⟨rfl, serverStep_extends a⟩
  | docker n d => exact absurd rfl (ha n d)
  | report n now =>
    simp only [step]
    split
    case h_1 => exact ⟨rfl, Db.Extends.refl _⟩
    case h_2 t ht =>
      refine ⟨?_, reportStep_extends n t now⟩
      unfold reportStep
      split <;> rfl

end World

namespace Fleet

variable {docker : DockerApi ι} {env : Env} {f : Fleet}

/-- A workload is live exactly if the daemon of its rental's host runs its container. -/
structure Inv (env : Env) (f : Fleet) : Prop where
  good : f.world.Good env
  apart : ∀ token, (f.hosts token).Apart
  live : ∀ id, f.world.live id = true ↔ ∃ token, (f.hosts token).live id = true
  hosted : ∀ token id, (f.hosts token).live id = true → f.world.conf.store.Hosts token id

theorem Inv.live_at (h : f.Inv env) {token : String} {id : Int}
    (hhosts : f.world.conf.store.Hosts token id) : (f.hosts token).live id = f.world.live id := by
  rw [Bool.eq_iff_iff, h.live]
  refine ⟨fun hlive => ⟨token, hlive⟩, ?_⟩
  rintro ⟨token', hlive⟩
  rwa [hhosts.unique (h.hosted token' id hlive)]

theorem init_inv (env : Env) : init.Inv env where
  good := ⟨World.init_inv env, fun id => ⟨World.init_sound id, World.init_agrees id⟩⟩
  apart _ := ⟨List.nodup_nil, nofun⟩
  live id := by simp [init, World.init, Daemon.live]
  hosted token id hlive := by simp [init, Daemon.live] at hlive

/-- The daemon of the task's host serves the call, and the task takes its answer. -/
theorem Inv.step_docker (hdocker : docker.Documented) (h : f.Inv env) {n : Nat} {i : ι} {t : Task}
    {req : DockerRequest} (ht : f.world.tasks[n]? = some t) (hreq : t.request = some req)
    (hheard : f.Heard docker (.docker n i)) :
    f.step docker env (.docker n i) =
      ⟨{ f.world with
          tasks := f.world.tasks.set n (t.advance (docker.answer (f.hosts t.token) i req t.rentalId))
          live := Function.update f.world.live t.rentalId
            ((docker.respond (f.hosts t.token) i req).1.live t.rentalId) },
        Function.update f.hosts t.token (docker.respond (f.hosts t.token) i req).1⟩ := by
  obtain ⟨hfor, hcall⟩ := Task.request_isFor hreq
  have hhosts := (h.good.1.tasks t (List.mem_of_getElem? ht)).hosts
  have hfound : f.call n = some (t, req) := by simp [call, ht, hreq]
  have hallows := hdocker.allows (h.apart t.token).names hfor (hheard (t, req) hfound)
  rw [h.live_at hhosts] at hallows
  simp only [step, act, serve, hfound, World.step, ht, World.dockerStep, hcall, if_pos hallows]
  rfl

theorem Inv.called (hdocker : docker.Documented) (h : f.Inv env) {n : Nat} {i : ι} {t : Task}
    {req : DockerRequest} (ht : f.world.tasks[n]? = some t) (hreq : t.request = some req)
    (hheard : f.Heard docker (.docker n i))
    (hgood : (f.step docker env (.docker n i)).world.Good env) :
    (f.step docker env (.docker n i)).Inv env := by
  obtain ⟨hfor, hcall⟩ := Task.request_isFor hreq
  have hhosts := (h.good.1.tasks t (List.mem_of_getElem? ht)).hosts
  have hchange := hdocker.change (f.hosts t.token) i req
  have others : ∀ id, id ≠ t.rentalId →
      (docker.respond (f.hosts t.token) i req).1.live id = (f.hosts t.token).live id := by
    intro id hne
    refine hchange.live_of_ne fun hname => hne ?_
    exact containerName_injective (hfor.name? hname)
  rw [h.step_docker hdocker ht hreq hheard] at hgood ⊢
  have hosted : ∀ token id, (Function.update f.hosts t.token
      (docker.respond (f.hosts t.token) i req).1 token).live id = true →
        f.world.conf.store.Hosts token id := by
    intro token id hlive
    by_cases htoken : token = t.token
    · subst htoken
      rw [Function.update_self] at hlive
      by_cases hid : id = t.rentalId
      · exact hid ▸ hhosts
      · exact h.hosted _ id (others id hid ▸ hlive)
    · rw [Function.update_of_ne htoken] at hlive
      exact h.hosted token id hlive
  refine ⟨hgood, fun token => ?_, fun id => ?_, hosted⟩
  · by_cases htoken : token = t.token
    · subst htoken
      simp only [Function.update_self]
      exact hchange.apart (h.apart t.token)
    · simp only [Function.update_of_ne htoken]
      exact h.apart token
  · by_cases hid : id = t.rentalId
    · subst hid
      simp only [Function.update_self]
      refine ⟨fun hlive => ⟨t.token, by rwa [Function.update_self]⟩, ?_⟩
      rintro ⟨token, hlive⟩
      obtain rfl := (hosted token _ hlive).unique hhosts
      rwa [Function.update_self] at hlive
    · simp only [Function.update_of_ne hid, h.live]
      refine exists_congr fun token => ?_
      by_cases htoken : token = t.token
      · subst htoken
        rw [Function.update_self, others id hid]
      · rw [Function.update_of_ne htoken]

theorem call_eq_some {n : Nat} {t : Task} {req : DockerRequest} :
    f.call n = some (t, req) ↔ f.world.tasks[n]? = some t ∧ t.request = some req := by
  simp only [call, Option.bind_eq_some_iff, Option.map_eq_some_iff, Prod.mk.injEq]
  constructor
  · rintro ⟨_, ht, _, hreq, rfl, rfl⟩
    exact ⟨ht, hreq⟩
  · rintro ⟨ht, hreq⟩
    exact ⟨t, ht, req, hreq, rfl, rfl⟩

theorem step_idle {n : Nat} {i : ι} (h : f.call n = none) :
    f.step docker env (.docker n i) = f := by
  have hworld : f.world.step env (.docker n { live := false }) = f.world := by
    cases ht : f.world.tasks[n]? with
    | none => simp [World.step, ht]
    | some t =>
      have hidle : t.call = none := by
        cases hp : t.phase with
        | starting | stopping => simp [call, ht, Task.request, hp] at h
        | reporting => simp [Task.call, hp]
      simp [World.step, ht, World.dockerStep, hidle]
  simp [step, act, serve, h, hworld]

theorem Inv.step (hdocker : docker.Documented) (hserde : env.serde.RoundTrip) (h : f.Inv env)
    {a : FleetAct ι} (hheard : f.Heard docker a) (hcurrent : f.Current docker env a) :
    (f.step docker env a).Inv env := by
  have hgood : (f.step docker env a).world.Good env := h.good.step hserde hcurrent
  have elsewhere : f.serve docker a = f.hosts →
      (f.step docker env a).world.live = f.world.live →
      f.world.conf.store.Extends (f.step docker env a).world.conf.store →
      (f.step docker env a).Inv env := by
    intro hserve hlive hext
    refine ⟨hgood, ?_, ?_, ?_⟩
    · simpa [Fleet.step, hserve] using h.apart
    · rw [hlive]
      simpa [Fleet.step, hserve] using h.live
    · intro token id hl
      simp only [Fleet.step, hserve] at hl
      exact (h.hosted token id hl).mono hext
  cases a with
  | server a =>
    obtain ⟨hlive, hext⟩ := @World.step_live env f.world (.server a) nofun
    exact elsewhere rfl hlive hext
  | report n now =>
    obtain ⟨hlive, hext⟩ := @World.step_live env f.world (.report n now) nofun
    exact elsewhere rfl hlive hext
  | docker n i =>
    cases hcall : f.call n with
    | none =>
      rw [step_idle hcall]
      exact h
    | some e =>
      obtain ⟨t, req⟩ := e
      obtain ⟨ht, hreq⟩ := call_eq_some.mp hcall
      exact h.called hdocker ht hreq hheard hgood

theorem inv_run (hdocker : docker.Documented) (hserde : env.serde.RoundTrip)
    {as : List (FleetAct ι)} (hheard : Along (Fleet.step docker env) (Heard docker) .init as)
    (hcurrent : Along (Fleet.step docker env) (Current docker env) .init as) :
    (run (Fleet.step docker env) .init as).Inv env :=
  run_invariant_along (C := fun f a => f.Heard docker a ∧ f.Current docker env a)
    (fun _ _ h hC => h.step hdocker hserde hC.1 hC.2) (init_inv env) as
    fun pre a hpre => ⟨hheard pre a hpre, hcurrent pre a hpre⟩

end Fleet

/-- The first rental is created, and its host's agent launches it and reports. -/
def fleetLaunch : List (FleetAct String) :=
  (opening 100 ++
    call 3 (.createRental ⟨1, "acct_1", "nvidia/cuda:latest", some "ssh-ed25519 AAAA"⟩) [{}] ++
    call 4 (.heartbeat bearer ⟨true⟩) [{}, {}]).map .server ++
  List.replicate 5 (.docker 0 "c1") ++ List.replicate 3 (.report 0 5)

end GpuMarket
