import GpuMarket.HostAgent.Containers

namespace GpuMarket

open Lib

variable {ι : Type}

def Job.launches : Job → Option Int
  | .starting spec _ => some spec.rentalId
  | _ => none

/-- A rental is launched once at a time, and nobody else gives a container its name. -/
def HostAct.Alone (h : Host) : HostAct ι → Prop
  | .start spec => ∀ j ∈ h.jobs, j.launches ≠ some spec.rentalId
  | .other _ (.createContainer name _) => ∀ rentalId, name ≠ containerName rentalId
  | _ => True

/-- What a job that has just ended says of the containers. -/
def Job.Told (rt : DockerRuntime) (d : Daemon) : Job → Prop
  | .started spec (.ok result) => rt.HasPort result.sshPort ∧ result.kind = .ssh ∧
    ∃ c ∈ d, c.running = true ∧ c.id = result.containerId ∧
      c.name = containerName spec.rentalId ∧ c.config = spec.config result.sshPort
  | .stopped rentalId (.ok ()) => ∀ c ∈ d, c.name ≠ containerName rentalId
  | _ => True

/-- Once a launch has created its container, no other stands under that name. -/
structure Host.Launching (rt : DockerRuntime) (h : Host) : Prop where
  distinct : ∀ (m n : Nat) (j j' : Job) (rentalId : Int), h.jobs[m]? = some j → h.jobs[n]? = some j' →
    j.launches = some rentalId → j'.launches = some rentalId → m = n
  ports : ∀ spec s, .starting spec s ∈ h.jobs → ∀ p, s.port? = some p → rt.HasPort p
  created : ∀ spec sshPort containerId, .starting spec (.startContainer sshPort containerId) ∈ h.jobs →
    ∀ c ∈ h.daemon, c.name = containerName spec.rentalId →
      c.id = containerId ∧ c.config = spec.config sshPort

section Runs

variable {docker : DockerApi ι} {rt : DockerRuntime} {h : Host}

theorem Job.launches_advance (j : Job) (a : DockerAnswer) :
    (j.advance rt a).launches = none ∨ (j.advance rt a).launches = j.launches := by
  cases j with
  | starting spec s =>
    simp only [Job.advance]
    split
    · exact .inr rfl
    · exact .inl rfl
  | stopping rentalId s =>
    simp only [Job.advance]
    split <;> exact .inl rfl
  | started | stopped => exact .inl rfl

/-- The only way to the last stage of a launch is the container's creation. -/
theorem DockerRuntime.startRental_created {spec : RentalSpec} {a : DockerAnswer} {s : StartStage}
    {sshPort : Int} {containerId : String}
    (hs : rt.startRental spec a s = .next (.startContainer sshPort containerId)) :
    s = .createContainer sshPort ∧ a.result = .ok () ∧ a.containerId = containerId := by
  cases s with
  | createContainer =>
    simp only [startRental] at hs
    split at hs
    case h_1 => cases hs
    case h_2 hok =>
      cases hs
      exact ⟨rfl, hok, rfl⟩
  | usedPorts =>
    simp only [startRental] at hs
    split at hs
    case h_1 => cases hs
    case h_2 => split at hs <;> cases hs
  | pullImage | forceRemove | startContainer =>
    simp only [startRental] at hs
    split at hs <;> cases hs

theorem Job.advance_starting {j : Job} {a : DockerAnswer} {spec : RentalSpec} {s' : StartStage}
    (h : j.advance rt a = .starting spec s') :
    ∃ s, j = .starting spec s ∧ rt.startRental spec a s = .next s' := by
  cases j with
  | starting spec₀ s =>
    simp only [Job.advance] at h
    split at h
    case h_1 s₁ hs₁ =>
      cases h
      exact ⟨s, rfl, hs₁⟩
    case h_2 => cases h
  | stopping rentalId s =>
    simp only [Job.advance] at h
    split at h <;> cases h
  | started | stopped => cases h

theorem Job.request_create {j : Job} {name : String} {config : ContainerConfig}
    (h : j.request = some (.createContainer name config)) :
    ∃ spec sshPort, j = .starting spec (.createContainer sshPort) ∧
      name = containerName spec.rentalId := by
  cases j with
  | starting spec s =>
    cases s with
    | createContainer sshPort =>
      cases h
      exact ⟨spec, sshPort, rfl, rfl⟩
    | _ => cases h
  | stopping rentalId s => cases s <;> cases h
  | started | stopped => cases h

theorem Host.Launching.callStep (hdocker : docker.Documented) (hl : h.Launching rt) {n : Nat}
    {j : Job} (hj : h.jobs[n]? = some j) (i : ι) : (h.callStep docker rt n j i).Launching rt := by
  unfold Host.callStep
  split
  case h_1 => exact hl
  case h_2 req hreq =>
    have hn : n < h.jobs.length := (List.getElem?_eq_some_iff.mp hj).1
    have launched : ∀ {m : Nat} {j' : Job} {rentalId : Int}, (h.jobs.set n (j.advance rt
        (docker.answer h.daemon i req j.rentalId)))[m]? = some j' → j'.launches = some rentalId →
          ∃ j₀, h.jobs[m]? = some j₀ ∧ j₀.launches = some rentalId := by
      intro m j' rentalId hm hlaunch
      rw [List.getElem?_set] at hm
      split at hm
      case isTrue heq =>
        subst heq
        cases hm
        rcases j.launches_advance (docker.answer h.daemon i req j.rentalId) with hnone | hsame
        · rw [hnone] at hlaunch
          cases hlaunch
        · exact ⟨j, hj, hsame ▸ hlaunch⟩
      case isFalse => exact ⟨j', hm, hlaunch⟩
    refine ⟨fun m m' j₁ j₂ rentalId h₁ h₂ hl₁ hl₂ => ?_, fun spec s hs p hp => ?_,
      fun spec sshPort containerId hs c hc hname => ?_⟩
    · obtain ⟨a, ha, hla⟩ := launched h₁ hl₁
      obtain ⟨b, hb, hlb⟩ := launched h₂ hl₂
      exact hl.distinct m m' a b rentalId ha hb hla hlb
    · rcases List.mem_or_eq_of_mem_set hs with hs | hs
      · exact hl.ports spec s hs p hp
      · obtain ⟨s₀, rfl, hnext⟩ := Job.advance_starting hs.symm
        exact DockerRuntime.startRental_port hnext
          (hl.ports spec s₀ (List.mem_of_getElem? hj)) p hp
    · rcases List.mem_or_eq_of_mem_set hs with hold | hs
      · rcases (hdocker.change h.daemon i req).mem hc with ⟨c₀, hc₀, hid, hcn, hconfig⟩ |
          ⟨newId, name, config, rfl, rfl⟩
        · rw [hid, hconfig]
          exact hl.created spec sshPort containerId hold c₀ hc₀ (hcn ▸ hname)
        · -- the other launch of this rental would be the job itself, at another stage
          obtain ⟨spec', sshPort', rfl, hname'⟩ := Job.request_create hreq
          have hids := containerName_injective (hname'.symm.trans hname)
          obtain ⟨m, hm⟩ := List.mem_iff_getElem?.mp hold
          obtain rfl := hl.distinct m n _ _ spec.rentalId hm hj rfl (congrArg some hids)
          rw [hm] at hj
          cases hj
      · obtain ⟨s₀, rfl, hnext⟩ := Job.advance_starting hs.symm
        obtain ⟨rfl, hok, hid⟩ := DockerRuntime.startRental_created hnext
        cases hreq
        obtain ⟨hfresh, hd⟩ := hdocker.created _ _ _ _ hok
        rw [StartStage.request, hd] at hc
        rcases List.mem_append.mp hc with hc | hc
        · exact absurd hname (hfresh c hc)
        · obtain rfl := List.mem_singleton.mp hc
          exact ⟨hid, rfl⟩

theorem Host.Launching.withDaemon (hl : h.Launching rt) {d : Daemon}
    (hd : ∀ c ∈ d, ∀ rentalId, c.name = containerName rentalId →
      ∃ c₀ ∈ h.daemon, c.id = c₀.id ∧ c.name = c₀.name ∧ c.config = c₀.config) :
    Host.Launching rt { h with daemon := d } := by
  refine ⟨hl.distinct, hl.ports, fun spec sshPort containerId hs c hc hname => ?_⟩
  obtain ⟨c₀, hc₀, hid, hcn, hconfig⟩ := hd c hc _ hname
  rw [hid, hconfig]
  exact hl.created spec sshPort containerId hs c₀ hc₀ (hcn ▸ hname)

theorem Host.Launching.withJob (hl : h.Launching rt) {j : Job}
    (halone : ∀ rentalId, j.launches = some rentalId → ∀ j' ∈ h.jobs, j'.launches ≠ some rentalId)
    (hports : ∀ spec s, j = .starting spec s → s = .pullImage) :
    Host.Launching rt { h with jobs := h.jobs ++ [j] } := by
  have old : ∀ {spec s}, Job.starting spec s ∈ h.jobs ++ [j] → s ≠ .pullImage →
      Job.starting spec s ∈ h.jobs := by
    intro spec s hs hne
    rcases List.mem_append.mp hs with hs | hs
    · exact hs
    · exact absurd (hports spec s (List.mem_singleton.mp hs).symm) hne
  refine ⟨fun m n a b rentalId ha hb hla hlb => ?_, fun spec s hs p hp => ?_,
    fun spec sshPort containerId hs => hl.created spec sshPort containerId (old hs nofun)⟩
  · have place : ∀ {m : Nat} {a : Job}, (h.jobs ++ [j])[m]? = some a →
        h.jobs[m]? = some a ∨ m = h.jobs.length ∧ a = j := by
      intro m a ha
      rw [List.getElem?_append] at ha
      split at ha
      case isTrue => exact .inl ha
      case isFalse hm =>
        obtain ⟨hlen, hget⟩ := List.getElem?_eq_some_iff.mp ha
        simp only [List.length_singleton, List.getElem_singleton] at hlen hget
        exact .inr ⟨by omega, hget.symm⟩
    rcases place ha with ha' | ⟨rfl, rfl⟩ <;> rcases place hb with hb' | ⟨rfl, rfl⟩
    · exact hl.distinct m n a b rentalId ha' hb' hla hlb
    · exact absurd hla (halone rentalId hlb a (List.mem_of_getElem? ha'))
    · exact absurd hlb (halone rentalId hla b (List.mem_of_getElem? hb'))
    · rfl
  · refine hl.ports spec s (old hs ?_) p hp
    rintro rfl
    cases hp

theorem Host.launching_init : Host.init.Launching rt := by
  refine ⟨?_, ?_, ?_⟩ <;> simp [init]

theorem Host.Launching.step (hdocker : docker.Documented) (hl : h.Launching rt) {a : HostAct ι}
    (ha : a.Alone h) : (h.step docker rt a).Launching rt := by
  cases a with
  | start spec =>
    refine hl.withJob (fun rentalId hlaunch j hj => ?_) fun _ _ h => ?_
    · cases hlaunch
      exact ha j hj
    · cases h
      rfl
  | stop rentalId => exact hl.withJob nofun nofun
  | call n i =>
    simp only [Host.step]
    split
    case h_1 => exact hl
    case h_2 j hj => exact hl.callStep hdocker hj i
  | crash => exact ⟨by simp [Host.step], by simp [Host.step], by simp [Host.step]⟩
  | exit name =>
    refine hl.withDaemon fun c hc rentalId _ => ?_
    obtain ⟨c₀, hc₀, rfl⟩ := Daemon.mem_setRunning.mp hc
    exact ⟨c₀, hc₀, by split <;> simp⟩
  | other i req =>
    refine hl.withDaemon fun c hc rentalId hname => ?_
    rcases (hdocker.change h.daemon i req).mem hc with hold | ⟨newId, name, config, rfl, rfl⟩
    · exact hold
    · exact absurd hname (ha rentalId)

theorem Host.launching_run (hdocker : docker.Documented) {as : List (HostAct ι)}
    (has : Along (Host.step docker rt) HostAct.Alone Host.init as) :
    (run (Host.step docker rt) Host.init as).Launching rt :=
  run_invariant_along (fun _ _ hl ha => hl.step hdocker ha) launching_init as has

theorem Job.told_starting (hdocker : docker.Documented) {spec : RentalSpec} {s : StartStage} {i : ι}
    {d : Daemon} (hports : ∀ p, s.port? = some p → rt.HasPort p)
    (hcreated : ∀ sshPort containerId, s = .startContainer sshPort containerId → ∀ c ∈ d,
      c.name = containerName spec.rentalId → c.id = containerId ∧ c.config = spec.config sshPort) :
    ((Job.starting spec s).advance rt (docker.answer d i (s.request spec) spec.rentalId)).Told rt
      (docker.respond d i (s.request spec)).1 := by
  simp only [Job.advance]
  split
  case h_1 => trivial
  case h_2 outcome hdone =>
    cases outcome with
    | error e => trivial
    | ok result =>
      cases s with
      | startContainer sshPort containerId =>
        simp only [DockerRuntime.startRental] at hdone
        split at hdone
        case h_1 => cases hdone
        case h_2 hok =>
          cases hdone
          obtain ⟨c, hc, hname, hrun⟩ := hdocker.started _ _ _ hok
          obtain ⟨hid, hconfig⟩ := hcreated sshPort containerId rfl c hc hname
          exact ⟨hports sshPort rfl, rfl, _, hrun, rfl, hid, hname, hconfig⟩
      | usedPorts =>
        simp only [DockerRuntime.startRental] at hdone
        split at hdone
        case h_1 => cases hdone
        case h_2 => split at hdone <;> cases hdone
      | pullImage | forceRemove | createContainer =>
        simp only [DockerRuntime.startRental] at hdone
        split at hdone <;> cases hdone

theorem DockerApi.Documented.forceRemoved (hdocker : docker.Documented) {d : Daemon} {i : ι}
    {name : String}
    (h : forceRemove (docker.respond d i (.removeContainer name)).2.result = .ok ()) :
    ∀ c ∈ (docker.respond d i (.removeContainer name)).1, c.name ≠ name := by
  refine hdocker.removed d i name fun e he => ?_
  rw [he, forceRemove] at h
  split at h
  case isTrue hfound => exact hfound
  case isFalse => cases h

theorem Job.told_stopping (hdocker : docker.Documented) {rentalId : Int} {s : StopStage} {i : ι}
    {d : Daemon} :
    ((Job.stopping rentalId s).advance rt
      (docker.answer d i (s.request rentalId) rentalId)).Told rt
        (docker.respond d i (s.request rentalId)).1 := by
  simp only [Job.advance]
  split
  case h_1 => trivial
  case h_2 outcome hdone =>
    cases outcome with
    | error e => trivial
    | ok u =>
      cases s with
      | stopContainer =>
        simp only [DockerRuntime.stopRental] at hdone
        repeat' split at hdone
        all_goals cases hdone
      | forceRemove =>
        simp only [DockerRuntime.stopRental, Progress.done.injEq] at hdone
        exact hdocker.forceRemoved hdone

/-- What a job reports when it ends holds of the containers at that moment: a launch that succeeded
runs under the reported id and port with the tenant's image and key, and a stop that succeeded has
left no container of the rental. -/
theorem outcome_told (hdocker : docker.Documented) {as : List (HostAct ι)}
    (has : Along (Host.step docker rt) HostAct.Alone Host.init as) {n : Nat} {i : ι} {j : Job}
    (hj : (run (Host.step docker rt) Host.init as).jobs[n]? = some j)
    (hcalls : j.request.isSome = true) :
    ∀ j', ((run (Host.step docker rt) Host.init as).step docker rt (.call n i)).jobs[n]? = some j' →
      j'.Told rt ((run (Host.step docker rt) Host.init as).step docker rt (.call n i)).daemon := by
  have hl := Host.launching_run hdocker has
  generalize run (Host.step docker rt) Host.init as = h at hj hl
  obtain ⟨req, hreq⟩ := Option.isSome_iff_exists.mp hcalls
  have hn : n < h.jobs.length := (List.getElem?_eq_some_iff.mp hj).1
  simp only [Host.step, hj, Host.callStep, hreq, List.getElem?_set_self hn, Option.some.injEq]
  rintro j' rfl
  have hmem := List.mem_of_getElem? hj
  cases j with
  | starting spec s =>
    cases hreq
    refine Job.told_starting hdocker (hl.ports spec s hmem) ?_
    rintro sshPort containerId rfl
    exact hl.created spec sshPort containerId hmem
  | stopping rentalId s =>
    cases hreq
    exact Job.told_stopping hdocker
  | started | stopped => cases hreq

theorem outcome_told_launch :
    Job.Told ⟨40000, 40099⟩
      ((run (Host.step engine ⟨40000, 40099⟩) Host.init
        (.start ⟨7, "cuda:12", "k"⟩ :: List.replicate 4 (.call 0 "c7"))).step
          engine ⟨40000, 40099⟩ (.call 0 "c7")).daemon
      (.started ⟨7, "cuda:12", "k"⟩ (.ok ⟨"c7", 40000, .ssh⟩)) := by
  refine outcome_told engine_documented ?_ (n := 0)
    (j := .starting ⟨7, "cuda:12", "k"⟩ (.startContainer 40000 "c7")) ?_ rfl _ ?_
  · simp [List.replicate_succ, HostAct.Alone, Host.init]
  · rfl
  · rfl

end Runs

end GpuMarket
