import GpuMarket.HostAgent.Launches

namespace GpuMarket

open Lib

variable {ι : Type} {d : Daemon}

theorem Daemon.live_iff {id : Int} :
    d.live id = true ↔ ∃ c ∈ d, c.running = true ∧ c.name = containerName id := by
  simp [live]

def DockerRequest.name? : DockerRequest → Option String
  | .createImage .. | .listContainers _ => none
  | .createContainer name _ | .startContainer name | .stopContainer name
  | .removeContainer name => some name

theorem Daemon.Change.live {d' : Daemon} {req : DockerRequest} (h : d.Change req d') {id : Int}
    (hreq : req.call = .startContainer →
      req.name? ≠ some (containerName id)) (hlive : d'.live id = true) : d.live id = true := by
  rw [live_iff] at hlive ⊢
  obtain ⟨c, hc, hrun, hname⟩ := hlive
  cases h with
  | same => exact ⟨c, hc, hrun, hname⟩
  | create newId name config fresh =>
    rcases List.mem_append.mp hc with hc | hc
    · exact ⟨c, hc, hrun, hname⟩
    · rw [List.mem_singleton.mp hc] at hrun
      cases hrun
  | start c₀ mem apart =>
    obtain ⟨c₁, hc₁, rfl⟩ := mem_setRunning.mp hc
    split at hname
    case isTrue hsame =>
      exact absurd (congrArg some (hsame.symm.trans hname)) (hreq rfl)
    case isFalse hne =>
      rw [if_neg hne] at hrun
      exact ⟨c₁, hc₁, hrun, hname⟩
  | stop name =>
    obtain ⟨c₁, hc₁, rfl⟩ := mem_setRunning.mp hc
    split at hrun
    case isTrue => cases hrun
    case isFalse hne =>
      rw [if_neg hne] at hname
      exact ⟨c₁, hc₁, hrun, hname⟩
  | remove name => exact ⟨c, List.mem_of_mem_filter hc, hrun, hname⟩

theorem Daemon.Change.live_of_ne {d' : Daemon} {req : DockerRequest} (h : d.Change req d') {id : Int}
    (hreq : req.name? ≠ some (containerName id)) :
    d'.live id = d.live id := by
  rw [Bool.eq_iff_iff]
  refine ⟨h.live fun _ => hreq, fun hlive => ?_⟩
  rw [live_iff] at hlive ⊢
  obtain ⟨c, hc, hrun, hname⟩ := hlive
  have kept : ∀ {name running}, name ≠ containerName id → c ∈ d.setRunning name running := by
    intro name running hne
    refine mem_setRunning.mpr ⟨c, hc, (if_neg ?_).symm⟩
    rw [hname]
    exact hne.symm
  refine ⟨c, ?_, hrun, hname⟩
  cases h with
  | same => exact hc
  | create newId name config fresh => exact List.mem_append_left _ hc
  | start c₀ mem apart => exact kept fun hsame => hreq (congrArg some hsame)
  | stop name => exact kept fun hsame => hreq (congrArg some hsame)
  | remove name =>
    refine List.mem_filter.mpr ⟨hc, ?_⟩
    have hne : name ≠ containerName id := fun hsame => hreq (congrArg some hsame)
    simpa [hname] using hne.symm

def DockerRequest.IsFor (id : Int) (req : DockerRequest) : Prop :=
  (∃ spec s, req = StartStage.request spec s ∧ spec.rentalId = id) ∨ ∃ s, req = StopStage.request id s

theorem StartStage.request_call (spec : RentalSpec) (s : StartStage) :
    (s.request spec).call = s.call := by
  cases s <;> rfl

theorem StopStage.request_call (id : Int) (s : StopStage) : (s.request id).call = s.call := by
  cases s <;> rfl

theorem DockerRequest.IsFor.name? {id : Int} {req : DockerRequest} (h : req.IsFor id)
    {name : String} (hname : req.name? = some name) : name = containerName id := by
  obtain ⟨spec, s, rfl, rfl⟩ | ⟨s, rfl⟩ := h <;> cases s <;> cases hname <;> rfl

theorem Daemon.live_eq_false {id : Int}
    (h : ∀ c ∈ d, c.name = containerName id → c.running = false) : d.live id = false := by
  rw [Bool.eq_false_iff]
  intro hlive
  obtain ⟨c, hc, hrun, hname⟩ := live_iff.mp hlive
  rw [h c hc hname] at hrun
  cases hrun

namespace DockerApi.Documented

variable {docker : DockerApi ι} (hdocker : docker.Documented) {i : ι} {id : Int}
include hdocker

theorem live_of_live {req : DockerRequest} (hreq : req.call ≠ .startContainer)
    (hlive : (docker.answer d i req id).live = true) : d.live id = true :=
  (hdocker.change d i req).live (fun hstart => absurd hstart hreq) hlive

theorem allows_quiet {req : DockerRequest}
    (hreq : req.call = .createImage ∨ req.call = .listContainers ∨ req.call = .createContainer) :
    (docker.answer d i req id).live = d.live id := by
  have hkeep : d.live id = true → (docker.respond d i req).1.live id = true := by
    intro hlive
    rw [Daemon.live_iff] at hlive ⊢
    obtain ⟨c, hc, hrun, hname⟩ := hlive
    refine ⟨c, ?_, hrun, hname⟩
    have hchange := hdocker.change d i req
    generalize (docker.respond d i req).1 = d' at hchange
    cases hchange with
    | same => exact hc
    | create newId name config fresh => exact List.mem_append_left _ hc
    | start | stop | remove => simp [DockerRequest.call] at hreq
  exact Bool.eq_iff_iff.mpr
    ⟨hdocker.live_of_live fun hstart => by simp [hstart] at hreq, hkeep⟩

theorem allows_start
    (hheard : (docker.respond d i (.startContainer (containerName id))).2.result ≠ .ok () →
      (docker.respond d i (.startContainer (containerName id))).1 = d) :
    DockerCall.startContainer.Allows (d.live id)
      (docker.answer d i (.startContainer (containerName id)) id) := by
  simp only [DockerCall.Allows]
  split
  case h_1 hok =>
    obtain ⟨c, -, hname, hrun⟩ := hdocker.started d i _ hok
    exact Daemon.live_iff.mpr ⟨_, hrun, rfl, hname⟩
  case h_2 e herr =>
    have hfailed : (docker.respond d i (.startContainer (containerName id))).2.result ≠ .ok () := by
      intro hok
      cases hok.symm.trans herr
    exact congrArg (Daemon.live · id) (hheard hfailed)

theorem allows_stop (hnames : (d.map (·.name)).Nodup) :
    DockerCall.stopContainer.Allows (d.live id)
      (docker.answer d i (.stopContainer (containerName id)) id) := by
  have stopped : (∀ e, (docker.answer d i (.stopContainer (containerName id)) id).result = .error e →
      e.isNotFound = true ∨ e.isNotModified = true) →
        (docker.answer d i (.stopContainer (containerName id)) id).live = false := fun h =>
    Daemon.live_eq_false fun c hc hname => hdocker.stopped d i _ hnames h c hc hname
  simp only [DockerCall.Allows]
  split
  case h_1 hok => exact stopped fun e he => by cases hok.symm.trans he
  case h_2 e herr =>
    intro hlive
    have hnone : ¬(e.isNotFound = true ∨ e.isNotModified = true) := by
      intro hnone
      rw [stopped fun e' he' => by cases herr.symm.trans he'; exact hnone] at hlive
      cases hlive
    obtain ⟨hfound, hmodified⟩ := not_or.mp hnone
    exact ⟨hdocker.live_of_live (by rintro ⟨⟩) hlive, Bool.eq_false_iff.mpr hfound,
      Bool.eq_false_iff.mpr hmodified⟩

theorem allows_remove :
    DockerCall.removeContainer.Allows (d.live id)
      (docker.answer d i (.removeContainer (containerName id)) id) := by
  have removed : (∀ e, (docker.answer d i (.removeContainer (containerName id)) id).result =
      .error e → e.isNotFound = true) →
        (docker.answer d i (.removeContainer (containerName id)) id).live = false := fun h =>
    Daemon.live_eq_false fun c hc hname => absurd hname (hdocker.removed d i _ h c hc)
  simp only [DockerCall.Allows]
  split
  case h_1 hok => exact removed fun e he => by cases hok.symm.trans he
  case h_2 e herr =>
    intro hlive
    refine ⟨hdocker.live_of_live (by rintro ⟨⟩) hlive, Bool.eq_false_iff.mpr fun hfound => ?_⟩
    rw [removed fun e' he' => by cases herr.symm.trans he'; exact hfound] at hlive
    cases hlive

/-- A daemon answers as the runtime relies on, as long as it lets it know of every container that
it has started. -/
theorem allows (hnames : (d.map (·.name)).Nodup) {req : DockerRequest} (hreq : req.IsFor id)
    (hheard : req.call = .startContainer → (docker.respond d i req).2.result ≠ .ok () →
      (docker.respond d i req).1 = d) :
    req.call.Allows (d.live id) (docker.answer d i req id) := by
  cases req with
  | createImage fromImage tag => exact hdocker.allows_quiet (.inl rfl)
  | listContainers label => exact hdocker.allows_quiet (.inr (.inl rfl))
  | createContainer name config => exact hdocker.allows_quiet (.inr (.inr rfl))
  | startContainer name =>
    obtain rfl := hreq.name? rfl
    exact hdocker.allows_start (hheard rfl)
  | stopContainer name =>
    obtain rfl := hreq.name? rfl
    exact hdocker.allows_stop hnames
  | removeContainer name =>
    obtain rfl := hreq.name? rfl
    exact hdocker.allows_remove

end DockerApi.Documented

end GpuMarket
