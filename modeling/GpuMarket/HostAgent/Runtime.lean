import GpuMarket.HostAgent.Dispatch

namespace GpuMarket

inductive DockerError
  | responseServerError (statusCode : Nat) (message : String)
  | other (message : String)
  deriving DecidableEq, Repr

namespace DockerError

def text : DockerError → String
  | .responseServerError statusCode message =>
    "Docker responded with status code " ++ toString statusCode ++ ": " ++ message
  | .other message => message

def isNotFound : DockerError → Bool
  | .responseServerError statusCode _ => statusCode = 404
  | .other _ => false

def isNotModified : DockerError → Bool
  | .responseServerError statusCode _ => statusCode = 304
  | .other _ => false

end DockerError

inductive DockerCall
  | createImage | listContainers | createContainer | startContainer | stopContainer
  | removeContainer
  deriving DecidableEq, Repr

/-- The daemon's answer to a call, and whether the rental's container runs after it. -/
structure DockerAnswer where
  result : Except DockerError Unit := .ok ()
  /-- the ports of the containers that run -/
  usedPorts : List Int := []
  /-- the id of the container just created -/
  containerId : String := ""
  live : Bool

/-- What the daemon documents of its calls: a container runs after a start that succeeds, not after
a stop or a removal that succeeds or has nothing to do, and no other call starts one. -/
def DockerCall.Allows (before : Bool) (a : DockerAnswer) : DockerCall → Prop
  | .createImage | .listContainers | .createContainer => a.live = before
  | .startContainer =>
    match a.result with
    | .ok () => a.live = true
    | .error _ => a.live = before
  | .stopContainer =>
    match a.result with
    | .ok () => a.live = false
    | .error e => a.live = true → before = true ∧ e.isNotFound = false ∧ e.isNotModified = false
  | .removeContainer =>
    match a.result with
    | .ok () => a.live = false
    | .error e => a.live = true → before = true ∧ e.isNotFound = false

instance (before : Bool) (a : DockerAnswer) (c : DockerCall) : Decidable (c.Allows before a) := by
  cases c <;> simp only [DockerCall.Allows]
  all_goals
    first
    | infer_instance
    | (split <;> infer_instance)

structure DockerRuntime where
  portStart : Int
  portEnd : Int
  deriving DecidableEq, Repr

/-- First free port in `start..=end` not present in `used`. -/
def pickFreePort (start stop : Int) (used : List Int) : Option Int :=
  ((List.range (stop + 1 - start).toNat).map (start + Int.ofNat ·)).find? (· ∉ used)

inductive Progress (σ α : Type)
  | next (s : σ)
  | done (outcome : Except String α)

inductive StartStage
  | pullImage
  | usedPorts
  | forceRemove (sshPort : Int)
  | createContainer (sshPort : Int)
  | startContainer (sshPort : Int) (containerId : String)
  deriving DecidableEq, Repr

inductive StopStage
  | stopContainer | forceRemove
  deriving DecidableEq, Repr

def StartStage.call : StartStage → DockerCall
  | .pullImage => .createImage
  | .usedPorts => .listContainers
  | .forceRemove _ => .removeContainer
  | .createContainer _ => .createContainer
  | .startContainer .. => .startContainer

def StopStage.call : StopStage → DockerCall
  | .stopContainer => .stopContainer
  | .forceRemove => .removeContainer

def forceRemove : Except DockerError Unit → Except String Unit
  | .ok () => .ok ()
  | .error e => if e.isNotFound then .ok () else .error ("removing container: " ++ e.text)

namespace DockerRuntime

def startRental (rt : DockerRuntime) (spec : RentalSpec) (a : DockerAnswer) :
    StartStage → Progress StartStage Started
  | .pullImage =>
    match a.result with
    | .error e => .done (.error ("pulling image " ++ spec.image ++ ": image pull stream: " ++ e.text))
    | .ok () => .next .usedPorts
  | .usedPorts =>
    match a.result with
    | .error e => .done (.error ("listing containers: " ++ e.text))
    | .ok () =>
      match pickFreePort rt.portStart rt.portEnd a.usedPorts with
      | none =>
        .done (.error
          ("no free SSH port in " ++ toString rt.portStart ++ "..=" ++ toString rt.portEnd))
      | some sshPort => .next (.forceRemove sshPort)
  | .forceRemove sshPort =>
    match GpuMarket.forceRemove a.result with
    | .error e => .done (.error e)
    | .ok () => .next (.createContainer sshPort)
  | .createContainer sshPort =>
    match a.result with
    | .error e => .done (.error ("creating container: " ++ e.text))
    | .ok () => .next (.startContainer sshPort a.containerId)
  | .startContainer sshPort containerId =>
    match a.result with
    | .error e => .done (.error ("starting container: " ++ e.text))
    | .ok () => .done (.ok { containerId, sshPort, kind := .ssh })

def stopRental (a : DockerAnswer) : StopStage → Progress StopStage Unit
  | .stopContainer =>
    match a.result with
    | .ok () => .next .forceRemove
    | .error e =>
      if e.isNotFound || e.isNotModified then .next .forceRemove
      else .done (.error ("stopping container: " ++ e.text))
  | .forceRemove => .done (GpuMarket.forceRemove a.result)

end DockerRuntime

theorem forceRemove_ok {before : Bool} {a : DockerAnswer}
    (h : DockerCall.removeContainer.Allows before a) (hok : forceRemove a.result = .ok ()) :
    a.live = false := by
  simp only [DockerCall.Allows] at h
  split at h
  case h_1 => exact h
  case h_2 e he =>
    simp only [he, forceRemove] at hok
    split at hok
    case isTrue hfound => simpa [hfound] using h
    case isFalse => cases hok

theorem DockerCall.live_of_live {before : Bool} {a : DockerAnswer} {c : DockerCall}
    (h : c.Allows before a) (hc : c ≠ .startContainer) (hlive : a.live = true) : before = true := by
  cases c with
  | startContainer => exact absurd rfl hc
  | createImage | listContainers | createContainer => exact h ▸ hlive
  | stopContainer | removeContainer =>
    simp only [Allows] at h
    split at h
    case h_1 =>
      rw [h] at hlive
      cases hlive
    case h_2 => exact (h hlive).1

theorem DockerRuntime.startRental_live {rt : DockerRuntime} {spec : RentalSpec} {before : Bool}
    {a : DockerAnswer} {s : StartStage} (h : s.call.Allows before a) :
    (∃ started, rt.startRental spec a s = .done (.ok started) ∧ a.live = true) ∨
      (a.live = true → before = true) ∧
        ((∃ s', rt.startRental spec a s = .next s') ∨
          ∃ e, rt.startRental spec a s = .done (.error e)) := by
  cases s with
  | startContainer sshPort containerId =>
    simp only [StartStage.call, DockerCall.Allows] at h
    simp only [startRental]
    split
    case h_1 e he =>
      rw [he] at h
      exact .inr ⟨fun hlive => h ▸ hlive, .inr ⟨_, rfl⟩⟩
    case h_2 he =>
      rw [he] at h
      exact .inl ⟨_, rfl, h⟩
  | pullImage | forceRemove | createContainer =>
    refine .inr ⟨DockerCall.live_of_live h (by rintro ⟨⟩), ?_⟩
    simp only [startRental]
    split
    case h_1 => exact .inr ⟨_, rfl⟩
    case h_2 => exact .inl ⟨_, rfl⟩
  | usedPorts =>
    refine .inr ⟨DockerCall.live_of_live h (by rintro ⟨⟩), ?_⟩
    simp only [startRental]
    split
    case h_1 => exact .inr ⟨_, rfl⟩
    case h_2 =>
      split
      case h_1 => exact .inr ⟨_, rfl⟩
      case h_2 => exact .inl ⟨_, rfl⟩

theorem DockerRuntime.stopRental_live {before : Bool} {a : DockerAnswer} {s : StopStage}
    (h : s.call.Allows before a) :
    (a.live = true → before = true) ∧
      (stopRental a s = .done (.ok ()) → a.live = false) := by
  refine ⟨DockerCall.live_of_live h (by cases s <;> rintro ⟨⟩), fun hok => ?_⟩
  cases s with
  | stopContainer =>
    simp only [stopRental] at hok
    repeat' split at hok
    all_goals cases hok
  | forceRemove =>
    simp only [stopRental, Progress.done.injEq] at hok
    exact forceRemove_ok h hok

end GpuMarket
