import GpuMarket.Lib.Decimal
import GpuMarket.Lib.Run
import GpuMarket.HostAgent.Image
import GpuMarket.HostAgent.Runtime

namespace GpuMarket

open Lib

structure PortBinding where
  hostIp : String
  hostPort : String
  deriving DecidableEq, Repr

structure DeviceRequest where
  driver : String
  count : Int
  capabilities : List (List String)
  deriving DecidableEq, Repr

structure ContainerConfig where
  image : String
  env : List String
  exposedPorts : List String
  labels : List (String × String)
  portBindings : List (String × List PortBinding)
  deviceRequests : List DeviceRequest
  deriving DecidableEq, Repr

structure Container where
  id : String
  name : String
  config : ContainerConfig
  running : Bool
  deriving DecidableEq, Repr

def labelRentalId : String := "io.vgpu.rental_id"

def labelSshPort : String := "io.vgpu.ssh_port"

def containerSshPort : String := "22/tcp"

def containerName (rentalId : Int) : String := "vgpu-rental-" ++ toString rentalId

def RentalSpec.config (spec : RentalSpec) (sshPort : Int) : ContainerConfig where
  image := spec.image
  env := ["PUBLIC_KEY=" ++ spec.sshPubkey, "SSH_PUBLIC_KEY=" ++ spec.sshPubkey]
  exposedPorts := [containerSshPort]
  labels := [(labelRentalId, toString spec.rentalId), (labelSshPort, toString sshPort)]
  portBindings := [(containerSshPort, [⟨"0.0.0.0", toString sshPort⟩])]
  deviceRequests := [⟨"", -1, [["gpu"]]⟩]

structure RunningRental where
  rentalId : Int
  containerId : String
  sshPort : Int
  deriving DecidableEq, Repr

inductive DockerRequest
  | createImage (fromImage tag : String)
  | listContainers (label : String)
  | createContainer (name : String) (config : ContainerConfig)
  | startContainer (name : String)
  | stopContainer (name : String)
  | removeContainer (name : String)
  deriving DecidableEq, Repr

def DockerRequest.call : DockerRequest → DockerCall
  | .createImage .. => .createImage
  | .listContainers _ => .listContainers
  | .createContainer .. => .createContainer
  | .startContainer _ => .startContainer
  | .stopContainer _ => .stopContainer
  | .removeContainer _ => .removeContainer

def StartStage.request (spec : RentalSpec) : StartStage → DockerRequest
  | .pullImage =>
    let (fromImage, tag) := (splitImageTag spec.image).get (splitImageTag_isSome spec.image)
    .createImage fromImage tag
  | .usedPorts => .listContainers labelRentalId
  | .forceRemove _ => .removeContainer (containerName spec.rentalId)
  | .createContainer sshPort =>
    .createContainer (containerName spec.rentalId) (spec.config sshPort)
  | .startContainer .. => .startContainer (containerName spec.rentalId)

def StopStage.request (rentalId : Int) : StopStage → DockerRequest
  | .stopContainer => .stopContainer (containerName rentalId)
  | .forceRemove => .removeContainer (containerName rentalId)

/-- Two bindings of one port of the host, where `0.0.0.0` stands for each of its addresses. -/
def PortBinding.Clashes (b b' : PortBinding) : Prop :=
  b.hostPort = b'.hostPort ∧ (b.hostIp = b'.hostIp ∨ b.hostIp = "0.0.0.0" ∨ b'.hostIp = "0.0.0.0")

instance (b b' : PortBinding) : Decidable (b.Clashes b') :=
  inferInstanceAs (Decidable (_ ∧ _))

namespace Container

def bindings (c : Container) : List PortBinding := c.config.portBindings.flatMap Prod.snd

def Clashes (c c' : Container) : Prop := ∃ b ∈ c.bindings, ∃ b' ∈ c'.bindings, b.Clashes b'

instance (c c' : Container) : Decidable (c.Clashes c') :=
  inferInstanceAs (Decidable (∃ b ∈ c.bindings, _))

def label (c : Container) (key : String) : Option String := c.config.labels.lookup key

def rental? (c : Container) : Option RunningRental :=
  match c.label labelRentalId, c.label labelSshPort with
  | some rid, some port =>
    match Decimal.parseSigned 64 rid, Decimal.parseSigned 32 port with
    | some rentalId, some sshPort => some { rentalId, containerId := c.id, sshPort }
    | _, _ => none
  | _, _ => none

end Container

/-- The containers of a host, running or not. -/
abbrev Daemon := List Container

namespace DockerRuntime

def runningRentals (listed : List Container) : List RunningRental :=
  listed.filterMap Container.rental?

def usedPorts (listed : List Container) : List Int := (runningRentals listed).map (·.sshPort)

def available (rt : DockerRuntime) (listed : List Container) : List Int :=
  ((List.range (rt.portEnd + 1 - rt.portStart).toNat).map (rt.portStart + Int.ofNat ·)).filter
    (· ∉ usedPorts listed)

end DockerRuntime

namespace Daemon

def listContainers (d : Daemon) (label : String) : List Container :=
  d.filter fun c => c.running && (c.label label).isSome

def live (d : Daemon) (rentalId : Int) : Bool :=
  d.any fun c => c.running && c.name == containerName rentalId

def setRunning (d : Daemon) (name : String) (running : Bool) : Daemon :=
  d.map fun c => if c.name = name then { c with running } else c

def remove (d : Daemon) (name : String) : Daemon := d.filter (·.name ≠ name)

end Daemon

structure DockerReply where
  result : Except DockerError Unit := .ok ()
  containers : List Container := []
  id : String := ""

/-- A daemon: what a call does to the containers and what the agent hears of it, where `ι` is all
else that this depends on. -/
structure DockerApi (ι : Type) where
  respond : Daemon → ι → DockerRequest → Daemon × DockerReply

variable {ι : Type}

def DockerApi.answer (docker : DockerApi ι) (d : Daemon) (i : ι) (req : DockerRequest)
    (rentalId : Int) : DockerAnswer :=
  let (d, reply) := docker.respond d i req
  { result := reply.result
    usedPorts := DockerRuntime.usedPorts reply.containers
    containerId := reply.id
    live := d.live rentalId }

inductive Job
  | starting (spec : RentalSpec) (s : StartStage)
  | started (spec : RentalSpec) (outcome : Except String Started)
  | stopping (rentalId : Int) (s : StopStage)
  | stopped (rentalId : Int) (outcome : Except String Unit)

namespace Job

def rentalId : Job → Int
  | .starting spec _ | .started spec _ => spec.rentalId
  | .stopping rentalId _ | .stopped rentalId _ => rentalId

def request : Job → Option DockerRequest
  | .starting spec s => some (s.request spec)
  | .stopping rentalId s => some (s.request rentalId)
  | .started .. | .stopped .. => none

def advance (rt : DockerRuntime) (a : DockerAnswer) : Job → Job
  | .starting spec s =>
    match rt.startRental spec a s with
    | .next s => .starting spec s
    | .done outcome => .started spec outcome
  | .stopping rentalId s =>
    match DockerRuntime.stopRental a s with
    | .next s => .stopping rentalId s
    | .done outcome => .stopped rentalId outcome
  | j => j

end Job

structure Host where
  daemon : Daemon
  jobs : List Job

inductive HostAct (ι : Type)
  | start (spec : RentalSpec)
  | stop (rentalId : Int)
  /-- the daemon answers the job's call -/
  | call (n : Nat) (i : ι)
  /-- the agent ends, and with it whatever it was doing -/
  | crash
  /-- the container's process ends -/
  | exit (name : String)
  /-- someone else calls the daemon -/
  | other (i : ι) (req : DockerRequest)

namespace Host

def callStep (docker : DockerApi ι) (rt : DockerRuntime) (h : Host) (n : Nat) (j : Job) (i : ι) :
    Host :=
  match j.request with
  | none => h
  | some req =>
    { daemon := (docker.respond h.daemon i req).1
      jobs := h.jobs.set n (j.advance rt (docker.answer h.daemon i req j.rentalId)) }

def step (docker : DockerApi ι) (rt : DockerRuntime) (h : Host) : HostAct ι → Host
  | .start spec => { h with jobs := h.jobs ++ [.starting spec .pullImage] }
  | .stop rentalId => { h with jobs := h.jobs ++ [.stopping rentalId .stopContainer] }
  | .call n i =>
    match h.jobs[n]? with
    | none => h
    | some j => h.callStep docker rt n j i
  | .crash => { h with jobs := [] }
  | .exit name => { h with daemon := h.daemon.setRunning name false }
  | .other i req => { h with daemon := (docker.respond h.daemon i req).1 }

end Host

end GpuMarket
