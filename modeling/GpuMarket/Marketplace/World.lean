import GpuMarket.HostAgent.Runtime
import Mathlib.Logic.Function.Basic

namespace GpuMarket

open Lib

inductive Outcome
  | started (outcome : Except String Started)
  | stopped (outcome : Except String Unit)
  deriving DecidableEq

def Outcome.report (rentalId : Int) : Outcome → ReportRequest
  | .started outcome => startReport rentalId outcome
  | .stopped outcome => stopReport rentalId outcome

def Outcome.isFailedStop : Outcome → Bool
  | .stopped (.error _) => true
  | _ => false

/-- A `dispatch` task makes its calls to the daemon, and then awaits the reply to its one report;
`left` says whether its rental's container ran after the last call. -/
inductive Phase
  | starting (spec : RentalSpec) (s : StartStage)
  | stopping (rentalId : Int) (s : StopStage)
  | reporting (rentalId : Int) (outcome : Outcome) (left : Bool) (thread : Thread)

structure Task where
  token : String
  runtime : DockerRuntime
  phase : Phase

/-- `bearer_auth`. -/
def bearerAuth (token : String) : Option String := some ("Bearer " ++ token)

def dispatch (token : String) (runtime : DockerRuntime) : Command → Task
  | .startRental rentalId image sshPubkey =>
    ⟨token, runtime, .starting ⟨rentalId, image, sshPubkey⟩ .pullImage⟩
  | .stopRental rentalId => ⟨token, runtime, .stopping rentalId .stopContainer⟩

namespace Task

def rentalId (t : Task) : Int :=
  match t.phase with
  | .starting spec _ => spec.rentalId
  | .stopping rentalId _ => rentalId
  | .reporting rentalId .. => rentalId

def call (t : Task) : Option DockerCall :=
  match t.phase with
  | .starting _ s => some s.call
  | .stopping _ s => some s.call
  | .reporting .. => none

def awaiting (t : Task) (rentalId : Int) (outcome : Outcome) (left : Bool) (thread : Thread) :
    Task := { t with phase := .reporting rentalId outcome left thread }

def send (t : Task) (rentalId : Int) (outcome : Outcome) (left : Bool) : Task :=
  t.awaiting rentalId outcome left
    (.received (.report (bearerAuth t.token) (outcome.report rentalId)))

def advance (t : Task) (a : DockerAnswer) : Task :=
  match t.phase with
  | .starting spec s =>
    match t.runtime.startRental spec a s with
    | .next s => { t with phase := .starting spec s }
    | .done outcome => t.send spec.rentalId (.started outcome) a.live
  | .stopping rentalId s =>
    match DockerRuntime.stopRental a s with
    | .next s => { t with phase := .stopping rentalId s }
    | .done outcome => t.send rentalId (.stopped outcome) a.live
  | .reporting .. => t

/-- The rental, the outcome and what is left of it, where the report is about to take effect. -/
def committing (t : Task) : Option (Int × Outcome × Bool) :=
  match t.phase with
  | .reporting rentalId outcome left (.reportTx ..) => some (rentalId, outcome, left)
  | _ => none

def finished (t : Task) : Bool :=
  match t.phase with
  | .reporting _ _ _ (.done _) => true
  | _ => false

end Task

/-- The control plane, the tasks of all the hosts' agents, and the containers that run on the
hosts, each named by its rental. -/
structure World where
  conf : ServerConf
  tasks : List Task
  live : Int → Bool

/-- A heartbeat's reply reaches its agent, which runs each command as a task of its own. -/
def spawned : Txn × Reply → List Task
  | (.heartbeat machine _ _, .commands commands) =>
    commands.map (dispatch machine.agentToken ⟨machine.portStart, machine.portEnd⟩)
  | _ => []

inductive WorldAct
  /-- a step of the control plane; reports come from the tasks only -/
  | server (a : ServerAct)
  /-- the daemon answers the task's call -/
  | docker (n : Nat) (a : DockerAnswer)
  /-- a step of the control plane on the task's report -/
  | report (n : Nat) (now : Int)

def ServerAct.isReport : ServerAct → Bool
  | .request (.report ..) => true
  | _ => false

namespace World

def init : World := ⟨.init, [], fun _ => false⟩

def serverStep (env : Env) (w : World) (a : ServerAct) : World :=
  let conf := (server env).step w.conf a
  { w with conf, tasks := w.tasks ++ (conf.log.drop w.conf.log.length).flatMap spawned }

def dockerStep (w : World) (n : Nat) (t : Task) (a : DockerAnswer) : World :=
  match t.call with
  | none => w
  | some c =>
    if c.Allows (w.live t.rentalId) a then
      { w with
        tasks := w.tasks.set n (t.advance a)
        live := Function.update w.live t.rentalId a.live }
    else w

/-- The request of a report is a thread of the control plane like any other. -/
def reportStep (env : Env) (w : World) (n : Nat) (t : Task) (now : Int) : World :=
  match t.phase with
  | .reporting rentalId outcome left thread =>
    let conf := (server env).step { w.conf with threads := thread :: w.conf.threads }
      (.thread 0 { now })
    { w with
      conf := { conf with threads := conf.threads.tail }
      tasks := w.tasks.set n (t.awaiting rentalId outcome left (conf.threads.headD thread)) }
  | _ => w

def step (env : Env) (w : World) : WorldAct → World
  | .server a => if a.isReport then w else w.serverStep env a
  | .docker n a =>
    match w.tasks[n]? with
    | none => w
    | some t => w.dockerStep n t a
  | .report n now =>
    match w.tasks[n]? with
    | none => w
    | some t => w.reportStep env n t now

/-- The control plane has the rental as running. -/
def Runs (w : World) (id : Int) : Prop :=
  ∃ r ∈ w.conf.store.rentals.rows, r.id = id ∧ r.status = .running

instance (w : World) (id : Int) : Decidable (w.Runs id) :=
  inferInstanceAs (Decidable (∃ r ∈ w.conf.store.rentals.rows, _ ∧ _))

/-- A command of the rental is undelivered, or a task for it is in progress. -/
def Busy (env : Env) (w : World) (id : Int) : Prop :=
  (∃ c ∈ w.conf.store.commands.rows, c.delivered = false ∧
    (env.serde.fromStr c.payload).map Command.rentalId = some id) ∨
  ∃ t ∈ w.tasks, t.rentalId = id ∧ t.finished = false

instance (env : Env) (w : World) (id : Int) : Decidable (w.Busy env id) :=
  inferInstanceAs (Decidable ((∃ c ∈ w.conf.store.commands.rows, _ ∧ _) ∨ ∃ t ∈ w.tasks, _ ∧ _))

/-- A rental with nothing under way has a live workload exactly if it is running. -/
def Agrees (env : Env) (w : World) : Prop :=
  ∀ id, ¬w.Busy env id → (w.live id = true ↔ w.Runs id)

/-- No command is undelivered and no task is in progress. -/
def AtRest (w : World) : Prop :=
  (∀ c ∈ w.conf.store.commands.rows, c.delivered = true) ∧ ∀ t ∈ w.tasks, t.finished = true

instance (w : World) : Decidable w.AtRest :=
  inferInstanceAs (Decidable ((∀ c ∈ w.conf.store.commands.rows, _) ∧ ∀ t ∈ w.tasks, _))

theorem AtRest.not_busy {env : Env} {w : World} (h : w.AtRest) (id : Int) : ¬w.Busy env id := by
  rintro (⟨c, hc, hwaits, -⟩ | ⟨t, ht, -, hrest⟩)
  · rw [h.1 c hc] at hwaits
    cases hwaits
  · rw [h.2 t ht] at hrest
    cases hrest

/-- Where the report of the last task of a rental takes effect, nothing has been switched since
that task was done, and where a stop had failed, nothing is left to stop. -/
def Current (env : Env) (w : World) : WorldAct → Prop
  | .server _ | .docker .. => True
  | .report n _ => ∀ rentalId outcome left,
    w.tasks[n]?.bind Task.committing = some (rentalId, outcome, left) →
      ¬Busy env { w with tasks := w.tasks.eraseIdx n } rentalId →
        w.live rentalId = if outcome.isFailedStop then false else left

instance (env : Env) (w : World) : (a : WorldAct) → Decidable (w.Current env a)
  | .server _ | .docker .. => inferInstanceAs (Decidable True)
  | .report n _ =>
    decidable_of_iff (∀ e ∈ w.tasks[n]?.bind Task.committing,
        ¬Busy env { w with tasks := w.tasks.eraseIdx n } e.1 →
          w.live e.1 = if e.2.1.isFailedStop then false else e.2.2)
      ⟨fun h _ _ _ he => h _ he, fun h _ he => h _ _ _ he⟩

end World

end GpuMarket
