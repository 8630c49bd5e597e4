import GpuMarket.HostAgent.Containers

namespace GpuMarket

open Lib

inductive MetalTask
  | gemm (n : Nat)
  deriving DecidableEq, Repr

/-- Why an image is no task, with what the message quotes. -/
inductive TaskError
  | notMetal (image : String)
  | invalidSize (image : String)
  | sizeOutOfRange (n : Nat)
  | unknownTask (task : String)
  deriving DecidableEq, Repr

def taskSize (image : String) : Option (List Char) → Except TaskError Nat
  | none => .ok 2048
  | some arg =>
    match Decimal.parseUnsigned 32 (String.ofList arg) with
    | some n => .ok n
    | none => .error (.invalidSize image)

/-- Parse a rental image into an allowlisted task. -/
def parseTask (image : String) : Except TaskError MetalTask :=
  match stripPrefix "metal:" image with
  | none => .error (.notMetal image)
  | some rest =>
    let (task, arg) := match splitOnce ':' rest.toList with
      | some (t, a) => (t, some a)
      | none => (rest.toList, none)
    if task = "gemm".toList then
      match taskSize image arg with
      | .error e => .error e
      | .ok n =>
        if (256 ≤ n ∧ n ≤ 16384) ∧ n % 8 = 0 then .ok (.gemm n) else .error (.sizeOutOfRange n)
    else .error (.unknownTask (String.ofList task))

/-- The arguments with which the runtime starts its own binary again. -/
def workerArgs (exe : String) (n : Nat) (port : Int) : List String :=
  [exe, "__mac-worker", toString n, toString port]

def macWorker (args : List String) : Option (Nat × Nat) :=
  if args[1]? = some "__mac-worker" then
    some ((args[2]?.bind (Decimal.parseUnsigned 32)).getD 2048,
      (args[3]?.bind (Decimal.parseUnsigned 16)).getD 40000)
  else none

def workerRuns (n : Nat) : Prop := 8 ≤ n ∧ n % 8 = 0

theorem stripPrefix_eq_some {pre s rest : String} (h : stripPrefix pre s = some rest) :
    s = pre ++ rest := by
  unfold stripPrefix at h
  split at h
  case isTrue hp =>
    cases h
    obtain ⟨t, ht⟩ := List.isPrefixOf_iff_prefix.mp hp
    rw [← String.toList_inj, String.toList_append, String.toList_ofList, ← ht,
      List.drop_left]
  case isFalse => cases h

theorem parseTask_ok_iff {image : String} {n : Nat} : parseTask image = .ok (.gemm n) ↔
    (image = "metal:gemm" ∧ n = 2048) ∨ ∃ arg : String, image = "metal:gemm:" ++ arg ∧
      Decimal.parseUnsigned 32 arg = some n ∧ 256 ≤ n ∧ n ≤ 16384 ∧ n % 8 = 0 := by
  constructor
  · intro h
    unfold parseTask at h
    split at h
    case h_1 => cases h
    case h_2 rest hrest =>
      obtain rfl := stripPrefix_eq_some hrest
      cases hsplit : splitOnce ':' rest.toList with
      | none =>
        simp only [hsplit] at h
        split at h
        case isFalse => cases h
        case isTrue hgemm =>
          cases h
          rw [String.toList_inj.mp hgemm]
          exact .inl ⟨rfl, rfl⟩
      | some parts =>
        obtain ⟨task, arg⟩ := parts
        obtain ⟨htext, -⟩ := eq_append_of_splitOnce hsplit
        simp only [hsplit] at h
        split at h
        case isFalse => cases h
        case isTrue hgemm =>
          refine .inr ⟨String.ofList arg, ?_, ?_⟩
          · rw [← String.toList_inj]
            simp [String.toList_append, htext, hgemm]
          · simp only [taskSize] at h
            cases hn : Decimal.parseUnsigned 32 (String.ofList arg) with
            | none => simp [hn] at h
            | some m =>
              simp only [hn] at h
              split at h
              case isFalse => cases h
              case isTrue hrange =>
                cases h
                exact ⟨rfl, hrange.1.1, hrange.1.2, hrange.2⟩
  · rintro (⟨rfl, rfl⟩ | ⟨arg, rfl, hn, hlow, hhigh, height⟩)
    · rfl
    · have hrest : stripPrefix "metal:" ("metal:gemm:" ++ arg) = some ("gemm:" ++ arg) := by
        rw [show "metal:gemm:" ++ arg = "metal:" ++ ("gemm:" ++ arg) by
          rw [← String.append_assoc]; rfl, stripPrefix_append]
      have hsplit : splitOnce ':' ("gemm:" ++ arg).toList = some ("gemm".toList, arg.toList) := by
        rw [String.toList_append]
        exact splitOnce_append (s := "gemm".toList) (by decide) arg.toList
      simp only [parseTask, hrest, hsplit, if_true, taskSize, String.ofList_toList, hn]
      rw [if_pos ⟨⟨hlow, hhigh⟩, height⟩]

theorem parseTask_size {image : String} {n : Nat} (h : parseTask image = .ok (.gemm n)) :
    (256 ≤ n ∧ n ≤ 16384) ∧ n % 8 = 0 := by
  obtain ⟨-, rfl⟩ | ⟨arg, -, -, hlow, hhigh, height⟩ := parseTask_ok_iff.mp h
  · decide
  · exact ⟨⟨hlow, hhigh⟩, height⟩

/-- The size of an accepted image comes through to the worker, which runs with it; the port comes
through if it is one. -/
theorem macWorker_workerArgs {image exe : String} {n : Nat} (h : parseTask image = .ok (.gemm n))
    (port : Int) : macWorker (workerArgs exe n port) =
      some (n, if 0 ≤ port ∧ port < 2 ^ 16 then port.toNat else 40000) ∧ workerRuns n := by
  obtain ⟨⟨hlow, hhigh⟩, height⟩ := parseTask_size h
  refine ⟨?_, by omega, height⟩
  have hsize := Decimal.parseUnsigned_toString 32 n
  rw [if_pos (by omega)] at hsize
  have hport := Decimal.parseUnsigned_toString_int 16 port
  have hsub : (workerArgs exe n port)[1]? = some "__mac-worker" := rfl
  rw [macWorker, if_pos hsub]
  change some ((Decimal.parseUnsigned 32 (toString n)).getD 2048,
    (Decimal.parseUnsigned 16 (toString port)).getD 40000) = _
  rw [hsize, hport]
  split <;> rfl

structure MetalJob where
  child : Nat
  port : Int
  deriving DecidableEq, Repr

structure MetalWorker where
  rentalId : Int
  args : List String
  port : Int
  alive : Bool
  deriving DecidableEq, Repr

/-- Where a call of the runtime stands between its locks and its system calls. -/
inductive MetalCall
  | start (spec : RentalSpec)
  | spawn (spec : RentalSpec) (n : Nat) (port : Int)
  | insert (spec : RentalSpec) (child : Nat) (port : Int)
  | remove (rentalId : Int)
  | kill (rentalId : Int) (child : Nat)
  | started (spec : RentalSpec) (outcome : Except String Started)
  | stopped (rentalId : Int)

/-- The runtime's jobs, the processes of the host by their number, and the calls in progress. -/
structure MetalHost where
  exe : String
  ports : DockerRuntime
  jobs : List (Int × MetalJob)
  workers : List MetalWorker
  calls : List MetalCall

namespace MetalHost

def usedPorts (h : MetalHost) : List Int := h.jobs.map (·.2.port)

/-- `HashMap::insert`, which drops the entry that was there. -/
def insert (jobs : List (Int × MetalJob)) (rentalId : Int) (job : MetalJob) :
    List (Int × MetalJob) := (rentalId, job) :: jobs.filter (·.1 ≠ rentalId)

def alive (h : MetalHost) (child : Nat) : Bool := (h.workers[child]?).any (·.alive)

def quit (h : MetalHost) (child : Nat) : List MetalWorker :=
  h.workers.modify child fun w => { w with alive := false }

def jobName (rentalId : Int) : String := "metal-job-" ++ toString rentalId

def runningRentals (h : MetalHost) : List RunningRental × List (Int × MetalJob) :=
  let jobs := h.jobs.filter fun e => h.alive e.2.child
  (jobs.map fun (rentalId, job) => ⟨rentalId, jobName rentalId, job.port⟩, jobs)

/-- The next step of a call; `text` says how an error reads, `failure` why a process does not start,
if it does not. -/
def turn (text : TaskError → String) (h : MetalHost) (i : Nat) (failure : Option String) :
    MetalCall → MetalHost
  | .start spec =>
    match parseTask spec.image with
    | .error e => { h with calls := h.calls.set i (.started spec (.error (text e))) }
    | .ok (.gemm n) =>
      match pickFreePort h.ports.portStart h.ports.portEnd h.usedPorts with
      | none =>
        { h with
          calls := h.calls.set i (.started spec (.error ("no free port in " ++
            toString h.ports.portStart ++ "..=" ++ toString h.ports.portEnd))) }
      | some port => { h with calls := h.calls.set i (.spawn spec n port) }
  | .spawn spec n port =>
    match failure with
    | some e =>
      { h with
        calls := h.calls.set i
          (.started spec (.error ("spawning the native Metal worker: " ++ e))) }
    | none =>
      { h with
        workers := h.workers ++ [⟨spec.rentalId, workerArgs h.exe n port, port, true⟩]
        calls := h.calls.set i (.insert spec h.workers.length port) }
  | .insert spec child port =>
    { h with
      jobs := insert h.jobs spec.rentalId ⟨child, port⟩
      calls := h.calls.set i
        (.started spec (.ok ⟨jobName spec.rentalId, port, .httpStatus⟩)) }
  | .remove rentalId =>
    match h.jobs.find? (·.1 = rentalId) with
    | none => { h with calls := h.calls.set i (.stopped rentalId) }
    | some (_, job) =>
      { h with
        jobs := h.jobs.filter (·.1 ≠ rentalId)
        calls := h.calls.set i (.kill rentalId job.child) }
  | .kill rentalId child =>
    { h with workers := h.quit child, calls := h.calls.set i (.stopped rentalId) }
  | .started .. | .stopped _ => h

end MetalHost

inductive MetalAct
  | start (spec : RentalSpec)
  | stop (rentalId : Int)
  | turn (i : Nat) (failure : Option String)
  | runningRentals
  /-- a process ends by itself -/
  | exit (child : Nat)
  /-- the agent ends, and starts again with an empty table -/
  | restart

def MetalHost.step (text : TaskError → String) (h : MetalHost) : MetalAct → MetalHost
  | .start spec => { h with calls := h.calls ++ [.start spec] }
  | .stop rentalId => { h with calls := h.calls ++ [.remove rentalId] }
  | .turn i failure =>
    match h.calls[i]? with
    | none => h
    | some c => h.turn text i failure c
  | .runningRentals => { h with jobs := h.runningRentals.2 }
  | .exit child => { h with workers := h.quit child }
  | .restart => { h with jobs := [], calls := [] }

end GpuMarket
