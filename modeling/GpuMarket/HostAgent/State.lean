import GpuMarket.Lib.Json
import GpuMarket.Lib.Run

namespace GpuMarket

open Lib Json

/-- What the agent keeps in its state file: who the host is, and what it was registered as. -/
structure AgentState where
  hostId : String
  machineId : Option Int := none
  agentToken : Option String := none
  deriving DecidableEq, Repr

/-- `serde_json::to_string_pretty` and `serde_json::from_str` at `AgentState`. -/
structure StateText where
  toStringPretty : AgentState → String
  fromStr : String → Option AgentState

namespace StateText

variable (text : StateText)

def RoundTrip : Prop := ∀ state, text.fromStr (text.toStringPretty state) = some state

/-- An object that is cut off is no JSON. -/
def Torn : Prop := ∀ state s, s.toList <+: (text.toStringPretty state).toList →
  s ≠ text.toStringPretty state → text.fromStr s = none

end StateText

inductive AgentProcess
  | down
  | saving (state : AgentState) (registered : Bool)
  | loaded (state : AgentState)
  | registering (state : AgentState)
  | serving (state : AgentState)
  deriving DecidableEq

def AgentProcess.state : AgentProcess → Option AgentState
  | .down => none
  | .saving state _ | .loaded state | .registering state | .serving state => some state

/-- A host: its state file, the process, the host ids that it has sent and the identities that it
has been given. -/
structure Agent where
  file : Option String := none
  process : AgentProcess := .down
  hostIds : List String := []
  identities : List AgentState := []

inductive AgentEvent
  /-- the process is started; `uuid` is what `new_v4` would give -/
  | start (uuid : String)
  /-- of the text that is being written this much is in the file -/
  | write (n : Nat)
  | saved
  | register
  | registered (machineId : Int) (agentToken : String)
  /-- the process ends: an error, a signal, a crash -/
  | exit

namespace Agent

variable (text : StateText)

/-- `fs::write` empties the file first. -/
def saveState (a : Agent) (state : AgentState) (registered : Bool) : Agent :=
  { a with file := some "", process := .saving state registered }

def loadOrInitState (a : Agent) (uuid : String) : Agent :=
  match a.file with
  | none => a.saveState { hostId := uuid } false
  | some raw =>
    match text.fromStr raw with
    | none => a
    | some state => { a with process := .loaded state }

/-- `main`, up to the heartbeat loop. -/
def step (a : Agent) (e : AgentEvent) : Agent :=
  match a.process, e with
  | .down, .start uuid => a.loadOrInitState text uuid
  | .saving state _, .write n =>
    { a with file := some (String.ofList ((text.toStringPretty state).toList.take n)) }
  | .saving state registered, .saved =>
    { a with
      file := some (text.toStringPretty state)
      process := if registered then .serving state else .loaded state }
  | .loaded state, .register =>
    { a with process := .registering state, hostIds := a.hostIds ++ [state.hostId] }
  | .registering state, .registered machineId agentToken =>
    let state := { state with machineId := some machineId, agentToken := some agentToken }
    { a.saveState state true with identities := a.identities ++ [state] }
  | _, .exit => { a with process := .down }
  | _, _ => a

/-- The process ends in the middle of a save. -/
def Tears (a : Agent) (e : AgentEvent) : Prop :=
  e = .exit ∧ ∃ state registered, a.process = .saving state registered ∧
    a.file ≠ some (text.toStringPretty state)

def Startable (a : Agent) : Prop :=
  a.process = .down → ∀ uuid, (a.step text (.start uuid)).process ≠ .down

/-- What an event does to a host. -/
inductive Step (text : StateText) (a : Agent) : AgentEvent → Agent → Prop
  | idle {e : AgentEvent} (h : e ≠ .exit) : Step text a e a
  | init {uuid : String} (hdown : a.process = .down) (hfile : a.file = none) :
    Step text a (.start uuid) (a.saveState { hostId := uuid } false)
  | load {uuid raw : String} {state : AgentState} (hdown : a.process = .down)
    (hfile : a.file = some raw) (hraw : text.fromStr raw = some state) :
    Step text a (.start uuid) { a with process := .loaded state }
  | write {state : AgentState} {registered : Bool} (hsaving : a.process = .saving state registered)
    {n : Nat} : Step text a (.write n)
      { a with file := some (String.ofList ((text.toStringPretty state).toList.take n)) }
  | saved {state : AgentState} {registered : Bool} (hsaving : a.process = .saving state registered) :
    Step text a .saved
      { a with
        file := some (text.toStringPretty state)
        process := if registered then .serving state else .loaded state }
  | register {state : AgentState} (hloaded : a.process = .loaded state) :
    Step text a .register
      { a with process := .registering state, hostIds := a.hostIds ++ [state.hostId] }
  | registered {state : AgentState} (hregistering : a.process = .registering state)
    {machineId : Int} {agentToken : String} :
    Step text a (.registered machineId agentToken)
      { a with
        file := some ""
        process := .saving
          { state with machineId := some machineId, agentToken := some agentToken } true
        identities := a.identities ++
          [{ state with machineId := some machineId, agentToken := some agentToken }] }
  | exit : Step text a .exit { a with process := .down }

variable {text : StateText} {a a' : Agent} {e : AgentEvent}

theorem step_spec (text : StateText) (a : Agent) (e : AgentEvent) :
    a.Step text e (a.step text e) := by
  unfold step
  split
  case h_1 uuid hdown =>
    unfold loadOrInitState
    split
    case h_1 hfile => exact .init hdown hfile
    case h_2 raw hfile =>
      split
      case h_1 => exact .idle (by simp)
      case h_2 state hraw => exact .load hdown hfile hraw
  case h_2 hsaving => exact .write hsaving
  case h_3 hsaving => exact .saved hsaving
  case h_4 hloaded => exact .register hloaded
  case h_5 hregistering => exact .registered hregistering
  case h_6 => exact .exit
  case h_7 hexit _ _ _ _ _ => exact .idle fun he => hexit he

/-- The file is the text of what the process holds, or was holding last, and while it is being
saved the beginning of that text. -/
def Sound (text : StateText) (a : Agent) : Prop :=
  match a.process with
  | .down => a.file = none ∨ ∃ state, a.file = some (text.toStringPretty state)
  | .saving state _ => ∃ s, a.file = some s ∧ s.toList <+: (text.toStringPretty state).toList
  | .loaded state | .registering state | .serving state =>
    a.file = some (text.toStringPretty state)

theorem Sound.startable (htext : text.RoundTrip) (h : a.Sound text) : a.Startable text := by
  intro hdown uuid
  simp only [Sound, hdown] at h
  simp only [step, hdown]
  rcases h with hfile | ⟨state, hfile⟩
  · simp [loadOrInitState, hfile, saveState]
  · simp [loadOrInitState, hfile, htext state]

theorem take_prefix (state : AgentState) (n : Nat) :
    (String.ofList ((text.toStringPretty state).toList.take n)).toList <+:
      (text.toStringPretty state).toList := by
  rw [String.toList_ofList]
  exact List.take_prefix _ _

theorem Sound.step (htext : text.RoundTrip) (h : a.Sound text) (hwhole : ¬a.Tears text e) :
    (a.step text e).Sound text := by
  have hstep := step_spec text a e
  generalize a.step text e = a' at hstep
  cases hstep with
  | idle => exact h
  | init => exact ⟨"", rfl, List.nil_prefix⟩
  | load hdown hfile hraw =>
    simp only [Sound, hdown, hfile] at h
    obtain hnone | ⟨state', hstate⟩ := h
    · cases hnone
    · cases hstate
      rw [htext] at hraw
      cases hraw
      exact hfile
  | @write state registered hsaving n =>
    simp only [Sound, hsaving]
    exact ⟨_, rfl, take_prefix state n⟩
  | @saved state registered hsaving => cases registered <;> rfl
  | register hloaded =>
    simp only [Sound, hloaded] at h
    exact h
  | registered => exact ⟨"", rfl, List.nil_prefix⟩
  | exit =>
    cases hprocess : a.process with
    | down =>
      simp only [Sound, hprocess] at h
      exact h
    | saving state registered =>
      have hfile : a.file = some (text.toStringPretty state) := by
        by_contra hfile
        exact hwhole ⟨rfl, state, registered, hprocess, hfile⟩
      exact .inr ⟨state, hfile⟩
    | loaded state | registering state | serving state =>
      simp only [Sound, hprocess] at h
      exact .inr ⟨state, h⟩

theorem Sound.torn (htorn : text.Torn) (h : a.Sound text) (htears : a.Tears text e) :
    ¬(a.step text e).Startable text := by
  obtain ⟨rfl, state, registered, hsaving, hfile⟩ := htears
  simp only [Sound, hsaving] at h
  obtain ⟨s, hs, hpre⟩ := h
  have hcut : text.fromStr s = none := htorn state s hpre fun heq => hfile (hs.trans (by rw [heq]))
  have hexit : a.step text .exit = { a with process := .down } := by simp only [Agent.step, hsaving]
  rw [hexit]
  intro hstart
  refine hstart rfl "" ?_
  simp [Agent.step, loadOrInitState, hs, hcut]

theorem locked_out (h : ¬a.Startable text) (e : AgentEvent) : a.step text e = a := by
  simp only [Startable, not_forall, not_not] at h
  obtain ⟨hdown, uuid, hstart⟩ := h
  cases e with
  | start uuid' =>
    simp only [step, hdown] at hstart ⊢
    unfold loadOrInitState at hstart ⊢
    split at hstart
    case h_1 => cases hstart
    case h_2 raw hfile =>
      split at hstart
      case h_1 hraw => rfl
      case h_2 => cases hstart
  | exit =>
    simp only [step, hdown]
    exact congrArg (fun process => { a with process }) hdown.symm
  | _ => simp [step, hdown]

structure Owns (text : StateText) (id : String) (a : Agent) : Prop where
  process : ∀ state ∈ a.process.state, state.hostId = id
  file : ∃ raw state, a.file = some raw ∧ state.hostId = id ∧
    raw.toList <+: (text.toStringPretty state).toList
  hostIds : ∀ h ∈ a.hostIds, h = id
  identities : ∀ state ∈ a.identities, state.hostId = id

structure Fresh (a : Agent) : Prop where
  process : a.process = .down
  file : a.file = none
  hostIds : a.hostIds = []
  identities : a.identities = []

theorem Owns.loaded {id : String} (htext : text.RoundTrip) (htorn : text.Torn)
    (h : a.Owns text id) {raw : String} {state : AgentState} (hfile : a.file = some raw)
    (hraw : text.fromStr raw = some state) : state.hostId = id := by
  obtain ⟨raw', state', hraw', hid, hpre⟩ := h.file
  cases hfile.symm.trans hraw'
  by_cases hwhole : raw = text.toStringPretty state'
  · rw [hwhole, htext] at hraw
    cases hraw
    exact hid
  · rw [htorn state' raw hpre hwhole] at hraw
    cases hraw

theorem Owns.step {id : String} (htext : text.RoundTrip) (htorn : text.Torn) (h : a.Owns text id)
    (hstep : a.Step text e a') : a'.Owns text id := by
  cases hstep with
  | idle => exact h
  | init hdown hfile =>
    obtain ⟨raw, state, hraw, -⟩ := h.file
    cases hfile.symm.trans hraw
  | @load uuid raw state hdown hfile hraw =>
    have hid := h.loaded htext htorn hfile hraw
    refine { h with process := ?_ }
    intro state' hstate
    cases hstate
    exact hid
  | @write state registered hsaving n =>
    have hid : state.hostId = id := h.process state (by rw [hsaving]; rfl)
    exact { h with file := ⟨_, state, rfl, hid, take_prefix state n⟩ }
  | @saved state registered hsaving =>
    have hid : state.hostId = id := h.process state (by rw [hsaving]; rfl)
    refine { h with process := ?_, file := ⟨_, state, rfl, hid, List.prefix_rfl⟩ }
    intro state' hstate
    cases registered
    all_goals
      cases hstate
      exact hid
  | @register state hloaded =>
    have hid : state.hostId = id := h.process state (by rw [hloaded]; rfl)
    refine { h with process := ?_, hostIds := ?_ }
    · intro state' hstate
      cases hstate
      exact hid
    · intro i hi
      rcases List.mem_append.mp hi with hi | hi
      · exact h.hostIds i hi
      · exact (List.mem_singleton.mp hi).trans hid
  | @registered state hregistering machineId agentToken =>
    have hid : state.hostId = id := h.process state (by rw [hregistering]; rfl)
    refine { h with process := ?_, file := ?_, identities := ?_ }
    · intro state' hstate
      cases hstate
      exact hid
    · exact ⟨"", state, rfl, hid, List.nil_prefix⟩
    · intro state' hstate
      rcases List.mem_append.mp hstate with hstate | hstate
      · exact h.identities state' hstate
      · rw [List.mem_singleton.mp hstate]
        exact hid
  | exit =>
    refine { h with process := ?_ }
    intro state' hstate
    cases hstate

theorem Fresh.step (h : a.Fresh) (hstep : a.Step text e a') : a'.Fresh ∨ ∃ id, a'.Owns text id := by
  cases hstep with
  | idle => exact .inl h
  | @init uuid hdown hfile =>
    refine .inr ⟨uuid, ?_, ?_, ?_, ?_⟩
    · intro state hstate
      cases hstate
      rfl
    · exact ⟨"", { hostId := uuid }, rfl, rfl, List.nil_prefix⟩
    · intro i hi
      rw [show (a.saveState { hostId := uuid } false).hostIds = a.hostIds from rfl, h.hostIds] at hi
      cases hi
    · intro state hstate
      rw [show (a.saveState { hostId := uuid } false).identities = a.identities from rfl,
        h.identities] at hstate
      cases hstate
  | load hdown hfile =>
    rw [h.file] at hfile
    cases hfile
  | write hprocess | saved hprocess | register hprocess | registered hprocess =>
    rw [h.process] at hprocess
    cases hprocess
  | exit => exact .inl ⟨rfl, h.file, h.hostIds, h.identities⟩

/-- A host registers under one id for all its life, whatever tears. -/
theorem run_owns (htext : text.RoundTrip) (htorn : text.Torn) (es : List AgentEvent) :
    (run (step text) {} es).Fresh ∨ ∃ id, (run (step text) {} es).Owns text id := by
  refine run_invariant (I := fun a : Agent => a.Fresh ∨ ∃ id, a.Owns text id) (fun a e h => ?_)
    (.inl ⟨rfl, rfl, rfl, rfl⟩) es
  rcases h with h | ⟨id, h⟩
  · exact h.step (step_spec text a e)
  · exact .inr ⟨id, h.step htext htorn (step_spec text a e)⟩

theorem run_locked_out (h : ¬a.Startable text) (es : List AgentEvent) :
    run (step text) a es = a :=
  run_invariant (I := fun a' => a' = a) (fun _ e ha => ha ▸ locked_out h e) rfl es

end Agent

/-- A host keeps the host id that it has drawn, whatever happens to its agent. The agent can be
started again and again exactly as long as it never ends before a save is complete; after that, no
start changes anything any more. -/
theorem host_id_for_life {text : StateText} (htext : text.RoundTrip) (htorn : text.Torn)
    (es : List AgentEvent) :
    (∀ h ∈ (run (Agent.step text) {} es).hostIds, ∀ h' ∈ (run (Agent.step text) {} es).hostIds,
      h = h') ∧
    (Always (Agent.step text) (Agent.Startable text) {} es ↔
      Along (Agent.step text) (fun a e => ¬a.Tears text e) {} es) ∧
    (¬(run (Agent.step text) {} es).Startable text → ∀ more,
      run (Agent.step text) {} (es ++ more) = run (Agent.step text) {} es) := by
  refine ⟨?_, ?_, ?_⟩
  · rcases Agent.run_owns htext htorn es with hfresh | ⟨id, howns⟩
    · intro h hh
      rw [hfresh.hostIds] at hh
      cases hh
    · intro h hh h' hh'
      rw [howns.hostIds h hh, howns.hostIds h' hh']
  · have fresh : Agent.Sound text {} := Or.inl rfl
    exact always_iff_along (fun _ h => h.startable htext) (fun _ _ h hwhole => h.step htext hwhole)
      (fun _ _ h htears => h.torn htorn (not_not.mp htears)) fresh es
  · intro h more
    rw [run_append]
    exact Agent.run_locked_out h more

section Text

def writeLine (before : Char) (name : String) : List Char :=
  before :: Char.ofNat 0x0A :: ' ' :: ' ' :: writeString name ++ [':', ' ']

def writeEnd : List Char := [Char.ofNat 0x0A, closeBrace]

def writeNullable (write : α → List Char) : Option α → List Char
  | none => "null".toList
  | some a => write a

namespace AgentState

def write (state : AgentState) : List Char :=
  writeLine openBrace "host_id" ++ (writeString state.hostId ++
    (writeLine ',' "machine_id" ++ (writeNullable writeInt state.machineId ++
      (writeLine ',' "agent_token" ++ (writeNullable writeString state.agentToken ++ writeEnd)))))

def read (s : List Char) : Option AgentState := do
  let s ← expect (writeLine openBrace "host_id") s
  let (hostId, s) ← readString s
  let s ← expect (writeLine ',' "machine_id") s
  let (machineId, s) ← readNullable readInt s
  let s ← expect (writeLine ',' "agent_token") s
  let (agentToken, s) ← readNullable readString s
  if s = writeEnd then some { hostId, machineId, agentToken } else none

end AgentState

theorem readNullable_writeNullable {read : List Char → Option (α × List Char)}
    {write : α → List Char} {rest : List Char}
    (hread : ∀ a, read (write a ++ rest) = some (a, rest))
    (hwrite : ∀ a, (write a ++ rest).head? ≠ some 'n') (v : Option α) :
    readNullable read (writeNullable write v ++ rest) = some (v, rest) := by
  unfold readNullable
  cases v with
  | none => rw [writeNullable, expect_append]
  | some a =>
    have other : expect "null".toList (write a ++ rest) = none := by
      cases hw : write a ++ rest with
      | nil => rfl
      | cons c s =>
        have hc : c ≠ 'n' := fun h => hwrite a (by rw [hw, h]; rfl)
        simp [expect, Ne.symm hc]
    rw [writeNullable, other, hread]
    rfl

theorem expect_ne_nil {text s rest : List Char} (htext : text ≠ []) (h : expect text s = some rest) :
    s ≠ [] := by
  rintro rfl
  obtain ⟨hpre, -⟩ := Option.ite_none_right_eq_some.mp h
  exact htext (List.prefix_nil.mp (List.isPrefixOf_iff_prefix.mp hpre))

namespace AgentState

theorem read_write (state : AgentState) : read (write state) = some state := by
  have digits : ∀ (n : Int) (s : List Char),
      readInt (writeInt n ++ (writeLine ',' "agent_token" ++ s)) =
        some (n, writeLine ',' "agent_token" ++ s) := by
    intro n s
    refine readInt_writeInt n fun c hc => ?_
    cases hc
    decide
  have number : ∀ (n : Int) (s : List Char), (writeInt n ++ s).head? ≠ some 'n' := by
    intro n s h
    cases n with
    | ofNat m =>
      cases hw : writeNat m with
      | nil => exact absurd hw Nat.toDigits_ne_nil
      | cons c cs =>
        have hc := isDigit_of_mem_writeNat (n := m) (c := c) (by simp [hw])
        rw [writeInt, hw] at h
        cases h
        exact absurd hc (by decide)
    | negSucc m => cases h
  have hmachine := fun s => readNullable_writeNullable
    (digits · s) (number · _) state.machineId
  have htoken := readNullable_writeNullable (readString_writeString · writeEnd)
    (by intro t h; cases h) state.agentToken
  simp [read, write, expect_append, readString_writeString, hmachine, htoken]

theorem read_append {s q : List Char} {state : AgentState} (h : read s = some state)
    (hq : q ≠ []) : read (s ++ q) = none := by
  simp only [read, Option.bind_eq_bind, Option.bind_eq_some_iff] at h
  obtain ⟨s₁, h₁, ⟨hostId, s₂⟩, h₂, s₃, h₃, ⟨machineId, s₄⟩, h₄, s₅, h₅, ⟨agentToken, s₆⟩, h₆, h⟩ := h
  obtain ⟨rfl, -⟩ := Option.ite_none_right_eq_some.mp h
  have hnull : ∀ s, readInt ('n' :: s) = none ∧ readString ('n' :: s) = none :=
    fun _ => ⟨rfl, rfl⟩
  have r₁ := expect_append_right q h₁
  have r₂ := readString_stops q h₂ (expect_ne_nil (List.cons_ne_nil _ _) h₃)
  have r₃ := expect_append_right q h₃
  have r₄ := readNullable_stops readInt_stops rfl (hnull · |>.1) q h₄
    (expect_ne_nil (List.cons_ne_nil _ _) h₅)
  have r₅ := expect_append_right q h₅
  have r₆ := readNullable_stops readString_stops rfl (hnull · |>.2) q h₆ (List.cons_ne_nil _ _)
  have hend : writeEnd ++ q ≠ writeEnd := by simpa using hq
  simp [read, r₁, r₂, r₃, r₄, r₅, r₆, hend]

end AgentState

def StateText.json : StateText where
  toStringPretty state := String.ofList state.write
  fromStr s := AgentState.read s.toList

theorem StateText.json_roundTrip : StateText.json.RoundTrip := by
  intro state
  simp [json, AgentState.read_write]

theorem StateText.json_torn : StateText.json.Torn := by
  intro state s hpre hne
  obtain ⟨q, hq⟩ := hpre
  simp only [json, String.toList_ofList] at hq
  have hcut : q ≠ [] := by
    rintro rfl
    rw [List.append_nil] at hq
    refine hne ?_
    simp only [json]
    rw [← hq, String.ofList_toList]
  cases hread : AgentState.read s.toList with
  | none => exact hread
  | some state' =>
    have hnone := AgentState.read_append hread hcut
    rw [hq, AgentState.read_write] at hnone
    cases hnone

end Text

/-- An agent that ends while it saves what it has been registered as. -/
def tornLife : List AgentEvent :=
  [.start "h-1", .saved, .register, .registered 1 "agt_1", .write 20, .exit]

theorem host_id_for_life_torn :
    ¬Always (Agent.step .json) (Agent.Startable .json) {} tornLife ∧
      run (Agent.step .json) {} (tornLife ++ [.start "h-2", .saved, .register]) =
        run (Agent.step .json) {} tornLife := by
  have life := host_id_for_life StateText.json_roundTrip StateText.json_torn tornLife
  have torn : ¬(run (Agent.step .json) {} tornLife).Startable .json := by
    intro h
    exact h (by decide +kernel) "" (by decide +kernel)
  exact ⟨fun h => torn (h tornLife List.prefix_rfl), life.2.2 torn _⟩

end GpuMarket
