import GpuMarket.HostAgent.State
import GpuMarket.Marketplace.Identity

namespace GpuMarket

open Lib

def Agent.Heard (env : Env) (acts : List ServerAct) (a : Agent) (e : AgentEvent) : Prop :=
  ∀ state machineId agentToken, a.process = .registering state →
    e = .registered machineId agentToken →
      ∃ n req, Registered env acts n req (.registered machineId agentToken) ∧
        req.hostId = state.hostId

def AgentState.Names (db : Db) (state : AgentState) : Prop :=
  ∃ m ∈ db.machines.rows, m.hostId = state.hostId ∧ state.machineId = some m.id ∧
    state.agentToken = some m.agentToken

def Agent.Issued (a : Agent) : Prop :=
  ∀ state, a.process = .serving state ∨ a.process = .saving state true → state ∈ a.identities

theorem Agent.Issued.step {text : StateText} {a a' : Agent} {e : AgentEvent} (h : a.Issued)
    (hstep : a.Step text e a') : a'.Issued := by
  cases hstep with
  | idle => exact h
  | init | load | register | exit =>
    rintro state (hstate | hstate)
    all_goals cases hstate
  | write hsaving =>
    rintro state (hstate | hstate)
    · exact h state (.inl hstate)
    · exact h state (.inr hstate)
  | @saved state registered hsaving =>
    rintro state' (hstate | hstate)
    all_goals
      cases registered
      all_goals cases hstate
    exact h state (.inr hsaving)
  | registered =>
    rintro state' (hstate | hstate)
    all_goals cases hstate
    exact List.mem_append_right _ (List.mem_singleton.mpr rfl)

theorem Agent.names_step {env : Env} {acts : List ServerAct} {text : StateText} {a a' : Agent}
    {e : AgentEvent} (h : ∀ state ∈ a.identities, state.Names (serve env acts).store)
    (hheard : a.Heard env acts e) (hstep : a.Step text e a') :
    ∀ state ∈ a'.identities, state.Names (serve env acts).store := by
  cases hstep with
  | @registered state hregistering machineId agentToken =>
    intro state' hstate
    rcases List.mem_append.mp hstate with hstate | hstate
    · exact h state' hstate
    · obtain ⟨n, req, hreg, hid⟩ := hheard state machineId agentToken hregistering rfl
      obtain ⟨m, hm, hhost, hreply⟩ := hreg.row
      cases hreply
      rw [List.mem_singleton.mp hstate]
      exact ⟨m, hm, hhost.trans hid, rfl, rfl⟩
  | _ => exact h

/-- Whatever happens to the agent and to the control plane, a host is one machine for all its life:
whenever it is registered it is given the same machine and the same token, and what it serves with
is good for that machine ever after. -/
theorem one_machine_for_life {text : StateText} (htext : text.RoundTrip) (htorn : text.Torn)
    {env : Env} {acts : List ServerAct} {es : List AgentEvent}
    (hheard : Along (Agent.step text) (Agent.Heard env acts) {} es) :
    (∀ state ∈ (run (Agent.step text) {} es).identities,
      ∀ state' ∈ (run (Agent.step text) {} es).identities, state = state') ∧
    ∀ state, (run (Agent.step text) {} es).process = .serving state → ∀ more,
      ∃ token, state.agentToken = some token ∧
        ∃ m, authenticate (serve env (acts ++ more)).store (bearerAuth token) = .ok m ∧
          state.machineId = some m.id ∧ m.hostId = state.hostId := by
  have names : ∀ state ∈ (run (Agent.step text) {} es).identities,
      state.Names (serve env acts).store :=
    run_invariant_along
      (I := fun a : Agent => ∀ state ∈ a.identities, state.Names (serve env acts).store)
      (fun a e h hheard => Agent.names_step h hheard (Agent.step_spec text a e))
      (fun _ hstate => absurd hstate List.not_mem_nil) es hheard
  have issued : (run (Agent.step text) {} es).Issued :=
    run_invariant (I := Agent.Issued) (fun a e h => h.step (Agent.step_spec text a e))
      (by rintro state (hstate | hstate) <;> cases hstate) es
  have owned : ∃ id, ∀ state ∈ (run (Agent.step text) {} es).identities, state.hostId = id := by
    rcases Agent.run_owns htext htorn es with hfresh | ⟨id, howns⟩
    · exact ⟨"", by rw [hfresh.identities]; exact fun _ h => absurd h List.not_mem_nil⟩
    · exact ⟨id, howns.identities⟩
  obtain ⟨-, hhosts⟩ := serve_unique env acts
  constructor
  · intro state hstate state' hstate'
    obtain ⟨id, hids⟩ := owned
    obtain ⟨m, hm, hhost, hmachine, htoken⟩ := names state hstate
    obtain ⟨m', hm', hhost', hmachine', htoken'⟩ := names state' hstate'
    have hsame : state.hostId = state'.hostId := (hids state hstate).trans (hids state' hstate').symm
    obtain rfl := List.inj_on_of_nodup_map hhosts hm hm' (hhost.trans (hsame.trans hhost'.symm))
    obtain ⟨hostId, machineId, agentToken⟩ := state
    obtain ⟨hostId', machineId', agentToken'⟩ := state'
    simp_all
  · intro state hserving more
    obtain ⟨m, hm, hhost, hmachine, htoken⟩ := names state (issued state (.inl hserving))
    obtain ⟨m', hm', hsame⟩ := (serve_extends env acts more).machine hm
    have hid : m'.id = m.id := congrArg Prod.fst hsame
    have htoken' : m'.agentToken = m.agentToken := congrArg (·.2.1) hsame
    have hhost' : m'.hostId = m.hostId := congrArg (·.2.2.1) hsame
    obtain ⟨htokens, -⟩ := serve_unique env (acts ++ more)
    obtain ⟨m'', hauth, hid'⟩ := htokens.authenticate ⟨m', hm', rfl⟩
    obtain rfl := Table.eq_of_key_eq (authenticate_ok hauth).1 hm' hid'
    exact ⟨m.agentToken, htoken, m'', htoken' ▸ hauth, hmachine.trans (by rw [hid]),
      hhost'.trans hhost⟩

/-- A host that registers, is restarted and registers again. -/
def twoLives : List AgentEvent :=
  [.start "host-1", .saved, .register, .registered 1 "agt_1", .saved, .exit, .start "host-2",
    .register, .registered 1 "agt_1", .saved]

def twoRegistrations : List ServerAct :=
  call 0 (.register testHost) [{}, { token := "agt_1" }] ++
    call 1 (.register testHost) [{}, { token := "agt_2" }]

def Agent.Told (a : Agent) (e : AgentEvent) : Bool :=
  match a.process, e with
  | .registering state, .registered machineId agentToken =>
    state.hostId = "host-1" && machineId = 1 && agentToken = "agt_1"
  | _, _ => true

theorem one_machine_for_life_restarted :
    ∃ token, some "agt_1" = some token ∧
      ∃ m, authenticate (serve testEnv twoRegistrations).store (bearerAuth token) = .ok m ∧
        some 1 = some m.id ∧ m.hostId = "host-1" := by
  have first : Registered testEnv twoRegistrations 0 testHost (.registered 1 "agt_1") :=
    ⟨rfl, rfl⟩
  have heard : Along (Agent.step .json) (Agent.Heard testEnv twoRegistrations) {} twoLives := by
    have told : Along (Agent.step .json) (fun a e => a.Told e = true) {} twoLives := by
      decide +kernel
    intro pre e hpre state machineId agentToken hprocess he
    have hsame := told pre e hpre
    simp only [Agent.Told, hprocess, he, Bool.and_eq_true, decide_eq_true_eq] at hsame
    obtain ⟨⟨hhost, rfl⟩, rfl⟩ := hsame
    exact ⟨0, testHost, first, hhost.symm⟩
  have serving : (run (Agent.step .json) {} twoLives).process =
      .serving ⟨"host-1", some 1, some "agt_1"⟩ := by decide +kernel
  have life := one_machine_for_life StateText.json_roundTrip StateText.json_torn heard
  simpa using life.2 _ serving []

end GpuMarket
