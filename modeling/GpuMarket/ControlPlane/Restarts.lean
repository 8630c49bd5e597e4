import GpuMarket.ControlPlane.Contract
import GpuMarket.ControlPlane.Mock

namespace GpuMarket

open Lib

/-- A call of `create_invoice`: the process that makes it, and the place of its request in it. -/
structure Call where
  process : Nat
  request : Nat
  deriving DecidableEq

/-- The control plane with the mock backend.  The database outlives the process, the backend and
the requests do not. -/
structure Node where
  conf : ServerConf
  backend : MockBackend
  /-- how many processes there have been before this one -/
  process : Nat
  /-- the database as this process has opened it -/
  opened : Db
  /-- the calls that this process has made, with the hashes they returned, latest first -/
  calls : List (String × Call)
  /-- the call that each row of the invoices is from -/
  origin : List (String × Call)

inductive NodeAct : Type
  | serve (a : ServerAct) (instant : Int)
  | restart (settleDelay : Nat)

namespace Node

def creating (s : Node) (n : Nat) : Option DepositRequest :=
  match s.conf.threads[n]? with
  | some (.depositInvoice _ req) => some req
  | _ => none

def asking (s : Node) : Option String :=
  match s.conf.daemon with
  | .poll (p :: _) => some p.paymentHash
  | _ => none

def answered (s : Node) (instant : Int) : ServerAct → ServerAct
  | .request r => .request r
  | .thread n i =>
    .thread n { i with
      invoice := (s.creating n).map fun req => (s.backend.createInvoice req.sats instant).1
      paid := true }
  | .daemon i => .daemon { i with settled := s.asking.map (s.backend.isSettled · instant) }

def originAfter (s : Node) (n : Nat) : List (String × Call) :=
  match s.conf.threads[n]? with
  | some (.depositInsert id req invoice now) =>
    match depositTx id req invoice now s.conf.store with
    | .ok _ => (invoice.paymentHash, ⟨s.process, n⟩) :: s.origin
    | .error _ => s.origin
  | _ => s.origin

def create (s : Node) (n : Nat) (req : DepositRequest) (instant : Int) : Node :=
  let (invoice, backend) := s.backend.createInvoice req.sats instant
  { s with backend, calls := (invoice.paymentHash, ⟨s.process, n⟩) :: s.calls }

def effect (s : Node) (instant : Int) : ServerAct → Node
  | .thread n i =>
    if i.fails.isSome then s
    else
      match s.creating n with
      | some req => s.create n req instant
      | none => { s with origin := s.originAfter n }
  | .request _ | .daemon _ => s

def step (env : Env) (s : Node) : NodeAct → Node
  | .serve a instant =>
    { s.effect instant a with conf := (server env).step s.conf (s.answered instant a) }
  | .restart settleDelay =>
    { s with
      conf := { s.conf with daemon := .idle, threads := [] }
      backend := .new settleDelay
      process := s.process + 1
      opened := s.conf.store
      calls := [] }

def init (settleDelay : Nat) : Node := ⟨.init, .new settleDelay, 0, .empty, [], []⟩

def Creates (s : Node) (n : Nat) (req : DepositRequest) (instant : Int) (a : NodeAct) : Prop :=
  ∃ i, a = .serve (.thread n i) instant ∧ i.fails = none ∧ s.creating n = some req

/-- What deposits may rely on in one step: the hash of a new invoice is not stored yet, neither when
the backend returns it nor when its row is inserted, and an invoice that is found settled is so by
the call that its row is from. -/
structure Sound (s : Node) (a : NodeAct) : Prop where
  fresh : ∀ n req instant, s.Creates n req instant a →
    ¬s.conf.store.invoices.Has (s.backend.createInvoice req.sats instant).1.paymentHash
  inserted : ∀ n i instant id req invoice now, a = .serve (.thread n i) instant → i.fails = none →
    s.conf.threads[n]? = some (.depositInsert id req invoice now) → s.conf.store.accounts.Has id →
      ∃ r, depositTx id req invoice now s.conf.store = .ok r
  credited : ∀ i instant hash, a = .serve (.daemon i) instant → i.fails = none →
    s.asking = some hash → s.backend.isSettled hash instant = true →
      ∃ call, s.calls.lookup hash = some call ∧ s.origin.lookup hash = some call

/-- A call of `create_invoice` is one of the first `2 ^ 64` of its process, and its number is not
that of an invoice that the process has found in the database. -/
def NewNumber (s : Node) (a : NodeAct) : Prop :=
  ∀ n req instant, s.Creates n req instant a →
    s.calls.length < 2 ^ 64 ∧
      ¬s.opened.invoices.Has (hex64 ((s.calls.length + 1) % 2 ^ 64))

end Node

section Server

variable {env : Env} {c : ServerConf} {a : ServerAct}

theorem Request.next_depositInsert {i : Input} {db : Db} {r : Request} {id : String}
    {req : DepositRequest} {invoice : Invoice} {now : Int} :
    r.next db i ≠ .read (.depositInsert id req invoice now) := by
  intro h
  cases r with
  | register req => simp only [next] at h; split at h <;> cases h
  | createAccount | createRental => cases h
  | heartbeat auth req | report auth req => obtain ⟨e, h⟩ | ⟨_, -, h⟩ := fetch_eq_read h <;> cases h
  | rate auth req | payout auth req | deposit id req =>
    obtain ⟨e, h⟩ | ⟨_, -, h⟩ := fetch_eq_read h
    · cases h
    · obtain ⟨e, h⟩ | ⟨_, -, h⟩ := fetch_eq_read h <;> cases h
  | deleteRental id =>
    obtain ⟨e, h⟩ | ⟨_, -, h⟩ := fetch_eq_read h
    · cases h
    · split at h <;> cases h

theorem Thread.next_depositInsert {i : Input} {db : Db} {t : Thread} {id : String}
    {req : DepositRequest} {invoice : Invoice} {now : Int}
    (h : t.next i db = .read (.depositInsert id req invoice now)) :
    t = .depositInvoice id req ∧ i.invoice = some invoice := by
  cases t with
  | received r => exact absurd h Request.next_depositInsert
  | reportRead machine req => obtain ⟨e, h⟩ | ⟨_, -, h⟩ := fetch_eq_read h <;> cases h
  | payoutPay machine req => simp only [next] at h; split at h <;> cases h
  | depositInvoice id req =>
    simp only [next] at h
    split at h
    case h_1 => cases h
    case h_2 hinvoice =>
      cases h
      exact ⟨rfl, hinvoice⟩
  | _ => cases h

theorem Thread.next_deposit {i : Input} {db : Db} {t : Thread} {id : String}
    {req : DepositRequest} {invoice : Invoice} {now : Int}
    (hn : t.next i db = .commit (.deposit id req invoice now)) :
    t = .depositInsert id req invoice now := by
  cases t with
  | received r =>
    rcases Request.next_commit hn with h | ⟨q, h⟩
    all_goals cases h
  | reportRead machine req => obtain ⟨r, -, hn⟩ := fetch_eq_commit.mp hn; cases hn
  | payoutPay machine req => simp only [next] at hn; split at hn <;> cases hn
  | depositInvoice id req => simp only [next] at hn; split at hn <;> cases hn
  | _ => cases hn <;> rfl

theorem Txn.rewriteInvoice_hash (txn : Txn) (i : InvoiceRow) :
    (txn.rewriteInvoice i).paymentHash = i.paymentHash := by
  unfold rewriteInvoice
  split
  case h_1 => split <;> rfl
  case h_2 => rfl

theorem hasInvoice_of_step {hash : String} (h : ((server env).step c a).store.invoices.Has hash) :
    c.store.invoices.Has hash ∨ ∃ n i id req invoice now r, a = .thread n i ∧ i.fails = none ∧
      c.threads[n]? = some (.depositInsert id req invoice now) ∧ invoice.paymentHash = hash ∧
      depositTx id req invoice now c.store = .ok r := by
  obtain ⟨hstore, -⟩ | ⟨txn, v, hc, hx, -⟩ := (server env).step_store c a
  · exact .inl (hstore ▸ h)
  · obtain ⟨new, hrows, hnew⟩ := exec_invoices hx
    obtain ⟨row, hrow, rfl⟩ := h
    rw [hrows] at hrow
    rcases List.mem_append.mp hrow with hold | hrow
    · obtain ⟨row₀, hrow₀, rfl⟩ := List.mem_map.mp hold
      exact .inl ⟨row₀, hrow₀, (txn.rewriteInvoice_hash row₀).symm⟩
    · obtain ⟨-, id, req, invoice, now, rfl, hhash⟩ := hnew row hrow
      cases a with
      | request r => cases hc
      | daemon i =>
        obtain ⟨_, _, _, h, -⟩ | ⟨i, -, -, hn⟩ := (server env).commits_cases hc
        · cases h
        · obtain ⟨_, _, _, -, h⟩ | ⟨-, h⟩ | ⟨_, _, _, -, h⟩ := Ticker.next_commit hn <;> cases h
      | thread n i =>
        obtain ⟨t, ht, hf, hn⟩ := (server env).commits_thread hc
        obtain rfl := Thread.next_deposit hn
        exact .inr ⟨n, i, id, req, invoice, now, _, rfl, Option.map_eq_none_iff.mp hf, ht,
          hhash.symm, hx⟩

theorem depositInsert_of_step {n : Nat} {id : String} {req : DepositRequest} {invoice : Invoice}
    {now : Int}
    (h : ((server env).step c a).threads[n]? = some (.depositInsert id req invoice now)) :
    (c.threads[n]? = some (.depositInsert id req invoice now) ∧ ∀ i, a ≠ .thread n i) ∨
      ∃ i, a = .thread n i ∧ i.fails = none ∧ c.threads[n]? = some (.depositInvoice id req) ∧
        i.invoice = some invoice := by
  have finish_ne : ∀ t r, Thread.finish t r ≠ .depositInsert id req invoice now := by
    intro t r h
    cases t <;> cases h
  cases a with
  | request r =>
    have hgrow : (c.threads ++ [.received r])[n]? = some (.depositInsert id req invoice now) := h
    refine .inl ⟨?_, fun i h => by cases h⟩
    rcases lt_or_ge n c.threads.length with hlt | hge
    · rwa [List.getElem?_append_left hlt] at hgrow
    · rw [List.getElem?_append_right hge] at hgrow
      obtain ⟨hlen, heq⟩ := List.getElem?_eq_some_iff.mp hgrow
      simp at heq
  | daemon i =>
    rw [(server env).step_daemon_threads] at h
    exact .inl ⟨h, fun i h => by cases h⟩
  | thread m i =>
    by_cases hm : m = n
    · subst hm
      obtain ⟨hnone, hsame⟩ | ⟨t, t', ht, hset, hnext⟩ :=
        (server env).step_thread_threads c m i
      · rw [hsame, hnone] at h
        cases h
      · rw [hset, List.getElem?_set_self (List.getElem?_eq_some_iff.mp ht).1] at h
        cases h
        obtain ⟨r, hfinish⟩ | ⟨hf, hn⟩ := hnext
        · exact absurd hfinish.symm (finish_ne t r)
        · obtain ⟨rfl, hinvoice⟩ := Thread.next_depositInsert hn
          exact .inr ⟨i, rfl, Option.map_eq_none_iff.mp hf, ht, hinvoice⟩
    · refine .inl ⟨?_, fun i h => hm ?_⟩
      · obtain ⟨-, hsame⟩ | ⟨t, t', -, hset, -⟩ := (server env).step_thread_threads c m i
        · rwa [hsame] at h
        · rwa [hset, List.getElem?_set_ne hm] at h
      · cases h
        rfl

end Server

namespace Node

structure Numbered (s : Node) : Prop where
  counter : s.backend.counter = (s.calls.length + 1) % 2 ^ 64
  short : s.calls.length ≤ 2 ^ 64
  hashes : ∀ e ∈ s.calls, ∃ k < s.calls.length, e.1 = hex64 ((k + 1) % 2 ^ 64)
  nodup : (s.calls.map (·.1)).Nodup
  entries : s.backend.settleAt.map (·.1) = s.calls.map (·.1)
  unopened : ∀ e ∈ s.calls, ¬s.opened.invoices.Has e.1

structure Placed (s : Node) : Prop where
  stored : ∀ hash, s.conf.store.invoices.Has hash → s.opened.invoices.Has hash ∨
    ∃ call, (hash, call) ∈ s.calls ∧ s.origin.lookup hash = some call
  pending : ∀ n id req invoice now,
    s.conf.threads[n]? = some (.depositInsert id req invoice now) →
      (invoice.paymentHash, ⟨s.process, n⟩) ∈ s.calls ∧
        ¬s.conf.store.invoices.Has invoice.paymentHash

theorem Numbered.unique {s : Node} (h : s.Numbered) {hash : String} {call call' : Call}
    (hc : (hash, call) ∈ s.calls) (hc' : (hash, call') ∈ s.calls) : call = call' :=
  congrArg Prod.snd (List.inj_on_of_nodup_map h.nodup hc hc' rfl)

theorem Numbered.fresh {s : Node} (h : s.Numbered) (hlt : s.calls.length < 2 ^ 64) {call : Call} :
    (hex64 s.backend.counter, call) ∉ s.calls := by
  intro hmem
  obtain ⟨k, hk, heq⟩ := h.hashes _ hmem
  rw [h.counter] at heq
  have hsame := hex64_counter_inj hlt (by omega) heq
  omega

theorem Numbered.create {s : Node} (h : s.Numbered) {n : Nat} {req : DepositRequest} {instant : Int}
    (hlt : s.calls.length < 2 ^ 64)
    (hnew : ¬s.opened.invoices.Has (hex64 ((s.calls.length + 1) % 2 ^ 64))) :
    (s.create n req instant).Numbered where
  counter := by
    simp only [Node.create, MockBackend.createInvoice, h.counter, List.length_cons]
    omega
  short := by
    simp only [Node.create, List.length_cons]
    omega
  hashes e he := by
    rcases List.mem_cons.mp he with rfl | he
    · exact ⟨s.calls.length, by simp [Node.create], congrArg hex64 h.counter⟩
    · obtain ⟨k, hk, heq⟩ := h.hashes e he
      exact ⟨k, Nat.lt_succ_of_lt hk, heq⟩
  nodup := by
    refine List.nodup_cons.mpr ⟨fun hmem => ?_, h.nodup⟩
    obtain ⟨⟨hash, call⟩, he, rfl⟩ := List.mem_map.mp hmem
    exact h.fresh hlt he
  entries := congrArg (List.cons _) h.entries
  unopened e he := by
    rcases List.mem_cons.mp he with rfl | he
    · rw [← h.counter] at hnew
      exact hnew
    · exact h.unopened e he

theorem effect_cases (s : Node) (instant : Int) (a : ServerAct) :
    (∃ n i req, a = .thread n i ∧ i.fails = none ∧ s.creating n = some req ∧
      s.effect instant a = s.create n req instant) ∨
    (∃ n i, a = .thread n i ∧ i.fails = none ∧ s.creating n = none ∧
      s.effect instant a = { s with origin := s.originAfter n }) ∨
    (∀ n i, a = .thread n i → i.fails ≠ none) ∧ s.effect instant a = s := by
  cases a with
  | request r => exact .inr (.inr ⟨nofun, rfl⟩)
  | daemon i => exact .inr (.inr ⟨nofun, rfl⟩)
  | thread n i =>
    cases hf : i.fails with
    | some e =>
      refine .inr (.inr ⟨fun n' i' h => ?_, by simp [effect, hf]⟩)
      cases h
      simp [hf]
    | none =>
      cases hreq : s.creating n with
      | none => exact .inr (.inl ⟨n, i, rfl, hf, hreq, by simp [effect, hf, hreq]⟩)
      | some req => exact .inl ⟨n, i, req, rfl, hf, hreq, by simp [effect, hf, hreq]⟩

theorem effect_keeps (s : Node) (instant : Int) (a : ServerAct) :
    (s.effect instant a).opened = s.opened ∧ (s.effect instant a).process = s.process ∧
      s.calls ⊆ (s.effect instant a).calls := by
  obtain ⟨n, i, req, -, -, -, heq⟩ | ⟨n, i, -, -, -, heq⟩ | ⟨-, heq⟩ := s.effect_cases instant a
  · rw [heq]
    exact ⟨rfl, rfl, List.subset_cons_self _ _⟩
  · rw [heq]
    exact ⟨rfl, rfl, List.Subset.refl _⟩
  · rw [heq]
    exact ⟨rfl, rfl, List.Subset.refl _⟩

theorem originAfter_of_ok {s : Node} {n : Nat} {id : String} {req : DepositRequest}
    {invoice : Invoice} {now : Int} {r : Db × Reply}
    (ht : s.conf.threads[n]? = some (.depositInsert id req invoice now))
    (hx : depositTx id req invoice now s.conf.store = .ok r) :
    s.originAfter n = (invoice.paymentHash, ⟨s.process, n⟩) :: s.origin := by
  simp only [originAfter, ht, hx]

theorem lookup_originAfter {s : Node} {hash : String} (h : s.conf.store.invoices.Has hash)
    (n : Nat) : (s.originAfter n).lookup hash = s.origin.lookup hash := by
  unfold originAfter
  split
  case h_2 => rfl
  case h_1 id req invoice now ht =>
    split
    case h_2 => rfl
    case h_1 r hx =>
      have hne : hash ≠ invoice.paymentHash := by
        rintro rfl
        obtain ⟨-, hnot, -⟩ := depositTx_ok hx
        exact hnot h
      rw [List.lookup_cons, beq_false_of_ne hne]

theorem lookup_effect {s : Node} {hash : String} (h : s.conf.store.invoices.Has hash)
    (instant : Int) (a : ServerAct) :
    (s.effect instant a).origin.lookup hash = s.origin.lookup hash := by
  obtain ⟨n, i, req, -, -, -, heq⟩ | ⟨n, i, -, -, -, heq⟩ | ⟨-, heq⟩ := s.effect_cases instant a
  · rw [heq]
    rfl
  · rw [heq]
    exact lookup_originAfter h n
  · rw [heq]

theorem answered_thread {s : Node} {instant : Int} {a : ServerAct} {n : Nat} {i : Input}
    (h : s.answered instant a = .thread n i) : ∃ i₀, a = .thread n i₀ ∧ i₀.fails = i.fails ∧
      i.invoice = (s.creating n).map fun req => (s.backend.createInvoice req.sats instant).1 := by
  cases a with
  | request r => cases h
  | daemon i => cases h
  | thread m i₀ =>
    cases h
    exact ⟨i₀, rfl, rfl, rfl⟩

theorem creating_of_depositInvoice {s : Node} {n : Nat} {id : String} {req : DepositRequest}
    (h : s.conf.threads[n]? = some (.depositInvoice id req)) : s.creating n = some req := by
  simp only [creating, h]

theorem creating_of_depositInsert {s : Node} {n : Nat} {id : String} {req : DepositRequest}
    {invoice : Invoice} {now : Int}
    (h : s.conf.threads[n]? = some (.depositInsert id req invoice now)) :
    s.creating n = none := by
  simp only [creating, h]

theorem effect_thread {s : Node} {n : Nat} {i : Input} (hf : i.fails = none) (instant : Int) :
    s.effect instant (.thread n i) =
      match s.creating n with
      | some req => s.create n req instant
      | none => { s with origin := s.originAfter n } := by
  simp only [effect, hf, Option.isSome_none, Bool.false_eq_true, if_false]

theorem Placed.step {env : Env} {s : Node} (hs : s.Numbered) (h : s.Placed) {a : NodeAct}
    (hnew : s.NewNumber a) : (s.step env a).Placed := by
  cases a with
  | restart settleDelay =>
    refine ⟨fun hash hhash => .inl hhash, fun n id req invoice now hthread => ?_⟩
    simp only [Node.step, List.getElem?_nil] at hthread
    cases hthread
  | serve a instant =>
    obtain ⟨hopened, hprocess, hcalls⟩ := s.effect_keeps instant a
    constructor
    · intro hash hhas
      obtain hold | ⟨n, i, id, req, invoice, now, r, ha, hf, ht, rfl, hx⟩ := hasInvoice_of_step hhas
      · obtain hbefore | ⟨call, hcall, horigin⟩ := h.stored hash hold
        · exact .inl (hopened ▸ hbefore)
        · exact .inr ⟨call, hcalls hcall, (lookup_effect hold instant a).trans horigin⟩
      · obtain ⟨hcall, -⟩ := h.pending n id req invoice now ht
        obtain ⟨i₀, rfl, hf₀, -⟩ := answered_thread ha
        refine .inr ⟨_, hcalls hcall, ?_⟩
        have horigin : (s.effect instant (.thread n i₀)).origin = s.originAfter n := by
          rw [effect_thread (hf₀.trans hf), creating_of_depositInsert ht]
        change (s.effect instant (.thread n i₀)).origin.lookup _ = _
        rw [horigin, originAfter_of_ok ht hx, List.lookup_cons_self]
    · intro n id req invoice now hthread
      obtain ⟨ht, hother⟩ | ⟨i, ha, hf, ht, hinvoice⟩ := depositInsert_of_step hthread
      · obtain ⟨hcall, hnot⟩ := h.pending n id req invoice now ht
        refine ⟨?_, fun hhas => ?_⟩
        · change (_, (⟨(s.effect instant a).process, n⟩ : Call)) ∈ (s.effect instant a).calls
          rw [hprocess]
          exact hcalls hcall
        · obtain hold | ⟨m, i, id', req', invoice', now', r, ha, -, ht', hhash, -⟩ :=
            hasInvoice_of_step hhas
          · exact hnot hold
          · obtain ⟨hcall', -⟩ := h.pending m id' req' invoice' now' ht'
            rw [hhash] at hcall'
            cases hs.unique hcall hcall'
            exact hother i ha
      · obtain ⟨i₀, rfl, hf₀, hanswer⟩ := answered_thread ha
        have hcreating := creating_of_depositInvoice ht
        rw [hcreating] at hanswer
        cases hinvoice.symm.trans hanswer
        obtain ⟨hlt, hunopened⟩ := hnew n req instant ⟨i₀, rfl, hf₀.trans hf, hcreating⟩
        have heffect : s.effect instant (.thread n i₀) = s.create n req instant := by
          rw [effect_thread (hf₀.trans hf), hcreating]
        refine ⟨?_, fun hhas => ?_⟩
        · change (_, (⟨(s.effect instant (.thread n i₀)).process, n⟩ : Call)) ∈
            (s.effect instant (.thread n i₀)).calls
          rw [heffect]
          exact List.mem_cons_self
        · obtain hold | ⟨m, i', id', req', invoice', now', r, ha', -, ht', -⟩ :=
            hasInvoice_of_step hhas
          · obtain hbefore | ⟨call, hcall, -⟩ := h.stored _ hold
            · rw [← hs.counter] at hunopened
              exact hunopened hbefore
            · exact hs.fresh hlt hcall
          · cases ha.symm.trans ha'
            rw [ht] at ht'
            cases ht'

theorem Numbered.restart {env : Env} (s : Node) (settleDelay : Nat) :
    (s.step env (.restart settleDelay)).Numbered where
  counter := rfl
  short := Nat.zero_le _
  hashes := by simp [Node.step]
  nodup := List.nodup_nil
  entries := rfl
  unopened := by simp [Node.step]

theorem Numbered.step {env : Env} {s : Node} (h : s.Numbered) {a : NodeAct} (hnew : s.NewNumber a) :
    (s.step env a).Numbered := by
  cases a with
  | restart settleDelay => exact .restart s settleDelay
  | serve a instant =>
    have kept : (s.effect instant a).Numbered := by
      obtain ⟨n, i, req, rfl, hf, hreq, heq⟩ | ⟨n, i, -, -, -, heq⟩ | ⟨-, heq⟩ :=
        s.effect_cases instant a
      · obtain ⟨hlt, hunopened⟩ := hnew n req instant ⟨i, rfl, hf, hreq⟩
        rw [heq]
        exact h.create hlt hunopened
      · rw [heq]
        exact { h with }
      · rw [heq]
        exact h
    exact { kept with }

structure Inv (env : Env) (s : Node) : Prop where
  holds : (serverContract env).Holds s.conf
  numbered : s.Numbered
  placed : s.Placed

theorem holds_step {env : Env} {s : Node} (h : (serverContract env).Holds s.conf) (a : NodeAct) :
    (serverContract env).Holds (s.step env a).conf := by
  cases a with
  | serve a instant => exact h.step _ _
  | restart settleDelay => exact ⟨h.inv, trivial, by simp [Node.step]⟩

theorem Inv.step {env : Env} {s : Node} (h : s.Inv env) {a : NodeAct} (hnew : s.NewNumber a) :
    (s.step env a).Inv env :=
  ⟨holds_step h.holds a, h.numbered.step hnew, h.placed.step h.numbered hnew⟩

theorem Inv.init (env : Env) (settleDelay : Nat) : (Node.init settleDelay).Inv env where
  holds := init_holds env
  numbered := ⟨rfl, Nat.zero_le _, by simp [Node.init], List.nodup_nil, rfl, by simp [Node.init]⟩
  placed := by
    refine ⟨fun hash hhas => .inl hhas, fun n id req invoice now hthread => ?_⟩
    simp [Node.init, ServerConf.init] at hthread

theorem lookup_of_mem {l : List (String × Call)} (h : (l.map (·.1)).Nodup) {hash : String}
    {call : Call} (hmem : (hash, call) ∈ l) : l.lookup hash = some call := by
  induction l with
  | nil => cases hmem
  | cons e l ih =>
    obtain ⟨hash', call'⟩ := e
    obtain ⟨hnot, hnodup⟩ := List.nodup_cons.mp h
    rcases List.mem_cons.mp hmem with heq | hmem
    · cases heq
      exact List.lookup_cons_self
    · have hne : hash ≠ hash' := fun heq => hnot (List.mem_map.mpr ⟨_, hmem, heq⟩)
      rw [List.lookup_cons, beq_false_of_ne hne]
      exact ih hnodup hmem

theorem depositTx_of_fresh {id : String} {req : DepositRequest} {invoice : Invoice} {now : Int}
    {db : Db} (hid : db.accounts.Has id) (hhash : ¬db.invoices.Has invoice.paymentHash) :
    ∃ r, depositTx id req invoice now db = .ok r := by
  have hinsert : ∃ db', db.insertInvoice invoice.paymentHash id req.sats invoice.bolt11 now =
      .ok db' := ⟨_, by rw [Db.insertInvoice, dif_neg hhash, if_pos hid]⟩
  obtain ⟨db', hinsert⟩ := hinsert
  exact ⟨_, bind_eq_ok.mpr ⟨db', sql_eq_ok.mpr hinsert, rfl⟩⟩

theorem hasInvoice_of_asking {env : Env} {s : Node} (h : (serverContract env).Holds s.conf)
    {hash : String} (hasking : s.asking = some hash) : s.conf.store.invoices.Has hash := by
  have hticker : s.conf.daemon.Ok s.conf.store := h.daemon
  unfold asking at hasking
  split at hasking
  case h_2 => cases hasking
  case h_1 p rest hpoll =>
    cases hasking
    rw [hpoll] at hticker
    obtain ⟨row, hrow, -, hhash, -⟩ := hticker.1 p List.mem_cons_self
    exact ⟨row, hrow, hhash⟩

theorem Inv.sound {env : Env} {s : Node} (h : s.Inv env) {a : NodeAct} (hnew : s.NewNumber a) :
    s.Sound a where
  fresh n req instant hcreates hhas := by
    obtain ⟨hlt, hunopened⟩ := hnew n req instant hcreates
    obtain hbefore | ⟨call, hcall, -⟩ := h.placed.stored _ hhas
    · rw [← h.numbered.counter] at hunopened
      exact hunopened hbefore
    · exact h.numbered.fresh hlt hcall
  inserted n i instant id req invoice now _ _ ht hid :=
    depositTx_of_fresh hid (h.placed.pending n id req invoice now ht).2
  credited i instant hash _ _ hasking hsettled := by
    have hcalled := MockBackend.mem_of_isSettled hsettled
    rw [h.numbered.entries] at hcalled
    obtain ⟨⟨_, call⟩, hcall, rfl⟩ := List.mem_map.mp hcalled
    have hhas := hasInvoice_of_asking h.holds hasking
    obtain hbefore | ⟨call', hcall', horigin⟩ := h.placed.stored _ hhas
    · exact absurd hbefore (h.numbered.unopened _ hcall)
    · exact ⟨call', lookup_of_mem h.numbered.nodup hcall', horigin⟩

/-- What the counter and the database keep to in every run, with old numbers or new ones. -/
structure Kept (s : Node) : Prop where
  counter : s.backend.counter = (s.calls.length + 1) % 2 ^ 64
  extends_opened : s.opened.Extends s.conf.store

theorem Kept.step {env : Env} {s : Node} (h : s.Kept) (a : NodeAct) : (s.step env a).Kept := by
  cases a with
  | restart settleDelay => exact ⟨rfl, .refl _⟩
  | serve a instant =>
    obtain ⟨hopened, -, -⟩ := s.effect_keeps instant a
    constructor
    · change (s.effect instant a).backend.counter = ((s.effect instant a).calls.length + 1) % 2 ^ 64
      obtain ⟨n, i, req, -, -, -, heq⟩ | ⟨n, i, -, -, -, heq⟩ | ⟨-, heq⟩ :=
        s.effect_cases instant a
      · rw [heq]
        simp only [create, MockBackend.createInvoice, h.counter, List.length_cons]
        omega
      · rw [heq]
        exact h.counter
      · rw [heq]
        exact h.counter
    · change (s.effect instant a).opened.Extends
        ((server env).step s.conf (s.answered instant a)).store
      rw [hopened]
      obtain ⟨hstore, -⟩ | ⟨txn, v, -, hx, -⟩ :=
        (server env).step_store s.conf (s.answered instant a)
      · rw [hstore]
        exact h.extends_opened
      · exact h.extends_opened.trans (Db.Extends.exec hx)

end Node

/-- Deposits survive restarts with the mock backend in every run in which a process only gives out
numbers that it has not found in the database, and no more than its counter can tell apart.  Where
deposits do survive, the numbers are such. -/
theorem deposits_survive_restarts (env : Env) (settleDelay : Nat) (acts : List NodeAct) :
    (Along (Node.step env) Node.NewNumber (.init settleDelay) acts →
      Along (Node.step env) Node.Sound (.init settleDelay) acts) ∧
    (Along (Node.step env) Node.Sound (.init settleDelay) acts →
      Along (Node.step env) (fun s a => s.calls.length < 2 ^ 64 → s.NewNumber a)
        (.init settleDelay) acts) := by
  constructor
  · intro hnew pre a hpre
    have hinv : (run (Node.step env) (.init settleDelay) pre).Inv env :=
      run_invariant_along (fun s a h hnew => h.step hnew) (.init env settleDelay) pre
        (hnew.of_prefix ((List.prefix_append _ _).trans hpre))
    exact hinv.sound (hnew pre a hpre)
  · intro hsound pre a hpre hlt n req instant hcreates
    have hkept : (run (Node.step env) (.init settleDelay) pre).Kept :=
      run_invariant (fun s a h => h.step a) ⟨rfl, .refl _⟩ pre
    refine ⟨hlt, fun hold => (hsound pre a hpre).fresh n req instant hcreates ?_⟩
    rw [← hkept.counter] at hold
    exact hkept.extends_opened.hasInvoice hold

def reopened : List NodeAct :=
  [.serve (.request .createAccount) 0, .serve (.thread 0 { token := "acct_1" }) 0,
    .serve (.request (.deposit "acct_1" ⟨5⟩)) 0, .serve (.thread 1 {}) 0, .serve (.thread 1 {}) 0,
    .serve (.thread 1 {}) 0, .restart 2, .serve (.request (.deposit "acct_1" ⟨7⟩)) 10,
    .serve (.thread 0 {}) 10]

def polled : List NodeAct :=
  reopened ++ [.serve (.thread 0 {}) 10, .serve (.thread 0 {}) 10, .serve (.daemon {}) 20]

/-- The second process hands out the hash of the first one's invoice, and that invoice counts as
settled by the second call. -/
theorem reusedNumber_unsound :
    ¬(run (Node.step testEnv) (.init 2) reopened).Sound (.serve (.thread 0 {}) 10) ∧
      ¬(run (Node.step testEnv) (.init 2) polled).Sound (.serve (.daemon {}) 20) := by
  constructor
  · intro h
    have hstored : (run (Node.step testEnv) (.init 2) reopened).conf.store.invoices.Has
        ((run (Node.step testEnv) (.init 2) reopened).backend.createInvoice 7 10).1.paymentHash := by
      decide +kernel
    exact h.fresh 0 ⟨7⟩ 10 ⟨{}, rfl, rfl, rfl⟩ hstored
  · intro h
    obtain ⟨call, hcall, horigin⟩ := h.credited {} 20 (hex64 1) rfl rfl rfl (by decide +kernel)
    have hcalls : (run (Node.step testEnv) (.init 2) polled).calls.lookup (hex64 1) =
        some ⟨1, 0⟩ := by decide +kernel
    have hrow : (run (Node.step testEnv) (.init 2) polled).origin.lookup (hex64 1) =
        some ⟨0, 1⟩ := by decide +kernel
    rw [hcalls] at hcall
    rw [hrow] at horigin
    cases hcall
    cases horigin

end GpuMarket
