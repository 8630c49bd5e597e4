import GpuMarket.Marketplace.Invariant

namespace GpuMarket

open Lib

def Thread.Registers (db : Db) (req : RegisterRequest) : Thread → Prop
  | .received r => r = .register req
  | .registerUpdate m q _ => q = req ∧ m.hostId = req.hostId ∧ db.HasMachine m
  | .registerInsert q _ => q = req
  | .done (.ok reply) =>
    ∃ m ∈ db.machines.rows, m.hostId = req.hostId ∧ reply = .registered m.id m.agentToken
  | .done (.error _) => True
  | _ => False

def Thread.WorksOn (db : Db) : Request → Thread → Prop
  | .register req, t => t.Registers db req
  | _, _ => True

theorem Db.HasMachine.names {db : Db} {m : MachineRow} (h : db.HasMachine m) :
    ∃ m' ∈ db.machines.rows, m'.hostId = m.hostId ∧
      Reply.registered m.id m.agentToken = .registered m'.id m'.agentToken := by
  obtain ⟨m', hm', hsame⟩ := h
  simp only [MachineRow.identity, Prod.mk.injEq] at hsame
  obtain ⟨hid, htoken, hhost, -⟩ := hsame
  exact ⟨m', hm', hhost, by rw [hid, htoken]⟩

theorem Thread.Registers.mono {db db' : Db} (h : db.Extends db') {req : RegisterRequest}
    {t : Thread} (ht : t.Registers db req) : t.Registers db' req := by
  cases t with
  | received r => exact ht
  | registerUpdate m q now => exact ⟨ht.1, ht.2.1, ht.2.2.mono h⟩
  | registerInsert q now => exact ht
  | done reply =>
    cases reply with
    | error e => trivial
    | ok reply =>
      obtain ⟨m, hm, hhost, rfl⟩ := ht
      obtain ⟨m', hm', hsame, hreply⟩ := Db.HasMachine.names (h.machine hm)
      exact ⟨m', hm', hsame.trans hhost, hreply⟩
  | _ => exact ht.elim

/-- Whatever else happens, a registration that is answered names the row of its host. -/
theorem server_serves (env : Env) : (server env).Serves Thread.WorksOn where
  start db r := by
    cases r with
    | register req => exact rfl
    | _ => trivial
  read {db r t i t'} ht hn := by
    cases r with
    | register req =>
      cases t with
      | received r =>
        obtain rfl : r = .register req := ht
        simp only [server, Thread.next, Request.next] at hn
        split at hn
        case h_1 m hm =>
          cases hn
          have hhost : m.hostId = req.hostId := by simpa using List.find?_some hm
          exact ⟨rfl, hhost, m, List.mem_of_find?_eq_some hm, rfl⟩
        case h_2 =>
          cases hn
          exact rfl
      | done reply =>
        cases hn
        exact ht
      | registerUpdate | registerInsert => cases hn
      | _ => exact ht.elim
    | _ => trivial
  commit {db r t i txn db' v} ht hn hx := by
    cases r with
    | register req =>
      cases t with
      | received r =>
        obtain rfl : r = .register req := ht
        simp only [server, Thread.next, Request.next] at hn
        split at hn <;> cases hn
      | registerUpdate m q now =>
        cases hn
        obtain ⟨rfl, hhost, hm⟩ := ht
        have hlater := hm.mono (@Db.Extends.exec env (.registerUpdate m q now) db db' v hx)
        cases hx
        obtain ⟨m', hm', hsame, hreply⟩ := hlater.names
        exact ⟨m', hm', hsame.trans hhost, hreply⟩
      | registerInsert q now =>
        cases hn
        obtain rfl : q = req := ht
        obtain ⟨-, rfl, rfl⟩ := registerInsert_ok hx
        exact ⟨q.toRow db.machines.nextId i.token now, List.mem_append_right _ (by simp), rfl, rfl⟩
      | done reply => cases hn
      | _ => exact ht.elim
    | _ => trivial
  error {db r t e} ht := by
    cases r with
    | register req =>
      cases t with
      | done reply => exact ht
      | received | registerUpdate | registerInsert => trivial
      | _ => exact ht.elim
    | _ => trivial
  stable {db r t txn db' v} hx ht := by
    cases r with
    | register req => exact Thread.Registers.mono (Db.Extends.exec hx) ht
    | _ => trivial

def Db.HostsUnique (db : Db) : Prop := (db.machines.rows.map (·.hostId)).Nodup

theorem Db.HostsUnique.exec {env : Env} {txn : Txn} {db db' : Db} {v : Reply}
    (h : db.HostsUnique) (hx : txn.exec env db = .ok (db', v)) : db'.HostsUnique :=
  nodup_identity (g := fun k => k.2.2.1) h hx fun _ _ _ hinsert m hm _ => (hinsert m hm).2

theorem serve_unique (env : Env) (acts : List ServerAct) :
    (serve env acts).store.TokensUnique ∧ (serve env acts).store.HostsUnique := by
  refine run_invariant
    (I := fun s : ServerConf => s.store.TokensUnique ∧ s.store.HostsUnique) (fun s a h => ?_)
    (s := ServerConf.init) ⟨List.nodup_nil, List.nodup_nil⟩ acts
  obtain ⟨hstore, -⟩ | ⟨txn, v, -, hx, -⟩ := (server env).step_store s a
  · rwa [hstore]
  · exact ⟨h.1.exec hx, h.2.exec hx⟩

def Registered (env : Env) (acts : List ServerAct) (n : Nat) (req : RegisterRequest)
    (reply : Reply) : Prop :=
  (requests acts)[n]? = some (.register req) ∧
    (serve env acts).threads[n]? = some (.done (.ok reply))

theorem Registered.row {env : Env} {acts : List ServerAct} {n : Nat} {req : RegisterRequest}
    {reply : Reply} (h : Registered env acts n req reply) :
    ∃ m ∈ (serve env acts).store.machines.rows, m.hostId = req.hostId ∧
      reply = .registered m.id m.agentToken := by
  have hserves : List.Forall₂ (Thread.WorksOn (serve env acts).store) (requests acts)
      (serve env acts).threads := (server_serves env).run (server env) rfl acts
  exact forall₂_getElem? hserves h.1 h.2

def MachineRow.kept (m : MachineRow) : (Int × String × String × Int) × Int :=
  (m.identity, m.payoutBalance)

/-- Whatever interleaves: a host has one row, all its registrations are answered alike, the token
they are answered with resolves to that row ever after, and a registration of a known host leaves
what identifies its machine, the money and every other table as they are. -/
theorem host_keeps_identity (env : Env) (acts : List ServerAct) :
    ((serve env acts).store.machines.rows.map (·.hostId)).Nodup ∧
    (∀ n n' req req' reply reply', Registered env acts n req reply →
      Registered env acts n' req' reply' → req.hostId = req'.hostId → reply = reply') ∧
    (∀ n req reply, Registered env acts n req reply →
      ∃ id token, reply = .registered id token ∧ ∀ more,
        ∃ m ∈ (serve env (acts ++ more)).store.machines.rows,
          m.id = id ∧ m.hostId = req.hostId ∧ m.agentToken = token ∧
          authenticate (serve env (acts ++ more)).store (bearerAuth token) = .ok m) ∧
    ∀ a m req now, (server env).commits (serve env acts) a = some (.registerUpdate m req now) →
      let db := (serve env acts).store
      let db' := (serve env (acts ++ [a])).store
      db'.machines.rows.map (·.kept) = db.machines.rows.map (·.kept) ∧
        db'.rentals = db.rentals ∧ db'.accounts = db.accounts ∧ db'.invoices = db.invoices ∧
        db'.commands = db.commands ∧ db'.ledger = db.ledger := by
  obtain ⟨-, hhosts⟩ := serve_unique env acts
  refine ⟨hhosts, ?_, ?_, ?_⟩
  · intro n n' req req' reply reply' h h' hsame
    obtain ⟨m, hm, hhost, rfl⟩ := h.row
    obtain ⟨m', hm', hhost', rfl⟩ := h'.row
    obtain rfl := List.inj_on_of_nodup_map hhosts hm hm' (hhost.trans (hsame.trans hhost'.symm))
    rfl
  · intro n req reply h
    obtain ⟨m, hm, hhost, rfl⟩ := h.row
    refine ⟨m.id, m.agentToken, rfl, fun more => ?_⟩
    obtain ⟨m', hm', hsame⟩ := (serve_extends env acts more).machine hm
    have htoken : m'.agentToken = m.agentToken := congrArg (·.2.1) hsame
    have hhost' : m'.hostId = m.hostId := congrArg (·.2.2.1) hsame
    obtain ⟨htokens, -⟩ := serve_unique env (acts ++ more)
    obtain ⟨m'', hauth, hid⟩ := htokens.authenticate ⟨m', hm', rfl⟩
    obtain rfl := Table.eq_of_key_eq (authenticate_ok hauth).1 hm' hid
    exact ⟨m'', hm', congrArg Prod.fst hsame, hhost'.trans hhost, htoken, htoken ▸ hauth⟩
  · intro a m req now hc
    obtain ⟨hstore, -⟩ := (server env).step_of_commits hc rfl
    have hstep : (serve env (acts ++ [a])).store =
        (serve env acts).store.updateMachine m.id (req.refresh now) (req.refresh_id now) := by
      rw [serve, run_concat]
      exact hstore
    simp only [hstep]
    refine ⟨?_, rfl, rfl, rfl, rfl, rfl⟩
    exact Table.map_rows_update _ _ (req.refresh_id now) fun _ => rfl

end GpuMarket
