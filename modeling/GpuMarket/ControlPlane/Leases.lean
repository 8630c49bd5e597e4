import GpuMarket.ControlPlane.Occupancy

namespace GpuMarket

open Lib

def Txn.Releases (id : Int) : Txn → Prop
  | .report _ _ req _ => req.rentalId = id ∧ req.status.isTerminal = true
  | _ => False

def Db.Occupies (db : Db) (id machineId : Int) : Prop :=
  ∃ r ∈ db.rentals.rows, r.id = id ∧ r.machineId = machineId ∧ r.status.occupiesMachine = true

/-- Every rental that was created occupies its machine until a report releases it. -/
def Leased (db : Db) (log : List (Txn × Reply)) : Prop :=
  ∀ pre req now id status rate post,
    log = pre ++ (.createRental req now, .rental id status rate) :: post →
      (∃ e ∈ post, e.1.Releases id) ∨ db.Occupies id req.machineId

theorem Db.Occupies.exec {env : Env} {txn : Txn} {db db' : Db} {v : Reply} (hv : txn.Valid db)
    (hx : txn.exec env db = .ok (db', v)) {id machineId : Int} (h : db.Occupies id machineId) :
    txn.Releases id ∨ db'.Occupies id machineId := by
  obtain ⟨r, hr, rfl, hm, hocc⟩ := h
  obtain ⟨charge, new, hrows, -⟩ := exec_rentals hv hx
  have kept : (txn.statusOf r).occupiesMachine = true → db'.Occupies r.id machineId := by
    intro hstatus
    refine ⟨txn.rewrite charge r, ?_, txn.rewrite_id charge r, by simp [hm], ?_⟩
    · rw [hrows]
      exact List.mem_append_left _ (List.mem_map_of_mem hr)
    · rw [Txn.rewrite_status]
      exact hstatus
  cases txn with
  | report machine rental req now =>
    by_cases hid : req.rentalId = r.id
    · cases hterm : req.status.isTerminal with
      | true => exact .inl ⟨hid, hterm⟩
      | false => exact .inr (kept (by simp [Txn.statusOf, hid.symm, hterm]))
    · exact .inr (kept (by rw [Txn.statusOf, if_neg (Ne.symm hid)]; exact hocc))
  | deleteRental r₀ now =>
    refine .inr (kept ?_)
    simp only [Txn.statusOf]
    split
    · rfl
    · exact hocc
  | evict r₀ now =>
    refine .inr (kept ?_)
    simp only [Txn.statusOf]
    split
    · rfl
    · exact hocc
  | _ => exact .inr (kept hocc)

theorem Leased.exec {env : Env} {txn : Txn} {db db' : Db} {v : Reply} {log : List (Txn × Reply)}
    (hv : txn.Valid db) (hx : txn.exec env db = .ok (db', v)) (h : Leased db log) :
    Leased db' (log ++ [(txn, v)]) := by
  intro pre req now id status rate post hlog
  rcases concat_eq_append_cons hlog with ⟨-, he, -⟩ | ⟨post, rfl, rfl⟩
  · -- the rental is the one just created
    cases he
    obtain ⟨m, -, -, a, -, -, -, -, -, hreply, key, -, rfl⟩ := createRentalTx_ok hx
    cases hreply
    exact .inr ⟨_, Db.mem_withRental.mpr (.inr rfl), rfl, rfl, rfl⟩
  · rcases h pre req now id status rate post rfl with ⟨x, hxmem, hrel⟩ | hocc
    · exact .inl ⟨x, List.mem_append_left _ hxmem, hrel⟩
    · rcases hocc.exec hv hx with hrel | hocc
      · exact .inl ⟨(txn, v), by simp, hrel⟩
      · exact .inr hocc

theorem serve_leased (env : Env) (acts : List ServerAct) :
    Leased (serve env acts).store (serve env acts).log :=
  (serverContract env).run_preserves (J := Leased) (fun _ hv hx h => h.exec hv hx)
    (init_holds env) (by intro pre _ _ _ _ _ _ h; cases pre <;> cases h) acts

/-- Every creation that succeeds finds its machine online and free and the account able to pay a
minute at the machine's rate, which the rental keeps; and since the last one on the same machine a
report has set that one's rental to stopped or failed. -/
theorem creations_exclusive (env : Env) (acts : List ServerAct) {pre post : List (Txn × Reply)}
    {req : CreateRentalRequest} {now : Int} {v : Reply}
    (h : (serve env acts).log = pre ++ (.createRental req now, v) :: post) :
    (∃ before a after, acts = before ++ a :: after ∧ (serve env before).log = pre ∧
      (server env).commits (serve env before) a = some (.createRental req now) ∧
      ∃ m ∈ (serve env before).store.machines.rows, m.id = req.machineId ∧ m.online = true ∧
        (∀ r ∈ (serve env before).store.rentals.rows, r.machineId = req.machineId →
          r.status.occupiesMachine = false) ∧
        (∃ acct ∈ (serve env before).store.accounts.rows, acct.id = req.accountId ∧
          m.rateSatsPerMin ≤ acct.balanceSats) ∧
        ∃ id, v = .rental id .provisioning m.rateSatsPerMin ∧
          ∃ r ∈ (serve env (before ++ [a])).store.rentals.rows, r.id = id ∧
            r.machineId = req.machineId ∧ r.accountId = req.accountId ∧
            r.rateSatsPerMin = m.rateSatsPerMin) ∧
    ∀ pre' req' now' id status rate mid,
      pre = pre' ++ (.createRental req' now', .rental id status rate) :: mid →
        req'.machineId = req.machineId → ∃ e ∈ mid, e.1.Releases id := by
  obtain ⟨before, a, after, hacts, hlog, hc, hx⟩ := (server env).exists_commit_of_log rfl h
  obtain ⟨m, hm, hmid, acct, hacct, haid, honline, hfree, hrate, hreply, key, -, hstore⟩ :=
    createRentalTx_ok hx
  refine ⟨⟨before, a, after, hacts, hlog, hc, m, hm, hmid, honline, ?_, ⟨acct, hacct, haid, hrate⟩,
    _, hreply, ?_⟩, ?_⟩
  · intro r hr hmachine
    by_contra hocc
    exact hfree (occupied_iff.mpr ⟨r, hr, hmachine, Bool.eq_true_of_not_eq_false hocc⟩)
  · rw [serve, hstore]
    exact ⟨_, Db.mem_withRental.mpr (.inr rfl), rfl, rfl, rfl, rfl⟩
  · intro pre' req' now' id status rate mid hpre hmachine
    have hleased := serve_leased env before
    rw [serve, hlog] at hleased
    rcases hleased _ _ _ _ _ _ _ hpre with hrel | ⟨r, hr, -, hrm, hocc⟩
    · exact hrel
    · exact absurd (occupied_iff.mpr ⟨r, hr, hrm.trans hmachine, hocc⟩) hfree

def createdOn : Txn × Reply → Option Int
  | (.createRental req _, .rental ..) => some req.machineId
  | _ => none

theorem eq_createRental_of_createdOn {e : Txn × Reply} {machineId : Int}
    (h : createdOn e = some machineId) : ∃ req now id status rate,
      e = (.createRental req now, .rental id status rate) ∧ req.machineId = machineId := by
  unfold createdOn at h
  split at h
  case h_1 req now id status rate => exact ⟨req, now, id, status, rate, rfl, Option.some.inj h⟩
  case h_2 => cases h

/-- The machine that is let again has been released in between. -/
theorem creations_exclusive_relet :
    ∃ pre req now v post, (serve testEnv relet).log = pre ++ (.createRental req now, v) :: post ∧
      ∃ pre' req' now' id status rate mid,
        pre = pre' ++ (.createRental req' now', .rental id status rate) :: mid ∧
          req'.machineId = req.machineId ∧ ∃ e ∈ mid, e.1.Releases id := by
  have twice : ((serve testEnv relet).log.take 7)[4]?.bind createdOn = some 1 ∧
      (serve testEnv relet).log[7]?.bind createdOn = some 1 := by decide +kernel
  obtain ⟨e', hfirst, he'⟩ := Option.bind_eq_some_iff.mp twice.1
  obtain ⟨e, hsecond, he⟩ := Option.bind_eq_some_iff.mp twice.2
  obtain ⟨req', now', id, status, rate, rfl, hmachine'⟩ := eq_createRental_of_createdOn he'
  obtain ⟨req, now, id', status', rate', rfl, hmachine⟩ := eq_createRental_of_createdOn he
  have hlog := eq_append_cons_of_getElem? hsecond
  have hpre := eq_append_cons_of_getElem? hfirst
  have hsame := hmachine'.trans hmachine.symm
  exact ⟨_, req, now, _, _, hlog, _, req', now', id, status, rate, _, hpre, hsame,
    (creations_exclusive testEnv relet hlog).2 _ _ _ _ _ _ _ hpre hsame⟩

end GpuMarket
