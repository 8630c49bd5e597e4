import GpuMarket.ControlPlane.Confinement

namespace GpuMarket

open Lib

/-- A request that the host of a machine makes for it. -/
def Request.By (m : MachineRow) : Request → Prop
  | .register req => req.hostId = m.hostId
  | .heartbeat auth _ | .report auth _ | .rate auth _ | .payout auth _ => Bears auth m.agentToken
  | .createAccount | .deposit .. | .createRental _ | .deleteRental _ => False

instance (m : MachineRow) : (r : Request) → Decidable (r.By m)
  | .register req => inferInstanceAs (Decidable (req.hostId = m.hostId))
  | .heartbeat auth _ | .report auth _ | .rate auth _ | .payout auth _ =>
    inferInstanceAs (Decidable (Bears auth m.agentToken))
  | .createAccount | .deposit .. | .createRental _ | .deleteRental _ => .isFalse id

def LedgerRow.Spares (l : LedgerRow) (db : Db) (m : MachineRow) : Prop :=
  l.machineId ≠ some m.id ∧ ∀ id, l.rentalId = some id → ∃ r ∈ db.rentals.rows, r.id = id ∧
    (r.machineId = m.id → l.kind = .evict ∧ l.deltaSats = 0)

/-- All that may become of a machine and of what is on it while its host does nothing: it goes
offline, and its rentals are told to end. -/
structure MachineRow.Undisturbed (m : MachineRow) (db db' : Db) : Prop where
  row : m ∈ db'.machines.rows ∨ { m with online := false } ∈ db'.machines.rows
  rentals : ∀ r ∈ db.rentals.rows, r.machineId = m.id →
    ∃ r' ∈ db'.rentals.rows, r' = r ∨ r' = { r with status := .evicting, error := r'.error }
  commands : ∀ c ∈ db.commands.rows, c.machineId = m.id → c ∈ db'.commands.rows
  ledger : ∃ new, db'.ledger = db.ledger ++ new ∧ ∀ l ∈ new, l.Spares db' m

theorem MachineRow.Undisturbed.refl {m : MachineRow} {db : Db} (hm : m ∈ db.machines.rows) :
    m.Undisturbed db db where
  row := .inl hm
  rentals r hr _ := ⟨r, hr, .inl rfl⟩
  commands _ hc _ := hc
  ledger := ⟨[], (List.append_nil _).symm, fun _ h => absurd h List.not_mem_nil⟩

/-- What may be done while the host of a machine does nothing. -/
structure Footprint.Spares (F : Footprint) (db : Db) (m : MachineRow) : Prop where
  machine : ∀ m₀ m', m₀.identity = m.identity → F.machine m₀ m' → m' = { m₀ with online := false }
  rental : ∀ r r', r.machineId = m.id → F.rental r r' →
    r' = { r with status := .evicting, error := r'.error }
  command : ∀ c c', c.machineId = m.id → ¬F.command c c'
  entry : ∀ l, F.newEntry l → l.Spares db m

theorem nothing_spares (db : Db) (m : MachineRow) : Footprint.Spares {} db m where
  machine _ _ _ h := h.elim
  rental _ _ _ h := h.elim
  command _ _ _ h := h
  entry _ h := h.elim

theorem Db.OwnedBy.bears {db : Db} {auth : Option String} {m : MachineRow} (hm : db.HasMachine m)
    (h : db.OwnedBy auth m.id) : Bears auth m.agentToken := by
  obtain ⟨m', hm', hid, htoken⟩ := h
  rwa [(hm.token hm' hid).1] at htoken

theorem Request.spares {env : Env} {db : Db} {m : MachineRow} {r : Request} (hm : db.HasMachine m)
    (hr : ¬r.By m) : (r.footprint env db).Spares db m := by
  have stranger : ∀ {auth : Option String} {id : Int}, ¬Bears auth m.agentToken → id = m.id →
      ¬db.OwnedBy auth id := by
    rintro auth id hauth rfl howned
    exact hauth (howned.bears hm)
  have other : ∀ {auth : Option String} {m₀ : MachineRow}, ¬Bears auth m.agentToken →
      m₀.identity = m.identity → ¬Bears auth m₀.agentToken := by
    intro auth m₀ hauth hsame htoken
    simp only [MachineRow.identity, Prod.mk.injEq] at hsame
    exact hauth (hsame.2.1 ▸ htoken)
  cases r with
  | register req =>
    refine { nothing_spares db m with machine := fun m₀ m' hsame h => ?_ }
    simp only [MachineRow.identity, Prod.mk.injEq] at hsame
    exact absurd (h.1.symm.trans hsame.2.2.1) hr
  | heartbeat auth req =>
    refine { nothing_spares db m with
      machine := fun m₀ m' hsame h => ?_
      command := fun c c' hc h => ?_ }
    · exact absurd h.1 (other hr hsame)
    · exact stranger hr hc h.1
  | report auth req =>
    refine { nothing_spares db m with
      machine := fun m₀ m' hsame h => ?_
      rental := fun row row' hrow h => ?_
      entry := fun l h => ?_ }
    · exact absurd h.2.1 (other hr hsame)
    · exact absurd h.2.1 (stranger hr hrow)
    · obtain ⟨-, row, hrow, -, howned, hrental, hkind⟩ := h
      refine ⟨fun hmachine => ?_, fun id hid => ?_⟩
      · rcases hkind with ⟨-, -, hnone, -⟩ | ⟨-, -, hsome, -⟩
        · rw [hnone] at hmachine
          cases hmachine
        · rw [hsome] at hmachine
          exact stranger hr (Option.some.inj hmachine) howned
      · exact ⟨row, hrow, Option.some.inj (hrental.symm.trans hid),
          fun hmachine => absurd howned (stranger hr hmachine)⟩
  | rate auth req =>
    exact { nothing_spares db m with machine := fun m₀ m' hsame h => absurd h.1 (other hr hsame) }
  | payout auth req =>
    refine { nothing_spares db m with
      machine := fun m₀ m' hsame h => ?_
      entry := fun l h => ?_ }
    · exact absurd h.1 (other hr hsame)
    · obtain ⟨-, -, hnone, -, id, hid, howned⟩ := h
      refine ⟨fun hmachine => ?_, fun _ hrental => ?_⟩
      · rw [hid] at hmachine
        exact stranger hr (Option.some.inj hmachine) howned
      · rw [hnone] at hrental
        cases hrental
  | createAccount | deposit id req | createRental req => exact { nothing_spares db m with }
  | deleteRental id =>
    refine { nothing_spares db m with rental := fun row row' _ h => ?_ }
    obtain ⟨-, rfl⟩ := h
    rfl

theorem Ticker.spares {env : Env} {db : Db} {m : MachineRow} :
    (Ticker.footprint env db).Spares db m := by
  refine { nothing_spares db m with
    machine := fun _ _ _ h => h.2
    rental := fun r r' _ h => ?_
    entry := fun l h => ?_ }
  · obtain rfl := h
    rfl
  · obtain ⟨hnone, ⟨-, -, -, -, -, hrental, -⟩ | ⟨row, hrow, hkind, -, hrental, hzero⟩⟩ := h
    · refine ⟨by simp [hnone], fun id hid => ?_⟩
      rw [hrental] at hid
      cases hid
    · refine ⟨by simp [hnone], fun id hid => ?_⟩
      exact ⟨row, hrow, Option.some.inj (hrental.symm.trans hid), fun _ => ⟨hkind, hzero⟩⟩

theorem LedgerRow.Spares.mono {l : LedgerRow} {db db' : Db} {m : MachineRow} (hext : db.Extends db')
    (h : l.Spares db m) : l.Spares db' m := by
  refine ⟨h.1, fun id hid => ?_⟩
  obtain ⟨r, hr, hrid, hmove⟩ := h.2 id hid
  obtain ⟨r', hr', hterms⟩ := hext.rental hr
  obtain ⟨hmachine, -, -, -, -, -, hsame⟩ := RentalRow.terms_eq_iff.mp hterms
  exact ⟨r', hr', hsame.trans hrid, fun h' => hmove (hmachine.symm.trans h')⟩

theorem MachineRow.Undisturbed.step {F : Footprint} {m : MachineRow} {db db' db'' : Db}
    (h : m.Undisturbed db db') (hF : F.Covers db' db'') (hext : db'.Extends db'')
    (hspares : F.Spares db' m) : m.Undisturbed db db'' where
  row := by
    rcases h.row with hm | hm
    · obtain ⟨m', hm', rfl | hrewrite⟩ := hF.machines.of_mem hm
      · exact .inl hm'
      · exact .inr (hspares.machine _ _ rfl hrewrite ▸ hm')
    · obtain ⟨m', hm', rfl | hrewrite⟩ := hF.machines.of_mem hm
      · exact .inr hm'
      · exact .inr (hspares.machine { m with online := false } m' rfl hrewrite ▸ hm')
  rentals r hr hid := by
    obtain ⟨r', hr', hbefore⟩ := h.rentals r hr hid
    obtain ⟨r'', hr'', hstep⟩ := hF.rentals.of_mem hr'
    have hid' : r'.machineId = m.id := by
      rcases hbefore with rfl | heq
      · exact hid
      · rw [heq]
        exact hid
    refine ⟨r'', hr'', ?_⟩
    rcases hstep with rfl | hstep
    · exact hbefore
    · right
      have heq := hspares.rental r' r'' hid' hstep
      rcases hbefore with rfl | hbefore
      · exact heq
      · rw [heq, hbefore]
  commands c hc hid := by
    have hc' := h.commands c hc hid
    obtain ⟨c', hc'', rfl | hrewrite⟩ := hF.commands.of_mem hc'
    · exact hc''
    · exact absurd hrewrite (hspares.command c c' hid)
  ledger := by
    obtain ⟨new, hnew, hold⟩ := h.ledger
    obtain ⟨added, hadded, hentries⟩ := hF.ledger.eq_append
    refine ⟨new ++ added, by rw [hadded, hnew, List.append_assoc], fun l hl => ?_⟩
    rcases List.mem_append.mp hl with hl | hl
    · exact (hold l hl).mono hext
    · exact (hspares.entry l (hentries l hl)).mono hext

theorem footprintOf_spares {env : Env} {rs : List Request} {db : Db} {m : MachineRow} {a : ServerAct}
    (hm : db.HasMachine m) (ha : ∀ n i r, a = .thread n i → rs[n]? = some r → ¬r.By m) :
    (footprintOf env rs db a).Spares db m := by
  cases a with
  | request r => exact nothing_spares db m
  | daemon i => exact Ticker.spares
  | thread n i =>
    simp only [footprintOf]
    cases hr : rs[n]? with
    | none => exact nothing_spares db m
    | some r => exact Request.spares hm (ha n i r rfl hr)

theorem MachineRow.Undisturbed.hasMachine {m : MachineRow} {db db' : Db}
    (h : m.Undisturbed db db') : db'.HasMachine m := by
  rcases h.row with hrow | hrow
  · exact ⟨m, hrow, rfl⟩
  · exact ⟨_, hrow, rfl⟩

/-- Whatever the others do, nobody but its host acts for a machine. -/
theorem idle_host_undisturbed (env : Env) (acts more : List ServerAct) {m : MachineRow}
    (hm : m ∈ (serve env acts).store.machines.rows)
    (hmore : ∀ n i r, .thread n i ∈ more → (requests (acts ++ more))[n]? = some r → ¬r.By m) :
    m.Undisturbed (serve env acts).store (serve env (acts ++ more)).store := by
  induction more using List.reverseRecOn with
  | nil =>
    rw [List.append_nil]
    exact .refl hm
  | append_singleton more a ih =>
    have hgrow : requests (acts ++ (more ++ [a])) =
        requests (acts ++ more) ++ requests [a] := by
      rw [← List.append_assoc, requests, List.filterMap_append, requests, requests]
    have later : ∀ n i r, .thread n i ∈ more ++ [a] → (requests (acts ++ more))[n]? = some r →
        ¬r.By m := by
      intro n i r hmem hr
      refine hmore n i r hmem ?_
      rw [hgrow]
      exact (List.getElem?_append_left (List.getElem?_eq_some_iff.mp hr).1).trans hr
    have before := ih fun n i r hmem => later n i r (List.mem_append_left _ hmem)
    have hholds := (init_holds env).run (serverContract env) (acts ++ more)
    have hacts : List.Forall₂ (fun r t => t.ActsFor r) (requests (acts ++ more))
        (serve env (acts ++ more)).threads :=
      (server_actsFor env).run (server env) rfl _
    have hstep : serve env (acts ++ (more ++ [a])) =
        (server env).step (serve env (acts ++ more)) a := by
      rw [← List.append_assoc]
      exact run_concat _ _ _
    rw [hstep]
    refine before.step (step_confined hholds hacts a) (server_extends env _ a) ?_
    refine footprintOf_spares before.hasMachine ?_
    rintro n i r rfl hr
    exact later n i r (by simp) hr

def stranger : RegisterRequest := { testHost with hostId := "host-2", publicIp := "203.0.113.6" }

/-- The stranger registers, heartbeats and asks for a payout; a tenant rents the machine and gives
it back; the ticker finds the machine silent. -/
def strangers : List ServerAct :=
  call 3 (.register stranger) [{}, { token := "agt_2" }] ++
  call 4 (.createRental ⟨1, "acct_1", "ubuntu:24.04", some "ssh-ed25519 AAAA"⟩) [{}] ++
  call 5 (.heartbeat (some "Bearer agt_2") ⟨true⟩) [{}, {}] ++
  call 6 (.payout (some "Bearer agt_2") ⟨"lnbc2"⟩) [{}] ++
  call 7 (.deleteRental 1) [{}, {}] ++
  [.daemon {}, .daemon {}, .daemon { now := 1000 }]

theorem idle_host_undisturbed_strangers :
    (testHost.toRow 1 "agt_1" 0).Undisturbed (serve testEnv (opening 50)).store
      (serve testEnv (opening 50 ++ strangers)).store := by
  refine idle_host_undisturbed testEnv (opening 50) strangers (by decide +kernel) ?_
  intro n i r hmem hr
  simp only [strangers, call, List.map_cons, List.map_nil, List.cons_append, List.nil_append,
    List.mem_cons, reduceCtorEq, Act.thread.injEq, false_or, List.not_mem_nil, or_false] at hmem
  have served : n = 3 ∨ n = 4 ∨ n = 5 ∨ n = 6 ∨ n = 7 := by omega
  rcases served with rfl | rfl | rfl | rfl | rfl
  all_goals
    obtain rfl := Option.some.inj hr
    decide

end GpuMarket
