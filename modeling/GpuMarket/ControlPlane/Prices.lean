import GpuMarket.ControlPlane.Budgets
import GpuMarket.ControlPlane.Machines
import GpuMarket.ControlPlane.Settlement

namespace GpuMarket

open Lib

/-- Every price is one sat per minute or more, and no rental has been charged less than nothing. -/
def PricesPositive (db : Db) : Prop :=
  (∀ m ∈ db.machines.rows, 1 ≤ m.rateSatsPerMin) ∧
    ∀ r ∈ db.rentals.rows, 1 ≤ r.rateSatsPerMin ∧ 0 ≤ r.satsCharged

instance (db : Db) : Decidable (PricesPositive db) := inferInstanceAs (Decidable (_ ∧ _))

/-- A rental that is created belongs to an account that holds something. -/
def RentsFunded (env : Env) (s : ServerConf) (act : ServerAct) : Prop :=
  ∀ req now r, (server env).commits s act = some (.createRental req now) →
    createRentalTx env req now s.store = .ok r →
      ∀ a ∈ s.store.accounts.rows, a.id = req.accountId → 0 < a.balanceSats

/-- A registration that goes through, the first or a later one, names a price of one sat or more, and
what a report settles has, as the machine computes it, accrued to no negative amount. -/
def Db.FairPrice (env : Env) (db : Db) : Txn → Prop
  | .registerUpdate _ req _ => 1 ≤ req.rateSatsPerMin
  | .registerInsert req token _ =>
    (∀ m ∈ db.machines.rows, m.agentToken ≠ token ∧ m.hostId ≠ req.hostId) →
      1 ≤ req.rateSatsPerMin
  | .report _ rental req now => settles rental req = true → 0 ≤ rental.accrued env now
  | _ => True

/-! `POST /agent/rate` checks its price, and nothing comes between the check and the write. -/

def Thread.RateChecked : Thread → Prop
  | .rateUpdate _ req => 1 ≤ req.rateSatsPerMin
  | _ => True

def Txn.RateChecked : Txn → Prop
  | .rate _ req => 1 ≤ req.rateSatsPerMin
  | _ => True

theorem checkRate_ok {req : RateRequest} {u : Unit} (h : checkRate req = .ok u) :
    1 ≤ req.rateSatsPerMin := by
  unfold checkRate at h
  split at h
  case isTrue => cases h
  case isFalse hrate => exact not_lt.mp hrate

theorem Request.next_rateUpdate {db : Db} {i : Input} {r : Request} {machine : MachineRow}
    {req : RateRequest} (h : r.next db i = .read (.rateUpdate machine req)) :
    1 ≤ req.rateSatsPerMin := by
  cases r with
  | register q => simp only [next] at h; split at h <;> cases h
  | heartbeat auth q => obtain ⟨e, h⟩ | ⟨m, -, h⟩ := fetch_eq_read h <;> cases h
  | report auth q => obtain ⟨e, h⟩ | ⟨m, -, h⟩ := fetch_eq_read h <;> cases h
  | rate auth q =>
    obtain ⟨e, h⟩ | ⟨m, -, h⟩ := fetch_eq_read h
    · cases h
    · obtain ⟨e, h⟩ | ⟨u, hcheck, h⟩ := fetch_eq_read h
      · cases h
      · cases h
        exact checkRate_ok hcheck
  | payout auth q =>
    obtain ⟨e, h⟩ | ⟨m, -, h⟩ := fetch_eq_read h
    · cases h
    · obtain ⟨e, h⟩ | ⟨u, -, h⟩ := fetch_eq_read h <;> cases h
  | createAccount => cases h
  | deposit id q =>
    obtain ⟨e, h⟩ | ⟨u, -, h⟩ := fetch_eq_read h
    · cases h
    · obtain ⟨e, h⟩ | ⟨a, -, h⟩ := fetch_eq_read h <;> cases h
  | createRental q => cases h
  | deleteRental id =>
    obtain ⟨e, h⟩ | ⟨r, -, h⟩ := fetch_eq_read h
    · cases h
    · split at h <;> cases h

theorem Thread.next_rateUpdate {db : Db} {i : Input} {t : Thread} {machine : MachineRow}
    {req : RateRequest} (h : t.next i db = .read (.rateUpdate machine req)) :
    1 ≤ req.rateSatsPerMin := by
  cases t with
  | received r => exact Request.next_rateUpdate h
  | reportRead machine q => obtain ⟨e, h⟩ | ⟨r, -, h⟩ := fetch_eq_read h <;> cases h
  | payoutPay machine q => simp only [next] at h; split at h <;> cases h
  | depositInvoice id q => simp only [next] at h; split at h <;> cases h
  | _ => cases h

theorem Thread.RateChecked.read {db : Db} {i : Input} {t t' : Thread}
    (h : t.next i db = .read t') : t'.RateChecked := by
  cases t' with
  | rateUpdate machine req => exact Thread.next_rateUpdate h
  | _ => trivial

theorem Thread.RateChecked.commit {db : Db} {i : Input} {t : Thread} {txn : Txn}
    (ht : t.RateChecked) (h : t.next i db = .commit txn) : txn.RateChecked := by
  cases txn with
  | rate machine req =>
    cases t with
    | received r =>
      obtain h | ⟨q, h⟩ := Request.next_commit h
      all_goals cases h
    | reportRead machine q => obtain ⟨r, -, h⟩ := fetch_eq_commit.mp h; cases h
    | payoutPay machine q => simp only [next] at h; split at h <;> cases h
    | depositInvoice id q => simp only [next] at h; split at h <;> cases h
    | rateUpdate machine q => cases h; exact ht
    | _ => cases h
  | _ => trivial

theorem Ticker.commit_rateChecked {env : Env} {db : Db} {i : Input} {k : Ticker} {txn : Txn}
    (h : k.next env i db = .commit txn) : txn.RateChecked := by
  obtain ⟨p, now, rest, -, rfl⟩ | ⟨-, rfl⟩ | ⟨r, now, rest, -, rfl⟩ := next_commit h
  all_goals trivial

def priceContract (env : Env) : (server env).Contract :=
  (serverContract env).carrying (Q := Thread.RateChecked) (V := Txn.RateChecked) (fun _ => trivial)
    (fun _ h => Thread.RateChecked.read h) (fun ht h => ht.commit h)
    (fun t _ => by cases t <;> trivial) Ticker.commit_rateChecked

theorem init_priced (env : Env) : (priceContract env).Holds ServerConf.init where
  inv := Db.Wf.empty
  daemon := trivial
  thread _ ht := absurd ht List.not_mem_nil

def Txn.price : Txn → Option Int
  | .registerUpdate _ req _ | .registerInsert req _ _ => some req.rateSatsPerMin
  | .rate _ req => some req.rateSatsPerMin
  | _ => none

theorem Txn.rewriteMachine_rate (env : Env) (charge : Int) (txn : Txn) (m : MachineRow) :
    (txn.rewriteMachine env charge m).rateSatsPerMin = m.rateSatsPerMin ∨
      txn.price = some (txn.rewriteMachine env charge m).rateSatsPerMin := by
  unfold rewriteMachine
  split <;> try split
  all_goals first | exact .inl rfl | exact .inr rfl

theorem Txn.newMachines_rate {db : Db} {txn : Txn} {m : MachineRow} (h : m ∈ txn.newMachines db) :
    txn.price = some m.rateSatsPerMin := by
  cases txn with
  | registerInsert req token now => rw [List.mem_singleton.mp h]; rfl
  | _ => cases h

theorem Txn.price_pos {env : Env} {db db' : Db} {txn : Txn} {v : Reply}
    (hchecked : txn.RateChecked) (hfair : db.FairPrice env txn)
    (hx : txn.exec env db = .ok (db', v)) {rate : Int} (h : txn.price = some rate) : 1 ≤ rate := by
  cases txn with
  | registerUpdate m req now => cases h; exact hfair
  | registerInsert req token now => cases h; exact hfair (registerInsert_ok hx).1
  | rate machine req => cases h; exact hchecked
  | _ => cases h

section Step

variable {env : Env} {db db' : Db} {txn : Txn} {v : Reply}

theorem PricesPositive.machines (h : PricesPositive db) (hchecked : txn.RateChecked)
    (hfair : db.FairPrice env txn) (hx : txn.exec env db = .ok (db', v)) :
    ∀ m ∈ db'.machines.rows, 1 ≤ m.rateSatsPerMin := by
  obtain ⟨charge, hrows, -⟩ := exec_machines hx
  intro m hm
  rw [hrows] at hm
  rcases List.mem_append.mp hm with hm | hm
  · obtain ⟨m₀, hm₀, rfl⟩ := List.mem_map.mp hm
    rcases txn.rewriteMachine_rate env charge m₀ with hsame | hprice
    · exact hsame ▸ h.1 m₀ hm₀
    · exact Txn.price_pos hchecked hfair hx hprice
  · exact Txn.price_pos hchecked hfair hx (Txn.newMachines_rate hm)

theorem PricesPositive.created (h : PricesPositive db) {req : CreateRentalRequest} {now : Int}
    (hx : createRentalTx env req now db = .ok (db', v)) :
    ∀ r ∈ db'.rentals.rows, 1 ≤ r.rateSatsPerMin ∧ 0 ≤ r.satsCharged := by
  obtain ⟨m, hm, -, a, -, -, -, -, -, -, key, -, rfl⟩ := createRentalTx_ok hx
  intro r hr
  rcases Db.mem_withRental.mp hr with hr | rfl
  · exact h.2 r hr
  · exact ⟨h.1 m hm, le_rfl⟩

theorem PricesPositive.rentals (h : PricesPositive db) (hwf : db.Wf) (hv : txn.Valid db)
    (hfair : db.FairPrice env txn) (hx : txn.exec env db = .ok (db', v)) :
    ∀ r ∈ db'.rentals.rows, 1 ≤ r.rateSatsPerMin ∧ 0 ≤ r.satsCharged := by
  obtain ⟨charge, new, hrows, hopens, -, -, hcharge⟩ := exec_rentals hv hx
  rcases hopens with rfl | ⟨r', rfl, ⟨req, now, rfl⟩, -⟩
  · intro r hr
    rw [hrows, List.append_nil] at hr
    obtain ⟨r₀, hr₀, rfl⟩ := List.mem_map.mp hr
    obtain ⟨hrate, hcharged⟩ := h.2 r₀ hr₀
    have hterms : (txn.rewrite charge r₀).rateSatsPerMin = r₀.rateSatsPerMin :=
      (congrArg RentalRow.rateSatsPerMin (txn.rewrite_terms charge r₀) :)
    rw [hterms, Txn.rewrite_satsCharged]
    refine ⟨hrate, ?_⟩
    split
    case isFalse => exact hcharged
    case isTrue hset =>
      cases txn with
      | report machine rental req now =>
        obtain ⟨a, ha, -, rfl⟩ := hcharge machine rental req now rfl hset.1
        exact le_min (hfair hset.1) (hwf.balance a ha)
      | _ => exact hset.elim
  · exact h.created hx

theorem PricesPositive.exec (h : PricesPositive db) (hwf : db.Wf)
    (hv : txn.Valid db ∧ txn.RateChecked) (hx : txn.exec env db = .ok (db', v))
    (hfair : db.FairPrice env txn) : PricesPositive db' :=
  ⟨h.machines hv.2 hfair hx, h.rentals hwf hv.1 hfair hx⟩

theorem exec_of_unfair (hwf : db.Wf) (hv : txn.Valid db) (hfair : ¬db.FairPrice env txn) :
    ∃ r, txn.exec env db = .ok r := by
  cases txn with
  | registerUpdate m req now => exact ⟨_, rfl⟩
  | registerInsert req token now =>
    obtain ⟨hfresh, -⟩ := Classical.not_imp.mp hfair
    have htoken : ¬db.machines.rows.any (·.agentToken = token) := by
      simpa using fun m hm => (hfresh m hm).1
    have hhost : ¬db.machines.rows.any (·.hostId = req.hostId) := by
      simpa using fun m hm => (hfresh m hm).2
    simp only [Txn.exec, registerInsert, Db.insertMachine, htoken, hhost, Bool.false_eq_true,
      if_false]
    exact ⟨_, rfl⟩
  | report machine rental req now => exact report_exec_ok hwf hv.2.1
  | _ => exact absurd trivial hfair

theorem exists_price (hv : txn.Valid db) (hx : txn.exec env db = .ok (db', v)) {rate : Int}
    (h : txn.price = some rate) : ∃ m ∈ db'.machines.rows, m.rateSatsPerMin = rate := by
  cases txn with
  | registerUpdate m req now =>
    cases hx
    cases h
    obtain ⟨m', hm', hid⟩ := hv.has
    have hrow := @Table.update_mem _ _ _ _ _ m.id (req.refresh now) (req.refresh_id now) _ hm'
    rw [if_pos hid] at hrow
    exact ⟨_, hrow, rfl⟩
  | registerInsert req token now =>
    cases h
    obtain ⟨-, rfl, -⟩ := registerInsert_ok hx
    exact ⟨req.toRow db.machines.nextId token now, by simp, rfl⟩
  | rate machine req =>
    cases hx
    cases h
    obtain ⟨m', hm', hid⟩ := hv.has
    have hrow := @Table.update_mem _ _ MachineRow.id _ db.machines machine.id
      (fun m => { m with rateSatsPerMin := req.rateSatsPerMin }) (fun _ => rfl) m' hm'
    rw [if_pos hid] at hrow
    exact ⟨_, hrow, rfl⟩
  | _ => cases h

/-- A registration below one sat per minute is written as it stands, and so is a negative charge. -/
theorem not_positive_of_unfair (hv : txn.Valid db) (hx : txn.exec env db = .ok (db', v))
    (hfair : ¬db.FairPrice env txn) : ¬PricesPositive db' := by
  intro h
  cases txn with
  | registerUpdate m req now =>
    obtain ⟨m', hm', hrate⟩ := exists_price hv hx rfl
    exact hfair ((h.1 m' hm').trans_eq hrate)
  | registerInsert req token now =>
    obtain ⟨m', hm', hrate⟩ := exists_price hv hx rfl
    exact hfair fun _ => (h.1 m' hm').trans_eq hrate
  | report machine rental req now =>
    obtain ⟨charge, new, hrows, -, -, -, hcharge⟩ := exec_rentals hv hx
    refine hfair fun hset => ?_
    obtain ⟨a, -, -, rfl⟩ := hcharge machine rental req now rfl hset
    obtain ⟨cur, hcur, hid, -⟩ := hv.2.1.row
    have hrow : (Txn.report machine rental req now).settlesRow cur := ⟨hset, hid.trans hv.2.2.1⟩
    obtain ⟨-, hcharged⟩ := h.2 _ (hrows ▸ List.mem_append_left _ (List.mem_map_of_mem hcur))
    rw [Txn.rewrite_satsCharged, if_pos hrow] at hcharged
    exact hcharged.trans (min_le_left _ _)
  | _ => exact hfair trivial

end Step

theorem PricesPositive.funded {env : Env} {s : ServerConf} (h : PricesPositive s.store)
    (act : ServerAct) : RentsFunded env s act := by
  rintro req now ⟨db', v⟩ - hx a ha hid
  obtain ⟨m, hm, -, a', ha', hid', -, -, hrate, -⟩ := createRentalTx_ok hx
  have hpos := h.1 m hm
  rw [Table.eq_of_key_eq ha ha' (hid.trans hid'.symm)]
  omega

/-- Prices stay positive, an empty account obtains no rental and no charge is negative, exactly as
long as no registration that goes through names a price below one sat and no report settles what
the machine computes to have accrued below zero. -/
theorem prices_positive_iff (env : Env) (acts : List ServerAct) :
    (Always (server env).step (fun s => PricesPositive s.store) ServerConf.init acts ∧
      Along (server env).step (RentsFunded env) ServerConf.init acts) ↔
      Along (server env).step ((server env).Commits (Db.FairPrice env)) ServerConf.init acts := by
  have hprices : Always (server env).step (fun s => PricesPositive s.store) ServerConf.init acts ↔
      Along (server env).step ((server env).Commits (Db.FairPrice env)) ServerConf.init acts :=
    (priceContract env).always_iff_commits (J := fun db _ => PricesPositive db)
      (P := fun db _ => PricesPositive db) (fun _ h => h)
      (fun hwf hv hx h hfair => h.exec hwf hv hx hfair) (fun hwf hv hfair => exec_of_unfair hwf hv.1 hfair)
      (fun _ hv hx _ hfair => not_positive_of_unfair hv.1 hx hfair) (init_priced env)
      ⟨fun _ hm => absurd hm List.not_mem_nil, fun _ hr => absurd hr List.not_mem_nil⟩ acts
  rw [← hprices]
  refine and_iff_left_of_imp fun h pre act hpre => ?_
  exact (h pre ((List.prefix_append pre [act]).trans hpre)).funded act

/-- The host registers at a negative rate, and a tenant without a sat rents its machine. -/
def freeHost : List ServerAct :=
  call 0 (.register { testHost with rateSatsPerMin := -10 }) [{}, { token := "agt_1" }] ++
  call 1 .createAccount [{ token := "acct_1" }] ++
  call 2 (.createRental ⟨1, "acct_1", "nvidia/cuda:latest", some "ssh-ed25519 AAAA"⟩) [{}] ++
  call 3 (.report bearer { rentalId := 1, status := .stopped }) [{}, { now := 60 }, { now := 60 }]

theorem freeHost_not_positive :
    ¬(Always (server testEnv).step (fun s => PricesPositive s.store) ServerConf.init freeHost ∧
      Along (server testEnv).step (RentsFunded testEnv) ServerConf.init freeHost) ∧
    (serve testEnv freeHost).store.accounts.rows.map (·.balanceSats) = [0] ∧
    (serve testEnv freeHost).store.rentals.rows.map
      (fun r => (r.rateSatsPerMin, r.satsCharged)) = [(-10, -10)] := by
  have final : ¬PricesPositive (serve testEnv freeHost).store ∧
      (serve testEnv freeHost).store.accounts.rows.map (·.balanceSats) = [0] ∧
      (serve testEnv freeHost).store.rentals.rows.map
        (fun r => (r.rateSatsPerMin, r.satsCharged)) = [(-10, -10)] := by
    decide +kernel
  exact ⟨fun h => final.1 (h.1 freeHost (List.prefix_refl _)), final.2⟩

end GpuMarket
