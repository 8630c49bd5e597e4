import GpuMarket.Core.Int64
import GpuMarket.ControlPlane.Prices
import GpuMarket.ControlPlane.Sequential

namespace GpuMarket

open Lib

section Accrual

variable {start stop rate : Int}

/-- The charge is the one in exact integers, no amount below zero, and grows with the end. -/
def ChargeExact (start stop rate : Int) : Prop :=
  accruedCharge .wrapping start stop rate = (stop - start) * rate / 60 ∧
    0 ≤ accruedCharge .wrapping start stop rate ∧
    ∀ t, start ≤ t → t ≤ stop →
      accruedCharge .wrapping start t rate ≤ accruedCharge .wrapping start stop rate

theorem chargeExact_iff (hrate : 1 ≤ rate) (hstop : start ≤ stop) :
    ChargeExact start stop rate ↔ (stop - start) * rate < 2 ^ 63 := by
  refine ⟨fun h => ?_, fun hfits => ?_⟩
  · by_contra hover
    have hlt := accruedCharge_lt hrate (not_lt.mp hover)
    exact absurd h.1 hlt.ne
  · have hexact := accruedCharge_of_fits .wrapping hrate hstop hfits
    refine ⟨hexact, ?_, fun t ht hle => ?_⟩
    · rw [hexact]
      exact Int.ediv_nonneg (Int.mul_nonneg (by omega) (by omega)) (by decide)
    · have hmul : (t - start) * rate ≤ (stop - start) * rate :=
        Int.mul_le_mul_of_nonneg_right (by omega) (by omega)
      rw [hexact, accruedCharge_of_fits .wrapping hrate ht (by omega)]
      exact Int.ediv_le_ediv (by decide) hmul

end Accrual

/-- `machine_to_offer` as the machine computes it. -/
def machineToOffer64 (m : MachineRow) : Offer :=
  { machineToOffer m with rateSatsPerHour := wrap64 (m.rateSatsPerMin * 60) }

section Agreement

variable {env : Env}

def RentalRow.ChargeFits (r : RentalRow) (now : Int) : Prop :=
  1 ≤ r.rateSatsPerMin ∧ r.createdAt ≤ now ∧ (now - r.createdAt) * r.rateSatsPerMin < 2 ^ 63

def Op.ChargesFit (db : Db) : Op → Prop
  | .report _ req now =>
    ∀ r ∈ db.rentals.rows, r.id = req.rentalId → settles r req = true → r.ChargeFits now
  | .enforceBudgets now => ∀ r ∈ runningRentals db, r.ChargeFits (now r.id)
  | _ => True

theorem RentalRow.ChargeFits.eq {r : RentalRow} {now : Int} (h : r.ChargeFits now) :
    r.accrued env now = r.accrued env.exactly now := by
  obtain ⟨hrate, hstop, hfits⟩ := h
  rw [accrued, accrued, accruedCharge_of_fits _ hrate hstop hfits,
    accruedCharge_of_fits _ hrate hstop hfits]

theorem reportTx_exactly {machine : MachineRow} {rental : RentalRow} {req : ReportRequest}
    {now : Int} {db : Db}
    (h : settles rental req = true → rental.accrued env now = rental.accrued env.exactly now) :
    reportTx env machine rental req now db = reportTx env.exactly machine rental req now db := by
  cases hset : settles rental req with
  | false => simp only [reportTx, hset, Bool.false_eq_true, if_false]
  | true =>
    have heq := h hset
    simp only [RentalRow.accrued] at heq
    simp only [reportTx, hset, if_true, heq]

theorem enforceBudgetsLoop_exactly {now : Int → Int} {running : List RentalRow} {db : Db}
    (h : ∀ r ∈ running, r.accrued env (now r.id) = r.accrued env.exactly (now r.id)) :
    enforceBudgetsLoop env now running db = enforceBudgetsLoop env.exactly now running db := by
  induction running generalizing db with
  | nil => rfl
  | cons r rest ih =>
    obtain ⟨hr, hrest⟩ := List.forall_mem_cons.mp h
    simp only [RentalRow.accrued] at hr
    simp only [enforceBudgetsLoop, hr]
    cases lastHeartbeat db r.machineId with
    | error e => rfl
    | ok last =>
      refine if_congr Iff.rfl (ih hrest) ?_
      cases db.balanceOf r.accountId with
      | error e => rfl
      | ok balance =>
        refine if_congr Iff.rfl (ih hrest) ?_
        rw [show evictTx env.exactly r (now r.id) db = evictTx env r (now r.id) db from rfl]
        cases evictTx env r (now r.id) db with
        | error e => rfl
        | ok db' => exact ih hrest

theorem Op.step_exactly {db : Db} {op : Op} (h : op.ChargesFit db) :
    op.step env db = op.step env.exactly db := by
  cases op with
  | report auth req now =>
    refine congrArg (committed db) ?_
    refine bind_congr fun machine => ?_
    cases hr : rentalOfMachine db req.rentalId machine.id with
    | error e => rfl
    | ok rental =>
      obtain ⟨hmem, hid, -⟩ := rentalOfMachine_ok hr
      exact reportTx_exactly fun hset => (h rental hmem hid hset).eq
  | enforceBudgets now =>
    exact congrArg Prod.fst (enforceBudgetsLoop_exactly fun r hr => (h r hr).eq)
  | _ => rfl

end Agreement

theorem perform_exactly {env : Env} {ops : List Op}
    (h : Along (Op.step env.exactly) (fun db op => op.ChargesFit db) .empty ops) :
    perform env ops = perform env.exactly ops :=
  run_congr fun pre op hpre => Op.step_exactly (h pre op hpre)

/-- Every price fits sixtyfold, and every rental's charge fits up to `now`. -/
def Db.Fits (now : Int) (db : Db) : Prop :=
  (∀ m ∈ db.machines.rows, 1 ≤ m.rateSatsPerMin ∧ m.rateSatsPerMin * 60 < 2 ^ 63) ∧
    ∀ r ∈ db.rentals.rows, 1 ≤ r.rateSatsPerMin ∧
      (r.createdAt ≤ now → (now - r.createdAt) * r.rateSatsPerMin < 2 ^ 63)

/-- The hourly price of every machine is exact, and so is what a rental that has not ended has
accrued by `now`. -/
def MoneyExact (now : Int) (db : Db) : Prop :=
  (∀ m ∈ db.machines.rows, (machineToOffer64 m).rateSatsPerHour = m.rateSatsPerMin * 60) ∧
    ∀ r ∈ db.rentals.rows, r.status.isTerminal = false → r.createdAt ≤ now →
      ChargeExact r.createdAt now r.rateSatsPerMin

theorem Db.Fits.moneyExact {now : Int} {db : Db} (h : db.Fits now) : MoneyExact now db := by
  refine ⟨fun m hm => ?_, fun r hr _ hnow => ?_⟩
  · obtain ⟨hpos, hfits⟩ := h.1 m hm
    exact wrap64_of_nonneg (by omega) hfits
  · obtain ⟨hpos, hfits⟩ := h.2 r hr
    exact (chargeExact_iff hpos hnow).mpr (hfits hnow)

theorem Db.Fits.exec {env : Env} {now : Int} {txn : Txn} {db db' : Db} {v : Reply} (h : db.Fits now)
    (hv : txn.Valid db) (hx : txn.exec env db = .ok (db', v))
    (hprice : ∀ rate, txn.price = some rate → 1 ≤ rate ∧ rate * 60 < 2 ^ 63)
    (hrent : ∀ req t, txn = .createRental req t → ∀ m ∈ db.machines.rows, m.id = req.machineId →
      t ≤ now → (now - t) * m.rateSatsPerMin < 2 ^ 63) : db'.Fits now := by
  constructor
  · obtain ⟨charge, hrows, -⟩ := exec_machines hx
    intro m hm
    rw [hrows] at hm
    rcases List.mem_append.mp hm with hm | hm
    · obtain ⟨m₀, hm₀, rfl⟩ := List.mem_map.mp hm
      rcases txn.rewriteMachine_rate env charge m₀ with hsame | hwritten
      · exact hsame ▸ h.1 m₀ hm₀
      · exact hprice _ hwritten
    · exact hprice _ (Txn.newMachines_rate hm)
  · obtain ⟨charge, new, hrows, hopens, -⟩ := exec_rentals hv hx
    rcases hopens with rfl | ⟨r', rfl, ⟨req, t, rfl⟩, -⟩
    · intro r hr
      rw [hrows, List.append_nil] at hr
      obtain ⟨r₀, hr₀, rfl⟩ := List.mem_map.mp hr
      obtain ⟨-, -, -, -, hrate, hcreated, -⟩ :=
        RentalRow.terms_eq_iff.mp (txn.rewrite_terms charge r₀)
      rw [hrate, hcreated]
      exact h.2 r₀ hr₀
    · obtain ⟨m, hm, hid, a, -, -, -, -, -, -, key, -, rfl⟩ := createRentalTx_ok hx
      intro r hr
      rcases Db.mem_withRental.mp hr with hr | rfl
      · exact h.2 r hr
      · exact ⟨(h.1 m hm).1, hrent req t rfl m hm hid⟩

def Op.PricePositive : Op → Prop
  | .register req _ _ => 1 ≤ req.rateSatsPerMin
  | _ => True

/-- A price that the operation writes fits sixtyfold, and a rental that it creates can run until
`now` at its price. -/
def Op.Fits (env : Env) (now : Int) (db : Db) : Op → Prop
  | .register req token t => ∀ r, GpuMarket.register req token t db = .ok r →
    req.rateSatsPerMin * 60 < 2 ^ 63
  | .rate auth req => ∀ r, GpuMarket.rate auth req db = .ok r → req.rateSatsPerMin * 60 < 2 ^ 63
  | .createRental req t => ∀ r, createRentalTx env req t db = .ok r →
    ∀ m ∈ db.machines.rows, m.id = req.machineId → t ≤ now → (now - t) * m.rateSatsPerMin < 2 ^ 63
  | _ => True

section Pricing

variable {env : Env} {db db' : Db} {v : Reply}

theorem register_exec {req : RegisterRequest} {token : String} {t : Int}
    (hx : register req token t db = .ok (db', v)) :
    ∃ txn : Txn, txn.Valid db ∧ txn.exec env db = .ok (db', v) ∧
      txn.price = some req.rateSatsPerMin ∧ ∀ req t, txn ≠ .createRental req t := by
  unfold register at hx
  split at hx
  case h_1 m hm =>
    exact ⟨.registerUpdate m req t, ⟨m, List.mem_of_find?_eq_some hm, rfl⟩, hx, rfl, by simp⟩
  case h_2 => exact ⟨.registerInsert req token t, trivial, hx, rfl, by simp⟩

theorem rate_exec {auth : Option String} {req : RateRequest}
    (hx : rate auth req db = .ok (db', v)) :
    ∃ txn : Txn, txn.Valid db ∧ txn.exec env db = .ok (db', v) ∧
      txn.price = some req.rateSatsPerMin ∧ (∀ req t, txn ≠ .createRental req t) ∧
      1 ≤ req.rateSatsPerMin := by
  obtain ⟨machine, hm, hx⟩ := bind_eq_ok.mp hx
  obtain ⟨u, hcheck, hx⟩ := bind_eq_ok.mp hx
  exact ⟨.rate machine req, authenticate_hasMachine hm, hx, rfl, by simp, checkRate_ok hcheck⟩

end Pricing

theorem committed_induct {P : Db → Prop} {db : Db} {x : Except ApiError (Db × Reply)} (h : P db)
    (hok : ∀ db' v, x = .ok (db', v) → P db') : P (committed db x) := by
  cases x with
  | error e => exact h
  | ok r => exact hok r.1 r.2 rfl

section Run

variable {env : Env} {now : Int} {db : Db}

theorem Db.Fits.evolves {op : Op} (h : db.Fits now)
    (hprice : ∀ db txn, op.Runs db txn → txn.price = none)
    (hrent : ∀ db txn, op.Runs db txn → ∀ req t, txn ≠ .createRental req t) :
    (op.step env db).Fits now := by
  refine (op.evolves env db).preserves (J := Db.Fits now) ?_ h
  intro db txn db' v hruns hx h
  refine h.exec hruns.1.valid hx (fun rate hwritten => ?_) fun req t heq => ?_
  · rw [hprice db txn hruns] at hwritten
    cases hwritten
  · exact absurd heq (hrent db txn hruns req t)

theorem Op.Runs.price_cases {op : Op} {txn : Txn} (h : op.Runs db txn) :
    (txn.price = none ∧ ∀ req t, txn ≠ .createRental req t) ∨
      (∃ req token t, op = .register req token t) ∨ (∃ auth req, op = .rate auth req) ∨
        ∃ req t, op = .createRental req t := by
  obtain ⟨-, h⟩ := h
  cases txn with
  | registerUpdate | registerInsert | rate | createRental => cases op <;> simp at h ⊢
  | _ => exact .inl ⟨rfl, nofun⟩

theorem Op.Fits.step {op : Op} (h : db.Fits now) (hpos : op.PricePositive)
    (hop : op.Fits env now db) : (op.step env db).Fits now := by
  have idle : (∀ db txn, op.Runs db txn → txn.price = none ∧ ∀ req t, txn ≠ .createRental req t) →
      (op.step env db).Fits now := by
    intro hruns
    exact h.evolves (fun db txn hrun => (hruns db txn hrun).1) fun db txn hrun =>
      (hruns db txn hrun).2
  cases op with
  | register req token t =>
    refine committed_induct h fun db' v hx => ?_
    obtain ⟨txn, hv, hexec, hprice, hrent⟩ := @register_exec env _ _ _ _ _ _ hx
    refine h.exec hv hexec (fun rate hwritten => ?_) fun req t heq => absurd heq (hrent req t)
    cases hprice.symm.trans hwritten
    exact ⟨hpos, hop _ hx⟩
  | rate auth req =>
    refine committed_induct h fun db' v hx => ?_
    obtain ⟨txn, hv, hexec, hprice, hrent, hone⟩ := @rate_exec env _ _ _ _ _ hx
    refine h.exec hv hexec (fun rate hwritten => ?_) fun req t heq => absurd heq (hrent req t)
    cases hprice.symm.trans hwritten
    exact ⟨hone, hop _ hx⟩
  | createRental req t =>
    refine committed_induct h fun db' v hx => ?_
    refine @Db.Fits.exec env now (.createRental req t) db db' v h trivial hx nofun ?_
    rintro _ _ ⟨rfl⟩
    exact hop _ hx
  | _ => exact idle fun db txn hruns => by simpa using hruns.price_cases

theorem not_moneyExact_of_price {txn : Txn} {db' : Db} {v : Reply} {rate : Int}
    (hv : txn.Valid db) (hx : txn.exec env db = .ok (db', v)) (hprice : txn.price = some rate)
    (hpos : 1 ≤ rate) (hover : ¬rate * 60 < 2 ^ 63) : ¬MoneyExact now db' := by
  intro h
  obtain ⟨m, hm, rfl⟩ := exists_price hv hx hprice
  exact hover ((wrap64_eq_self_iff (by omega)).mp (h.1 m hm))

theorem Op.not_moneyExact {op : Op} (h : db.Fits now) (hpos : op.PricePositive)
    (hop : ¬op.Fits env now db) : ¬MoneyExact now (op.step env db) := by
  cases op with
  | register req token t =>
    simp only [Fits, not_forall] at hop
    obtain ⟨r, hx, hover⟩ := hop
    obtain ⟨txn, hv, hexec, hprice, -⟩ := @register_exec env _ _ _ _ _ _ hx
    have hstep : (Op.register req token t).step env db = r.1 :=
      congrArg (committed db) hx
    rw [hstep]
    exact not_moneyExact_of_price hv hexec hprice hpos hover
  | rate auth req =>
    simp only [Fits, not_forall] at hop
    obtain ⟨r, hx, hover⟩ := hop
    obtain ⟨txn, hv, hexec, hprice, -, hone⟩ := @rate_exec env _ _ _ _ _ hx
    have hstep : (Op.rate auth req).step env db = r.1 := congrArg (committed db) hx
    rw [hstep]
    exact not_moneyExact_of_price hv hexec hprice hone hover
  | createRental req t =>
    simp only [Fits, not_forall] at hop
    obtain ⟨r, hx, m, hm, hid, hnow, hover⟩ := hop
    obtain ⟨m', hm', hid', a, -, -, -, -, -, -, key, -, hdb⟩ := createRentalTx_ok hx
    obtain rfl := Table.eq_of_key_eq hm' hm (hid'.trans hid.symm)
    have hstep : (Op.createRental req t).step env db = r.1 :=
      congrArg (committed db) hx
    have hnew : RentalRow.created req.machineId req.accountId req.image key m'.rateSatsPerMin t
        db.rentals.nextId ∈ r.1.rentals.rows := by
      rw [hdb]
      exact Db.mem_withRental.mpr (.inr rfl)
    rw [hstep]
    intro hexact
    have hcharge := hexact.2 _ hnew rfl hnow
    exact hover ((chargeExact_iff (h.1 m' hm).1 hnow).mp hcharge)
  | _ => exact absurd trivial hop

/-- In every state of a run, hourly prices and the charges accrued by `now` are exact, none is
negative and all grow with time, exactly as long as every accepted price fits sixtyfold and every
rental is created at a price that it can run at until `now`. -/
theorem money_exact_iff (env : Env) (now : Int) {ops : List Op}
    (hpos : ∀ op ∈ ops, op.PricePositive) :
    Always (Op.step env) (MoneyExact now) .empty ops ↔
      Along (Op.step env) (Op.Fits env now) .empty ops :=
  @always_iff_along_of _ _ (Op.step env) (Db.Fits now) (MoneyExact now)
    (Op.Fits env now) Op.PricePositive (fun _ h => h.moneyExact)
    (fun _ _ h hpos hop => Op.Fits.step h hpos hop)
    (fun _ _ h hpos hop => Op.not_moneyExact h hpos hop)
    .empty ⟨fun _ hm => absurd hm List.not_mem_nil, fun _ hr => absurd hr List.not_mem_nil⟩ ops hpos

end Run

theorem money_exact_underway : Always (Op.step testEnv) (MoneyExact 600) .empty
    (underway 10 100) := by
  refine (money_exact_iff testEnv 600 ?_).mpr ?_
  · simp [underway, Op.PricePositive]
  · have rates : ∀ m ∈ (run (Op.step testEnv) .empty
        ((underway 10 100).take 4)).machines.rows, m.rateSatsPerMin = 10 := by decide +kernel
    refine along_cons.mpr ⟨fun _ _ => by decide, along_cons.mpr ⟨trivial, along_cons.mpr ⟨trivial,
      along_cons.mpr ⟨trivial, along_cons.mpr ⟨?_, along_cons.mpr ⟨trivial, along_nil⟩⟩⟩⟩⟩⟩
    intro r _ m hm _ _
    rw [rates m hm]
    decide

/-- A machine at a price that a deposit can pay for, and a rental of less than three hours. -/
def dearRental : List Op := underway 1000000000000000 1000000000000000

/-- The rental's charge wraps around to less than nothing: it is settled for nothing. -/
theorem dearRental_overflows :
    (∀ op ∈ dearRental, op.PricePositive) ∧
    ¬Always (Op.step testEnv) (MoneyExact 10000) .empty dearRental ∧
    let db := run (Op.step testEnv) .empty
      (dearRental ++ [.report bearer { rentalId := 1, status := .stopped } 10000])
    db.rentals.rows.map (·.satsCharged) = [-140779067895159193] ∧
      db.accounts.rows.map (·.balanceSats) = [1000000000000000] ∧
      (machineToOffer64 ({ testHost with rateSatsPerMin := 2 ^ 62 }.toRow 1 "agt_1" 0)).rateSatsPerHour
        = 0 := by
  refine ⟨by simp [dearRental, underway, Op.PricePositive], fun h => ?_, by decide +kernel⟩
  obtain ⟨r, hr, hlive, hcreated, hover⟩ : ∃ r ∈ (run (Op.step testEnv) .empty
      dearRental).rentals.rows, r.status.isTerminal = false ∧ r.createdAt ≤ 10000 ∧
        accruedCharge .wrapping r.createdAt 10000 r.rateSatsPerMin ≠
          (10000 - r.createdAt) * r.rateSatsPerMin / 60 := by decide +kernel
  exact hover ((h dearRental (List.prefix_refl _)).2 r hr hlive hcreated).1

end GpuMarket
