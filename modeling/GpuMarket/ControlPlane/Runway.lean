import GpuMarket.ControlPlane.Enforcement
import GpuMarket.ControlPlane.Reports

namespace GpuMarket

open Lib

def Op.SparesAccount (env : Env) (id : String) (db : Db) : Op → Prop
  | .createRental req now => req.accountId = id → ∀ r, createRentalTx env req now db ≠ .ok r
  | .report auth req _ => ∀ machine rental, authenticate db auth = .ok machine →
    rentalOfMachine db req.rentalId machine.id = .ok rental → settles rental req = true →
      rental.accountId ≠ id
  | _ => True

def Db.HoldsAtLeast (db : Db) (id : String) (sats : Int) : Prop :=
  ∃ a ∈ db.accounts.rows, a.id = id ∧ sats ≤ a.balanceSats

section Balance

variable {env : Env} {db db' : Db} {id : String} {sats : Int}

theorem Db.HoldsAtLeast.exec {txn : Txn} {v : Reply} (h : db.HoldsAtLeast id sats) (hwf : db.Wf)
    (hv : txn.Valid db) (hx : txn.exec env db = .ok (db', v))
    (hspares : ∀ machine rental req now, txn = .report machine rental req now →
      settles rental req = true → rental.accountId ≠ id) : db'.HoldsAtLeast id sats := by
  obtain ⟨a, ha, rfl, hle⟩ := h
  obtain ⟨charge, hrows⟩ := exec_accounts hx
  have hposts : 0 ≤ txn.posts charge a.id := by
    cases txn with
    | report machine rental req now =>
      have hother : ¬(settles rental req = true ∧ rental.accountId = a.id ∧ 0 < charge) :=
        fun h => hspares machine rental req now rfl h.1 h.2.1
      rw [Txn.posts, if_neg hother]
    | pollInvoice p now =>
      obtain ⟨i, hi, -, -, -, hsats⟩ := hv
      have hpos := hwf.invoice_sats i hi
      simp only [Txn.posts]
      split <;> omega
    | _ => exact le_rfl
  refine ⟨a.post (txn.posts charge), hrows ▸ List.mem_append_left _ (List.mem_map_of_mem ha), rfl,
    ?_⟩
  simp only [AccountRow.post]
  omega

theorem Op.SparesAccount.holdsAtLeast {op : Op} (hop : op.SparesAccount env id db) (hwf : db.Wf)
    (h : db.HoldsAtLeast id sats) : (op.step env db).HoldsAtLeast id sats := by
  have idle : (∀ db txn, op.Runs db txn → ∀ machine rental req now,
      txn ≠ .report machine rental req now) → (op.step env db).HoldsAtLeast id sats := by
    intro hreport
    refine ((op.evolves env db).preserves (J := fun db => db.Wf ∧ db.HoldsAtLeast id sats)
      (fun {db txn _ _} hruns hx h => ?_) ⟨hwf, h⟩).2
    exact ⟨h.1.exec hruns.1.valid hx, h.2.exec h.1 hruns.1.valid hx
      fun machine rental req now heq => absurd heq (hreport db txn hruns _ _ _ _)⟩
  cases op with
  | report auth req now =>
    obtain hsame | ⟨machine, rental, v, hm, hr, hx⟩ := Op.report_step env db auth req now
    · rwa [hsame]
    · have hvalid : (Txn.report machine rental req now).Valid db :=
        Txn.Fresh.valid ⟨(authenticate_ok hm).1, rentalOfMachine_ok hr⟩
      refine h.exec hwf hvalid hx ?_
      rintro _ _ _ _ ⟨rfl⟩ hset
      exact hop machine rental hm hr hset
  | _ =>
    refine idle fun db txn hruns machine rental req now heq => ?_
    subst heq
    simp [Op.Runs] at hruns

end Balance

theorem getAccount_ok {db : Db} {id : String} {acct : AccountResponse}
    (h : getAccount id db = .ok (.accountDetails acct)) :
    ∃ a ∈ db.accounts.rows, a.id = id ∧ acct.balanceSats = a.balanceSats ∧
      acct.burnSatsPerMin = burnSatsPerMin db id ∧
      acct.runwayMinutes = if burnSatsPerMin db id > 0 then
        some (a.balanceSats.tdiv (burnSatsPerMin db id)) else none := by
  obtain ⟨a, hfind, h⟩ := bind_eq_ok.mp h
  obtain ⟨ha, hid⟩ := findAccount_ok hfind
  cases h
  exact ⟨a, ha, hid, rfl, rfl, rfl⟩

theorem rate_le_burn {db : Db} (hrates : ∀ r ∈ db.rentals.rows, 1 ≤ r.rateSatsPerMin)
    {r : RentalRow} (hr : r ∈ db.rentals.rows) (hrun : r.status = .running) :
    r.rateSatsPerMin ≤ burnSatsPerMin db r.accountId := by
  refine List.single_le_sum (fun rate hrate => ?_) _ (List.mem_map_of_mem ?_)
  · obtain ⟨r', hr', rfl⟩ := List.mem_map.mp hrate
    have hpos := hrates r' (List.mem_filter.mp hr').1
    omega
  · exact List.mem_filter.mpr ⟨hr, by simp [hrun]⟩

/-- In as many minutes from its creation as the runway counts, a rental accrues no more than the
account holds. -/
theorem accrued_le_of_runway {env : Env} {r : RentalRow} {burn sats now : Int}
    (hrate : 1 ≤ r.rateSatsPerMin) (hburn : r.rateSatsPerMin ≤ burn) (hsats : 0 ≤ sats)
    (hclock : r.ClockFits env now) (hnow : now ≤ r.createdAt + 60 * sats.tdiv burn) :
    r.accrued env now ≤ sats := by
  have hw : sats.tdiv burn = sats / burn := Int.tdiv_eq_ediv_of_nonneg hsats
  have hw0 : 0 ≤ sats / burn := Int.ediv_nonneg hsats (by omega)
  have helapsed : max (now - r.createdAt) 0 ≤ 60 * (sats / burn) := by omega
  have hproduct : max (now - r.createdAt) 0 * r.rateSatsPerMin ≤ sats * 60 := by
    calc max (now - r.createdAt) 0 * r.rateSatsPerMin
        ≤ 60 * (sats / burn) * burn := Int.mul_le_mul helapsed hburn (by omega) (by omega)
      _ = sats / burn * burn * 60 := by rw [Int.mul_comm 60, Int.mul_right_comm]
      _ ≤ sats * 60 := Int.mul_le_mul_of_nonneg_right (Int.ediv_mul_le sats (by omega)) (by decide)
  calc r.accrued env now
      ≤ r.accrued env.exactly now := r.accrued_le_exactly hclock (by omega)
    _ = max (now - r.createdAt) 0 * r.rateSatsPerMin / 60 := accruedCharge_eq (by omega) _ _
    _ ≤ sats := Int.ediv_le_of_le_mul (by decide) hproduct

/-- The advertised runway counts from a rental's creation: within it no pass evicts the rental,
whatever has happened since except the creation or the settlement of one of the account's
rentals. No charge that wraps around is in the way. -/
theorem runway_safe_from_creation (env : Env) (ops : List Op)
    (hrates : ∀ r ∈ (perform env ops).rentals.rows, 1 ≤ r.rateSatsPerMin)
    {id : String} {acct : AccountResponse} {w : Int}
    (hget : getAccount id (perform env ops) = .ok (.accountDetails acct))
    (hw : acct.runwayMinutes = some w) {later : List Op}
    (hspares : Along (Op.step env) (Op.SparesAccount env id) (perform env ops) later)
    (now : Int → Int) :
    ∀ r ∈ (perform env ops).rentals.rows, r.accountId = id → r.status = .running →
      now r.id ≤ r.createdAt + 60 * w → r.ClockFits env (now r.id) →
        ∀ r' ∈ (perform env (ops ++ later)).rentals.rows, r'.id = r.id →
          r' ∈ (enforceBudgets env now (perform env (ops ++ later))).1.rentals.rows := by
  rintro r hr rfl hrun hnow hclock r' hr' hid
  obtain ⟨a, ha, haid, -, -, hrunway⟩ := getAccount_ok hget
  have hwf := perform_wf env ops
  have hburn := rate_le_burn hrates hr hrun
  have hrate := hrates r hr
  have hsats := hwf.balance a ha
  rw [hw, if_pos (by omega)] at hrunway
  cases hrunway
  -- what the account held it still holds, and the rental is on the terms that it had
  obtain ⟨hwf', hholds, hextends⟩ := run_invariant_along
    (I := fun db => db.Wf ∧ db.HoldsAtLeast r.accountId a.balanceSats ∧
      (perform env ops).Extends db)
    (fun db op h hop => ⟨op.wf h.1, hop.holdsAtLeast h.1 h.2.1,
      h.2.2.trans (op.evolves env db).toExtends⟩)
    ⟨hwf, ⟨a, ha, haid, le_rfl⟩, .refl _⟩ later hspares
  have hstate : perform env (ops ++ later) = run (Op.step env) (perform env ops) later :=
    run_append _ _ _
  rw [← hstate] at hwf' hholds hextends
  obtain ⟨r₀, hr₀, hterms⟩ := hextends.rental hr
  obtain ⟨-, hacc, -, -, hrate', hcreated, hid₀⟩ := RentalRow.terms_eq_iff.mp hterms
  obtain rfl := Table.eq_of_key_eq hr₀ hr' (hid₀.trans hid.symm)
  have haccrued : r₀.accrued env (now r₀.id) ≤ a.balanceSats := by
    rw [← hrate'] at hrate hburn
    rw [RentalRow.ClockFits, ← hcreated, ← hid] at hclock
    exact accrued_le_of_runway hrate hburn hsats hclock (by rwa [hcreated, hid])
  obtain ⟨db', hpass, -, -, -, hrentals⟩ := enforceBudgets_rentals env hwf'.rental_machine
    hwf'.rental_account now
  rw [hpass, hrentals]
  refine List.mem_map.mpr ⟨r₀, hr₀, if_neg ?_⟩
  rintro ⟨-, -, a', ha', haid', hover⟩
  obtain ⟨a'', ha'', haid'', hle⟩ := hholds
  obtain rfl := Table.eq_of_key_eq ha' ha'' ((haid'.trans hacc).trans haid''.symm)
  exact absurd hover (by omega)

theorem underway_runway :
    ∃ acct, getAccount "acct_1" (perform testEnv (underway 10 100)) = .ok (.accountDetails acct) ∧
      acct.runwayMinutes = some 10 :=
  ⟨_, rfl, by decide +kernel⟩

/-- A rental of nine minutes' standing: at second 540 its account shows a runway of ten minutes,
and a pass at second 1100 evicts it. -/
theorem agedRental_outruns :
    let db := perform testEnv (underway 10 100)
    let later : List Op := [.heartbeat bearer ⟨true⟩ 1100]
    (∀ r ∈ db.rentals.rows, 1 ≤ r.rateSatsPerMin) ∧
      (∃ acct, getAccount "acct_1" db = .ok (.accountDetails acct) ∧
        acct.runwayMinutes = some 10) ∧
      Along (Op.step testEnv) (Op.SparesAccount testEnv "acct_1") db later ∧
      (540 : Int) ≤ 1100 ∧ (1100 : Int) ≤ 540 + 60 * 10 ∧
      ∃ r ∈ db.rentals.rows, r.accountId = "acct_1" ∧ r.status = .running ∧
        ∃ r' ∈ (enforceBudgets testEnv (fun _ => 1100)
          (perform testEnv (underway 10 100 ++ later))).1.rentals.rows,
          r'.id = r.id ∧ r'.status = .evicting := by
  refine ⟨by decide +kernel, underway_runway, ?_, by decide, by decide,
    by decide +kernel⟩
  simp [Op.SparesAccount]

/-- The same rental at second 600, ten minutes after its creation, is left running. -/
theorem runway_safe_from_creation_underway :
    ∃ r ∈ (perform testEnv (underway 10 100 ++ [.heartbeat bearer ⟨true⟩ 590])).rentals.rows,
      r.accountId = "acct_1" ∧ r.status = .running ∧
        r ∈ (enforceBudgets testEnv (fun _ => 600) (perform testEnv
          (underway 10 100 ++ [.heartbeat bearer ⟨true⟩ 590]))).1.rentals.rows := by
  obtain ⟨acct, hget, hw⟩ := underway_runway
  have hrental : ∃ r ∈ (perform testEnv (underway 10 100)).rentals.rows,
      r.accountId = "acct_1" ∧ r.status = .running ∧ (600 : Int) ≤ r.createdAt + 60 * 10 ∧
        testEnv.arith.int64 (600 - r.createdAt) = 600 - r.createdAt ∧ ∃ r' ∈ (perform testEnv
          (underway 10 100 ++ [.heartbeat bearer ⟨true⟩ 590])).rentals.rows,
          r'.id = r.id ∧ r'.accountId = "acct_1" ∧ r'.status = .running := by
    decide +kernel
  obtain ⟨r, hr, hacc, hrun, hnow, hclock, r', hr', hid, hacc', hrun'⟩ := hrental
  exact ⟨r', hr', hacc', hrun', runway_safe_from_creation testEnv (underway 10 100)
    (by decide +kernel) hget hw (by simp [Op.SparesAccount]) (fun _ => 600) r hr hacc hrun hnow
    hclock r' hr' hid⟩

end GpuMarket
