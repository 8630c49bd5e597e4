import GpuMarket.ControlPlane.Contract

namespace GpuMarket

open Lib

def chargesOf (ledger : List LedgerRow) (rentalId : Int) : List Int :=
  (ledger.filter fun l => l.rentalId = some rentalId ∧ l.kind = .rentalCharge).map (-·.deltaSats)

def creditsOf (ledger : List LedgerRow) (rentalId : Int) : List Int :=
  (ledger.filter fun l => l.rentalId = some rentalId ∧ l.kind = .hostCredit).map (·.deltaSats)

theorem chargesOf_append (ledger ledger' : List LedgerRow) (id : Int) :
    chargesOf (ledger ++ ledger') id = chargesOf ledger id ++ chargesOf ledger' id := by
  simp [chargesOf]

theorem creditsOf_append (ledger ledger' : List LedgerRow) (id : Int) :
    creditsOf (ledger ++ ledger') id = creditsOf ledger id ++ creditsOf ledger' id := by
  simp [creditsOf]

theorem chargesOf_eq_nil {ledger : List LedgerRow} {id : Int}
    (h : ∀ l ∈ ledger, l.rentalId ≠ some id) : chargesOf ledger id = [] := by
  rw [chargesOf, List.filter_eq_nil_iff.mpr, List.map_nil]
  intro l hl
  simp [h l hl]

theorem creditsOf_eq_nil {ledger : List LedgerRow} {id : Int}
    (h : ∀ l ∈ ledger, l.rentalId ≠ some id) : creditsOf ledger id = [] := by
  rw [creditsOf, List.filter_eq_nil_iff.mpr, List.map_nil]
  intro l hl
  simp [h l hl]

def Txn.rewrite (charge : Int) : Txn → RentalRow → RentalRow
  | .report machine rental req now, r =>
    if r.id = req.rentalId then
      if settles rental req then
        { req.apply machine now r with
          satsCharged := charge
          minutesBilled := (max (now - rental.createdAt) 0).tdiv 60 }
      else req.apply machine now r
    else r
  | .deleteRental r₀ _, r => if r.id = r₀.id then { r with status := .evicting } else r
  | .evict r₀ _, r =>
    if r.id = r₀.id then { r with status := .evicting, error := some "insufficient balance" } else r
  | _, r => r

def Txn.statusOf : Txn → RentalRow → RentalStatus
  | .report _ _ req _, r => if r.id = req.rentalId then req.status else r.status
  | .deleteRental r₀ _, r | .evict r₀ _, r => if r.id = r₀.id then .evicting else r.status
  | _, r => r.status

theorem Txn.rewrite_terms (charge : Int) (txn : Txn) (r : RentalRow) :
    (txn.rewrite charge r).terms = r.terms := by
  unfold rewrite
  split <;> repeat' split
  all_goals rfl

@[simp] theorem Txn.rewrite_id (charge : Int) (txn : Txn) (r : RentalRow) :
    (txn.rewrite charge r).id = r.id := (congrArg RentalRow.id (txn.rewrite_terms charge r) :)

@[simp] theorem Txn.rewrite_machineId (charge : Int) (txn : Txn) (r : RentalRow) :
    (txn.rewrite charge r).machineId = r.machineId :=
  (congrArg RentalRow.machineId (txn.rewrite_terms charge r) :)

@[simp] theorem Txn.rewrite_status (charge : Int) (txn : Txn) (r : RentalRow) :
    (txn.rewrite charge r).status = txn.statusOf r := by
  unfold rewrite statusOf
  split <;> repeat' split
  all_goals rfl

def Txn.target : Txn → Option Int
  | .report _ _ req _ => some req.rentalId
  | .deleteRental r _ | .evict r _ => some r.id
  | _ => none

theorem Txn.statusOf_of_ne {txn : Txn} {r : RentalRow} (h : txn.target ≠ some r.id) :
    txn.statusOf r = r.status := by
  unfold target at h
  unfold statusOf
  split <;> simp_all [eq_comm]

/-- What a transaction charges a rental, as the rows that it adds for it. -/
def Txn.bills (charge : Int) : Txn → Int → List Int
  | .report _ rental req _, id =>
    if settles rental req ∧ rental.id = id ∧ 0 < charge then [charge] else []
  | _, _ => []

/-- No rental is new, or one is: just created, on a machine that was free. -/
def Txn.Opens (db : Db) (txn : Txn) (new : List RentalRow) : Prop :=
  new = [] ∨ ∃ r, new = [r] ∧ (∃ req now, txn = .createRental req now) ∧
    r.id = db.rentals.nextId ∧ r.status = .provisioning ∧ r.satsCharged = 0 ∧
    r.endedAt = none ∧ ¬occupied db r.machineId

theorem Db.charged_ledger (db : Db) (machineId : Int) (rental : RentalRow) (charge now id : Int) :
    (chargesOf (db.charged machineId rental charge now).ledger id =
      chargesOf db.ledger id ++ if rental.id = id ∧ 0 < charge then [charge] else []) ∧
    creditsOf (db.charged machineId rental charge now).ledger id =
      creditsOf db.ledger id ++ if rental.id = id ∧ 0 < charge then [charge] else [] := by
  rw [Db.ledger_charged, chargesOf_append, creditsOf_append]
  by_cases hpos : 0 < charge
  · by_cases hid : rental.id = id <;> simp [chargesOf, creditsOf, Db.chargeRows, hid, hpos]
  · simp [chargesOf, creditsOf, hpos]

/-- What a transaction does to the rentals and to their bills, where it charges `charge` and adds the
rentals `new`. -/
structure Txn.RentalsEffect (env : Env) (txn : Txn) (db db' : Db) (charge : Int)
    (new : List RentalRow) : Prop where
  rows : db'.rentals.rows = db.rentals.rows.map (txn.rewrite charge) ++ new
  opens : txn.Opens db new
  charges : ∀ id, chargesOf db'.ledger id = chargesOf db.ledger id ++ txn.bills charge id
  credits : ∀ id, creditsOf db'.ledger id = creditsOf db.ledger id ++ txn.bills charge id
  amount : ∀ machine rental req now, txn = .report machine rental req now →
    settles rental req = true → ∃ a ∈ db.accounts.rows, a.id = rental.accountId ∧
      charge = chargeOf env rental now a.balanceSats

theorem Txn.map_rewrite_id {txn : Txn} {charge : Int} (h : ∀ r, txn.rewrite charge r = r)
    (rs : List RentalRow) : rs.map (txn.rewrite charge) = rs := by
  simp [funext h]

theorem Txn.RentalsEffect.of_idle {env : Env} {txn : Txn} {db db' : Db}
    (hrentals : db'.rentals = db.rentals)
    (hrewrite : ∀ r, txn.rewrite 0 r = r) (hbills : ∀ id, txn.bills 0 id = [])
    (hreport : ∀ machine rental req now, txn ≠ .report machine rental req now)
    {ls : List LedgerRow} (hledger : db'.ledger = db.ledger ++ ls)
    (hls : ∀ l ∈ ls, l.rentalId = none) : txn.RentalsEffect env db db' 0 [] where
  rows := by rw [hrentals, map_rewrite_id hrewrite, List.append_nil]
  opens := .inl rfl
  charges id := by
    have hnil : chargesOf ls id = [] := chargesOf_eq_nil fun l hl => by simp [hls l hl]
    rw [hledger, chargesOf_append, hbills, hnil]
  credits id := by
    have hnil : creditsOf ls id = [] := creditsOf_eq_nil fun l hl => by simp [hls l hl]
    rw [hledger, creditsOf_append, hbills, hnil]
  amount machine rental req now htxn := absurd htxn (hreport machine rental req now)

theorem report_rentals {env : Env} {machine : MachineRow} {rental : RentalRow} {req : ReportRequest}
    {now : Int} {db db' : Db} {v : Reply} (hid : rental.id = req.rentalId)
    (hx : reportTx env machine rental req now db = .ok (db', v)) :
    ∃ charge, (Txn.report machine rental req now).RentalsEffect env db db' charge [] := by
  obtain ⟨hset, rfl⟩ | ⟨hset, a, ha, haid, rfl⟩ := reportTx_ok hx
  · refine ⟨0, ?_, .inl rfl, ?_, ?_, ?_⟩
    · simp [Db.updateRental, Table.rows_update, Txn.rewrite, hset]
    · simp [Txn.bills, hset, Db.updateRental]
    · simp [Txn.bills, hset, Db.updateRental]
    · rintro _ _ _ _ ⟨rfl⟩ h
      rw [hset] at h
      cases h
  · have hledger := Db.charged_ledger (db.updateRental req.rentalId (req.apply machine now)
      (req.apply_id machine now)) machine.id rental (chargeOf env rental now a.balanceSats) now
    refine ⟨chargeOf env rental now a.balanceSats, ?_, .inl rfl, ?_, ?_, ?_⟩
    · simp only [Db.billed, Db.updateRental, Db.charged_rentals, Table.rows_update,
        List.map_map, List.append_nil]
      apply List.map_congr_left
      intro r _
      by_cases hr : r.id = req.rentalId <;> simp [Txn.rewrite, hset, hr, hid]
    · intro id
      simpa [Db.billed, Db.updateRental, Txn.bills, hset] using (hledger id).1
    · intro id
      simpa [Db.billed, Db.updateRental, Txn.bills, hset] using (hledger id).2
    · rintro _ _ _ _ ⟨rfl⟩ _
      exact ⟨a, ha, haid, rfl⟩

theorem exec_rentals {env : Env} {txn : Txn} {db db' : Db} {v : Reply} (hv : txn.Valid db)
    (hx : txn.exec env db = .ok (db', v)) :
    ∃ charge new, txn.RentalsEffect env db db' charge new := by
  cases txn with
  | registerUpdate m req now =>
    cases hx
    exact ⟨0, [], .of_idle rfl (fun _ => rfl) (fun _ => rfl) (by simp) (List.append_nil _).symm
      (by simp)⟩
  | registerInsert req token now =>
    obtain ⟨-, rfl, -⟩ := registerInsert_ok hx
    exact ⟨0, [], .of_idle rfl (fun _ => rfl) (fun _ => rfl) (by simp) (List.append_nil _).symm
      (by simp)⟩
  | heartbeat machine req now =>
    obtain ⟨-, rfl⟩ := heartbeatTx_ok hx
    exact ⟨0, [], .of_idle rfl (fun _ => rfl) (fun _ => rfl) (by simp) (List.append_nil _).symm
      (by simp)⟩
  | report machine rental req now =>
    obtain ⟨-, -, hid, -⟩ := hv
    obtain ⟨charge, heffect⟩ := report_rentals hid hx
    exact ⟨charge, [], heffect⟩
  | rate machine req =>
    cases hx
    exact ⟨0, [], .of_idle rfl (fun _ => rfl) (fun _ => rfl) (by simp) (List.append_nil _).symm
      (by simp)⟩
  | payout machine now =>
    cases hx
    exact ⟨0, [], .of_idle rfl (fun _ => rfl) (fun _ => rfl) (by simp) rfl (by simp)⟩
  | createAccount id now =>
    obtain ⟨-, hid, rfl⟩ := createAccountTx_ok hx
    exact ⟨0, [], .of_idle rfl (fun _ => rfl) (fun _ => rfl) (by simp) (List.append_nil _).symm
      (by simp)⟩
  | deposit id req invoice now =>
    obtain ⟨-, hhash, rfl⟩ := depositTx_ok hx
    exact ⟨0, [], .of_idle rfl (fun _ => rfl) (fun _ => rfl) (by simp) (List.append_nil _).symm
      (by simp)⟩
  | createRental req now =>
    obtain ⟨m, -, -, a, -, -, -, hocc, -, -, key, -, rfl⟩ := createRentalTx_ok hx
    refine ⟨0, [.created req.machineId req.accountId req.image key m.rateSatsPerMin now
      db.rentals.nextId], ?_, .inr ⟨_, rfl, ⟨req, now, rfl⟩, rfl, rfl, rfl, rfl, hocc⟩, ?_, ?_, by simp⟩
    · have hsame : db.rentals.rows.map ((Txn.createRental req now).rewrite 0) = db.rentals.rows :=
        Txn.map_rewrite_id (fun _ => rfl) _
      simp [Db.withCommand, Db.withRental, hsame]
    · simp [Db.withCommand, Db.withRental, Txn.bills]
    · simp [Db.withCommand, Db.withRental, Txn.bills]
  | deleteRental r now =>
    obtain ⟨-, -, rfl⟩ := deleteRentalTx_ok hx
    refine ⟨0, [], ?_, .inl rfl, ?_, ?_, by simp⟩
    · simp [Db.withCommand, Db.updateRental, Table.rows_update, Txn.rewrite]
    · simp [Db.withCommand, Db.updateRental, Txn.bills]
    · simp [Db.withCommand, Db.updateRental, Txn.bills]
  | pollInvoice p now =>
    obtain ⟨-, rfl⟩ := pollInvoice_ok hx
    exact ⟨0, [], .of_idle rfl (fun _ => rfl) (fun _ => rfl) (by simp) rfl (by simp)⟩
  | markOffline now =>
    cases hx
    exact ⟨0, [], .of_idle rfl (fun _ => rfl) (fun _ => rfl) (by simp) (List.append_nil _).symm
      (by simp)⟩
  | evict r now =>
    obtain ⟨-, rfl⟩ := evict_ok hx
    refine ⟨0, [], ?_, .inl rfl, ?_, ?_, by simp⟩
    · simp [Db.record, Db.withCommand, Db.updateRental, Table.rows_update, Txn.rewrite]
    · intro id
      simp [Db.record, Db.withCommand, Db.updateRental, chargesOf, Txn.bills]
    · intro id
      simp [Db.record, Db.withCommand, Db.updateRental, creditsOf, Txn.bills]

end GpuMarket
