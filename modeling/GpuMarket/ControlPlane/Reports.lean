import GpuMarket.ControlPlane.Accounts
import GpuMarket.ControlPlane.Machines
import GpuMarket.ControlPlane.Sequential

namespace GpuMarket

open Lib

/-- What is left of the tables by a report that settles its rental for `charge`. A charge below zero
moves no money. -/
structure Db.Settled (db db' : Db) (machine : MachineRow) (rental : RentalRow) (req : ReportRequest)
    (now charge : Int) : Prop where
  accounts : db'.accounts.rows = db.accounts.rows.map fun a =>
    if a.id = rental.accountId then { a with balanceSats := a.balanceSats - max charge 0 } else a
  machines : db'.machines.rows = db.machines.rows.map fun m =>
    if m.id = machine.id then { m with payoutBalance := m.payoutBalance + max charge 0 } else m
  rentals : db'.rentals.rows = db.rentals.rows.map fun r =>
    if r.id = rental.id then
      { req.apply machine now r with
        satsCharged := charge
        minutesBilled := max (now - rental.createdAt) 0 / 60
        endedAt := some now }
    else r
  ledger : db'.ledger = db.ledger ++
    if 0 < charge then
      [⟨now, some rental.accountId, none, some rental.id, -charge, .rentalCharge, none⟩,
        ⟨now, none, some machine.id, some rental.id, charge, .hostCredit, none⟩]
    else []
  invoices : db'.invoices = db.invoices
  commands : db'.commands = db.commands

structure Db.Noted (db db' : Db) (machine : MachineRow) (rental : RentalRow) (req : ReportRequest)
    (now : Int) : Prop where
  accounts : db'.accounts = db.accounts
  machines : db'.machines = db.machines
  rentals : db'.rentals.rows = db.rentals.rows.map fun r =>
    if r.id = rental.id then req.apply machine now r else r
  bills : db'.rentals.rows.map (fun r => (r.id, r.satsCharged, r.minutesBilled)) =
    db.rentals.rows.map fun r => (r.id, r.satsCharged, r.minutesBilled)
  ledger : db'.ledger = db.ledger
  invoices : db'.invoices = db.invoices
  commands : db'.commands = db.commands

theorem Db.settled_billed {db : Db} {machine : MachineRow} {rental : RentalRow}
    {req : ReportRequest} {now charge : Int} (hid : rental.id = req.rentalId)
    (hterm : req.status.isTerminal = true) :
    db.Settled ((db.updateRental req.rentalId (req.apply machine now)
      (req.apply_id machine now)).billed machine.id rental charge now) machine rental req now
        charge where
  accounts := by
    change (Db.charged _ _ _ _ _).accounts.rows = _
    rw [Db.charged_accounts]
    refine List.map_congr_left fun a _ => ?_
    by_cases hpos : 0 < charge
    · by_cases haid : a.id = rental.accountId
      · simp [AccountRow.post, haid, hpos, max_eq_left hpos.le, Int.sub_eq_add_neg]
      · simp [AccountRow.post, haid, Ne.symm haid]
    · simp [AccountRow.post, hpos, max_eq_right (not_lt.mp hpos)]
  machines := by
    change (Db.charged _ _ _ _ _).machines.rows = _
    rw [(Db.charged_machines _ _ _ _ _).1]
    refine List.map_congr_left fun m _ => ?_
    by_cases hpos : 0 < charge
    · by_cases hmid : m.id = machine.id
      · simp [hmid, hpos, max_eq_left hpos.le]
      · simp [hmid, Ne.symm hmid]
    · simp [hpos, max_eq_right (not_lt.mp hpos)]
  rentals := by
    simp only [Db.billed, Db.updateRental, Db.charged_rentals, Table.rows_update, List.map_map]
    refine List.map_congr_left fun r _ => ?_
    have hminutes : (max (now - rental.createdAt) 0).tdiv 60 = max (now - rental.createdAt) 0 / 60 :=
      Int.tdiv_eq_ediv_of_nonneg (le_max_right _ _)
    by_cases hr : r.id = req.rentalId
    · simp [hid, hr, hminutes, ReportRequest.apply, hterm]
    · simp [hid, hr]
  ledger := Db.ledger_charged _ _ _ _ _
  invoices := Db.charged_invoices _ _ _ _ _
  commands := Db.charged_commands _ _ _ _ _

theorem Db.noted_updateRental {db : Db} {machine : MachineRow} {rental : RentalRow}
    {req : ReportRequest} {now : Int} (hid : rental.id = req.rentalId) :
    db.Noted (db.updateRental req.rentalId (req.apply machine now) (req.apply_id machine now))
      machine rental req now where
  accounts := rfl
  machines := rfl
  rentals := by
    rw [hid]
    rfl
  bills := by
    simp only [Db.updateRental, Table.rows_update, List.map_map]
    refine List.map_congr_left fun r _ => ?_
    simp only [Function.comp_apply]
    split <;> rfl
  ledger := rfl
  invoices := rfl
  commands := rfl

theorem rentalOfMachine_error {db : Db} {id machineId : Int}
    (h : ∀ r ∈ db.rentals.rows, r.id = id → r.machineId ≠ machineId) :
    rentalOfMachine db id machineId = .error (.notFound "no such rental for this machine") := by
  cases hr : rentalOfMachine db id machineId with
  | ok r =>
    obtain ⟨hmem, hid, hmachine⟩ := rentalOfMachine_ok hr
    exact absurd hmachine (h r hmem hid)
  | error e =>
    unfold rentalOfMachine at hr
    split at hr <;> cases hr
    rfl

theorem report_settles (env : Env) {db : Db} {a : AccountRow} (ha : a ∈ db.accounts.rows)
    {auth : Option String} {machine : MachineRow} (hauth : authenticate db auth = .ok machine)
    {rental : RentalRow} (hr : rental ∈ db.rentals.rows) (haid : a.id = rental.accountId)
    (hmachine : rental.machineId = machine.id) {req : ReportRequest}
    (hid : rental.id = req.rentalId) (hlive : rental.status.isTerminal = false)
    (hterm : req.status.isTerminal = true) (now : Int) :
    ∃ db', report env auth req now db = .ok (db', .ok) ∧
      db.Settled db' machine rental req now (chargeOf env rental now a.balanceSats) := by
  have hset : settles rental req = true := by simp [settles, hterm, hlive]
  have hfind : rentalOfMachine db req.rentalId machine.id = .ok rental := by
    rw [← hid, ← hmachine]
    exact rentalOfMachine_of_mem hr
  exact ⟨_, bind_eq_ok.mpr ⟨machine, hauth, bind_eq_ok.mpr
    ⟨rental, hfind, reportTx_of_settles hset ha haid⟩⟩, Db.settled_billed hid hterm⟩

/-- A report on a rental of another machine fails and changes nothing; one that stops a rental that
was live settles it, for what it has accrued or for what the account holds; any other only notes
the new status. What rentals have accrued is computed as in exact integers. -/
theorem report_exact {env : Env} {db : Db} (hbalance : ∀ a ∈ db.accounts.rows, 0 ≤ a.balanceSats)
    (hrate : ∀ r ∈ db.rentals.rows, 1 ≤ r.rateSatsPerMin)
    (haccount : ∀ r ∈ db.rentals.rows, db.accounts.Has r.accountId) {now : Int}
    (hexact : ∀ r ∈ db.rentals.rows, r.accrued env now = r.accrued env.exactly now)
    {auth : Option String} {machine : MachineRow} (hauth : authenticate db auth = .ok machine)
    (req : ReportRequest) :
    ((∀ r ∈ db.rentals.rows, r.id = req.rentalId → r.machineId ≠ machine.id) →
      report env auth req now db = .error (.notFound "no such rental for this machine") ∧
        committed db (report env auth req now db) = db) ∧
    ∀ rental ∈ db.rentals.rows, rental.id = req.rentalId → rental.machineId = machine.id →
      (rental.status.isTerminal = false → req.status.isTerminal = true →
        ∃ a ∈ db.accounts.rows, a.id = rental.accountId ∧
          let elapsed := max (now - rental.createdAt) 0
          let charge := min (elapsed * rental.rateSatsPerMin / 60) a.balanceSats
          0 ≤ charge ∧ 60 * charge ≤ elapsed * rental.rateSatsPerMin ∧
            ∃ db', report env auth req now db = .ok (db', .ok) ∧
              db.Settled db' machine rental req now charge) ∧
      ((rental.status.isTerminal = true ∨ req.status.isTerminal = false) →
        ∃ db', report env auth req now db = .ok (db', .ok) ∧ db.Noted db' machine rental req now) := by
  refine ⟨fun hother => ?_, fun rental hr hid hmachine => ⟨fun hlive hterm => ?_, fun hnot => ?_⟩⟩
  · have herror : report env auth req now db =
        .error (.notFound "no such rental for this machine") := by
      rw [report, hauth]
      change (rentalOfMachine db req.rentalId machine.id).bind _ = _
      rw [rentalOfMachine_error hother]
      rfl
    exact ⟨herror, by rw [herror, committed]⟩
  · have hpos : 0 ≤ rental.rateSatsPerMin := by
      have hone := hrate rental hr
      omega
    obtain ⟨a, ha, haid⟩ := haccount rental hr
    obtain ⟨db', hx, hdb⟩ := report_settles env ha hauth hr haid hmachine hid hlive hterm now
    have haccrued : rental.accrued env now =
        max (now - rental.createdAt) 0 * rental.rateSatsPerMin / 60 :=
      (hexact rental hr).trans (accruedCharge_eq hpos _ _)
    have hcharge : chargeOf env rental now a.balanceSats =
        min (max (now - rental.createdAt) 0 * rental.rateSatsPerMin / 60) a.balanceSats :=
      congrArg (min · a.balanceSats) haccrued
    have hnonneg : 0 ≤ max (now - rental.createdAt) 0 * rental.rateSatsPerMin / 60 :=
      Int.ediv_nonneg (Int.mul_nonneg (le_max_right _ _) hpos) (by decide)
    have hbal := hbalance a ha
    rw [hcharge] at hdb
    exact ⟨a, ha, haid, le_min hnonneg hbal, by omega, db', hx, hdb⟩
  · have hset : settles rental req = false := by
      rcases hnot with h | h <;> simp [settles, h]
    have hfind : rentalOfMachine db req.rentalId machine.id = .ok rental := by
      rw [← hid, ← hmachine]
      exact rentalOfMachine_of_mem hr
    exact ⟨_, bind_eq_ok.mpr ⟨machine, hauth, bind_eq_ok.mpr
      ⟨rental, hfind, reportTx_of_not_settles hset⟩⟩, Db.noted_updateRental hid⟩

def leased : List ServerAct :=
  opening 100 ++
  call 3 (.createRental ⟨1, "acct_1", "nvidia/cuda:latest", some "ssh-ed25519 AAAA"⟩) [{}]

/-- Stopped after a minute and a half, the rental costs 15 sats. -/
theorem report_exact_leased :
    let db := (serve testEnv leased).store
    ∃ machine ∈ db.machines.rows, ∃ rental ∈ db.rentals.rows, ∃ db',
      report testEnv bearer { rentalId := 1, status := .stopped } 90 db = .ok (db', .ok) ∧
        db.Settled db' machine rental { rentalId := 1, status := .stopped } 90 15 := by
  intro db
  have hok : (authenticate db bearer).isOk = true := by decide +kernel
  cases hauth : authenticate db bearer with
  | error e =>
    rw [hauth] at hok
    cases hok
  | ok machine =>
    have hm := (authenticate_ok hauth).1
    have hmid : machine.id = 1 := (by decide +kernel : ∀ m ∈ db.machines.rows, m.id = 1) machine hm
    obtain ⟨rental, hr, hid, hmachine, hlive, hcreated, hrate⟩ : ∃ r ∈ db.rentals.rows, r.id = 1 ∧
      r.machineId = 1 ∧ r.status.isTerminal = false ∧ r.createdAt = 0 ∧ r.rateSatsPerMin = 10 := by
        decide +kernel
    have hbalance : ∀ a ∈ db.accounts.rows, 0 ≤ a.balanceSats := by decide +kernel
    have hrates : ∀ r ∈ db.rentals.rows, 1 ≤ r.rateSatsPerMin := by decide +kernel
    have haccount : ∀ r ∈ db.rentals.rows, db.accounts.Has r.accountId := by decide +kernel
    have haccrued : ∀ r ∈ db.rentals.rows,
        r.accrued testEnv 90 = r.accrued testEnv.exactly 90 := by decide +kernel
    obtain ⟨-, hexact⟩ :=
      report_exact hbalance hrates haccount haccrued hauth { rentalId := 1, status := .stopped }
    obtain ⟨hsettles, -⟩ := hexact rental hr hid (hmachine.trans hmid.symm)
    obtain ⟨a, ha, -, -, -, db', hx, hdb⟩ := hsettles hlive rfl
    have hbal : a.balanceSats = 100 :=
      (by decide +kernel : ∀ a ∈ db.accounts.rows, a.balanceSats = 100) a ha
    rw [hcreated, hrate, hbal] at hdb
    exact ⟨machine, hm, rental, hr, db', hx, hdb⟩

end GpuMarket
