import GpuMarket.Lib.Journal
import GpuMarket.ControlPlane.Contract

namespace GpuMarket

open Lib

def hostCredits (ledger : List LedgerRow) (machineId : Int) : Int :=
  ((ledger.filter fun l => l.machineId = some machineId ∧ l.kind = .hostCredit).map
    (·.deltaSats)).sum

theorem hostCredits_append (ledger ledger' : List LedgerRow) (id : Int) :
    hostCredits (ledger ++ ledger') id = hostCredits ledger id + hostCredits ledger' id := by
  simp [hostCredits]

theorem hostCredits_eq_zero {ledger : List LedgerRow} {id : Int}
    (h : ∀ l ∈ ledger, l.machineId ≠ some id) : hostCredits ledger id = 0 := by
  rw [hostCredits, List.filter_eq_nil_iff.mpr, List.map_nil, List.sum_nil]
  intro l hl
  simp [h l hl]

def Txn.credits (charge : Int) : Txn → Int → Int
  | .report machine rental req _, id =>
    if settles rental req ∧ machine.id = id ∧ 0 < charge then charge else 0
  | _, _ => 0

def Txn.rewriteMachine (env : Env) (charge : Int) (txn : Txn) (m : MachineRow) : MachineRow :=
  match txn with
  | .registerUpdate m₀ req now => if m.id = m₀.id then req.refresh now m else m
  | .heartbeat machine req now =>
    if m.id = machine.id then { m with lastHeartbeat := now, online := req.online } else m
  | .report .. => { m with payoutBalance := m.payoutBalance + txn.credits charge m.id }
  | .rate machine req =>
    if m.id = machine.id then { m with rateSatsPerMin := req.rateSatsPerMin } else m
  | .payout machine _ => if m.id = machine.id then { m with payoutBalance := 0 } else m
  | .markOffline now =>
    if m.online ∧ m.lastHeartbeat < now - env.heartbeatTimeoutSecs then { m with online := false }
    else m
  | _ => m

def Txn.newMachines (db : Db) : Txn → List MachineRow
  | .registerInsert req token now => [req.toRow db.machines.nextId token now]
  | _ => []

theorem Txn.rewriteMachine_identity (env : Env) (charge : Int) (txn : Txn) (m : MachineRow) :
    (txn.rewriteMachine env charge m).identity = m.identity := by
  unfold rewriteMachine
  split <;> try split
  all_goals rfl

@[simp] theorem Txn.rewriteMachine_id (env : Env) (charge : Int) (txn : Txn) (m : MachineRow) :
    (txn.rewriteMachine env charge m).id = m.id :=
  congrArg Prod.fst (txn.rewriteMachine_identity env charge m)

theorem Db.charged_machines (db : Db) (machineId : Int) (rental : RentalRow) (charge now : Int) :
    (db.charged machineId rental charge now).machines.rows = db.machines.rows.map (fun m =>
      { m with
        payoutBalance := m.payoutBalance + if machineId = m.id ∧ 0 < charge then charge else 0 }) ∧
    ∀ id, hostCredits (db.charged machineId rental charge now).ledger id =
      hostCredits db.ledger id + if machineId = id ∧ 0 < charge then charge else 0 := by
  constructor
  · unfold Db.charged
    by_cases hpos : charge > 0
    · rw [if_pos hpos]
      refine List.map_congr_left fun m _ => ?_
      by_cases hid : m.id = machineId
      · simp [hid, show 0 < charge from hpos]
      · simp [hid, Ne.symm hid]
    · rw [if_neg hpos]
      simp [show ¬0 < charge from hpos]
  · intro id
    rw [Db.ledger_charged, hostCredits_append]
    by_cases hpos : 0 < charge
    · by_cases hid : machineId = id <;> simp [hostCredits, Db.chargeRows, hid, hpos]
    · simp [hostCredits, hpos]

theorem Txn.idle_machines {env : Env} {txn : Txn} {db : Db}
    (hrewrite : ∀ m, txn.rewriteMachine env 0 m = m) (hnew : txn.newMachines db = []) :
    db.machines.rows = db.machines.rows.map (txn.rewriteMachine env 0) ++ txn.newMachines db := by
  simp [funext hrewrite, hnew]

theorem report_machines {env : Env} {machine : MachineRow} {rental : RentalRow}
    {req : ReportRequest} {now : Int} {db db' : Db} {v : Reply}
    (hx : reportTx env machine rental req now db = .ok (db', v)) :
    ∃ charge, db'.machines.rows =
        db.machines.rows.map ((Txn.report machine rental req now).rewriteMachine env charge) ++
          (Txn.report machine rental req now).newMachines db ∧
      ∀ id, hostCredits db'.ledger id =
        hostCredits db.ledger id + (Txn.report machine rental req now).credits charge id := by
  obtain ⟨hset, rfl⟩ | ⟨hset, a, -, -, rfl⟩ := reportTx_ok hx
  · refine ⟨0, Txn.idle_machines (fun m => ?_) rfl, fun _ => ?_⟩
    · simp [Txn.rewriteMachine, Txn.credits, hset]
    · simp [Txn.credits, hset, Db.updateRental]
  · obtain ⟨hrows, hcredits⟩ := Db.charged_machines
      (db.updateRental req.rentalId (req.apply machine now) (req.apply_id machine now)) machine.id
      rental (chargeOf env rental now a.balanceSats) now
    refine ⟨chargeOf env rental now a.balanceSats, hrows.trans ?_, fun id => (hcredits id).trans ?_⟩
    · simp [Txn.newMachines, Txn.rewriteMachine, Txn.credits, hset, Db.updateRental]
    · simp [Txn.credits, hset, Db.updateRental]

theorem exec_machines {env : Env} {txn : Txn} {db db' : Db} {v : Reply}
    (hx : txn.exec env db = .ok (db', v)) :
    ∃ charge, db'.machines.rows =
        db.machines.rows.map (txn.rewriteMachine env charge) ++ txn.newMachines db ∧
      ∀ id, hostCredits db'.ledger id = hostCredits db.ledger id + txn.credits charge id := by
  cases txn with
  | registerUpdate m req now =>
    cases hx
    exact ⟨0, (List.append_nil _).symm, fun _ => (Int.add_zero _).symm⟩
  | registerInsert req token now =>
    obtain ⟨-, rfl, -⟩ := registerInsert_ok hx
    refine ⟨0, ?_, fun _ => (Int.add_zero _).symm⟩
    rw [Table.rows_append, show (Txn.registerInsert req token now).rewriteMachine env 0 = id from rfl,
      List.map_id]
    rfl
  | heartbeat machine req now =>
    obtain ⟨-, rfl⟩ := heartbeatTx_ok hx
    exact ⟨0, (List.append_nil _).symm, fun _ => (Int.add_zero _).symm⟩
  | report machine rental req now =>
    exact report_machines hx
  | rate machine req =>
    cases hx
    exact ⟨0, (List.append_nil _).symm, fun _ => (Int.add_zero _).symm⟩
  | payout machine now =>
    cases hx
    refine ⟨0, (List.append_nil _).symm, fun id => ?_⟩
    simp [Db.record, Db.updateMachine, hostCredits, Txn.credits]
  | createAccount id now =>
    obtain ⟨-, hid, rfl⟩ := createAccountTx_ok hx
    exact ⟨0, Txn.idle_machines (fun _ => rfl) rfl, fun _ => (Int.add_zero _).symm⟩
  | deposit id req invoice now =>
    obtain ⟨-, hhash, rfl⟩ := depositTx_ok hx
    exact ⟨0, Txn.idle_machines (fun _ => rfl) rfl, fun _ => (Int.add_zero _).symm⟩
  | createRental req now =>
    obtain ⟨m, -, -, a, -, -, -, -, -, -, key, -, rfl⟩ := createRentalTx_ok hx
    exact ⟨0, Txn.idle_machines (fun _ => rfl) rfl, fun _ => (Int.add_zero _).symm⟩
  | deleteRental r now =>
    obtain ⟨-, -, rfl⟩ := deleteRentalTx_ok hx
    exact ⟨0, Txn.idle_machines (fun _ => rfl) rfl, fun _ => (Int.add_zero _).symm⟩
  | pollInvoice p now =>
    obtain ⟨-, rfl⟩ := pollInvoice_ok hx
    refine ⟨0, Txn.idle_machines (fun _ => rfl) rfl, fun id => ?_⟩
    simp [Db.record, Db.withBalance, Db.settleInvoice, hostCredits, Txn.credits]
  | markOffline now =>
    cases hx
    exact ⟨0, (List.append_nil _).symm, fun _ => (Int.add_zero _).symm⟩
  | evict r now =>
    obtain ⟨-, rfl⟩ := evict_ok hx
    refine ⟨0, Txn.idle_machines (fun _ => rfl) rfl, fun id => ?_⟩
    simp [Db.record, Db.withCommand, Db.updateRental, hostCredits, Txn.credits]

end GpuMarket
