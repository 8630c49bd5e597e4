import GpuMarket.ControlPlane.Books
import GpuMarket.ControlPlane.Sequential

namespace GpuMarket

open Lib

structure Db.Owes (db : Db) : Prop where
  machines : Tallies db.machines (·.payoutBalance) (·.machineId) (·.deltaSats) db.ledger
  nonneg : ∀ m ∈ db.machines.rows, 0 ≤ m.payoutBalance

namespace Db.Owes

theorem empty : Db.empty.Owes := ⟨Tallies.empty, fun _ hm => absurd hm List.not_mem_nil⟩

section Statements

variable {db db' : Db} (h : db.Owes)
include h

theorem same (hm : db'.machines = db.machines) (hl : db'.ledger = db.ledger) : db'.Owes := by
  obtain ⟨machines, nonneg⟩ := h
  exact ⟨by rwa [hm, hl], by rwa [hm]⟩

theorem record_idle {ts : Int} {kind : LedgerKind} {delta : Int} {accountId : Option String}
    {rentalId : Option Int} {note : Option String} :
    (db.record ts kind delta accountId none rentalId note).Owes :=
  ⟨h.machines.concat_of_idle (.inl rfl), h.nonneg⟩

theorem updateMachine {id : Int} {f : MachineRow → MachineRow} {hf : ∀ m, (f m).id = m.id}
    (hval : ∀ m, (f m).payoutBalance = m.payoutBalance) : (db.updateMachine id f hf).Owes where
  machines := h.machines.update hf hval
  nonneg m hm := by
    obtain ⟨m₀, hm₀, -, rfl⟩ := Db.mem_updateMachine hm
    split
    · rw [hval]
      exact h.nonneg m₀ hm₀
    · exact h.nonneg m₀ hm₀

theorem post {id : Int} {f : MachineRow → MachineRow} {hf : ∀ m, (f m).id = m.id} {ts : Int}
    {kind : LedgerKind} {delta : Int} {rentalId : Option Int} {note : Option String}
    (hval : ∀ m ∈ db.machines.rows, m.id = id → (f m).payoutBalance = m.payoutBalance + delta)
    (hpos : ∀ m ∈ db.machines.rows, m.id = id → 0 ≤ (f m).payoutBalance) :
    ((db.updateMachine id f hf).record ts kind delta none (some id) rentalId note).Owes where
  machines := h.machines.post hf rfl hval
  nonneg m hm := by
    change m ∈ (db.updateMachine id f hf).machines.rows at hm
    obtain ⟨m₀, hm₀, -, rfl⟩ := Db.mem_updateMachine hm
    split
    case isTrue hid => exact hpos m₀ hm₀ hid
    case isFalse => exact h.nonneg m₀ hm₀

theorem charged {machineId : Int} {rental : RentalRow} {charge now : Int} :
    (db.charged machineId rental charge now).Owes := by
  unfold Db.charged Db.recordCharge
  split
  case isFalse => exact h
  case isTrue hpos =>
    have debit : ((db.withBalance rental.accountId (-charge)).record now .rentalCharge (-charge)
        (some rental.accountId) none (some rental.id) none).Owes :=
      record_idle (h.same rfl rfl : (db.withBalance rental.accountId (-charge)).Owes)
    have credit : ((((db.withBalance rental.accountId (-charge)).record now .rentalCharge (-charge)
        (some rental.accountId) none (some rental.id) none).withPayout machineId charge).record now
          .hostCredit charge none (some machineId) (some rental.id) none).Owes := by
      refine debit.post (by intros; rfl) fun m hm _ => ?_
      exact Int.add_nonneg (h.nonneg m hm) hpos.le
    exact credit.same rfl rfl

end Statements

theorem exec {env : Env} {txn : Txn} {db db' : Db} {v : Reply} (h : db.Owes) (hwf : db.Wf)
    (hf : txn.Fresh db) (hx : txn.exec env db = .ok (db', v)) : db'.Owes := by
  cases txn with
  | registerUpdate m req now => cases hx; exact h.updateMachine fun _ => rfl
  | registerInsert req token now =>
    obtain ⟨-, rfl, -⟩ := registerInsert_ok hx
    refine ⟨h.machines.append _ rfl fun l hl howner => ?_, fun m hm => ?_⟩
    · exact db.machines.not_has_nextId (hwf.ledger_machine l hl _ howner)
    · rcases List.mem_append.mp hm with hm | hm
      · exact h.nonneg m hm
      · rw [List.mem_singleton.mp hm]
        exact le_rfl
  | heartbeat machine req now =>
    obtain ⟨-, rfl⟩ := heartbeatTx_ok hx
    have beat : (db.updateMachine machine.id
      (fun m => { m with lastHeartbeat := now, online := req.online }) fun _ => rfl).Owes :=
        h.updateMachine fun _ => rfl
    exact beat.same rfl rfl
  | report machine rental req now =>
    obtain ⟨-, rfl⟩ | ⟨-, a, -, -, rfl⟩ := reportTx_ok hx
    · exact h.same rfl rfl
    · have write : (db.updateRental req.rentalId (req.apply machine now)
        (req.apply_id machine now)).Owes := h.same rfl rfl
      exact (charged write).same rfl rfl
  | rate machine req => cases hx; exact h.updateMachine fun _ => rfl
  | payout machine now =>
    cases hx
    refine h.post (fun m hm hid => ?_) fun _ _ _ => le_rfl
    rw [Table.eq_of_key_eq hm hf.1 hid]
    exact (Int.add_right_neg _).symm
  | createAccount id now =>
    obtain ⟨-, hid, rfl⟩ := createAccountTx_ok hx
    exact h.same rfl rfl
  | deposit id req invoice now =>
    obtain ⟨-, hhash, rfl⟩ := depositTx_ok hx
    exact h.same rfl rfl
  | createRental req now =>
    obtain ⟨m, -, -, a, -, -, -, -, -, -, key, -, rfl⟩ := createRentalTx_ok hx
    exact h.same rfl rfl
  | deleteRental r now =>
    obtain ⟨-, -, rfl⟩ := deleteRentalTx_ok hx
    exact h.same rfl rfl
  | pollInvoice p now =>
    obtain ⟨-, rfl⟩ := pollInvoice_ok hx
    have credit : ((db.settleInvoice p.paymentHash).withBalance p.accountId p.sats).Owes :=
      h.same rfl rfl
    exact credit.record_idle
  | markOffline now =>
    cases hx
    refine ⟨h.machines.mapRows (by intro m; split <;> rfl) (by intro m; split <;> rfl),
      fun m hm => ?_⟩
    obtain ⟨m₀, hm₀, rfl⟩ := List.mem_map.mp hm
    split <;> exact h.nonneg m₀ hm₀
  | evict r now =>
    obtain ⟨-, rfl⟩ := evict_ok hx
    have queue : ((db.updateRental r.id
      (fun r => { r with status := .evicting, error := some "insufficient balance" })
        fun _ => rfl).withCommand r.machineId (env.serde.toString (.stopRental r.id)) now).Owes :=
      h.same rfl rfl
    exact queue.record_idle

end Db.Owes

/-- The whole ledger is what the accounts hold and what the hosts are owed. -/
theorem ledger_sum {db : Db} (hwf : db.Wf) (hbooks : db.Books) (howes : db.Owes) :
    (db.ledger.map (·.deltaSats)).sum =
      db.accounts.sum (·.balanceSats) + db.machines.sum (·.payoutBalance) := by
  have split : ∀ l ∈ db.ledger, l.deltaSats =
      (if l.accountId.isSome then l.deltaSats else 0) +
        if l.machineId.isSome then l.deltaSats else 0 := by
    intro l hl
    have hsound := hbooks.sound l hl
    unfold LedgerRow.Sound at hsound
    split at hsound <;> simp [hsound]
  rw [hbooks.accounts.sum_eq hwf.ledger_account, howes.machines.sum_eq hwf.ledger_machine,
    ← List.sum_map_add, List.map_congr_left split]

theorem ledger_sum_eq_zero_iff {db : Db} (hwf : db.Wf) (hbooks : db.Books) (howes : db.Owes) :
    (db.ledger.map (·.deltaSats)).sum = 0 ↔
      (∀ a ∈ db.accounts.rows, a.balanceSats = 0) ∧
        ∀ m ∈ db.machines.rows, m.payoutBalance = 0 := by
  have haccounts := db.accounts.sum_nonneg (g := (·.balanceSats)) hwf.balance
  have hmachines := db.machines.sum_nonneg (g := (·.payoutBalance)) howes.nonneg
  rw [ledger_sum hwf hbooks howes,
    ← db.accounts.sum_eq_zero_iff (g := (·.balanceSats)) hwf.balance,
    ← db.machines.sum_eq_zero_iff (g := (·.payoutBalance)) howes.nonneg]
  omega

theorem perform_books (env : Env) (ops : List Op) :
    (perform env ops).Wf ∧ (perform env ops).Books ∧ (perform env ops).Owes :=
  perform_preserves (J := fun db => db.Wf ∧ db.Books ∧ db.Owes)
    (fun hf hx h => ⟨h.1.exec hf.valid hx, h.2.1.exec h.1 hf.valid hx, h.2.2.exec h.1 hf hx⟩)
    ⟨Db.Wf.empty, Db.Books.empty, Db.Owes.empty⟩ ops

/-- After any operations one at a time, every host is owed what its ledger rows add up to, the
whole ledger is what is held and owed, and it is never rewritten. -/
theorem ledger_equals_owed (env : Env) (ops : List Op) :
    let db := perform env ops
    (∀ m ∈ db.machines.rows, 0 ≤ m.payoutBalance ∧
      m.payoutBalance = total (·.machineId) (·.deltaSats) m.id db.ledger) ∧
    (db.ledger.map (·.deltaSats)).sum =
      db.accounts.sum (·.balanceSats) + db.machines.sum (·.payoutBalance) ∧
    ((db.ledger.map (·.deltaSats)).sum = 0 ↔
      (∀ a ∈ db.accounts.rows, a.balanceSats = 0) ∧
        ∀ m ∈ db.machines.rows, m.payoutBalance = 0) ∧
    ∀ op : Op, db.ledger <+: (op.step env db).ledger := by
  intro db
  obtain ⟨hwf, hbooks, howes⟩ := perform_books env ops
  exact ⟨fun m hm => ⟨howes.nonneg m hm, howes.machines m hm⟩, ledger_sum hwf hbooks howes,
    ledger_sum_eq_zero_iff hwf hbooks howes, fun op => (op.evolves env db).toExtends.ledger⟩

end GpuMarket
