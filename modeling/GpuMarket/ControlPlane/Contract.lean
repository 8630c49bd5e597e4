import GpuMarket.ControlPlane.Extends

namespace GpuMarket

open Lib

/-- References between the tables, and the signs of amounts. -/
structure Db.Wf (db : Db) : Prop where
  balance : ∀ a ∈ db.accounts.rows, 0 ≤ a.balanceSats
  rental_machine : ∀ r ∈ db.rentals.rows, db.machines.Has r.machineId
  rental_account : ∀ r ∈ db.rentals.rows, db.accounts.Has r.accountId
  invoice_account : ∀ i ∈ db.invoices.rows, db.accounts.Has i.accountId
  invoice_sats : ∀ i ∈ db.invoices.rows, 0 < i.sats
  ledger_account : ∀ l ∈ db.ledger, ∀ id, l.accountId = some id → db.accounts.Has id
  ledger_machine : ∀ l ∈ db.ledger, ∀ id, l.machineId = some id → db.machines.Has id
  ledger_rental : ∀ l ∈ db.ledger, ∀ id, l.rentalId = some id → db.rentals.Has id
  commands : db.commands.Ascending

namespace Db.Wf

theorem empty : Db.empty.Wf := by
  constructor <;> first | exact Table.ascending_empty | simp [Db.empty]

section Statements

variable {db : Db} (h : db.Wf)
include h

theorem withMachines {machines : Table MachineRow.id}
    (hkeep : ∀ id, db.machines.Has id → machines.Has id) : Wf { db with machines } :=
  { h with
    rental_machine := fun r hr => hkeep _ (h.rental_machine r hr)
    ledger_machine := fun l hl id hid => hkeep _ (h.ledger_machine l hl id hid) }

theorem updateMachine {id : Int} {f : MachineRow → MachineRow} {hf : ∀ m, (f m).id = m.id} :
    (db.updateMachine id f hf).Wf := by
  refine h.withMachines fun _ hid => ?_
  exact Table.has_update.mpr hid

theorem updateRental {id : Int} {f : RentalRow → RentalRow} {hf : ∀ r, (f r).id = r.id}
    (hfix : ∀ r, (f r).terms = r.terms) : (db.updateRental id f hf).Wf := by
  have origin : ∀ r ∈ (db.updateRental id f hf).rentals.rows, ∃ r₀ ∈ db.rentals.rows,
      r.terms = r₀.terms := by
    intro r hr
    obtain ⟨r₀, hr₀, -, rfl⟩ := Db.mem_updateRental hr
    exact ⟨r₀, hr₀, by split <;> simp [hfix]⟩
  refine { h with rental_machine := ?_, rental_account := ?_, ledger_rental := ?_ }
  · intro r hr
    obtain ⟨r₀, hr₀, hsame⟩ := origin r hr
    rw [(RentalRow.terms_eq_iff.mp hsame).1]
    exact h.rental_machine r₀ hr₀
  · intro r hr
    obtain ⟨r₀, hr₀, hsame⟩ := origin r hr
    rw [(RentalRow.terms_eq_iff.mp hsame).2.1]
    exact h.rental_account r₀ hr₀
  · exact fun l hl id hid => Db.has_updateRental.mpr (h.ledger_rental l hl id hid)

theorem withBalance {id : String} {delta : Int}
    (hcheck : ∀ a ∈ db.accounts.rows, a.id = id → 0 ≤ a.balanceSats + delta) :
    (db.withBalance id delta).Wf := by
  refine { h with
    balance := ?_
    rental_account := fun r hr => Db.has_withBalance.mpr (h.rental_account r hr)
    invoice_account := fun i hi => Db.has_withBalance.mpr (h.invoice_account i hi)
    ledger_account := fun l hl id hid => Db.has_withBalance.mpr (h.ledger_account l hl id hid) }
  intro a ha
  obtain ⟨a₀, ha₀, -, hbal⟩ := Db.mem_withBalance ha
  rw [hbal]
  split
  case isTrue hid => exact hcheck a₀ ha₀ hid
  case isFalse => simpa using h.balance a₀ ha₀

theorem withCommand {machineId : Int} {payload : String} {now : Int} :
    (db.withCommand machineId payload now).Wf :=
  { h with commands := h.commands.append (.queued machineId payload now) fun _ => CommandRow.queued_id .. }

theorem withRental {machineId : Int} {accountId image key : String} {rate now : Int}
    (hm : db.machines.Has machineId) (ha : db.accounts.Has accountId) :
    (db.withRental machineId accountId image key rate now).Wf := by
  refine { h with
    rental_machine := ?_
    rental_account := ?_
    ledger_rental := fun l hl id hid => Db.has_withRental.mpr (.inl (h.ledger_rental l hl id hid)) }
  · intro r hr
    rcases Db.mem_withRental.mp hr with hr | rfl
    · exact h.rental_machine r hr
    · exact hm
  · intro r hr
    rcases Db.mem_withRental.mp hr with hr | rfl
    · exact h.rental_account r hr
    · exact ha

theorem settleInvoice {hash : String} : (db.settleInvoice hash).Wf := by
  have origin : ∀ i ∈ (db.settleInvoice hash).invoices.rows, ∃ i₀ ∈ db.invoices.rows,
      i.issued = i₀.issued := by
    intro i hi
    obtain ⟨i₀, hi₀, -, rfl⟩ := Db.mem_settleInvoice hi
    exact ⟨i₀, hi₀, by split <;> rfl⟩
  refine { h with invoice_account := ?_, invoice_sats := ?_ }
  · intro i hi
    obtain ⟨i₀, hi₀, hsame⟩ := origin i hi
    have haccount : i.accountId = i₀.accountId := (congrArg InvoiceRow.accountId hsame :)
    rw [haccount]
    exact h.invoice_account i₀ hi₀
  · intro i hi
    obtain ⟨i₀, hi₀, hsame⟩ := origin i hi
    have hsats : i.sats = i₀.sats := (congrArg InvoiceRow.sats hsame :)
    rw [hsats]
    exact h.invoice_sats i₀ hi₀

theorem record {ts : Int} {kind : LedgerKind} {delta : Int} {accountId : Option String}
    {machineId rentalId : Option Int} {note : Option String}
    (ha : ∀ id, accountId = some id → db.accounts.Has id)
    (hm : ∀ id, machineId = some id → db.machines.Has id)
    (hr : ∀ id, rentalId = some id → db.rentals.Has id) :
    (db.record ts kind delta accountId machineId rentalId note).Wf := by
  refine { h with ledger_account := ?_, ledger_machine := ?_, ledger_rental := ?_ }
  all_goals
    intro l hl
    rcases Db.mem_record.mp hl with hl | rfl
  · exact h.ledger_account l hl
  · exact ha
  · exact h.ledger_machine l hl
  · exact hm
  · exact h.ledger_rental l hl
  · exact hr

theorem insertAccount {id : String} {now : Int} (hid : ¬db.accounts.Has id) :
    Wf { db with accounts := db.accounts.insert { id, createdAt := now } hid } := by
  have keep : ∀ id', db.accounts.Has id' →
      (db.accounts.insert { id, createdAt := now } hid).Has id' :=
    fun _ hid => Table.has_insert.mpr (.inl hid)
  refine { h with
    balance := ?_
    rental_account := fun r hr => keep _ (h.rental_account r hr)
    invoice_account := fun i hi => keep _ (h.invoice_account i hi)
    ledger_account := fun l hl id hid => keep _ (h.ledger_account l hl id hid) }
  intro a ha
  rcases List.mem_append.mp ha with ha | ha
  · exact h.balance a ha
  · rw [List.mem_singleton.mp ha]

theorem insertInvoice {i : InvoiceRow} (hhash : ¬db.invoices.Has i.paymentHash)
    (ha : db.accounts.Has i.accountId) (hsats : 0 < i.sats) :
    Wf { db with invoices := db.invoices.insert i hhash } := by
  refine { h with invoice_account := ?_, invoice_sats := ?_ }
  all_goals
    intro i hi
    rcases List.mem_append.mp hi with hi | hi
  · exact h.invoice_account i hi
  · rwa [List.mem_singleton.mp hi]
  · exact h.invoice_sats i hi
  · rwa [List.mem_singleton.mp hi]

theorem charged {machineId : Int} {rental : RentalRow} {charge now : Int}
    (hm : db.machines.Has machineId) (ha : db.accounts.Has rental.accountId)
    (hr : db.rentals.Has rental.id)
    (hcheck : ∀ a ∈ db.accounts.rows, a.id = rental.accountId → charge ≤ a.balanceSats) :
    (db.charged machineId rental charge now).Wf := by
  unfold Db.charged Db.recordCharge
  split
  · have debit : (db.withBalance rental.accountId (-charge)).Wf := by
      refine h.withBalance fun a ha hid => ?_
      have hcap := hcheck a ha hid
      omega
    refine record (record (updateMachine debit) ?_ ?_ ?_) ?_ ?_ ?_ <;> rintro id ⟨rfl⟩
    · exact Db.has_withBalance.mpr ha
    · exact hr
    · simp only [Db.record, Db.has_updateMachine]
      exact hm
    · exact hr
  · exact h

theorem billed {machineId : Int} {rental : RentalRow} {charge now : Int}
    (hm : db.machines.Has machineId) (ha : db.accounts.Has rental.accountId)
    (hr : db.rentals.Has rental.id)
    (hcheck : ∀ a ∈ db.accounts.rows, a.id = rental.accountId → charge ≤ a.balanceSats) :
    (db.billed machineId rental charge now).Wf :=
  updateRental (h.charged hm ha hr hcheck) (by intro; rfl)

end Statements

end Db.Wf

/-- The machine that a handler has read is still there, whatever its row says by now. -/
def Db.HasMachine (db : Db) (m : MachineRow) : Prop :=
  ∃ m' ∈ db.machines.rows, m'.identity = m.identity

def Db.HasRental (db : Db) (r : RentalRow) : Prop :=
  ∃ r' ∈ db.rentals.rows, r'.terms = r.terms

def Db.Awaits (db : Db) (p : PendingInvoice) : Prop :=
  ∃ i ∈ db.invoices.rows, i.settled = false ∧ i.paymentHash = p.paymentHash ∧
    i.accountId = p.accountId ∧ i.sats = p.sats

/-- What a write may assume of the rows its handler has read, in the state that it meets. -/
def Txn.Valid (db : Db) : Txn → Prop
  | .registerUpdate m _ _ => db.HasMachine m
  | .heartbeat machine _ _ => db.HasMachine machine
  | .report machine rental req _ =>
    db.HasMachine machine ∧ db.HasRental rental ∧ rental.id = req.rentalId ∧
      rental.machineId = machine.id
  | .rate machine _ => db.HasMachine machine
  | .payout machine _ => db.HasMachine machine ∧ 0 < machine.payoutBalance
  | .deposit _ req _ _ => 0 < req.sats
  | .deleteRental r _ => db.HasRental r ∧ alreadyStopping r = false
  | .pollInvoice p _ => db.Awaits p
  | .evict r _ => db.HasRental r ∧ r.status = .running
  | .registerInsert .. | .createAccount .. | .createRental .. | .markOffline _ => True

def Thread.Ok (db : Db) : Thread → Prop
  | .registerUpdate m _ _ => db.HasMachine m
  | .heartbeatTx machine _ _ => db.HasMachine machine
  | .reportRead machine _ => db.HasMachine machine
  | .reportTx machine rental req now => (Txn.report machine rental req now).Valid db
  | .rateUpdate machine _ => db.HasMachine machine
  | .payoutPay machine _ | .payoutTx machine _ => db.HasMachine machine ∧ 0 < machine.payoutBalance
  | .depositInvoice _ req | .depositInsert _ req _ _ => 0 < req.sats
  | .deleteRentalTx r _ => db.HasRental r ∧ alreadyStopping r = false
  | .received _ | .registerInsert .. | .done _ => True

def Db.Runs (db : Db) (r : RentalRow) : Prop := db.HasRental r ∧ r.status = .running

def Ticker.Ok (db : Db) : Ticker → Prop
  | .poll pending => (∀ p ∈ pending, db.Awaits p) ∧ (pending.map (·.paymentHash)).Nodup
  | .pollTx p _ rest =>
    (∀ p' ∈ p :: rest, db.Awaits p') ∧ ((p :: rest).map (·.paymentHash)).Nodup
  | .budgets running => ∀ r ∈ running, db.Runs r
  | .balance r _ rest | .evictTx r _ rest => ∀ r' ∈ r :: rest, db.Runs r'
  | .idle | .markOffline | .enforce => True

section Stability

variable {db db' : Db} (h : db.Extends db')
include h

theorem Db.HasMachine.mono {m : MachineRow} (hm : db.HasMachine m) : db'.HasMachine m := by
  obtain ⟨m', hm', hsame⟩ := hm
  obtain ⟨m'', hm'', hsame'⟩ := h.machine hm'
  exact ⟨m'', hm'', hsame'.trans hsame⟩

theorem Db.HasRental.mono {r : RentalRow} (hr : db.HasRental r) : db'.HasRental r := by
  obtain ⟨r', hr', hsame⟩ := hr
  obtain ⟨r'', hr'', hsame'⟩ := h.rental hr'
  exact ⟨r'', hr'', hsame'.trans hsame⟩

theorem Db.Runs.mono {r : RentalRow} (hr : db.Runs r) : db'.Runs r := ⟨hr.1.mono h, hr.2⟩

theorem Thread.Ok.mono {t : Thread} (ht : t.Ok db) : t.Ok db' := by
  cases t with
  | registerUpdate m req now => exact Db.HasMachine.mono h ht
  | heartbeatTx machine req now => exact Db.HasMachine.mono h ht
  | reportRead machine req => exact Db.HasMachine.mono h ht
  | reportTx machine rental req now => exact ⟨ht.1.mono h, ht.2.1.mono h, ht.2.2⟩
  | rateUpdate machine req => exact Db.HasMachine.mono h ht
  | payoutPay machine req => exact ⟨ht.1.mono h, ht.2⟩
  | payoutTx machine now => exact ⟨ht.1.mono h, ht.2⟩
  | depositInvoice id req => exact ht
  | depositInsert id req invoice now => exact ht
  | deleteRentalTx r now => exact ⟨ht.1.mono h, ht.2⟩
  | received r => trivial
  | registerInsert req now => trivial
  | done reply => trivial

end Stability

theorem Db.HasMachine.has {db : Db} {m : MachineRow} (h : db.HasMachine m) :
    db.machines.Has m.id := by
  obtain ⟨m', hm', hsame⟩ := h
  exact ⟨m', hm', congrArg Prod.fst hsame⟩

theorem Db.HasRental.row {db : Db} {r : RentalRow} (h : db.HasRental r) :
    ∃ cur ∈ db.rentals.rows, cur.id = r.id ∧ cur.machineId = r.machineId ∧
      cur.accountId = r.accountId ∧ cur.rateSatsPerMin = r.rateSatsPerMin ∧
      cur.createdAt = r.createdAt := by
  obtain ⟨cur, hcur, hsame⟩ := h
  obtain ⟨hm, ha, -, -, hrate, hcreated, hid⟩ := RentalRow.terms_eq_iff.mp hsame
  exact ⟨cur, hcur, hid, hm, ha, hrate, hcreated⟩

theorem Db.Wf.exec {env : Env} {txn : Txn} {db db' : Db} {v : Reply} (h : db.Wf)
    (hv : txn.Valid db) (hx : txn.exec env db = .ok (db', v)) : db'.Wf := by
  cases txn with
  | registerUpdate m req now => cases hx; exact h.updateMachine
  | registerInsert req token now =>
    obtain ⟨-, rfl, -⟩ := registerInsert_ok hx
    exact h.withMachines fun _ hid => Table.has_append.mpr (.inl hid)
  | heartbeat machine req now =>
    obtain ⟨-, rfl⟩ := heartbeatTx_ok hx
    have machines : (db.updateMachine machine.id
      (fun m => { m with lastHeartbeat := now, online := req.online }) fun _ => rfl).Wf :=
        h.updateMachine
    exact { machines with commands := h.commands.mapRows _ (by intro c; split <;> rfl) }
  | report machine rental req now =>
    obtain ⟨hm, hr, -, -⟩ := hv
    have write : (db.updateRental req.rentalId (req.apply machine now)
      (req.apply_id machine now)).Wf := h.updateRental (by intro; rfl)
    obtain ⟨-, rfl⟩ | ⟨-, a, ha, hid, rfl⟩ := reportTx_ok hx
    · exact write
    · obtain ⟨cur, hcur, hcid, -⟩ := hr.row
      refine write.billed hm.has ⟨a, ha, hid⟩ (Db.has_updateRental.mpr ⟨cur, hcur, hcid⟩) ?_
      intro a' ha' hid'
      rw [Table.eq_of_key_eq (t := db.accounts) ha' ha (hid'.trans hid.symm)]
      exact min_le_right _ _
  | rate machine req => cases hx; exact h.updateMachine
  | payout machine now =>
    cases hx
    refine h.updateMachine.record (by rintro _ ⟨⟩) ?_ (by rintro _ ⟨⟩)
    rintro _ ⟨rfl⟩
    exact Db.has_updateMachine.mpr hv.1.has
  | createAccount id now =>
    obtain ⟨-, hid, rfl⟩ := createAccountTx_ok hx
    exact h.insertAccount hid
  | deposit id req invoice now =>
    obtain ⟨hid, hhash, rfl⟩ := depositTx_ok hx
    exact h.insertInvoice hhash hid hv
  | createRental req now =>
    obtain ⟨m, hm, hmid, a, ha, haid, -, -, -, -, key, -, rfl⟩ := createRentalTx_ok hx
    exact (h.withRental ⟨m, hm, hmid⟩ ⟨a, ha, haid⟩).withCommand
  | deleteRental r now =>
    obtain ⟨-, -, rfl⟩ := deleteRentalTx_ok hx
    exact (h.updateRental (by intro; rfl)).withCommand
  | pollInvoice p now =>
    obtain ⟨hcheck, rfl⟩ := pollInvoice_ok hx
    obtain ⟨i, hi, -, -, haccount, -⟩ := hv
    refine (h.settleInvoice.withBalance hcheck).record ?_ (by rintro _ ⟨⟩) (by rintro _ ⟨⟩)
    rintro _ ⟨rfl⟩
    exact Db.has_withBalance.mpr (haccount ▸ h.invoice_account i hi)
  | markOffline now => cases hx; exact h.withMachines fun _ => Table.has_mapRows.mpr
  | evict r now =>
    obtain ⟨-, rfl⟩ := evict_ok hx
    obtain ⟨cur, hcur, hcid, -, hacc, -⟩ := hv.1.row
    refine (h.updateRental (by intro; rfl)).withCommand.record ?_ (by rintro _ ⟨⟩) ?_
    · rintro _ ⟨rfl⟩
      exact hacc ▸ h.rental_account cur hcur
    · rintro _ ⟨rfl⟩
      exact (Db.Extends.exec hx).hasRental ⟨cur, hcur, hcid⟩

theorem report_exec_ok {env : Env} {machine : MachineRow} {rental : RentalRow}
    {req : ReportRequest} {now : Int} {db : Db} (hwf : db.Wf) (hr : db.HasRental rental) :
    ∃ r, (Txn.report machine rental req now).exec env db = .ok r := by
  cases hset : settles rental req with
  | false => exact ⟨_, reportTx_of_not_settles hset⟩
  | true =>
    obtain ⟨cur, hcur, -, -, haccount, -⟩ := hr.row
    obtain ⟨a, ha, hid⟩ := hwf.rental_account cur hcur
    exact ⟨_, reportTx_of_settles hset ha (hid.trans haccount)⟩

theorem Db.HasRental.machine {db : Db} {r : RentalRow} (hwf : db.Wf) (hr : db.HasRental r) :
    db.machines.Has r.machineId := by
  obtain ⟨cur, hcur, -, hm, -⟩ := hr.row
  exact hm ▸ hwf.rental_machine cur hcur

theorem deleteRental_exec_ok {env : Env} {r : RentalRow} {now : Int} {db : Db} (hwf : db.Wf)
    (hr : db.HasRental r) : ∃ x, (Txn.deleteRental r now).exec env db = .ok x := by
  have hm := hr.machine hwf
  simp only [Txn.exec, deleteRentalTx, Db.insertCommand, Db.updateRental, hm, if_true]
  exact ⟨_, rfl⟩

theorem evict_exec_ok {env : Env} {r : RentalRow} {now : Int} {db : Db} (hwf : db.Wf)
    (hr : db.HasRental r) : ∃ x, (Txn.evict r now).exec env db = .ok x := by
  have hm := hr.machine hwf
  simp only [Txn.exec, evictTx, Db.insertCommand, Db.updateRental, hm, if_true]
  exact ⟨_, rfl⟩

section Steps

variable {α : Type}

theorem fetch_eq_read {x : Except ApiError α} {next : α → Next Thread Txn} {t : Thread}
    (h : fetch x next = .read t) :
    (∃ e, t = .done (.error e)) ∨ ∃ a, x = .ok a ∧ next a = .read t := by
  cases x with
  | error e => cases h; exact .inl ⟨e, rfl⟩
  | ok a => exact .inr ⟨a, rfl, h⟩

theorem fetch_eq_commit {x : Except ApiError α} {next : α → Next Thread Txn} {txn : Txn} :
    fetch x next = .commit txn ↔ ∃ a, x = .ok a ∧ next a = .commit txn := by
  cases x with
  | error e => simp [fetch]
  | ok a => simp [fetch]

end Steps

theorem authenticate_hasMachine {db : Db} {auth : Option String} {m : MachineRow}
    (h : authenticate db auth = .ok m) : db.HasMachine m := ⟨m, (authenticate_ok h).1, rfl⟩

theorem checkOwed_ok {machine : MachineRow} {u : Unit} (h : checkOwed machine = .ok u) :
    0 < machine.payoutBalance := by
  unfold checkOwed at h
  split at h
  case isTrue => cases h
  case isFalse hpos => exact not_le.mp hpos

theorem checkDeposit_ok {req : DepositRequest} {u : Unit} (h : checkDeposit req = .ok u) :
    0 < req.sats := by
  unfold checkDeposit at h
  split at h
  case isTrue => cases h
  case isFalse hpos => omega

theorem Request.next_read {db : Db} {i : Input} {r : Request} {t : Thread}
    (h : r.next db i = .read t) : t.Ok db := by
  cases r with
  | register req =>
    simp only [next] at h
    split at h
    case h_1 m hm => cases h; exact ⟨m, List.mem_of_find?_eq_some hm, rfl⟩
    case h_2 => cases h; trivial
  | heartbeat auth req =>
    obtain ⟨e, rfl⟩ | ⟨m, hm, h⟩ := fetch_eq_read h
    · trivial
    · cases h; exact authenticate_hasMachine hm
  | report auth req =>
    obtain ⟨e, rfl⟩ | ⟨m, hm, h⟩ := fetch_eq_read h
    · trivial
    · cases h; exact authenticate_hasMachine hm
  | rate auth req =>
    obtain ⟨e, rfl⟩ | ⟨m, hm, h⟩ := fetch_eq_read h
    · trivial
    · obtain ⟨e, rfl⟩ | ⟨-, -, h⟩ := fetch_eq_read h
      · trivial
      · cases h; exact authenticate_hasMachine hm
  | payout auth req =>
    obtain ⟨e, rfl⟩ | ⟨m, hm, h⟩ := fetch_eq_read h
    · trivial
    · obtain ⟨e, rfl⟩ | ⟨_, howed, h⟩ := fetch_eq_read h
      · trivial
      · cases h; exact ⟨authenticate_hasMachine hm, checkOwed_ok howed⟩
  | createAccount => cases h
  | deposit id req =>
    obtain ⟨e, rfl⟩ | ⟨_, hpos, h⟩ := fetch_eq_read h
    · trivial
    · obtain ⟨e, rfl⟩ | ⟨-, -, h⟩ := fetch_eq_read h
      · trivial
      · cases h; exact checkDeposit_ok hpos
  | createRental req => cases h
  | deleteRental id =>
    obtain ⟨e, rfl⟩ | ⟨r, hr, h⟩ := fetch_eq_read h
    · trivial
    · split at h
      case isTrue => cases h; trivial
      case isFalse hstop =>
        cases h
        exact ⟨⟨r, (findRental_ok hr).1, rfl⟩, Bool.eq_false_iff.mpr hstop⟩

theorem Request.next_commit {db : Db} {i : Input} {r : Request} {txn : Txn}
    (h : r.next db i = .commit txn) :
    txn = .createAccount i.token i.now ∨ ∃ req, txn = .createRental req i.now := by
  cases r with
  | register req => simp only [next] at h; split at h <;> cases h
  | heartbeat auth req => obtain ⟨m, -, h⟩ := fetch_eq_commit.mp h; cases h
  | report auth req => obtain ⟨m, -, h⟩ := fetch_eq_commit.mp h; cases h
  | rate auth req =>
    obtain ⟨m, -, h⟩ := fetch_eq_commit.mp h
    obtain ⟨-, -, h⟩ := fetch_eq_commit.mp h
    cases h
  | payout auth req =>
    obtain ⟨m, -, h⟩ := fetch_eq_commit.mp h
    obtain ⟨-, -, h⟩ := fetch_eq_commit.mp h
    cases h
  | createAccount => cases h; exact .inl rfl
  | deposit id req =>
    obtain ⟨-, -, h⟩ := fetch_eq_commit.mp h
    obtain ⟨-, -, h⟩ := fetch_eq_commit.mp h
    cases h
  | createRental req => cases h; exact .inr ⟨req, rfl⟩
  | deleteRental id =>
    obtain ⟨r, -, h⟩ := fetch_eq_commit.mp h
    split at h <;> cases h

theorem Thread.next_read {db : Db} {i : Input} {t t' : Thread} (h : t.Ok db)
    (hn : t.next i db = .read t') : t'.Ok db := by
  cases t with
  | received r => exact Request.next_read hn
  | reportRead machine req =>
    obtain ⟨e, rfl⟩ | ⟨rental, hr, hn⟩ := fetch_eq_read hn
    · trivial
    · cases hn
      obtain ⟨hmem, hid, hm⟩ := rentalOfMachine_ok hr
      exact ⟨h, ⟨rental, hmem, rfl⟩, hid, hm⟩
  | payoutPay machine req =>
    simp only [next] at hn
    split at hn
    case isTrue => cases hn; exact h
    case isFalse => cases hn; trivial
  | depositInvoice id req =>
    simp only [next] at hn
    split at hn
    case h_1 => cases hn; trivial
    case h_2 => cases hn; exact h
  | done reply => cases hn; trivial
  | registerUpdate | registerInsert | heartbeatTx | reportTx | rateUpdate | payoutTx | depositInsert
  | deleteRentalTx => cases hn

theorem Thread.next_commit {db : Db} {i : Input} {t : Thread} {txn : Txn} (h : t.Ok db)
    (hn : t.next i db = .commit txn) : txn.Valid db ∧ ∀ p now, txn ≠ .pollInvoice p now := by
  cases t with
  | received r =>
    rcases Request.next_commit hn with rfl | ⟨req, rfl⟩
    all_goals exact ⟨trivial, by simp⟩
  | registerUpdate m req now => cases hn; exact ⟨h, by simp⟩
  | registerInsert req now => cases hn; exact ⟨trivial, by simp⟩
  | heartbeatTx machine req now => cases hn; exact ⟨h, by simp⟩
  | reportRead machine req => obtain ⟨rental, -, hn⟩ := fetch_eq_commit.mp hn; cases hn
  | reportTx machine rental req now => cases hn; exact ⟨h, by simp⟩
  | rateUpdate machine req => cases hn; exact ⟨h, by simp⟩
  | payoutPay machine req => simp only [next] at hn; split at hn <;> cases hn
  | payoutTx machine now => cases hn; exact ⟨h, by simp⟩
  | depositInvoice id req => simp only [next] at hn; split at hn <;> cases hn
  | depositInsert id req invoice now => cases hn; exact ⟨h, by simp⟩
  | deleteRentalTx r now => cases hn; exact ⟨h, by simp⟩
  | done reply => cases hn

theorem Thread.next_report {db : Db} {i : Input} {t : Thread} {machine : MachineRow}
    {rental : RentalRow} {req : ReportRequest} {now : Int}
    (hn : t.next i db = .commit (.report machine rental req now)) :
    t = .reportTx machine rental req now := by
  cases t with
  | received r =>
    rcases Request.next_commit hn with h | ⟨q, h⟩
    all_goals cases h
  | reportRead machine req => obtain ⟨r, -, hn⟩ := fetch_eq_commit.mp hn; cases hn
  | payoutPay machine req => simp only [next] at hn; split at hn <;> cases hn
  | depositInvoice id req => simp only [next] at hn; split at hn <;> cases hn
  | _ => cases hn <;> rfl

def Txn.rewriteInvoice : Txn → InvoiceRow → InvoiceRow
  | .pollInvoice p _, i => if i.paymentHash = p.paymentHash then { i with settled := true } else i
  | _, i => i

theorem exec_invoices {env : Env} {txn : Txn} {db db' : Db} {v : Reply}
    (hx : txn.exec env db = .ok (db', v)) :
    ∃ new, db'.invoices.rows = db.invoices.rows.map txn.rewriteInvoice ++ new ∧
      ∀ i ∈ new, i.settled = false ∧ ∃ id req invoice now, txn = .deposit id req invoice now ∧
        i.paymentHash = invoice.paymentHash := by
  have idle : ∀ txn : Txn, txn.rewriteInvoice = (fun i => i) →
      db.invoices.rows = db.invoices.rows.map txn.rewriteInvoice ++ [] := by
    intro txn h
    simp [h]
  have none_new : ∀ {P : InvoiceRow → Prop}, ∀ i ∈ ([] : List InvoiceRow), P i :=
    fun i hi => by cases hi
  cases txn with
  | registerUpdate m req now => cases hx; exact ⟨[], idle (.registerUpdate m req now) rfl, none_new⟩
  | registerInsert req token now =>
    obtain ⟨-, rfl, -⟩ := registerInsert_ok hx
    exact ⟨[], idle (.registerInsert req token now) rfl, none_new⟩
  | heartbeat machine req now =>
    obtain ⟨-, rfl⟩ := heartbeatTx_ok hx
    exact ⟨[], idle (.heartbeat machine req now) rfl, none_new⟩
  | report machine rental req now =>
    refine ⟨[], ?_, none_new⟩
    obtain ⟨-, rfl⟩ | ⟨-, a, -, -, rfl⟩ := reportTx_ok hx
    · exact idle (.report machine rental req now) rfl
    · simpa [Db.billed, Db.updateRental] using idle (.report machine rental req now) rfl
  | rate machine req => cases hx; exact ⟨[], idle (.rate machine req) rfl, none_new⟩
  | payout machine now => cases hx; exact ⟨[], idle (.payout machine now) rfl, none_new⟩
  | createAccount id now =>
    obtain ⟨-, hid, rfl⟩ := createAccountTx_ok hx
    exact ⟨[], idle (.createAccount id now) rfl, none_new⟩
  | deposit id req invoice now =>
    obtain ⟨-, hhash, rfl⟩ := depositTx_ok hx
    refine ⟨[⟨invoice.paymentHash, id, req.sats, invoice.bolt11, false, now⟩], ?_, by simp⟩
    have hrewrite : (Txn.deposit id req invoice now).rewriteInvoice = fun i => i := rfl
    simp [hrewrite]
  | createRental req now =>
    obtain ⟨m, -, -, a, -, -, -, -, -, -, key, -, rfl⟩ := createRentalTx_ok hx
    exact ⟨[], idle (.createRental req now) rfl, none_new⟩
  | deleteRental r now =>
    obtain ⟨-, -, rfl⟩ := deleteRentalTx_ok hx
    exact ⟨[], idle (.deleteRental r now) rfl, none_new⟩
  | pollInvoice p now =>
    obtain ⟨-, rfl⟩ := pollInvoice_ok hx
    exact ⟨[], (List.append_nil _).symm, none_new⟩
  | markOffline now => cases hx; exact ⟨[], idle (.markOffline now) rfl, none_new⟩
  | evict r now =>
    obtain ⟨-, rfl⟩ := evict_ok hx
    exact ⟨[], idle (.evict r now) rfl, none_new⟩

theorem Db.Awaits.exec {env : Env} {txn : Txn} {db db' : Db} {v : Reply}
    (hx : txn.exec env db = .ok (db', v)) (hne : ∀ p now, txn ≠ .pollInvoice p now)
    {p : PendingInvoice} (h : db.Awaits p) : db'.Awaits p := by
  obtain ⟨i, hi, hp⟩ := h
  obtain ⟨new, hrows, -⟩ := exec_invoices hx
  have same : txn.rewriteInvoice i = i := by
    cases txn with
    | pollInvoice p now => exact absurd rfl (hne p now)
    | _ => rfl
  refine ⟨i, ?_, hp⟩
  rw [hrows, ← same]
  exact List.mem_append_left _ (List.mem_map_of_mem hi)

theorem Db.Awaits.exec_pollInvoice {env : Env} {p p' : PendingInvoice} {now : Int} {db db' : Db}
    {v : Reply} (hx : (Txn.pollInvoice p now).exec env db = .ok (db', v))
    (hne : p'.paymentHash ≠ p.paymentHash) (h : db.Awaits p') : db'.Awaits p' := by
  obtain ⟨i, hi, hset, hhash, hp⟩ := h
  obtain ⟨new, hrows, -⟩ := exec_invoices hx
  have same : (Txn.pollInvoice p now).rewriteInvoice i = i := if_neg (hhash ▸ hne)
  refine ⟨i, ?_, hset, hhash, hp⟩
  rw [hrows, ← same]
  exact List.mem_append_left _ (List.mem_map_of_mem hi)

def Db.Credited (db : Db) (p : PendingInvoice) : Prop :=
  ∃ i ∈ db.invoices.rows, i.settled = true ∧ i.paymentHash = p.paymentHash ∧
    i.accountId = p.accountId ∧ i.sats = p.sats

theorem Db.Credited.exec {env : Env} {txn : Txn} {db db' : Db} {v : Reply}
    (hx : txn.exec env db = .ok (db', v)) {p : PendingInvoice} (h : db.Credited p) :
    db'.Credited p := by
  obtain ⟨i, hi, hset, hhash, haccount, hsats⟩ := h
  obtain ⟨new, hrows, -⟩ := exec_invoices hx
  refine ⟨txn.rewriteInvoice i, hrows ▸ List.mem_append_left _ (List.mem_map_of_mem hi), ?_⟩
  cases txn with
  | pollInvoice p' now =>
    simp only [Txn.rewriteInvoice]
    split
    · exact ⟨rfl, hhash, haccount, hsats⟩
    · exact ⟨hset, hhash, haccount, hsats⟩
  | _ => exact ⟨hset, hhash, haccount, hsats⟩

theorem Db.Awaits.credited {env : Env} {p : PendingInvoice} {now : Int} {db db' : Db} {v : Reply}
    (hx : (Txn.pollInvoice p now).exec env db = .ok (db', v)) (h : db.Awaits p) :
    db'.Credited p := by
  obtain ⟨i, hi, -, hhash, haccount, hsats⟩ := h
  obtain ⟨new, hrows, -⟩ := exec_invoices hx
  refine ⟨{ i with settled := true }, ?_, rfl, hhash, haccount, hsats⟩
  have turned : (Txn.pollInvoice p now).rewriteInvoice i = { i with settled := true } := if_pos hhash
  rw [hrows, ← turned]
  exact List.mem_append_left _ (List.mem_map_of_mem hi)

theorem awaits_pendingInvoices {db : Db} {p : PendingInvoice} (h : p ∈ pendingInvoices db) :
    db.Awaits p := by
  obtain ⟨i, hi, rfl⟩ := List.mem_map.mp h
  obtain ⟨hmem, hset⟩ := List.mem_filter.mp hi
  exact ⟨i, hmem, by simpa using hset, rfl, rfl, rfl⟩

theorem pendingInvoices_nodup (db : Db) : ((pendingInvoices db).map (·.paymentHash)).Nodup := by
  rw [pendingInvoices, List.map_map]
  exact db.invoices.nodup.sublist (List.filter_sublist.map _)

theorem runs_runningRentals {db : Db} {r : RentalRow} (h : r ∈ runningRentals db) : db.Runs r := by
  obtain ⟨hmem, hrun⟩ := List.mem_filter.mp h
  exact ⟨⟨r, hmem, rfl⟩, by simpa using hrun⟩

theorem Ticker.Ok.mono {env : Env} {txn : Txn} {db db' : Db} {v : Reply}
    (hx : txn.exec env db = .ok (db', v)) (hne : ∀ p now, txn ≠ .pollInvoice p now) {k : Ticker}
    (h : k.Ok db) : k.Ok db' := by
  have hext := Db.Extends.exec hx
  cases k with
  | poll pending => exact ⟨fun p hp => (h.1 p hp).exec hx hne, h.2⟩
  | pollTx p now rest => exact ⟨fun p hp => (h.1 p hp).exec hx hne, h.2⟩
  | budgets running => exact fun r hr => (h r hr).mono hext
  | balance r now rest => exact fun r hr => (h r hr).mono hext
  | evictTx r now rest => exact fun r hr => (h r hr).mono hext
  | idle | markOffline | enforce => trivial

theorem Ticker.next_read {env : Env} {i : Input} {db : Db} {k k' : Ticker} (h : k.Ok db)
    (hn : k.next env i db = .read k') : k'.Ok db := by
  cases k with
  | idle =>
    cases hn
    exact ⟨fun p => awaits_pendingInvoices, pendingInvoices_nodup db⟩
  | poll pending =>
    cases pending with
    | nil => cases hn; trivial
    | cons p rest =>
      obtain ⟨hall, hnodup⟩ := h
      simp only [next] at hn
      split at hn <;> cases hn
      · trivial
      · exact ⟨fun p hp => hall p (List.mem_cons_of_mem _ hp), (List.nodup_cons.mp hnodup).2⟩
      · exact ⟨hall, hnodup⟩
  | enforce => cases hn; exact fun r => runs_runningRentals
  | budgets running =>
    cases running with
    | nil => cases hn; trivial
    | cons r rest =>
      simp only [next] at hn
      split at hn
      · cases hn; trivial
      · split at hn <;> cases hn
        · exact fun r hr => h r (List.mem_cons_of_mem _ hr)
        · exact h
  | balance r now rest =>
    simp only [next] at hn
    split at hn
    · cases hn; trivial
    · split at hn <;> cases hn
      · exact fun r hr => h r (List.mem_cons_of_mem _ hr)
      · exact h
  | pollTx p now rest => cases hn
  | markOffline => cases hn
  | evictTx r now rest => cases hn

theorem Ticker.next_commit {env : Env} {i : Input} {db : Db} {k : Ticker} {txn : Txn}
    (hn : k.next env i db = .commit txn) :
    (∃ p now rest, k = .pollTx p now rest ∧ txn = .pollInvoice p now) ∨
    (k = .markOffline ∧ txn = .markOffline i.now) ∨
    ∃ r now rest, k = .evictTx r now rest ∧ txn = .evict r now := by
  cases k with
  | idle => cases hn
  | poll pending =>
    cases pending with
    | nil => cases hn
    | cons p rest => simp only [next] at hn; split at hn <;> cases hn
  | pollTx p now rest => cases hn; exact .inl ⟨p, now, rest, rfl, rfl⟩
  | markOffline => cases hn; exact .inr (.inl ⟨rfl, rfl⟩)
  | enforce => cases hn
  | budgets running =>
    cases running with
    | nil => cases hn
    | cons r rest =>
      simp only [next] at hn
      split at hn
      · cases hn
      · split at hn <;> cases hn
  | balance r now rest =>
    simp only [next] at hn
    split at hn
    · cases hn
    · split at hn <;> cases hn
  | evictTx r now rest => cases hn; exact .inr (.inr ⟨r, now, rest, rfl, rfl⟩)

theorem Ticker.commit_valid {env : Env} {i : Input} {db : Db} {k : Ticker} {txn : Txn}
    (h : k.Ok db) (hn : k.next env i db = .commit txn) : txn.Valid db := by
  obtain ⟨p, now, rest, rfl, rfl⟩ | ⟨rfl, rfl⟩ | ⟨r, now, rest, rfl, rfl⟩ := next_commit hn
  · exact h.1 p (List.mem_cons_self ..)
  · trivial
  · exact h r (List.mem_cons_self ..)

theorem Ticker.resume_ok {env : Env} {i : Input} {db db' : Db} {k : Ticker} {txn : Txn} {v : Reply}
    (h : k.Ok db) (hn : k.next env i db = .commit txn) (hx : txn.exec env db = .ok (db', v)) :
    (k.resume (.ok v)).Ok db' := by
  obtain ⟨p, now, rest, rfl, rfl⟩ | ⟨rfl, rfl⟩ | ⟨r, now, rest, rfl, rfl⟩ := next_commit hn
  · obtain ⟨hall, hnodup⟩ := h
    obtain ⟨hfresh, hrest⟩ := List.nodup_cons.mp hnodup
    refine ⟨fun p' hp' => ?_, hrest⟩
    refine (hall p' (List.mem_cons_of_mem _ hp')).exec_pollInvoice hx fun heq => hfresh ?_
    exact List.mem_map.mpr ⟨p', hp', heq⟩
  · trivial
  · exact fun r' hr' => (h r' (List.mem_cons_of_mem _ hr')).mono (Db.Extends.exec hx)

/-- What every process of the control plane may rely on at each of its steps. -/
def serverContract (env : Env) : (server env).Contract where
  Inv := Db.Wf
  Valid := fun db txn => txn.Valid db
  ThreadOk := fun db t => t.Ok db
  DaemonOk := fun db k => k.Ok db
  exec_inv := Db.Wf.exec
  start_ok _ _ := trivial
  thread_read _ := Thread.next_read
  thread_commit _ ht hn := (Thread.next_commit ht hn).1
  thread_finish _ t _ := by cases t <;> trivial
  thread_stable _ _ hx ht := ht.mono (Db.Extends.exec hx)
  daemon_read _ := Ticker.next_read
  daemon_commit _ := Ticker.commit_valid
  daemon_resume _ := Ticker.resume_ok
  daemon_error _ k _ := by cases k <;> trivial
  daemon_stable _ ht hn hx hk := hk.mono hx (Thread.next_commit ht hn).2

theorem init_holds (env : Env) : (serverContract env).Holds ServerConf.init where
  inv := Db.Wf.empty
  daemon := trivial
  thread _ ht := absurd ht List.not_mem_nil

end GpuMarket
