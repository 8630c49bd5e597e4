import GpuMarket.Lib.Except
import GpuMarket.ControlPlane.Server

namespace GpuMarket

open Lib

/-! What each transaction does when it succeeds. -/

@[simp] theorem sql_eq_ok {x : Except SqlxError α} {a : α} : sql x = .ok a ↔ x = .ok a :=
  mapError_eq_ok

theorem sql_map (x : Except SqlxError α) (f : α → β) : sql (x.map f) = (sql x).map f := by
  cases x <;> rfl

namespace Db

theorem insertMachine_ok {db : Db} {req : RegisterRequest} {token : String} {now : Int}
    {r : Int × Db} (h : db.insertMachine req token now = .ok r) :
    (∀ m ∈ db.machines.rows, m.agentToken ≠ token ∧ m.hostId ≠ req.hostId) ∧
      r = (db.machines.nextId,
        { db with machines := db.machines.append (req.toRow · token now) fun _ => req.toRow_id .. }) := by
  unfold insertMachine at h
  split at h
  case isTrue => cases h
  case isFalse htoken =>
    split at h
    case isTrue => cases h
    case isFalse hhost =>
      cases h
      simp only [List.any_eq_true, decide_eq_true_eq, not_exists, not_and] at htoken hhost
      exact ⟨fun m hm => ⟨htoken m hm, hhost m hm⟩, rfl⟩

theorem insertAccount_ok {db db' : Db} {id : String} {now : Int}
    (h : db.insertAccount id now = .ok db') :
    ∃ hid : ¬db.accounts.Has id,
      db' = { db with accounts := db.accounts.insert { id, createdAt := now } hid } := by
  unfold insertAccount at h
  split at h
  case isTrue => cases h
  case isFalse hid => cases h; exact ⟨hid, rfl⟩

theorem balanceOf_ok {db : Db} {id : String} {sats : Int} (h : db.balanceOf id = .ok sats) :
    ∃ a ∈ db.accounts.rows, a.id = id ∧ a.balanceSats = sats := by
  unfold balanceOf at h
  split at h
  case h_1 => cases h
  case h_2 a ha =>
    cases h
    exact ⟨a, (Table.mem_of_find? ha).1, (Table.mem_of_find? ha).2, rfl⟩

def withPayout (db : Db) (machineId : Int) (delta : Int) : Db :=
  db.updateMachine machineId (fun m => { m with payoutBalance := m.payoutBalance + delta })
    fun _ => rfl

theorem addBalance_ok {db db' : Db} {id : String} {delta : Int}
    (h : db.addBalance id delta = .ok db') :
    (∀ a ∈ db.accounts.rows, a.id = id → 0 ≤ a.balanceSats + delta) ∧
      db' = db.withBalance id delta := by
  unfold addBalance at h
  split at h
  case isTrue => cases h
  case isFalse hcheck =>
    cases h
    refine ⟨fun a ha hid => ?_, rfl⟩
    have hfind : db.accounts.find? id = some a := hid ▸ Table.find?_of_mem ha
    simpa [hfind] using hcheck

theorem addBalance_of_nonneg {db : Db} {a : AccountRow} (ha : a ∈ db.accounts.rows) {delta : Int}
    (h : 0 ≤ a.balanceSats + delta) : db.addBalance a.id delta = .ok (db.withBalance a.id delta) := by
  have hfind : db.accounts.find? a.id = some a := Table.find?_of_mem ha
  simp [addBalance, hfind, h, withBalance]

theorem insertInvoice_ok {db db' : Db} {hash id bolt11 : String} {sats now : Int}
    (h : db.insertInvoice hash id sats bolt11 now = .ok db') :
    db.accounts.Has id ∧ ∃ hhash : ¬db.invoices.Has hash,
      db' = { db with
        invoices := db.invoices.insert
          { paymentHash := hash, accountId := id, sats, bolt11, createdAt := now } hhash } := by
  unfold insertInvoice at h
  split at h
  case isTrue => cases h
  case isFalse hhash =>
    split at h
    case isFalse => cases h
    case isTrue hid => cases h; exact ⟨hid, hhash, rfl⟩

def withCommand (db : Db) (machineId : Int) (payload : String) (now : Int) : Db :=
  { db with commands := db.commands.append (.queued machineId payload now) fun _ => CommandRow.queued_id .. }

theorem insertCommand_ok {db db' : Db} {machineId : Int} {payload : String} {now : Int} :
    db.insertCommand machineId payload now = .ok db' ↔
      db.machines.Has machineId ∧ db.withCommand machineId payload now = db' := by
  unfold insertCommand
  split <;> simp_all [withCommand]

def withRental (db : Db) (machineId : Int) (accountId image sshPubkey : String) (rate now : Int) :
    Db :=
  { db with
    rentals := db.rentals.append (.created machineId accountId image sshPubkey rate now)
      fun _ => RentalRow.created_id .. }

theorem insertRental_ok {db : Db} {machineId : Int} {accountId image key : String} {rate now : Int}
    {r : Int × Db} : db.insertRental machineId accountId image key rate now = .ok r ↔
      (db.machines.Has machineId ∧ db.accounts.Has accountId) ∧
        (db.rentals.nextId, db.withRental machineId accountId image key rate now) = r := by
  unfold insertRental
  split <;> simp_all [withRental]

section Rows

variable {db : Db}

theorem mem_updateMachine {id : Int} {f : MachineRow → MachineRow} {hf : ∀ m, (f m).id = m.id}
    {m : MachineRow} (h : m ∈ (db.updateMachine id f hf).machines.rows) :
    ∃ m₀ ∈ db.machines.rows, m.id = m₀.id ∧ m = if m₀.id = id then f m₀ else m₀ := by
  simp only [updateMachine] at h
  exact Table.mem_update h

theorem mem_updateRental {id : Int} {f : RentalRow → RentalRow} {hf : ∀ r, (f r).id = r.id}
    {r : RentalRow} (h : r ∈ (db.updateRental id f hf).rentals.rows) :
    ∃ r₀ ∈ db.rentals.rows, r.id = r₀.id ∧ r = if r₀.id = id then f r₀ else r₀ := by
  simp only [updateRental] at h
  exact Table.mem_update h

theorem mem_withBalance {id : String} {delta : Int} {a : AccountRow}
    (h : a ∈ (db.withBalance id delta).accounts.rows) :
    ∃ a₀ ∈ db.accounts.rows, a.id = a₀.id ∧
      a.balanceSats = a₀.balanceSats + if a₀.id = id then delta else 0 := by
  simp only [withBalance] at h
  obtain ⟨a₀, ha₀, hid, rfl⟩ := Table.mem_update h
  exact ⟨a₀, ha₀, hid, by split <;> simp⟩

theorem mem_settleInvoice {hash : String} {i : InvoiceRow}
    (h : i ∈ (db.settleInvoice hash).invoices.rows) :
    ∃ i₀ ∈ db.invoices.rows, i.paymentHash = i₀.paymentHash ∧
      i = if i₀.paymentHash = hash then { i₀ with settled := true } else i₀ := by
  simp only [settleInvoice] at h
  exact Table.mem_update h

theorem mem_withRental {machineId : Int} {accountId image key : String} {rate now : Int}
    {r : RentalRow} :
    r ∈ (db.withRental machineId accountId image key rate now).rentals.rows ↔
      r ∈ db.rentals.rows ∨
        r = .created machineId accountId image key rate now db.rentals.nextId := by
  simp [withRental]

theorem mem_record {ts : Int} {kind : LedgerKind} {delta : Int} {accountId : Option String}
    {machineId rentalId : Option Int} {note : Option String} {l : LedgerRow} :
    l ∈ (db.record ts kind delta accountId machineId rentalId note).ledger ↔
      l ∈ db.ledger ∨ l = ⟨ts, accountId, machineId, rentalId, delta, kind, note⟩ := by
  simp [record]

@[simp] theorem has_updateMachine {id k : Int} {f : MachineRow → MachineRow}
    {hf : ∀ m, (f m).id = m.id} :
    (db.updateMachine id f hf).machines.Has k ↔ db.machines.Has k := by
  simp [updateMachine]

@[simp] theorem has_updateRental {id k : Int} {f : RentalRow → RentalRow}
    {hf : ∀ r, (f r).id = r.id} :
    (db.updateRental id f hf).rentals.Has k ↔ db.rentals.Has k := by
  simp [updateRental]

@[simp] theorem has_withBalance {id k : String} {delta : Int} :
    (db.withBalance id delta).accounts.Has k ↔ db.accounts.Has k := by
  simp [withBalance]

theorem has_withRental {machineId : Int} {accountId image key : String} {rate now k : Int} :
    (db.withRental machineId accountId image key rate now).rentals.Has k ↔
      db.rentals.Has k ∨ db.rentals.nextId = k := by
  simp only [withRental]
  exact Table.has_append

end Rows

def charged (db : Db) (machineId : Int) (rental : RentalRow) (charge now : Int) : Db :=
  if charge > 0 then
    ((db.withBalance rental.accountId (-charge)).withPayout machineId charge).recordCharge
      now rental.accountId machineId rental.id charge
  else db

/-- The rental is billed: the charge moves and the rental's row says so. -/
def billed (db : Db) (machineId : Int) (rental : RentalRow) (charge now : Int) : Db :=
  (db.charged machineId rental charge now).updateRental rental.id
    (fun r =>
      { r with
        satsCharged := charge
        minutesBilled := (max (now - rental.createdAt) 0).tdiv 60 })
    fun _ => rfl

@[simp] theorem charged_rentals (db : Db) (machineId : Int) (rental : RentalRow)
    (charge now : Int) : (db.charged machineId rental charge now).rentals = db.rentals := by
  unfold charged; split <;> rfl

@[simp] theorem charged_invoices (db : Db) (machineId : Int) (rental : RentalRow)
    (charge now : Int) : (db.charged machineId rental charge now).invoices = db.invoices := by
  unfold charged; split <;> rfl

@[simp] theorem charged_commands (db : Db) (machineId : Int) (rental : RentalRow)
    (charge now : Int) : (db.charged machineId rental charge now).commands = db.commands := by
  unfold charged; split <;> rfl

def chargeRows (machineId : Int) (rental : RentalRow) (charge now : Int) : List LedgerRow :=
  [⟨now, some rental.accountId, none, some rental.id, -charge, .rentalCharge, none⟩,
    ⟨now, none, some machineId, some rental.id, charge, .hostCredit, none⟩]

theorem ledger_charged (db : Db) (machineId : Int) (rental : RentalRow) (charge now : Int) :
    (db.charged machineId rental charge now).ledger =
      db.ledger ++ if 0 < charge then chargeRows machineId rental charge now else [] := by
  unfold charged
  by_cases hpos : charge > 0
  · rw [if_pos hpos, if_pos hpos]
    simp [recordCharge, record, withBalance, withPayout, updateMachine, chargeRows]
  · rw [if_neg hpos, if_neg hpos, List.append_nil]

end Db

theorem registerInsert_ok {req : RegisterRequest} {token : String} {now : Int} {db db' : Db}
    {v : Reply} (h : registerInsert req token now db = .ok (db', v)) :
    (∀ m ∈ db.machines.rows, m.agentToken ≠ token ∧ m.hostId ≠ req.hostId) ∧
      db' = { db with machines := db.machines.append (req.toRow · token now) fun _ => req.toRow_id .. } ∧
      v = .registered db.machines.nextId token := by
  obtain ⟨r, hr, h⟩ := bind_eq_ok.mp h
  obtain ⟨hfresh, rfl⟩ := Db.insertMachine_ok (sql_eq_ok.mp hr)
  cases h
  exact ⟨hfresh, rfl, rfl⟩

def CommandRow.waits (machineId : Int) (c : CommandRow) : Prop :=
  c.machineId = machineId ∧ c.delivered = false

instance (machineId : Int) (c : CommandRow) : Decidable (c.waits machineId) :=
  inferInstanceAs (Decidable (_ ∧ _))

theorem mem_undelivered {db : Db} {machineId : Int} {c : CommandRow} :
    c ∈ undelivered db machineId ↔ c ∈ db.commands.rows ∧ c.waits machineId := by
  rw [undelivered, Table.orderBy, List.Perm.mem_iff (List.perm_insertionSort _ _),
    List.mem_filter, decide_eq_true_eq, CommandRow.waits]

theorem foldl_setDelivered (rows : List CommandRow) (db : Db) :
    rows.foldl (fun db c => db.setDelivered c.id) db =
      { db with
        commands := db.commands.mapRows
          (fun c => if c.id ∈ rows.map (·.id) then { c with delivered := true } else c)
          (by intro c; split <;> rfl) } := by
  induction rows generalizing db with
  | nil =>
    obtain ⟨machines, accounts, rentals, invoices, ledger, commands⟩ := db
    simp [Table.mapRows]
  | cons r rows ih =>
    rw [List.foldl_cons, ih]
    simp only [Db.setDelivered, Table.update, Table.mapRows, List.map_map]
    congr 2
    apply List.map_congr_left
    intro c _
    simp only [Function.comp_apply, List.map_cons, List.mem_cons]
    by_cases hr : c.id = r.id
    · by_cases hrows : r.id ∈ rows.map (·.id) <;> simp only [hr, hrows, if_true, if_false, true_or]
    · simp only [hr, if_false, false_or]

theorem heartbeatTx_ok {env : Env} {machine : MachineRow} {req : HeartbeatRequest} {now : Int}
    {db db' : Db} {v : Reply} (h : heartbeatTx env machine req now db = .ok (db', v)) :
    (∃ cmds, v = .commands cmds ∧
      (undelivered db machine.id).mapM (fun c => decode env c.payload) = .ok cmds) ∧
    db' = { db with
      machines := db.machines.update machine.id
        (fun m => { m with lastHeartbeat := now, online := req.online }) fun _ => rfl
      commands := db.commands.mapRows
        (fun c => if c.waits machine.id then { c with delivered := true } else c)
        (by intro c; split <;> rfl) } := by
  simp only [heartbeatTx] at h
  obtain ⟨cmds, hcmds, h⟩ := bind_eq_ok.mp h
  cases h
  refine ⟨⟨cmds, rfl, hcmds⟩, ?_⟩
  rw [foldl_setDelivered]
  simp only [Db.updateMachine, Table.mapRows]
  congr 2
  apply List.map_congr_left
  intro c hc
  have same : c.id ∈ (undelivered db machine.id).map (·.id) ↔ c.waits machine.id := by
    constructor
    · intro hid
      obtain ⟨c', hc', hcc⟩ := List.mem_map.mp hid
      obtain ⟨hmem, hw⟩ := mem_undelivered.mp hc'
      rwa [← Table.eq_of_key_eq hmem hc hcc]
    · intro hw
      exact List.mem_map_of_mem (mem_undelivered.mpr ⟨hc, hw⟩)
  exact if_congr same rfl rfl

theorem createAccountTx_ok {id : String} {now : Int} {db db' : Db} {v : Reply}
    (h : createAccountTx id now db = .ok (db', v)) :
    v = .account id ∧ ∃ hid : ¬db.accounts.Has id,
      db' = { db with accounts := db.accounts.insert { id, createdAt := now } hid } := by
  obtain ⟨db₁, hr, h⟩ := bind_eq_ok.mp h
  obtain ⟨hid, rfl⟩ := Db.insertAccount_ok (sql_eq_ok.mp hr)
  cases h
  exact ⟨rfl, hid, rfl⟩

theorem depositTx_ok {id : String} {req : DepositRequest} {invoice : Invoice} {now : Int}
    {db db' : Db} {v : Reply} (h : depositTx id req invoice now db = .ok (db', v)) :
    db.accounts.Has id ∧ ∃ hhash : ¬db.invoices.Has invoice.paymentHash,
      db' = { db with
        invoices := db.invoices.insert
          { paymentHash := invoice.paymentHash, accountId := id, sats := req.sats,
            bolt11 := invoice.bolt11, createdAt := now } hhash } := by
  obtain ⟨db₁, hr, h⟩ := bind_eq_ok.mp h
  obtain ⟨hid, hhash, rfl⟩ := Db.insertInvoice_ok (sql_eq_ok.mp hr)
  cases h
  exact ⟨hid, hhash, rfl⟩

theorem findMachine_ok {db : Db} {id : Int} {m : MachineRow} (h : findMachine db id = .ok m) :
    m ∈ db.machines.rows ∧ m.id = id := by
  unfold findMachine at h
  split at h
  case h_1 => cases h
  case h_2 hm => cases h; exact Table.mem_of_find? hm

theorem findAccount_ok {db : Db} {id : String} {a : AccountRow} (h : findAccount db id = .ok a) :
    a ∈ db.accounts.rows ∧ a.id = id := by
  unfold findAccount at h
  split at h
  case h_1 => cases h
  case h_2 ha => cases h; exact Table.mem_of_find? ha

theorem findRental_ok {db : Db} {id : Int} {r : RentalRow} (h : findRental db id = .ok r) :
    r ∈ db.rentals.rows ∧ r.id = id := by
  unfold findRental at h
  split at h
  case h_1 => cases h
  case h_2 hr => cases h; exact Table.mem_of_find? hr

theorem rentalOfMachine_ok {db : Db} {id machineId : Int} {r : RentalRow}
    (h : rentalOfMachine db id machineId = .ok r) :
    r ∈ db.rentals.rows ∧ r.id = id ∧ r.machineId = machineId := by
  unfold rentalOfMachine at h
  split at h
  case h_1 => cases h
  case h_2 hr =>
    cases h
    exact ⟨List.mem_of_find?_eq_some hr, by simpa using List.find?_some hr⟩

theorem rentalOfMachine_of_mem {db : Db} {r : RentalRow} (h : r ∈ db.rentals.rows) :
    rentalOfMachine db r.id r.machineId = .ok r := by
  unfold rentalOfMachine
  cases hf : db.rentals.rows.find? fun r' => r'.id = r.id ∧ r'.machineId = r.machineId with
  | none => exact absurd (List.find?_eq_none.mp hf r h) (by simp)
  | some r' =>
    obtain ⟨hid, -⟩ : r'.id = r.id ∧ r'.machineId = r.machineId := by
      simpa using List.find?_some hf
    rw [Table.eq_of_key_eq (List.mem_of_find?_eq_some hf) h hid]

theorem authenticate_ok {db : Db} {auth : Option String} {m : MachineRow}
    (h : authenticate db auth = .ok m) :
    m ∈ db.machines.rows ∧ auth.bind (stripPrefix "Bearer ") = some m.agentToken := by
  unfold authenticate at h
  split at h
  case h_1 => cases h
  case h_2 token htoken =>
    split at h
    case h_1 => cases h
    case h_2 hm =>
      cases h
      have htok : m.agentToken = token := by simpa using List.find?_some hm
      exact ⟨List.mem_of_find?_eq_some hm, htok ▸ htoken⟩

theorem createRentalTx_ok {env : Env} {req : CreateRentalRequest} {now : Int} {db db' : Db}
    {v : Reply} (h : createRentalTx env req now db = .ok (db', v)) :
    ∃ m ∈ db.machines.rows, m.id = req.machineId ∧ ∃ a ∈ db.accounts.rows, a.id = req.accountId ∧
      m.online ∧ ¬occupied db req.machineId ∧ m.rateSatsPerMin ≤ a.balanceSats ∧
      v = .rental db.rentals.nextId .provisioning m.rateSatsPerMin ∧
      ∃ key, sshKey req = .ok key ∧
        db' = (db.withRental req.machineId req.accountId req.image key m.rateSatsPerMin
          now).withCommand req.machineId
            (env.serde.toString (.startRental db.rentals.nextId req.image key)) now := by
  obtain ⟨m, hm, h⟩ := bind_eq_ok.mp h
  obtain ⟨a, ha, h⟩ := bind_eq_ok.mp h
  obtain ⟨key, hkey, h⟩ := bind_eq_ok.mp h
  obtain ⟨hmem, hmid⟩ := findMachine_ok hm
  obtain ⟨hamem, haid⟩ := findAccount_ok ha
  by_cases honline : m.online
  · by_cases hocc : occupied db req.machineId
    · simp [honline, hocc, bind, Except.bind, throw, throwThe, MonadExceptOf.throw] at h
    · by_cases hrate : a.balanceSats < m.rateSatsPerMin
      · simp [honline, hocc, hrate, bind, Except.bind, throw, throwThe, MonadExceptOf.throw] at h
      · simp only [honline, hocc, hrate, not_true_eq_false, if_false] at h
        obtain ⟨⟨id, db₁⟩, hins, h⟩ := bind_eq_ok.mp h
        obtain ⟨db₂, hcmd, h⟩ := bind_eq_ok.mp h
        obtain ⟨-, hins⟩ := Db.insertRental_ok.mp (sql_eq_ok.mp hins)
        obtain ⟨-, rfl⟩ := Db.insertCommand_ok.mp (sql_eq_ok.mp hcmd)
        cases hins
        cases h
        exact ⟨m, hmem, hmid, a, hamem, haid, honline, hocc, not_lt.mp hrate, rfl, key, hkey, rfl⟩
  · simp [honline, bind, Except.bind, throw, throwThe, MonadExceptOf.throw] at h

theorem deleteRentalTx_ok {env : Env} {r : RentalRow} {now : Int} {db db' : Db} {v : Reply}
    (h : deleteRentalTx env r now db = .ok (db', v)) :
    db.machines.Has r.machineId ∧ v = .rentalStatus r.id "evicting" ∧
      db' = (db.updateRental r.id (fun r => { r with status := .evicting }) fun _ => rfl).withCommand
        r.machineId (env.serde.toString (.stopRental r.id)) now := by
  obtain ⟨db₁, hcmd, h⟩ := bind_eq_ok.mp h
  obtain ⟨hm, rfl⟩ := Db.insertCommand_ok.mp (sql_eq_ok.mp hcmd)
  cases h
  exact ⟨hm, rfl, rfl⟩

theorem evict_ok {env : Env} {r : RentalRow} {now : Int} {db db' : Db} {v : Reply}
    (h : (Txn.evict r now).exec env db = .ok (db', v)) :
    db.machines.Has r.machineId ∧
      db' = ((db.updateRental r.id
        (fun r => { r with status := .evicting, error := some "insufficient balance" })
          fun _ => rfl).withCommand r.machineId (env.serde.toString (.stopRental r.id)) now).record
            now .evict 0 (some r.accountId) none (some r.id) (some "insufficient balance") := by
  obtain ⟨db₁, htx, h⟩ := map_eq_ok.mp h
  obtain ⟨db₂, hcmd, htx⟩ := bind_eq_ok.mp (sql_eq_ok.mp htx)
  obtain ⟨hm, rfl⟩ := Db.insertCommand_ok.mp hcmd
  cases htx
  cases h
  exact ⟨hm, rfl⟩

theorem pollInvoice_ok {env : Env} {p : PendingInvoice} {now : Int} {db db' : Db} {v : Reply}
    (h : (Txn.pollInvoice p now).exec env db = .ok (db', v)) :
    (∀ a ∈ db.accounts.rows, a.id = p.accountId → 0 ≤ a.balanceSats + p.sats) ∧
      db' = ((db.settleInvoice p.paymentHash).withBalance p.accountId p.sats).record
        now .deposit p.sats (some p.accountId) none none (some "deposit") := by
  obtain ⟨db₁, htx, h⟩ := map_eq_ok.mp h
  obtain ⟨db₂, hbal, htx⟩ := bind_eq_ok.mp (sql_eq_ok.mp htx)
  obtain ⟨hcheck, rfl⟩ := Db.addBalance_ok hbal
  cases htx
  cases h
  exact ⟨hcheck, rfl⟩

def chargeOf (env : Env) (rental : RentalRow) (now sats : Int) : Int :=
  min (accruedCharge env.arith rental.createdAt now rental.rateSatsPerMin) sats

theorem reportTx_of_not_settles {env : Env} {machine : MachineRow} {rental : RentalRow}
    {req : ReportRequest} {now : Int} {db : Db} (h : settles rental req = false) :
    reportTx env machine rental req now db =
      .ok (db.updateRental req.rentalId (req.apply machine now) (req.apply_id machine now), .ok) := by
  simp [reportTx, h]; rfl

theorem reportTx_of_settles {env : Env} {machine : MachineRow} {rental : RentalRow}
    {req : ReportRequest} {now : Int} {db : Db} (h : settles rental req = true) {a : AccountRow}
    (ha : a ∈ db.accounts.rows) (hid : a.id = rental.accountId) :
    reportTx env machine rental req now db =
      .ok ((db.updateRental req.rentalId (req.apply machine now) (req.apply_id machine now)).billed machine.id
        rental (chargeOf env rental now a.balanceSats) now, .ok) := by
  let db₁ := db.updateRental req.rentalId (req.apply machine now) (req.apply_id machine now)
  have ha₁ : a ∈ db₁.accounts.rows := ha
  have hfind : db₁.accounts.find? rental.accountId = some a := hid ▸ Table.find?_of_mem ha₁
  have hread : db₁.balanceOf rental.accountId = .ok a.balanceSats := by
    rw [Db.balanceOf, hfind]
  have hcap : chargeOf env rental now a.balanceSats ≤ a.balanceSats := min_le_right _ _
  have hpay : db₁.addBalance rental.accountId (-chargeOf env rental now a.balanceSats) =
      .ok (db₁.withBalance rental.accountId (-chargeOf env rental now a.balanceSats)) := by
    rw [← hid]
    exact Db.addBalance_of_nonneg ha₁ (by omega)
  simp only [reportTx, h, if_true]
  refine bind_eq_ok.mpr ⟨a.balanceSats, sql_eq_ok.mpr hread, ?_⟩
  unfold Db.billed Db.charged
  by_cases hc : chargeOf env rental now a.balanceSats > 0
  · rw [if_pos hc]
    exact (if_pos hc).trans (bind_eq_ok.mpr ⟨_, sql_eq_ok.mpr hpay, rfl⟩)
  · rw [if_neg hc]
    exact if_neg hc

theorem reportTx_ok {env : Env} {machine : MachineRow} {rental : RentalRow} {req : ReportRequest}
    {now : Int} {db db' : Db} {v : Reply} (h : reportTx env machine rental req now db = .ok (db', v)) :
    (settles rental req = false ∧
      db' = db.updateRental req.rentalId (req.apply machine now) (req.apply_id machine now)) ∨
    (settles rental req = true ∧ ∃ a ∈ db.accounts.rows, a.id = rental.accountId ∧
      db' = (db.updateRental req.rentalId (req.apply machine now) (req.apply_id machine now)).billed machine.id
        rental (chargeOf env rental now a.balanceSats) now) := by
  cases hs : settles rental req with
  | false =>
    rw [reportTx_of_not_settles hs] at h
    cases h
    exact .inl ⟨rfl, rfl⟩
  | true =>
    have hread := h
    simp only [reportTx, hs, if_true] at hread
    obtain ⟨sats, hsats, -⟩ := bind_eq_ok.mp hread
    obtain ⟨a, ha, hid, -⟩ := Db.balanceOf_ok (sql_eq_ok.mp hsats)
    change a ∈ db.accounts.rows at ha
    rw [reportTx_of_settles hs ha hid] at h
    cases h
    exact .inr ⟨rfl, a, ha, hid, rfl⟩

end GpuMarket
