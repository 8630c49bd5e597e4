import GpuMarket.Lib.Growth
import GpuMarket.ControlPlane.Machines
import GpuMarket.ControlPlane.Rentals

namespace GpuMarket

open Lib

def Bears (auth : Option String) (token : String) : Prop :=
  auth.bind (stripPrefix "Bearer ") = some token

instance (auth : Option String) (token : String) : Decidable (Bears auth token) :=
  inferInstanceAs (Decidable (_ = _))

structure Footprint where
  machine : MachineRow → MachineRow → Prop := fun _ _ => False
  newMachine : MachineRow → Prop := fun _ => False
  account : AccountRow → AccountRow → Prop := fun _ _ => False
  newAccount : AccountRow → Prop := fun _ => False
  rental : RentalRow → RentalRow → Prop := fun _ _ => False
  newRental : RentalRow → Prop := fun _ => False
  invoice : InvoiceRow → InvoiceRow → Prop := fun _ _ => False
  newInvoice : InvoiceRow → Prop := fun _ => False
  newEntry : LedgerRow → Prop := fun _ => False
  command : CommandRow → CommandRow → Prop := fun _ _ => False
  newCommand : CommandRow → Prop := fun _ => False

structure Footprint.Covers (F : Footprint) (db db' : Db) : Prop where
  machines : Grows F.machine F.newMachine db.machines.rows db'.machines.rows
  accounts : Grows F.account F.newAccount db.accounts.rows db'.accounts.rows
  rentals : Grows F.rental F.newRental db.rentals.rows db'.rentals.rows
  invoices : Grows F.invoice F.newInvoice db.invoices.rows db'.invoices.rows
  ledger : Grows (fun _ _ => False) F.newEntry db.ledger db'.ledger
  commands : Grows F.command F.newCommand db.commands.rows db'.commands.rows

/-- A proof about a step starts from here, and goes through the tables that it changes. -/
theorem Footprint.Covers.refl (F : Footprint) (db : Db) : F.Covers db db where
  machines := .refl _
  accounts := .refl _
  rentals := .refl _
  invoices := .refl _
  ledger := .refl _
  commands := .refl _

/-- The machine is the one of the token in the header. -/
def Db.OwnedBy (db : Db) (auth : Option String) (machineId : Int) : Prop :=
  ∃ m ∈ db.machines.rows, m.id = machineId ∧ Bears auth m.agentToken

def LedgerRow.Charges (l : LedgerRow) (r : RentalRow) : Prop :=
  l.rentalId = some r.id ∧
    (l.kind = .rentalCharge ∧ l.accountId = some r.accountId ∧ l.machineId = none ∧
        l.deltaSats < 0 ∨
      l.kind = .hostCredit ∧ l.accountId = none ∧ l.machineId = some r.machineId ∧
        0 < l.deltaSats)

/-- What may be done on behalf of each request. -/
def Request.footprint (env : Env) (db : Db) : Request → Footprint
  | .register req =>
    { machine m m' := m.hostId = req.hostId ∧ ∃ now, m' = req.refresh now m
      newMachine m := ∃ id token now, m = req.toRow id token now }
  | .heartbeat auth req =>
    { machine m m' :=
        Bears auth m.agentToken ∧ ∃ now, m' = { m with lastHeartbeat := now, online := req.online }
      command c c' :=
        db.OwnedBy auth c.machineId ∧ c.delivered = false ∧ c' = { c with delivered := true } }
  | .report auth req =>
    { machine m m' :=
        req.status.isTerminal ∧ Bears auth m.agentToken ∧
          ∃ charge, 0 < charge ∧ m' = { m with payoutBalance := m.payoutBalance + charge }
      account a a' :=
        req.status.isTerminal ∧
          (∃ r ∈ db.rentals.rows, r.id = req.rentalId ∧ db.OwnedBy auth r.machineId ∧
            r.accountId = a.id) ∧
          ∃ charge, 0 < charge ∧ charge ≤ a.balanceSats ∧
            a' = { a with balanceSats := a.balanceSats - charge }
      rental r r' :=
        r.id = req.rentalId ∧ db.OwnedBy auth r.machineId ∧ r'.terms = r.terms ∧
          r'.status = req.status
      newEntry l :=
        req.status.isTerminal ∧ ∃ r ∈ db.rentals.rows, r.id = req.rentalId ∧
          db.OwnedBy auth r.machineId ∧ l.Charges r }
  | .rate auth req =>
    { machine m m' :=
        Bears auth m.agentToken ∧ m' = { m with rateSatsPerMin := req.rateSatsPerMin } }
  | .payout auth _ =>
    { machine m m' := Bears auth m.agentToken ∧ m' = { m with payoutBalance := 0 }
      newEntry l :=
        l.kind = .payout ∧ l.accountId = none ∧ l.rentalId = none ∧ l.deltaSats < 0 ∧
          ∃ id, l.machineId = some id ∧ db.OwnedBy auth id }
  | .createAccount => { newAccount a := a.balanceSats = 0 }
  | .deposit id req =>
    { newInvoice i := i.accountId = id ∧ i.sats = req.sats ∧ 0 < i.sats ∧ i.settled = false }
  | .createRental req =>
    { newRental r :=
        r.machineId = req.machineId ∧ r.accountId = req.accountId ∧ r.image = req.image ∧
          r.status = .provisioning ∧ r.satsCharged = 0
      newCommand c :=
        c.machineId = req.machineId ∧ c.delivered = false ∧
          ∃ id key, c.payload = env.serde.toString (.startRental id req.image key) }
  | .deleteRental id =>
    { rental r r' := r.id = id ∧ r' = { r with status := .evicting }
      newCommand c :=
        (∃ r ∈ db.rentals.rows, r.id = id ∧ r.machineId = c.machineId) ∧ c.delivered = false ∧
          c.payload = env.serde.toString (.stopRental id) }

/-- What the billing ticker may do. -/
def Ticker.footprint (env : Env) (db : Db) : Footprint where
  machine m m' := m.online = true ∧ m' = { m with online := false }
  account a a' :=
    ∃ i ∈ db.invoices.rows, i.settled = false ∧ i.accountId = a.id ∧
      a' = { a with balanceSats := a.balanceSats + i.sats }
  rental r r' := r' = { r with status := .evicting, error := some "insufficient balance" }
  invoice i i' := i.settled = false ∧ i' = { i with settled := true }
  newEntry l :=
    l.machineId = none ∧
      ((∃ i ∈ db.invoices.rows, i.settled = false ∧ l.kind = .deposit ∧
          l.accountId = some i.accountId ∧ l.rentalId = none ∧ l.deltaSats = i.sats) ∨
        ∃ r ∈ db.rentals.rows, l.kind = .evict ∧ l.accountId = some r.accountId ∧
          l.rentalId = some r.id ∧ l.deltaSats = 0)
  newCommand c :=
    c.delivered = false ∧ ∃ r ∈ db.rentals.rows, r.machineId = c.machineId ∧
      c.payload = env.serde.toString (.stopRental r.id)

def Request.Writes : Request → Txn → Prop
  | .register req, .registerUpdate m q _ => q = req ∧ m.hostId = req.hostId
  | .register req, .registerInsert q _ _ => q = req
  | .heartbeat auth req, .heartbeat machine q _ => q = req ∧ Bears auth machine.agentToken
  | .report auth req, .report machine _ q _ => q = req ∧ Bears auth machine.agentToken
  | .rate auth req, .rate machine q => q = req ∧ Bears auth machine.agentToken
  | .payout auth _, .payout machine _ => Bears auth machine.agentToken
  | .createAccount, .createAccount .. => True
  | .deposit id req, .deposit id' q _ _ => id' = id ∧ q = req
  | .createRental req, .createRental q _ => q = req
  | .deleteRental id, .deleteRental r _ => r.id = id
  | _, _ => False

def Thread.ActsFor (r : Request) : Thread → Prop
  | .received r' => r' = r
  | .registerUpdate m req now => r.Writes (.registerUpdate m req now)
  | .registerInsert req _ => r = .register req
  | .heartbeatTx machine req now => r.Writes (.heartbeat machine req now)
  | .reportRead machine req => ∃ auth, r = .report auth req ∧ Bears auth machine.agentToken
  | .reportTx machine rental req now => r.Writes (.report machine rental req now)
  | .rateUpdate machine req => r.Writes (.rate machine req)
  | .payoutPay machine _ => ∃ auth req, r = .payout auth req ∧ Bears auth machine.agentToken
  | .payoutTx machine now => r.Writes (.payout machine now)
  | .depositInvoice id req | .depositInsert id req _ _ => r = .deposit id req
  | .deleteRentalTx row now => r.Writes (.deleteRental row now)
  | .done _ => True

theorem fetch_actsFor {α : Type} {r : Request} {x : Except ApiError α} {next : α → Next Thread Txn}
    {t : Thread} (hn : fetch x next = .read t)
    (hnext : ∀ a, x = .ok a → next a = .read t → t.ActsFor r) : t.ActsFor r := by
  rcases fetch_eq_read hn with ⟨e, rfl⟩ | ⟨a, ha, hn⟩
  · trivial
  · exact hnext a ha hn

theorem Request.actsFor_read {db : Db} {i : Input} {r : Request} {t : Thread}
    (hn : r.next db i = .read t) : t.ActsFor r := by
  cases r with
  | register req =>
    simp only [next] at hn
    split at hn
    case h_1 m hm =>
      cases hn
      exact ⟨rfl, by simpa using List.find?_some hm⟩
    case h_2 =>
      cases hn
      rfl
  | heartbeat auth req =>
    refine fetch_actsFor hn fun m hm hn => ?_
    cases hn
    exact ⟨rfl, (authenticate_ok hm).2⟩
  | report auth req =>
    refine fetch_actsFor hn fun m hm hn => ?_
    cases hn
    exact ⟨auth, rfl, (authenticate_ok hm).2⟩
  | rate auth req =>
    refine fetch_actsFor hn fun m hm hn => ?_
    refine fetch_actsFor hn fun _ _ hn => ?_
    cases hn
    exact ⟨rfl, (authenticate_ok hm).2⟩
  | payout auth req =>
    refine fetch_actsFor hn fun m hm hn => ?_
    refine fetch_actsFor hn fun _ _ hn => ?_
    cases hn
    exact ⟨auth, req, rfl, (authenticate_ok hm).2⟩
  | createAccount | createRental req => cases hn
  | deposit id req =>
    refine fetch_actsFor hn fun _ _ hn => ?_
    refine fetch_actsFor hn fun _ _ hn => ?_
    cases hn
    rfl
  | deleteRental id =>
    refine fetch_actsFor hn fun row hrow hn => ?_
    split at hn
    case isTrue =>
      cases hn
      trivial
    case isFalse =>
      cases hn
      exact (findRental_ok hrow).2

theorem Thread.actsFor_read {db : Db} {i : Input} {r : Request} {t t' : Thread}
    (h : t.ActsFor r) (hn : t.next i db = .read t') : t'.ActsFor r := by
  cases t with
  | received r' =>
    obtain rfl : r' = r := h
    exact Request.actsFor_read hn
  | reportRead machine req =>
    obtain ⟨auth, rfl, htoken⟩ := h
    refine fetch_actsFor hn fun rental _ hn => ?_
    cases hn
    exact ⟨rfl, htoken⟩
  | payoutPay machine req =>
    obtain ⟨auth, q, rfl, htoken⟩ := h
    simp only [next] at hn
    split at hn
    all_goals cases hn
    · exact htoken
    · trivial
  | depositInvoice id req =>
    simp only [next] at hn
    split at hn
    all_goals cases hn
    · trivial
    · exact h
  | done reply =>
    cases hn
    trivial
  | registerUpdate | registerInsert | heartbeatTx | reportTx | rateUpdate | payoutTx | depositInsert
  | deleteRentalTx => cases hn

theorem Request.writes_of_commit {db : Db} {i : Input} {r : Request} {txn : Txn}
    (hn : r.next db i = .commit txn) : r.Writes txn := by
  cases r with
  | createAccount =>
    cases hn
    trivial
  | createRental req =>
    cases hn
    rfl
  | register req =>
    simp only [next] at hn
    split at hn <;> cases hn
  | heartbeat auth req | report auth req =>
    obtain ⟨m, -, hn⟩ := fetch_eq_commit.mp hn
    cases hn
  | rate auth req | payout auth req | deposit auth req =>
    obtain ⟨m, -, hn⟩ := fetch_eq_commit.mp hn
    obtain ⟨-, -, hn⟩ := fetch_eq_commit.mp hn
    cases hn
  | deleteRental id =>
    obtain ⟨row, -, hn⟩ := fetch_eq_commit.mp hn
    split at hn <;> cases hn

theorem Thread.ActsFor.writes {db : Db} {i : Input} {r : Request} {t : Thread} {txn : Txn}
    (h : t.ActsFor r) (hn : t.next i db = .commit txn) : r.Writes txn := by
  cases t with
  | received r' =>
    obtain rfl : r' = r := h
    exact Request.writes_of_commit hn
  | reportRead machine req =>
    obtain ⟨rental, -, hn⟩ := fetch_eq_commit.mp hn
    cases hn
  | payoutPay machine req =>
    simp only [next] at hn
    split at hn <;> cases hn
  | depositInvoice id req =>
    simp only [next] at hn
    split at hn <;> cases hn
  | registerInsert req now =>
    obtain rfl := h
    cases hn
    rfl
  | depositInsert id req invoice now =>
    obtain rfl := h
    cases hn
    exact ⟨rfl, rfl⟩
  | registerUpdate | heartbeatTx | reportTx | rateUpdate | payoutTx | deleteRentalTx =>
    cases hn
    exact h
  | done reply => cases hn

theorem server_actsFor (env : Env) : (server env).Serves fun _ r t => t.ActsFor r where
  start _ _ := rfl
  read h hn := Thread.actsFor_read h hn
  commit {s r t i txn s' v} _ _ _ := by cases t <;> trivial
  error {s r t e} h := by cases t <;> trivial
  stable _ h := h

section Covers

variable {env : Env} {db db' : Db} {v : Reply}

theorem Db.OwnedBy.of_hasMachine {auth : Option String} {machine : MachineRow}
    (hm : db.HasMachine machine) (htoken : Bears auth machine.agentToken) :
    db.OwnedBy auth machine.id := by
  obtain ⟨m, hmem, hsame⟩ := hm
  simp only [MachineRow.identity, Prod.mk.injEq] at hsame
  exact ⟨m, hmem, hsame.1, hsame.2.1 ▸ htoken⟩

theorem Db.HasMachine.token {machine m : MachineRow} (hm : db.HasMachine machine)
    (hmem : m ∈ db.machines.rows) (hid : m.id = machine.id) :
    m.agentToken = machine.agentToken ∧ m.hostId = machine.hostId := by
  obtain ⟨m', hmem', hsame⟩ := hm
  simp only [MachineRow.identity, Prod.mk.injEq] at hsame
  obtain rfl : m = m' := Table.eq_of_key_eq hmem hmem' (hid.trans hsame.1.symm)
  exact ⟨hsame.2.1, hsame.2.2.1⟩

theorem register_covers {req : RegisterRequest} {txn : Txn} (hw : (Request.register req).Writes txn)
    (hv : txn.Valid db) (hx : txn.exec env db = .ok (db', v)) :
    ((Request.register req).footprint env db).Covers db db' := by
  cases txn with
  | registerUpdate m q now =>
    obtain ⟨rfl, hhost⟩ := hw
    cases hx
    refine { Footprint.Covers.refl _ db with
      machines := Grows.update (by intro; rfl) fun row hrow hid => ?_ }
    exact ⟨(Db.HasMachine.token hv hrow hid).2.trans hhost, now, rfl⟩
  | registerInsert q token now =>
    obtain rfl : q = req := hw
    obtain ⟨-, rfl, -⟩ := registerInsert_ok hx
    refine { Footprint.Covers.refl _ db with machines := Grows.append fun row hrow => ?_ }
    exact ⟨_, token, now, List.mem_singleton.mp hrow⟩
  | _ => exact hw.elim

theorem heartbeat_covers {auth : Option String} {req : HeartbeatRequest} {machine : MachineRow}
    {now : Int} (htoken : Bears auth machine.agentToken) (hm : db.HasMachine machine)
    (hx : heartbeatTx env machine req now db = .ok (db', v)) :
    ((Request.heartbeat auth req).footprint env db).Covers db db' := by
  obtain ⟨-, rfl⟩ := heartbeatTx_ok hx
  refine { Footprint.Covers.refl _ db with
    machines := Grows.update (by intro; rfl) fun row hrow hid => ?_
    commands := Grows.map fun c _ => ?_ }
  · exact ⟨(hm.token hrow hid).1 ▸ htoken, now, rfl⟩
  · split
    case isTrue hwaits =>
      exact .inr ⟨hwaits.1 ▸ .of_hasMachine hm htoken, hwaits.2, rfl⟩
    case isFalse => exact .inl rfl

theorem rate_covers {auth : Option String} {req : RateRequest} {machine : MachineRow}
    (htoken : Bears auth machine.agentToken) (hm : db.HasMachine machine)
    (hx : rateTx machine req db = .ok (db', v)) :
    ((Request.rate auth req).footprint env db).Covers db db' := by
  cases hx
  refine { Footprint.Covers.refl _ db with
    machines := Grows.update (by intro; rfl) fun row hrow hid => ?_ }
  exact ⟨(hm.token hrow hid).1 ▸ htoken, rfl⟩

theorem payout_covers {auth : Option String} {req : PayoutRequest} {machine : MachineRow}
    {now : Int} (htoken : Bears auth machine.agentToken) (hm : db.HasMachine machine)
    (howed : 0 < machine.payoutBalance) (hx : payoutTx machine now db = .ok (db', v)) :
    ((Request.payout auth req).footprint env db).Covers db db' := by
  cases hx
  refine { Footprint.Covers.refl _ db with
    machines := Grows.update (by intro; rfl) fun row hrow hid => ?_
    ledger := Grows.append fun l hl => ?_ }
  · exact ⟨(hm.token hrow hid).1 ▸ htoken, rfl⟩
  · obtain rfl := List.mem_singleton.mp hl
    exact ⟨rfl, rfl, rfl, Int.neg_neg_of_pos howed, machine.id, rfl, .of_hasMachine hm htoken⟩

theorem deposit_covers {id : String} {req : DepositRequest} {invoice : Invoice} {now : Int}
    (hsats : 0 < req.sats) (hx : depositTx id req invoice now db = .ok (db', v)) :
    ((Request.deposit id req).footprint env db).Covers db db' := by
  obtain ⟨-, hhash, rfl⟩ := depositTx_ok hx
  refine { Footprint.Covers.refl _ db with invoices := Grows.append fun i hi => ?_ }
  obtain rfl := List.mem_singleton.mp hi
  exact ⟨rfl, rfl, hsats, rfl⟩

theorem createRental_covers {req : CreateRentalRequest} {now : Int}
    (hx : createRentalTx env req now db = .ok (db', v)) :
    ((Request.createRental req).footprint env db).Covers db db' := by
  obtain ⟨m, -, -, a, -, -, -, -, -, -, key, -, rfl⟩ := createRentalTx_ok hx
  refine { Footprint.Covers.refl _ db with
    rentals := Grows.append fun r hr => ?_
    commands := Grows.append fun c hc => ?_ }
  · obtain rfl := List.mem_singleton.mp hr
    exact ⟨rfl, rfl, rfl, rfl, rfl⟩
  · obtain rfl := List.mem_singleton.mp hc
    exact ⟨rfl, rfl, _, key, rfl⟩

theorem Db.HasRental.terms {rental r : RentalRow} (hr : db.HasRental rental)
    (hmem : r ∈ db.rentals.rows) (hid : r.id = rental.id) : r.terms = rental.terms := by
  obtain ⟨r', hmem', hsame⟩ := hr
  have hid' : r'.id = rental.id := (congrArg RentalRow.id hsame :)
  obtain rfl : r = r' := Table.eq_of_key_eq hmem hmem' (hid.trans hid'.symm)
  exact hsame

theorem deleteRental_covers {rental : RentalRow} {now : Int} (hr : db.HasRental rental)
    (hx : deleteRentalTx env rental now db = .ok (db', v)) :
    ((Request.deleteRental rental.id).footprint env db).Covers db db' := by
  obtain ⟨-, -, rfl⟩ := deleteRentalTx_ok hx
  refine { Footprint.Covers.refl _ db with
    rentals := Grows.update (by intro; rfl) fun r _ hid => ⟨hid, rfl⟩
    commands := Grows.append fun c hc => ?_ }
  obtain rfl := List.mem_singleton.mp hc
  obtain ⟨row, hrow, hid, hmachine, -⟩ := hr.row
  exact ⟨⟨row, hrow, hid, hmachine⟩, rfl, rfl⟩

theorem Db.charged_updateRental (db : Db) (machineId : Int) (rental : RentalRow) (charge now : Int)
    (id : Int) (f : RentalRow → RentalRow) (hf : ∀ r, (f r).id = r.id) :
    (db.updateRental id f hf).charged machineId rental charge now =
      (db.charged machineId rental charge now).updateRental id f hf := by
  unfold charged
  split <;> rfl

section Report

variable {auth : Option String} {machine : MachineRow} {rental : RentalRow} {req : ReportRequest}
  {now : Int} (htoken : Bears auth machine.agentToken)
  (hv : (Txn.report machine rental req now).Valid db)
include htoken hv

theorem report_row : ∃ row ∈ db.rentals.rows, row.id = req.rentalId ∧
    db.OwnedBy auth row.machineId ∧ row.terms = rental.terms := by
  obtain ⟨hm, ⟨row, hrow, hterms⟩, hid, hmachine⟩ := hv
  obtain ⟨hrowm, -, -, -, -, -, hrowid⟩ := RentalRow.terms_eq_iff.mp hterms
  refine ⟨row, hrow, hrowid.trans hid, ?_, hterms⟩
  rw [hrowm, hmachine]
  exact .of_hasMachine hm htoken

theorem report_covers_rentals {charge : Int}
    (hrows : db'.rentals.rows =
      db.rentals.rows.map ((Txn.report machine rental req now).rewrite charge)) :
    Grows ((Request.report auth req).footprint env db).rental
      ((Request.report auth req).footprint env db).newRental db.rentals.rows db'.rentals.rows := by
  obtain ⟨row, hrow, hrowid, howned, -⟩ := report_row htoken hv
  rw [hrows]
  refine Grows.map fun r hr => ?_
  by_cases hid : r.id = req.rentalId
  · obtain rfl : r = row := Table.eq_of_key_eq hr hrow (hid.trans hrowid.symm)
    refine .inr ⟨hid, howned, Txn.rewrite_terms _ _ _, ?_⟩
    rw [Txn.rewrite_status, Txn.statusOf, if_pos hid]
  · exact .inl (by rw [Txn.rewrite, if_neg hid])

theorem report_covers_machines {charge : Int}
    (hrows : db'.machines.rows =
      db.machines.rows.map ((Txn.report machine rental req now).rewriteMachine env charge)) :
    Grows ((Request.report auth req).footprint env db).machine
      ((Request.report auth req).footprint env db).newMachine
      db.machines.rows db'.machines.rows := by
  rw [hrows]
  refine Grows.map fun m hm => ?_
  by_cases hpay : settles rental req ∧ machine.id = m.id ∧ 0 < charge
  · have hends : req.status.isTerminal = true := (Bool.and_eq_true_iff.mp hpay.1).1
    refine .inr ⟨hends, (hv.1.token hm hpay.2.1.symm).1 ▸ htoken, charge, hpay.2.2, ?_⟩
    rw [Txn.rewriteMachine, Txn.credits, if_pos hpay]
  · exact .inl (by rw [Txn.rewriteMachine, Txn.credits, if_neg hpay, Int.add_zero])

theorem report_covers_accounts {a : AccountRow} (hset : settles rental req = true)
    (ha : a ∈ db.accounts.rows) (haid : a.id = rental.accountId) :
    Grows ((Request.report auth req).footprint env db).account
      ((Request.report auth req).footprint env db).newAccount db.accounts.rows
      (db.charged machine.id rental (chargeOf env rental now a.balanceSats) now).accounts.rows := by
  obtain ⟨row, hrow, hrowid, howned, hterms⟩ := report_row htoken hv
  obtain ⟨-, hrowa, -⟩ := RentalRow.terms_eq_iff.mp hterms
  unfold Db.charged
  split
  case isTrue hpos =>
    refine Grows.update (by intro; rfl) fun a' ha' hid => ?_
    obtain rfl : a' = a := Table.eq_of_key_eq ha' ha (hid.trans haid.symm)
    exact ⟨(Bool.and_eq_true_iff.mp hset).1, ⟨row, hrow, hrowid, howned, hrowa.trans hid.symm⟩,
      _, hpos, min_le_right _ _, rfl⟩
  case isFalse => exact .refl _

theorem report_covers_ledger {charge : Int} (hset : settles rental req = true) :
    Grows (fun _ _ => False) ((Request.report auth req).footprint env db).newEntry db.ledger
      (db.charged machine.id rental charge now).ledger := by
  obtain ⟨row, hrow, hrowid, howned, hterms⟩ := report_row htoken hv
  obtain ⟨hrowm, hrowa, -, -, -, -, hid⟩ := RentalRow.terms_eq_iff.mp hterms
  rw [Db.ledger_charged]
  refine Grows.append fun l hl => ?_
  split at hl
  case isTrue hpos =>
    refine ⟨(Bool.and_eq_true_iff.mp hset).1, row, hrow, hrowid, howned, ?_⟩
    rcases List.mem_pair.mp hl with rfl | rfl
    · exact ⟨congrArg some hid.symm, .inl ⟨rfl, congrArg some hrowa.symm, rfl,
        Int.neg_neg_of_pos hpos⟩⟩
    · exact ⟨congrArg some hid.symm, .inr ⟨rfl, rfl,
        congrArg some (hrowm.trans hv.2.2.2).symm, hpos⟩⟩
  case isFalse => cases hl

theorem report_covers (hx : reportTx env machine rental req now db = .ok (db', v)) :
    ((Request.report auth req).footprint env db).Covers db db' := by
  obtain ⟨charge, hmachines, -⟩ := @report_machines env _ _ _ _ _ _ _ hx
  obtain ⟨charge', hrentals⟩ := report_rentals hv.2.2.1 hx
  have hm := report_covers_machines htoken hv (hmachines.trans (List.append_nil _))
  have hr := @report_covers_rentals env _ _ _ _ _ _ _ htoken hv _
    (hrentals.rows.trans (List.append_nil _))
  obtain ⟨-, rfl⟩ | ⟨hset, a, ha, haid, rfl⟩ := reportTx_ok hx
  · exact { Footprint.Covers.refl _ db with machines := hm, rentals := hr }
  · rw [Db.billed, Db.charged_updateRental] at hm hr ⊢
    refine {
      machines := hm
      accounts := report_covers_accounts htoken hv hset ha haid
      rentals := hr
      invoices := ?_
      ledger := report_covers_ledger htoken hv hset
      commands := ?_ }
    · simp only [Db.updateRental, Db.charged_invoices]
      exact .refl _
    · simp only [Db.updateRental, Db.charged_commands]
      exact .refl _

end Report

theorem Request.Writes.covers {r : Request} {txn : Txn} (hw : r.Writes txn) (hv : txn.Valid db)
    (hx : txn.exec env db = .ok (db', v)) : (r.footprint env db).Covers db db' := by
  cases r with
  | register req => exact register_covers hw hv hx
  | heartbeat auth req =>
    cases txn with
    | heartbeat machine q now =>
      obtain ⟨rfl, htoken⟩ := hw
      exact heartbeat_covers htoken hv hx
    | _ => exact hw.elim
  | report auth req =>
    cases txn with
    | report machine rental q now =>
      obtain ⟨rfl, htoken⟩ := hw
      exact report_covers htoken hv hx
    | _ => exact hw.elim
  | rate auth req =>
    cases txn with
    | rate machine q =>
      obtain ⟨rfl, htoken⟩ := hw
      exact rate_covers htoken hv hx
    | _ => exact hw.elim
  | payout auth req =>
    cases txn with
    | payout machine now => exact payout_covers hw hv.1 hv.2 hx
    | _ => exact hw.elim
  | createAccount =>
    cases txn with
    | createAccount id now =>
      obtain ⟨-, hid, rfl⟩ := createAccountTx_ok hx
      exact { Footprint.Covers.refl _ db with
        accounts := Grows.append fun a ha => List.mem_singleton.mp ha ▸ rfl }
    | _ => exact hw.elim
  | deposit id req =>
    cases txn with
    | deposit id' q invoice now =>
      obtain ⟨rfl, rfl⟩ := hw
      exact deposit_covers hv hx
    | _ => exact hw.elim
  | createRental req =>
    cases txn with
    | createRental q now =>
      obtain rfl : q = req := hw
      exact createRental_covers hx
    | _ => exact hw.elim
  | deleteRental id =>
    cases txn with
    | deleteRental rental now =>
      obtain rfl : rental.id = id := hw
      exact deleteRental_covers hv.1 hx
    | _ => exact hw.elim

theorem Ticker.covers {i : Input} {k : Ticker} {txn : Txn} (hv : txn.Valid db)
    (hn : k.next env i db = .commit txn) (hx : txn.exec env db = .ok (db', v)) :
    (Ticker.footprint env db).Covers db db' := by
  obtain ⟨p, now, rest, rfl, rfl⟩ | ⟨rfl, rfl⟩ | ⟨r, now, rest, rfl, rfl⟩ := next_commit hn
  · obtain ⟨-, rfl⟩ := pollInvoice_ok hx
    obtain ⟨inv, hinv, hopen, hhash, haccount, hsats⟩ := hv
    refine { Footprint.Covers.refl _ db with
      accounts := Grows.update (by intro; rfl) fun a _ hid => ?_
      invoices := Grows.update (by intro; rfl) fun i hi hid => ?_
      ledger := Grows.append fun l hl => ?_ }
    · exact ⟨inv, hinv, hopen, haccount.trans hid.symm, by rw [hsats]⟩
    · obtain rfl : i = inv := Table.eq_of_key_eq hi hinv (hid.trans hhash.symm)
      exact ⟨hopen, rfl⟩
    · obtain rfl := List.mem_singleton.mp hl
      exact ⟨rfl, .inl ⟨inv, hinv, hopen, rfl, congrArg some haccount.symm, rfl, hsats.symm⟩⟩
  · cases hx
    refine { Footprint.Covers.refl _ db with machines := Grows.map fun m _ => ?_ }
    split
    case isTrue hsilent => exact .inr ⟨hsilent.1, rfl⟩
    case isFalse => exact .inl rfl
  · obtain ⟨-, rfl⟩ := evict_ok hx
    obtain ⟨row, hrow, hid, hmachine, haccount, -⟩ := hv.1.row
    refine { Footprint.Covers.refl _ db with
      rentals := Grows.update (by intro; rfl) fun _ _ _ => rfl
      ledger := Grows.append fun l hl => ?_
      commands := Grows.append fun c hc => ?_ }
    · obtain rfl := List.mem_singleton.mp hl
      exact ⟨rfl, .inr ⟨row, hrow, rfl, congrArg some haccount.symm, congrArg some hid.symm, rfl⟩⟩
    · obtain rfl := List.mem_singleton.mp hc
      exact ⟨rfl, row, hrow, hmachine, by rw [hid]; rfl⟩

end Covers

def footprintOf (env : Env) (rs : List Request) (db : Db) : ServerAct → Footprint
  | .request _ => {}
  | .thread n _ => (rs[n]?.map (·.footprint env db)).getD {}
  | .daemon _ => Ticker.footprint env db

theorem step_confined {env : Env} {s : ServerConf} {rs : List Request}
    (hs : (serverContract env).Holds s)
    (hrs : List.Forall₂ (fun r t => t.ActsFor r) rs s.threads) (a : ServerAct) :
    (footprintOf env rs s.store a).Covers s.store ((server env).step s a).store := by
  rcases (server env).step_store s a with ⟨hstore, -⟩ | ⟨txn, v, hc, hx, -⟩
  · rw [hstore]
    exact .refl _ _
  · have hv := hs.valid _ hc
    cases a with
    | request r => cases hc
    | thread n i =>
      obtain ⟨t, ht, -, hn⟩ := (server env).commits_thread hc
      have hn' : n < rs.length := by
        rw [hrs.length_eq]
        exact (List.getElem?_eq_some_iff.mp ht).1
      have hr : rs[n]? = some rs[n] := List.getElem?_eq_getElem hn'
      have hacts : t.ActsFor rs[n] := forall₂_getElem? hrs hr ht
      simp only [footprintOf, hr, Option.map_some, Option.getD_some]
      exact (hacts.writes hn).covers hv hx
    | daemon i =>
      obtain ⟨n, i', t, hact, -⟩ | ⟨i', hact, -, hn⟩ := (server env).commits_cases hc
      · cases hact
      · exact Ticker.covers hv hn hx

/-- Every step of every interleaving changes only what its request, or the ticker, may change. -/
theorem writes_confined (env : Env) (acts : List ServerAct) (a : ServerAct) :
    (footprintOf env (requests acts) (serve env acts).store a).Covers (serve env acts).store
      (serve env (acts ++ [a])).store := by
  have hstep : serve env (acts ++ [a]) = (server env).step (serve env acts) a := run_concat _ _ _
  rw [hstep]
  exact step_confined ((init_holds env).run _ acts)
    ((server_actsFor env).run (server env) rfl acts) a

end GpuMarket
