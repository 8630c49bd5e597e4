import GpuMarket.ControlPlane.Ledger

namespace GpuMarket

open Lib

def kindTotal (kind : LedgerKind) (ledger : List LedgerRow) : Int :=
  total (fun l : LedgerRow => some l.kind) (·.deltaSats) kind ledger

theorem kindTotal_append (kind : LedgerKind) (ledger ledger' : List LedgerRow) :
    kindTotal kind (ledger ++ ledger') = kindTotal kind ledger + kindTotal kind ledger' :=
  total_append ..

theorem kindTotal_cons (kind : LedgerKind) (l : LedgerRow) (ledger : List LedgerRow) :
    kindTotal kind (l :: ledger) =
      (if l.kind = kind then l.deltaSats else 0) + kindTotal kind ledger := by
  simp [kindTotal, total_cons]

@[simp] theorem kindTotal_nil (kind : LedgerKind) : kindTotal kind [] = 0 := rfl

theorem sum_eq_kindTotal (ledger : List LedgerRow) :
    (ledger.map (·.deltaSats)).sum =
      kindTotal .deposit ledger + (kindTotal .rentalCharge ledger + kindTotal .hostCredit ledger) +
        kindTotal .payout ledger + kindTotal .evict ledger := by
  induction ledger with
  | nil => rfl
  | cons l ledger ih =>
    rw [List.map_cons, List.sum_cons, ih]
    simp only [kindTotal_cons]
    cases l.kind <;> simp <;> omega

theorem kindTotal_evict {ledger : List LedgerRow} (h : ∀ l ∈ ledger, l.Sound) :
    kindTotal .evict ledger = 0 := by
  induction ledger with
  | nil => rfl
  | cons l ledger ih =>
    rw [kindTotal_cons, ih fun l hl => h l (List.mem_cons_of_mem _ hl)]
    split
    case isTrue hkind =>
      have hl := h l (List.mem_cons_self ..)
      simp only [LedgerRow.Sound, hkind] at hl
      omega
    case isFalse => rfl

def settledTotal (db : Db) : Int := ((db.invoices.rows.filter (·.settled)).map (·.sats)).sum

theorem settledTotal_eq {db : Db} (h : db.Books) : settledTotal db = kindTotal .deposit db.ledger := by
  have paid : settledTotal db = ((settlements db.invoices.rows).map (·.2)).sum := by
    simp [settledTotal, settlements, Function.comp_def]
  have rows : ((deposits db.ledger).map (·.2)).sum = kindTotal .deposit db.ledger := by
    simp [deposits, kindTotal, total, Function.comp_def]
  rw [paid, ← rows]
  exact (h.deposits.map _).sum_eq.symm

/-- The ledger rows that a transaction writes, where `charge` is what a settling report bills. -/
def Txn.entries (charge : Int) : Txn → List LedgerRow
  | .report machine rental _ now =>
    if 0 < charge then Db.chargeRows machine.id rental charge now else []
  | .payout machine now =>
    [⟨now, none, some machine.id, none, -machine.payoutBalance, .payout, some "payout"⟩]
  | .pollInvoice p now => [⟨now, some p.accountId, none, none, p.sats, .deposit, some "deposit"⟩]
  | .evict r now =>
    [⟨now, some r.accountId, none, some r.id, 0, .evict, some "insufficient balance"⟩]
  | _ => []

theorem exec_ledger {env : Env} {txn : Txn} {db db' : Db} {v : Reply}
    (hx : txn.exec env db = .ok (db', v)) :
    ∃ charge, db'.ledger = db.ledger ++ txn.entries charge := by
  cases txn with
  | registerUpdate m req now => cases hx; exact ⟨0, (List.append_nil _).symm⟩
  | registerInsert req token now =>
    obtain ⟨-, rfl, -⟩ := registerInsert_ok hx
    exact ⟨0, (List.append_nil _).symm⟩
  | heartbeat machine req now =>
    obtain ⟨-, rfl⟩ := heartbeatTx_ok hx
    exact ⟨0, (List.append_nil _).symm⟩
  | report machine rental req now =>
    obtain ⟨-, rfl⟩ | ⟨-, a, -, -, rfl⟩ := reportTx_ok hx
    · exact ⟨0, (List.append_nil _).symm⟩
    · exact ⟨chargeOf env rental now a.balanceSats, Db.ledger_charged ..⟩
  | rate machine req => cases hx; exact ⟨0, (List.append_nil _).symm⟩
  | payout machine now => cases hx; exact ⟨0, rfl⟩
  | createAccount id now =>
    obtain ⟨-, hid, rfl⟩ := createAccountTx_ok hx
    exact ⟨0, (List.append_nil _).symm⟩
  | deposit id req invoice now =>
    obtain ⟨-, hhash, rfl⟩ := depositTx_ok hx
    exact ⟨0, (List.append_nil _).symm⟩
  | createRental req now =>
    obtain ⟨m, -, -, a, -, -, -, -, -, -, key, -, rfl⟩ := createRentalTx_ok hx
    exact ⟨0, (List.append_nil _).symm⟩
  | deleteRental r now =>
    obtain ⟨-, -, rfl⟩ := deleteRentalTx_ok hx
    exact ⟨0, (List.append_nil _).symm⟩
  | pollInvoice p now =>
    obtain ⟨-, rfl⟩ := pollInvoice_ok hx
    exact ⟨0, rfl⟩
  | markOffline now => cases hx; exact ⟨0, (List.append_nil _).symm⟩
  | evict r now =>
    obtain ⟨-, rfl⟩ := evict_ok hx
    exact ⟨0, rfl⟩

def Db.Matched (db : Db) : Prop :=
  kindTotal .rentalCharge db.ledger + kindTotal .hostCredit db.ledger = 0

theorem Txn.entries_matched (charge : Int) (txn : Txn) :
    kindTotal .rentalCharge (txn.entries charge) + kindTotal .hostCredit (txn.entries charge) = 0 := by
  cases txn with
  | report machine rental req now =>
    simp only [entries]
    split <;> simp [Db.chargeRows, kindTotal_cons]
  | _ => simp [entries, kindTotal_cons]

theorem Db.Matched.exec {env : Env} {txn : Txn} {db db' : Db} {v : Reply} (h : db.Matched)
    (hx : txn.exec env db = .ok (db', v)) : db'.Matched := by
  obtain ⟨charge, hledger⟩ := exec_ledger hx
  have hrows := txn.entries_matched charge
  unfold Db.Matched at h ⊢
  rw [hledger, kindTotal_append, kindTotal_append]
  omega

def paidOut (db : Db) : Int := -kindTotal .payout db.ledger

structure Db.Reconciles (db : Db) : Prop where
  wf : db.Wf
  books : db.Books
  owes : db.Owes
  matched : db.Matched

namespace Db.Reconciles

theorem empty : Db.empty.Reconciles := ⟨Db.Wf.empty, Db.Books.empty, Db.Owes.empty, rfl⟩

theorem exec {env : Env} {txn : Txn} {db db' : Db} {v : Reply} (h : db.Reconciles)
    (hf : txn.Fresh db) (hx : txn.exec env db = .ok (db', v)) : db'.Reconciles where
  wf := h.wf.exec hf.valid hx
  books := h.books.exec h.wf hf.valid hx
  owes := h.owes.exec h.wf hf hx
  matched := h.matched.exec hx

theorem step {env : Env} {db : Db} (h : db.Reconciles) (op : Op) : (op.step env db).Reconciles :=
  Op.preserves (J := Db.Reconciles) (fun hf hx h => h.exec hf hx) h op

theorem settledTotal_eq {db : Db} (h : db.Reconciles) :
    settledTotal db =
      db.accounts.sum (·.balanceSats) + db.machines.sum (·.payoutBalance) + paidOut db := by
  have hsum := ledger_sum h.wf h.books h.owes
  have hmatched : kindTotal .rentalCharge db.ledger + kindTotal .hostCredit db.ledger = 0 := h.matched
  rw [sum_eq_kindTotal, kindTotal_evict h.books.sound, hmatched] at hsum
  rw [GpuMarket.settledTotal_eq h.books, paidOut]
  omega

theorem paidOut_le {db : Db} (h : db.Reconciles) : paidOut db ≤ settledTotal db := by
  have haccounts := db.accounts.sum_nonneg (g := (·.balanceSats)) h.wf.balance
  have hmachines := db.machines.sum_nonneg (g := (·.payoutBalance)) h.owes.nonneg
  rw [h.settledTotal_eq]
  omega

end Db.Reconciles

def Txn.paysOut : Txn → Int
  | .payout machine _ => machine.payoutBalance
  | _ => 0

theorem exec_paidOut {env : Env} {txn : Txn} {db db' : Db} {v : Reply}
    (hx : txn.exec env db = .ok (db', v)) : paidOut db' = paidOut db + txn.paysOut := by
  obtain ⟨charge, hledger⟩ := exec_ledger hx
  have hrows : kindTotal .payout (txn.entries charge) = -txn.paysOut := by
    cases txn with
    | report machine rental req now =>
      simp only [Txn.entries]
      split <;> simp [Db.chargeRows, kindTotal_cons, Txn.paysOut]
    | _ => simp [Txn.entries, kindTotal_cons, Txn.paysOut]
  rw [paidOut, paidOut, hledger, kindTotal_append, hrows]
  omega

/-- The machine whose balance a payout is for, once `pay_invoice` is called. -/
def payee (auth : Option String) (db : Db) : Except ApiError MachineRow := do
  let machine ← authenticate db auth
  checkOwed machine
  return machine

theorem payout_eq (auth : Option String) (paid : Bool) (now : Int) (db : Db) :
    payout auth paid now db = payee auth db >>= fun machine =>
      if paid then payoutTx machine now db else .error ⟨.badGateway, .payoutFailed⟩ := by
  simp only [payout, payee, bind_assoc, pure_bind]

theorem payout_ok {auth : Option String} {paid : Bool} {now : Int} {db : Db} {r : Db × Reply} :
    payout auth paid now db = .ok r ↔
      ∃ machine, payee auth db = .ok machine ∧ paid = true ∧ payoutTx machine now db = .ok r := by
  rw [payout_eq, bind_eq_ok]
  refine exists_congr fun machine => and_congr_right fun _ => ?_
  cases paid with
  | false => simp
  | true => simp

def Op.isPayout : Op → Bool
  | .payout .. => true
  | _ => false

theorem Op.Runs.paysOut {op : Op} {db : Db} {txn : Txn} (h : op.Runs db txn)
    (hop : op.isPayout = false) : txn.paysOut = 0 := by
  cases txn with
  | payout machine now =>
    obtain ⟨-, h⟩ := h
    cases op with
    | payout => cases hop
    | _ => simp at h
  | _ => rfl

section Payments

variable (amount : String → Nat)

/-- The sats that an operation has `pay_invoice` send, where `amount` is what an invoice encodes. -/
def Op.sent (db : Db) : Op → Int
  | .payout auth req paid _ =>
    match payee auth db with
    | .ok _ => if paid then amount req.bolt11 else 0
    | .error _ => 0
  | _ => 0

def Op.pay (env : Env) (s : Db × Int) (op : Op) : Db × Int :=
  (op.step env s.1, s.2 + op.sent amount s.1)

/-- No more has been sent than deposited. -/
def Solvent (s : Db × Int) : Prop := s.2 ≤ settledTotal s.1

def PaysRecorded (s : Db × Int) (op : Op) : Prop :=
  match op with
  | .payout auth _ paid now =>
    ∀ db' v, payout auth paid now s.1 = .ok (db', v) →
      v = .paid (op.sent amount s.1) ∧
      ∃ row, db'.ledger = s.1.ledger ++ [row] ∧ row.kind = .payout ∧
        row.deltaSats = -op.sent amount s.1
  | _ => True

/-- An invoice that is paid encodes what its host is owed. -/
def PaysOwed (s : Db × Int) (op : Op) : Prop :=
  match op with
  | .payout auth req paid _ =>
    ∀ machine, payee auth s.1 = .ok machine → paid = true →
      (amount req.bolt11 : Int) = machine.payoutBalance
  | _ => True

variable {amount}

theorem Op.sent_payout {db : Db} {auth : Option String} {req : PayoutRequest} {now : Int}
    {machine : MachineRow} (h : payee auth db = .ok machine) :
    (Op.payout auth req true now).sent amount db = amount req.bolt11 := by
  simp [sent, h]

theorem paysRecorded_iff (s : Db × Int) (op : Op) :
    PaysRecorded amount s op ↔ PaysOwed amount s op := by
  cases op with
  | payout auth req paid now =>
    constructor
    · intro h machine hm hpaid
      subst hpaid
      obtain ⟨hv, -⟩ := h _ _ (payout_ok.mpr ⟨machine, hm, rfl, rfl⟩)
      rw [Op.sent_payout hm] at hv
      injection hv with hv
      exact hv.symm
    · intro h db' v hx
      obtain ⟨machine, hm, hpaid, htx⟩ := payout_ok.mp hx
      subst hpaid
      rw [Op.sent_payout hm, h machine hm rfl]
      cases htx
      exact ⟨rfl, _, rfl, rfl, rfl⟩
  | _ => exact Iff.rfl

theorem Op.sent_of_error {db : Db} {auth : Option String} {req : PayoutRequest} {paid : Bool}
    {now : Int} {e : ApiError} (h : GpuMarket.payout auth paid now db = .error e) :
    (Op.payout auth req paid now).sent amount db = 0 := by
  simp only [sent]
  cases hm : payee auth db with
  | error e => rfl
  | ok machine =>
    refine if_neg fun hpaid => ?_
    have hok : GpuMarket.payout auth paid now db = _ := payout_ok.mpr ⟨machine, hm, hpaid, rfl⟩
    rw [h] at hok
    cases hok

/-- Where invoices encode what is owed, the ledger says what has been sent. -/
theorem Op.paidOut_step {env : Env} {s : Db × Int} (op : Op) (h : PaysOwed amount s op) :
    paidOut (op.step env s.1) = paidOut s.1 + op.sent amount s.1 := by
  have silent : op.isPayout = false → paidOut (op.step env s.1) = paidOut s.1 + 0 := by
    intro hop
    refine (op.evolves env s.1).preserves (J := fun db => paidOut db = paidOut s.1 + 0)
      (fun hK hx hsame => ?_) (Int.add_zero _).symm
    rw [exec_paidOut hx, hK.paysOut hop, hsame, Int.add_zero]
  cases op with
  | payout auth req paid now =>
    simp only [step]
    cases hx : GpuMarket.payout auth paid now s.1 with
    | ok r =>
      obtain ⟨machine, hm, hpaid, htx⟩ := payout_ok.mp hx
      have hpays := @exec_paidOut env (.payout machine now) s.1 r.1 r.2 htx
      subst hpaid
      rw [Op.sent_payout hm, h machine hm rfl]
      exact hpays
    | error e =>
      rw [Op.sent_of_error hx]
      exact (Int.add_zero _).symm
  | _ => exact silent rfl

end Payments

section Runs

variable {amount : String → Nat} {env : Env}

/-- The books are in order, and the ledger says what has been sent. -/
def Covered (s : Db × Int) : Prop := s.1.Reconciles ∧ s.2 = paidOut s.1

theorem Covered.solvent {s : Db × Int} (h : Covered s) : Solvent s := by
  have hle := h.1.paidOut_le
  rw [← h.2] at hle
  exact hle

theorem Covered.pay {s : Db × Int} {op : Op} (h : Covered s) (howed : PaysOwed amount s op) :
    Covered (Op.pay amount env s op) := by
  refine ⟨h.1.step op, ?_⟩
  change s.2 + op.sent amount s.1 = paidOut (op.step env s.1)
  rw [op.paidOut_step howed, h.2]

end Runs

/-- Operations run one at a time never send more than was deposited, and every payout records and
returns what it sends, exactly as long as every invoice that is paid encodes what its host is
owed. -/
theorem solvent_iff (amount : String → Nat) (env : Env) (ops : List Op) :
    Always (Op.pay amount env) Solvent (.empty, 0) ops ∧
        Along (Op.pay amount env) (PaysRecorded amount) (.empty, 0) ops ↔
      Along (Op.pay amount env) (PaysOwed amount) (.empty, 0) ops := by
  have recorded : Along (Op.pay amount env) (PaysRecorded amount) (.empty, 0) ops ↔
      Along (Op.pay amount env) (PaysOwed amount) (.empty, 0) ops :=
    forall₃_congr fun pre op _ => paysRecorded_iff _ op
  have start : Covered (.empty, 0) := ⟨Db.Reconciles.empty, rfl⟩
  constructor
  · intro h
    exact recorded.mp h.2
  · intro h
    exact ⟨always_of_along (I := Covered) (fun _ hs => hs.solvent)
      (fun _ _ hs howed => hs.pay howed) start h, recorded.mpr h⟩

/-- The host is owed 10 sats and hands in an invoice for a thousand. -/
def inflatedInvoice : List Op :=
  [.register testHost "agt_1" 0, .createAccount "acct_1" 0,
    .deposit "acct_1" ⟨100⟩ (some ⟨"lnbc1", "01"⟩) 0,
    .pollInvoices (fun _ => some true) fun _ => 0,
    .createRental ⟨1, "acct_1", "nvidia/cuda:latest", some "ssh-ed25519 AAAA"⟩ 0,
    .report bearer { rentalId := 1, status := .stopped } 60,
    .payout bearer ⟨"lnbc10u"⟩ true 60]

/-- `u` is a millionth of a bitcoin, a hundred sats. -/
def inflatedAmount (bolt11 : String) : Nat := if bolt11 = "lnbc10u" then 1000 else 0

theorem inflatedInvoice_insolvent :
    ¬(Always (Op.pay inflatedAmount testEnv) Solvent (.empty, 0) inflatedInvoice ∧
      Along (Op.pay inflatedAmount testEnv) (PaysRecorded inflatedAmount) (.empty, 0)
        inflatedInvoice) ∧
    (run (Op.pay inflatedAmount testEnv) (.empty, 0) inflatedInvoice).2 = 1000 ∧
    settledTotal (run (Op.pay inflatedAmount testEnv) (.empty, 0) inflatedInvoice).1 = 100 ∧
    paidOut (run (Op.pay inflatedAmount testEnv) (.empty, 0) inflatedInvoice).1 = 10 := by
  have final : (run (Op.pay inflatedAmount testEnv) (.empty, 0) inflatedInvoice).2 = 1000 ∧
      settledTotal (run (Op.pay inflatedAmount testEnv) (.empty, 0) inflatedInvoice).1 = 100 ∧
      paidOut (run (Op.pay inflatedAmount testEnv) (.empty, 0) inflatedInvoice).1 = 10 := by
    decide +kernel
  refine ⟨fun h => ?_, final⟩
  have hsolvent := h.1 inflatedInvoice (List.prefix_refl _)
  rw [Solvent, final.1, final.2.1] at hsolvent
  exact absurd hsolvent (by decide)

end GpuMarket
