import GpuMarket.Lib.Journal
import GpuMarket.ControlPlane.Contract

namespace GpuMarket

open Lib

/-- Whose money a row of each kind moves. -/
def LedgerRow.Sound (l : LedgerRow) : Prop :=
  match l.kind with
  | .deposit | .rentalCharge => l.accountId.isSome ∧ l.machineId = none
  | .hostCredit | .payout => l.accountId = none ∧ l.machineId.isSome
  | .evict => l.deltaSats = 0

def deposits (ledger : List LedgerRow) : List (Option String × Int) :=
  (ledger.filter (·.kind = .deposit)).map fun l => (l.accountId, l.deltaSats)

def settlements (invoices : List InvoiceRow) : List (Option String × Int) :=
  (invoices.filter (·.settled)).map fun i => (some i.accountId, i.sats)

theorem deposits_concat (ledger : List LedgerRow) (l : LedgerRow) :
    deposits (ledger ++ [l]) =
      deposits ledger ++ if l.kind = .deposit then [(l.accountId, l.deltaSats)] else [] := by
  by_cases h : l.kind = .deposit <;> simp [deposits, h]

/-- Every balance is the sum of its account's ledger rows, and the deposit rows are the settled
invoices. -/
structure Db.Books (db : Db) : Prop where
  accounts : Tallies db.accounts (·.balanceSats) (·.accountId) (·.deltaSats) db.ledger
  sound : ∀ l ∈ db.ledger, l.Sound
  deposits : (deposits db.ledger).Perm (settlements db.invoices.rows)

namespace Db.Books

theorem empty : Db.empty.Books := ⟨Tallies.empty, by simp [Db.empty], List.Perm.refl _⟩

variable {db db' : Db} (h : db.Books)
include h

theorem same (ha : db'.accounts = db.accounts) (hi : db'.invoices = db.invoices)
    (hl : db'.ledger = db.ledger) : db'.Books := by
  obtain ⟨accounts, sound, deposits⟩ := h
  exact ⟨by rwa [ha, hl], by rwa [hl], by rwa [hl, hi]⟩

theorem record_idle {ts : Int} {kind : LedgerKind} {delta : Int} {accountId : Option String}
    {machineId rentalId : Option Int} {note : Option String}
    (hidle : accountId = none ∨ delta = 0) (hkind : kind ≠ .deposit)
    (hsound : (⟨ts, accountId, machineId, rentalId, delta, kind, note⟩ : LedgerRow).Sound) :
    (db.record ts kind delta accountId machineId rentalId note).Books where
  accounts := h.accounts.concat_of_idle hidle
  sound l hl := by
    rcases Db.mem_record.mp hl with hl | rfl
    · exact h.sound l hl
    · exact hsound
  deposits := by
    simp only [Db.record, deposits_concat, hkind, if_false, List.append_nil]
    exact h.deposits

theorem post {ts : Int} {kind : LedgerKind} {delta : Int} {accountId : String}
    {rentalId : Option Int} {note : Option String} (hkind : kind ≠ .deposit)
    (hsound : (⟨ts, some accountId, none, rentalId, delta, kind, note⟩ : LedgerRow).Sound) :
    ((db.withBalance accountId delta).record ts kind delta (some accountId) none rentalId
      note).Books where
  accounts := h.accounts.post (by intro; rfl) rfl (by intros; rfl)
  sound l hl := by
    rcases Db.mem_record.mp hl with hl | rfl
    · exact h.sound l hl
    · exact hsound
  deposits := by
    simp only [Db.record, deposits_concat, hkind, if_false, List.append_nil]
    exact h.deposits

theorem charged {machineId : Int} {rental : RentalRow} {charge now : Int} :
    (db.charged machineId rental charge now).Books := by
  unfold Db.charged Db.recordCharge
  split
  · refine record_idle ?_ (.inl rfl) (by simp) ⟨rfl, rfl⟩
    have debit : ((db.withBalance rental.accountId (-charge)).record now .rentalCharge (-charge)
      (some rental.accountId) none (some rental.id) none).Books := h.post (by simp) ⟨rfl, rfl⟩
    exact debit.same rfl rfl rfl
  · exact h

theorem credit {p : PendingInvoice} {now : Int} (hp : db.Awaits p) :
    (((db.settleInvoice p.paymentHash).withBalance p.accountId p.sats).record now .deposit p.sats
      (some p.accountId) none none (some "deposit")).Books where
  accounts := h.accounts.post (by intro; rfl) rfl (by intros; rfl)
  sound l hl := by
    rcases Db.mem_record.mp hl with hl | rfl
    · exact h.sound l hl
    · exact ⟨rfl, rfl⟩
  deposits := by
    obtain ⟨i, hi, hset, hhash, haccount, hsats⟩ := hp
    obtain ⟨pre, post, hrows, hupd⟩ := Table.exists_split hi
    have before : settlements db.invoices.rows = settlements pre ++ settlements post := by
      simp [settlements, hrows, hset]
    have after : settlements (db.settleInvoice p.paymentHash).invoices.rows =
        settlements pre ++ (some p.accountId, p.sats) :: settlements post := by
      rw [← hhash, Db.settleInvoice, hupd]
      simp [settlements, haccount, hsats]
    change (GpuMarket.deposits (db.ledger ++ [_])).Perm
      (settlements (db.settleInvoice p.paymentHash).invoices.rows)
    rw [after, deposits_concat]
    refine List.Perm.trans ?_ List.perm_middle.symm
    refine List.perm_append_comm.trans (List.Perm.cons _ ?_)
    rw [← before]
    exact h.deposits

theorem exec (hwf : db.Wf) {env : Env} {txn : Txn} {v : Reply} (hv : txn.Valid db)
    (hx : txn.exec env db = .ok (db', v)) : db'.Books := by
  cases txn with
  | registerUpdate m req now => cases hx; exact h.same rfl rfl rfl
  | registerInsert req token now =>
    obtain ⟨-, rfl, -⟩ := registerInsert_ok hx
    exact h.same rfl rfl rfl
  | heartbeat machine req now =>
    obtain ⟨-, rfl⟩ := heartbeatTx_ok hx
    exact h.same rfl rfl rfl
  | report machine rental req now =>
    obtain ⟨-, rfl⟩ | ⟨-, a, -, -, rfl⟩ := reportTx_ok hx
    · exact h.same rfl rfl rfl
    · have write : (db.updateRental req.rentalId (req.apply machine now)
        (req.apply_id machine now)).Books := h.same rfl rfl rfl
      exact (charged write).same rfl rfl rfl
  | rate machine req => cases hx; exact h.same rfl rfl rfl
  | payout machine now =>
    cases hx
    have reset : (db.updateMachine machine.id (fun m => { m with payoutBalance := 0 })
      fun _ => rfl).Books := h.same rfl rfl rfl
    exact reset.record_idle (.inl rfl) (by simp) ⟨rfl, rfl⟩
  | createAccount id now =>
    obtain ⟨-, hid, rfl⟩ := createAccountTx_ok hx
    refine ⟨h.accounts.insert hid rfl fun l hl howner => ?_, h.sound, h.deposits⟩
    exact hid (hwf.ledger_account l hl id howner)
  | deposit id req invoice now =>
    obtain ⟨-, hhash, rfl⟩ := depositTx_ok hx
    refine ⟨h.accounts, h.sound, ?_⟩
    simpa [settlements] using h.deposits
  | createRental req now =>
    obtain ⟨m, -, -, a, -, -, -, -, -, -, key, -, rfl⟩ := createRentalTx_ok hx
    exact h.same rfl rfl rfl
  | deleteRental r now =>
    obtain ⟨-, -, rfl⟩ := deleteRentalTx_ok hx
    exact h.same rfl rfl rfl
  | pollInvoice p now =>
    obtain ⟨-, rfl⟩ := pollInvoice_ok hx
    exact h.credit hv
  | markOffline now => cases hx; exact h.same rfl rfl rfl
  | evict r now =>
    obtain ⟨-, rfl⟩ := evict_ok hx
    have mark : (db.updateRental r.id
      (fun r => { r with status := .evicting, error := some "insufficient balance" })
        fun _ => rfl).Books := h.same rfl rfl rfl
    have queue : ((db.updateRental r.id
      (fun r => { r with status := .evicting, error := some "insufficient balance" })
        fun _ => rfl).withCommand r.machineId (env.serde.toString (.stopRental r.id)) now).Books :=
      mark.same rfl rfl rfl
    exact queue.record_idle (.inr rfl) (by simp) rfl

end Db.Books

theorem serve_books (env : Env) (acts : List ServerAct) :
    (serve env acts).store.Wf ∧ (serve env acts).store.Books :=
  ⟨((init_holds env).run _ acts).inv,
    (serverContract env).run_preserves (J := fun db _ => db.Books)
      (fun hwf hv hx h => h.exec hwf hv hx) (init_holds env) Db.Books.empty acts⟩

def settledSats (db : Db) (account : String) : Int :=
  ((db.invoices.rows.filter fun i => i.accountId = account ∧ i.settled).map (·.sats)).sum

def debitedSats (db : Db) (account : String) : Int :=
  ((db.ledger.filter fun l => l.accountId = some account ∧ l.kind = .rentalCharge).map
    (-·.deltaSats)).sum

theorem settledSats_eq (db : Db) (account : String) :
    settledSats db account =
      (((settlements db.invoices.rows).filter (·.1 = some account)).map (·.2)).sum := by
  simp only [settledSats, settlements, List.filter_map, List.map_map, List.filter_filter]
  congr 1
  simp [Function.comp_def]

theorem total_eq_deposits_sub {ledger : List LedgerRow} (h : ∀ l ∈ ledger, l.Sound)
    (account : String) :
    total (·.accountId) (·.deltaSats) account ledger =
      (((deposits ledger).filter (·.1 = some account)).map (·.2)).sum -
        ((ledger.filter fun l => l.accountId = some account ∧ l.kind = .rentalCharge).map
          (-·.deltaSats)).sum := by
  induction ledger with
  | nil => rfl
  | cons l ledger ih =>
    have hl := h l (by simp)
    rw [total_cons, ih fun l hl => h l (List.mem_cons_of_mem _ hl)]
    by_cases howner : l.accountId = some account
    · cases hkind : l.kind <;> simp [LedgerRow.Sound, hkind, howner] at hl <;>
        simp [deposits, hkind, howner, hl] <;> omega
    · cases hkind : l.kind <;> simp [deposits, hkind, howner]

theorem Db.Books.balance_eq {db : Db} (h : db.Books) {a : AccountRow}
    (ha : a ∈ db.accounts.rows) : a.balanceSats = settledSats db a.id - debitedSats db a.id := by
  have htotal : a.balanceSats = total (·.accountId) (·.deltaSats) a.id db.ledger :=
    h.accounts a ha
  rw [htotal, total_eq_deposits_sub h.sound, settledSats_eq, debitedSats]
  congr 1
  exact ((h.deposits.filter _).map _).sum_eq

/-- Whatever the interleaving, a balance is never negative, is the sum of the account's ledger
rows, and is what the account's settled invoices paid in less what its rentals were charged; and
the deposit rows are the settled invoices, one each. -/
theorem balance_conserved (env : Env) (acts : List ServerAct) :
    let db := (serve env acts).store
    (∀ a ∈ db.accounts.rows, 0 ≤ a.balanceSats ∧
      a.balanceSats = total (·.accountId) (·.deltaSats) a.id db.ledger ∧
      a.balanceSats = settledSats db a.id - debitedSats db a.id) ∧
    (deposits db.ledger).Perm (settlements db.invoices.rows) := by
  intro db
  obtain ⟨hwf, hbooks⟩ := serve_books env acts
  refine ⟨fun a ha => ⟨hwf.balance a ha, hbooks.accounts a ha, ?_⟩, hbooks.deposits⟩
  exact hbooks.balance_eq ha

end GpuMarket
