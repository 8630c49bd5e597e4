import GpuMarket.ControlPlane.Effects

namespace GpuMarket

open Lib

def MachineRow.identity (m : MachineRow) : Int × String × String × Int :=
  (m.id, m.agentToken, m.hostId, m.createdAt)

def RentalRow.terms (r : RentalRow) : RentalRow :=
  .created r.machineId r.accountId r.image r.sshPubkey r.rateSatsPerMin r.createdAt r.id

def InvoiceRow.issued (i : InvoiceRow) : InvoiceRow := { i with settled := false }

def CommandRow.message (c : CommandRow) : CommandRow := { c with delivered := false }

theorem RentalRow.terms_eq_iff {r r' : RentalRow} :
    r.terms = r'.terms ↔ r.machineId = r'.machineId ∧ r.accountId = r'.accountId ∧
      r.image = r'.image ∧ r.sshPubkey = r'.sshPubkey ∧ r.rateSatsPerMin = r'.rateSatsPerMin ∧
      r.createdAt = r'.createdAt ∧ r.id = r'.id := by
  simp only [terms, created, RentalRow.mk.injEq, and_true, true_and]
  tauto

/-- Rows are only ever added, and keep what identifies them. -/
structure Db.Extends (db db' : Db) : Prop where
  machines : db.machines.rows.map (·.identity) <+: db'.machines.rows.map (·.identity)
  accounts : db.accounts.rows.map (·.id) <+: db'.accounts.rows.map (·.id)
  rentals : db.rentals.rows.map (·.terms) <+: db'.rentals.rows.map (·.terms)
  invoices : db.invoices.rows.map (·.issued) <+: db'.invoices.rows.map (·.issued)
  ledger : db.ledger <+: db'.ledger
  commands : db.commands.rows.map (·.message) <+: db'.commands.rows.map (·.message)

namespace Db.Extends

theorem refl (db : Db) : db.Extends db :=
  ⟨List.prefix_rfl, List.prefix_rfl, List.prefix_rfl, List.prefix_rfl, List.prefix_rfl,
    List.prefix_rfl⟩

theorem trans {db db' db'' : Db} (h : db.Extends db') (h' : db'.Extends db'') :
    db.Extends db'' where
  machines := h.machines.trans h'.machines
  accounts := h.accounts.trans h'.accounts
  rentals := h.rentals.trans h'.rentals
  invoices := h.invoices.trans h'.invoices
  ledger := h.ledger.trans h'.ledger
  commands := h.commands.trans h'.commands

section Statements

variable {db db' : Db} (h : db.Extends db')
include h

theorem updateMachine {id : Int} {f : MachineRow → MachineRow} {hf : ∀ m, (f m).id = m.id}
    (hfix : ∀ m, (f m).identity = m.identity) : db.Extends (db'.updateMachine id f hf) :=
  { h with machines := h.machines.trans (Table.prefix_update _ _ hf hfix) }

theorem updateRental {id : Int} {f : RentalRow → RentalRow} {hf : ∀ r, (f r).id = r.id}
    (hfix : ∀ r, (f r).terms = r.terms) : db.Extends (db'.updateRental id f hf) :=
  { h with rentals := h.rentals.trans (Table.prefix_update _ _ hf hfix) }

theorem withBalance {id : String} {delta : Int} : db.Extends (db'.withBalance id delta) :=
  { h with accounts := h.accounts.trans (Table.prefix_update _ _ (by intro; rfl) (by intro; rfl)) }

theorem withCommand {machineId : Int} {payload : String} {now : Int} :
    db.Extends (db'.withCommand machineId payload now) :=
  { h with commands := h.commands.trans (Table.prefix_append _ _ (by intro; rfl) _) }

theorem withRental {machineId : Int} {accountId image key : String} {rate now : Int} :
    db.Extends (db'.withRental machineId accountId image key rate now) :=
  { h with rentals := h.rentals.trans (Table.prefix_append _ _ (by intro; rfl) _) }

theorem settleInvoice {hash : String} : db.Extends (db'.settleInvoice hash) :=
  { h with invoices := h.invoices.trans (Table.prefix_update _ _ (by intro; rfl) (by intro; rfl)) }

theorem record {ts : Int} {kind : LedgerKind} {delta : Int} {accountId : Option String}
    {machineId rentalId : Option Int} {note : Option String} :
    db.Extends (db'.record ts kind delta accountId machineId rentalId note) :=
  { h with ledger := h.ledger.trans (List.prefix_append _ _) }

theorem charged {machineId : Int} {rental : RentalRow} {charge now : Int} :
    db.Extends (db'.charged machineId rental charge now) := by
  unfold Db.charged Db.recordCharge
  split
  · exact record (record (updateMachine (withBalance h) (by intro; rfl)))
  · exact h

theorem billed {machineId : Int} {rental : RentalRow} {charge now : Int} :
    db.Extends (db'.billed machineId rental charge now) :=
  updateRental (charged h) (by intro; rfl)

end Statements

theorem exec {env : Env} {txn : Txn} {db db' : Db} {v : Reply}
    (h : txn.exec env db = .ok (db', v)) : db.Extends db' := by
  have base := refl db
  cases txn with
  | registerUpdate m req now => cases h; exact updateMachine base (by intro; rfl)
  | registerInsert req token now =>
    obtain ⟨-, rfl, -⟩ := registerInsert_ok h
    exact { base with machines := Table.prefix_append _ _ (by intro; rfl) _ }
  | heartbeat machine req now =>
    obtain ⟨-, rfl⟩ := heartbeatTx_ok h
    exact { base with
      machines := Table.prefix_update _ _ (by intro; rfl) (by intro; rfl)
      commands := Table.prefix_mapRows _ (by intro c; split <;> rfl) (by intro c; split <;> rfl) }
  | report machine rental req now =>
    obtain ⟨-, rfl⟩ | ⟨-, a, -, -, rfl⟩ := reportTx_ok h
    · exact updateRental base (by intro; rfl)
    · exact billed (updateRental base (by intro; rfl))
  | rate machine req => cases h; exact updateMachine base (by intro; rfl)
  | payout machine now => cases h; exact record (updateMachine base (by intro; rfl))
  | createAccount id now =>
    obtain ⟨-, hid, rfl⟩ := createAccountTx_ok h
    exact { base with accounts := Table.prefix_insert _ _ hid _ }
  | deposit id req invoice now =>
    obtain ⟨-, hhash, rfl⟩ := depositTx_ok h
    exact { base with invoices := Table.prefix_insert _ _ hhash _ }
  | createRental req now =>
    obtain ⟨m, -, -, a, -, -, -, -, -, -, key, -, rfl⟩ := createRentalTx_ok h
    exact withCommand (withRental base)
  | deleteRental r now =>
    obtain ⟨-, -, rfl⟩ := deleteRentalTx_ok h
    exact withCommand (updateRental base (by intro; rfl))
  | pollInvoice p now =>
    obtain ⟨-, rfl⟩ := pollInvoice_ok h
    exact record (withBalance (settleInvoice base))
  | markOffline now =>
    cases h
    exact { base with machines := Table.prefix_mapRows _ (by intro m; split <;> rfl) (by intro m; split <;> rfl) }
  | evict r now =>
    obtain ⟨-, rfl⟩ := evict_ok h
    exact record (withCommand (updateRental base (by intro; rfl)))

section Rows

variable {db db' : Db}

theorem machine (h : db.Extends db') {m : MachineRow} (hm : m ∈ db.machines.rows) :
    ∃ m' ∈ db'.machines.rows, m'.identity = m.identity :=
  List.mem_map.mp (h.machines.subset (List.mem_map_of_mem hm))

theorem rental (h : db.Extends db') {r : RentalRow} (hr : r ∈ db.rentals.rows) :
    ∃ r' ∈ db'.rentals.rows, r'.terms = r.terms :=
  List.mem_map.mp (h.rentals.subset (List.mem_map_of_mem hr))

theorem hasMachine (h : db.Extends db') {id : Int} (hid : db.machines.Has id) :
    db'.machines.Has id := by
  obtain ⟨m, hm, rfl⟩ := hid
  obtain ⟨m', hm', hsame⟩ := h.machine hm
  exact ⟨m', hm', congrArg Prod.fst hsame⟩

theorem hasRental (h : db.Extends db') {id : Int} (hid : db.rentals.Has id) :
    db'.rentals.Has id := by
  obtain ⟨r, hr, rfl⟩ := hid
  obtain ⟨r', hr', hsame⟩ := h.rental hr
  exact ⟨r', hr', (congrArg RentalRow.id hsame :)⟩

theorem hasInvoice (h : db.Extends db') {hash : String} (hhash : db.invoices.Has hash) :
    db'.invoices.Has hash := by
  obtain ⟨i, hi, rfl⟩ := hhash
  obtain ⟨i', hi', hsame⟩ := List.mem_map.mp (h.invoices.subset (List.mem_map_of_mem hi))
  exact ⟨i', hi', (congrArg InvoiceRow.paymentHash hsame :)⟩

end Rows

end Db.Extends

theorem server_extends (env : Env) (s : ServerConf) (a : ServerAct) :
    s.store.Extends ((server env).step s a).store := by
  obtain ⟨hstore, -⟩ | ⟨txn, v, -, hx, -⟩ := (server env).step_store s a
  · rw [hstore]
    exact .refl _
  · exact .exec hx

theorem serve_extends (env : Env) (acts more : List ServerAct) :
    (serve env acts).store.Extends (serve env (acts ++ more)).store := by
  rw [serve, serve, run_append]
  exact run_invariant (I := fun s : ServerConf => (serve env acts).store.Extends s.store)
    (fun s a h => h.trans (server_extends env s a)) (.refl _) more

end GpuMarket
