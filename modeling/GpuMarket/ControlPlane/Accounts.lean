import GpuMarket.ControlPlane.Contract

namespace GpuMarket

open Lib

/-- What a transaction adds to the balance of an account; a report that settles charges `charge`. -/
def Txn.posts (charge : Int) : Txn → String → Int
  | .report _ rental req _, id =>
    if settles rental req ∧ rental.accountId = id ∧ 0 < charge then -charge else 0
  | .pollInvoice p _, id => if p.accountId = id then p.sats else 0
  | _, _ => 0

def Txn.newAccounts : Txn → List AccountRow
  | .createAccount id now => [{ id, createdAt := now }]
  | _ => []

def AccountRow.post (delta : String → Int) (a : AccountRow) : AccountRow :=
  { a with balanceSats := a.balanceSats + delta a.id }

@[simp] theorem AccountRow.post_id (delta : String → Int) (a : AccountRow) :
    (a.post delta).id = a.id := rfl

@[simp] theorem AccountRow.post_zero : AccountRow.post (fun _ => 0) = fun a => a := by
  funext a
  simp [post]

theorem Db.withBalance_accounts (db : Db) (id : String) (delta : Int) :
    (db.withBalance id delta).accounts.rows =
      db.accounts.rows.map (.post fun id' => if id = id' then delta else 0) := by
  rw [Db.withBalance, Table.rows_update]
  refine List.map_congr_left fun a _ => ?_
  by_cases hid : a.id = id
  · simp [AccountRow.post, hid]
  · simp [AccountRow.post, hid, Ne.symm hid]

theorem Db.charged_accounts (db : Db) (machineId : Int) (rental : RentalRow) (charge now : Int) :
    (db.charged machineId rental charge now).accounts.rows = db.accounts.rows.map
      (.post fun id => if rental.accountId = id ∧ 0 < charge then -charge else 0) := by
  unfold Db.charged
  by_cases hpos : charge > 0
  · rw [if_pos hpos]
    have hpos' : 0 < charge := hpos
    simp only [hpos', and_true]
    exact db.withBalance_accounts rental.accountId (-charge)
  · rw [if_neg hpos]
    have hpos' : ¬0 < charge := hpos
    simp [hpos']

theorem Txn.idle_accounts {txn : Txn} {db : Db} (hposts : txn.posts 0 = fun _ => 0)
    (hnew : txn.newAccounts = []) :
    db.accounts.rows = db.accounts.rows.map (.post (txn.posts 0)) ++ txn.newAccounts := by
  simp [hposts, hnew]

theorem report_accounts {env : Env} {machine : MachineRow} {rental : RentalRow}
    {req : ReportRequest} {now : Int} {db db' : Db} {v : Reply}
    (hx : reportTx env machine rental req now db = .ok (db', v)) :
    ∃ charge, db'.accounts.rows =
      db.accounts.rows.map (.post ((Txn.report machine rental req now).posts charge)) ++
        (Txn.report machine rental req now).newAccounts := by
  obtain ⟨hset, rfl⟩ | ⟨hset, a, -, -, rfl⟩ := reportTx_ok hx
  · refine ⟨0, Txn.idle_accounts ?_ rfl⟩
    funext id
    simp [Txn.posts]
  · have hrows := Db.charged_accounts
      (db.updateRental req.rentalId (req.apply machine now) (req.apply_id machine now)) machine.id
      rental (chargeOf env rental now a.balanceSats) now
    have hposts : (Txn.report machine rental req now).posts
        (chargeOf env rental now a.balanceSats) = fun id =>
          if rental.accountId = id ∧ 0 < chargeOf env rental now a.balanceSats then
            -chargeOf env rental now a.balanceSats else 0 := by
      funext id
      simp [Txn.posts, hset]
    refine ⟨chargeOf env rental now a.balanceSats, hrows.trans ?_⟩
    rw [hposts]
    exact (List.append_nil _).symm

theorem exec_accounts {env : Env} {txn : Txn} {db db' : Db} {v : Reply}
    (hx : txn.exec env db = .ok (db', v)) :
    ∃ charge, db'.accounts.rows =
      db.accounts.rows.map (.post (txn.posts charge)) ++ txn.newAccounts := by
  cases txn with
  | registerUpdate m req now => cases hx; exact ⟨0, Txn.idle_accounts rfl rfl⟩
  | registerInsert req token now =>
    obtain ⟨-, rfl, -⟩ := registerInsert_ok hx
    exact ⟨0, Txn.idle_accounts rfl rfl⟩
  | heartbeat machine req now =>
    obtain ⟨-, rfl⟩ := heartbeatTx_ok hx
    exact ⟨0, Txn.idle_accounts rfl rfl⟩
  | report machine rental req now =>
    exact report_accounts hx
  | rate machine req => cases hx; exact ⟨0, Txn.idle_accounts rfl rfl⟩
  | payout machine now => cases hx; exact ⟨0, Txn.idle_accounts rfl rfl⟩
  | createAccount id now =>
    obtain ⟨-, hid, rfl⟩ := createAccountTx_ok hx
    refine ⟨0, ?_⟩
    have hposts : (Txn.createAccount id now).posts 0 = fun _ => 0 := rfl
    simp [hposts, Txn.newAccounts]
  | deposit id req invoice now =>
    obtain ⟨-, hhash, rfl⟩ := depositTx_ok hx
    exact ⟨0, Txn.idle_accounts rfl rfl⟩
  | createRental req now =>
    obtain ⟨m, -, -, a, -, -, -, -, -, -, key, -, rfl⟩ := createRentalTx_ok hx
    exact ⟨0, Txn.idle_accounts rfl rfl⟩
  | deleteRental r now =>
    obtain ⟨-, -, rfl⟩ := deleteRentalTx_ok hx
    exact ⟨0, Txn.idle_accounts rfl rfl⟩
  | pollInvoice p now =>
    obtain ⟨-, rfl⟩ := pollInvoice_ok hx
    have hrows := (db.settleInvoice p.paymentHash).withBalance_accounts p.accountId p.sats
    exact ⟨0, hrows.trans (List.append_nil _).symm⟩
  | markOffline now => cases hx; exact ⟨0, Txn.idle_accounts rfl rfl⟩
  | evict r now =>
    obtain ⟨-, rfl⟩ := evict_ok hx
    exact ⟨0, Txn.idle_accounts rfl rfl⟩

theorem exec_balance_le {env : Env} {txn : Txn} {db db' : Db} {v : Reply}
    (hx : txn.exec env db = .ok (db', v)) (hne : ∀ p now, txn ≠ .pollInvoice p now)
    {a : AccountRow} (ha : a ∈ db.accounts.rows) :
    ∃ a' ∈ db'.accounts.rows, a'.id = a.id ∧ a'.balanceSats ≤ a.balanceSats := by
  obtain ⟨charge, hrows⟩ := exec_accounts hx
  refine ⟨a.post (txn.posts charge),
    hrows ▸ List.mem_append_left _ (List.mem_map_of_mem ha), rfl, ?_⟩
  have hposts : txn.posts charge a.id ≤ 0 := by
    cases txn with
    | report machine rental req now =>
      simp only [Txn.posts]
      split <;> omega
    | pollInvoice p now => exact absurd rfl (hne p now)
    | _ => exact le_refl 0
  simp only [AccountRow.post]
  omega

end GpuMarket
