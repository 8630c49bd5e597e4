import GpuMarket.ControlPlane.Rentals
import GpuMarket.HostAgent.Dispatch

namespace GpuMarket

open Lib

/-- A rental has one charge and one credit at most, and a rental that has ended says how much. -/
def BilledOnce (db : Db) : Prop :=
  ∀ r ∈ db.rentals.rows,
    (chargesOf db.ledger r.id).length ≤ 1 ∧ (creditsOf db.ledger r.id).length ≤ 1 ∧
    (r.status.isTerminal = true →
      r.satsCharged = (chargesOf db.ledger r.id).sum ∧
        r.satsCharged = (creditsOf db.ledger r.id).sum)

def RentalRow.bill (r : RentalRow) : List Int := if 0 < r.satsCharged then [r.satsCharged] else []

def Db.Billed (db : Db) : Prop :=
  ∀ r ∈ db.rentals.rows, chargesOf db.ledger r.id = r.bill ∧ creditsOf db.ledger r.id = r.bill ∧
    0 ≤ r.satsCharged ∧ (r.endedAt = none → r.satsCharged = 0)

theorem Db.Billed.once {db : Db} (h : db.Billed) : BilledOnce db := by
  intro r hr
  obtain ⟨hcharges, hcredits, hpos, -⟩ := h r hr
  rw [hcharges, hcredits]
  unfold RentalRow.bill
  split
  case isTrue => simp
  case isFalse hzero => simp; omega

def Txn.settlesRow : Txn → RentalRow → Prop
  | .report _ rental req _, r => settles rental req = true ∧ r.id = req.rentalId
  | _, _ => False

instance (txn : Txn) (r : RentalRow) : Decidable (txn.settlesRow r) := by
  cases txn <;> simp only [Txn.settlesRow] <;> infer_instance

theorem Txn.rewrite_satsCharged (charge : Int) (txn : Txn) (r : RentalRow) :
    (txn.rewrite charge r).satsCharged = if txn.settlesRow r then charge else r.satsCharged := by
  cases txn with
  | report machine rental req now =>
    by_cases hid : r.id = req.rentalId <;> by_cases hset : settles rental req <;>
      simp [rewrite, settlesRow, hid, hset, ReportRequest.apply]
  | deleteRental r₀ now => by_cases hid : r.id = r₀.id <;> simp [rewrite, settlesRow, hid]
  | evict r₀ now => by_cases hid : r.id = r₀.id <;> simp [rewrite, settlesRow, hid]
  | _ => simp [rewrite, settlesRow]

theorem Txn.rewrite_endedAt {charge : Int} {txn : Txn} {r : RentalRow}
    (h : (txn.rewrite charge r).endedAt = none) : r.endedAt = none ∧ ¬txn.settlesRow r := by
  cases txn with
  | report machine rental req now =>
    by_cases hid : r.id = req.rentalId <;> by_cases hset : settles rental req <;>
      by_cases hterm : req.status.isTerminal <;>
        simp_all [rewrite, settlesRow, settles, ReportRequest.apply]
  | deleteRental r₀ now => by_cases hid : r.id = r₀.id <;> simp_all [rewrite, settlesRow]
  | evict r₀ now => by_cases hid : r.id = r₀.id <;> simp_all [rewrite, settlesRow]
  | _ => simp_all [rewrite, settlesRow]

theorem Txn.bills_eq {db : Db} {txn : Txn} (hv : txn.Valid db) (charge : Int) (r : RentalRow) :
    txn.bills charge r.id = if txn.settlesRow r ∧ 0 < charge then [charge] else [] := by
  cases txn with
  | report machine rental req now =>
    obtain ⟨-, -, hid, -⟩ := hv
    simp only [bills, settlesRow, hid, eq_comm (a := r.id), and_assoc]
  | _ => simp [bills, settlesRow]

theorem Txn.bills_nextId {db : Db} {txn : Txn} (hv : txn.Valid db) (charge : Int) :
    txn.bills charge db.rentals.nextId = [] := by
  cases txn with
  | report machine rental req now =>
    obtain ⟨cur, hcur, hid, -⟩ := hv.2.1.row
    have hlt := Table.lt_nextId hcur
    simp [bills, show rental.id ≠ db.rentals.nextId by omega]
  | _ => rfl

/-- A settling report finds the rental not ended, or charged nothing when it did; and what has
accrued, as the machine computes it, is no negative amount. -/
def Db.MaySettle (env : Env) (db : Db) (txn : Txn) : Prop :=
  ∀ machine rental req now, txn = .report machine rental req now → settles rental req = true →
    0 ≤ accruedCharge env.arith rental.createdAt now rental.rateSatsPerMin ∧
      ∀ cur ∈ db.rentals.rows, cur.id = req.rentalId → cur.endedAt = none ∨ cur.satsCharged = 0

theorem Db.Billed.exec {env : Env} {txn : Txn} {db db' : Db} {v : Reply} (h : db.Billed)
    (hwf : db.Wf) (hv : txn.Valid db) (hx : txn.exec env db = .ok (db', v))
    (hmay : db.MaySettle env txn) : db'.Billed := by
  obtain ⟨charge, new, hrows, hopens, hcharges, hcredits, hcharge⟩ := exec_rentals hv hx
  intro r hr
  rw [hrows] at hr
  rcases List.mem_append.mp hr with hr | hr
  · obtain ⟨r₀, hr₀, rfl⟩ := List.mem_map.mp hr
    obtain ⟨hcharges₀, hcredits₀, hpos, hended⟩ := h r₀ hr₀
    have hbill : (txn.rewrite charge r₀).bill = r₀.bill ++ txn.bills charge r₀.id ∧
        0 ≤ (txn.rewrite charge r₀).satsCharged := by
      rw [Txn.bills_eq hv, RentalRow.bill, Txn.rewrite_satsCharged]
      by_cases hset : txn.settlesRow r₀
      · cases txn with
        | report machine rental req now =>
          obtain ⟨haccrued, hcur⟩ := hmay machine rental req now rfl hset.1
          obtain ⟨a, ha, -, rfl⟩ := hcharge machine rental req now rfl hset.1
          have hzero : r₀.satsCharged = 0 := (hcur r₀ hr₀ hset.2).elim hended id
          have hnonneg : 0 ≤ chargeOf env rental now a.balanceSats :=
            le_min haccrued (hwf.balance a ha)
          simp [RentalRow.bill, hset, hzero, hnonneg]
        | _ => exact hset.elim
      · simp [RentalRow.bill, hset, hpos]
    rw [hcharges, hcredits, Txn.rewrite_id, hcharges₀, hcredits₀]
    refine ⟨hbill.1.symm, hbill.1.symm, hbill.2, fun hnone => ?_⟩
    obtain ⟨hnone, hset⟩ := Txn.rewrite_endedAt hnone
    rw [Txn.rewrite_satsCharged, if_neg hset, hended hnone]
  · obtain rfl | ⟨r', rfl, -, hid, -, hzero, -, -⟩ := hopens
    · cases hr
    · obtain rfl := List.mem_singleton.mp hr
      have hfresh : ∀ l ∈ db.ledger, l.rentalId ≠ some db.rentals.nextId := fun l hl howner =>
        db.rentals.not_has_nextId (hwf.ledger_rental l hl _ howner)
      rw [hid, hcharges, hcredits, chargesOf_eq_nil hfresh, creditsOf_eq_nil hfresh,
        Txn.bills_nextId hv]
      simp [RentalRow.bill, hzero]

/-- Otherwise the rental is billed twice, or is said to have been charged what it was not. -/
theorem Db.Billed.not_once {env : Env} {txn : Txn} {db db' : Db} {v : Reply} (h : db.Billed)
    (hv : txn.Valid db) (hx : txn.exec env db = .ok (db', v)) (hmay : ¬db.MaySettle env txn) :
    ¬BilledOnce db' := by
  intro honce
  apply hmay
  rintro machine rental req now rfl hset
  obtain ⟨charge, new, hrows, -, hcharges, -, hcharge⟩ := exec_rentals hv hx
  obtain ⟨a, ha, -, rfl⟩ := hcharge machine rental req now rfl hset
  have settled : ∀ cur ∈ db.rentals.rows, cur.id = req.rentalId →
      0 ≤ accruedCharge env.arith rental.createdAt now rental.rateSatsPerMin ∧
        cur.satsCharged = 0 := by
    intro cur hcur hid
    obtain ⟨hcharges₀, -, hpos, -⟩ := h cur hcur
    have hrow : (Txn.report machine rental req now).settlesRow cur := ⟨hset, hid⟩
    obtain ⟨hlen, -, hsum⟩ := honce _ (hrows ▸ List.mem_append_left _ (List.mem_map_of_mem hcur))
    have hterm : req.status.isTerminal = true := by
      simp only [settles, Bool.and_eq_true] at hset
      exact hset.1
    rw [Txn.rewrite_status, Txn.statusOf, if_pos hid] at hsum
    obtain ⟨hsum, -⟩ := hsum hterm
    rw [Txn.rewrite_id, hcharges, hcharges₀, Txn.bills_eq hv, RentalRow.bill] at hlen hsum
    rw [Txn.rewrite_satsCharged, if_pos hrow] at hsum
    have hle : chargeOf env rental now a.balanceSats ≤
        accruedCharge env.arith rental.createdAt now rental.rateSatsPerMin := min_le_left _ _
    by_cases hcur0 : 0 < cur.satsCharged <;>
      by_cases hnew : 0 < chargeOf env rental now a.balanceSats <;>
        simp [hcur0, hnew, hrow] at hlen hsum <;> omega
  obtain ⟨cur, hcur, hid, -⟩ := hv.2.1.row
  refine ⟨(settled cur hcur (hid.trans hv.2.2.1)).1, fun cur hcur hid => .inr ?_⟩
  exact (settled cur hcur hid).2

/-- Every rental stays billed once exactly as long as every report that settles one finds it not
ended, or charged nothing when it did, and for no negative amount. -/
theorem billed_once_iff (env : Env) (acts : List ServerAct) :
    Always (server env).step (fun s => BilledOnce s.store) ServerConf.init acts ↔
      Along (server env).step ((server env).Commits (Db.MaySettle env)) ServerConf.init acts := by
  refine (serverContract env).always_iff_commits (J := fun db _ => db.Billed)
    (P := fun db _ => BilledOnce db) (fun _ h => h.once)
    (fun hwf hv hx h hmay => h.exec hwf hv hx hmay) ?_
    (fun _ hv hx h hmay => h.not_once hv hx hmay) (init_holds env)
    (fun _ hr => absurd hr List.not_mem_nil) acts
  intro db txn hwf hv hmay
  cases txn with
  | report machine rental req now => exact @report_exec_ok env _ _ _ _ _ hwf hv.2.1
  | _ => exact absurd (by rintro _ _ _ _ ⟨⟩) hmay

instance (db : Db) : Decidable (BilledOnce db) :=
  inferInstanceAs (Decidable (∀ r ∈ db.rentals.rows, _ ∧ _ ∧ (_ → _)))

/-- The start is slow: the tenant deletes the rental, it is stopped and billed, and only then is
it reported as running.  The tenant deletes it again. -/
def lateStart : List ServerAct :=
  opening 100 ++
  call 3 (.createRental ⟨1, "acct_1", "nvidia/cuda:latest", some "ssh-ed25519 AAAA"⟩) [{}] ++
  call 4 (.deleteRental 1) [{ now := 30 }, {}] ++
  call 5 (.report bearer (stopReport 1 (.ok ()))) [{}, { now := 60 }, {}] ++
  call 6 (.report bearer (startReport 1 (.ok ⟨"c1", 40000, .ssh⟩))) [{}, { now := 90 }, {}] ++
  call 7 (.deleteRental 1) [{ now := 100 }, {}] ++
  call 8 (.report bearer (stopReport 1 (.ok ()))) [{}, { now := 120 }, {}]

theorem lateStart_billed_twice :
    (∀ a ∈ lateStart, a.Dispatched) ∧ ¬BilledOnce (serve testEnv lateStart).store := by
  refine ⟨?_, by decide⟩
  simp only [lateStart, opening, call]
  simp [ServerAct.Dispatched, Dispatched.start, Dispatched.stop]

end GpuMarket
