import GpuMarket.Lib.Purse
import GpuMarket.ControlPlane.Reports
import GpuMarket.ControlPlane.Budgets

namespace GpuMarket

open Lib

/-- A report with the `Authorization` header that it comes with. -/
abbrev Signed := Option String × ReportRequest

inductive Interleaves (db : Db) (account : String) : List Signed → List RentalRow → Prop
  | nil : Interleaves db account [] []
  | other {p : Signed} {reports : List Signed} {rs : List RentalRow} :
    (∀ r ∈ db.rentals.rows, r.id = p.2.rentalId → r.accountId ≠ account) →
      Interleaves db account reports rs → Interleaves db account (p :: reports) rs
  | own {p : Signed} {reports : List Signed} {r : RentalRow} {rs : List RentalRow}
    {machine : MachineRow} : r ∈ db.rentals.rows → r.accountId = account → r.id = p.2.rentalId →
      p.2.status.isTerminal = true → authenticate db p.1 = .ok machine →
        machine.id = r.machineId → Interleaves db account reports rs →
          Interleaves db account (p :: reports) (r :: rs)

def creditedFor (ledger : List LedgerRow) (r : RentalRow) : Int :=
  ((ledger.filter fun l => l.kind = .hostCredit ∧ l.machineId = some r.machineId ∧
    l.rentalId = some r.id).map (·.deltaSats)).sum

theorem creditedFor_append (ledger ledger' : List LedgerRow) (r : RentalRow) :
    creditedFor (ledger ++ ledger') r = creditedFor ledger r + creditedFor ledger' r := by
  simp [creditedFor]

theorem authenticate_of_rows {db db' : Db} {f : MachineRow → MachineRow}
    (hrows : db'.machines.rows = db.machines.rows.map f)
    (hf : ∀ m, (f m).agentToken = m.agentToken) {auth : Option String} {m : MachineRow}
    (h : authenticate db auth = .ok m) : authenticate db' auth = .ok (f m) := by
  unfold authenticate at h ⊢
  split at h
  case h_1 => cases h
  case h_2 token htoken =>
    split at h
    case h_1 => cases h
    case h_2 m' hm =>
      cases h
      have hfind : db'.machines.rows.find? (fun m => decide (m.agentToken = token)) =
          some (f m) := by
        rw [hrows, List.find?_map]
        simp only [Function.comp_def, hf, hm, Option.map_some]
      rw [hfind]

theorem Interleaves.mono {db db' : Db} {account : String} {reports : List Signed}
    {rs : List RentalRow} (h : Interleaves db account reports rs)
    (hkept : ∀ r ∈ rs, r ∈ db'.rentals.rows)
    (hnamed : ∀ r' ∈ db'.rentals.rows, ∃ r ∈ db.rentals.rows, r.id = r'.id ∧
      r.accountId = r'.accountId)
    (hauth : ∀ auth m, authenticate db auth = .ok m →
      ∃ m', authenticate db' auth = .ok m' ∧ m'.id = m.id) :
    Interleaves db' account reports rs := by
  induction h with
  | nil => exact .nil
  | other hother _ ih =>
    refine .other (fun r' hr' hid => ?_) (ih hkept)
    obtain ⟨r, hr, hrid, haccount⟩ := hnamed r' hr'
    exact haccount ▸ hother r hr (hrid.trans hid)
  | own _ haccount hid hterm hm hmachine _ ih =>
    obtain ⟨hr, hrs⟩ := List.forall_mem_cons.mp hkept
    obtain ⟨m', hm', hmid⟩ := hauth _ _ hm
    exact .own hr haccount hid hterm hm' (hmid.trans hmachine) (ih hrs)

theorem Interleaves.mem {db : Db} {account : String} {reports : List Signed}
    {rs : List RentalRow} (h : Interleaves db account reports rs) :
    ∀ r ∈ rs, r ∈ db.rentals.rows ∧ r.accountId = account := by
  induction h with
  | nil => exact fun _ hr => absurd hr List.not_mem_nil
  | other _ _ ih => exact ih
  | own hr haccount _ _ _ _ _ ih => exact List.forall_mem_cons.mpr ⟨⟨hr, haccount⟩, ih⟩

section Report

variable {env : Env} {db : Db} {auth : Option String} {req : ReportRequest} {now : Int}

theorem report_keeps :
    (∀ r' ∈ ((Op.report auth req now).step env db).rentals.rows, ∃ r ∈ db.rentals.rows,
      r.id = r'.id ∧ r.accountId = r'.accountId) ∧
    ∀ auth' m, authenticate db auth' = .ok m →
      ∃ m', authenticate ((Op.report auth req now).step env db) auth' = .ok m' ∧ m'.id = m.id := by
  rcases Op.report_step env db auth req now with heq | ⟨machine, rental, v, hm, hr, hx⟩
  · rw [heq]
    exact ⟨fun r hr => ⟨r, hr, rfl, rfl⟩, fun _ m hm => ⟨m, hm, rfl⟩⟩
  · have hfresh : (Txn.report machine rental req now).Fresh db :=
      ⟨(authenticate_ok hm).1, rentalOfMachine_ok hr⟩
    obtain ⟨charge, new, hrows, hopens, -⟩ := exec_rentals hfresh.valid hx
    obtain ⟨credit, hmachines, -⟩ := exec_machines hx
    have none_new : (Txn.report machine rental req now).newMachines db = [] := rfl
    rw [none_new, List.append_nil] at hmachines
    constructor
    · intro r' hr'
      rw [hrows] at hr'
      rcases List.mem_append.mp hr' with hr' | hr'
      · obtain ⟨r, hr, rfl⟩ := List.mem_map.mp hr'
        have hterms := Txn.rewrite_terms charge (.report machine rental req now) r
        exact ⟨r, hr, (congrArg RentalRow.id hterms.symm :),
          (congrArg RentalRow.accountId hterms.symm :)⟩
      · obtain rfl | ⟨-, -, ⟨_, _, hcreate⟩, -⟩ := hopens
        · cases hr'
        · cases hcreate
    · intro auth' m hm'
      have htoken : ∀ m,
          ((Txn.report machine rental req now).rewriteMachine env credit m).agentToken =
            m.agentToken := fun _ => rfl
      exact ⟨_, authenticate_of_rows hmachines htoken hm', Txn.rewriteMachine_id ..⟩

theorem creditedFor_report {machine : MachineRow} {rental r : RentalRow} {db' : Db} {v : Reply}
    (hx : (Txn.report machine rental req now).exec env db = .ok (db', v)) (hne : rental.id ≠ r.id) :
    creditedFor db'.ledger r = creditedFor db.ledger r := by
  obtain ⟨-, rfl⟩ | ⟨-, a, -, -, rfl⟩ := reportTx_ok hx
  · rfl
  · change creditedFor (Db.charged _ _ _ _ _).ledger r = _
    rw [Db.ledger_charged, creditedFor_append]
    split
    · simp [creditedFor, Db.chargeRows, hne, Db.updateRental]
    · simp [creditedFor, Db.updateRental]

theorem report_of_other {account : String}
    (hother : ∀ r ∈ db.rentals.rows, r.id = req.rentalId → r.accountId ≠ account) :
    (∀ a ∈ db.accounts.rows, a.id = account →
      a ∈ ((Op.report auth req now).step env db).accounts.rows) ∧
    (∀ r ∈ db.rentals.rows, r.accountId = account →
      r ∈ ((Op.report auth req now).step env db).rentals.rows) ∧
    ∀ r, (∃ r₀ ∈ db.rentals.rows, r₀.id = r.id ∧ r₀.accountId = account) →
      creditedFor ((Op.report auth req now).step env db).ledger r = creditedFor db.ledger r := by
  rcases Op.report_step env db auth req now with heq | ⟨machine, rental, v, hm, hr, hx⟩
  · rw [heq]
    exact ⟨fun a ha _ => ha, fun r hr _ => hr, fun _ _ => rfl⟩
  · have hfresh : (Txn.report machine rental req now).Fresh db :=
      ⟨(authenticate_ok hm).1, rentalOfMachine_ok hr⟩
    obtain ⟨hrental, hid, -⟩ := rentalOfMachine_ok hr
    have hforeign := hother rental hrental hid
    refine ⟨fun a ha haid => ?_, fun r hrmem haccount => ?_, ?_⟩
    · obtain ⟨charge, hrows⟩ := exec_accounts hx
      have same : a.post ((Txn.report machine rental req now).posts charge) = a := by
        have hne : rental.accountId ≠ a.id := haid ▸ hforeign
        simp [AccountRow.post, Txn.posts, hne]
      rw [hrows, ← same]
      exact List.mem_append_left _ (List.mem_map_of_mem ha)
    · obtain ⟨charge, new, hrows, -⟩ := exec_rentals hfresh.valid hx
      have same : (Txn.report machine rental req now).rewrite charge r = r :=
        if_neg fun heq => hother r hrmem heq haccount
      rw [hrows, ← same]
      exact List.mem_append_left _ (List.mem_map_of_mem hrmem)
    · rintro r ⟨r₀, hr₀, hr₀id, haccount⟩
      refine creditedFor_report hx fun heq => hforeign ?_
      rw [Table.eq_of_key_eq hrental hr₀ (heq.trans hr₀id.symm)]
      exact haccount

end Report

theorem creditedFor_settled {db db' : Db} {machine : MachineRow} {rental : RentalRow}
    {req : ReportRequest} {now charge : Int} (h : db.Settled db' machine rental req now charge)
    (hmachine : machine.id = rental.machineId) :
    creditedFor db'.ledger rental = creditedFor db.ledger rental + max charge 0 := by
  rw [h.ledger, creditedFor_append]
  congr 1
  split
  case isTrue hpos => simp [creditedFor, hmachine, max_eq_left hpos.le]
  case isFalse hneg => simp [creditedFor, max_eq_right (not_lt.mp hneg)]

theorem creditedFor_settled_of_ne {db db' : Db} {machine : MachineRow} {rental r : RentalRow}
    {req : ReportRequest} {now charge : Int} (h : db.Settled db' machine rental req now charge)
    (hne : r.id ≠ rental.id) : creditedFor db'.ledger r = creditedFor db.ledger r := by
  rw [h.ledger, creditedFor_append]
  split <;> simp [creditedFor, Ne.symm hne]

def performReports (env : Env) (db : Db) (reports : List Signed) (now : Int) : Db :=
  run (Op.step env) db (reports.map fun p => .report p.1 p.2 now)

/-- What the rental asks of its account's balance: nothing where the charge is below zero. -/
def RentalRow.payable (env : Env) (r : RentalRow) (now : Int) : Int := max (r.accrued env now) 0

theorem RentalRow.max_chargeOf {env : Env} {r : RentalRow} {now sats : Int} (h : 0 ≤ sats) :
    max (chargeOf env r now sats) 0 = min (r.payable env now) sats := by
  rw [chargeOf, payable, max_min_distrib_right, max_eq_left h]
  rfl

/-- The rentals take what they ask for from the account's balance, in their order, and no other
rental of the account takes anything. -/
structure Db.Takes (env : Env) (db db' : Db) (account : String) (sats now : Int) (rs : List RentalRow) :
    Prop where
  balance : ∃ a' ∈ db'.accounts.rows, a'.id = account ∧
    a'.balanceSats = sats - (takes sats (rs.map (·.payable env now))).sum
  credits : rs.map (fun r => creditedFor db'.ledger r - creditedFor db.ledger r) =
    takes sats (rs.map (·.payable env now))
  others : ∀ r, (∃ r₀ ∈ db.rentals.rows, r₀.id = r.id ∧ r₀.accountId = account) →
    r.id ∉ rs.map (·.id) → creditedFor db'.ledger r = creditedFor db.ledger r

namespace Db.Takes

variable {env : Env} {db db₁ db' : Db} {account : String} {sats now : Int} {rs : List RentalRow}

theorem nil {a : AccountRow} (ha : a ∈ db.accounts.rows) (haid : a.id = account) (now : Int) :
    db.Takes env db account a.balanceSats now [] :=
  ⟨⟨a, ha, haid, (sub_zero _).symm⟩, rfl, fun _ _ _ => rfl⟩

theorem after_other (h : db₁.Takes env db' account sats now rs)
    (hmem : ∀ r ∈ rs, r ∈ db.rentals.rows ∧ r.accountId = account)
    (hrentals : ∀ r ∈ db.rentals.rows, r.accountId = account → r ∈ db₁.rentals.rows)
    (hcredits : ∀ r, (∃ r₀ ∈ db.rentals.rows, r₀.id = r.id ∧ r₀.accountId = account) →
      creditedFor db₁.ledger r = creditedFor db.ledger r) :
    db.Takes env db' account sats now rs := by
  refine ⟨h.balance, ?_, fun r hr hnot => ?_⟩
  · rw [← h.credits]
    refine List.map_congr_left fun r hr => ?_
    rw [hcredits r ⟨r, (hmem r hr).1, rfl, (hmem r hr).2⟩]
  · obtain ⟨r₀, hr₀, hid, haccount⟩ := hr
    rw [h.others r ⟨r₀, hrentals r₀ hr₀ haccount, hid, haccount⟩ hnot]
    exact hcredits r ⟨r₀, hr₀, hid, haccount⟩

theorem after_own {machine : MachineRow} {r : RentalRow} {req : ReportRequest}
    (h : db₁.Takes env db' account (sats - min (r.payable env now) sats) now rs)
    (hdb : db.Settled db₁ machine r req now (chargeOf env r now sats)) (hsats : 0 ≤ sats)
    (hmachine : machine.id = r.machineId)
    (hr : r ∈ db.rentals.rows) (haccount : r.accountId = account)
    (hfresh : r.id ∉ rs.map (·.id)) : db.Takes env db' account sats now (r :: rs) := by
  constructor
  · obtain ⟨a', ha', haid', hleft⟩ := h.balance
    refine ⟨a', ha', haid', ?_⟩
    rw [hleft, List.map_cons, takes_cons, List.sum_cons]
    exact sub_sub _ _ _
  · have hrow : ∃ r₀ ∈ db₁.rentals.rows, r₀.id = r.id ∧ r₀.accountId = account := by
      rw [hdb.rentals]
      exact ⟨_, List.mem_map_of_mem hr, by rw [if_pos rfl]; exact ⟨rfl, haccount⟩⟩
    rw [List.map_cons, List.map_cons, takes_cons]
    congr 1
    · rw [h.others r hrow hfresh, creditedFor_settled hdb hmachine, RentalRow.max_chargeOf hsats]
      exact add_sub_cancel_left _ _
    · rw [← h.credits]
      refine List.map_congr_left fun r' hr' => ?_
      rw [creditedFor_settled_of_ne hdb fun heq => hfresh (List.mem_map.mpr ⟨r', hr', heq⟩)]
  · rintro r' ⟨r₀, hr₀, hid₀, haccount₀⟩ hnot
    obtain ⟨hne, hnot⟩ := not_or.mp (List.mem_cons.not.mp hnot)
    have hkept : r₀ ∈ db₁.rentals.rows := by
      rw [hdb.rentals]
      exact List.mem_map.mpr ⟨r₀, hr₀, if_neg (hid₀ ▸ hne)⟩
    rw [h.others r' ⟨r₀, hkept, hid₀, haccount₀⟩ hnot]
    exact creditedFor_settled_of_ne hdb hne

end Db.Takes

theorem performReports_takes {env : Env} {account : String} {now : Int} {reports : List Signed}
    {rs : List RentalRow} {db : Db} {a : AccountRow} (h : Interleaves db account reports rs)
    (ha : a ∈ db.accounts.rows) (haid : a.id = account) (hbalance : 0 ≤ a.balanceSats)
    (hnodup : (rs.map (·.id)).Nodup)
    (hlive : ∀ r ∈ rs, r.status.isTerminal = false) :
    db.Takes env (performReports env db reports now) account a.balanceSats now rs := by
  induction reports generalizing db a rs with
  | nil =>
    cases h
    exact .nil ha haid now
  | cons p reports ih =>
    have hrun : performReports env db (p :: reports) now =
        performReports env ((Op.report p.1 p.2 now).step env db) reports now := rfl
    obtain ⟨hnamed, hauth⟩ := @report_keeps env db p.1 p.2 now
    rw [hrun]
    cases h with
    | other hother h =>
      obtain ⟨haccounts, hrentals, hcredits⟩ := @report_of_other env db p.1 p.2 now account hother
      have hmem := h.mem
      have hnext := h.mono (fun r hr => hrentals r (hmem r hr).1 (hmem r hr).2) hnamed hauth
      exact (ih hnext (haccounts a ha haid) haid hbalance hnodup hlive).after_other hmem hrentals
        hcredits
    | @own _ _ r rs machine hr haccount hid hterm hm hmachine h =>
      obtain ⟨hfresh, hnodup⟩ := List.nodup_cons.mp hnodup
      obtain ⟨hrlive, hlive⟩ := List.forall_mem_cons.mp hlive
      obtain ⟨db', hx, hdb⟩ := report_settles env ha hm hr (haid.trans haccount.symm)
        hmachine.symm hid hrlive hterm now
      have hstep : (Op.report p.1 p.2 now).step env db = db' := by rw [Op.step, hx, committed]
      rw [hstep] at hnamed hauth ⊢
      have hkept : ∀ r' ∈ rs, r' ∈ db'.rentals.rows := by
        intro r' hr'
        have hne : r'.id ≠ r.id := fun heq => hfresh (List.mem_map.mpr ⟨r', hr', heq⟩)
        rw [hdb.rentals]
        exact List.mem_map.mpr ⟨r', (h.mem r' hr').1, if_neg hne⟩
      have ha' : { a with balanceSats := a.balanceSats - min (r.payable env now) a.balanceSats } ∈
          db'.accounts.rows := by
        rw [hdb.accounts, ← RentalRow.max_chargeOf hbalance]
        exact List.mem_map.mpr ⟨a, ha, if_pos (haid.trans haccount.symm)⟩
      have hcap : min (r.payable env now) a.balanceSats ≤ a.balanceSats := min_le_right _ _
      have hrest := ih (h.mono hkept hnamed hauth) ha' haid (sub_nonneg.mpr hcap) hnodup hlive
      exact hrest.after_own hdb hbalance hmachine hr haccount hfresh

theorem performReports_owes (env : Env) (db : Db) (reports : List Signed) (now : Int) :
    ∀ m ∈ db.machines.rows, ∃ m' ∈ (performReports env db reports now).machines.rows,
      m'.id = m.id ∧ m'.payoutBalance - m.payoutBalance =
        hostCredits (performReports env db reports now).ledger m.id - hostCredits db.ledger m.id := by
  induction reports generalizing db with
  | nil => exact fun m hm => ⟨m, hm, rfl, by simp [performReports]⟩
  | cons p reports ih =>
    intro m hm
    have hstep : ∃ m' ∈ ((Op.report p.1 p.2 now).step env db).machines.rows, m'.id = m.id ∧
        m'.payoutBalance - m.payoutBalance =
          hostCredits ((Op.report p.1 p.2 now).step env db).ledger m.id -
            hostCredits db.ledger m.id := by
      rcases Op.report_step env db p.1 p.2 now with heq | ⟨machine, rental, v, -, -, hx⟩
      · rw [heq]
        exact ⟨m, hm, rfl, by simp⟩
      · obtain ⟨charge, hrows, hcredits⟩ := exec_machines hx
        refine ⟨_, hrows ▸ List.mem_append_left _ (List.mem_map_of_mem hm),
          Txn.rewriteMachine_id .., ?_⟩
        rw [hcredits]
        simp only [Txn.rewriteMachine]
        omega
    obtain ⟨m₁, hm₁, hid₁, hpaid₁⟩ := hstep
    obtain ⟨m₂, hm₂, hid₂, hpaid₂⟩ := ih _ m₁ hm₁
    rw [hid₁] at hid₂ hpaid₂
    have hrun : performReports env db (p :: reports) now =
        performReports env ((Op.report p.1 p.2 now).step env db) reports now := rfl
    rw [hrun]
    exact ⟨m₂, hm₂, hid₂, by omega⟩

def Db.credit (db db' : Db) (r : RentalRow) : Int :=
  creditedFor db'.ledger r - creditedFor db.ledger r

/-- The rentals have been paid for, at what each of them costs: the account ends with what they leave
of its balance, and their hosts are credited the whole cost or all that there was, and none more
than its rental's. -/
structure Db.PaidFor (db db' : Db) (a : AccountRow) (rs : List RentalRow)
    (cost : RentalRow → Int) : Prop where
  balance : ∃ a' ∈ db'.accounts.rows, a'.id = a.id ∧
    a'.balanceSats = max 0 (a.balanceSats - (rs.map cost).sum)
  credits : (rs.map (db.credit db')).sum = min a.balanceSats (rs.map cost).sum
  within : ∀ r ∈ rs, db.credit db' r ≤ cost r

theorem Db.PaidFor.congr {db db' : Db} {a : AccountRow} {rs : List RentalRow}
    {cost cost' : RentalRow → Int} (h : db.PaidFor db' a rs cost)
    (hcost : ∀ r ∈ rs, cost r = cost' r) : db.PaidFor db' a rs cost' where
  balance := by
    rw [← List.map_congr_left hcost]
    exact h.balance
  credits := by
    rw [← List.map_congr_left hcost]
    exact h.credits
  within r hr := hcost r hr ▸ h.within r hr

section Order

variable {env : Env} {db : Db} {a : AccountRow} {rs order : List RentalRow} {now : Int}
  {reports : List Signed}

/-- In whatever order the rentals are stopped, they are paid for at what they ask. -/
theorem performReports_paid (ha : a ∈ db.accounts.rows) (hbalance : 0 ≤ a.balanceSats)
    (hnodup : rs.Nodup) (hlive : ∀ r ∈ rs, r.status.isTerminal = false) (horder : order.Perm rs)
    (h : Interleaves db a.id reports order) :
    db.PaidFor (performReports env db reports now) a rs (·.payable env now) ∧
      ∀ r ∈ rs, 0 ≤ db.credit (performReports env db reports now) r := by
  have hids : (order.map (·.id)).Nodup := by
    refine List.Nodup.map_on (fun r hr r' hr' hid => ?_) (horder.nodup_iff.mpr hnodup)
    exact Table.eq_of_key_eq (h.mem r hr).1 (h.mem r' hr').1 hid
  have hpos : ∀ x ∈ order.map (·.payable env now), 0 ≤ x := by
    intro x hx
    obtain ⟨r, -, rfl⟩ := List.mem_map.mp hx
    exact le_max_right _ _
  have hsum : (order.map (·.payable env now)).sum = (rs.map (·.payable env now)).sum :=
    (horder.map _).sum_eq
  obtain ⟨⟨a', ha', haid', hleft⟩, htakes, -⟩ := @performReports_takes env a.id now reports order db
    a h ha rfl hbalance hids fun r hr => hlive r (horder.mem_iff.mp hr)
  have hcredits : order.map (db.credit (performReports env db reports now)) =
      takes a.balanceSats (order.map (·.payable env now)) := htakes
  refine ⟨⟨⟨a', ha', haid', ?_⟩, ?_, fun r hr => ?_⟩, fun r hr => ?_⟩
  · rw [hleft, sub_sum_takes hbalance hpos, hsum]
  · rw [← (horder.map _).sum_eq, hcredits, sum_takes hbalance hpos, hsum, min_comm]
  · have hle := takes_le a.balanceSats (order.map (·.payable env now))
    rw [← hcredits, List.forall₂_map_left_iff, List.forall₂_map_right_iff,
      List.forall₂_same] at hle
    exact hle r (horder.mem_iff.mpr hr)
  · refine takes_nonneg hbalance hpos _ ?_
    rw [← hcredits]
    exact List.mem_map_of_mem (horder.mem_iff.mpr hr)

theorem RentalRow.payable_eq_iff (harith : env.arith = .wrapping) {r : RentalRow}
    (hclock : r.ClockFits env now) (hrate : 1 ≤ r.rateSatsPerMin) :
    r.payable env now = r.accrued env.exactly now ↔
      (now - r.createdAt) * r.rateSatsPerMin < 2 ^ 63 := by
  by_cases hstop : r.createdAt ≤ now
  · have hexact : r.accrued env.exactly now = (now - r.createdAt) * r.rateSatsPerMin / 60 :=
      accruedCharge_eq_ediv (by omega) hstop
    constructor
    · intro heq
      by_contra hover
      have hlt := accruedCharge_lt hrate (not_lt.mp hover)
      rw [← harith] at hlt
      have hcharge : r.accrued env now < (now - r.createdAt) * r.rateSatsPerMin / 60 := hlt
      rw [payable, hexact] at heq
      omega
    · intro hfits
      have hpos : 0 ≤ (now - r.createdAt) * r.rateSatsPerMin / 60 :=
        Int.ediv_nonneg (Int.mul_nonneg (by omega) (by omega)) (by decide)
      rw [payable, hexact, accrued, accruedCharge_of_fits _ hrate hstop hfits, max_eq_left hpos]
  · have helapsed : max (env.arith.int64 (now - r.createdAt)) 0 = 0 := by
      rw [show env.arith.int64 _ = _ from hclock]
      omega
    have hnone : max (now - r.createdAt) 0 = 0 := by omega
    have hzero : env.arith.int64 0 = 0 := env.arith.int64_of_fits le_rfl (by decide)
    have hneg : (now - r.createdAt) * r.rateSatsPerMin ≤ 0 :=
      Int.mul_nonpos_of_nonpos_of_nonneg (by omega) (by omega)
    have haccrued : r.accrued env now = 0 := by
      rw [accrued, accruedCharge, helapsed, Int.zero_mul, hzero, Int.zero_tdiv]
    have hexact : r.accrued env.exactly now = 0 := by
      refine (accruedCharge_eq (show 0 ≤ r.rateSatsPerMin by omega) _ _).trans ?_
      rw [hnone, Int.zero_mul, Int.zero_ediv]
    rw [payable, haccrued, hexact]
    exact iff_of_true rfl (by omega)

/-- An account's rentals, stopped at one time in any order and with any reports on the rentals of
others in between, are paid for as charged exactly if no charge is below zero; and at what they have
accrued in exact integers exactly if no product wraps around, or what is left of the charges still
takes the whole balance. -/
theorem settlement_order_independent_iff (harith : env.arith = .wrapping)
    (ha : a ∈ db.accounts.rows) (hbalance : 0 ≤ a.balanceSats) (hnodup : rs.Nodup)
    (hlive : ∀ r ∈ rs, r.status.isTerminal = false ∧ 1 ≤ r.rateSatsPerMin)
    (hclock : ∀ r ∈ rs, r.ClockFits env now) (horder : order.Perm rs)
    (h : Interleaves db a.id reports order) :
    let db' := performReports env db reports now
    (db.PaidFor db' a rs (·.accrued env now) ↔ ∀ r ∈ rs, 0 ≤ r.accrued env now) ∧
    (db.PaidFor db' a rs (·.accrued env.exactly now) ↔
      (∀ r ∈ rs, (now - r.createdAt) * r.rateSatsPerMin < 2 ^ 63) ∨
        a.balanceSats ≤ (rs.map (·.payable env now)).sum) ∧
    ∀ m ∈ db.machines.rows, ∃ m' ∈ db'.machines.rows, m'.id = m.id ∧
      m'.payoutBalance - m.payoutBalance =
        hostCredits db'.ledger m.id - hostCredits db.ledger m.id := by
  intro db'
  obtain ⟨hpaid, hcredit⟩ := @performReports_paid env db a rs order now reports ha hbalance hnodup
    (fun r hr => (hlive r hr).1) horder h
  have hexact : ∀ r ∈ rs, 0 ≤ r.accrued env.exactly now := by
    intro r hr
    have hrate := (hlive r hr).2
    exact accruedCharge_nonneg (by omega) _ _
  have hle : ∀ r ∈ rs, r.payable env now ≤ r.accrued env.exactly now := by
    intro r hr
    have hrate := (hlive r hr).2
    exact max_le (r.accrued_le_exactly (hclock r hr) (by omega)) (hexact r hr)
  have hsum := List.sum_le_sum hle
  refine ⟨⟨fun hcost r hr => (hcredit r hr).trans (hcost.within r hr), fun hnonneg => ?_⟩,
    ⟨fun hcost => ?_, fun hcond => ?_⟩, performReports_owes env db reports now⟩
  · exact hpaid.congr fun r hr => max_eq_left (hnonneg r hr)
  · by_contra hneither
    obtain ⟨hover, hrich⟩ := not_or.mp hneither
    obtain ⟨r, hr, hwraps⟩ : ∃ r ∈ rs, ¬(now - r.createdAt) * r.rateSatsPerMin < 2 ^ 63 := by
      simpa using hover
    have hlt : r.payable env now < r.accrued env.exactly now := by
      refine lt_of_le_of_ne (hle r hr) fun heq => hwraps ?_
      exact (r.payable_eq_iff harith (hclock r hr) (hlive r hr).2).mp heq
    have hstrict := List.sum_lt_sum _ _ hle ⟨r, hr, hlt⟩
    have hsame := hpaid.credits.symm.trans hcost.credits
    omega
  · rcases hcond with hfits | hpoor
    · exact hpaid.congr fun r hr =>
        (r.payable_eq_iff harith (hclock r hr) (hlive r hr).2).mpr (hfits r hr)
    · obtain ⟨a', ha', haid', hleft⟩ := hpaid.balance
      refine ⟨⟨a', ha', haid', by omega⟩, by rw [hpaid.credits]; omega, fun r hr => ?_⟩
      exact (hpaid.within r hr).trans (hle r hr)

end Order

/-- Two rentals that have accrued 20 sats each are stopped, the second first, with 30 sats in their
account. -/
theorem settlement_order_independent_iff_twoRentals :
    let db := (serve testEnv twoRentals).store
    ∃ reports : List Signed, reports.map (·.2.rentalId) = [9, 2, 1] ∧
      ∃ r₁ ∈ db.rentals.rows, ∃ r₂ ∈ db.rentals.rows, r₁.id = 1 ∧ r₂.id = 2 ∧
        ∃ a ∈ db.accounts.rows, a.balanceSats = 30 ∧
          db.PaidFor (performReports testEnv db reports 120) a [r₁, r₂] (·.accrued testEnv 120) ∧
          db.PaidFor (performReports testEnv db reports 120) a [r₁, r₂]
            (·.accrued testEnv.exactly 120) := by
  intro db
  have hosts : ∀ token id, (match authenticate db token with
      | .ok m => decide (m.id = id)
      | .error _ => false) = true → ∃ m, authenticate db token = .ok m ∧ m.id = id := by
    intro token id h
    split at h
    case h_1 m hm => exact ⟨m, hm, of_decide_eq_true h⟩
    case h_2 => cases h
  obtain ⟨⟨a, ha, hsats, haid⟩, ⟨r₁, hr₁, hid₁, hm₁, haccount₁, hlive₁, hrate₁, hcreated₁⟩,
      ⟨r₂, hr₂, hid₂, hm₂, haccount₂, hlive₂, hrate₂, hcreated₂⟩, hnine, hhost₁, hhost₂⟩ :
      (∃ a ∈ db.accounts.rows, a.balanceSats = 30 ∧ a.id = "acct_1") ∧
      (∃ r ∈ db.rentals.rows, r.id = 1 ∧ r.machineId = 1 ∧ r.accountId = "acct_1" ∧
        r.status.isTerminal = false ∧ r.rateSatsPerMin = 10 ∧ r.createdAt = 0) ∧
      (∃ r ∈ db.rentals.rows, r.id = 2 ∧ r.machineId = 2 ∧ r.accountId = "acct_1" ∧
        r.status.isTerminal = false ∧ r.rateSatsPerMin = 10 ∧ r.createdAt = 0) ∧
      (∀ r ∈ db.rentals.rows, r.id ≠ 9) ∧
      (match authenticate db bearer with
        | .ok m => decide (m.id = 1)
        | .error _ => false) = true ∧
      (match authenticate db (some "Bearer agt_2") with
        | .ok m => decide (m.id = 2)
        | .error _ => false) = true := by decide +kernel
  obtain ⟨m₁, hauth₁, hmid₁⟩ := hosts bearer 1 hhost₁
  obtain ⟨m₂, hauth₂, hmid₂⟩ := hosts (some "Bearer agt_2") 2 hhost₂
  have absent : ∀ r ∈ db.rentals.rows, r.id = 9 → r.accountId ≠ a.id := by
    intro r hr hid
    exact absurd hid (hnine r hr)
  have interleaved : Interleaves db a.id [(bearer, { rentalId := 9, status := .running }),
      (some "Bearer agt_2", { rentalId := 2, status := .failed }),
      (bearer, { rentalId := 1, status := .stopped })] [r₂, r₁] :=
    .other absent (.own hr₂ (haccount₂.trans haid.symm) hid₂ rfl hauth₂ (hmid₂.trans hm₂.symm)
      (.own hr₁ (haccount₁.trans haid.symm) hid₁ rfl hauth₁ (hmid₁.trans hm₁.symm) .nil))
  have distinct : [r₁, r₂].Nodup := by
    refine List.nodup_cons.mpr ⟨fun hmem => ?_, List.nodup_singleton _⟩
    have heq := congrArg RentalRow.id (List.mem_singleton.mp hmem)
    rw [hid₁, hid₂] at heq
    cases heq
  have terms : ∀ r ∈ [r₁, r₂], r.status.isTerminal = false ∧ r.rateSatsPerMin = 10 ∧
      r.createdAt = 0 := List.forall_mem_cons.mpr ⟨⟨hlive₁, hrate₁, hcreated₁⟩,
    List.forall_mem_singleton.mpr ⟨hlive₂, hrate₂, hcreated₂⟩⟩
  have live : ∀ r ∈ [r₁, r₂], r.status.isTerminal = false ∧ 1 ≤ r.rateSatsPerMin := by
    intro r hr
    obtain ⟨hlive, hrate, -⟩ := terms r hr
    exact ⟨hlive, by omega⟩
  have clock : ∀ r ∈ [r₁, r₂], r.ClockFits testEnv 120 := by
    intro r hr
    rw [RentalRow.ClockFits, (terms r hr).2.2]
    decide
  obtain ⟨charged, exact, -⟩ := @settlement_order_independent_iff testEnv db a [r₁, r₂] [r₂, r₁] 120
    _ rfl ha (by omega) distinct live clock (List.Perm.swap r₁ r₂ []) interleaved
  refine ⟨_, rfl, r₁, hr₁, r₂, hr₂, hid₁, hid₂, a, ha, hsats, charged.mpr fun r hr => ?_,
    exact.mpr (.inl fun r hr => ?_)⟩
  · rw [RentalRow.accrued, (terms r hr).2.1, (terms r hr).2.2]
    decide
  · rw [(terms r hr).2.1, (terms r hr).2.2]
    decide

/-- A rental at a price that a deposit can pay for, stopped within three hours. -/
def dearStop : List Signed := [(bearer, { rentalId := 1, status := .stopped })]

/-- Its charge wraps around to less than nothing: the account keeps its balance and the host gets
nothing, whichever of the two is what the rental has accrued. -/
theorem dearStop_unpaid :
    let db := perform testEnv (underway 1000000000000000 1000000000000000)
    let db' := performReports testEnv db dearStop 10000
    ∃ a ∈ db.accounts.rows, ∃ r ∈ db.rentals.rows, a.balanceSats = 1000000000000000 ∧
      r.status.isTerminal = false ∧ r.rateSatsPerMin = 1000000000000000 ∧ r.createdAt = 0 ∧
      Interleaves db a.id dearStop [r] ∧
      db'.accounts.rows.map (·.balanceSats) = [1000000000000000] ∧ db.credit db' r = 0 ∧
      ¬db.PaidFor db' a [r] (·.accrued testEnv 10000) ∧
      ¬db.PaidFor db' a [r] (·.accrued testEnv.exactly 10000) := by
  intro db db'
  obtain ⟨a, ha, r, hr, hsats, hlive, hrate, hcreated, haccount, hid, ⟨hauth, hmid⟩, hleft, hcredit,
      hwrapped, hexact⟩ : ∃ a ∈ db.accounts.rows, ∃ r ∈ db.rentals.rows,
      a.balanceSats = 1000000000000000 ∧ r.status.isTerminal = false ∧
      r.rateSatsPerMin = 1000000000000000 ∧ r.createdAt = 0 ∧ r.accountId = a.id ∧ r.id = 1 ∧
      ((authenticate db bearer).isOk = true ∧ ∀ m ∈ db.machines.rows, m.id = r.machineId) ∧
      db'.accounts.rows.map (·.balanceSats) = [1000000000000000] ∧ db.credit db' r = 0 ∧
      r.accrued testEnv 10000 = -140779067895159193 ∧
      r.accrued testEnv.exactly 10000 = 166666666666666666 := by decide +kernel
  obtain ⟨machine, hmachine⟩ : ∃ m, authenticate db bearer = .ok m := by
    cases hm : authenticate db bearer with
    | ok m => exact ⟨m, rfl⟩
    | error e =>
      rw [hm] at hauth
      cases hauth
  have interleaved : Interleaves db a.id dearStop [r] :=
    .own hr haccount hid rfl hmachine (hmid machine (authenticate_ok hmachine).1) .nil
  refine ⟨a, ha, r, hr, hsats, hlive, hrate, hcreated, interleaved, hleft, hcredit, fun h => ?_,
    fun h => ?_⟩
  · have hle := h.within r (List.mem_singleton_self r)
    rw [hcredit, hwrapped] at hle
    exact absurd hle (by decide)
  · have hcost := h.credits
    simp only [List.map_cons, List.map_nil, List.sum_cons, List.sum_nil, hcredit, hexact,
      hsats] at hcost
    exact absurd hcost (by decide)

end GpuMarket
