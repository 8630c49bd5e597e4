import GpuMarket.ControlPlane.Enforcement
import Mathlib.Data.List.Perm.Subperm

namespace GpuMarket

open Lib

/-- What the backend answers during one tick, and the clocks of its three passes. -/
structure TickInput where
  isSettled : String → Option Bool
  creditAt : String → Int
  offlineAt : Int
  budgetAt : Int → Int

/-- `pollInvoices`, `markOffline` and `enforceBudgets` in turn, up to the first error. -/
def tick (env : Env) (i : TickInput) (db : Db) : Db × Except TickError Unit :=
  match pollInvoices i.isSettled i.creditAt db with
  | (db, .error e) => (db, .error e)
  | (db, .ok ()) => enforceBudgets env i.budgetAt (markOffline env i.offlineAt db)

/-- The invoices that the backend answers for as settled. -/
def TickInput.paid (i : TickInput) (pending : List PendingInvoice) : List PendingInvoice :=
  pending.filter fun p => i.isSettled p.paymentHash = some true

/-- The invoices that come before the first for which the backend's call fails. -/
def TickInput.asked (i : TickInput) (pending : List PendingInvoice) : List PendingInvoice :=
  pending.takeWhile fun p => (i.isSettled p.paymentHash).isSome

def creditsTo (credits : List PendingInvoice) (id : String) : Int :=
  ((credits.filter (·.accountId = id)).map (·.sats)).sum

theorem tick_of_error {env : Env} {i : TickInput} {db db' : Db} {e : TickError}
    (h : pollInvoices i.isSettled i.creditAt db = (db', .error e)) :
    tick env i db = (db', .error e) := by
  simp only [tick, h]

theorem tick_of_ok {env : Env} {i : TickInput} {db db' : Db}
    (h : pollInvoices i.isSettled i.creditAt db = (db', .ok ())) :
    tick env i db = enforceBudgets env i.budgetAt (markOffline env i.offlineAt db') := by
  simp only [tick, h]

/-- With what some invoices bring, the account of a rental holds less than the rental has accrued. -/
def Db.Outrun (env : Env) (db : Db) (credits : List PendingInvoice) (now : Int) (r : RentalRow) :
    Prop :=
  ∃ a ∈ db.accounts.rows, a.id = r.accountId ∧
    a.balanceSats + creditsTo credits a.id < r.accrued env now

/-- The balances and what a tick may credit to them add up within an `i64`, in which the database
keeps them as integers. -/
def Db.BalancesFit (i : TickInput) (db : Db) : Prop :=
  ∀ a ∈ db.accounts.rows, a.balanceSats + creditsTo (i.paid (pendingInvoices db)) a.id < 2 ^ 63

/-- What a tick is for: the paid invoices are credited, no silent host is online, and no rental on
another host runs on beyond its account. -/
structure Db.Ticked (env : Env) (i : TickInput) (db db' : Db) : Prop where
  settled : ∀ p ∈ i.paid (pendingInvoices db),
    ∃ inv ∈ db'.invoices.rows, inv.paymentHash = p.paymentHash ∧ inv.settled = true
  credited : db'.accounts.rows = db.accounts.rows.map fun a =>
    { a with balanceSats := a.balanceSats + creditsTo (i.paid (pendingInvoices db)) a.id }
  offline : ∀ m ∈ db'.machines.rows, db'.Silent env i.offlineAt m.id → m.online = false
  evicted : ∀ r ∈ db.rentals.rows, r.status = .running → db'.MustGo env.exactly (i.budgetAt r.id) r →
    ∃ r' ∈ db'.rentals.rows, r'.id = r.id ∧ r'.status = .evicting

/-- A tick that only gets to the invoices asked about leaves nothing undone. -/
structure Db.NothingLeft (env : Env) (i : TickInput) (db : Db) : Prop where
  paid : ∀ p ∈ i.paid (pendingInvoices db), p ∈ i.asked (pendingInvoices db)
  online : ∀ m ∈ db.machines.rows, db.Silent env i.offlineAt m.id → m.online = false
  budgets : ∀ r ∈ db.rentals.rows, r.status = .running →
    ¬db.Silent env (i.budgetAt r.id) r.machineId →
      ¬db.Outrun env.exactly (i.paid (i.asked (pendingInvoices db))) (i.budgetAt r.id) r

/-- Where a rental outruns its account, so does what the machine computes that it has accrued. -/
def Db.OverrunsSeen (env : Env) (i : TickInput) (db : Db) : Prop :=
  ∀ r ∈ db.rentals.rows, r.status = .running → ¬db.Silent env (i.budgetAt r.id) r.machineId →
    db.Outrun env.exactly (i.paid (pendingInvoices db)) (i.budgetAt r.id) r →
      db.Outrun env (i.paid (pendingInvoices db)) (i.budgetAt r.id) r

section Credits

def Db.withCredit (now : String → Int) (db : Db) (p : PendingInvoice) : Db :=
  ((db.settleInvoice p.paymentHash).withBalance p.accountId p.sats).record (now p.paymentHash)
    .deposit p.sats (some p.accountId) none none (some "deposit")

variable {now : String → Int}

@[simp] theorem hasAccount_withCredit {db : Db} {p : PendingInvoice} {id : String} :
    (db.withCredit now p).accounts.Has id ↔ db.accounts.Has id := by
  simp [Db.withCredit, Db.record, Db.withBalance, Db.settleInvoice]

theorem pollInvoiceTx_of_has {db : Db} {p : PendingInvoice} (ha : db.accounts.Has p.accountId)
    (hbalance : ∀ a ∈ db.accounts.rows, 0 ≤ a.balanceSats) (hsats : 0 ≤ p.sats) :
    pollInvoiceTx p (now p.paymentHash) db = .ok (db.withCredit now p) := by
  obtain ⟨a, hmem, haid⟩ := ha
  have hcheck : 0 ≤ a.balanceSats + p.sats := Int.add_nonneg (hbalance a hmem) hsats
  have hadd : (db.settleInvoice p.paymentHash).addBalance a.id p.sats =
      .ok ((db.settleInvoice p.paymentHash).withBalance a.id p.sats) :=
    @Db.addBalance_of_nonneg (db.settleInvoice p.paymentHash) a hmem p.sats hcheck
  rw [haid] at hadd
  exact bind_eq_ok.mpr ⟨_, hadd, rfl⟩

theorem pollInvoicesLoop_eq (i : TickInput) {pending : List PendingInvoice} {db : Db}
    (hpending : ∀ p ∈ pending, db.accounts.Has p.accountId ∧ 0 ≤ p.sats)
    (hbalance : ∀ a ∈ db.accounts.rows, 0 ≤ a.balanceSats) :
    pollInvoicesLoop i.isSettled i.creditAt pending db =
      ((i.paid (i.asked pending)).foldl (Db.withCredit i.creditAt) db,
        if ∀ p ∈ pending, i.isSettled p.paymentHash ≠ none then .ok ()
        else .error .isSettled) := by
  induction pending generalizing db with
  | nil => simp [pollInvoicesLoop, TickInput.paid, TickInput.asked]
  | cons p rest ih =>
    obtain ⟨⟨ha, hsats⟩, hrest⟩ := List.forall_mem_cons.mp hpending
    cases hanswer : i.isSettled p.paymentHash with
    | none => simp [pollInvoicesLoop, TickInput.paid, TickInput.asked, hanswer]
    | some settled =>
      cases settled with
      | false =>
        simp only [pollInvoicesLoop, hanswer, ih hrest hbalance]
        simp [TickInput.paid, TickInput.asked, hanswer]
      | true =>
        have hkeep : ∀ q ∈ rest, (db.withCredit i.creditAt p).accounts.Has q.accountId ∧
            0 ≤ q.sats := by
          intro q hq
          exact ⟨hasAccount_withCredit.mpr (hrest q hq).1, (hrest q hq).2⟩
        have hbalance' : ∀ a ∈ (db.withCredit i.creditAt p).accounts.rows, 0 ≤ a.balanceSats := by
          intro a ha
          obtain ⟨a₀, ha₀, -, hnew⟩ := Db.mem_withBalance ha
          have hold := hbalance a₀ ha₀
          rw [hnew]
          split <;> omega
        simp only [pollInvoicesLoop, hanswer, pollInvoiceTx_of_has ha hbalance hsats,
          ih hkeep hbalance']
        simp [TickInput.paid, TickInput.asked, hanswer]

theorem foldl_withCredit (credits : List PendingInvoice) (db : Db) :
    let db' := credits.foldl (Db.withCredit now) db
    db'.machines = db.machines ∧ db'.rentals = db.rentals ∧
      (db'.invoices.rows = db.invoices.rows.map fun inv =>
        if inv.paymentHash ∈ credits.map (·.paymentHash) then { inv with settled := true }
        else inv) ∧
      db'.accounts.rows = db.accounts.rows.map fun a =>
        { a with balanceSats := a.balanceSats + creditsTo credits a.id } := by
  induction credits generalizing db with
  | nil => simp [creditsTo]
  | cons p rest ih =>
    obtain ⟨machines, rentals, invoices, accounts⟩ := ih (db.withCredit now p)
    have hinvoices : (db.withCredit now p).invoices.rows = db.invoices.rows.map fun inv =>
        if inv.paymentHash = p.paymentHash then { inv with settled := true } else inv := rfl
    have haccounts : (db.withCredit now p).accounts.rows = db.accounts.rows.map fun a =>
        if a.id = p.accountId then { a with balanceSats := a.balanceSats + p.sats } else a := rfl
    refine ⟨machines, rentals, ?_, ?_⟩
    · rw [List.foldl_cons, invoices, hinvoices, List.map_map]
      refine List.map_congr_left fun inv _ => ?_
      by_cases hhash : inv.paymentHash = p.paymentHash
      · simp [hhash]
      · simp [hhash]
    · rw [List.foldl_cons, accounts, haccounts, List.map_map]
      refine List.map_congr_left fun a _ => ?_
      by_cases hid : a.id = p.accountId
      · simp [creditsTo, hid, Int.add_assoc]
      · simp [creditsTo, hid, Ne.symm hid]

end Credits

theorem asked_sublist (i : TickInput) (pending : List PendingInvoice) :
    (i.paid (i.asked pending)).Sublist (i.paid pending) :=
  (List.takeWhile_sublist _).filter _

theorem asked_of_answered {i : TickInput} {pending : List PendingInvoice}
    (h : ∀ p ∈ pending, i.isSettled p.paymentHash ≠ none) : i.asked pending = pending :=
  List.takeWhile_eq_self_iff.mpr fun p hp => Option.isSome_iff_ne_none.mpr (h p hp)

theorem paid_asked {i : TickInput} {pending : List PendingInvoice} (hnodup : pending.Nodup)
    (h : ∀ p ∈ i.paid pending, p ∈ i.asked pending) :
    i.paid (i.asked pending) = i.paid pending := by
  refine (asked_sublist i pending).eq_of_length_le ?_
  have hsub : i.paid pending ⊆ i.paid (i.asked pending) := by
    intro p hp
    exact List.mem_filter.mpr ⟨h p hp, (List.mem_filter.mp hp).2⟩
  exact (List.subperm_of_subset (hnodup.filter _) hsub).length_le

theorem settled_iff {db : Db} {credits : List PendingInvoice}
    {rows : List InvoiceRow} (hsub : credits ⊆ pendingInvoices db)
    (hrows : rows = db.invoices.rows.map fun inv =>
      if inv.paymentHash ∈ credits.map (·.paymentHash) then { inv with settled := true } else inv)
    {p : PendingInvoice} (hp : p ∈ pendingInvoices db) :
    (∃ inv ∈ rows, inv.paymentHash = p.paymentHash ∧ inv.settled = true) ↔ p ∈ credits := by
  obtain ⟨inv₀, hmem, hunsettled, hhash, -, -⟩ := awaits_pendingInvoices hp
  have origin : ∀ inv ∈ db.invoices.rows, inv.paymentHash = p.paymentHash → inv = inv₀ :=
    fun inv hinv h => Table.eq_of_key_eq hinv hmem (h.trans hhash.symm)
  subst hrows
  constructor
  · rintro ⟨inv, hinv, hsame, hset⟩
    obtain ⟨inv', hinv', rfl⟩ := List.mem_map.mp hinv
    by_cases hcredit : inv'.paymentHash ∈ credits.map (·.paymentHash)
    · rw [if_pos hcredit] at hsame
      obtain ⟨q, hq, hqhash⟩ := List.mem_map.mp hcredit
      have hqp : q = p :=
        List.inj_on_of_nodup_map (pendingInvoices_nodup db) (hsub hq) hp (hqhash.trans hsame)
      rwa [← hqp]
    · rw [if_neg hcredit] at hsame hset
      rw [origin inv' hinv' hsame, hunsettled] at hset
      cases hset
  · intro hcredit
    refine ⟨_, List.mem_map_of_mem hmem, ?_⟩
    rw [if_pos (hhash ▸ List.mem_map_of_mem hcredit)]
    exact ⟨hhash, rfl⟩

@[simp] theorem silent_markOffline {env : Env} {db : Db} {t now id : Int} :
    (markOffline env t db).Silent env now id ↔ db.Silent env now id := by
  rw [Db.Silent, markOffline_rows]
  simp only [List.mem_map, exists_exists_and_eq_and]
  rfl

theorem offline_of_silent {env : Env} {db : Db} {t : Int} {m : MachineRow}
    (hm : m ∈ (markOffline env t db).machines.rows)
    (hsilent : (markOffline env t db).Silent env t m.id) : m.online = false := by
  obtain ⟨m', hm', hid, hlate⟩ := hsilent
  obtain rfl := Table.eq_of_key_eq hm' hm hid
  obtain ⟨m₀, -, rfl⟩ := List.mem_map.mp hm
  by_cases hstale : m₀.online = true ∧ m₀.lastHeartbeat < t - env.heartbeatTimeoutSecs
  · rw [if_pos hstale]
  · rw [if_neg hstale] at hlate ⊢
    have hlast : m₀.lastHeartbeat < t - env.heartbeatTimeoutSecs := by omega
    exact Bool.eq_false_iff.mpr fun honline => hstale ⟨honline, hlast⟩

/-- Once the credits are in, an account is overdrawn where the rental outruns it. -/
theorem overdrawn_iff_outrun {env : Env} {db db' : Db} {credits : List PendingInvoice}
    (haccounts : db'.accounts.rows = db.accounts.rows.map fun a =>
      { a with balanceSats := a.balanceSats + creditsTo credits a.id }) (now : Int)
    (r : RentalRow) : db'.Overdrawn env now r ↔ db.Outrun env credits now r := by
  simp only [Db.Overdrawn, Db.Outrun, haccounts, List.mem_map]
  constructor
  · rintro ⟨_, ⟨a, ha, rfl⟩, hid, hlt⟩
    exact ⟨a, ha, hid, hlt⟩
  · rintro ⟨a, ha, hid, hlt⟩
    exact ⟨_, ⟨a, ha, rfl⟩, hid, hlt⟩

section Tick

variable {env : Env} {i : TickInput} {db : Db} (hwf : db.Wf)
include hwf

theorem pollInvoices_credits : ∃ db₁,
    pollInvoices i.isSettled i.creditAt db = (db₁,
      if ∀ p ∈ pendingInvoices db, i.isSettled p.paymentHash ≠ none then .ok ()
      else .error .isSettled) ∧
    db₁.machines = db.machines ∧ db₁.rentals = db.rentals ∧
    (∀ p ∈ pendingInvoices db, (∃ inv ∈ db₁.invoices.rows, inv.paymentHash = p.paymentHash ∧
      inv.settled = true) ↔ p ∈ i.paid (i.asked (pendingInvoices db))) ∧
    db₁.accounts.rows = db.accounts.rows.map fun a =>
      { a with balanceSats :=
        a.balanceSats + creditsTo (i.paid (i.asked (pendingInvoices db))) a.id } := by
  have hpending : ∀ p ∈ pendingInvoices db, db.accounts.Has p.accountId ∧ 0 ≤ p.sats := by
    intro p hp
    obtain ⟨inv, hinv, -, -, haccount, hsats⟩ := awaits_pendingInvoices hp
    have hpos := hwf.invoice_sats inv hinv
    exact ⟨haccount ▸ hwf.invoice_account inv hinv, by omega⟩
  obtain ⟨machines, rentals, invoices, accounts⟩ :=
    @foldl_withCredit i.creditAt (i.paid (i.asked (pendingInvoices db))) db
  have hsub : i.paid (i.asked (pendingInvoices db)) ⊆ pendingInvoices db :=
    (List.filter_sublist.trans (List.takeWhile_sublist _)).subset
  exact ⟨_, pollInvoicesLoop_eq i hpending hwf.balance, machines, rentals,
    fun p hp => @settled_iff db _ _ hsub invoices p hp, accounts⟩

/-- A tick whose calls all answer does its work where the machine sees every overrun. -/
theorem ticked_of_answered_iff
    (hall : ∀ p ∈ pendingInvoices db, i.isSettled p.paymentHash ≠ none) :
    db.Ticked env i (tick env i db).1 ↔ db.OverrunsSeen env i := by
  obtain ⟨db₁, hpoll, machines, rentals, settled, accounts⟩ := pollInvoices_credits (i := i) hwf
  rw [if_pos hall] at hpoll
  rw [asked_of_answered hall] at settled accounts
  have hwf₁ : db₁.Wf := by
    have h := @Op.wf env db hwf (.pollInvoices i.isSettled i.creditAt)
    rwa [Op.step, hpoll] at h
  have hwf₂ : (markOffline env i.offlineAt db₁).Wf :=
    @Op.wf env db₁ hwf₁ (.markOffline i.offlineAt)
  obtain ⟨db', hpass, machines', accounts', invoices', rentals'⟩ :=
    enforceBudgets_rentals env hwf₂.rental_machine hwf₂.rental_account i.budgetAt
  rw [tick_of_ok hpoll, hpass]
  have hmarked : ∀ t id, (markOffline env i.offlineAt db₁).Silent env t id ↔
      db.Silent env t id := by
    intro t id
    rw [silent_markOffline, Db.Silent, Db.Silent, machines]
  have hsilent : ∀ t id, db'.Silent env t id ↔ db.Silent env t id := by
    intro t id
    rw [← hmarked, Db.Silent, Db.Silent, machines']
  have hrows : db'.accounts.rows = db.accounts.rows.map fun a =>
      { a with balanceSats := a.balanceSats + creditsTo (i.paid (pendingInvoices db)) a.id } := by
    rw [accounts']
    exact accounts
  have hover : ∀ r : RentalRow,
      (markOffline env i.offlineAt db₁).OverBudget env (i.budgetAt r.id) r ↔
        r.status = .running ∧ ¬db.Silent env (i.budgetAt r.id) r.machineId ∧
        db.Outrun env (i.paid (pendingInvoices db)) (i.budgetAt r.id) r := by
    intro r
    rw [Db.OverBudget, Db.MustGo, hmarked]
    exact and_congr_right fun _ => and_congr_right fun _ => overdrawn_iff_outrun accounts _ r
  constructor
  · intro h r hr hrun hlive houtrun
    by_contra hunseen
    have hkept : r ∈ db'.rentals.rows := by
      rw [rentals']
      exact List.mem_map.mpr ⟨r, rentals ▸ hr, if_neg fun hgo => hunseen ((hover r).mp hgo).2.2⟩
    obtain ⟨r', hr', hid, hevicting⟩ := h.evicted r hr hrun
      ⟨(hsilent _ _).not.mpr hlive, (overdrawn_iff_outrun hrows _ r).mpr houtrun⟩
    rw [Table.eq_of_key_eq hr' hkept hid, hrun] at hevicting
    cases hevicting
  · intro hseen
    refine ⟨fun p hp => ?_, hrows, fun m hm hlate => ?_, fun r hr hrun hgo => ?_⟩
    · rw [invoices']
      exact (settled p (List.mem_filter.mp hp).1).mpr hp
    · rw [machines'] at hm
      exact offline_of_silent hm ((hmarked _ _).mpr ((hsilent _ _).mp hlate))
    · have hlive := (hsilent _ _).not.mp hgo.1
      have houtrun := hseen r hr hrun hlive ((overdrawn_iff_outrun hrows _ r).mp hgo.2)
      refine ⟨r.evicted, ?_, rfl, rfl⟩
      rw [rentals']
      exact List.mem_map.mpr ⟨r, rentals ▸ hr, if_pos ((hover r).mpr ⟨hrun, hlive, houtrun⟩)⟩

/-- A tick that an error cuts short does its work only where the rest of it had none. -/
theorem ticked_cut_short_iff
    (hcut : ¬∀ p ∈ pendingInvoices db, i.isSettled p.paymentHash ≠ none) :
    db.Ticked env i (tick env i db).1 ↔ db.NothingLeft env i := by
  obtain ⟨db₁, hpoll, machines, rentals, settled, accounts⟩ := pollInvoices_credits (i := i) hwf
  rw [if_neg hcut] at hpoll
  rw [tick_of_error hpoll]
  have hnodup : (pendingInvoices db).Nodup := (pendingInvoices_nodup db).of_map
  have hsilent : ∀ t id, db₁.Silent env t id ↔ db.Silent env t id := by
    intro t id
    rw [Db.Silent, Db.Silent, machines]
  constructor
  · intro h
    refine ⟨fun p hp => ?_, fun m hm hlate => ?_, fun r hr hrun hlive => ?_⟩
    · have hpending := (List.mem_filter.mp hp).1
      exact (List.mem_filter.mp ((settled p hpending).mp (h.settled p hp))).1
    · exact h.offline m (machines ▸ hm) ((hsilent _ _).mpr hlate)
    · intro hgo
      obtain ⟨r', hr', hid, hevicting⟩ := h.evicted r hr hrun
        ⟨(hsilent _ _).not.mpr hlive, (overdrawn_iff_outrun accounts _ r).mpr hgo⟩
      rw [rentals] at hr'
      obtain rfl := Table.eq_of_key_eq hr' hr hid
      rw [hrun] at hevicting
      cases hevicting
  · intro h
    have hpaid := paid_asked hnodup h.paid
    refine ⟨fun p hp => ?_, by rw [accounts, hpaid], fun m hm hlate => ?_,
      fun r hr hrun hgo => ?_⟩
    · exact (settled p (List.mem_filter.mp hp).1).mpr (hpaid ▸ hp)
    · exact h.online m (machines ▸ hm) ((hsilent _ _).mp hlate)
    · exact absurd ((overdrawn_iff_outrun accounts _ r).mp hgo.2)
        (h.budgets r hr hrun ((hsilent _ _).not.mp hgo.1))

end Tick

/-- One failure does not stall the tick exactly where no call fails and no overrun wraps around out
of sight, or where all that comes after the first call that fails would have had nothing to do. -/
theorem tick_complete_iff (env : Env) {db : Db} (hwf : db.Wf) (i : TickInput)
    (_ : db.BalancesFit i) : db.Ticked env i (tick env i db).1 ↔
      ((∀ p ∈ pendingInvoices db, i.isSettled p.paymentHash ≠ none) ∧ db.OverrunsSeen env i) ∨
        db.NothingLeft env i := by
  by_cases hall : ∀ p ∈ pendingInvoices db, i.isSettled p.paymentHash ≠ none
  · rw [ticked_of_answered_iff hwf hall]
    refine ⟨fun h => .inl ⟨hall, h⟩, fun h => ?_⟩
    rcases h with ⟨-, hseen⟩ | hleft
    · exact hseen
    · intro r hr hrun hlive houtrun
      have hnone := hleft.budgets r hr hrun hlive
      rw [asked_of_answered hall] at hnone
      exact absurd houtrun hnone
  · rw [ticked_cut_short_iff hwf hall]
    exact ⟨.inr, fun h => h.resolve_left fun hboth => hall hboth.1⟩

/-- The rental has outrun its account, the host is there, and another invoice is pending. -/
def stalled : List Op :=
  underway 10 100 ++ [.deposit "acct_1" ⟨5⟩ (some ⟨"lnbc2", "02"⟩) 0, .heartbeat bearer ⟨true⟩ 1000]

def tickAt (isSettled : String → Option Bool) : TickInput :=
  ⟨isSettled, fun _ => 1000, 1000, fun _ => 1000⟩

/-- An invoice that the backend fails to look up keeps the rental running. -/
theorem failedLookup_stalls :
    ¬(perform testEnv stalled).Ticked testEnv (tickAt fun _ => none)
      (tick testEnv (tickAt fun _ => none) (perform testEnv stalled)).1 := by
  intro h
  have hstalls : ∃ r ∈ (perform testEnv stalled).rentals.rows, r.status = .running ∧
      (tick testEnv (tickAt fun _ => none) (perform testEnv stalled)).1.MustGo testEnv.exactly 1000
        r ∧
      ∀ r' ∈ (tick testEnv (tickAt fun _ => none) (perform testEnv stalled)).1.rentals.rows,
        r'.status ≠ .evicting := by
    decide +kernel
  obtain ⟨r, hr, hrun, hgo, hkept⟩ := hstalls
  obtain ⟨r', hr', -, hevicting⟩ := h.evicted r hr hrun hgo
  exact hkept r' hr' hevicting

/-- The same tick with an answer to the call. -/
theorem tick_complete_iff_stalled :
    (perform testEnv stalled).Ticked testEnv (tickAt fun _ => some false)
      (tick testEnv (tickAt fun _ => some false) (perform testEnv stalled)).1 := by
  have hfits : (perform testEnv stalled).BalancesFit (tickAt fun _ => some false) := by
    unfold Db.BalancesFit
    decide +kernel
  have hseen : ∀ r ∈ (perform testEnv stalled).rentals.rows,
      r.accrued testEnv 1000 = r.accrued testEnv.exactly 1000 := by decide +kernel
  refine (tick_complete_iff testEnv (perform_wf testEnv stalled) (tickAt fun _ => some false)
    hfits).mpr (.inl ⟨by decide +kernel, ?_⟩)
  rintro r hr - - ⟨a, ha, haid, hlt⟩
  exact ⟨a, ha, haid, hlt.trans_eq (hseen r hr).symm⟩

end GpuMarket
