import GpuMarket.ControlPlane.Evictions

namespace GpuMarket

open Lib

instance (env : Env) (db : Db) (now : Int) (r : RentalRow) : Decidable (db.Overdrawn env now r) :=
  inferInstanceAs (Decidable (∃ a ∈ db.accounts.rows, _ ∧ _))

/-- A pass that comes to the rental evicts it. -/
def Db.MustGo (env : Env) (db : Db) (now : Int) (r : RentalRow) : Prop :=
  ¬db.Silent env now r.machineId ∧ db.Overdrawn env now r

instance (env : Env) (db : Db) (now : Int) (r : RentalRow) : Decidable (db.MustGo env now r) :=
  inferInstanceAs (Decidable (_ ∧ _))

/-- The rental runs, its machine is not silent, and it has accrued more than its account holds. -/
def Db.OverBudget (env : Env) (db : Db) (now : Int) (r : RentalRow) : Prop :=
  r.status = .running ∧ db.MustGo env now r

instance (env : Env) (db : Db) (now : Int) (r : RentalRow) :
    Decidable (db.OverBudget env now r) :=
  inferInstanceAs (Decidable (_ ∧ _))

def RentalRow.evicted (r : RentalRow) : RentalRow :=
  { r with status := .evicting, error := some "insufficient balance" }

def Db.withEviction (env : Env) (now : Int) (db : Db) (r : RentalRow) : Db :=
  ((db.updateRental r.id (·.evicted) fun _ => rfl).withCommand r.machineId
    (env.serde.toString (.stopRental r.id)) now).record now .evict 0 (some r.accountId) none
      (some r.id) (some "insufficient balance")

theorem evictTx_of_has {env : Env} {now : Int} {db : Db} {r : RentalRow}
    (h : db.machines.Has r.machineId) : evictTx env r now db = .ok (db.withEviction env now r) := by
  simp only [evictTx, Db.insertCommand, Db.updateRental, h, if_true]
  rfl

section Loop

variable {env : Env} {now : Int → Int}

theorem enforceBudgetsLoop_cons {db : Db} {r : RentalRow} {rest : List RentalRow}
    (hm : db.machines.Has r.machineId) (ha : db.accounts.Has r.accountId) :
    enforceBudgetsLoop env now (r :: rest) db =
      enforceBudgetsLoop env now rest
        (if db.MustGo env (now r.id) r then db.withEviction env (now r.id) r else db) := by
  obtain ⟨m, hmem, hmid, hlast⟩ := lastHeartbeat_of_has hm
  obtain ⟨a, hamem, haid, hbal⟩ := balanceOf_of_has ha
  have hsilent : db.Silent env (now r.id) r.machineId ↔
      now r.id - m.lastHeartbeat > env.heartbeatTimeoutSecs := by
    refine ⟨fun ⟨m', hm', hid, h⟩ => ?_, fun h => ⟨m, hmem, hmid, h⟩⟩
    rw [← Table.eq_of_key_eq hm' hmem (hid.trans hmid.symm)]
    exact h
  have hover : db.Overdrawn env (now r.id) r ↔
      ¬accruedCharge env.arith r.createdAt (now r.id) r.rateSatsPerMin ≤ a.balanceSats := by
    refine ⟨fun ⟨a', ha', hid, h⟩ => ?_, fun h => ⟨a, hamem, haid, not_le.mp h⟩⟩
    rw [← Table.eq_of_key_eq ha' hamem (hid.trans haid.symm)]
    exact not_le.mpr h
  simp only [enforceBudgetsLoop, hlast, hbal, Db.MustGo, hsilent, hover]
  by_cases hs : now r.id - m.lastHeartbeat > env.heartbeatTimeoutSecs
  · simp only [hs, if_true, not_true_eq_false, false_and, if_false]
  · by_cases hw : accruedCharge env.arith r.createdAt (now r.id) r.rateSatsPerMin ≤ a.balanceSats
    · simp only [hs, hw, if_true, if_false, not_true_eq_false, and_false]
    · simp only [hs, hw, if_false, if_true, not_false_eq_true, and_self, evictTx_of_has hm]

theorem enforceBudgetsLoop_eq {db : Db} {running : List RentalRow}
    (h : ∀ r ∈ running, db.machines.Has r.machineId ∧ db.accounts.Has r.accountId) :
    enforceBudgetsLoop env now running db =
      ((running.filter fun r => db.MustGo env (now r.id) r).foldl
        (fun db r => db.withEviction env (now r.id) r) db, .ok ()) := by
  have loop : ∀ db' : Db, db'.machines = db.machines → db'.accounts = db.accounts →
      enforceBudgetsLoop env now running db' =
        ((running.filter fun r => db.MustGo env (now r.id) r).foldl
          (fun db r => db.withEviction env (now r.id) r) db', .ok ()) := by
    induction running with
    | nil => exact fun _ _ _ => rfl
    | cons r rest ih =>
      intro db' hm ha
      obtain ⟨⟨hrm, hra⟩, hrest⟩ := List.forall_mem_cons.mp h
      have hsame : db'.MustGo env (now r.id) r ↔ db.MustGo env (now r.id) r := by
        simp only [Db.MustGo, Db.Silent, Db.Overdrawn, hm, ha]
      rw [enforceBudgetsLoop_cons (hm ▸ hrm) (ha ▸ hra)]
      by_cases hgo : db.MustGo env (now r.id) r
      · rw [if_pos (hsame.mpr hgo), List.filter_cons_of_pos (by simpa using hgo), List.foldl_cons]
        exact ih hrest _ hm ha
      · rw [if_neg (hsame.not.mpr hgo), List.filter_cons_of_neg (by simpa using hgo)]
        exact ih hrest _ hm ha
  exact loop db rfl rfl

theorem foldl_withEviction (gone : List RentalRow) (db : Db) :
    let db' := gone.foldl (fun db r => db.withEviction env (now r.id) r) db
    db'.machines = db.machines ∧ db'.accounts = db.accounts ∧ db'.invoices = db.invoices ∧
      db'.rentals.rows =
        db.rentals.rows.map fun r => if r.id ∈ gone.map (·.id) then r.evicted else r := by
  induction gone generalizing db with
  | nil => simp
  | cons r gone ih =>
    obtain ⟨machines, accounts, invoices, rentals⟩ := ih (db.withEviction env (now r.id) r)
    refine ⟨machines, accounts, invoices, ?_⟩
    have hfirst : (db.withEviction env (now r.id) r).rentals.rows =
        db.rentals.rows.map fun r' => if r'.id = r.id then r'.evicted else r' := rfl
    rw [List.foldl_cons, rentals, hfirst, List.map_map]
    refine List.map_congr_left fun r' _ => ?_
    by_cases hid : r'.id = r.id
    · have hagain : r'.evicted.evicted = r'.evicted := rfl
      have hsame : r'.evicted.id = r'.id := rfl
      simp [hid, hagain, hsame]
    · simp [hid]

end Loop

def CommandRow.content (c : CommandRow) : Int × String × Bool × Int :=
  (c.machineId, c.payload, c.delivered, c.createdAt)

def RentalRow.stopContent (env : Env) (now : Int) (r : RentalRow) : Int × String × Bool × Int :=
  (r.machineId, env.serde.toString (.stopRental r.id), false, now)

def RentalRow.evictEntry (now : Int) (r : RentalRow) : LedgerRow :=
  ⟨now, some r.accountId, none, some r.id, 0, .evict, some "insufficient balance"⟩

/-- What is left of the tables by the evictions of some rentals. -/
structure Db.Evicts (env : Env) (now : Int) (db db' : Db) (gone : List RentalRow) : Prop where
  machines : db'.machines = db.machines
  accounts : db'.accounts = db.accounts
  invoices : db'.invoices = db.invoices
  rentals : db'.rentals.rows =
    db.rentals.rows.map fun r => if r.id ∈ gone.map (·.id) then r.evicted else r
  ledger : db'.ledger = db.ledger ++ gone.map (·.evictEntry now)
  commands : ∃ rows, db'.commands.rows = db.commands.rows ++ rows ∧
    rows.map (·.content) = gone.map (·.stopContent env now)

theorem Db.evicts_foldl (env : Env) (now : Int) (gone : List RentalRow) (db : Db) :
    db.Evicts env now (gone.foldl (Db.withEviction env now) db) gone := by
  have ledger : ∀ db : Db, (gone.foldl (Db.withEviction env now) db).ledger =
      db.ledger ++ gone.map (·.evictEntry now) := by
    induction gone with
    | nil => exact fun _ => (List.append_nil _).symm
    | cons r gone ih =>
      intro db
      rw [List.foldl_cons, ih]
      simp [Db.withEviction, Db.record, Db.withCommand, Db.updateRental, RentalRow.evictEntry]
  have commands : ∀ db : Db, ∃ rows, (gone.foldl (Db.withEviction env now) db).commands.rows =
      db.commands.rows ++ rows ∧ rows.map (·.content) = gone.map (·.stopContent env now) := by
    clear ledger
    induction gone with
    | nil => exact fun _ => ⟨[], (List.append_nil _).symm, rfl⟩
    | cons r gone ih =>
      intro db
      obtain ⟨rows, commands, hrows⟩ := ih (db.withEviction env now r)
      refine ⟨.queued r.machineId (env.serde.toString (.stopRental r.id)) now
        db.commands.nextId :: rows, ?_, ?_⟩
      · rw [List.foldl_cons, commands]
        simp [Db.withEviction, Db.record, Db.withCommand, Db.updateRental]
      · rw [List.map_cons, List.map_cons, hrows]
        rfl
  obtain ⟨machines, accounts, invoices, rentals⟩ :=
    @foldl_withEviction env (fun _ => now) gone db
  exact ⟨machines, accounts, invoices, rentals, ledger db, commands db⟩

theorem mem_gone_iff {env : Env} {db : Db} {now : Int → Int} {order : List RentalRow}
    (horder : order.Perm (runningRentals db)) {r : RentalRow} (hr : r ∈ db.rentals.rows) :
    r.id ∈ (order.filter fun r => db.MustGo env (now r.id) r).map (·.id) ↔
      db.OverBudget env (now r.id) r := by
  constructor
  · intro hmem
    obtain ⟨r', hr', hid⟩ := List.mem_map.mp hmem
    obtain ⟨hr', hgo⟩ := List.mem_filter.mp hr'
    obtain ⟨hrow, hrun⟩ := mem_runningRentals.mp (horder.mem_iff.mp hr')
    obtain rfl := Table.eq_of_key_eq hrow hr hid
    exact ⟨hrun, of_decide_eq_true hgo⟩
  · rintro ⟨hrun, hgo⟩
    have hmem : r ∈ order := horder.mem_iff.mpr (mem_runningRentals.mpr ⟨hr, hrun⟩)
    exact List.mem_map_of_mem (List.mem_filter.mpr ⟨hmem, decide_eq_true hgo⟩)

theorem enforceBudgets_rentals (env : Env) {db : Db}
    (hmachine : ∀ r ∈ db.rentals.rows, db.machines.Has r.machineId)
    (haccount : ∀ r ∈ db.rentals.rows, db.accounts.Has r.accountId) (now : Int → Int) :
    ∃ db', enforceBudgets env now db = (db', .ok ()) ∧ db'.machines = db.machines ∧
      db'.accounts = db.accounts ∧ db'.invoices = db.invoices ∧
      db'.rentals.rows = db.rentals.rows.map fun r =>
        if db.OverBudget env (now r.id) r then r.evicted else r := by
  have hloop : enforceBudgets env now db = _ := enforceBudgetsLoop_eq fun r hr =>
    have hrow := (mem_runningRentals.mp hr).1
    ⟨hmachine r hrow, haccount r hrow⟩
  obtain ⟨machines, accounts, invoices, rentals⟩ := @foldl_withEviction env now
    ((runningRentals db).filter fun r => db.MustGo env (now r.id) r) db
  refine ⟨_, hloop, machines, accounts, invoices, rentals.trans (List.map_congr_left ?_)⟩
  exact fun r hr => if_congr (mem_gone_iff (List.Perm.refl _) hr) rfl rfl

theorem gone_perm {env : Env} {db : Db} {now : Int} {order : List RentalRow}
    (horder : order.Perm (runningRentals db)) :
    (order.filter fun r => db.MustGo env now r).Perm
      (db.rentals.rows.filter fun r => db.OverBudget env now r) := by
  refine (horder.filter _).trans (List.Perm.of_eq ?_)
  rw [runningRentals, List.filter_filter]
  refine List.filter_congr fun r _ => ?_
  rw [Bool.eq_iff_iff, Bool.and_eq_true, decide_eq_true_eq, decide_eq_true_eq, decide_eq_true_eq]
  exact and_comm

namespace Db.Evicts

variable {env : Env} {db db' : Db} {now : Int} {gone : List RentalRow}
  (h : db.Evicts env now db' gone)
  (hgone : ∀ r ∈ db.rentals.rows, r.id ∈ gone.map (·.id) ↔ db.OverBudget env now r)
include h hgone

theorem rows : db'.rentals.rows = db.rentals.rows.map fun r =>
    if db.OverBudget env now r then r.evicted else r := by
  rw [h.rentals]
  exact List.map_congr_left fun r hr => if_congr (hgone r hr) rfl rfl

theorem origin {r' : RentalRow} (hr' : r' ∈ db'.rentals.rows) : ∃ r ∈ db.rentals.rows,
    r' = if db.OverBudget env now r then r.evicted else r := by
  rw [h.rows hgone] at hr'
  obtain ⟨r, hr, heq⟩ := List.mem_map.mp hr'
  exact ⟨r, hr, heq.symm⟩

theorem changed_iff {r : RentalRow} (hr : r ∈ db.rentals.rows) :
    r ∉ db'.rentals.rows ↔ db.OverBudget env now r := by
  constructor
  · intro hnot
    by_contra hkeep
    refine hnot ?_
    rw [h.rows hgone]
    exact List.mem_map.mpr ⟨r, hr, if_neg hkeep⟩
  · intro hover hmem
    obtain ⟨r₀, hr₀, heq⟩ := h.origin hgone hmem
    have hid : r₀.id = r.id := by rw [heq]; split <;> rfl
    obtain rfl := Table.eq_of_key_eq hr₀ hr hid
    rw [if_pos hover] at heq
    have hstatus := hover.1
    rw [heq] at hstatus
    cases hstatus

theorem left {r' : RentalRow} (hr' : r' ∈ db'.rentals.rows) (hrun : r'.status = .running) :
    r' ∈ db.rentals.rows ∧ ¬db'.MustGo env now r' := by
  obtain ⟨r, hr, rfl⟩ := h.origin hgone hr'
  by_cases hover : db.OverBudget env now r
  · rw [if_pos hover] at hrun
    cases hrun
  · rw [if_neg hover] at hrun ⊢
    refine ⟨hr, fun hgo => hover ⟨hrun, ?_⟩⟩
    simpa only [Db.MustGo, Db.Silent, Db.Overdrawn, h.machines, h.accounts] using hgo

end Db.Evicts

/-- The two silence tests agree. -/
theorem markOffline_rows (env : Env) (db : Db) (t : Int) :
    (markOffline env t db).machines.rows = db.machines.rows.map fun m =>
      { m with online := decide (m.online = true ∧ ¬db.Silent env t m.id) } := by
  rw [markOffline, Db.setOffline, Table.rows_mapRows]
  refine List.map_congr_left fun m hm => ?_
  have hsilent : db.Silent env t m.id ↔ m.lastHeartbeat < t - env.heartbeatTimeoutSecs := by
    constructor
    · rintro ⟨m', hm', hid, h⟩
      rw [← Table.eq_of_key_eq hm' hm hid]
      omega
    · exact fun h => ⟨m, hm, rfl, by omega⟩
  simp only [hsilent]
  cases honline : m.online with
  | false =>
    simp only [Bool.false_eq_true, false_and, if_false, decide_false]
    rw [← honline]
  | true =>
    by_cases hlate : m.lastHeartbeat < t - env.heartbeatTimeoutSecs
    · simp only [hlate, and_self, if_true, not_true_eq_false, and_false, decide_false]
    · simp only [hlate, and_false, if_false, not_false_eq_true, and_self, decide_true]
      rw [← honline]

/-- A pass over the running rentals, in whatever order, evicts exactly those that are over budget,
with one stop command and one ledger row each, and leaves everything else as it is; a second pass
at the same time changes nothing. The machines that `markOffline` leaves online are the ones that
were and are not silent by the same test. -/
theorem budgets_enforced_exactly (env : Env) {db : Db}
    (hmachine : ∀ r ∈ db.rentals.rows, db.machines.Has r.machineId)
    (haccount : ∀ r ∈ db.rentals.rows, db.accounts.Has r.accountId) (t : Int) :
    (∀ order, order.Perm (runningRentals db) →
      ∃ db', enforceBudgetsLoop env (fun _ => t) order db = (db', .ok ()) ∧
        db'.machines = db.machines ∧ db'.accounts = db.accounts ∧ db'.invoices = db.invoices ∧
        (db'.rentals.rows = db.rentals.rows.map fun r =>
          if db.OverBudget env t r then
            { r with status := .evicting, error := some "insufficient balance" }
          else r) ∧
        (∀ r ∈ db.rentals.rows, r ∉ db'.rentals.rows ↔ db.OverBudget env t r) ∧
        (∃ rows, db'.ledger = db.ledger ++ rows ∧ rows.Perm
          ((db.rentals.rows.filter fun r => db.OverBudget env t r).map fun r =>
            ⟨t, some r.accountId, none, some r.id, 0, .evict, some "insufficient balance"⟩)) ∧
        (∃ rows, db'.commands.rows = db.commands.rows ++ rows ∧ (rows.map (·.content)).Perm
          ((db.rentals.rows.filter fun r => db.OverBudget env t r).map fun r =>
            (r.machineId, env.serde.toString (.stopRental r.id), false, t))) ∧
        ∀ again, again.Perm (runningRentals db') →
          enforceBudgetsLoop env (fun _ => t) again db' = (db', .ok ())) ∧
    (markOffline env t db).machines.rows = db.machines.rows.map fun m =>
      { m with online := decide (m.online = true ∧ ¬db.Silent env t m.id) } := by
  refine ⟨fun order horder => ?_, markOffline_rows env db t⟩
  have hgone : ∀ r ∈ db.rentals.rows,
      r.id ∈ (order.filter fun r => db.MustGo env t r).map (·.id) ↔ db.OverBudget env t r :=
    fun r hr => @mem_gone_iff env db (fun _ => t) order horder r hr
  have hperm := @gone_perm env db t order horder
  have hloop : enforceBudgetsLoop env (fun _ => t) order db = _ :=
    enforceBudgetsLoop_eq fun r hr =>
      have hrow := (mem_runningRentals.mp (horder.mem_iff.mp hr)).1
      ⟨hmachine r hrow, haccount r hrow⟩
  have hevicts := db.evicts_foldl env t (order.filter fun r => db.MustGo env t r)
  generalize (order.filter fun r => db.MustGo env t r) = gone at hgone hperm hloop hevicts
  generalize gone.foldl (Db.withEviction env t) db = db' at hloop hevicts
  obtain ⟨rows, commands, hrows⟩ := hevicts.commands
  refine ⟨db', hloop, hevicts.machines, hevicts.accounts, hevicts.invoices, hevicts.rows hgone,
    fun r hr => hevicts.changed_iff hgone hr, ⟨_, hevicts.ledger, hperm.map _⟩,
    ⟨rows, commands, hrows ▸ hperm.map _⟩, fun again hagain => ?_⟩
  have left : ∀ r ∈ again, r ∈ db.rentals.rows ∧ ¬db'.MustGo env t r := by
    intro r hr
    obtain ⟨hrow, hrun⟩ := mem_runningRentals.mp (hagain.mem_iff.mp hr)
    exact hevicts.left hgone hrow hrun
  have none_gone : (again.filter fun r => db'.MustGo env t r) = [] :=
    List.filter_eq_nil_iff.mpr fun r hr => by simpa using (left r hr).2
  rw [enforceBudgetsLoop_eq, none_gone, List.foldl_nil]
  intro r hr
  rw [hevicts.machines, hevicts.accounts]
  exact ⟨hmachine r (left r hr).1, haccount r (left r hr).1⟩

/-- The rental that has outrun its account goes, and only once. -/
theorem budgets_enforced_exactly_overrun :
    let db := (serve testEnv overrun).store
    ∃ r ∈ db.rentals.rows, db.OverBudget testEnv 240 r ∧
      ∃ db', enforceBudgets testEnv (fun _ => 240) db = (db', .ok ()) ∧ r ∉ db'.rentals.rows ∧
        enforceBudgets testEnv (fun _ => 240) db' = (db', .ok ()) := by
  intro db
  obtain ⟨hmachine, haccount, r, hr, hover⟩ :
      (∀ r ∈ db.rentals.rows, db.machines.Has r.machineId) ∧
      (∀ r ∈ db.rentals.rows, db.accounts.Has r.accountId) ∧
      ∃ r ∈ db.rentals.rows, db.OverBudget testEnv 240 r := by decide +kernel
  obtain ⟨db', hpass, -, -, -, -, hgone, -, -, hagain⟩ :=
    (budgets_enforced_exactly testEnv hmachine haccount 240).1 _ (List.Perm.refl _)
  exact ⟨r, hr, hover, db', hpass, (hgone r hr).mpr hover, hagain _ (List.Perm.refl _)⟩

end GpuMarket
