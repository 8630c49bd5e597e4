import GpuMarket.ControlPlane.Rentals
import GpuMarket.ControlPlane.Sequential

namespace GpuMarket

open Lib

/-- The machine has not sent a heartbeat within the timeout. -/
def Db.Silent (env : Env) (db : Db) (now machineId : Int) : Prop :=
  ∃ m ∈ db.machines.rows, m.id = machineId ∧ env.heartbeatTimeoutSecs < now - m.lastHeartbeat

instance (env : Env) (db : Db) (now machineId : Int) : Decidable (db.Silent env now machineId) :=
  inferInstanceAs (Decidable (∃ m ∈ db.machines.rows, _ ∧ _))

/-- The account of a rental can pay what the rental has accrued. -/
def Db.Affords (env : Env) (db : Db) (now : Int) (r : RentalRow) : Prop :=
  ∀ a ∈ db.accounts.rows, a.id = r.accountId → r.accrued env now ≤ a.balanceSats

def Db.metered (env : Env) (db : Db) (now : Int) (accountId : String) : List RentalRow :=
  db.rentals.rows.filter fun r =>
    r.accountId = accountId ∧ r.status = .running ∧ ¬db.Silent env now r.machineId

theorem lastHeartbeat_of_has {db : Db} {id : Int} (h : db.machines.Has id) :
    ∃ m ∈ db.machines.rows, m.id = id ∧ lastHeartbeat db id = .ok m.lastHeartbeat := by
  obtain ⟨m, hfind, hm, hid⟩ := Table.find?_of_has h
  exact ⟨m, hm, hid, by rw [lastHeartbeat, hfind]⟩

theorem balanceOf_of_has {db : Db} {id : String} (h : db.accounts.Has id) :
    ∃ a ∈ db.accounts.rows, a.id = id ∧ db.balanceOf id = .ok a.balanceSats := by
  obtain ⟨a, hfind, ha, hid⟩ := Table.find?_of_has h
  exact ⟨a, ha, hid, by rw [Db.balanceOf, hfind]⟩

theorem evictTx_of_runs {env : Env} {r : RentalRow} {now : Int} {db : Db} (hwf : db.Wf)
    (hr : db.Runs r) : ∃ db', evictTx env r now db = .ok db' ∧ db'.Wf ∧ db.Extends db' ∧
      db'.machines = db.machines ∧ db'.accounts = db.accounts ∧
      ∀ r' ∈ db'.rentals.rows, r'.status = .running → r' ∈ db.rentals.rows ∧ r'.id ≠ r.id := by
  have hm := hr.1.machine hwf
  obtain ⟨db', htx⟩ : ∃ db', evictTx env r now db = .ok db' := by
    simp only [evictTx, Db.insertCommand, Db.updateRental, hm, if_true]
    exact ⟨_, rfl⟩
  have hx := evictTx_exec htx
  obtain ⟨-, rfl⟩ := evict_ok hx
  refine ⟨_, htx, @Db.Wf.exec env (.evict r now) _ _ _ hwf hr hx, Db.Extends.exec hx, rfl, rfl, ?_⟩
  intro r' hr' hrun
  obtain ⟨r₀, hr₀, rfl⟩ := List.mem_map.mp hr'
  by_cases hid : r₀.id = r.id
  · simp [hid] at hrun
  · simpa [hid] using hr₀

theorem enforceBudgetsLoop_ok {env : Env} {t : Int} {running : List RentalRow} {db : Db}
    (hwf : db.Wf) (hall : ∀ r ∈ running, db.Runs r) :
    ∃ db', enforceBudgetsLoop env (fun _ => t) running db = (db', .ok ()) ∧ db'.Wf ∧
      db'.machines = db.machines ∧ db'.accounts = db.accounts ∧
      ∀ r ∈ db'.rentals.rows, r.status = .running → r ∈ db.rentals.rows ∧
        (r ∈ running → db.Silent env t r.machineId ∨ db.Affords env t r) := by
  induction running generalizing db with
  | nil => exact ⟨db, rfl, hwf, rfl, rfl, fun r hr _ => ⟨hr, fun h => absurd h List.not_mem_nil⟩⟩
  | cons r rest ih =>
    have hr := hall r (List.mem_cons_self ..)
    have hrest : ∀ r' ∈ rest, db.Runs r' := fun r' hr' => hall r' (List.mem_cons_of_mem _ hr')
    -- the pass goes on to the next rental, and this one stays
    have skip : db.Silent env t r.machineId ∨ db.Affords env t r →
        ∃ db', enforceBudgetsLoop env (fun _ => t) rest db = (db', .ok ()) ∧ db'.Wf ∧
          db'.machines = db.machines ∧ db'.accounts = db.accounts ∧
          ∀ r' ∈ db'.rentals.rows, r'.status = .running → r' ∈ db.rentals.rows ∧
            (r' ∈ r :: rest → db.Silent env t r'.machineId ∨ db.Affords env t r') := by
      intro hkeep
      obtain ⟨db', hloop, hwf', hm, ha, hleft⟩ := ih hwf hrest
      refine ⟨db', hloop, hwf', hm, ha, fun r' hr' hrun => ?_⟩
      obtain ⟨hmem, hsafe⟩ := hleft r' hr' hrun
      refine ⟨hmem, fun hin => ?_⟩
      rcases List.mem_cons.mp hin with rfl | hin
      · exact hkeep
      · exact hsafe hin
    obtain ⟨cur, hcur, hid, hcm, hca, -⟩ := hr.1.row
    obtain ⟨m, hm, hmid, hlast⟩ := lastHeartbeat_of_has (hcm ▸ hwf.rental_machine cur hcur)
    obtain ⟨a, ha, haid, hbal⟩ := balanceOf_of_has (hca ▸ hwf.rental_account cur hcur)
    simp only [enforceBudgetsLoop, hlast]
    split
    case isTrue hsilent => exact skip (.inl ⟨m, hm, hmid, hsilent⟩)
    case isFalse hlive =>
      simp only [hbal]
      split
      case isTrue hwithin =>
        refine skip (.inr fun a' ha' haid' => ?_)
        rwa [Table.eq_of_key_eq (t := db.accounts) ha' ha (haid'.trans haid.symm)]
      case isFalse hover =>
        obtain ⟨db₁, htx, hwf₁, hext, hm₁, ha₁, hleft₁⟩ :=
          @evictTx_of_runs env r t db hwf hr
        obtain ⟨db', hloop, hwf', hm', ha', hleft⟩ :=
          ih hwf₁ fun r' hr' => (hrest r' hr').mono hext
        simp only [htx]
        refine ⟨db', hloop, hwf', hm'.trans hm₁, ha'.trans ha₁, fun r' hr' hrun => ?_⟩
        obtain ⟨hmem₁, hsafe⟩ := hleft r' hr' hrun
        obtain ⟨hmem, hne⟩ := hleft₁ r' hmem₁ hrun
        refine ⟨hmem, fun hin => ?_⟩
        rcases List.mem_cons.mp hin with rfl | hin
        · exact absurd rfl hne
        · simpa only [Db.Silent, Db.Affords, hm₁, ha₁] using hsafe hin

theorem enforceBudgets_ok {env : Env} {t : Int} {db : Db} (hwf : db.Wf) :
    ∃ db', enforceBudgets env (fun _ => t) db = (db', .ok ()) ∧ db'.Wf ∧
      ∀ r ∈ db'.rentals.rows, r.status = .running → ¬db'.Silent env t r.machineId →
        db'.Affords env t r := by
  obtain ⟨db', hpass, hwf', hm, ha, hleft⟩ := @enforceBudgetsLoop_ok env t (runningRentals db) db
    hwf fun _ => runs_runningRentals
  refine ⟨db', hpass, hwf', fun r hr hrun hlive => ?_⟩
  obtain ⟨hmem, hsafe⟩ := hleft r hr hrun
  simp only [Db.Silent, Db.Affords, hm, ha] at hlive ⊢
  exact (hsafe (mem_runningRentals.mpr ⟨hmem, hrun⟩)).resolve_left hlive

theorem report_charges_accrued {env : Env} {db db' : Db} {auth : Option String}
    {req : ReportRequest} {t : Int} {v : Reply} {r : RentalRow} (hr : r ∈ db.rentals.rows)
    (hlive : r.status.isTerminal = false) (hafford : db.Affords env t r)
    (hreq : req.rentalId = r.id) (hstop : req.status.isTerminal = true)
    (hx : report env auth req t db = .ok (db', v)) {r' : RentalRow} (hr' : r' ∈ db'.rentals.rows)
    (hid : r'.id = r.id) : r'.satsCharged = r.accrued env t := by
  obtain ⟨machine, hm, hx⟩ := bind_eq_ok.mp hx
  obtain ⟨rental, hrental, hx⟩ := bind_eq_ok.mp hx
  obtain ⟨hmem, hrid, hmachine⟩ := rentalOfMachine_ok hrental
  obtain rfl := Table.eq_of_key_eq hmem hr (hrid.trans hreq)
  have hset : settles rental req = true := by simp [settles, hstop, hlive]
  obtain ⟨hnot, -⟩ | ⟨-, a, ha, haid, rfl⟩ := reportTx_ok hx
  · rw [hset] at hnot
    cases hnot
  · obtain ⟨r₀, hr₀, hsame, rfl⟩ := Db.mem_updateRental hr'
    rw [if_pos (hsame.symm.trans hid)]
    exact min_eq_left (hafford a ha haid)

/-- After a pass at `t` that has run to its end, every rental that still runs on a machine that is
not silent is affordable on its own, so that stopping it at `t` charges all it has accrued, and the
rentals of one account have together accrued at most its balance for each of them. -/
theorem budgets_enforced_per_rental (env : Env) (acts : List ServerAct) (t : Int) {db : Db}
    (hpass : enforceBudgets env (fun _ => t) (serve env acts).store = (db, .ok ())) :
    ∀ a ∈ db.accounts.rows,
      (∀ r ∈ db.metered env t a.id, r.accrued env t ≤ a.balanceSats ∧
        ∀ auth req db' v, req.rentalId = r.id → req.status.isTerminal = true →
          report env auth req t db = .ok (db', v) →
            ∀ r' ∈ db'.rentals.rows, r'.id = r.id → r'.satsCharged = r.accrued env t) ∧
      ((db.metered env t a.id).map (·.accrued env t)).sum ≤
        (db.metered env t a.id).length * a.balanceSats := by
  have hwf : (serve env acts).store.Wf := ((init_holds env).run _ acts).inv
  obtain ⟨db', hpass', -, hsafe⟩ := @enforceBudgets_ok env t _ hwf
  obtain rfl : db' = db := (Prod.mk.inj (hpass'.symm.trans hpass)).1
  intro a ha
  have within : ∀ r ∈ db'.metered env t a.id, r ∈ db'.rentals.rows ∧ r.status = .running ∧
      r.accountId = a.id ∧ db'.Affords env t r := by
    intro r hr
    obtain ⟨hmem, hr⟩ := List.mem_filter.mp hr
    obtain ⟨haccount, hrun, hlive⟩ := of_decide_eq_true hr
    exact ⟨hmem, hrun, haccount, hsafe r hmem hrun hlive⟩
  constructor
  · intro r hr
    obtain ⟨hmem, hrun, haccount, hafford⟩ := within r hr
    refine ⟨hafford a ha haccount.symm, ?_⟩
    intro auth req db₁ v hreq hstop hx r' hr' hid
    exact report_charges_accrued hmem (by rw [hrun]; rfl) hafford hreq hstop hx hr' hid
  · have bound := List.sum_le_card_nsmul ((db'.metered env t a.id).map (·.accrued env t))
      a.balanceSats (by
        intro x hx
        obtain ⟨r, hr, rfl⟩ := List.mem_map.mp hx
        obtain ⟨-, -, haccount, hafford⟩ := within r hr
        exact hafford a ha haccount.symm)
    simpa using bound

/-- A rental of a live host. -/
def halfway : List ServerAct :=
  opening 30 ++
  call 3 (.createRental ⟨1, "acct_1", "nvidia/cuda:latest", some "ssh-ed25519 AAAA"⟩) [{}] ++
  call 4 (.report bearer { rentalId := 1, status := .running }) [{}, {}, {}] ++
  call 5 (.heartbeat bearer ⟨true⟩) [{ now := 120 }, {}]

/-- A pass two minutes into the rental of a machine at 10 sats a minute: 20 sats have accrued. -/
theorem budgets_enforced_per_rental_halfway :
    ∃ db, enforceBudgets testEnv (fun _ => 120) (serve testEnv halfway).store = (db, .ok ()) ∧
      ∀ a ∈ db.accounts.rows,
        ((db.metered testEnv 120 a.id).map (·.accrued testEnv 120)).sum ≤
          (db.metered testEnv 120 a.id).length * a.balanceSats := by
  have hwf : (serve testEnv halfway).store.Wf := ((init_holds testEnv).run _ halfway).inv
  obtain ⟨db, hpass, -⟩ := @enforceBudgets_ok testEnv 120 _ hwf
  exact ⟨db, hpass, fun a ha => (budgets_enforced_per_rental testEnv halfway 120 hpass a ha).2⟩

/-- Two machines run a rental each for one account. -/
def twoRentals : List ServerAct :=
  opening 30 ++
  call 3 (.register { testHost with hostId := "host-2" }) [{}, { token := "agt_2" }] ++
  call 4 (.createRental ⟨1, "acct_1", "nvidia/cuda:latest", some "ssh-ed25519 AAAA"⟩) [{}] ++
  call 5 (.createRental ⟨2, "acct_1", "nvidia/cuda:latest", some "ssh-ed25519 AAAA"⟩) [{}] ++
  call 6 (.report bearer { rentalId := 1, status := .running }) [{}, {}, {}] ++
  call 7 (.report (some "Bearer agt_2") { rentalId := 2, status := .running }) [{}, {}, {}] ++
  call 8 (.heartbeat bearer ⟨true⟩) [{ now := 120 }, {}] ++
  call 9 (.heartbeat (some "Bearer agt_2") ⟨true⟩) [{ now := 120 }, {}]

/-- Each is within the budget of 30 sats, and both together are not. -/
theorem twoRentals_over_budget :
    ∃ db, enforceBudgets testEnv (fun _ => 120) (serve testEnv twoRentals).store = (db, .ok ()) ∧
      ∃ a ∈ db.accounts.rows, a.balanceSats = 30 ∧
        ((db.metered testEnv 120 a.id).map (·.accrued testEnv 120)).sum = 40 := by
  have hwf : (serve testEnv twoRentals).store.Wf := ((init_holds testEnv).run _ twoRentals).inv
  obtain ⟨db, hpass, -⟩ := @enforceBudgets_ok testEnv 120 _ hwf
  refine ⟨(enforceBudgets testEnv (fun _ => 120) (serve testEnv twoRentals).store).1, ?_,
    by decide +kernel⟩
  rw [hpass]

end GpuMarket
