import GpuMarket.ControlPlane.Contract

namespace GpuMarket

open Lib

def Txn.stops : Txn → Option Int
  | .deleteRental r _ | .evict r _ => some r.id
  | _ => none

def stopsQueued (env : Env) (db : Db) (id : Int) : List CommandRow :=
  db.commands.rows.filter fun c => c.payload = env.serde.toString (.stopRental id)

/-- A rental that was stopping before keeps its row, and no further stop is queued for it. -/
def Db.LeavesStopping (env : Env) (db db' : Db) (id : Int) : Prop :=
  ∀ cur ∈ db.rentals.rows, cur.id = id → alreadyStopping cur = true →
    cur ∈ db'.rentals.rows ∧ stopsQueued env db' id = stopsQueued env db id

/-- A deletion or eviction that runs as this step leaves alone a rental that is stopping. -/
def IdempotentStop (env : Env) (s : ServerConf) (a : ServerAct) : Prop :=
  ∀ txn, (server env).commits s a = some txn → ∀ id, txn.stops = some id →
    s.store.LeavesStopping env ((server env).step s a).store id

def Db.StillLive (db : Db) (id : Int) : Prop :=
  ∀ cur ∈ db.rentals.rows, cur.id = id → alreadyStopping cur = false

def FindsLive (env : Env) (s : ServerConf) (a : ServerAct) : Prop :=
  ∀ txn, (server env).commits s a = some txn → ∀ id, txn.stops = some id → s.store.StillLive id

theorem stopsQueued_withCommand (env : Env) (db : Db) (id machineId now : Int) :
    stopsQueued env (db.withCommand machineId (env.serde.toString (.stopRental id)) now) id =
      stopsQueued env db id ++ [.queued machineId (env.serde.toString (.stopRental id)) now
        db.commands.nextId] := by
  simp [stopsQueued, Db.withCommand, CommandRow.queued]

theorem Txn.stops_exec {env : Env} {txn : Txn} {db : Db} (hwf : db.Wf) (hv : txn.Valid db)
    {id : Int} (hid : txn.stops = some id) :
    ∃ db' v, txn.exec env db = .ok (db', v) ∧ stopsQueued env db' id ≠ stopsQueued env db id := by
  cases txn with
  | deleteRental r now =>
    cases hid
    obtain ⟨⟨db', v⟩, hx⟩ := @deleteRental_exec_ok env r now db hwf hv.1
    refine ⟨db', v, hx, ?_⟩
    obtain ⟨-, -, rfl⟩ := deleteRentalTx_ok hx
    rw [stopsQueued_withCommand]
    simp [stopsQueued, Db.updateRental]
  | evict r now =>
    cases hid
    obtain ⟨⟨db', v⟩, hx⟩ := @evict_exec_ok env r now db hwf hv.1
    refine ⟨db', v, hx, ?_⟩
    obtain ⟨-, rfl⟩ := evict_ok hx
    change stopsQueued env (Db.withCommand _ _ _ _) _ ≠ _
    rw [stopsQueued_withCommand]
    simp [stopsQueued, Db.updateRental]
  | _ => cases hid

theorem idempotentStop_iff {env : Env} {s : ServerConf} (h : (serverContract env).Holds s)
    (a : ServerAct) : IdempotentStop env s a ↔ FindsLive env s a := by
  constructor
  · intro hidem txn hc id hid cur hcur hcid
    by_contra hstopping
    obtain ⟨db', v, hx, hqueued⟩ := Txn.stops_exec h.inv (h.valid _ hc) hid
    obtain ⟨-, hsame⟩ := hidem txn hc id hid cur hcur hcid (Bool.eq_true_of_not_eq_false hstopping)
    rw [((server env).step_of_commits hc hx).1] at hsame
    exact hqueued hsame
  · intro hlive txn hc id hid cur hcur hcid hstopping
    rw [hlive txn hc id hid cur hcur hcid] at hstopping
    cases hstopping

/-- Deletions and evictions leave stopping rentals alone exactly as long as each of them still
finds its rental provisioning or running when it gets the write lock. -/
theorem stops_idempotent_iff (env : Env) (acts : List ServerAct) :
    Along (server env).step (IdempotentStop env) ServerConf.init acts ↔
      Along (server env).step (FindsLive env) ServerConf.init acts :=
  along_congr (I := (serverContract env).Holds) (fun _ a h => idempotentStop_iff h a)
    (fun _ a h => h.step _ a) (init_holds env) acts

/-- The tenant's deletion has read the rental when the host reports it stopped. -/
def lateDeletion : List ServerAct :=
  opening 100 ++
  call 3 (.createRental ⟨1, "acct_1", "nvidia/cuda:latest", some "ssh-ed25519 AAAA"⟩) [{}] ++
  call 4 (.deleteRental 1) [{ now := 30 }] ++
  call 5 (.report bearer { rentalId := 1, status := .stopped }) [{}, { now := 40 }, {}]

/-- The deletion puts the stopped rental back to evicting and queues a stop for it. -/
theorem lateDeletion_revives :
    ¬Along (server testEnv).step (IdempotentStop testEnv) ServerConf.init
      (lateDeletion ++ [.thread 4 {}]) ∧
    (serve testEnv lateDeletion).store.rentals.rows.map (·.status) = [.stopped] ∧
    (serve testEnv (lateDeletion ++ [.thread 4 {}])).store.rentals.rows.map (·.status) =
      [.evicting] := by
  refine ⟨fun h => ?_, by decide +kernel, by decide +kernel⟩
  have hlast := h lateDeletion (.thread 4 {}) List.prefix_rfl
  have stopped : ((server testEnv).commits (serve testEnv lateDeletion) (.thread 4 {})).bind
      Txn.stops = some 1 := by decide +kernel
  obtain ⟨txn, hc, hstops⟩ := Option.bind_eq_some_iff.mp stopped
  obtain ⟨cur, hcur, hcid, hterm, hgone⟩ :
      ∃ cur ∈ (serve testEnv lateDeletion).store.rentals.rows,
        cur.id = 1 ∧ alreadyStopping cur = true ∧
          cur ∉ (serve testEnv (lateDeletion ++ [.thread 4 {}])).store.rentals.rows := by
    decide +kernel
  obtain ⟨hkept, -⟩ := hlast txn hc 1 hstops cur hcur hcid hterm
  exact hgone (by rw [serve, run_concat]; exact hkept)

end GpuMarket
