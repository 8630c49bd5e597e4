import GpuMarket.ControlPlane.Rentals
import GpuMarket.HostAgent.Dispatch

namespace GpuMarket

open Lib

/-- No two rentals occupy one machine. -/
def Exclusive (db : Db) : Prop :=
  ∀ r ∈ db.rentals.rows, ∀ r' ∈ db.rentals.rows, r.machineId = r'.machineId →
    r.status.occupiesMachine = true → r'.status.occupiesMachine = true → r = r'

theorem occupied_iff {db : Db} {machineId : Int} :
    occupied db machineId ↔ ∃ r ∈ db.rentals.rows, r.machineId = machineId ∧
      r.status.occupiesMachine = true := by
  simp only [occupied, asStr_mem_occupyingInList]

/-- The rental has not given its machine up, or the machine has not been let again. -/
def Db.HoldsMachine (db : Db) (rentalId : Int) : Prop :=
  ∀ cur ∈ db.rentals.rows, cur.id = rentalId →
    cur.status.occupiesMachine = true ∨ ¬occupied db cur.machineId

/-- Writes of an occupying status find the rental in hold of its machine. -/
def Db.MayOccupy (db : Db) : Txn → Prop
  | .report _ _ req _ => req.status.occupiesMachine = true → db.HoldsMachine req.rentalId
  | .deleteRental r _ | .evict r _ => db.HoldsMachine r.id
  | _ => True

theorem Db.MayOccupy.of_occupies {db : Db} {txn : Txn} (h : db.MayOccupy txn) {r : RentalRow}
    (hr : r ∈ db.rentals.rows) (hocc : (txn.statusOf r).occupiesMachine = true) :
    r.status.occupiesMachine = true ∨
      (txn.target = some r.id ∧ ¬occupied db r.machineId) := by
  by_cases htarget : txn.target = some r.id
  · cases txn with
    | report machine rental req now =>
      obtain hid : req.rentalId = r.id := Option.some.inj htarget
      rw [Txn.statusOf, if_pos hid.symm] at hocc
      exact (h hocc r hr hid.symm).imp_right fun hfree => ⟨htarget, hfree⟩
    | deleteRental r₀ now =>
      exact (h r hr (Option.some.inj htarget).symm).imp_right fun hfree => ⟨htarget, hfree⟩
    | evict r₀ now =>
      exact (h r hr (Option.some.inj htarget).symm).imp_right fun hfree => ⟨htarget, hfree⟩
    | _ => cases htarget
  · rw [Txn.statusOf_of_ne htarget] at hocc
    exact .inl hocc

theorem Exclusive.exec {env : Env} {txn : Txn} {db db' : Db} {v : Reply} (h : Exclusive db)
    (hv : txn.Valid db) (hx : txn.exec env db = .ok (db', v)) (hmay : db.MayOccupy txn) :
    Exclusive db' := by
  obtain ⟨charge, new, hrows, hopens, -⟩ := exec_rentals hv hx
  have old : ∀ r ∈ db.rentals.rows, ∀ r' ∈ db.rentals.rows, r.machineId = r'.machineId →
      (txn.statusOf r).occupiesMachine = true → (txn.statusOf r').occupiesMachine = true →
        r = r' := by
    intro r hr r' hr' hm hocc hocc'
    rcases hmay.of_occupies hr hocc with hbefore | ⟨htarget, hfree⟩ <;>
      rcases hmay.of_occupies hr' hocc' with hbefore' | ⟨htarget', hfree'⟩
    · exact h r hr r' hr' hm hbefore hbefore'
    · exact absurd (occupied_iff.mpr ⟨r, hr, hm, hbefore⟩) hfree'
    · exact absurd (occupied_iff.mpr ⟨r', hr', hm.symm, hbefore'⟩) hfree
    · exact Table.eq_of_key_eq hr hr' (Option.some.inj (htarget.symm.trans htarget'))
  -- a rental is only created on a machine that no rental occupies, and that write is its only one
  have fresh : ∀ r ∈ db.rentals.rows, ∀ r' ∈ new, r.machineId = r'.machineId →
      (txn.statusOf r).occupiesMachine = false := by
    intro r hr r' hr' hm
    obtain rfl | ⟨r'', rfl, ⟨req, now, rfl⟩, -, -, -, -, hfree⟩ := hopens
    · cases hr'
    · obtain rfl := List.mem_singleton.mp hr'
      by_contra hocc
      exact hfree (occupied_iff.mpr ⟨r, hr, hm, Bool.eq_true_of_not_eq_false hocc⟩)
  intro x hx x' hx' hm hocc hocc'
  rw [hrows] at hx hx'
  rcases List.mem_append.mp hx with hx | hx <;> rcases List.mem_append.mp hx' with hx' | hx'
  · obtain ⟨r, hr, rfl⟩ := List.mem_map.mp hx
    obtain ⟨r', hr', rfl⟩ := List.mem_map.mp hx'
    simp only [Txn.rewrite_machineId, Txn.rewrite_status] at hm hocc hocc'
    rw [old r hr r' hr' hm hocc hocc']
  · obtain ⟨r, hr, rfl⟩ := List.mem_map.mp hx
    simp only [Txn.rewrite_machineId, Txn.rewrite_status] at hm hocc
    rw [fresh r hr x' hx' hm] at hocc
    cases hocc
  · obtain ⟨r', hr', rfl⟩ := List.mem_map.mp hx'
    simp only [Txn.rewrite_machineId, Txn.rewrite_status] at hm hocc'
    rw [fresh r' hr' x hx hm.symm] at hocc'
    cases hocc'
  · obtain rfl | ⟨r, rfl, -⟩ := hopens
    · cases hx
    · rw [List.mem_singleton.mp hx, List.mem_singleton.mp hx']

theorem not_exclusive_of_revive {env : Env} {txn : Txn} {db db' : Db} {v : Reply}
    (hv : txn.Valid db) (hx : txn.exec env db = .ok (db', v)) {id : Int}
    (hstatus : ∀ cur : RentalRow, cur.id = id → (txn.statusOf cur).occupiesMachine = true)
    (htarget : txn.target = some id) (hlost : ¬db.HoldsMachine id) : ¬Exclusive db' := by
  intro h
  apply hlost
  intro cur hcur hid
  by_contra hboth
  obtain ⟨hgone, hocc⟩ := not_or.mp hboth
  obtain ⟨r, hr, hm, hrocc⟩ := occupied_iff.mp (not_not.mp hocc)
  obtain ⟨charge, new, hrows, -⟩ := exec_rentals hv hx
  have kept : ∀ r ∈ db.rentals.rows, txn.rewrite charge r ∈ db'.rentals.rows := fun r hr =>
    hrows ▸ List.mem_append_left _ (List.mem_map_of_mem hr)
  have hne : r.id ≠ id := by
    intro heq
    rw [Table.eq_of_key_eq hr hcur (heq.trans hid.symm)] at hrocc
    exact hgone hrocc
  have hsame : txn.statusOf r = r.status :=
    Txn.statusOf_of_ne fun h => hne (Option.some.inj (h.symm.trans htarget))
  have heq := h _ (kept cur hcur) _ (kept r hr) (by simp [hm]) (by simpa using hstatus cur hid)
    (by simpa [hsame] using hrocc)
  have hids := congrArg RentalRow.id heq
  simp only [Txn.rewrite_id] at hids
  exact hne (hids.symm.trans hid)

theorem not_exclusive_of_not_mayOccupy {env : Env} {txn : Txn} {db db' : Db} {v : Reply}
    (hv : txn.Valid db) (hx : txn.exec env db = .ok (db', v)) (hmay : ¬db.MayOccupy txn) :
    ¬Exclusive db' := by
  cases txn with
  | report machine rental req now =>
    obtain ⟨hocc, hlost⟩ := Classical.not_imp.mp hmay
    exact not_exclusive_of_revive hv hx (by intro cur hid; simpa [Txn.statusOf, hid] using hocc)
      rfl hlost
  | deleteRental r now =>
    exact not_exclusive_of_revive hv hx (by intro cur hid; simp [Txn.statusOf, hid]; rfl) rfl hmay
  | evict r now =>
    exact not_exclusive_of_revive hv hx (by intro cur hid; simp [Txn.statusOf, hid]; rfl) rfl hmay
  | _ => exact absurd trivial hmay

/-- Every machine keeps one occupying rental at most exactly as long as no report, deletion or
eviction revives a rental whose machine has been let again. -/
theorem exclusive_iff (env : Env) (acts : List ServerAct) :
    Always (server env).step (fun s => Exclusive s.store) ServerConf.init acts ↔
      Along (server env).step ((server env).Commits Db.MayOccupy) ServerConf.init acts := by
  refine (serverContract env).always_iff_commits (J := fun db _ => Exclusive db)
    (P := fun db _ => Exclusive db) (fun _ h => h) (fun _ hv hx h hmay => h.exec hv hx hmay) ?_
    (fun _ hv hx _ hmay => not_exclusive_of_not_mayOccupy hv hx hmay) (init_holds env)
    (fun _ hr => absurd hr List.not_mem_nil) acts
  intro db txn hwf hv hmay
  cases txn with
  | report machine rental req now => exact @report_exec_ok env _ _ _ _ _ hwf hv.2.1
  | deleteRental r now => exact @deleteRental_exec_ok env _ _ _ hwf hv.1
  | evict r now => exact @evict_exec_ok env _ _ _ hwf hv.1
  | _ => exact absurd trivial hmay

instance (db : Db) : Decidable (Exclusive db) :=
  inferInstanceAs (Decidable (∀ r ∈ db.rentals.rows, ∀ r' ∈ db.rentals.rows, _))

/-- The machine is let again before the late report that its first rental is running. -/
def relet : List ServerAct :=
  opening 100 ++
  call 3 (.createRental ⟨1, "acct_1", "nvidia/cuda:latest", some "ssh-ed25519 AAAA"⟩) [{}] ++
  call 4 (.deleteRental 1) [{ now := 30 }, {}] ++
  call 5 (.report bearer (stopReport 1 (.ok ()))) [{}, { now := 60 }, {}] ++
  call 6 (.createRental ⟨1, "acct_1", "nvidia/cuda:latest", some "ssh-ed25519 AAAA"⟩)
    [{ now := 70 }] ++
  call 7 (.report bearer (startReport 1 (.ok ⟨"c1", 40000, .ssh⟩))) [{}, { now := 90 }, {}]

theorem relet_not_exclusive :
    (∀ a ∈ relet, a.Dispatched) ∧ ¬Exclusive (serve testEnv relet).store := by
  refine ⟨?_, by decide⟩
  simp only [relet, opening, call]
  simp [ServerAct.Dispatched, Dispatched.start, Dispatched.stop]

end GpuMarket
