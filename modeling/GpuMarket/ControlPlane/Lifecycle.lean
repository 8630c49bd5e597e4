import GpuMarket.ControlPlane.Rentals
import GpuMarket.ControlPlane.Sequential
import GpuMarket.HostAgent.Dispatch

namespace GpuMarket

open Lib

/-- The place of a status in the order of SPEC section 4. -/
def RentalStatus.rank : RentalStatus → Nat
  | .provisioning => 0
  | .running => 1
  | .evicting => 2
  | .stopped | .failed => 3

/-- No rental moves back, and none leaves a terminal status. -/
def Forward (db db' : Db) : Prop :=
  ∀ r ∈ db.rentals.rows, ∀ r' ∈ db'.rentals.rows, r'.id = r.id →
    r.status.rank ≤ r'.status.rank ∧ (r.status.isTerminal = true → r'.status = r.status)

theorem Forward.refl (db : Db) : Forward db db := by
  intro r hr r' hr' hid
  rw [Table.eq_of_key_eq hr' hr hid]
  exact ⟨le_rfl, fun _ => rfl⟩

theorem Forward.trans {db db' db'' : Db} (h : Forward db db') (h' : Forward db' db'')
    (hext : db.Extends db') : Forward db db'' := by
  intro r hr r'' hr'' hid
  obtain ⟨r', hr', hid'⟩ := hext.hasRental ⟨r, hr, rfl⟩
  obtain ⟨hrank, hterm⟩ := h r hr r' hr' hid'
  obtain ⟨hrank', hterm'⟩ := h' r' hr' r'' hr'' (hid.trans hid'.symm)
  refine ⟨hrank.trans hrank', fun hstop => ?_⟩
  have hstop' := hterm hstop
  rw [hterm' (hstop' ▸ hstop), hstop']

/-- The statuses in which a report of each status is in order. -/
def RentalStatus.Admits (cur : RentalStatus) : RentalStatus → Prop
  | .provisioning => cur = .provisioning
  | .running => cur = .provisioning ∨ cur = .running
  | .evicting => cur.isTerminal = false
  | .stopped => cur.isTerminal = false ∨ cur = .stopped
  | .failed => cur.isTerminal = false ∨ cur = .failed

theorem RentalStatus.admits_iff {cur new : RentalStatus} :
    cur.Admits new ↔ cur.rank ≤ new.rank ∧ (cur.isTerminal = true → new = cur) := by
  cases cur <;> cases new <;> simp [Admits, rank, isTerminal]

/-- A report finds its rental in a status that admits the report's. -/
def Op.InOrder (db : Db) : Op → Prop
  | .report auth req _ =>
    ∀ machine rental, authenticate db auth = .ok machine →
      rentalOfMachine db req.rentalId machine.id = .ok rental → rental.status.Admits req.status
  | _ => True

theorem Forward.exec {env : Env} {txn : Txn} {db db' : Db} {v : Reply} (hf : txn.Fresh db)
    (hx : txn.exec env db = .ok (db', v))
    (hadmits : ∀ machine rental req now, txn = .report machine rental req now →
      rental.status.Admits req.status) : Forward db db' := by
  obtain ⟨charge, new, hrows, hopens, -⟩ := exec_rentals hf.valid hx
  intro r hr r' hr' hid
  rw [hrows] at hr'
  rcases List.mem_append.mp hr' with hr' | hr'
  · obtain ⟨r₀, hr₀, rfl⟩ := List.mem_map.mp hr'
    obtain rfl := Table.eq_of_key_eq hr₀ hr (by simpa using hid)
    rw [Txn.rewrite_status, ← RentalStatus.admits_iff]
    have stay : r₀.status.Admits r₀.status :=
      RentalStatus.admits_iff.mpr ⟨le_rfl, fun _ => rfl⟩
    cases txn with
    | report machine rental req now =>
      simp only [Txn.statusOf]
      split
      case isTrue hreq =>
        rw [Table.eq_of_key_eq hr₀ hf.2.1 (hreq.trans hf.2.2.1.symm)]
        exact hadmits machine rental req now rfl
      case isFalse => exact stay
    | deleteRental r now =>
      simp only [Txn.statusOf]
      split
      case isTrue hreq =>
        rw [Table.eq_of_key_eq hr₀ hf.1 hreq]
        have hstop := hf.2
        simp only [alreadyStopping, Bool.or_eq_false_iff] at hstop
        exact hstop.1
      case isFalse => exact stay
    | evict r now =>
      simp only [Txn.statusOf]
      split
      case isTrue hreq =>
        rw [Table.eq_of_key_eq hr₀ hf.1 hreq, hf.2]
        rfl
      case isFalse => exact stay
    | _ => exact stay
  · obtain rfl | ⟨r'', rfl, -, hnext, -⟩ := hopens
    · cases hr'
    · obtain rfl := List.mem_singleton.mp hr'
      have hlt := Table.lt_nextId hr
      exact absurd hid (by omega)

theorem Evolves.forward {env : Env} {K : Db → Txn → Prop} {db db' : Db}
    (h : Evolves env K db db')
    (hK : ∀ db txn, K db txn → txn.Fresh db ∧
      ∀ machine rental req now, txn ≠ .report machine rental req now) : Forward db db' := by
  induction h with
  | refl db => exact .refl db
  | step hrun hx _ ih =>
    obtain ⟨hf, hne⟩ := hK _ _ hrun
    refine Forward.trans ?_ ih (Db.Extends.exec hx)
    exact Forward.exec hf hx fun machine rental req now h => absurd h (hne machine rental req now)

/-- Deletions and evictions only move forward; reports do when they are in order. -/
theorem forward_iff_inOrder {env : Env} {db : Db} (hwf : db.Wf) (op : Op) :
    Forward db (op.step env db) ↔ op.InOrder db := by
  cases op with
  | report auth req now =>
    constructor
    · intro h machine rental hm hr
      obtain ⟨v, hx⟩ := @Op.report_step_of_ok env db hwf auth req now machine rental hm hr
      obtain ⟨hmem, hid, hmachine⟩ := rentalOfMachine_ok hr
      have hv : (Txn.report machine rental req now).Valid db :=
        ⟨authenticate_hasMachine hm, ⟨rental, hmem, rfl⟩, hid, hmachine⟩
      obtain ⟨charge, new, hrows, -⟩ := exec_rentals hv hx
      have hmoved := h rental hmem _
        (hrows ▸ List.mem_append_left _ (List.mem_map_of_mem hmem)) (by simp)
      rw [Txn.rewrite_status, Txn.statusOf, if_pos hid, ← RentalStatus.admits_iff] at hmoved
      exact hmoved
    · intro h
      obtain hsame | ⟨machine, rental, v, hm, hr, hx⟩ := Op.report_step env db auth req now
      · rw [hsame]
        exact .refl db
      · have hf : (Txn.report machine rental req now).Fresh db :=
          ⟨(authenticate_ok hm).1, rentalOfMachine_ok hr⟩
        refine Forward.exec hf hx ?_
        rintro _ _ _ _ ⟨rfl⟩
        exact h machine rental hm hr
  | _ =>
    refine iff_of_true ((Op.evolves env db _).forward fun db txn hrun => ⟨hrun.1, ?_⟩) trivial
    rintro machine rental req now rfl
    simp [Op.Runs] at hrun

/-- Operations run one at a time move every rental forward exactly as long as every report finds
its rental in a status that admits it: `running` before the rental was stopped, `stopped` or
`failed` before it ended otherwise. -/
theorem forward_iff (env : Env) (ops : List Op) :
    Along (Op.step env) (fun db op => Forward db (op.step env db)) .empty ops ↔
      Along (Op.step env) (fun db op => op.InOrder db) .empty ops :=
  along_congr (I := Db.Wf) (fun _ op hwf => forward_iff_inOrder hwf op)
    (fun _ op hwf => Op.wf hwf op) Db.Wf.empty ops

/-- The agents send only what `dispatch` builds. -/
def Op.Dispatched : Op → Prop
  | .report _ req _ => GpuMarket.Dispatched req
  | _ => True

/-- A rental is deleted while it starts, and then reported as running. -/
def overtaken : List Op :=
  [.register testHost "agt_1" 0, .createAccount "acct_1" 0,
    .deposit "acct_1" ⟨100⟩ (some ⟨"lnbc1", "01"⟩) 0, .pollInvoices (fun _ => some true) (fun _ => 0),
    .createRental ⟨1, "acct_1", "nvidia/cuda:latest", some "ssh-ed25519 AAAA"⟩ 0,
    .deleteRental 1 30]

def lateRunning : Op := .report bearer (startReport 1 (.ok ⟨"c1", 40000, .ssh⟩)) 60

instance (db db' : Db) : Decidable (Forward db db') :=
  inferInstanceAs (Decidable (∀ r ∈ db.rentals.rows, ∀ r' ∈ db'.rentals.rows,
    _ → _ ∧ (_ → _)))

theorem lateRunning_not_forward :
    (∀ op ∈ overtaken ++ [lateRunning], op.Dispatched) ∧
      ¬Forward (perform testEnv overtaken) (perform testEnv (overtaken ++ [lateRunning])) := by
  refine ⟨?_, by decide⟩
  simp [overtaken, lateRunning, Op.Dispatched, Dispatched.start]

end GpuMarket
