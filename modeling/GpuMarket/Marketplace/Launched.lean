import GpuMarket.Marketplace.Fleet

namespace GpuMarket

open Lib

/-- The task is the launch of the rental, however far it has come. -/
def Task.isLaunch (id : Int) (t : Task) : Bool :=
  match t.phase with
  | .starting spec _ => spec.rentalId = id
  | .reporting rentalId (.started _) _ _ => rentalId = id
  | .stopping .. | .reporting _ (.stopped _) _ _ => false

theorem Task.isLaunch_rentalId {id : Int} {t : Task} (h : t.isLaunch id = true) :
    t.rentalId = id := by
  obtain ⟨token, runtime, phase⟩ := t
  cases phase with
  | starting spec s => simpa [isLaunch, Task.rentalId] using h
  | stopping => cases h
  | reporting rentalId outcome left thread =>
    cases outcome with
    | started => simpa [isLaunch, Task.rentalId] using h
    | stopped => cases h

@[simp] theorem Task.isLaunch_advance (id : Int) (t : Task) (a : DockerAnswer) :
    (t.advance a).isLaunch id = t.isLaunch id := by
  obtain ⟨token, runtime, phase⟩ := t
  cases phase with
  | starting spec s => simp only [advance]; split <;> rfl
  | stopping rentalId s => simp only [advance]; split <;> rfl
  | reporting => rfl

theorem Task.isLaunch_awaiting {id rentalId : Int} {t : Task} {outcome : Outcome} {left : Bool}
    {thread : Thread} (hp : t.phase = .reporting rentalId outcome left thread) (thread' : Thread) :
    (t.awaiting rentalId outcome left thread').isLaunch id = t.isLaunch id := by
  cases outcome <;> simp [isLaunch, awaiting, hp]

theorem Task.isLaunch_spawned {e : Txn × Reply} (id : Int) :
    (spawned e).countP (·.isLaunch id) = ((spawned e).filterMap (Task.chore id)).countP (·.starts) := by
  obtain ⟨txn, v⟩ := e
  have each : ∀ (token : String) (rt : DockerRuntime) (cmds : List Command),
      (cmds.map (dispatch token rt)).countP (·.isLaunch id) =
        ((cmds.map (dispatch token rt)).filterMap (Task.chore id)).countP (·.starts) := by
    intro token rt cmds
    induction cmds with
    | nil => rfl
    | cons cmd cmds ih =>
      rw [List.map_cons, List.countP_cons, List.filterMap_cons, ih, chore_dispatch]
      cases cmd with
      | startRental rentalId image key =>
        by_cases hid : rentalId = id <;>
          simp [dispatch, isLaunch, Command.order, hid, Chore.starts]
      | stopRental rentalId =>
        by_cases hid : rentalId = id <;>
          simp [dispatch, isLaunch, Command.order, hid, Chore.starts]
  unfold spawned
  split
  · exact each _ _ _
  · rfl

namespace World

variable {env : Env} {w : World}

def launches (w : World) (id : Int) : Nat :=
  (w.view id).orders.count .start + w.tasks.countP (·.isLaunch id)

theorem launches_set {n : Nat} {t t' : Task} {live : Int → Bool} {id : Int}
    (ht : w.tasks[n]? = some t) (hsame : t'.isLaunch id = t.isLaunch id) :
    launches { w with tasks := w.tasks.set n t', live } id = w.launches id := by
  obtain ⟨pre, post, hsplit, hset, -⟩ := exists_split_of_getElem? ht
  simp only [launches, view, remote, hset]
  simp only [hsplit, List.countP_append, List.countP_cons, hsame]

section Steps

variable (hserde : env.serde.RoundTrip) (h : w.Inv env) (hsound : ∀ id, (w.view id).Sound)
include h hsound

theorem launches_unknown {id : Int} (hk : (w.view id).known = false) : w.launches id = 0 := by
  have horders := ((hsound id).fresh hk).1.1
  rw [launches, horders, List.count_nil, Nat.zero_add, List.countP_eq_zero]
  intro t ht hlaunch
  obtain ⟨r, hr, hid, -⟩ := h.tasks t ht
  obtain rfl := Task.isLaunch_rentalId hlaunch
  have hfind := hid ▸ Table.find?_of_mem hr
  simp [view, remote, hfind] at hk

include hserde in
theorem launches_server {a : ServerAct} (ha : a.isReport = false) {id : Int}
    (honce : w.launches id ≤ 1) : (w.serverStep env a).launches id ≤ 1 := by
  have hstep := (serverStep_ok hserde h ha).2 id
  have hsound' := hstep.sound (hsound id)
  let added := (((server env).step w.conf a).log.drop w.conf.log.length).flatMap spawned
  have htasks : (w.serverStep env a).tasks = w.tasks ++ added := rfl
  have hadded : added.countP (·.isLaunch id) =
      (added.filterMap (Task.chore id)).countP (·.starts) := by
    simp only [added]
    generalize ((server env).step w.conf a).log.drop w.conf.log.length = entries
    induction entries with
    | nil => rfl
    | cons e entries ih =>
      rw [List.flatMap_cons, List.countP_append, List.filterMap_append, List.countP_append, ih,
        Task.isLaunch_spawned]
  have hchores : ((w.serverStep env a).view id).chores =
      (w.view id).chores ++ added.filterMap (Task.chore id) := by
    simp only [view, remote, htasks, List.filterMap_append]
  -- both count what has just been handed out
  have balance : (w.serverStep env a).launches id + (w.view id).starts =
      w.launches id + ((w.serverStep env a).view id).starts := by
    simp only [launches, Remote.starts, htasks, hchores, List.countP_append, hadded]
    omega
  cases hk : (w.view id).known with
  | true =>
    have hle := hstep.starts_le hk
    omega
  | false =>
    have hzero := launches_unknown h hsound hk
    have hle := hsound'.once
    omega

omit hsound in
include hserde in
theorem launches_report {n : Nat} {t : Task} (ht : w.tasks[n]? = some t) (now : Int) (id : Int) :
    (w.reportStep env n t now).launches id = w.launches id := by
  cases hp : t.phase with
  | starting | stopping => simp [reportStep, hp]
  | reporting rentalId outcome left thread =>
    have htasks : ∃ thread', (w.reportStep env n t now).tasks =
        w.tasks.set n (t.awaiting rentalId outcome left thread') := by
      simp only [reportStep, hp]
      exact ⟨_, rfl⟩
    have horders : ((w.reportStep env n t now).view id).orders = (w.view id).orders := by
      by_cases htx : ∃ machine rental req now', thread = .reportTx machine rental req now'
      case neg =>
        obtain ⟨-, hsame⟩ := reportStep_waits h ht hp (by simpa using htx) now
        rw [hsame]
      case pos =>
        obtain ⟨machine, rental, req, now', rfl⟩ := htx
        obtain ⟨-, hothers, htells, -⟩ := reportStep_tells hserde h ht hp now
        by_cases hid : id = rentalId
        · subst hid
          generalize (w.reportStep env n t now).view id = s' at htells ⊢
          cases htells
          rfl
        · rw [hothers id hid]
    obtain ⟨thread', htasks⟩ := htasks
    obtain ⟨pre, post, hsplit, hset, -⟩ := exists_split_of_getElem? ht
    rw [launches, launches, horders, htasks, hset]
    simp only [hsplit, List.countP_append, List.countP_cons, Task.isLaunch_awaiting hp]

include hserde in
/-- No rental is launched twice. -/
theorem launches_step (a : WorldAct) (honce : ∀ id, w.launches id ≤ 1) :
    ∀ id, (w.step env a).launches id ≤ 1 := by
  intro id
  cases a with
  | server a =>
    cases ha : a.isReport with
    | true => simpa [step, ha] using honce id
    | false => simpa [step, ha] using launches_server hserde h hsound ha (honce id)
  | docker n a =>
    cases ht : w.tasks[n]? with
    | none => simpa [step, ht] using honce id
    | some t =>
      simp only [step, ht, dockerStep]
      split
      · exact honce id
      · split
        · rw [launches_set ht (t.isLaunch_advance id a)]
          exact honce id
        · exact honce id
  | report n now =>
    cases ht : w.tasks[n]? with
    | none => simpa [step, ht] using honce id
    | some t =>
      simp only [step, ht]
      rw [launches_report hserde h ht]
      exact honce id

end Steps

end World

def RentalRow.spec (r : RentalRow) : RentalSpec := ⟨r.id, r.image, r.sshPubkey⟩

theorem RentalRow.spec_of_terms {r r' : RentalRow} (h : r.terms = r'.terms) : r.spec = r'.spec := by
  obtain ⟨-, -, himage, hkey, -, -, hid⟩ := terms_eq_iff.mp h
  rw [spec, spec, himage, hkey, hid]

def Db.Asks (db : Db) (spec : RentalSpec) : Prop := ∃ r ∈ db.rentals.rows, r.spec = spec

theorem Db.Asks.mono {db db' : Db} (h : db.Extends db') {spec : RentalSpec} (ha : db.Asks spec) :
    db'.Asks spec := by
  obtain ⟨r, hr, rfl⟩ := ha
  obtain ⟨r', hr', hterms⟩ := h.rental hr
  exact ⟨r', hr', RentalRow.spec_of_terms hterms⟩

theorem Db.Asks.unique {db : Db} {spec : RentalSpec} (h : db.Asks spec) {r : RentalRow}
    (hr : r ∈ db.rentals.rows) (hid : r.id = spec.rentalId) : spec = r.spec := by
  obtain ⟨r', hr', rfl⟩ := h
  rw [Table.eq_of_key_eq hr hr' hid]

def Db.QueuesAsked (db : Db) (log : List (Txn × Reply)) : Prop :=
  ∀ m rentalId image sshPubkey, .startRental rentalId image sshPubkey ∈ (mailbox log).pending m →
    db.Asks ⟨rentalId, image, sshPubkey⟩

theorem Db.QueuesAsked.exec {env : Env} {txn : Txn} {db db' : Db} {v : Reply}
    {log : List (Txn × Reply)} (h : db.QueuesAsked log) (hx : txn.exec env db = .ok (db', v)) :
    db'.QueuesAsked (log ++ [(txn, v)]) := by
  intro m rentalId image sshPubkey hcmd
  rw [mailbox_concat] at hcmd
  rcases Post.mem_apply hcmd with hold | hsend
  · exact (h m rentalId image sshPubkey hold).mono (.exec hx)
  · cases txn with
    | createRental req now =>
      obtain ⟨m, -, -, a, -, -, -, -, -, rfl, key, hkey, rfl⟩ := createRentalTx_ok hx
      simp only [Txn.post, hkey] at hsend
      cases hsend
      exact ⟨_, Db.mem_withRental.mpr (.inr rfl), rfl⟩
    | _ => cases hsend

def Txn.announces (id : Int) : Txn × Reply → Option String
  | (.registerUpdate m req _, _) => if m.id = id then some req.publicIp else none
  | (.registerInsert req _ _, .registered id' _) => if id' = id then some req.publicIp else none
  | _ => none

def Announced (log : List (Txn × Reply)) (id : Int) (address : String) : Prop :=
  ∃ e ∈ log, Txn.announces id e = some address

theorem Announced.append {log : List (Txn × Reply)} {id : Int} {address : String}
    (h : Announced log id address) (log' : List (Txn × Reply)) :
    Announced (log ++ log') id address := by
  obtain ⟨e, he, hannounces⟩ := h
  exact ⟨e, List.mem_append_left _ he, hannounces⟩

theorem Announced.concat (log : List (Txn × Reply)) {e : Txn × Reply} {id : Int} {address : String}
    (h : Txn.announces id e = some address) : Announced (log ++ [e]) id address :=
  ⟨e, List.mem_append_right _ List.mem_cons_self, h⟩

def Db.AddressesAnnounced (db : Db) (log : List (Txn × Reply)) : Prop :=
  ∀ m ∈ db.machines.rows, Announced log m.id m.publicIp

theorem Db.AddressesAnnounced.exec {env : Env} {txn : Txn} {db db' : Db} {v : Reply}
    {log : List (Txn × Reply)} (h : db.AddressesAnnounced log)
    (hx : txn.exec env db = .ok (db', v)) : db'.AddressesAnnounced (log ++ [(txn, v)]) := by
  obtain ⟨charge, hrows, -⟩ := exec_machines hx
  have kept : ∀ m ∈ db.machines.rows, Announced (log ++ [(txn, v)])
      (txn.rewriteMachine env charge m).id (txn.rewriteMachine env charge m).publicIp := by
    intro m hm
    rw [txn.rewriteMachine_id]
    have hold := (h m hm).append [(txn, v)]
    cases txn with
    | registerUpdate m₀ req now =>
      simp only [Txn.rewriteMachine]
      split
      case isTrue hid => exact .concat log (by simp [Txn.announces, hid, RegisterRequest.refresh])
      case isFalse => exact hold
    | heartbeat | rate | payout | markOffline =>
      simp only [Txn.rewriteMachine]
      split <;> exact hold
    | _ => exact hold
  intro m hm
  rw [hrows] at hm
  rcases List.mem_append.mp hm with hm | hm
  · obtain ⟨m₀, hm₀, rfl⟩ := List.mem_map.mp hm
    exact kept m₀ hm₀
  · cases txn with
    | registerInsert req token now =>
      obtain ⟨-, rfl, rfl⟩ := registerInsert_ok hx
      obtain rfl := List.mem_singleton.mp hm
      exact .concat log (by simp [Txn.announces, RegisterRequest.toRow])
    | _ => cases hm

end GpuMarket
