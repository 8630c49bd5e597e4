import GpuMarket.Lib.Remote
import GpuMarket.ControlPlane.Commands
import GpuMarket.ControlPlane.Rentals
import GpuMarket.Marketplace.World

namespace GpuMarket

open Lib

def Command.order (id : Int) : Command → Option Order
  | .startRental rentalId _ _ => if rentalId = id then some .start else none
  | .stopRental rentalId => if rentalId = id then some .stop else none

/-- What a task is to its rental; once its report is answered, nothing. -/
def Task.chore (id : Int) (t : Task) : Option Chore :=
  if t.rentalId = id then
    match t.phase with
    | .starting .. => some (.doing .start)
    | .stopping .. => some (.doing .stop)
    | .reporting _ _ _ (.done _) => none
    | .reporting rentalId outcome left _ =>
      some (.told ((outcome.report rentalId).status = .running) left outcome.isFailedStop)
  else none

/-- The commands that wait for the machine of a rental, as far as they are about it. -/
def ordersOf (db : Db) (log : List (Txn × Reply)) (id : Int) : List Order :=
  match db.rentals.find? id with
  | none => []
  | some r => ((mailbox log).pending r.machineId).filterMap (·.order id)

/-- A rental as a resource that its host switches on and off. -/
def remote (db : Db) (log : List (Txn × Reply)) (tasks : List Task) (live : Int → Bool) (id : Int) :
    Remote where
  known := (db.rentals.find? id).isSome
  believed := (db.rentals.find? id).any (·.status = .running)
  orders := ordersOf db log id
  chores := tasks.filterMap (Task.chore id)
  live := live id

def Db.Addressed (db : Db) (log : List (Txn × Reply)) : Prop :=
  ∀ m, ∀ cmd ∈ (mailbox log).pending m, ∃ r ∈ db.rentals.rows, r.id = cmd.rentalId ∧ r.machineId = m

theorem Command.rentalId_of_order {id : Int} {cmd : Command} {o : Order}
    (h : cmd.order id = some o) : cmd.rentalId = id := by
  cases cmd with
  | startRental rentalId image sshPubkey => exact (Option.ite_none_right_eq_some.mp h).1
  | stopRental rentalId => exact (Option.ite_none_right_eq_some.mp h).1

@[simp] theorem Command.order_startRental (id : Int) (image sshPubkey : String) :
    (startRental id image sshPubkey).order id = some .start := if_pos rfl

@[simp] theorem Command.order_stopRental (id : Int) : (stopRental id).order id = some .stop :=
  if_pos rfl

theorem Command.order_of_ne {id : Int} {cmd : Command} (h : cmd.rentalId ≠ id) :
    cmd.order id = none := by
  cases cmd with
  | startRental rentalId image sshPubkey => exact if_neg h
  | stopRental rentalId => exact if_neg h

theorem Task.chore_dispatch (id : Int) (token : String) (runtime : DockerRuntime) (cmd : Command) :
    (dispatch token runtime cmd).chore id = (cmd.order id).map .doing := by
  cases cmd with
  | startRental rentalId image sshPubkey =>
    by_cases h : rentalId = id <;> simp [chore, dispatch, Task.rentalId, Command.order, h]
  | stopRental rentalId =>
    by_cases h : rentalId = id <;> simp [chore, dispatch, Task.rentalId, Command.order, h]

theorem ordersOf_eq_nil {db : Db} {log : List (Txn × Reply)} (h : db.Addressed log) {id m : Int}
    (hm : ∀ r ∈ db.rentals.rows, r.id = id → r.machineId ≠ m) :
    ((mailbox log).pending m).filterMap (·.order id) = [] := by
  refine List.filterMap_eq_nil_iff.mpr fun cmd hcmd => ?_
  obtain ⟨r, hr, hid, hmachine⟩ := h m cmd hcmd
  cases horder : cmd.order id with
  | none => rfl
  | some o => exact absurd hmachine (hm r hr (hid.trans (Command.rentalId_of_order horder)))

section Transactions

variable {env : Env} {txn : Txn} {db db' : Db} {v : Reply} {log : List (Txn × Reply)}

theorem find?_exec (hv : txn.Valid db) (hx : txn.exec env db = .ok (db', v))
    (hne : ∀ req now, txn ≠ .createRental req now) :
    ∃ charge, ∀ id, db'.rentals.find? id = (db.rentals.find? id).map (txn.rewrite charge) := by
  obtain ⟨charge, new, hrows, rfl | ⟨r, -, ⟨req, now, rfl⟩, -⟩, -⟩ := exec_rentals hv hx
  · refine ⟨charge, fun id => ?_⟩
    rw [Table.find?_of_rows (Txn.rewrite_id charge txn) hrows]
    simp
  · exact absurd rfl (hne req now)

theorem remote_of_idle (hfind : ∀ id, db'.rentals.find? id = db.rentals.find? id)
    (hpost : Txn.post (txn, v) = .idle) (tasks : List Task) (live : Int → Bool) (id : Int) :
    remote db' (log ++ [(txn, v)]) tasks live id = remote db log tasks live id := by
  simp [remote, ordersOf, hfind, mailbox_concat, hpost, Mailbox.post, Post.apply]

theorem remote_of_drain (haddressed : db.Addressed log) {machine : MachineRow}
    {req : HeartbeatRequest} {now : Int}
    (hfind : ∀ id, db'.rentals.find? id = db.rentals.find? id) (tasks : List Task)
    (live : Int → Bool) (id : Int) :
    let e := (Txn.heartbeat machine req now, Reply.commands ((mailbox log).pending machine.id))
    (remote db log tasks live id).Step (remote db' (log ++ [e]) (tasks ++ spawned e) live id) := by
  intro e
  have handed : (spawned e).filterMap (Task.chore id) =
      (((mailbox log).pending machine.id).filterMap (·.order id)).map .doing := by
    simp only [e, spawned, List.filterMap_map, List.map_filterMap]
    congr 1
    funext cmd
    exact Task.chore_dispatch ..
  have drained : ∀ m, (mailbox (log ++ [e])).pending m =
      if m = machine.id then [] else (mailbox log).pending m := by
    intro m
    simp [e, mailbox_concat, Mailbox.post, Txn.post, Post.apply, Function.update_apply]
  by_cases hhome : ∃ r, db.rentals.find? id = some r ∧ r.machineId = machine.id
  · obtain ⟨r, hr, hm⟩ := hhome
    have hhand := Remote.Step.hand (remote db log tasks live id)
    simp only [remote, ordersOf, hr, hm] at hhand ⊢
    simpa [hfind, hr, hm, drained, handed, List.filterMap_append] using hhand
  · have none_here : ((mailbox log).pending machine.id).filterMap (·.order id) = [] := by
      refine ordersOf_eq_nil haddressed fun r hr hid hm => hhome ⟨r, ?_, hm⟩
      exact hid ▸ Table.find?_of_mem hr
    have same : remote db' (log ++ [e]) (tasks ++ spawned e) live id =
        remote db log tasks live id := by
      simp only [remote, ordersOf, hfind, List.filterMap_append, handed, none_here, List.map_nil,
        List.append_nil, Remote.mk.injEq, true_and, and_true]
      cases hr : db.rentals.find? id with
      | none => rfl
      | some r =>
        have hm : r.machineId ≠ machine.id := fun hm => hhome ⟨r, hr, hm⟩
        simp [drained, hm]
    rw [same]
    exact .idle _

theorem remote_of_retire {r₀ : RentalRow} (hr₀ : db.HasRental r₀) {f : RentalRow → RentalRow}
    (hfind : ∀ id, db'.rentals.find? id = (db.rentals.find? id).map f)
    (hmachine : ∀ r, (f r).machineId = r.machineId)
    (hstatus : ∀ r, (f r).status = if r.id = r₀.id then .evicting else r.status)
    (hpost : Txn.post (txn, v) = .send r₀.machineId (.stopRental r₀.id)) (tasks : List Task)
    (live : Int → Bool) (id : Int) :
    (remote db log tasks live id).Step (remote db' (log ++ [(txn, v)]) tasks live id) := by
  have queued : ∀ m, (mailbox (log ++ [(txn, v)])).pending m =
      (mailbox log).pending m ++ if m = r₀.machineId then [.stopRental r₀.id] else [] := by
    intro m
    by_cases hm : m = r₀.machineId <;>
      simp [mailbox_concat, hpost, Mailbox.post, Post.apply, hm]
  by_cases hid : id = r₀.id
  · subst hid
    obtain ⟨cur, hcur, hcid, hcm, -⟩ := hr₀.row
    have hr : db.rentals.find? r₀.id = some cur := hcid ▸ Table.find?_of_mem hcur
    have after : remote db' (log ++ [(txn, v)]) tasks live r₀.id =
        { remote db log tasks live r₀.id with
          believed := false
          orders := (remote db log tasks live r₀.id).orders ++ [.stop] } := by
      simp [remote, ordersOf, hfind, hr, hmachine, hstatus, queued, hcm, hcid,
        List.filterMap_append]
    rw [after]
    exact .retire _ (by simp [remote, hr])
  · have same : remote db' (log ++ [(txn, v)]) tasks live id = remote db log tasks live id := by
      simp only [remote, ordersOf, hfind, Remote.mk.injEq, and_true]
      cases hr : db.rentals.find? id with
      | none => simp
      | some r =>
        have hne : r.id ≠ r₀.id := fun h => hid ((Table.mem_of_find? hr).2.symm.trans h)
        simp only [Option.map_some, hmachine, queued, List.filterMap_append]
        refine ⟨rfl, by simp [hstatus, hne], ?_⟩
        have other : (Command.stopRental r₀.id).order id = none := Command.order_of_ne (Ne.symm hid)
        split <;> simp [other]
    rw [same]
    exact .idle _

theorem remote_of_create (haddressed : db.Addressed log) {req : CreateRentalRequest} {now : Int}
    (hx : (Txn.createRental req now).exec env db = .ok (db', v)) (tasks : List Task)
    (live : Int → Bool) (id : Int) :
    (remote db log tasks live id).Step
      (remote db' (log ++ [(.createRental req now, v)]) tasks live id) := by
  obtain ⟨m, -, -, a, -, -, -, -, -, rfl, key, hkey, rfl⟩ := createRentalTx_ok hx
  let cmd : Command := .startRental db.rentals.nextId req.image key
  have queued : ∀ m', (mailbox (log ++ [(.createRental req now,
      .rental db.rentals.nextId .provisioning m.rateSatsPerMin)])).pending m' =
        (mailbox log).pending m' ++ if m' = req.machineId then [cmd] else [] := by
    intro m'
    by_cases hm : m' = req.machineId <;>
      simp [mailbox_concat, Txn.post, hkey, Mailbox.post, Post.apply, hm, cmd]
  have hfind : ∀ id, ((db.withRental req.machineId req.accountId req.image key m.rateSatsPerMin
      now).withCommand req.machineId (env.serde.toString cmd) now).rentals.find? id =
        (db.rentals.find? id).or (if db.rentals.nextId = id then
          some (.created req.machineId req.accountId req.image key m.rateSatsPerMin now
            db.rentals.nextId) else none) := by
    intro id
    have hrows : ((db.withRental req.machineId req.accountId req.image key m.rateSatsPerMin
        now).withCommand req.machineId (env.serde.toString cmd) now).rentals.rows =
          db.rentals.rows.map (fun r => r) ++ [.created req.machineId req.accountId req.image key
            m.rateSatsPerMin now db.rentals.nextId] := by
      simp [Db.withRental, Db.withCommand]
    rw [Table.find?_of_rows (by intro r; rfl) hrows]
    by_cases hid : db.rentals.nextId = id <;> simp [hid]
  by_cases hid : db.rentals.nextId = id
  · subst hid
    have hnone : db.rentals.find? db.rentals.nextId = none :=
      Table.find?_eq_none.mpr db.rentals.not_has_nextId
    have fresh : ((mailbox log).pending req.machineId).filterMap
        (·.order db.rentals.nextId) = [] :=
      ordersOf_eq_nil haddressed fun r hr hid _ => db.rentals.not_has_nextId ⟨r, hr, hid⟩
    have hcreate := Remote.Step.create (remote db log tasks live db.rentals.nextId)
      (by simp [remote, hnone])
    simpa [remote, ordersOf, hfind, hnone, queued, fresh, cmd, RentalRow.created] using hcreate
  · have same : remote ((db.withRental req.machineId req.accountId req.image key m.rateSatsPerMin
        now).withCommand req.machineId (env.serde.toString cmd) now)
          (log ++ [(.createRental req now, .rental db.rentals.nextId .provisioning
            m.rateSatsPerMin)]) tasks live id = remote db log tasks live id := by
      have other : cmd.order id = none := Command.order_of_ne hid
      simp only [remote, ordersOf, hfind, hid, if_false, Option.or_none, Remote.mk.injEq, and_true,
        true_and]
      split
      case h_1 => rfl
      case h_2 r hr =>
        rw [queued, List.filterMap_append]
        split <;> simp [other]
    rw [same]
    exact .idle _

/-- A transaction other than a report is a step of every rental. -/
theorem exec_remote (hserde : env.serde.RoundTrip) (hfollows : db.Follows env log)
    (haddressed : db.Addressed log) (hv : txn.Valid db) (hx : txn.exec env db = .ok (db', v))
    (hne : ∀ machine rental req now, txn ≠ .report machine rental req now) (tasks : List Task)
    (live : Int → Bool) (id : Int) :
    (remote db log tasks live id).Step
      (remote db' (log ++ [(txn, v)]) (tasks ++ spawned (txn, v)) live id) := by
  have idle : (∀ charge, txn.rewrite charge = fun r => r) →
      (∀ req now, txn ≠ .createRental req now) → Txn.post (txn, v) = .idle →
      spawned (txn, v) = [] → (remote db log tasks live id).Step
        (remote db' (log ++ [(txn, v)]) (tasks ++ spawned (txn, v)) live id) := by
    intro hrewrite hcreate hpost hspawned
    obtain ⟨charge, hfind⟩ := find?_exec hv hx hcreate
    rw [hspawned, List.append_nil, remote_of_idle (by simpa [hrewrite] using hfind) hpost]
    exact .idle _
  cases txn with
  | heartbeat machine req now =>
    obtain rfl := hfollows.heartbeat hserde hx
    obtain ⟨charge, hfind⟩ := find?_exec hv hx (by simp)
    have hrewrite : (Txn.heartbeat machine req now).rewrite charge = fun r => r := rfl
    exact remote_of_drain haddressed (by simpa [hrewrite] using hfind) tasks live id
  | report machine rental req now => exact absurd rfl (hne machine rental req now)
  | createRental req now =>
    have hcreate := remote_of_create haddressed hx tasks live id
    rwa [show spawned (Txn.createRental req now, v) = [] from rfl, List.append_nil]
  | deleteRental r now =>
    obtain ⟨charge, hfind⟩ := find?_exec hv hx (by simp)
    rw [show spawned (Txn.deleteRental r now, v) = [] from rfl, List.append_nil]
    exact remote_of_retire hv.1 hfind (Txn.rewrite_machineId _ _) (Txn.rewrite_status _ _) rfl
      tasks live id
  | evict r now =>
    obtain ⟨charge, hfind⟩ := find?_exec hv hx (by simp)
    rw [show spawned (Txn.evict r now, v) = [] from rfl, List.append_nil]
    exact remote_of_retire hv.1 hfind (Txn.rewrite_machineId _ _) (Txn.rewrite_status _ _) rfl
      tasks live id
  | _ => exact idle (fun _ => rfl) (by simp) rfl rfl

/-- A report changes what the control plane believes of its rental. -/
theorem report_remote {machine : MachineRow} {rental : RentalRow} {req : ReportRequest} {now : Int}
    (hv : (Txn.report machine rental req now).Valid db)
    (hx : (Txn.report machine rental req now).exec env db = .ok (db', v)) (tasks : List Task)
    (live : Int → Bool) (id : Int) :
    remote db' (log ++ [(.report machine rental req now, v)]) tasks live id =
      { remote db log tasks live id with
        believed :=
          if id = req.rentalId then req.status = .running
          else (remote db log tasks live id).believed } := by
  obtain ⟨charge, hfind⟩ := find?_exec hv hx (by simp)
  have hmailbox : mailbox (log ++ [(Txn.report machine rental req now, v)]) = mailbox log := by
    simp [mailbox_concat, Txn.post, Mailbox.post, Post.sends, Post.hands, Post.apply]
  simp only [remote, ordersOf, hfind, hmailbox, Remote.mk.injEq, and_true]
  by_cases hid : id = req.rentalId
  · subst hid
    obtain ⟨cur, hcur, hcid, -⟩ := hv.2.1.row
    have hreq : cur.id = req.rentalId := hcid.trans hv.2.2.1
    have hr : db.rentals.find? req.rentalId = some cur := hreq ▸ Table.find?_of_mem hcur
    simp [hr, Txn.statusOf, hreq]
  · cases hr : db.rentals.find? id with
    | none => simp [hid]
    | some r =>
      have hne : r.id ≠ req.rentalId := fun h => hid ((Table.mem_of_find? hr).2.symm.trans h)
      simp [hid, Txn.statusOf, hne]

end Transactions

section Tasks

variable {w : World} {t : Task}

theorem exists_split_of_getElem? {α : Type} {l : List α} {n : Nat} {a : α} (h : l[n]? = some a) :
    ∃ pre post, l = pre ++ a :: post ∧ (∀ b, l.set n b = pre ++ b :: post) ∧
      l.eraseIdx n = pre ++ post := by
  obtain ⟨hn, rfl⟩ := List.getElem?_eq_some_iff.mp h
  refine ⟨l.take n, l.drop (n + 1), ?_, fun b => ?_, List.eraseIdx_eq_take_drop_succ ..⟩
  · rw [← List.drop_eq_getElem_cons hn, List.take_append_drop]
  · rw [List.set_eq_take_append_cons_drop, if_pos hn]

@[simp] theorem Task.rentalId_send (t : Task) (rentalId : Int) (outcome : Outcome) (left : Bool) :
    (t.send rentalId outcome left).rentalId = rentalId := rfl

@[simp] theorem Task.rentalId_advance (t : Task) (a : DockerAnswer) :
    (t.advance a).rentalId = t.rentalId := by
  obtain ⟨token, runtime, phase⟩ := t
  cases phase with
  | starting spec s => simp only [advance]; split <;> rfl
  | stopping rentalId s => simp only [advance]; split <;> rfl
  | reporting rentalId outcome left thread => rfl

theorem Task.chore_of_ne {id : Int} (h : t.rentalId ≠ id) : t.chore id = none := if_neg h

theorem chores_set {tasks : List Task} {n : Nat} (ht : tasks[n]? = some t) (id : Int) :
    ∃ pre post : List Chore,
      tasks.filterMap (Task.chore id) = pre ++ (t.chore id).toList ++ post ∧
      (∀ t', (tasks.set n t').filterMap (Task.chore id) = pre ++ (t'.chore id).toList ++ post) ∧
      (tasks.eraseIdx n).filterMap (Task.chore id) = pre ++ post := by
  obtain ⟨pre, post, hsplit, hset, herase⟩ := exists_split_of_getElem? ht
  refine ⟨pre.filterMap (Task.chore id), post.filterMap (Task.chore id), ?_, fun t' => ?_, ?_⟩
  · rw [hsplit, List.filterMap_append, List.filterMap_cons]
    cases t.chore id <;> simp
  · rw [hset, List.filterMap_append, List.filterMap_cons]
    cases t'.chore id <;> simp
  · rw [herase, List.filterMap_append]

/-- The daemon's answer to a task is a step of every rental. -/
theorem docker_remote (db : Db) (log : List (Txn × Reply)) {tasks : List Task} {n : Nat}
    (ht : tasks[n]? = some t) {c : DockerCall} (hc : t.call = some c) {live : Int → Bool}
    {a : DockerAnswer} (ha : c.Allows (live t.rentalId) a) (id : Int) :
    (remote db log tasks live id).Step (remote db log (tasks.set n (t.advance a))
      (Function.update live t.rentalId a.live) id) := by
  obtain ⟨pre, post, hbefore, hafter, -⟩ := chores_set ht id
  by_cases hid : t.rentalId = id
  · subst hid
    have after : remote db log (tasks.set n (t.advance a)) (Function.update live t.rentalId a.live)
        t.rentalId = { remote db log tasks live t.rentalId with
          chores := pre ++ ((t.advance a).chore t.rentalId).toList ++ post
          live := a.live } := by
      simp [remote, hafter]
    have hchores : (remote db log tasks live t.rentalId).chores =
        pre ++ (t.chore t.rentalId).toList ++ post := hbefore
    rw [after]
    obtain ⟨token, runtime, phase⟩ := t
    cases phase with
    | starting spec s =>
      obtain rfl : s.call = c := Option.some.inj hc
      have hdoing : (remote db log tasks live spec.rentalId).chores =
          pre ++ .doing .start :: post := by
        simpa [Task.chore, Task.rentalId] using hchores
      obtain ⟨started, hdone, hlive⟩ | ⟨hlive, ⟨s', hnext⟩ | ⟨e, herror⟩⟩ :=
        @DockerRuntime.startRental_live runtime spec _ a s ha
      · have hstep := Remote.Step.started _ pre post hdoing
        simpa [Task.advance, hdone, Task.send, Task.awaiting, Task.chore, Task.rentalId, Outcome.report,
          startReport, Outcome.isFailedStop, hlive] using hstep
      · have hstep := Remote.Step.work _ pre post .start a.live hdoing hlive
        simpa [Task.advance, hnext, Task.chore, Task.rentalId, ← hdoing] using hstep
      · have hstep := Remote.Step.startFailed _ pre post a.live hdoing hlive
        simpa [Task.advance, herror, Task.send, Task.awaiting, Task.chore, Task.rentalId, Outcome.report,
          startReport, Outcome.isFailedStop] using hstep
    | stopping rentalId s =>
      obtain rfl : s.call = c := Option.some.inj hc
      have hdoing : (remote db log tasks live rentalId).chores = pre ++ .doing .stop :: post := by
        simpa [Task.chore, Task.rentalId] using hchores
      obtain ⟨hlive, hoff⟩ := DockerRuntime.stopRental_live ha
      cases hrun : DockerRuntime.stopRental a s with
      | next s' =>
        have hstep := Remote.Step.work _ pre post .stop a.live hdoing hlive
        simpa [Task.advance, hrun, Task.chore, Task.rentalId, ← hdoing] using hstep
      | done outcome =>
        cases outcome with
        | ok u =>
          have hstep := Remote.Step.stopped _ pre post hdoing
          simpa [Task.advance, hrun, Task.send, Task.awaiting, Task.chore, Task.rentalId, Outcome.report,
            stopReport, Outcome.isFailedStop, hoff hrun] using hstep
        | error e =>
          have hstep := Remote.Step.stopFailed _ pre post a.live hdoing hlive
          simpa [Task.advance, hrun, Task.send, Task.awaiting, Task.chore, Task.rentalId, Outcome.report,
            stopReport, Outcome.isFailedStop] using hstep
    | reporting rentalId outcome left thread => cases hc
  · have same : remote db log (tasks.set n (t.advance a)) (Function.update live t.rentalId a.live)
        id = remote db log tasks live id := by
      have hid' : (t.advance a).rentalId ≠ id := by rwa [t.rentalId_advance]
      simp [remote, hbefore, hafter, Task.chore_of_ne hid, Task.chore_of_ne hid',
        Function.update_of_ne (Ne.symm hid)]
    rw [same]
    exact .idle _

end Tasks

end GpuMarket
