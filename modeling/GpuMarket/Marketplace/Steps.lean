import GpuMarket.Marketplace.Invariant

namespace GpuMarket

open Lib

def Thread.answered : Thread → Bool
  | .done _ => true
  | _ => false

theorem Outcome.rentalId_report (outcome : Outcome) (rentalId : Int) :
    (outcome.report rentalId).rentalId = rentalId := by
  cases outcome with
  | started outcome => cases outcome <;> rfl
  | stopped outcome => cases outcome <;> rfl

theorem Task.chore_reporting {t : Task} {rentalId : Int} {outcome : Outcome} {left : Bool}
    {thread : Thread} (hp : t.phase = .reporting rentalId outcome left thread) (id : Int) :
    t.chore id = if rentalId = id ∧ thread.answered = false then
      some (.told ((outcome.report rentalId).status = .running) left outcome.isFailedStop)
    else none := by
  by_cases hid : rentalId = id <;> cases thread <;>
    simp [chore, Task.rentalId, Thread.answered, hp, hid]

theorem Task.chore_awaiting (t : Task) (rentalId : Int) (outcome : Outcome) (left : Bool)
    (thread : Thread) (id : Int) : (t.awaiting rentalId outcome left thread).chore id =
      if rentalId = id ∧ thread.answered = false then
        some (.told ((outcome.report rentalId).status = .running) left outcome.isFailedStop)
      else none := chore_reporting rfl id

theorem Thread.Carries.ok {db : Db} {auth : Option String} {machineId : Int} {req : ReportRequest}
    {t : Thread} (h : t.Carries db auth machineId req) : t.Ok db := by
  cases t with
  | received r => trivial
  | reportRead machine q => exact h.2.2
  | reportTx machine rental q now => exact h.2
  | done reply => trivial
  | _ => exact h.elim

theorem Thread.Carries.served {db : Db} {auth : Option String} {req : ReportRequest} {t : Thread}
    {r : RentalRow} (hr : r ∈ db.rentals.rows) (hid : r.id = req.rentalId)
    (hauth : ∃ m, authenticate db auth = .ok m ∧ m.id = r.machineId)
    (h : t.Carries db auth r.machineId req) (i : Input) :
    (∃ t', t.next i db = .read t' ∧ t'.Carries db auth r.machineId req ∧
      t'.answered = t.answered) ∨
    ∃ machine rental now, t = .reportTx machine rental req now := by
  cases t with
  | received q =>
    obtain rfl : q = .report auth req := h
    obtain ⟨m, hm, hmid⟩ := hauth
    refine .inl ⟨.reportRead m req, ?_, ⟨rfl, hmid, authenticate_hasMachine hm⟩, rfl⟩
    simp [Thread.next, Request.next, hm, fetch]
  | reportRead machine q =>
    obtain ⟨rfl, hmid, hm⟩ := h
    have hfound : rentalOfMachine db q.rentalId machine.id = .ok r := by
      rw [← hid, hmid]
      exact rentalOfMachine_of_mem hr
    refine .inl ⟨.reportTx machine r q i.now, ?_, ⟨rfl, hm, ⟨r, hr, rfl⟩, hid, hmid.symm⟩, rfl⟩
    simp [Thread.next, hfound, fetch]
  | reportTx machine rental q now =>
    obtain rfl : q = req := h.1
    exact .inr ⟨machine, rental, now, rfl⟩
  | done reply => exact .inl ⟨.done reply, rfl, trivial, rfl⟩
  | _ => exact h.elim

theorem Task.Ok.advance {db : Db} {t : Task} (h : t.Ok db) (a : DockerAnswer) :
    (t.advance a).Ok db := by
  obtain ⟨r, hr, hid, hauth, hphase⟩ := h
  obtain ⟨token, runtime, phase⟩ := t
  cases phase with
  | starting spec s =>
    simp only [Task.advance]
    split
    · exact ⟨r, hr, hid, hauth, trivial⟩
    · exact ⟨r, hr, hid, hauth, rfl⟩
  | stopping rentalId s =>
    simp only [Task.advance]
    split
    · exact ⟨r, hr, hid, hauth, trivial⟩
    · exact ⟨r, hr, hid, hauth, rfl⟩
  | reporting rentalId outcome left thread => exact ⟨r, hr, hid, hauth, hphase⟩

namespace World

def view (w : World) (id : Int) : Remote := remote w.conf.store w.conf.log w.tasks w.live id

variable {env : Env} {w : World}

theorem serverStep_ok (hserde : env.serde.RoundTrip) (h : w.Inv env) {a : ServerAct}
    (ha : a.isReport = false) :
    (w.serverStep env a).Inv env ∧ ∀ id, (w.view id).Step ((w.serverStep env a).view id) := by
  have holds := h.holds.step _ a
  have threads := @step_not_report env _ _ ha h.threads
  obtain ⟨hstore, hlog⟩ | ⟨txn, v, hc, hx, hlog⟩ := (server env).step_store w.conf a
  · have htasks : (w.serverStep env a).tasks = w.tasks := by simp [serverStep, hlog]
    refine ⟨⟨holds, ?_, ?_, ?_, threads, ?_⟩, fun id => ?_⟩
    · simpa [serverStep, hstore, hlog] using h.follows
    · simpa [serverStep, hstore, hlog] using h.addressed
    · simpa [serverStep, hstore] using h.tokens
    · simpa [serverStep, hstore, hlog] using h.tasks
    · have same : (w.serverStep env a).view id = w.view id := by
        simp [view, serverStep, hstore, hlog]
      rw [same]
      exact .idle _
  · have hv := h.holds.valid _ hc
    have hext := Db.Extends.exec hx
    have hne := commits_not_report h.threads hc
    have htasks : (w.serverStep env a).tasks = w.tasks ++ spawned (txn, v) := by
      simp [serverStep, hlog]
    refine ⟨⟨holds, ?_, ?_, h.tokens.exec hx, threads, fun t ht => ?_⟩, fun id => ?_⟩
    · have hfollows := h.follows.exec hserde h.holds.inv hx
      rwa [← hlog] at hfollows
    · have haddressed := h.addressed.exec hv hx
      rwa [← hlog] at haddressed
    · rw [htasks] at ht
      rcases List.mem_append.mp ht with ht | ht
      · exact (h.tasks t ht).mono hext
      · exact (spawned_ok hserde h.follows h.addressed h.tokens hv hx ht).mono hext
    · have hstep := exec_remote hserde h.follows h.addressed hv hx hne w.tasks w.live id
      rwa [← hlog, ← htasks] at hstep

theorem Inv.setTask (h : w.Inv env) {n : Nat} {t : Task} (ht : t.Ok w.conf.store)
    (live : Int → Bool) : Inv env { w with tasks := w.tasks.set n t, live } :=
  { h with
    tasks := fun t' ht' => by
      rcases List.mem_or_eq_of_mem_set ht' with ht' | rfl
      · exact h.tasks t' ht'
      · exact ht }

theorem dockerStep_ok (h : w.Inv env) {n : Nat} {t : Task} (ht : w.tasks[n]? = some t)
    (a : DockerAnswer) :
    (w.dockerStep n t a).Inv env ∧ ∀ id, (w.view id).Step ((w.dockerStep n t a).view id) := by
  unfold dockerStep
  split
  case h_1 => exact ⟨h, fun id => .idle _⟩
  case h_2 c hc =>
    split
    case isFalse => exact ⟨h, fun id => .idle _⟩
    case isTrue hallows =>
      exact ⟨h.setTask ((h.tasks t (List.mem_of_getElem? ht)).advance a) _,
        docker_remote _ _ ht hc hallows⟩

section Report

variable {n : Nat} {t : Task} {rentalId : Int} {outcome : Outcome} {left : Bool} {thread : Thread}

theorem reportStep_holds (h : w.Inv env) (ht : w.tasks[n]? = some t) (now : Int) :
    (serverContract env).Holds (w.reportStep env n t now).conf := by
  obtain ⟨r, -, -, -, hphase⟩ := h.tasks _ (List.mem_of_getElem? ht)
  unfold reportStep
  split
  case h_1 rentalId outcome left thread hp =>
    have pool : (serverContract env).Holds { w.conf with threads := thread :: w.conf.threads } := by
      refine h.holds.withThreads _ fun t ht => ?_
      rw [hp] at hphase
      rcases List.mem_cons.mp ht with rfl | ht
      · exact Thread.Carries.ok hphase
      · exact h.holds.thread t ht
    have served := pool.step _ (.thread 0 { now })
    exact served.withThreads _ fun t ht => served.thread t (List.mem_of_mem_tail ht)
  case h_2 => exact h.holds

theorem reportStep_read (hp : t.phase = .reporting rentalId outcome left thread) {thread' : Thread}
    {now : Int} (hn : thread.next { now } w.conf.store = .read thread') :
    w.reportStep env n t now = { w with
      tasks := w.tasks.set n (t.awaiting rentalId outcome left thread') } := by
  simp [reportStep, hp, System.step, System.threadStep, server, hn]

theorem reportStep_commit {machine : MachineRow} {rental : RentalRow} {req : ReportRequest}
    {now now' : Int} (hp : t.phase = .reporting rentalId outcome left
      (.reportTx machine rental req now')) {db : Db} {v : Reply}
    (hx : (Txn.report machine rental req now').exec env w.conf.store = .ok (db, v)) :
    w.reportStep env n t now = { w with
      conf := { w.conf with
        store := db
        log := w.conf.log ++ [(.report machine rental req now', v)] }
      tasks := w.tasks.set n (t.awaiting rentalId outcome left (.done (.ok v))) } := by
  simp [reportStep, hp, System.step, System.threadStep, server, Thread.next, hx, Thread.finish]

theorem reportStep_waits (h : w.Inv env) (ht : w.tasks[n]? = some t)
    (hp : t.phase = .reporting rentalId outcome left thread)
    (hne : ∀ machine rental req now, thread ≠ .reportTx machine rental req now) (now : Int) :
    (w.reportStep env n t now).Inv env ∧ ∀ id, (w.reportStep env n t now).view id = w.view id := by
  obtain ⟨r, hr, hid, hauth, hphase⟩ := h.tasks _ (List.mem_of_getElem? ht)
  rw [hp] at hphase
  have hreq : r.id = (outcome.report rentalId).rentalId := by
    rw [hid, outcome.rentalId_report, Task.rentalId, hp]
  obtain ⟨thread', hn, hcarries, hanswered⟩ | ⟨machine, rental, now', htx⟩ :=
    Thread.Carries.served hr hreq hauth hphase { now }
  · rw [reportStep_read hp hn]
    have hok : (t.awaiting rentalId outcome left thread').Ok w.conf.store := by
      refine ⟨r, hr, ?_, hauth, hcarries⟩
      rw [hid, Task.rentalId, hp]
      rfl
    refine ⟨h.setTask hok _, fun id => ?_⟩
    · obtain ⟨pre, post, hbefore, hafter, -⟩ := chores_set ht id
      simp [view, remote, hbefore, hafter, Task.chore_reporting hp, Task.chore_awaiting,
        hanswered]
  · exact absurd htx (hne machine rental _ now')

theorem reportStep_tells (hserde : env.serde.RoundTrip) (h : w.Inv env)
    (ht : w.tasks[n]? = some t) {machine : MachineRow} {rental : RentalRow} {req : ReportRequest}
    {now' : Int} (hp : t.phase = .reporting rentalId outcome left
      (.reportTx machine rental req now')) (now : Int) :
    (w.reportStep env n t now).Inv env ∧
      (∀ id, id ≠ rentalId → (w.reportStep env n t now).view id = w.view id) ∧
      (w.view rentalId).Tells ((outcome.report rentalId).status = .running) left
        outcome.isFailedStop ((w.reportStep env n t now).view rentalId) ∧
      (((w.reportStep env n t now).view rentalId).Idle ↔
        (view { w with tasks := w.tasks.eraseIdx n } rentalId).Idle) := by
  have hholds := reportStep_holds h ht now
  obtain ⟨r, hr, hid, hauth, hphase⟩ := h.tasks _ (List.mem_of_getElem? ht)
  rw [hp] at hphase
  obtain ⟨rfl, hv⟩ := hphase
  obtain ⟨⟨db, v⟩, hx⟩ := @report_exec_ok env machine rental (outcome.report rentalId) now' _
    h.holds.inv hv.2.1
  have hext := Db.Extends.exec hx
  rw [reportStep_commit hp hx] at hholds ⊢
  have hview : ∀ id, view { w with
      conf := { w.conf with
        store := db
        log := w.conf.log ++ [(.report machine rental (outcome.report rentalId) now', v)] }
      tasks := w.tasks.set n (t.awaiting rentalId outcome left (.done (.ok v))) } id =
      { w.view id with
        believed :=
          if id = rentalId then (outcome.report rentalId).status = .running
          else (w.view id).believed
        chores := (w.tasks.set n (t.awaiting rentalId outcome left (.done (.ok v)))).filterMap
          (Task.chore id) } := by
    intro id
    rw [view, report_remote hv hx, outcome.rentalId_report]
    rfl
  refine ⟨⟨hholds, h.follows.exec hserde h.holds.inv hx, h.addressed.exec hv hx, h.tokens.exec hx,
    h.threads, fun t' ht' => ?_⟩, fun id hne => ?_, ?_, ?_⟩
  · rcases List.mem_or_eq_of_mem_set ht' with ht' | rfl
    · exact (h.tasks t' ht').mono hext
    · refine Task.Ok.mono hext ⟨r, hr, ?_, hauth, trivial⟩
      rw [hid, Task.rentalId, hp]
      rfl
  · obtain ⟨pre, post, hbefore, hafter, -⟩ := chores_set ht id
    rw [hview]
    simp [hne, hafter, view, remote, hbefore, Task.chore_reporting hp, Task.chore_awaiting,
      Ne.symm hne]
  · obtain ⟨pre, post, hbefore, hafter, -⟩ := chores_set ht rentalId
    rw [hview]
    have hchores : (w.view rentalId).chores = pre ++ .told
        ((outcome.report rentalId).status = .running) left outcome.isFailedStop :: post := by
      simp [view, remote, hbefore, Task.chore_reporting hp, Thread.answered]
    have htells := Remote.Tells.intro _ pre post hchores
    simpa [hafter, Task.chore_awaiting, Thread.answered] using htells
  · obtain ⟨pre, post, -, hafter, herase⟩ := chores_set ht rentalId
    rw [hview]
    simp [Remote.Idle, hafter, herase, view, remote, Task.chore_awaiting, Thread.answered]

end Report

end World

end GpuMarket
