import GpuMarket.Lib.Effort
import GpuMarket.Marketplace.Agreement
import Mathlib.Algebra.GroupWithZero.Nat
import Mathlib.Algebra.Order.BigOperators.Group.List
import Mathlib.Algebra.Order.Group.Nat

namespace GpuMarket

open Lib

def Thread.rank : Thread → Nat
  | .received _ => 3
  | .reportRead .. | .payoutPay .. | .depositInvoice .. => 2
  | .registerUpdate .. | .registerInsert .. | .heartbeatTx .. | .reportTx .. | .rateUpdate ..
  | .payoutTx .. | .depositInsert .. | .deleteRentalTx .. => 1
  | .done _ => 0

theorem fetch_rank {α : Type} {x : Except ApiError α} {next : α → Next Thread Txn} {t : Thread}
    {k : Nat} (hn : fetch x next = .read t) (hnext : ∀ a, next a = .read t → t.rank ≤ k) :
    t.rank ≤ k := by
  rcases fetch_eq_read hn with ⟨e, rfl⟩ | ⟨a, -, hn⟩
  · exact Nat.zero_le k
  · exact hnext a hn

theorem Request.rank_next {db : Db} {i : Input} {r : Request} {t : Thread}
    (hn : r.next db i = .read t) : t.rank ≤ 2 := by
  cases r with
  | register req =>
    simp only [next] at hn
    split at hn <;> cases hn <;> simp [Thread.rank]
  | heartbeat auth req | report auth req =>
    refine fetch_rank hn fun m hn => ?_
    cases hn
    simp [Thread.rank]
  | rate auth req | payout auth req | deposit auth req =>
    refine fetch_rank hn fun _ hn => fetch_rank hn fun _ hn => ?_
    cases hn
    simp [Thread.rank]
  | createAccount | createRental req => cases hn
  | deleteRental id =>
    refine fetch_rank hn fun row hn => ?_
    split at hn <;> cases hn <;> simp [Thread.rank]

theorem Thread.rank_next {db : Db} {i : Input} {t t' : Thread} (hn : t.next i db = .read t') :
    t'.rank ≤ t.rank - 1 := by
  cases t with
  | received r => exact Request.rank_next hn
  | reportRead machine req =>
    refine fetch_rank hn fun rental hn => ?_
    cases hn
    simp [rank]
  | payoutPay machine req =>
    simp only [next] at hn
    split at hn <;> cases hn <;> simp [rank]
  | depositInvoice id req =>
    simp only [next] at hn
    split at hn <;> cases hn <;> simp [rank]
  | done reply =>
    cases hn
    simp [rank]
  | registerUpdate | registerInsert | heartbeatTx | reportTx | rateUpdate | payoutTx | depositInsert
  | deleteRentalTx => cases hn

theorem Thread.rank_finish (t : Thread) (v : Except ApiError Reply) : (t.finish v).rank = 0 := by
  cases t <;> rfl

/-- Every step of a thread brings it closer to its reply, whatever the store is. -/
theorem rank_threadStep (env : Env) (s : ServerConf) (n : Nat) (t : Thread) (i : Input) :
    ∃ t', ((server env).threadStep s n t i).threads = s.threads.set n t' ∧
      t'.rank ≤ t.rank - 1 := by
  have finished : ∀ v, (t.finish v).rank ≤ t.rank - 1 := fun v =>
    (t.rank_finish v).trans_le (Nat.zero_le _)
  unfold System.threadStep
  split
  case h_1 e he => exact ⟨_, rfl, finished _⟩
  case h_2 =>
    split
    case h_1 t' hn => exact ⟨t', rfl, Thread.rank_next hn⟩
    case h_2 txn hn => split <;> exact ⟨_, rfl, finished _⟩

def StartStage.rank : StartStage → Nat
  | .pullImage => 5
  | .usedPorts => 4
  | .forceRemove _ => 3
  | .createContainer _ => 2
  | .startContainer .. => 1

def StopStage.rank : StopStage → Nat
  | .stopContainer => 2
  | .forceRemove => 1

theorem DockerRuntime.startRental_rank {rt : DockerRuntime} {spec : RentalSpec} {a : DockerAnswer}
    {s s' : StartStage} (h : rt.startRental spec a s = .next s') : s'.rank < s.rank := by
  cases s with
  | pullImage | forceRemove | createContainer | startContainer =>
    simp only [startRental] at h
    split at h <;> cases h
    all_goals simp [StartStage.rank]
  | usedPorts =>
    simp only [startRental] at h
    split at h
    case h_1 => cases h
    case h_2 =>
      split at h <;> cases h
      simp [StartStage.rank]

theorem DockerRuntime.stopRental_rank {a : DockerAnswer} {s s' : StopStage}
    (h : stopRental a s = .next s') : s'.rank < s.rank := by
  cases s with
  | stopContainer =>
    simp only [stopRental] at h
    split at h
    case h_1 =>
      cases h
      decide
    case h_2 =>
      split at h <;> cases h
      decide
  | forceRemove => cases h

namespace Task

def rank (t : Task) : Nat :=
  match t.phase with
  | .starting _ s => s.rank + 3
  | .stopping _ s => s.rank + 3
  | .reporting _ _ _ thread => thread.rank

theorem rank_le (t : Task) : t.rank ≤ 8 := by
  obtain ⟨token, runtime, phase⟩ := t
  cases phase with
  | starting spec s => cases s <;> simp [rank, StartStage.rank]
  | stopping rentalId s => cases s <;> simp [rank, StopStage.rank]
  | reporting rentalId outcome left thread => cases thread <;> simp [rank, Thread.rank]

theorem finished_iff (t : Task) : t.finished = true ↔ t.rank = 0 := by
  obtain ⟨token, runtime, phase⟩ := t
  cases phase with
  | starting spec s => simp [finished, rank]
  | stopping rentalId s => simp [finished, rank]
  | reporting rentalId outcome left thread => cases thread <;> simp [finished, rank, Thread.rank]

theorem rank_advance {t : Task} {c : DockerCall} (hc : t.call = some c) (a : DockerAnswer) :
    (t.advance a).rank < t.rank := by
  obtain ⟨token, runtime, phase⟩ := t
  cases phase with
  | starting spec s =>
    simp only [advance]
    split
    case h_1 s' hs => exact Nat.add_lt_add_right (DockerRuntime.startRental_rank hs) 3
    case h_2 => cases s <;> simp [rank, send, awaiting, Thread.rank, StartStage.rank]
  | stopping rentalId s =>
    simp only [advance]
    split
    case h_1 s' hs => exact Nat.add_lt_add_right (DockerRuntime.stopRental_rank hs) 3
    case h_2 => cases s <;> simp [rank, send, awaiting, Thread.rank, StopStage.rank]
  | reporting => cases hc

end Task

namespace World

/-- The action moves the task on: the daemon gives an answer that it may give, or the control plane
takes a step on the task's report. -/
def Advances (n : Nat) (w : World) : WorldAct → Prop
  | .server _ => False
  | .docker m a => m = n ∧ ∃ t ∈ w.tasks[n]?, ∃ c ∈ t.call, c.Allows (w.live t.rentalId) a
  | .report m _ => m = n ∧ ∃ t ∈ w.tasks[n]?, t.call = none ∧ t.finished = false

instance (n : Nat) (w : World) : (a : WorldAct) → Decidable (w.Advances n a)
  | .server _ => .isFalse id
  | .docker _ _ | .report _ _ => inferInstanceAs (Decidable (_ ∧ ∃ t ∈ w.tasks[n]?, _))

variable {env : Env} {w : World} {n : Nat} {t : Task}

theorem rank_reportStep (env : Env) (w : World) (n : Nat) (t : Task) (now : Int)
    (hcall : t.call = none) : ∃ t', (w.reportStep env n t now).tasks = w.tasks.set n t' ∧
      t'.rank ≤ t.rank - 1 := by
  obtain ⟨token, runtime, phase⟩ := t
  cases phase with
  | starting | stopping => cases hcall
  | reporting rentalId outcome left thread =>
    obtain ⟨t', hthreads, hrank⟩ := rank_threadStep env
      { w.conf with threads := thread :: w.conf.threads } 0 thread { now }
    refine ⟨_, rfl, ?_⟩
    have hstep : ((server env).step { w.conf with threads := thread :: w.conf.threads }
        (.thread 0 { now })).threads = t' :: w.conf.threads := hthreads
    rw [hstep]
    exact hrank

theorem step_tasks (env : Env) (w : World) (a : WorldAct) :
    (∃ new, (w.step env a).tasks = w.tasks ++ new) ∨
      ∃ m t t', w.tasks[m]? = some t ∧ (w.step env a).tasks = w.tasks.set m t' ∧
        t'.rank ≤ t.rank := by
  have same : ∃ new, w.tasks = w.tasks ++ new := ⟨[], (List.append_nil _).symm⟩
  cases a with
  | server a =>
    left
    simp only [step]
    split
    case isTrue => exact same
    case isFalse => exact ⟨_, rfl⟩
  | docker m a =>
    simp only [step]
    split
    case h_1 => exact .inl same
    case h_2 t ht =>
      unfold dockerStep
      split
      case h_1 => exact .inl same
      case h_2 c hc =>
        split
        case isTrue => exact .inr ⟨m, t, _, ht, rfl, (Task.rank_advance hc a).le⟩
        case isFalse => exact .inl same
  | report m now =>
    simp only [step]
    split
    case h_1 => exact .inl same
    case h_2 t ht =>
      cases hcall : t.call with
      | none =>
        obtain ⟨t', htasks, hrank⟩ := rank_reportStep env w m t now hcall
        exact .inr ⟨m, t, t', ht, htasks, hrank.trans (Nat.sub_le _ 1)⟩
      | some c =>
        left
        unfold reportStep
        split
        case h_1 rentalId outcome left thread hp =>
          rw [Task.call, hp] at hcall
          cases hcall
        case h_2 => exact same

theorem Advances.step {a : WorldAct} (h : w.Advances n a) (env : Env) :
    ∃ t t', w.tasks[n]? = some t ∧ (w.step env a).tasks = w.tasks.set n t' ∧ t'.rank < t.rank := by
  cases a with
  | server a => exact h.elim
  | docker m a =>
    obtain ⟨rfl, t, ht, c, hc, hallows⟩ := h
    refine ⟨t, t.advance a, ht, ?_, Task.rank_advance hc a⟩
    have ht' : w.tasks[m]? = some t := ht
    have hc' : t.call = some c := hc
    simp only [World.step, ht', dockerStep, hc', if_pos hallows]
  | report m now =>
    obtain ⟨rfl, t, ht, hcall, hopen⟩ := h
    obtain ⟨t', htasks, hrank⟩ := rank_reportStep env w m t now hcall
    have ht' : w.tasks[m]? = some t := ht
    refine ⟨t, t', ht, ?_, ?_⟩
    · simp only [World.step, ht', htasks]
    · have hpos : t.rank ≠ 0 := fun hzero => by
        rw [t.finished_iff.mpr hzero] at hopen
        cases hopen
      omega

def rankAt (n : Nat) (w : World) : Nat := (w.tasks[n]?.map Task.rank).getD 0

theorem rankAt_eq (ht : w.tasks[n]? = some t) : w.rankAt n = t.rank := by
  rw [rankAt, ht]
  rfl

theorem length_le_step (env : Env) (w : World) (a : WorldAct) :
    w.tasks.length ≤ (w.step env a).tasks.length := by
  rcases step_tasks env w a with ⟨new, htasks⟩ | ⟨m, t, t', -, htasks, -⟩
  · rw [htasks, List.length_append]
    exact Nat.le_add_right _ _
  · rw [htasks, List.length_set]

theorem rankAt_step_le (env : Env) (a : WorldAct) (hn : n < w.tasks.length) :
    (w.step env a).rankAt n ≤ w.rankAt n := by
  rcases step_tasks env w a with ⟨new, htasks⟩ | ⟨m, t, t', ht, htasks, hrank⟩
  · rw [rankAt, rankAt, htasks, List.getElem?_append_left hn]
  · by_cases hm : m = n
    · obtain rfl := hm
      rw [rankAt_eq ht, rankAt, htasks, List.getElem?_set_self hn]
      exact hrank
    · rw [rankAt, rankAt, htasks, List.getElem?_set_ne hm]

theorem Advances.rankAt_step {a : WorldAct} (h : w.Advances n a) (env : Env) :
    (w.step env a).rankAt n < w.rankAt n := by
  obtain ⟨t, t', ht, htasks, hrank⟩ := h.step env
  rw [rankAt_eq ht, rankAt, htasks, List.getElem?_set_self (List.getElem?_eq_some_iff.mp ht).1]
  exact hrank

/-- The daemon may always do what it is asked to, and the control plane may always take its next
step. -/
theorem exists_advances (ht : w.tasks[n]? = some t) (hopen : t.finished = false) :
    ∃ a, (∀ b, a ≠ .server b) ∧ w.Advances n a := by
  cases hcall : t.call with
  | none => exact ⟨.report n 0, fun _ h => WorldAct.noConfusion h, rfl, t, ht, hcall, hopen⟩
  | some c =>
    have answer : ∃ live, c.Allows (w.live t.rentalId) { live } := by
      cases c with
      | createImage | listContainers | createContainer => exact ⟨_, rfl⟩
      | startContainer => exact ⟨true, rfl⟩
      | stopContainer | removeContainer => exact ⟨false, rfl⟩
    obtain ⟨live, hallows⟩ := answer
    exact ⟨.docker n { live }, fun _ h => WorldAct.noConfusion h, rfl, t, ht, c, hcall, hallows⟩

def totalRank (w : World) : Nat := (w.tasks.map Task.rank).sum

theorem totalRank_le (w : World) : w.totalRank ≤ 8 * w.tasks.length := by
  have h := List.sum_le_card_nsmul (w.tasks.map Task.rank) 8 (by simp [Task.rank_le])
  simpa [totalRank, Nat.mul_comm] using h

theorem Advances.totalRank_step {a : WorldAct} (h : w.Advances n a) (env : Env) :
    (w.step env a).totalRank < w.totalRank := by
  obtain ⟨t, t', ht, htasks, hrank⟩ := h.step env
  have hn := (List.getElem?_eq_some_iff.mp ht).1
  have hsplit := eq_append_cons_of_getElem? ht
  rw [totalRank, totalRank, htasks, List.set_eq_take_append_cons_drop, if_pos hn]
  conv_rhs => rw [hsplit]
  simp only [List.map_append, List.map_cons, List.sum_append, List.sum_cons]
  omega

theorem exists_totalRank_lt (env : Env) (w : World) (h : 0 < w.totalRank) :
    ∃ a, (∀ b, a ≠ WorldAct.server b) ∧ (w.step env a).totalRank < w.totalRank := by
  have hopen : ∃ t ∈ w.tasks, t.finished = false := by
    by_contra hall
    simp only [not_exists, not_and, Bool.not_eq_false] at hall
    have hzero : w.totalRank = 0 :=
      List.sum_eq_zero (List.forall_mem_map.mpr fun t ht => t.finished_iff.mp (hall t ht))
    exact absurd hzero h.ne'
  obtain ⟨t, hmem, hopen⟩ := hopen
  obtain ⟨n, ht⟩ := List.mem_iff_getElem?.mp hmem
  obtain ⟨a, ha, hadv⟩ := exists_advances ht hopen
  exact ⟨a, ha, hadv.totalRank_step env⟩

theorem finished_of_totalRank (h : w.totalRank = 0) : ∀ t ∈ w.tasks, t.finished = true := by
  intro t ht
  have hle : t.rank ≤ w.totalRank :=
    List.single_le_sum (fun _ _ => Nat.zero_le _) _ (List.mem_map_of_mem ht)
  exact t.finished_iff.mpr (Nat.eq_zero_of_le_zero (hle.trans h.le))

theorem exists_finish (env : Env) (w : World) :
    ∃ acts, (∀ a ∈ acts, ∀ b, a ≠ WorldAct.server b) ∧ acts.length ≤ 8 * w.tasks.length ∧
      ∀ t ∈ (run (World.step env) w acts).tasks, t.finished = true := by
  obtain ⟨acts, hacts, hlength, hzero⟩ :=
    exists_run_rank_eq_zero (C := fun a => ∀ b, a ≠ WorldAct.server b) (exists_totalRank_lt env) w
  exact ⟨acts, hacts, hlength.trans w.totalRank_le, finished_of_totalRank hzero⟩

end World

/-- No task waits for another, nor for ever: over any run eight answers of the daemon and steps on
its report are all that a task can take, one that has not finished can always take the next, and
left to themselves all the tasks finish. -/
theorem tasks_finish (env : Env) (w : World) :
    (∀ acts n, n < w.tasks.length →
      effort (World.step env) (World.Advances n) w acts ≤ 8 ∧
      ∃ t, (run (World.step env) w acts).tasks[n]? = some t ∧
        (effort (World.step env) (World.Advances n) w acts = 8 → t.finished = true) ∧
        (t.finished = false → ∃ a, (run (World.step env) w acts).Advances n a)) ∧
    ∃ acts, (∀ a ∈ acts, ∀ b, a ≠ WorldAct.server b) ∧ acts.length ≤ 8 * w.tasks.length ∧
      ∀ t ∈ (run (World.step env) w acts).tasks, t.finished = true := by
  constructor
  · intro acts n hn
    have stays : ∀ (w : World) a, n < w.tasks.length → n < (w.step env a).tasks.length :=
      fun w a h => h.trans_le (w.length_le_step env a)
    have hgrow : n < (run (World.step env) w acts).tasks.length :=
      run_invariant (I := fun w : World => n < w.tasks.length) stays hn acts
    have ht := List.getElem?_eq_getElem hgrow
    have hstart : w.rankAt n ≤ 8 := by
      rw [World.rankAt_eq (List.getElem?_eq_getElem hn)]
      exact Task.rank_le _
    have hpaid : effort (World.step env) (World.Advances n) w acts +
        (run (World.step env) w acts).rankAt n ≤ w.rankAt n :=
      effort_add_rank_le (I := fun w : World => n < w.tasks.length) stays
        (fun w a _ h => World.Advances.rankAt_step h env)
        (fun w a h => World.rankAt_step_le env a h) hn acts
    rw [World.rankAt_eq ht] at hpaid
    refine ⟨by omega, _, ht, fun hall => (Task.finished_iff _).mpr (by omega), fun hopen => ?_⟩
    obtain ⟨a, -, hadv⟩ := World.exists_advances ht hopen
    exact ⟨a, hadv⟩
  · exact World.exists_finish env w

/-- The agent's first task takes all eight. -/
theorem tasks_finish_launch :
    effort (World.step testEnv) (World.Advances 0)
        (run (World.step testEnv) .init (launch.take (launch.length - 5)))
        (launch.drop (launch.length - 5) ++ reported 0 5) = 8 ∧
      ∃ t, (run (World.step testEnv) .init (launch ++ reported 0 5)).tasks[0]? = some t ∧
        t.finished = true := by
  have height : effort (World.step testEnv) (World.Advances 0)
      (run (World.step testEnv) .init (launch.take (launch.length - 5)))
      (launch.drop (launch.length - 5) ++ reported 0 5) = 8 := by decide +kernel
  obtain ⟨-, t, ht, hdone, -⟩ := (tasks_finish testEnv
    (run (World.step testEnv) .init (launch.take (launch.length - 5)))).1
      (launch.drop (launch.length - 5) ++ reported 0 5) 0 (by decide +kernel)
  rw [← run_append, ← List.append_assoc, List.take_append_drop] at ht
  exact ⟨height, t, ht, hdone height⟩

end GpuMarket
