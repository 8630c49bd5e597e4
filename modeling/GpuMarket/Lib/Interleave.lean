import GpuMarket.Lib.Run
import Mathlib.Data.List.Basic
import Mathlib.Data.List.Forall2

universe u

namespace GpuMarket.Lib

/-- What a process does in one step: it reads the store and moves on, or it asks for a
transaction. -/
inductive Next (τ δ : Type u) : Type u
  | read : τ → Next τ δ
  | commit : δ → Next τ δ

/-- Threads and one daemon over a store `σ` that changes only in atomic transactions `δ`.
A read outside a transaction sees the store as it is in that step. -/
structure System (σ δ ν ε τ κ ρ ι : Type u) where
  exec : δ → σ → Except ε (σ × ν)
  start : ρ → τ
  thread : ι → σ → τ → Next τ δ
  finish : τ → Except ε ν → τ
  daemon : ι → σ → κ → Next κ δ
  resume : κ → Except ε ν → κ
  /-- the error with which the environment makes this step fail, if it does -/
  fails : ι → Option ε

structure Conf (σ δ ν τ κ : Type u) where
  store : σ
  daemon : κ
  threads : List τ
  /-- the committed transactions with their replies, in commit order -/
  log : List (δ × ν)

inductive Act (ρ ι : Type u) : Type u
  | request : ρ → Act ρ ι
  | thread : Nat → ι → Act ρ ι
  | daemon : ι → Act ρ ι

def Act.request? {ρ ι : Type u} : Act ρ ι → Option ρ
  | .request r => some r
  | .thread .. | .daemon _ => none

/-- The requests of a run, each in the place that its thread has among the threads. -/
def requests {ρ ι : Type u} (as : List (Act ρ ι)) : List ρ := as.filterMap Act.request?

theorem forall₂_set {α β : Type u} {R R' : α → β → Prop} {l : List α} {l' : List β}
    (h : List.Forall₂ R l l') (hR : ∀ a b, R a b → R' a b) {n : Nat} {b b' : β}
    (hb : l'[n]? = some b) (hb' : ∀ a, R a b → R' a b') : List.Forall₂ R' l (l'.set n b') := by
  induction h generalizing n with
  | nil => simp at hb
  | cons hab h ih =>
    cases n with
    | zero =>
      cases hb
      exact .cons (hb' _ hab) (h.imp hR)
    | succ n => exact .cons (hR _ _ hab) (ih hb)

theorem forall₂_getElem? {α β : Type u} {R : α → β → Prop} {l : List α} {l' : List β}
    (h : List.Forall₂ R l l') {n : Nat} {a : α} {b : β} (ha : l[n]? = some a)
    (hb : l'[n]? = some b) : R a b := by
  induction h generalizing n with
  | nil => simp at ha
  | cons hab h ih =>
    cases n with
    | zero =>
      cases ha
      cases hb
      exact hab
    | succ n => exact ih ha hb

theorem concat_eq_append_cons {α : Type u} {l pre post : List α} {x e : α}
    (h : l ++ [x] = pre ++ e :: post) :
    (pre = l ∧ e = x ∧ post = []) ∨ ∃ post', post = post' ++ [x] ∧ l = pre ++ e :: post' := by
  induction post using List.reverseRecOn with
  | nil =>
    obtain ⟨rfl, he⟩ := List.append_inj' h rfl
    cases he
    exact .inl ⟨rfl, rfl, rfl⟩
  | append_singleton post y =>
    have hinit : l ++ [x] = (pre ++ e :: post) ++ [y] := by simpa using h
    obtain ⟨rfl, hy⟩ := List.append_inj' hinit rfl
    cases hy
    exact .inr ⟨post, rfl, rfl⟩

theorem eq_append_cons_of_getElem? {α : Type u} {l : List α} {n : Nat} {x : α}
    (h : l[n]? = some x) : l = l.take n ++ x :: l.drop (n + 1) := by
  obtain ⟨hn, rfl⟩ := List.getElem?_eq_some_iff.mp h
  rw [List.getElem_cons_drop, List.take_append_drop]

namespace System

variable {σ δ ν ε τ κ ρ ι : Type u} (S : System σ δ ν ε τ κ ρ ι)

def threadStep (s : Conf σ δ ν τ κ) (n : Nat) (t : τ) (i : ι) : Conf σ δ ν τ κ :=
  match S.fails i with
  | some e => { s with threads := s.threads.set n (S.finish t (.error e)) }
  | none =>
    match S.thread i s.store t with
    | .read t' => { s with threads := s.threads.set n t' }
    | .commit txn =>
      match S.exec txn s.store with
      | .ok (store, v) =>
        { s with
          store
          threads := s.threads.set n (S.finish t (.ok v))
          log := s.log ++ [(txn, v)] }
      | .error e => { s with threads := s.threads.set n (S.finish t (.error e)) }

def daemonStep (s : Conf σ δ ν τ κ) (i : ι) : Conf σ δ ν τ κ :=
  match S.fails i with
  | some e => { s with daemon := S.resume s.daemon (.error e) }
  | none =>
    match S.daemon i s.store s.daemon with
    | .read k => { s with daemon := k }
    | .commit txn =>
      match S.exec txn s.store with
      | .ok (store, v) =>
        { s with store, daemon := S.resume s.daemon (.ok v), log := s.log ++ [(txn, v)] }
      | .error e => { s with daemon := S.resume s.daemon (.error e) }

def step (s : Conf σ δ ν τ κ) : Act ρ ι → Conf σ δ ν τ κ
  | .request r => { s with threads := s.threads ++ [S.start r] }
  | .thread n i =>
    match s.threads[n]? with
    | none => s
    | some t => S.threadStep s n t i
  | .daemon i => S.daemonStep s i

theorem step_daemon (s : Conf σ δ ν τ κ) {a : Act ρ ι} (h : ∀ i, a ≠ .daemon i) :
    (S.step s a).daemon = s.daemon := by
  cases a with
  | request r => rfl
  | daemon i => exact absurd rfl (h i)
  | thread n i =>
    simp only [step]
    split
    case h_1 => rfl
    case h_2 =>
      unfold threadStep
      split
      case h_1 => rfl
      case h_2 =>
        split
        case h_1 => rfl
        case h_2 => split <;> rfl

def commits (s : Conf σ δ ν τ κ) : Act ρ ι → Option δ
  | .request _ => none
  | .thread n i =>
    match s.threads[n]?, S.fails i with
    | some t, none =>
      match S.thread i s.store t with
      | .read _ => none
      | .commit txn => some txn
    | _, _ => none
  | .daemon i =>
    match S.fails i with
    | some _ => none
    | none =>
      match S.daemon i s.store s.daemon with
      | .read _ => none
      | .commit txn => some txn

theorem step_store (s : Conf σ δ ν τ κ) (a : Act ρ ι) :
    ((S.step s a).store = s.store ∧ (S.step s a).log = s.log) ∨
      ∃ txn v, S.commits s a = some txn ∧ S.exec txn s.store = .ok ((S.step s a).store, v) ∧
        (S.step s a).log = s.log ++ [(txn, v)] := by
  cases a with
  | request r => exact .inl ⟨rfl, rfl⟩
  | thread n i =>
    simp only [step, commits]
    cases ht : s.threads[n]? with
    | none => exact .inl ⟨rfl, rfl⟩
    | some t =>
      simp only [threadStep]
      cases hf : S.fails i with
      | some e => exact .inl ⟨rfl, rfl⟩
      | none =>
        cases hn : S.thread i s.store t with
        | read t' => exact .inl ⟨rfl, rfl⟩
        | commit txn =>
          cases hx : S.exec txn s.store with
          | error e => exact .inl (by simp [hx])
          | ok r => exact .inr ⟨txn, r.2, by simp [hn], by simp [hx], by simp [hx]⟩
  | daemon i =>
    simp only [step, daemonStep, commits]
    cases hf : S.fails i with
    | some e => exact .inl ⟨rfl, rfl⟩
    | none =>
      cases hn : S.daemon i s.store s.daemon with
      | read k => exact .inl ⟨rfl, rfl⟩
      | commit txn =>
        cases hx : S.exec txn s.store with
        | error e => exact .inl (by simp [hx])
        | ok r => exact .inr ⟨txn, r.2, rfl, by simp [hx], by simp [hx]⟩

theorem commits_thread {s : Conf σ δ ν τ κ} {n : Nat} {i : ι} {txn : δ}
    (h : S.commits s (.thread n i : Act ρ ι) = some txn) :
    ∃ t, s.threads[n]? = some t ∧ S.fails i = none ∧ S.thread i s.store t = .commit txn := by
  simp only [commits] at h
  split at h
  case h_2 => cases h
  case h_1 t ht hf =>
    split at h
    case h_1 => cases h
    case h_2 txn' hn =>
      cases h
      exact ⟨t, ht, hf, hn⟩

theorem commits_cases {s : Conf σ δ ν τ κ} {a : Act ρ ι} {txn : δ}
    (h : S.commits s a = some txn) :
    (∃ n i t, a = .thread n i ∧ t ∈ s.threads ∧ S.fails i = none ∧
      S.thread i s.store t = .commit txn) ∨
    ∃ i, a = .daemon i ∧ S.fails i = none ∧ S.daemon i s.store s.daemon = .commit txn := by
  cases a with
  | request r => cases h
  | thread n i =>
    obtain ⟨t, ht, hf, hn⟩ := S.commits_thread h
    exact .inl ⟨n, i, t, rfl, List.mem_of_getElem? ht, hf, hn⟩
  | daemon i =>
    simp only [commits] at h
    split at h
    case h_1 => cases h
    case h_2 hf =>
      split at h
      case h_1 => cases h
      case h_2 txn' hn =>
        cases h
        exact .inr ⟨i, rfl, hf, hn⟩

theorem step_thread_threads (s : Conf σ δ ν τ κ) (n : Nat) (i : ι) :
    (s.threads[n]? = none ∧ (S.step s (.thread n i : Act ρ ι)).threads = s.threads) ∨
      ∃ t t', s.threads[n]? = some t ∧
        (S.step s (.thread n i : Act ρ ι)).threads = s.threads.set n t' ∧
          ((∃ r, t' = S.finish t r) ∨ S.fails i = none ∧ S.thread i s.store t = .read t') := by
  simp only [step]
  cases ht : s.threads[n]? with
  | none => exact .inl ⟨rfl, rfl⟩
  | some t =>
    refine .inr ?_
    simp only [threadStep]
    cases hf : S.fails i with
    | some e => exact ⟨t, _, rfl, rfl, .inl ⟨_, rfl⟩⟩
    | none =>
      cases hn : S.thread i s.store t with
      | read t' => exact ⟨t, t', rfl, rfl, .inr ⟨rfl, hn⟩⟩
      | commit txn =>
        cases hx : S.exec txn s.store with
        | error e => exact ⟨t, S.finish t (.error e), rfl, by simp only [hx], .inl ⟨_, rfl⟩⟩
        | ok r => exact ⟨t, S.finish t (.ok r.2), rfl, by simp only [hx], .inl ⟨_, rfl⟩⟩

theorem step_daemon_threads (s : Conf σ δ ν τ κ) (i : ι) :
    (S.step s (.daemon i : Act ρ ι)).threads = s.threads := by
  simp only [step, daemonStep]
  cases S.fails i with
  | some e => rfl
  | none =>
    cases S.daemon i s.store s.daemon with
    | read k => rfl
    | commit txn =>
      cases hx : S.exec txn s.store with
      | error e => simp only [hx]
      | ok r => simp only [hx]

theorem step_of_commits {s : Conf σ δ ν τ κ} {a : Act ρ ι} {txn : δ} {r : σ × ν}
    (hc : S.commits s a = some txn) (hx : S.exec txn s.store = .ok r) :
    (S.step s a).store = r.1 ∧ (S.step s a).log = s.log ++ [(txn, r.2)] := by
  cases a with
  | request r => simp [commits] at hc
  | thread n i =>
    simp only [commits] at hc
    split at hc
    case h_2 => cases hc
    case h_1 t ht hf =>
      split at hc
      case h_1 => cases hc
      case h_2 txn' hn =>
        cases hc
        simp [step, threadStep, ht, hf, hn, hx]
  | daemon i =>
    simp only [commits] at hc
    split at hc
    case h_1 => cases hc
    case h_2 hf =>
      split at hc
      case h_1 => cases hc
      case h_2 txn' hn =>
        cases hc
        simp [step, daemonStep, hf, hn, hx]

theorem exists_commit_of_log {s : Conf σ δ ν τ κ} (hs : s.log = []) {as : List (Act ρ ι)}
    {pre post : List (δ × ν)} {e : δ × ν} (h : (run S.step s as).log = pre ++ e :: post) :
    ∃ as₁ a as₂, as = as₁ ++ a :: as₂ ∧ (run S.step s as₁).log = pre ∧
      S.commits (run S.step s as₁) a = some e.1 ∧
      S.exec e.1 (run S.step s as₁).store = .ok ((run S.step s (as₁ ++ [a])).store, e.2) := by
  induction as using List.reverseRecOn generalizing post with
  | nil => simp [hs] at h
  | append_singleton as a ih =>
    have earlier : ∀ post, (run S.step s as).log = pre ++ e :: post →
        ∃ as₁ b as₂, as ++ [a] = as₁ ++ b :: as₂ ∧ (run S.step s as₁).log = pre ∧
          S.commits (run S.step s as₁) b = some e.1 ∧
          S.exec e.1 (run S.step s as₁).store =
            .ok ((run S.step s (as₁ ++ [b])).store, e.2) := by
      intro post hlog
      obtain ⟨as₁, b, as₂, rfl, hb⟩ := ih hlog
      exact ⟨as₁, b, as₂ ++ [a], by simp, hb⟩
    rw [run_concat] at h
    rcases S.step_store (run S.step s as) a with ⟨-, hlog⟩ | ⟨txn, v, hc, hx, hlog⟩
    · exact earlier post (hlog ▸ h)
    · rw [hlog] at h
      rcases concat_eq_append_cons h with ⟨rfl, rfl, -⟩ | ⟨post, -, hlog⟩
      · exact ⟨as, a, [], rfl, rfl, hc, by rw [run_concat]; exact hx⟩
      · exact earlier post hlog

/-- What a thread keeps from one of its steps to the next holds of all the threads. -/
theorem step_threads {Q : τ → Prop} {s : Conf σ δ ν τ κ} {a : Act ρ ι}
    (hstart : ∀ r, a = .request r → Q (S.start r))
    (hread : ∀ i t t', Q t → S.thread i s.store t = .read t' → Q t')
    (hfinish : ∀ t r, Q (S.finish t r)) (h : ∀ t ∈ s.threads, Q t) :
    ∀ t ∈ (S.step s a).threads, Q t := by
  have set : ∀ n t', Q t' → ∀ t ∈ s.threads.set n t', Q t := by
    intro n t' ht' t ht
    rcases List.mem_or_eq_of_mem_set ht with ht | rfl
    · exact h t ht
    · exact ht'
  cases a with
  | request r =>
    intro t ht
    rcases List.mem_append.mp ht with ht | ht
    · exact h t ht
    · exact List.mem_singleton.mp ht ▸ hstart r rfl
  | thread n i =>
    simp only [step]
    split
    case h_1 => exact h
    case h_2 t ht =>
      unfold threadStep
      split
      case h_1 e => exact set n _ (hfinish _ _)
      case h_2 =>
        split
        case h_1 t' hn => exact set n _ (hread i t t' (h t (List.mem_of_getElem? ht)) hn)
        case h_2 => split <;> exact set n _ (hfinish _ _)
  | daemon i =>
    simp only [step, daemonStep]
    split
    case h_1 => exact h
    case h_2 =>
      split
      case h_1 => exact h
      case h_2 => split <;> exact h

/-- What a thread has to do with its request: from its start to its end, and whatever the
transactions of the others do. -/
structure Serves (Q : σ → ρ → τ → Prop) : Prop where
  start : ∀ s r, Q s r (S.start r)
  read : ∀ {s r t i t'}, Q s r t → S.thread i s t = .read t' → Q s r t'
  commit : ∀ {s r t i txn s' v}, Q s r t → S.thread i s t = .commit txn →
    S.exec txn s = .ok (s', v) → Q s' r (S.finish t (.ok v))
  error : ∀ {s r t e}, Q s r t → Q s r (S.finish t (.error e))
  stable : ∀ {s r t txn s' v}, S.exec txn s = .ok (s', v) → Q s r t → Q s' r t

theorem Serves.step {Q : σ → ρ → τ → Prop} (hQ : S.Serves Q) {s : Conf σ δ ν τ κ} {rs : List ρ}
    (h : List.Forall₂ (Q s.store) rs s.threads) (a : Act ρ ι) :
    List.Forall₂ (Q (S.step s a).store) (rs ++ a.request?.toList) (S.step s a).threads := by
  cases a with
  | request r => exact List.rel_append h (.cons (hQ.start _ _) .nil)
  | thread n i =>
    simp only [Act.request?, Option.toList_none, List.append_nil, System.step]
    split
    case h_1 => exact h
    case h_2 t ht =>
      unfold threadStep
      split
      case h_1 e => exact forall₂_set h (fun _ _ h => h) ht fun _ h => hQ.error h
      case h_2 =>
        split
        case h_1 t' hn => exact forall₂_set h (fun _ _ h => h) ht fun _ h => hQ.read h hn
        case h_2 txn hn =>
          split
          case h_1 s' v hx =>
            exact forall₂_set h (fun _ _ => hQ.stable hx) ht fun _ h => hQ.commit h hn hx
          case h_2 e => exact forall₂_set h (fun _ _ h => h) ht fun _ h => hQ.error h
  | daemon i =>
    simp only [Act.request?, Option.toList_none, List.append_nil, System.step, daemonStep]
    split
    case h_1 => exact h
    case h_2 =>
      split
      case h_1 => exact h
      case h_2 =>
        split
        case h_1 s' v hx => exact h.imp fun _ _ => hQ.stable hx
        case h_2 => exact h

theorem Serves.run {Q : σ → ρ → τ → Prop} (hQ : S.Serves Q) {s : Conf σ δ ν τ κ}
    (hs : s.threads = []) (as : List (Act ρ ι)) :
    List.Forall₂ (Q (Lib.run S.step s as).store) (requests as) (Lib.run S.step s as).threads := by
  induction as using List.reverseRecOn with
  | nil =>
    rw [run_nil, hs]
    exact .nil
  | append_singleton as a ih =>
    have hrequests : requests (as ++ [a]) = requests as ++ a.request?.toList := by
      rw [requests, List.filterMap_append, requests]
      cases ha : a.request? <;> simp [ha]
    rw [run_concat, hrequests]
    exact hQ.step S ih a

/-- As `Serves`, under an invariant of the run and where the environment makes no step fail: an
error is then one of the store. -/
structure Answers (I : Conf σ δ ν τ κ → Prop) (Q : σ → ρ → τ → Prop) : Prop where
  start : ∀ s r, Q s r (S.start r)
  read : ∀ {s r t i t'}, I s → Q s.store r t → S.thread i s.store t = .read t' → Q s.store r t'
  commit : ∀ {s r t i txn s' v}, Q s r t → S.thread i s t = .commit txn →
    S.exec txn s = .ok (s', v) → Q s' r (S.finish t (.ok v))
  error : ∀ {s r t i txn e}, I s → t ∈ s.threads → Q s.store r t →
    S.thread i s.store t = .commit txn → S.exec txn s.store = .error e →
      Q s.store r (S.finish t (.error e))
  stable : ∀ {s r t txn s' v}, S.exec txn s = .ok (s', v) → Q s r t → Q s' r t

theorem Answers.step {I : Conf σ δ ν τ κ → Prop} {Q : σ → ρ → τ → Prop} (hQ : S.Answers I Q)
    {s : Conf σ δ ν τ κ} (hs : I s) {rs : List ρ} (h : List.Forall₂ (Q s.store) rs s.threads)
    {a : Act ρ ι} (ha : ∀ n i, a = .thread n i → S.fails i = none) :
    List.Forall₂ (Q (S.step s a).store) (rs ++ a.request?.toList) (S.step s a).threads := by
  cases a with
  | request r => exact List.rel_append h (.cons (hQ.start _ _) .nil)
  | thread n i =>
    simp only [Act.request?, Option.toList_none, List.append_nil, System.step]
    split
    case h_1 => exact h
    case h_2 t ht =>
      have hmem := List.mem_of_getElem? ht
      simp only [threadStep, ha n i rfl]
      split
      case h_1 t' hn => exact forall₂_set h (fun _ _ h => h) ht fun _ h => hQ.read hs h hn
      case h_2 txn hn =>
        split
        case h_1 s' v hx =>
          exact forall₂_set h (fun _ _ => hQ.stable hx) ht fun _ h => hQ.commit h hn hx
        case h_2 e hx =>
          exact forall₂_set h (fun _ _ h => h) ht fun _ h => hQ.error hs hmem h hn hx
  | daemon i =>
    simp only [Act.request?, Option.toList_none, List.append_nil]
    rw [step_daemon_threads]
    rcases S.step_store s (.daemon i : Act ρ ι) with ⟨hstore, -⟩ | ⟨txn, v, -, hx, -⟩
    · rw [hstore]
      exact h
    · exact h.imp fun _ _ => hQ.stable hx

theorem Answers.run {I : Conf σ δ ν τ κ → Prop} {Q : σ → ρ → τ → Prop} (hQ : S.Answers I Q)
    (hI : ∀ s (a : Act ρ ι), I s → I (S.step s a)) {s : Conf σ δ ν τ κ} (hs : I s)
    (hthreads : s.threads = []) {as : List (Act ρ ι)}
    (has : ∀ n i, .thread n i ∈ as → S.fails i = none) :
    List.Forall₂ (Q (Lib.run S.step s as).store) (requests as) (Lib.run S.step s as).threads := by
  induction as using List.reverseRecOn with
  | nil =>
    rw [run_nil, hthreads]
    exact .nil
  | append_singleton as a ih =>
    have hrequests : requests (as ++ [a]) = requests as ++ a.request?.toList := by
      rw [requests, List.filterMap_append, requests]
      cases ha : a.request? <;> simp [ha]
    have earlier := ih fun n i hmem => has n i (List.mem_append_left _ hmem)
    rw [run_concat, hrequests]
    refine hQ.step S (run_invariant hI hs as) earlier ?_
    rintro n i rfl
    exact has n i (by simp)

def Commits (D : σ → δ → Prop) (s : Conf σ δ ν τ κ) (a : Act ρ ι) : Prop :=
  ∀ txn, S.commits s a = some txn → D s.store txn

/-- Assumptions that processes may carry from one of their steps to the next. What a thread has
read stays usable after any transaction of the others; what the daemon has read has to survive
the transactions of the threads only. -/
structure Contract where
  Inv : σ → Prop
  Valid : σ → δ → Prop
  ThreadOk : σ → τ → Prop
  DaemonOk : σ → κ → Prop
  exec_inv : ∀ {s txn s' v}, Inv s → Valid s txn → S.exec txn s = .ok (s', v) → Inv s'
  start_ok : ∀ s r, ThreadOk s (S.start r)
  thread_read : ∀ {s t i t'}, Inv s → ThreadOk s t → S.thread i s t = .read t' → ThreadOk s t'
  thread_commit : ∀ {s t i txn}, Inv s → ThreadOk s t → S.thread i s t = .commit txn →
    Valid s txn
  thread_finish : ∀ s t r, ThreadOk s (S.finish t r)
  thread_stable : ∀ {s txn s' v t}, Inv s → Valid s txn → S.exec txn s = .ok (s', v) →
    ThreadOk s t → ThreadOk s' t
  daemon_read : ∀ {s k i k'}, Inv s → DaemonOk s k → S.daemon i s k = .read k' → DaemonOk s k'
  daemon_commit : ∀ {s k i txn}, Inv s → DaemonOk s k → S.daemon i s k = .commit txn →
    Valid s txn
  daemon_resume : ∀ {s k i txn s' v}, Inv s → DaemonOk s k → S.daemon i s k = .commit txn →
    S.exec txn s = .ok (s', v) → DaemonOk s' (S.resume k (.ok v))
  daemon_error : ∀ s k e, DaemonOk s (S.resume k (.error e))
  daemon_stable : ∀ {s t i txn s' v k}, Inv s → ThreadOk s t → S.thread i s t = .commit txn →
    S.exec txn s = .ok (s', v) → DaemonOk s k → DaemonOk s' k

namespace Contract

variable {S} (C : S.Contract)

structure Holds (s : Conf σ δ ν τ κ) : Prop where
  inv : C.Inv s.store
  daemon : C.DaemonOk s.store s.daemon
  thread : ∀ t ∈ s.threads, C.ThreadOk s.store t

theorem Holds.set {s : Conf σ δ ν τ κ} (h : C.Holds s) (n : Nat) {t : τ}
    (ht : C.ThreadOk s.store t) : C.Holds { s with threads := s.threads.set n t } where
  inv := h.inv
  daemon := h.daemon
  thread t' ht' := by
    rcases List.mem_or_eq_of_mem_set ht' with ht' | rfl
    · exact h.thread t' ht'
    · exact ht

theorem Holds.withThreads {s : Conf σ δ ν τ κ} (h : C.Holds s) {threads : List τ}
    (ht : ∀ t ∈ threads, C.ThreadOk s.store t) : C.Holds { s with threads } :=
  ⟨h.inv, h.daemon, ht⟩

theorem Holds.threadStep {s : Conf σ δ ν τ κ} (h : C.Holds s) {n : Nat} {t : τ} (i : ι)
    (ht : t ∈ s.threads) : C.Holds (S.threadStep s n t i) := by
  unfold System.threadStep
  split
  case h_1 e => exact h.set C n (C.thread_finish _ _ _)
  case h_2 =>
    split
    case h_1 t' hn => exact h.set C n (C.thread_read h.inv (h.thread t ht) hn)
    case h_2 txn hn =>
      split
      case h_2 e => exact h.set C n (C.thread_finish _ _ _)
      case h_1 s' v hx =>
        have hv := C.thread_commit h.inv (h.thread t ht) hn
        have stable : C.Holds { s with store := s', log := s.log ++ [(txn, v)] } :=
          ⟨C.exec_inv h.inv hv hx, C.daemon_stable h.inv (h.thread t ht) hn hx h.daemon,
            fun t' ht' => C.thread_stable h.inv hv hx (h.thread t' ht')⟩
        exact stable.set C n (C.thread_finish _ _ _)

theorem Holds.daemonStep {s : Conf σ δ ν τ κ} (h : C.Holds s) (i : ι) :
    C.Holds (S.daemonStep s i) := by
  unfold System.daemonStep
  split
  case h_1 e => exact ⟨h.inv, C.daemon_error _ _ _, h.thread⟩
  case h_2 =>
    split
    case h_1 k hn => exact ⟨h.inv, C.daemon_read h.inv h.daemon hn, h.thread⟩
    case h_2 txn hn =>
      split
      case h_2 e => exact ⟨h.inv, C.daemon_error _ _ _, h.thread⟩
      case h_1 s' v hx =>
        have hv := C.daemon_commit h.inv h.daemon hn
        exact ⟨C.exec_inv h.inv hv hx, C.daemon_resume h.inv h.daemon hn hx,
          fun t ht => C.thread_stable h.inv hv hx (h.thread t ht)⟩

theorem Holds.step {s : Conf σ δ ν τ κ} (h : C.Holds s) (a : Act ρ ι) :
    C.Holds (S.step s a) := by
  cases a with
  | request r =>
    refine ⟨h.inv, h.daemon, fun t ht => ?_⟩
    rcases List.mem_append.mp ht with ht | ht
    · exact h.thread t ht
    · rw [List.mem_singleton.mp ht]
      exact C.start_ok _ _
  | thread n i =>
    simp only [System.step]
    split
    case h_1 => exact h
    case h_2 t ht => exact h.threadStep C i (List.mem_of_getElem? ht)
  | daemon i => exact h.daemonStep C i

theorem Holds.run {s : Conf σ δ ν τ κ} (h : C.Holds s) (as : List (Act ρ ι)) :
    C.Holds (Lib.run S.step s as) :=
  run_invariant (I := C.Holds) (fun _ a h => Holds.step C h a) h as

theorem Holds.valid {s : Conf σ δ ν τ κ} (h : C.Holds s) {a : Act ρ ι} {txn : δ}
    (hc : S.commits s a = some txn) : C.Valid s.store txn := by
  obtain ⟨n, i, t, -, ht, -, hn⟩ | ⟨i, -, -, hn⟩ := S.commits_cases hc
  · exact C.thread_commit h.inv (h.thread t ht) hn
  · exact C.daemon_commit h.inv h.daemon hn

/-- What every valid transaction preserves holds of the store and the log of every run. -/
theorem step_preserves {J : σ → List (δ × ν) → Prop}
    (hJ : ∀ {s log txn s' v}, C.Inv s → C.Valid s txn → S.exec txn s = .ok (s', v) → J s log →
      J s' (log ++ [(txn, v)]))
    {s : Conf σ δ ν τ κ} (h : C.Holds s) (hs : J s.store s.log) (a : Act ρ ι) :
    J (S.step s a).store (S.step s a).log := by
  rcases S.step_store s a with ⟨hstore, hlog⟩ | ⟨txn, v, hc, hx, hlog⟩
  · rwa [hstore, hlog]
  · rw [hlog]
    exact hJ h.inv (h.valid C hc) hx hs

theorem run_preserves {J : σ → List (δ × ν) → Prop}
    (hJ : ∀ {s log txn s' v}, C.Inv s → C.Valid s txn → S.exec txn s = .ok (s', v) → J s log →
      J s' (log ++ [(txn, v)]))
    {s : Conf σ δ ν τ κ} (h : C.Holds s) (hs : J s.store s.log) (as : List (Act ρ ι)) :
    J (Lib.run S.step s as).store (Lib.run S.step s as).log :=
  (run_invariant (I := fun s => C.Holds s ∧ J s.store s.log)
    (fun _ a h => ⟨h.1.step C a, C.step_preserves hJ h.1 h.2 a⟩) ⟨h, hs⟩ as).2

theorem step_preserves_of {J : σ → List (δ × ν) → Prop} {D : σ → δ → Prop}
    (hJ : ∀ {s log txn s' v}, C.Inv s → C.Valid s txn → S.exec txn s = .ok (s', v) → J s log →
      D s txn → J s' (log ++ [(txn, v)]))
    {s : Conf σ δ ν τ κ} (h : C.Holds s ∧ J s.store s.log) {a : Act ρ ι} (hD : S.Commits D s a) :
    C.Holds (S.step s a) ∧ J (S.step s a).store (S.step s a).log := by
  refine ⟨h.1.step C a, ?_⟩
  rcases S.step_store s a with ⟨hstore, hlog⟩ | ⟨txn, v, hc, hx, hlog⟩
  · rw [hstore, hlog]
    exact h.2
  · rw [hlog]
    exact hJ h.1.inv (h.1.valid C hc) hx h.2 (hD txn hc)

theorem always_of_commits {J P : σ → List (δ × ν) → Prop} {D : σ → δ → Prop}
    (hJP : ∀ {s log}, C.Inv s → J s log → P s log)
    (hJ : ∀ {s log txn s' v}, C.Inv s → C.Valid s txn → S.exec txn s = .ok (s', v) → J s log →
      D s txn → J s' (log ++ [(txn, v)]))
    {s : Conf σ δ ν τ κ} (h : C.Holds s) (hs : J s.store s.log) {as : List (Act ρ ι)}
    (hD : Along S.step (S.Commits D) s as) :
    Always S.step (fun s => P s.store s.log) s as :=
  Lib.always_of_along (I := fun s => C.Holds s ∧ J s.store s.log)
    (fun _ h => hJP h.1.inv h.2) (fun _ _ h hD => C.step_preserves_of hJ h hD) ⟨h, hs⟩ hD

/-- Where a transaction that breaks `D` succeeds and breaks `P`, a run stays in `P` exactly when
its transactions meet `D`. -/
theorem always_iff_commits {J P : σ → List (δ × ν) → Prop} {D : σ → δ → Prop}
    (hJP : ∀ {s log}, C.Inv s → J s log → P s log)
    (hJ : ∀ {s log txn s' v}, C.Inv s → C.Valid s txn → S.exec txn s = .ok (s', v) → J s log →
      D s txn → J s' (log ++ [(txn, v)]))
    (hok : ∀ {s txn}, C.Inv s → C.Valid s txn → ¬D s txn → ∃ r, S.exec txn s = .ok r)
    (hbad : ∀ {s log txn s' v}, C.Inv s → C.Valid s txn → S.exec txn s = .ok (s', v) → J s log →
      ¬D s txn → ¬P s' (log ++ [(txn, v)]))
    {s : Conf σ δ ν τ κ} (h : C.Holds s) (hs : J s.store s.log) (as : List (Act ρ ι)) :
    Always S.step (fun s => P s.store s.log) s as ↔ Along S.step (S.Commits D) s as := by
  refine Lib.always_iff_along (I := fun s => C.Holds s ∧ J s.store s.log)
    (fun _ h => hJP h.1.inv h.2) (fun _ _ h hD => C.step_preserves_of hJ h hD) ?_ ⟨h, hs⟩ as
  intro s a hI hD
  simp only [System.Commits, not_forall] at hD
  obtain ⟨txn, hc, hD⟩ := hD
  obtain ⟨r, hx⟩ := hok hI.1.inv (hI.1.valid C hc) hD
  obtain ⟨hstore, hlog⟩ := S.step_of_commits hc hx
  rw [hstore, hlog]
  exact hbad hI.1.inv (hI.1.valid C hc) hx hI.2 hD

/-- A contract in which the threads carry one more fact, which no transaction can spoil. -/
def carrying {Q : τ → Prop} {V : δ → Prop} (hstart : ∀ r, Q (S.start r))
    (hread : ∀ {i s t t'}, Q t → S.thread i s t = .read t' → Q t')
    (hcommit : ∀ {i s t txn}, Q t → S.thread i s t = .commit txn → V txn)
    (hfinish : ∀ t r, Q (S.finish t r))
    (hdaemon : ∀ {i s k txn}, S.daemon i s k = .commit txn → V txn) : S.Contract where
  Inv := C.Inv
  Valid s txn := C.Valid s txn ∧ V txn
  ThreadOk s t := C.ThreadOk s t ∧ Q t
  DaemonOk := C.DaemonOk
  exec_inv hs hv hx := C.exec_inv hs hv.1 hx
  start_ok s r := ⟨C.start_ok s r, hstart r⟩
  thread_read hs ht hn := ⟨C.thread_read hs ht.1 hn, hread ht.2 hn⟩
  thread_commit hs ht hn := ⟨C.thread_commit hs ht.1 hn, hcommit ht.2 hn⟩
  thread_finish s t r := ⟨C.thread_finish s t r, hfinish t r⟩
  thread_stable hs hv hx ht := ⟨C.thread_stable hs hv.1 hx ht.1, ht.2⟩
  daemon_read := C.daemon_read
  daemon_commit hs hk hn := ⟨C.daemon_commit hs hk hn, hdaemon hn⟩
  daemon_resume := C.daemon_resume
  daemon_error := C.daemon_error
  daemon_stable hs ht hn hx hk := C.daemon_stable hs ht.1 hn hx hk

end Contract

end System

end GpuMarket.Lib
