import Mathlib.Data.List.Induction
import Mathlib.Logic.Function.Basic

universe u v w

namespace GpuMarket.Lib

/-- What happens at a mailbox that keeps one queue for each destination. -/
inductive Post (D : Type u) (M : Type v)
  | idle
  | send (d : D) (m : M)
  | drain (d : D)

namespace Post

variable {D : Type u} {M : Type v} {N : Type w} [DecidableEq D]

def map (f : M → N) : Post D M → Post D N
  | .idle => .idle
  | .send d m => .send d (f m)
  | .drain d => .drain d

def apply (q : D → List M) : Post D M → D → List M
  | .idle => q
  | .send d m => Function.update q d (q d ++ [m])
  | .drain d => Function.update q d []

def sends : Post D M → D → List M
  | .send d m, d' => if d = d' then [m] else []
  | _, _ => []

def hands (q : D → List M) : Post D M → D → List M
  | .drain d, d' => if d = d' then q d' else []
  | _, _ => []

theorem apply_map (f : M → N) (q : D → List M) (p : Post D M) (d : D) :
    (p.map f).apply (fun d => (q d).map f) d = (p.apply q d).map f := by
  cases p with
  | idle => rfl
  | send d' m =>
    by_cases h : d = d'
    · subst h
      simp [map, apply]
    · simp [map, apply, Function.update_of_ne h]
  | drain d' =>
    by_cases h : d = d'
    · subst h
      simp [map, apply]
    · simp [map, apply, Function.update_of_ne h]

theorem mem_apply {q : D → List M} {p : Post D M} {d : D} {m : M} (h : m ∈ p.apply q d) :
    m ∈ q d ∨ p = .send d m := by
  cases p with
  | idle => exact .inl h
  | send d' m' =>
    by_cases hd : d = d'
    · subst hd
      simp only [apply, Function.update_self, List.mem_append, List.mem_singleton] at h
      exact h.imp_right (congrArg (send d) ·.symm)
    · rw [apply, Function.update_of_ne hd] at h
      exact .inl h
  | drain d' =>
    by_cases hd : d = d'
    · subst hd
      simp [apply] at h
    · rw [apply, Function.update_of_ne hd] at h
      exact .inl h

theorem hands_append_apply (q : D → List M) (p : Post D M) (d : D) :
    p.hands q d ++ p.apply q d = q d ++ p.sends d := by
  cases p with
  | idle => simp [hands, apply, sends]
  | send d' m =>
    by_cases h : d = d'
    · subst h
      simp [hands, apply, sends]
    · simp [hands, apply, sends, Function.update_of_ne h, Ne.symm h]
  | drain d' =>
    by_cases h : d = d'
    · subst h
      simp [hands, apply, sends]
    · simp [hands, apply, sends, Function.update_of_ne h, Ne.symm h]

end Post

/-- A mailbox with its history: what a destination has received and what still waits for it are
the messages sent to it, in their order. -/
structure Mailbox (D : Type u) (M : Type v) where
  sent : D → List M
  received : D → List M
  pending : D → List M
  fifo : ∀ d, received d ++ pending d = sent d

namespace Mailbox

variable {D : Type u} {M : Type v} [DecidableEq D]

def empty : Mailbox D M := ⟨fun _ => [], fun _ => [], fun _ => [], fun _ => rfl⟩

def post (b : Mailbox D M) (p : Post D M) : Mailbox D M where
  sent d := b.sent d ++ p.sends d
  received d := b.received d ++ p.hands b.pending d
  pending := p.apply b.pending
  fifo d := by
    rw [List.append_assoc, p.hands_append_apply, ← List.append_assoc, b.fifo]

def replay (ps : List (Post D M)) : Mailbox D M := ps.foldl post empty

@[simp] theorem replay_nil : replay ([] : List (Post D M)) = empty := rfl

@[simp] theorem replay_concat (ps : List (Post D M)) (p : Post D M) :
    replay (ps ++ [p]) = (replay ps).post p := by
  simp [replay]

theorem sent_replay (ps : List (Post D M)) (d : D) :
    (replay ps).sent d = ps.flatMap (·.sends d) := by
  induction ps using List.reverseRecOn with
  | nil => rfl
  | append_singleton ps p ih => simp [post, ih]

end Mailbox

end GpuMarket.Lib
