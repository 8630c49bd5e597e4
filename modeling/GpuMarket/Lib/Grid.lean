import Mathlib.Algebra.BigOperators.Pi
import Mathlib.Algebra.Order.Group.Multiset
import Mathlib.Algebra.BigOperators.Group.Finset.Basic
import Mathlib.Algebra.Order.BigOperators.Group.Finset
import Mathlib.Data.Fintype.Prod

universe u v w x y z

namespace GpuMarket.Lib

inductive Access (β : Type u) (α : Type v) : Type (max u v)
  | read : β → Nat → Access β α
  | write : β → Nat → α → Access β α

namespace Access

variable {β : Type u} {α : Type v}

def index : Access β α → Nat
  | .read _ i => i
  | .write _ i _ => i

def written [DecidableEq β] (buf : β) : Access β α → Option (Nat × α)
  | .read .. => none
  | .write buf' i x => if buf' = buf then some (i, x) else none

def InBounds (size : β → Nat) : Access β α → Prop
  | .read buf i => i < size buf
  | .write buf i _ => i < size buf

@[simp] theorem index_read (buf : β) (i : Nat) : (read buf i : Access β α).index = i := rfl

@[simp] theorem index_write (buf : β) (i : Nat) (x : α) : (write buf i x).index = i := rfl

@[simp] theorem written_read [DecidableEq β] (buf buf' : β) (i : Nat) :
    written buf (read buf' i : Access β α) = none := rfl

@[simp] theorem written_write [DecidableEq β] (buf buf' : β) (i : Nat) (x : α) :
    written buf (write buf' i x) = if buf' = buf then some (i, x) else none := rfl

theorem filter_filterMap_written [DecidableEq β] (buf : β) (log : List (Access β α)) (i : Nat) :
    (log.filterMap (written buf)).filter (·.1 = i) =
      (log.filter (·.index = i)).filterMap (written buf) := by
  induction log with
  | nil => rfl
  | cons e log ih =>
    cases e with
    | read buf' k => by_cases hk : k = i <;> simp [List.filterMap_cons, hk, ih]
    | write buf' k x =>
      by_cases hbuf : buf' = buf <;> by_cases hk : k = i <;> simp [hbuf, hk, ih]

end Access

def stored {α : Type u} (cells : Nat → α) (writes : List (Nat × α)) : Nat → α :=
  writes.foldl (fun cells w => Function.update cells w.1 w.2) cells

theorem stored_eq {α : Type u} (cells : Nat → α) (writes : List (Nat × α)) (i : Nat) :
    stored cells writes i = (writes.filter (·.1 = i)).foldl (fun _ w => w.2) (cells i) := by
  induction writes generalizing cells with
  | nil => rfl
  | cons w writes ih =>
    have hcons : stored cells (w :: writes) i =
        stored (Function.update cells w.1 w.2) writes i := rfl
    rw [hcons, ih]
    by_cases hi : w.1 = i
    · simp [hi]
    · simp [hi, Function.update_of_ne (Ne.symm hi)]

theorem stored_of_filter {α : Type u} (cells : Nat → α) {writes : List (Nat × α)} {i : Nat} {x : α}
    (h : writes.filter (·.1 = i) = [(i, x)]) : stored cells writes i = x := by
  simp [stored_eq, h]

/-- What a thread of a workgroup does next: a step of its own, or it waits for the others. -/
inductive Move (μ : Type u) (π : Type v) (ε : Type w) : Type (max u v w)
  | go : μ → π → List ε → Move μ π ε
  | barrier : π → Move μ π ε
  | halt : Move μ π ε

/-- A kernel for workgroups `γ` of threads `ι`.  Each workgroup has a memory `μ`, each thread a
state `π` of its own; `ε` are the accesses to memory. -/
structure Kernel (γ : Type u) (ι : Type v) (μ : Type w) (π : Type x) (ε : Type y) where
  mem : γ → μ
  own : γ → ι → π
  next : γ → ι → μ → π → Move μ π ε

structure Grid (γ : Type u) (ι : Type v) (μ : Type w) (π : Type x) (ε : Type y) where
  mem : γ → μ
  own : γ → ι → π
  /-- the accesses made, in their order -/
  log : List ε

inductive GridAct (γ : Type u) (ι : Type v) : Type (max u v)
  /-- one step of one thread -/
  | thread : γ → ι → GridAct γ ι
  /-- all threads of a workgroup have come to a barrier, and leave it -/
  | release : γ → GridAct γ ι

def Move.waiting {μ : Type u} {π : Type v} {ε : Type w} : Move μ π ε → Option π
  | .barrier p => some p
  | .go .. | .halt => none

theorem Move.waiting_eq_some {μ : Type u} {π : Type v} {ε : Type w} {m : Move μ π ε} {p : π} :
    m.waiting = some p ↔ m = .barrier p := by
  cases m <;> simp [waiting]

namespace Kernel

variable {γ : Type u} {ι : Type v} {μ : Type w} {π : Type x} {ε : Type y}
  [DecidableEq γ] [DecidableEq ι] [Fintype ι] (K : Kernel γ ι μ π ε)

def init : Grid γ ι μ π ε := ⟨K.mem, K.own, []⟩

/-- What the threads of a workgroup become when they leave a barrier, where all have come to it. -/
def leave (s : Grid γ ι μ π ε) (g : γ) : Option (ι → π) :=
  if ∀ t, (K.next g t (s.mem g) (s.own g t)).waiting.isSome then
    some fun t => (K.next g t (s.mem g) (s.own g t)).waiting.getD (s.own g t)
  else none

def step (s : Grid γ ι μ π ε) : GridAct γ ι → Option (Grid γ ι μ π ε)
  | .thread g t =>
    match K.next g t (s.mem g) (s.own g t) with
    | .go m p events =>
      some
        { mem := Function.update s.mem g m
          own := Function.update s.own g (Function.update (s.own g) t p)
          log := s.log ++ events }
    | .barrier _ | .halt => none
  | .release g => (K.leave s g).map fun own => { s with own := Function.update s.own g own }

def exec (s : Grid γ ι μ π ε) (acts : List (GridAct γ ι)) : Option (Grid γ ι μ π ε) :=
  acts.foldlM K.step s

def Stuck (s : Grid γ ι μ π ε) : Prop := ∀ a, K.step s a = none

def Halted (s : Grid γ ι μ π ε) : Prop := ∀ g t, K.next g t (s.mem g) (s.own g t) = .halt

@[simp] theorem exec_nil (s : Grid γ ι μ π ε) : K.exec s [] = some s := rfl

theorem exec_cons (s : Grid γ ι μ π ε) (a : GridAct γ ι) (acts : List (GridAct γ ι)) :
    K.exec s (a :: acts) = (K.step s a).bind (K.exec · acts) := rfl

variable {K}

omit [DecidableEq γ] [DecidableEq ι] in
theorem leave_eq_some {s : Grid γ ι μ π ε} {g : γ} {own : ι → π} :
    K.leave s g = some own ↔ ∀ t, K.next g t (s.mem g) (s.own g t) = .barrier (own t) := by
  unfold leave
  constructor
  · intro h t
    split at h
    case isFalse => cases h
    case isTrue hall =>
      cases h
      obtain ⟨p, hp⟩ := Option.isSome_iff_exists.mp (hall t)
      simpa only [hp, Option.getD_some] using Move.waiting_eq_some.mp hp
  · intro h
    have hwaiting : ∀ t, (K.next g t (s.mem g) (s.own g t)).waiting = some (own t) :=
      fun t => Move.waiting_eq_some.mpr (h t)
    simp [hwaiting]

theorem step_cases {s s' : Grid γ ι μ π ε} {a : GridAct γ ι} (h : K.step s a = some s') :
    (∃ g t m p events, a = .thread g t ∧
      K.next g t (s.mem g) (s.own g t) = .go m p events ∧
      s' = ⟨Function.update s.mem g m,
        Function.update s.own g (Function.update (s.own g) t p), s.log ++ events⟩) ∨
    ∃ g own, a = .release g ∧ (∀ t, K.next g t (s.mem g) (s.own g t) = .barrier (own t)) ∧
      s' = ⟨s.mem, Function.update s.own g own, s.log⟩ := by
  cases a with
  | thread g t =>
    simp only [step] at h
    split at h
    case h_1 m p events hn =>
      cases h
      exact .inl ⟨g, t, m, p, events, rfl, hn, rfl⟩
    case h_2 => cases h
    case h_3 => cases h
  | release g =>
    obtain ⟨own, hleave, rfl⟩ := Option.map_eq_some_iff.mp h
    exact .inr ⟨g, own, rfl, leave_eq_some.mp hleave, rfl⟩

/-- A proof outline: an invariant of each workgroup that its threads keep in their steps and when
they leave a barrier together, and two functions of the state of a thread, the writes it has made
so far and a bound on the steps it still has. -/
structure Outline (K : Kernel γ ι μ π ε) {ω : Type z} (written : ε → Option ω)
    (Safe : ε → Prop) where
  Inv : γ → μ → (ι → π) → Prop
  writes : γ → ι → π → List ω
  rank : π → Nat
  init : ∀ g, Inv g (K.mem g) (K.own g)
  start : ∀ g t, writes g t (K.own g t) = []
  go : ∀ {g t m own m' p events}, Inv g m own → K.next g t m (own t) = .go m' p events →
    Inv g m' (Function.update own t p) ∧ (∀ e ∈ events, Safe e) ∧
      writes g t p = writes g t (own t) ++ events.filterMap written ∧ rank p < rank (own t)
  leave : ∀ {g m own own'}, Inv g m own → (∀ t, K.next g t m (own t) = .barrier (own' t)) →
    Inv g m own' ∧ ∀ t, writes g t (own' t) = writes g t (own t) ∧ rank (own' t) < rank (own t)
  /-- no thread is left at a barrier that another one does not come to -/
  live : ∀ {g m own}, Inv g m own → (∀ t m' p events, K.next g t m (own t) ≠ .go m' p events) →
    (∀ t, ∃ p, K.next g t m (own t) = .barrier p) ∨ ∀ t, K.next g t m (own t) = .halt

namespace Outline

variable {ω : Type z} {written : ε → Option ω} {Safe : ε → Prop} [Fintype γ]
  (O : K.Outline written Safe)

def rankOf (s : Grid γ ι μ π ε) : Nat := ∑ g, ∑ t, O.rank (s.own g t)

structure Holds (s : Grid γ ι μ π ε) : Prop where
  inv : ∀ g, O.Inv g (s.mem g) (s.own g)
  safe : ∀ e ∈ s.log, Safe e
  writes : (s.log.filterMap written : Multiset ω) =
    ∑ g, ∑ t, (O.writes g t (s.own g t) : Multiset ω)

omit [DecidableEq γ] in
theorem holds_init : O.Holds K.init where
  inv := O.init
  safe := by simp [Kernel.init]
  writes := by simp [Kernel.init, O.start]

theorem sum_update {M : Type z} [AddCommMonoid M] (f : γ → ι → π → M) (own : γ → ι → π) (g : γ)
    (t : ι) {p : π} {d : M} (h : f g t p = f g t (own g t) + d) :
    ∑ g', ∑ t', f g' t' (Function.update own g (Function.update (own g) t p) g' t') =
      (∑ g', ∑ t', f g' t' (own g' t')) + d := by
  have hcell : ∀ g' t', f g' t' (Function.update own g (Function.update (own g) t p) g' t') =
      f g' t' (own g' t') + if g' = g then (if t' = t then d else 0) else 0 := by
    intro g' t'
    by_cases hg : g' = g
    · subst hg
      by_cases ht : t' = t
      · subst ht
        simp [h]
      · simp [ht]
    · simp [hg]
  simp [hcell, Finset.sum_add_distrib]

omit [DecidableEq γ] in
theorem rankOf_lt {s s' : Grid γ ι μ π ε}
    (hle : ∀ g t, O.rank (s'.own g t) ≤ O.rank (s.own g t)) {g : γ} {t : ι}
    (hlt : O.rank (s'.own g t) < O.rank (s.own g t)) : O.rankOf s' < O.rankOf s := by
  have hgroup : ∑ t, O.rank (s'.own g t) < ∑ t, O.rank (s.own g t) :=
    Finset.sum_lt_sum (fun t _ => hle g t) ⟨t, Finset.mem_univ t, hlt⟩
  exact Finset.sum_lt_sum (fun g _ => Finset.sum_le_sum fun t _ => hle g t)
    ⟨g, Finset.mem_univ g, hgroup⟩

theorem Holds.thread {s : Grid γ ι μ π ε} (h : O.Holds s) {g : γ} {t : ι} {m : μ} {p : π}
    {events : List ε} (hn : K.next g t (s.mem g) (s.own g t) = .go m p events) :
    let s' : Grid γ ι μ π ε := ⟨Function.update s.mem g m,
      Function.update s.own g (Function.update (s.own g) t p), s.log ++ events⟩
    O.Holds s' ∧ O.rankOf s' < O.rankOf s := by
  intro s'
  obtain ⟨hinv, hsafe, hwrites, hrank⟩ := O.go (h.inv g) hn
  refine ⟨⟨fun g' => ?_, ?_, ?_⟩, O.rankOf_lt (fun g' t' => ?_) (g := g) (t := t) ?_⟩
  · by_cases hg : g' = g
    · subst hg
      simpa [s'] using hinv
    · simpa [s', hg] using h.inv g'
  · intro e he
    rcases List.mem_append.mp he with he | he
    · exact h.safe e he
    · exact hsafe e he
  · have hcell : (O.writes g t p : Multiset ω) =
        (O.writes g t (s.own g t) : Multiset ω) + (events.filterMap written : List ω) := by
      rw [hwrites, Multiset.coe_add]
    rw [List.filterMap_append, ← Multiset.coe_add, h.writes]
    exact (sum_update (fun g t p => (O.writes g t p : Multiset ω)) s.own g t hcell).symm
  · by_cases hg : g' = g
    · subst hg
      by_cases ht : t' = t
      · subst ht
        simpa [s'] using hrank.le
      · simp [s', ht]
    · simp [s', hg]
  · simpa [s'] using hrank

theorem Holds.release [Nonempty ι] {s : Grid γ ι μ π ε} (h : O.Holds s) {g : γ} {own : ι → π}
    (hn : ∀ t, K.next g t (s.mem g) (s.own g t) = .barrier (own t)) :
    let s' : Grid γ ι μ π ε := { s with own := Function.update s.own g own }
    O.Holds s' ∧ O.rankOf s' < O.rankOf s := by
  intro s'
  obtain ⟨hinv, hall⟩ := O.leave (h.inv g) hn
  have hsame : ∀ g' t', O.writes g' t' (s'.own g' t') = O.writes g' t' (s.own g' t') := by
    intro g' t'
    by_cases hg : g' = g
    · subst hg
      simpa [s'] using (hall t').1
    · simp [s', hg]
  obtain ⟨t⟩ := ‹Nonempty ι›
  refine ⟨⟨fun g' => ?_, h.safe, ?_⟩, O.rankOf_lt (fun g' t' => ?_) (g := g) (t := t) ?_⟩
  · by_cases hg : g' = g
    · subst hg
      simpa [s'] using hinv
    · simpa [s', hg] using h.inv g'
  · simpa only [hsame] using h.writes
  · by_cases hg : g' = g
    · subst hg
      simpa [s'] using (hall t').2.le
    · simp [s', hg]
  · simpa [s'] using (hall t).2

theorem Holds.step [Nonempty ι] {s s' : Grid γ ι μ π ε} (h : O.Holds s) {a : GridAct γ ι}
    (hstep : K.step s a = some s') : O.Holds s' ∧ O.rankOf s' < O.rankOf s := by
  obtain ⟨g, t, m, p, events, -, hn, rfl⟩ | ⟨g, own, -, hn, rfl⟩ := step_cases hstep
  · exact h.thread O hn
  · exact h.release O hn

theorem Holds.exec [Nonempty ι] {s s' : Grid γ ι μ π ε} (h : O.Holds s)
    {acts : List (GridAct γ ι)} (hexec : K.exec s acts = some s') :
    O.Holds s' ∧ acts.length + O.rankOf s' ≤ O.rankOf s := by
  induction acts generalizing s with
  | nil =>
    cases hexec
    exact ⟨h, by simp⟩
  | cons a acts ih =>
    rw [exec_cons] at hexec
    obtain ⟨s₁, hstep, hexec⟩ := Option.bind_eq_some_iff.mp hexec
    obtain ⟨h₁, hrank₁⟩ := h.step O hstep
    obtain ⟨h', hrank⟩ := ih h₁ hexec
    refine ⟨h', ?_⟩
    simp only [List.length_cons]
    omega

theorem Holds.finish [Nonempty ι] {s : Grid γ ι μ π ε} (h : O.Holds s) :
    ∃ acts s', K.exec s acts = some s' ∧ K.Stuck s' := by
  induction hn : O.rankOf s using Nat.strongRecOn generalizing s with
  | ind n ih =>
    by_cases hstuck : K.Stuck s
    · exact ⟨[], s, rfl, hstuck⟩
    · obtain ⟨a, ha⟩ := not_forall.mp hstuck
      obtain ⟨s₁, hstep⟩ := Option.ne_none_iff_exists'.mp ha
      obtain ⟨h₁, hrank⟩ := h.step O hstep
      obtain ⟨acts, s', hexec, hstuck'⟩ := ih _ (hn ▸ hrank) h₁ rfl
      exact ⟨a :: acts, s', by rw [exec_cons, hstep, Option.bind_some, hexec], hstuck'⟩

theorem Holds.halted {s : Grid γ ι μ π ε} (h : O.Holds s) (hstuck : K.Stuck s) : K.Halted s := by
  intro g
  have hgo : ∀ t m p events, K.next g t (s.mem g) (s.own g t) ≠ .go m p events := by
    intro t m p events hn
    have hnone := hstuck (.thread g t)
    simp [Kernel.step, hn] at hnone
  rcases O.live (h.inv g) hgo with hall | hhalt
  · choose own hown using hall
    have hnone := hstuck (.release g)
    simp [Kernel.step, leave_eq_some.mpr hown] at hnone
  · exact hhalt

/-- What an outline says of a kernel: no run makes an unsafe access, every run is finite and can be
finished, and when it is, all threads have ended and their writes have been made. -/
theorem correct [Nonempty ι] {acts : List (GridAct γ ι)} {s : Grid γ ι μ π ε}
    (hexec : K.exec K.init acts = some s) :
    (∀ g, O.Inv g (s.mem g) (s.own g)) ∧ (∀ e ∈ s.log, Safe e) ∧
      acts.length ≤ O.rankOf K.init ∧ (∃ more s', K.exec s more = some s' ∧ K.Stuck s') ∧
      (K.Stuck s → K.Halted s ∧ (s.log.filterMap written : Multiset ω) =
        ∑ g, ∑ t, (O.writes g t (s.own g t) : Multiset ω)) := by
  obtain ⟨h, hrank⟩ := O.holds_init.exec O hexec
  exact ⟨h.inv, h.safe, by omega, h.finish O, fun hstuck => ⟨h.halted O hstuck, h.writes⟩⟩

end Outline

end Kernel

section Covering

variable {γ : Type u} {ι : Type v} {ω : Type w} [Fintype γ] [Fintype ι]

omit [Fintype γ] [Fintype ι] in
theorem filter_sum (p : ω → Bool) (s : Finset ι) (f : ι → Multiset ω) :
    (∑ t ∈ s, f t).filter (p ·) = ∑ t ∈ s, (f t).filter (p ·) := by
  let filter : Multiset ω →+ Multiset ω :=
    { toFun := Multiset.filter (p ·)
      map_zero' := Multiset.filter_zero _
      map_add' := Multiset.filter_add _ }
  exact map_sum filter f s

theorem filter_perm_of_sum {log : List ω} {writes : γ → ι → List ω}
    (h : (log : Multiset ω) = ∑ g, ∑ t, (writes g t : Multiset ω)) (p : ω → Bool) (g : γ) (t : ι)
    (hother : ∀ g' t', g' ≠ g ∨ t' ≠ t → (writes g' t').filter p = []) :
    (log.filter p).Perm ((writes g t).filter p) := by
  have hfilter : ((log.filter p : List ω) : Multiset ω) =
      ∑ g', ∑ t', ((writes g' t').filter p : Multiset ω) := by
    have hsum := congrArg (Multiset.filter (p ·)) h
    simpa only [filter_sum, Multiset.filter_coe, Bool.decide_eq_true] using hsum
  have hgroup : ∑ g', ∑ t', (((writes g' t').filter p : List ω) : Multiset ω) =
      ∑ t', ((writes g t').filter p : Multiset ω) := by
    apply Finset.sum_eq_single g
    · intro g' _ hg
      apply Finset.sum_eq_zero
      intro t' _
      simp [hother g' t' (.inl hg)]
    · intro hg
      exact absurd (Finset.mem_univ g) hg
  have hthread : ∑ t', (((writes g t').filter p : List ω) : Multiset ω) =
      ((writes g t).filter p : List ω) := by
    apply Finset.sum_eq_single t
    · intro t' _ ht
      simp [hother g t' (.inr ht)]
    · intro ht
      exact absurd (Finset.mem_univ t) ht
  exact Multiset.coe_eq_coe.mp (hfilter.trans (hgroup.trans hthread))

theorem length_eq_sum_filter {log : List ω} {index : ω → Nat} {n : Nat}
    (h : ∀ e ∈ log, index e < n) :
    log.length = ∑ i ∈ Finset.range n, (log.filter (index · = i)).length := by
  induction log with
  | nil => simp
  | cons e log ih =>
    have hcons : ∀ i, ((e :: log).filter (index · = i)).length =
        (log.filter (index · = i)).length + if index e = i then 1 else 0 := by
      intro i
      by_cases hi : index e = i <;> simp [hi]
    have he : index e < n := h e List.mem_cons_self
    simp only [hcons, Finset.sum_add_distrib, Finset.sum_ite_eq, Finset.mem_range, he, if_true,
      List.length_cons, ← ih fun e he => h e (List.mem_cons_of_mem _ he)]

end Covering

end GpuMarket.Lib
