import GpuMarket.Lib.Except

namespace GpuMarket.Lib

/-- A connection to a database: what is committed, and the working copy of the transaction that is
open on it. -/
structure Conn (σ : Type) where
  committed : σ
  working : Option σ := none

inductive Stmts (σ ε α : Type) : Type 1
  | done (r : Except ε α)
  | stmt {β : Type} (f : σ → Except ε (σ × β)) (k : β → Stmts σ ε α)

/-- What becomes of the statements to come: the error that each ends in, or `none`.  Past the end
of the list they succeed. -/
abbrev Verdicts (ε : Type) := List (Option ε)

def Verdicts.next {ε : Type} (vs : Verdicts ε) : Option ε := vs.head?.join

variable {σ ε : Type}

namespace Stmts

variable {α β : Type}

def bind : Stmts σ ε α → (α → Stmts σ ε β) → Stmts σ ε β
  | .done (.ok a), g => g a
  | .done (.error e), _ => .done (.error e)
  | .stmt f k, g => .stmt f fun b => (k b).bind g

instance : Monad (Stmts σ ε) where
  pure a := .done (.ok a)
  bind := bind

def fail (e : ε) : Stmts σ ε α := .done (.error e)

def execute (f : σ → Except ε (σ × α)) : Stmts σ ε α := .stmt f fun a => .done (.ok a)

def fetch (f : σ → Except ε α) : Stmts σ ε α := execute fun s => (f s).map (s, ·)

def select (f : σ → α) : Stmts σ ε α := execute fun s => .ok (s, f s)

def meaning : Stmts σ ε α → σ → Except ε (σ × α)
  | .done r, s => r.map (s, ·)
  | .stmt f k, s => f s >>= fun r => (k r.2).meaning r.1

def count : Stmts σ ε α → σ → Nat
  | .done _, _ => 0
  | .stmt f k, s =>
    match f s with
    | .ok r => (k r.2).count r.1 + 1
    | .error _ => 1

def proceed {β : Type} (body : β → Stmts σ ε α) : σ × (α ⊕ β) → Except ε (σ × α)
  | (s, .inl a) => .ok (s, a)
  | (s, .inr b) => (body b).meaning s

def Reads : Stmts σ ε α → Prop
  | .done _ => True
  | .stmt f k => (∀ s r, f s = .ok r → r.1 = s) ∧ ∀ b, (k b).Reads

end Stmts

namespace Stmts

variable {α β : Type}

@[simp] theorem meaning_pure (a : α) (s : σ) : (pure a : Stmts σ ε α).meaning s = .ok (s, a) := rfl

@[simp] theorem meaning_fail (e : ε) (s : σ) : (fail e : Stmts σ ε α).meaning s = .error e := rfl

theorem reads_done (r : Except ε α) : (done r : Stmts σ ε α).Reads := trivial

@[simp] theorem meaning_execute (f : σ → Except ε (σ × α)) (s : σ) :
    (execute f).meaning s = f s := by
  change (f s >>= fun r => .ok (r.1, r.2)) = f s
  cases f s <;> rfl

theorem meaning_bind (p : Stmts σ ε α) (g : α → Stmts σ ε β) (s : σ) :
    (p >>= g).meaning s = p.meaning s >>= fun r => (g r.2).meaning r.1 := by
  change (p.bind g).meaning s = _
  induction p generalizing s with
  | done r => cases r <;> rfl
  | stmt f k ih =>
    simp only [bind, meaning]
    cases f s with
    | error e => rfl
    | ok r => exact ih r.2 r.1

section Bind

variable (g : α → Stmts σ ε β) (s : σ)

@[simp] theorem meaning_execute_bind (f : σ → Except ε (σ × α)) :
    (execute f >>= g).meaning s = f s >>= fun r => (g r.2).meaning r.1 := rfl

@[simp] theorem meaning_fetch_bind (f : σ → Except ε α) :
    (fetch f >>= g).meaning s = f s >>= fun a => (g a).meaning s := by
  change ((f s).map (s, ·) >>= fun r => (g r.2).meaning r.1) = _
  cases f s <;> rfl

@[simp] theorem meaning_select_bind (f : σ → α) :
    (select f >>= g).meaning s = (g (f s)).meaning s := rfl

@[simp] theorem meaning_done_bind (r : Except ε α) :
    (done r >>= g).meaning s = r >>= fun a => (g a).meaning s := by cases r <;> rfl

@[simp] theorem meaning_fail_bind (e : ε) : (fail e >>= g).meaning s = .error e := rfl

end Bind

@[simp] theorem meaning_forM_bind {ι : Type} (l : List ι) (f : σ → ι → σ)
    (g : PUnit → Stmts σ ε β) (s : σ) :
    ((l.forM fun i => execute fun s => .ok (f s i, ())) >>= g).meaning s =
      (g ()).meaning (l.foldl f s) := by
  have rows : (l.forM fun i => (execute fun s => .ok (f s i, ()) : Stmts σ ε Unit)).meaning s =
      .ok (l.foldl f s, ()) := by
    induction l generalizing s with
    | nil => rfl
    | cons i l ih =>
      change ((execute fun s => .ok (f s i, ()) : Stmts σ ε Unit) >>= fun _ =>
        l.forM fun i => execute fun s => .ok (f s i, ())).meaning s = _
      rw [meaning_execute_bind]
      exact ih (f s i)
  rw [meaning_bind, rows]
  rfl

theorem reads_fetch (f : σ → Except ε α) : (fetch f).Reads := by
  refine ⟨fun s r h => ?_, fun _ => trivial⟩
  obtain ⟨a, -, rfl⟩ := map_eq_ok.mp h
  rfl

theorem Reads.bind {p : Stmts σ ε α} (h : p.Reads) {g : α → Stmts σ ε β}
    (hg : ∀ a, (g a).Reads) : (p >>= g).Reads := by
  change (p.bind g).Reads
  induction p with
  | done r =>
    cases r with
    | ok a => exact hg a
    | error e => trivial
  | stmt f k ih => exact ⟨h.1, fun b => ih b (h.2 b)⟩

end Stmts

/-- A statement works on the copy of the transaction that is open, and commits by itself where
none is. -/
def Conn.apply {β : Type} (c : Conn σ) (f : σ → Except ε (σ × β)) : Except ε (Conn σ × β) :=
  match c.working with
  | some s => (f s).map fun r => ({ c with working := some r.1 }, r.2)
  | none => (f c.committed).map fun r => ({ c with committed := r.1 }, r.2)

abbrev Session (σ ε α : Type) := ExceptT ε (StateM (Conn σ × Verdicts ε)) α

namespace Session

variable {α : Type}

def statement (f : Conn σ → Except ε (Conn σ × α)) : Session σ ε α := fun (c, vs) =>
  match vs.next with
  | some e => (.error e, c, vs.tail)
  | none =>
    match f c with
    | .error e => (.error e, c, vs.tail)
    | .ok (c, a) => (.ok a, c, vs.tail)

def attempt (m : Session σ ε α) : Session σ ε (Except ε α) := fun s => ((.ok (m s).1), (m s).2)

section Control

variable (misuse : ε)

def beginImmediate : Session σ ε Unit := statement fun c =>
  match c.working with
  | some _ => .error misuse
  | none => .ok ({ c with working := some c.committed }, ())

def commit : Session σ ε Unit := statement fun c =>
  match c.working with
  | some s => .ok (⟨s, none⟩, ())
  | none => .error misuse

def rollback : Session σ ε Unit := statement fun c =>
  match c.working with
  | some _ => .ok ({ c with working := none }, ())
  | none => .error misuse

end Control

end Session

def Stmts.run {α : Type} : Stmts σ ε α → Session σ ε α
  | .done r => fun s => (r, s)
  | .stmt f k => Session.statement (·.apply f) >>= fun b => (k b).run

/-- A transaction: `COMMIT` after statements that succeed, `ROLLBACK` after one that fails, and
what `ROLLBACK` itself answers is ignored. -/
def Session.immediately {α : Type} (misuse : ε) (body : Stmts σ ε α) : Session σ ε α := do
  beginImmediate misuse
  match ← attempt body.run with
  | .ok a =>
    commit misuse
    return a
  | .error e =>
    let _ ← attempt (rollback misuse)
    throw e

/-- Reads outside any transaction, which end in a result or in a transaction to run. -/
def Session.transact {α β : Type} (misuse : ε) (reads : Stmts σ ε (α ⊕ β))
    (body : β → Stmts σ ε α) : Session σ ε α := do
  match ← reads.run with
  | .inl a => return a
  | .inr b => immediately misuse (body b)

section Verdicts

def Verdicts.pass : Nat → Verdicts ε → Option (Verdicts ε)
  | 0, vs => some vs
  | n + 1, vs =>
    match vs.next with
    | some _ => none
    | none => pass n vs.tail

/-- The verdict of the statement that closes a transaction of `n` statements: the one after the
first that fails, or after all of them. -/
def Verdicts.closing : Nat → Verdicts ε → Option ε
  | 0, vs => vs.next
  | n + 1, vs =>
    match vs.next with
    | some _ => Verdicts.next vs.tail
    | none => closing n vs.tail

theorem Verdicts.pass_nil (n : Nat) : pass n ([] : Verdicts ε) = some [] := by
  induction n with
  | zero => rfl
  | succ n ih => exact ih

theorem Verdicts.closing_nil (n : Nat) : closing n ([] : Verdicts ε) = none := by
  induction n with
  | zero => rfl
  | succ n ih => exact ih

end Verdicts

section Rules

variable {α β : Type} {c : Conn σ} {vs : Verdicts ε}

theorem Session.bind_run (m : Session σ ε α) (g : α → Session σ ε β) (s : Conn σ × Verdicts ε) :
    (m >>= g) s =
      match m s with
      | (.ok a, s) => g a s
      | (.error e, s) => (.error e, s) := by
  change (ExceptT.bindCont g (m s).1) (m s).2 = _
  rcases m s with ⟨r, s⟩
  cases r <;> rfl

theorem Conn.apply_open {f : σ → Except ε (σ × β)} {w : σ} (hc : c.working = some w) :
    c.apply f = (f w).map fun r => ({ c with working := some r.1 }, r.2) := by
  simp only [apply, hc]

theorem Conn.apply_closed {f : σ → Except ε (σ × β)} (hc : c.working = none) :
    c.apply f = (f c.committed).map fun r => ({ c with committed := r.1 }, r.2) := by
  simp only [apply, hc]

namespace Stmts

variable {f : σ → Except ε (σ × β)} {k : β → Stmts σ ε α} {e : ε}

theorem run_failed (hv : vs.next = some e) :
    (stmt f k).run (c, vs) = (.error e, c, vs.tail) := by
  simp only [run, Session.bind_run, Session.statement, hv]

theorem run_refused (hv : vs.next = none) (hf : c.apply f = .error e) :
    (stmt f k).run (c, vs) = (.error e, c, vs.tail) := by
  simp only [run, Session.bind_run, Session.statement, hv, hf]

theorem run_done {c' : Conn σ} {b : β} (hv : vs.next = none) (hf : c.apply f = .ok (c', b)) :
    (stmt f k).run (c, vs) = (k b).run (c', vs.tail) := by
  simp only [run, Session.bind_run, Session.statement, hv, hf]

/-- Inside an open transaction nothing is committed, what succeeds has done all that it means, and
the next verdict is that of the statement that closes it. -/
theorem run_open (p : Stmts σ ε α) {w : σ} (hc : c.working = some w) :
    (p.run (c, vs)).2.1.committed = c.committed ∧
    (∃ w', (p.run (c, vs)).2.1.working = some w' ∧
      ∀ a, (p.run (c, vs)).1 = .ok a → p.meaning w = .ok (w', a)) ∧
    (p.run (c, vs)).2.2.next = Verdicts.closing (p.count w) vs := by
  induction p generalizing c w vs with
  | done r =>
    refine ⟨rfl, ⟨w, hc, fun a ha => ?_⟩, rfl⟩
    change r = .ok a at ha
    subst ha
    rfl
  | stmt f k ih =>
    cases hv : vs.next with
    | some e =>
      rw [run_failed hv]
      refine ⟨rfl, ⟨w, hc, nofun⟩, ?_⟩
      simp only [count]
      cases f w <;> simp only [Verdicts.closing, hv]
    | none =>
      cases hf : f w with
      | error e =>
        have happly : c.apply f = .error e := by rw [c.apply_open hc, hf]; rfl
        rw [run_refused hv happly]
        refine ⟨rfl, ⟨w, hc, nofun⟩, ?_⟩
        simp only [count, hf, Verdicts.closing, hv]
      | ok r =>
        have happly : c.apply f = .ok ({ c with working := some r.1 }, r.2) := by
          rw [c.apply_open hc, hf]
          rfl
        rw [run_done hv happly]
        simp only [meaning, count, hf, Verdicts.closing, hv]
        exact ih r.2 rfl

theorem run_reads (p : Stmts σ ε α) (h : p.Reads) (hc : c.working = none) :
    (p.run (c, vs)).2.1 = c ∧
    (∀ a, (p.run (c, vs)).1 = .ok a ↔ p.meaning c.committed = .ok (c.committed, a) ∧
      (Verdicts.pass (p.count c.committed) vs).isSome) ∧
    ∀ rest, Verdicts.pass (p.count c.committed) vs = some rest → (p.run (c, vs)).2.2 = rest := by
  induction p generalizing vs with
  | done r =>
    refine ⟨rfl, fun a => ?_, fun rest hrest => Option.some.inj hrest⟩
    change r = .ok a ↔ r.map (c.committed, ·) = _ ∧ (some vs).isSome
    cases r <;> simp [Except.map]
  | stmt f k ih =>
    cases hv : vs.next with
    | some e =>
      have hpass : Verdicts.pass ((stmt f k).count c.committed) vs = none := by
        simp only [count]
        cases f c.committed <;> simp only [Verdicts.pass, hv]
      rw [run_failed hv, hpass]
      exact ⟨rfl, fun a => ⟨nofun, nofun⟩, nofun⟩
    | none =>
      cases hf : f c.committed with
      | error e =>
        have happly : c.apply f = .error e := by rw [c.apply_closed hc, hf]; rfl
        rw [run_refused hv happly]
        simp only [count, hf, Verdicts.pass, hv]
        refine ⟨trivial, fun a => ⟨nofun, fun ⟨hmean, _⟩ => ?_⟩,
          fun rest hrest => Option.some.inj hrest⟩
        simp only [meaning, hf] at hmean
        cases hmean
      | ok r =>
        obtain ⟨s, b⟩ := r
        obtain rfl : s = c.committed := h.1 _ _ hf
        have happly : c.apply f = .ok (c, b) := by rw [c.apply_closed hc, hf]; rfl
        rw [run_done hv happly]
        simp only [meaning, count, hf, Verdicts.pass, hv]
        exact ih b (h.2 b)

theorem run_clean (p : Stmts σ ε α) :
    (p.run (c, [])).1 = (p.meaning (c.working.getD c.committed)).map (·.2) ∧
      (p.run (c, [])).2.2 = [] := by
  induction p generalizing c with
  | done r =>
    refine ⟨?_, rfl⟩
    change r = (r.map _).map _
    cases r <;> rfl
  | stmt f k ih =>
    simp only [meaning]
    cases hf : f (c.working.getD c.committed) with
    | error e =>
      have happly : c.apply f = .error e := by
        cases hc : c.working with
        | none =>
          rw [hc] at hf
          rw [c.apply_closed hc]
          exact congrArg _ hf
        | some w =>
          rw [hc] at hf
          rw [c.apply_open hc]
          exact congrArg _ hf
      rw [run_refused rfl happly]
      exact ⟨rfl, rfl⟩
    | ok r =>
      cases hc : c.working with
      | none =>
        rw [hc] at hf
        have happly : c.apply f = .ok ({ c with committed := r.1 }, r.2) := by
          rw [c.apply_closed hc]
          exact congrArg _ hf
        rw [run_done rfl happly]
        have htail := @ih r.2 { c with committed := r.1 }
        rw [hc] at htail ⊢
        exact htail
      | some w =>
        rw [hc] at hf
        have happly : c.apply f = .ok ({ c with working := some r.1 }, r.2) := by
          rw [c.apply_open hc]
          exact congrArg _ hf
        rw [run_done rfl happly]
        exact @ih r.2 { c with working := some r.1 }

end Stmts

namespace Session

variable {misuse : ε} {body : Stmts σ ε α}

theorem immediately_refused {e : ε} (hv : vs.next = some e) :
    immediately misuse body (c, vs) = (.error e, c, vs.tail) := by
  simp only [immediately, bind_run, beginImmediate, statement, hv]

def close (r : Except ε α) (w : σ) (c : Conn σ) (vs : Verdicts ε) :
    Except ε α × Conn σ × Verdicts ε :=
  match r, vs.next with
  | .ok a, none => (.ok a, ⟨w, none⟩, vs.tail)
  | .ok _, some e => (.error e, c, vs.tail)
  | .error e, none => (.error e, { c with working := none }, vs.tail)
  | .error e, some _ => (.error e, c, vs.tail)

theorem immediately_begun (hc : c.working = none) (hv : vs.next = none) {r : Except ε α}
    {c' : Conn σ} {vs' : Verdicts ε} {w : σ}
    (hrun : body.run ({ c with working := some c.committed }, vs.tail) = (r, c', vs'))
    (hw : c'.working = some w) :
    immediately misuse body (c, vs) = close r w c' vs' := by
  have hattempt : attempt body.run ({ c with working := some c.committed }, vs.tail) =
      (.ok r, c', vs') := by rw [attempt, hrun]
  have hbegin : beginImmediate misuse (c, vs) =
      (.ok (), { c with working := some c.committed }, vs.tail) := by
    simp only [beginImmediate, statement, hv, hc]
  rw [immediately, bind_run, hbegin]
  simp only [bind_run, hattempt]
  cases r with
  | ok a =>
    cases hv' : vs'.next with
    | none =>
      simp only [bind_run, commit, statement, close, hv', hw]
      rfl
    | some e => simp only [bind_run, commit, statement, close, hv']
  | error e =>
    cases hv' : vs'.next with
    | none =>
      simp only [bind_run, attempt, rollback, statement, close, hv', hw]
      rfl
    | some e =>
      simp only [bind_run, attempt, rollback, statement, close, hv']
      rfl

end Session

/-- A session either has had its whole effect and returns what that returns, or it has had none and
returns an error. -/
structure Atomic (s : σ) (effect : Except ε (σ × α)) (out : Except ε α × Conn σ × Verdicts ε) :
    Prop where
  failed : ∀ e, out.1 = .error e → out.2.1.committed = s
  succeeded : ∀ a, out.1 = .ok a → effect = .ok (out.2.1.committed, a)

namespace Session

variable {misuse : ε} {body : Stmts σ ε α}

theorem immediately_atomic (hc : c.working = none) :
    Atomic c.committed (body.meaning c.committed) (immediately misuse body (c, vs)) := by
  cases hv : vs.next with
  | some e =>
    rw [immediately_refused hv]
    exact ⟨fun _ _ => rfl, nofun⟩
  | none =>
    obtain ⟨hcommitted, ⟨w, hw, hmeaning⟩, -⟩ := @Stmts.run_open σ ε α
      { c with working := some c.committed } vs.tail body c.committed rfl
    rw [immediately_begun hc hv rfl hw]
    unfold close
    split
    case h_1 a hr _ => exact ⟨nofun, fun _ h => by cases h; exact hmeaning a hr⟩
    case h_2 => exact ⟨fun _ _ => hcommitted, nofun⟩
    case h_3 => exact ⟨fun _ _ => hcommitted, nofun⟩
    case h_4 => exact ⟨fun _ _ => hcommitted, nofun⟩

/-- The transaction stays open exactly where it is begun and the statement that closes it fails. -/
theorem immediately_open_iff (hc : c.working = none) :
    (immediately misuse body (c, vs)).2.1.working.isSome ↔
      vs.next = none ∧ (Verdicts.closing (body.count c.committed) vs.tail).isSome := by
  cases hv : vs.next with
  | some e =>
    rw [immediately_refused hv, hc]
    simp
  | none =>
    obtain ⟨-, ⟨w, hw, -⟩, hclosing⟩ := @Stmts.run_open σ ε α
      { c with working := some c.committed } vs.tail body c.committed rfl
    rw [immediately_begun hc hv rfl hw, ← hclosing]
    unfold close
    split
    case h_1 hnext => simp [hnext]
    case h_2 hnext => simp [hnext, hw]
    case h_3 hnext => simp [hnext]
    case h_4 hnext => simp [hnext, hw]

theorem immediately_clean (hc : c.working = none) :
    (immediately misuse body (c, [])).1 = (body.meaning c.committed).map (·.2) := by
  obtain ⟨-, ⟨w, hw, -⟩, -⟩ := @Stmts.run_open σ ε α { c with working := some c.committed } [] body
    c.committed rfl
  obtain ⟨hr, hvs⟩ := @Stmts.run_clean σ ε α { c with working := some c.committed } body
  rcases hrun : body.run ({ c with working := some c.committed }, []) with ⟨r, c', vs'⟩
  rw [hrun] at hw hr hvs
  obtain rfl : vs' = [] := hvs
  have hmeaning : r = (body.meaning c.committed).map (·.2) := hr
  rw [immediately_begun hc rfl hrun hw, ← hmeaning]
  cases r <;> rfl

/-- The reads lead to a transaction that is begun, and the statement that closes it fails. -/
def LeavesOpen (reads : Stmts σ ε (α ⊕ β)) (body : β → Stmts σ ε α) (s : σ) (vs : Verdicts ε) :
    Prop :=
  ∃ b rest, reads.meaning s = .ok (s, .inr b) ∧ Verdicts.pass (reads.count s) vs = some rest ∧
    rest.next = none ∧ (Verdicts.closing ((body b).count s) rest.tail).isSome

section Transact

variable {reads : Stmts σ ε (α ⊕ β)} {body : β → Stmts σ ε α}

theorem transact_atomic (hreads : reads.Reads) (hc : c.working = none) :
    Atomic c.committed
      (reads.meaning c.committed >>= Stmts.proceed body)
      (transact misuse reads body (c, vs)) := by
  obtain ⟨hsame, hok, -⟩ := @Stmts.run_reads σ ε _ c vs reads hreads hc
  rw [transact, bind_run]
  rcases hrun : reads.run (c, vs) with ⟨r, c', vs'⟩
  rw [hrun] at hsame hok
  obtain rfl : c' = c := hsame
  cases r with
  | error e => exact ⟨fun _ _ => rfl, nofun⟩
  | ok plan =>
    have hmeaning := ((hok plan).mp rfl).1
    rw [hmeaning]
    cases plan with
    | inl a => exact ⟨nofun, fun _ h => by cases h; rfl⟩
    | inr b => exact immediately_atomic hc

theorem transact_open_iff (hreads : reads.Reads) (hc : c.working = none) :
    (transact misuse reads body (c, vs)).2.1.working.isSome ↔
      LeavesOpen reads body c.committed vs := by
  obtain ⟨hsame, hok, hrest⟩ := @Stmts.run_reads σ ε _ c vs reads hreads hc
  rw [transact, bind_run]
  rcases hrun : reads.run (c, vs) with ⟨r, c', vs'⟩
  rw [hrun] at hsame hok hrest
  obtain rfl : c' = c := hsame
  have closed : (¬∃ b, r = .ok (.inr b)) → ¬LeavesOpen reads body c'.committed vs := by
    rintro hr ⟨b, rest, hmeaning, hpass, -⟩
    exact hr ⟨b, (hok _).mpr ⟨hmeaning, by rw [hpass]; rfl⟩⟩
  cases r with
  | error e =>
    have hnone := closed nofun
    simp [hc, hnone]
  | ok plan =>
    cases plan with
    | inl a =>
      have hnone := closed nofun
      change c'.working.isSome ↔ _
      simp [hc, hnone]
    | inr b =>
      obtain ⟨hmeaning, hpass⟩ := (hok _).mp rfl
      obtain ⟨rest, hpass⟩ := Option.isSome_iff_exists.mp hpass
      obtain rfl : vs' = rest := hrest rest hpass
      refine (immediately_open_iff hc).trans ⟨fun h => ⟨b, vs', hmeaning, hpass, h⟩, ?_⟩
      rintro ⟨b', rest, hmeaning', hpass', h⟩
      rw [hmeaning] at hmeaning'
      rw [hpass] at hpass'
      cases hmeaning'
      cases hpass'
      exact h

theorem transact_clean (hreads : reads.Reads) (hc : c.working = none) :
    (transact misuse reads body (c, [])).1 =
      (reads.meaning c.committed >>= Stmts.proceed body).map (·.2) ∧
    (transact misuse reads body (c, [])).2.1.working = none := by
  constructor
  · obtain ⟨hsame, hok, -⟩ := @Stmts.run_reads σ ε _ c [] reads hreads hc
    obtain ⟨hr, hvs⟩ := @Stmts.run_clean σ ε _ c reads
    rw [hc] at hr
    rw [transact, bind_run]
    rcases hrun : reads.run (c, []) with ⟨r, c', vs'⟩
    rw [hrun] at hsame hok hr hvs
    obtain rfl : c' = c := hsame
    obtain rfl : vs' = [] := hvs
    cases r with
    | error e =>
      cases hmeaning : reads.meaning c'.committed with
      | error e' =>
        change _ = (reads.meaning c'.committed).map _ at hr
        rw [hmeaning] at hr
        exact congrArg _ (Except.error.inj hr)
      | ok r =>
        change _ = (reads.meaning c'.committed).map _ at hr
        rw [hmeaning] at hr
        cases hr
    | ok plan =>
      rw [((hok plan).mp rfl).1]
      cases plan with
      | inl a => rfl
      | inr b => exact immediately_clean hc
  · have hopen := @transact_open_iff σ ε α β c [] misuse reads body hreads hc
    refine Option.not_isSome_iff_eq_none.mp fun hsome => ?_
    obtain ⟨b, rest, -, hpass, -, hclosing⟩ := hopen.mp hsome
    rw [Verdicts.pass_nil] at hpass
    cases hpass
    rw [List.tail_nil, Verdicts.closing_nil] at hclosing
    cases hclosing

end Transact

end Session

end Rules

end GpuMarket.Lib
