import GpuMarket.Lib.Table

universe u v w x

namespace GpuMarket.Lib

variable {Entry : Type u} {Row : Type v} {Key : Type w} {M : Type x} [DecidableEq Key]
  [AddCommGroup M]

section Total

variable (owner : Entry → Option Key) (amount : Entry → M)

def total (k : Key) (j : List Entry) : M := ((j.filter (owner · = some k)).map amount).sum

@[simp] theorem total_nil (k : Key) : total owner amount k [] = 0 := rfl

theorem total_append (k : Key) (j j' : List Entry) :
    total owner amount k (j ++ j') = total owner amount k j + total owner amount k j' := by
  simp [total]

theorem total_singleton (k : Key) (e : Entry) :
    total owner amount k [e] = if owner e = some k then amount e else 0 := by
  by_cases h : owner e = some k <;> simp [total, h]

theorem total_cons (k : Key) (e : Entry) (j : List Entry) :
    total owner amount k (e :: j) =
      (if owner e = some k then amount e else 0) + total owner amount k j := by
  rw [← total_singleton, ← total_append, List.singleton_append]

variable {owner amount}

theorem total_eq_zero {k : Key} {j : List Entry} (h : ∀ e ∈ j, owner e ≠ some k) :
    total owner amount k j = 0 := by
  rw [total, List.filter_eq_nil_iff.mpr (by simpa using h), List.map_nil, List.sum_nil]

end Total

variable {key : Row → Key}

theorem Table.sum_ite_key (t : Table key) {k : Key} (h : t.Has k) (c : M) :
    t.sum (fun r => if key r = k then c else 0) = c := by
  obtain ⟨r, hr, rfl⟩ := h
  obtain ⟨pre, post, hrows, -⟩ := t.exists_split hr
  have hnd := t.nodup
  rw [hrows, List.map_append, List.map_cons, List.nodup_append] at hnd
  obtain ⟨-, hpost, hdisj⟩ := hnd
  have vanishes : ∀ l : List Row, (∀ x ∈ l, key x ≠ key r) →
      (l.map fun x => if key x = key r then c else 0).sum = 0 := by
    intro l hl
    induction l with
    | nil => rfl
    | cons x l ih =>
      simp only [List.map_cons, List.sum_cons, hl x (by simp), if_false, zero_add]
      exact ih fun y hy => hl y (List.mem_cons_of_mem _ hy)
  rw [Table.sum, hrows, List.map_append, List.map_cons, List.sum_append, List.sum_cons,
    vanishes pre, vanishes post]
  · simp
  · intro x hx h
    exact (List.nodup_cons.mp hpost).1 (h ▸ List.mem_map_of_mem hx)
  · intro x hx
    exact hdisj _ (List.mem_map_of_mem hx) _ (by simp)

def Tallies (t : Table key) (val : Row → M) (owner : Entry → Option Key) (amount : Entry → M)
    (j : List Entry) : Prop :=
  ∀ r ∈ t.rows, val r = total owner amount (key r) j

namespace Tallies

variable {t : Table key} {val : Row → M} {owner : Entry → Option Key} {amount : Entry → M}
  {j : List Entry}

theorem empty : Tallies (Table.empty : Table key) val owner amount j :=
  fun _ hr => absurd hr List.not_mem_nil

theorem concat_of_idle (h : Tallies t val owner amount j) {e : Entry}
    (he : owner e = none ∨ amount e = 0) : Tallies t val owner amount (j ++ [e]) := by
  intro r hr
  rw [total_append, total_singleton, h r hr]
  rcases he with he | he <;> simp [he]

theorem mapRows (h : Tallies t val owner amount j) {f : Row → Row} (hf : ∀ r, key (f r) = key r)
    (hval : ∀ r, val (f r) = val r) : Tallies (t.mapRows f hf) val owner amount j := by
  intro r hr
  obtain ⟨r₀, hr₀, rfl⟩ := List.mem_map.mp hr
  rw [hval, hf, h r₀ hr₀]

theorem update (h : Tallies t val owner amount j) {k : Key} {f : Row → Row}
    (hf : ∀ r, key (f r) = key r) (hval : ∀ r, val (f r) = val r) :
    Tallies (t.update k f hf) val owner amount j :=
  h.mapRows _ (by intro r; split <;> simp [hval])

theorem insert (h : Tallies t val owner amount j) {r : Row} (hr : ¬t.Has (key r))
    (hval : val r = 0) (hj : ∀ e ∈ j, owner e ≠ some (key r)) :
    Tallies (t.insert r hr) val owner amount j := by
  intro r' hr'
  rcases List.mem_append.mp hr' with hr' | hr'
  · exact h r' hr'
  · rw [List.mem_singleton.mp hr', hval, total_eq_zero hj]

theorem append {key : Row → Int} {t : Table key} {owner : Entry → Option Int}
    (h : Tallies t val owner amount j) {mk : Int → Row} (hmk : ∀ i, key (mk i) = i)
    (hval : val (mk t.nextId) = 0) (hj : ∀ e ∈ j, owner e ≠ some t.nextId) :
    Tallies (t.append mk hmk) val owner amount j :=
  h.insert _ hval (by rwa [hmk])

theorem post (h : Tallies t val owner amount j) {k : Key} {f : Row → Row}
    (hf : ∀ r, key (f r) = key r) {e : Entry} (hown : owner e = some k)
    (hval : ∀ r ∈ t.rows, key r = k → val (f r) = val r + amount e) :
    Tallies (t.update k f hf) val owner amount (j ++ [e]) := by
  intro r' hr'
  obtain ⟨r, hr, hk, rfl⟩ := Table.mem_update hr'
  rw [total_append, total_singleton, hown, hk]
  by_cases hrk : key r = k
  · simp [hrk, hval r hr hrk, h r hr]
  · simp [hrk, Ne.symm hrk, h r hr]

theorem sum_eq (h : Tallies t val owner amount j)
    (hj : ∀ e ∈ j, ∀ k, owner e = some k → t.Has k) :
    t.sum val = (j.map fun e => if (owner e).isSome then amount e else 0).sum := by
  have rows : t.sum val = t.sum fun r => total owner amount (key r) j := by
    rw [Table.sum, Table.sum, List.map_congr_left h]
  rw [rows]
  clear rows h
  induction j with
  | nil => simp [Table.sum]
  | cons e j ih =>
    have hsplit : (t.sum fun r => total owner amount (key r) (e :: j)) =
        (t.sum fun r => if owner e = some (key r) then amount e else 0) +
          t.sum fun r => total owner amount (key r) j := by
      simp only [Table.sum, total_cons]
      exact List.sum_map_add
    rw [hsplit, ih fun e' he' => hj e' (List.mem_cons_of_mem _ he'), List.map_cons, List.sum_cons]
    congr 1
    cases hown : owner e with
    | none => simp [Table.sum]
    | some k =>
      have hk := Table.sum_ite_key t (hj e (by simp) k hown) (amount e)
      simpa [eq_comm] using hk

end Tallies

end GpuMarket.Lib
