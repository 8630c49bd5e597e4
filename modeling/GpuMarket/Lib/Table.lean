import Mathlib.Data.List.Nodup
import Mathlib.Data.List.Sort
import Mathlib.Algebra.BigOperators.Group.List.Basic
import Mathlib.Algebra.Order.BigOperators.Group.List
import Mathlib.Algebra.Order.Group.Int

universe u v w

namespace GpuMarket.Lib

/-- Rows told apart by a key column: no two rows of a table share a key. -/
structure Table {Row : Type u} {Key : Type v} (key : Row → Key) where
  rows : List Row
  nodup : (rows.map key).Nodup

namespace Table

variable {Row : Type u} {Key : Type v} {key : Row → Key}

def empty : Table key := ⟨[], List.nodup_nil⟩

def Has (t : Table key) (k : Key) : Prop := ∃ r ∈ t.rows, key r = k

instance [DecidableEq Key] (t : Table key) (k : Key) : Decidable (t.Has k) :=
  inferInstanceAs (Decidable (∃ r ∈ t.rows, key r = k))

def find? [DecidableEq Key] (t : Table key) (k : Key) : Option Row :=
  t.rows.find? (fun r => decide (key r = k))

def insert (t : Table key) (r : Row) (h : ¬t.Has (key r)) : Table key where
  rows := t.rows ++ [r]
  nodup := by
    simp only [List.map_append, List.map_cons, List.map_nil]
    refine List.Nodup.append t.nodup (List.nodup_singleton _) ?_
    intro k hk hk'
    obtain ⟨r', hr', rfl⟩ := List.mem_map.mp hk
    exact h ⟨r', hr', List.mem_singleton.mp hk'⟩

def mapRows (t : Table key) (f : Row → Row) (hf : ∀ r, key (f r) = key r) : Table key where
  rows := t.rows.map f
  nodup := by
    rw [List.map_map, show key ∘ f = key from funext hf]
    exact t.nodup

def update [DecidableEq Key] (t : Table key) (k : Key) (f : Row → Row)
    (hf : ∀ r, key (f r) = key r) : Table key :=
  t.mapRows (fun r => if key r = k then f r else r) (by intro r; split <;> simp [hf])

def nextId {key : Row → Int} (t : Table key) : Int := (t.rows.map key).foldr max 0 + 1

theorem lt_nextId {key : Row → Int} {t : Table key} {r : Row} (h : r ∈ t.rows) :
    key r < t.nextId := by
  have le_max : ∀ (l : List Int), ∀ k ∈ l, k ≤ l.foldr max 0 := by
    intro l
    induction l with
    | nil => simp
    | cons x l ih =>
      intro k hk
      cases List.mem_cons.mp hk with
      | inl h => subst h; exact le_max_left _ _
      | inr h => exact (ih k h).trans (le_max_right _ _)
  exact Int.lt_add_one_of_le (le_max _ _ (List.mem_map_of_mem h))

def append {key : Row → Int} (t : Table key) (mk : Int → Row) (hmk : ∀ i, key (mk i) = i) :
    Table key :=
  t.insert (mk t.nextId) (by
    rintro ⟨r, hr, h⟩
    rw [hmk] at h
    exact absurd (lt_nextId hr) (by omega))

@[simp] theorem rows_empty : (empty : Table key).rows = [] := rfl

@[simp] theorem rows_insert (t : Table key) (r : Row) (h : ¬t.Has (key r)) :
    (t.insert r h).rows = t.rows ++ [r] := rfl

@[simp] theorem rows_mapRows (t : Table key) (f : Row → Row) (hf : ∀ r, key (f r) = key r) :
    (t.mapRows f hf).rows = t.rows.map f := rfl

@[simp] theorem rows_append {key : Row → Int} (t : Table key) (mk : Int → Row)
    (hmk : ∀ i, key (mk i) = i) : (t.append mk hmk).rows = t.rows ++ [mk t.nextId] := rfl

theorem map_rows_mapRows {β : Type w} (t : Table key) {f : Row → Row}
    (hf : ∀ r, key (f r) = key r) {g : Row → β} (h : ∀ r, g (f r) = g r) :
    (t.mapRows f hf).rows.map g = t.rows.map g := by
  rw [rows_mapRows, List.map_map, show g ∘ f = g from funext h]

theorem prefix_mapRows {β : Type w} (t : Table key) {f : Row → Row}
    (hf : ∀ r, key (f r) = key r) {g : Row → β} (h : ∀ r, g (f r) = g r) :
    t.rows.map g <+: (t.mapRows f hf).rows.map g := by
  simp only [map_rows_mapRows t hf h, List.prefix_rfl]

theorem prefix_update [DecidableEq Key] {β : Type w} (t : Table key) (k : Key) {f : Row → Row}
    (hf : ∀ r, key (f r) = key r) {g : Row → β} (h : ∀ r, g (f r) = g r) :
    t.rows.map g <+: (t.update k f hf).rows.map g :=
  prefix_mapRows t _ (by intro r; split <;> simp [h])

theorem prefix_insert {β : Type w} (t : Table key) (r : Row) (h : ¬t.Has (key r))
    (g : Row → β) : t.rows.map g <+: (t.insert r h).rows.map g := by
  simp

theorem prefix_append {β : Type w} {key : Row → Int} (t : Table key) (mk : Int → Row)
    (hmk : ∀ i, key (mk i) = i) (g : Row → β) :
    t.rows.map g <+: (t.append mk hmk).rows.map g := prefix_insert ..

theorem eq_of_key_eq {t : Table key} {r r' : Row} (hr : r ∈ t.rows) (hr' : r' ∈ t.rows)
    (h : key r = key r') : r = r' := List.inj_on_of_nodup_map t.nodup hr hr' h

section Lookup

variable [DecidableEq Key]

theorem rows_update (t : Table key) (k : Key) (f : Row → Row) (hf : ∀ r, key (f r) = key r) :
    (t.update k f hf).rows = t.rows.map (fun r => if key r = k then f r else r) := rfl

theorem map_rows_update {β : Type w} (t : Table key) (k : Key) {f : Row → Row}
    (hf : ∀ r, key (f r) = key r) {g : Row → β} (h : ∀ r, g (f r) = g r) :
    (t.update k f hf).rows.map g = t.rows.map g :=
  map_rows_mapRows t _ (by intro r; split <;> simp [h])

theorem mem_of_find? {t : Table key} {k : Key} {r : Row} (h : t.find? k = some r) :
    r ∈ t.rows ∧ key r = k :=
  ⟨List.mem_of_find?_eq_some h, by simpa using List.find?_some h⟩

theorem find?_of_mem {t : Table key} {r : Row} (h : r ∈ t.rows) : t.find? (key r) = some r := by
  cases hf : t.find? (key r) with
  | none => exact absurd (List.find?_eq_none.mp hf r h) (by simp)
  | some r' =>
    obtain ⟨hr', hk⟩ := mem_of_find? hf
    rw [eq_of_key_eq hr' h hk]

theorem find?_eq_none {t : Table key} {k : Key} : t.find? k = none ↔ ¬t.Has k := by
  simp [find?, Has]

theorem find?_of_has {t : Table key} {k : Key} (h : t.Has k) :
    ∃ r, t.find? k = some r ∧ r ∈ t.rows ∧ key r = k := by
  obtain ⟨r, hr, rfl⟩ := h
  exact ⟨r, find?_of_mem hr, hr, rfl⟩

theorem mem_update {t : Table key} {k : Key} {f : Row → Row} {hf : ∀ r, key (f r) = key r}
    {r' : Row} (h : r' ∈ (t.update k f hf).rows) :
    ∃ r ∈ t.rows, key r' = key r ∧ r' = if key r = k then f r else r := by
  rw [rows_update] at h
  obtain ⟨r, hr, rfl⟩ := List.mem_map.mp h
  exact ⟨r, hr, by split <;> simp [hf], rfl⟩

theorem update_mem {t : Table key} {k : Key} {f : Row → Row} {hf : ∀ r, key (f r) = key r}
    {r : Row} (h : r ∈ t.rows) : (if key r = k then f r else r) ∈ (t.update k f hf).rows :=
  List.mem_map_of_mem h

theorem exists_split {t : Table key} {r : Row} (h : r ∈ t.rows) :
    ∃ pre post, t.rows = pre ++ r :: post ∧
      ∀ f hf, (t.update (key r) f hf).rows = pre ++ f r :: post := by
  obtain ⟨pre, post, hsplit⟩ := List.append_of_mem h
  have hnd := t.nodup
  rw [hsplit, List.map_append, List.map_cons, List.nodup_append] at hnd
  obtain ⟨-, hpost, hdisj⟩ := hnd
  refine ⟨pre, post, hsplit, fun f hf => ?_⟩
  have keep : ∀ l : List Row, (∀ x ∈ l, key x ≠ key r) →
      l.map (fun x => if key x = key r then f x else x) = l := by
    intro l hl
    conv_rhs => rw [← List.map_id l]
    exact List.map_congr_left (fun x hx => by simp [hl x hx])
  rw [rows_update, hsplit, List.map_append, List.map_cons, keep pre, keep post]
  · simp
  · intro x hx h
    exact (List.nodup_cons.mp hpost).1 (h ▸ List.mem_map_of_mem hx)
  · intro x hx
    exact hdisj _ (List.mem_map_of_mem hx) _ (by simp)

@[simp] theorem has_update {t : Table key} {k k' : Key} {f : Row → Row}
    {hf : ∀ r, key (f r) = key r} : (t.update k f hf).Has k' ↔ t.Has k' := by
  constructor
  · rintro ⟨r, hr, rfl⟩
    obtain ⟨r', hr', hk, -⟩ := mem_update hr
    exact ⟨r', hr', hk.symm⟩
  · rintro ⟨r, hr, rfl⟩
    exact ⟨_, update_mem hr, by split <;> simp [hf]⟩

theorem find?_of_rows {t t' : Table key} {f : Row → Row} (hf : ∀ r, key (f r) = key r)
    {new : List Row} (hrows : t'.rows = t.rows.map f ++ new) (k : Key) :
    t'.find? k = ((t.find? k).map f).or (new.find? fun r => decide (key r = k)) := by
  have same : (fun r => decide (key (f r) = k)) = fun r => decide (key r = k) := by
    funext r
    rw [hf]
  rw [find?, hrows, List.find?_append, List.find?_map, Function.comp_def, same, find?]

end Lookup

@[simp] theorem has_mapRows {t : Table key} {k : Key} {f : Row → Row}
    {hf : ∀ r, key (f r) = key r} : (t.mapRows f hf).Has k ↔ t.Has k := by
  simp [Has, hf]

@[simp] theorem has_insert {t : Table key} {k : Key} {r : Row} {h : ¬t.Has (key r)} :
    (t.insert r h).Has k ↔ t.Has k ∨ key r = k := by
  simp [Has, or_and_right, exists_or]

theorem has_append {key : Row → Int} {t : Table key} {mk : Int → Row}
    {hmk : ∀ i, key (mk i) = i} {k : Int} :
    (t.append mk hmk).Has k ↔ t.Has k ∨ t.nextId = k := by
  rw [append, has_insert, hmk]

theorem not_has_nextId {key : Row → Int} (t : Table key) : ¬t.Has t.nextId := by
  rintro ⟨r, hr, h⟩
  exact absurd (lt_nextId hr) (by omega)

section Map

/-! A rewriting of all rows commutes with what is done to some of them. -/

variable {g : Row → Row} {hg : ∀ r, key (g r) = key r}

theorem ext_rows {t t' : Table key} (h : t.rows = t'.rows) : t = t' := by
  cases t
  cases t'
  cases h
  rfl

theorem mapRows_comm (t : Table key) {f f' : Row → Row} {hf : ∀ r, key (f r) = key r}
    {hf' : ∀ r, key (f' r) = key r} (h : ∀ r, g (f r) = f' (g r)) :
    (t.mapRows f hf).mapRows g hg = (t.mapRows g hg).mapRows f' hf' := by
  refine ext_rows ?_
  simp only [rows_mapRows, List.map_map]
  exact List.map_congr_left fun r _ => h r

theorem mapRows_update [DecidableEq Key] (t : Table key) (k : Key) {f f' : Row → Row}
    {hf : ∀ r, key (f r) = key r} {hf' : ∀ r, key (f' r) = key r} (h : ∀ r, g (f r) = f' (g r)) :
    (t.update k f hf).mapRows g hg = (t.mapRows g hg).update k f' hf' := by
  refine mapRows_comm t fun r => ?_
  by_cases hk : key r = k
  · rw [if_pos hk, if_pos ((hg r).trans hk), h]
  · rw [if_neg hk, if_neg fun hk' => hk ((hg r).symm.trans hk')]

theorem find?_mapRows [DecidableEq Key] (t : Table key) (hg : ∀ r, key (g r) = key r) (k : Key) :
    (t.mapRows g hg).find? k = (t.find? k).map g := by
  have same : ((fun r => decide (key r = k)) ∘ g) = fun r => decide (key r = k) := by
    funext r
    simp only [Function.comp_apply, hg]
  rw [find?, rows_mapRows, List.find?_map, same, find?]

theorem nextId_mapRows {key : Row → Int} (t : Table key) (hg : ∀ r, key (g r) = key r) :
    (t.mapRows g hg).nextId = t.nextId := by
  rw [nextId, map_rows_mapRows t hg hg, nextId]

theorem mapRows_append {key : Row → Int} {hg : ∀ r, key (g r) = key r} (t : Table key)
    {mk mk' : Int → Row} {hmk : ∀ i, key (mk i) = i} {hmk' : ∀ i, key (mk' i) = i}
    (h : ∀ i, g (mk i) = mk' i) :
    (t.append mk hmk).mapRows g hg = (t.mapRows g hg).append mk' hmk' := by
  refine ext_rows ?_
  rw [rows_mapRows, rows_append, rows_append, nextId_mapRows, rows_mapRows, List.map_append, ← h]
  rfl

end Map

section Sum

variable {M : Type w} [AddCommGroup M]

def sum (t : Table key) (g : Row → M) : M := (t.rows.map g).sum

@[simp] theorem sum_empty (g : Row → M) : (empty : Table key).sum g = 0 := rfl

theorem sum_nonneg (t : Table key) {g : Row → Int} (h : ∀ r ∈ t.rows, 0 ≤ g r) : 0 ≤ t.sum g :=
  List.sum_nonneg (by simpa using h)

theorem sum_eq_zero_iff (t : Table key) {g : Row → Int} (h : ∀ r ∈ t.rows, 0 ≤ g r) :
    t.sum g = 0 ↔ ∀ r ∈ t.rows, g r = 0 := by
  rw [sum]
  generalize t.rows = rows at h
  induction rows with
  | nil => simp
  | cons r rows ih =>
    have hrows : ∀ r ∈ rows, 0 ≤ g r := fun r hr => h r (List.mem_cons_of_mem _ hr)
    have hr := h r (by simp)
    have hsum : 0 ≤ (rows.map g).sum := List.sum_nonneg (by simpa using hrows)
    rw [List.map_cons, List.sum_cons, List.forall_mem_cons, ← ih hrows]
    omega

end Sum

section Order

variable {key : Row → Int}

def orderBy (key : Row → Int) (rows : List Row) : List Row :=
  rows.insertionSort (fun a b => key a ≤ key b)

def Ascending (t : Table key) : Prop := t.rows.Pairwise (fun a b => key a < key b)

theorem ascending_empty : (empty : Table key).Ascending := List.Pairwise.nil

theorem Ascending.append {t : Table key} (h : t.Ascending) (mk : Int → Row)
    (hmk : ∀ i, key (mk i) = i) : (t.append mk hmk).Ascending := by
  refine List.pairwise_append.mpr ⟨h, List.pairwise_singleton _ _, ?_⟩
  intro r hr r' hr'
  rw [List.mem_singleton.mp hr', hmk]
  exact lt_nextId hr

theorem Ascending.mapRows {t : Table key} (h : t.Ascending) (f : Row → Row)
    (hf : ∀ r, key (f r) = key r) : (t.mapRows f hf).Ascending := by
  refine List.pairwise_map.mpr (h.imp ?_)
  intro a b hab
  rwa [hf, hf]

theorem Ascending.orderBy_filter {t : Table key} (h : t.Ascending) (p : Row → Bool) :
    orderBy key (t.rows.filter p) = t.rows.filter p :=
  List.Pairwise.insertionSort_eq ((h.filter p).imp fun hab => le_of_lt hab)

end Order

section Limit

variable {r : Row → Row → Prop} [DecidableRel r] {n : Nat} {rows : List Row}

def limit (r : Row → Row → Prop) [DecidableRel r] (n : Nat) (rows : List Row) : List Row :=
  (rows.insertionSort r).take n

theorem length_limit : (limit r n rows).length = min rows.length n := by
  rw [limit, List.length_take, List.length_insertionSort, min_comm]

theorem mem_of_limit {a : Row} (h : a ∈ limit r n rows) : a ∈ rows :=
  (List.mem_insertionSort r).mp (List.mem_of_mem_take h)

theorem nodup_limit {β : Type w} {f : Row → β} (h : (rows.map f).Nodup) :
    ((limit r n rows).map f).Nodup := by
  have hsorted : ((rows.insertionSort r).map f).Nodup :=
    ((List.perm_insertionSort r rows).map f).nodup_iff.mpr h
  exact hsorted.sublist ((List.take_sublist n _).map f)

theorem pairwise_limit [Std.Total r] [IsTrans Row r] : (limit r n rows).Pairwise r :=
  (List.pairwise_insertionSort r rows).sublist (List.take_sublist n _)

theorem limit_before [Std.Total r] [IsTrans Row r] {a b : Row} (ha : a ∈ limit r n rows)
    (hb : b ∈ rows) (hcut : b ∉ limit r n rows) : r a b := by
  have hsplit : rows.insertionSort r = limit r n rows ++ (rows.insertionSort r).drop n :=
    (List.take_append_drop n _).symm
  have hsorted := List.pairwise_insertionSort r rows
  rw [hsplit, List.pairwise_append] at hsorted
  have hmem : b ∈ limit r n rows ++ (rows.insertionSort r).drop n :=
    hsplit ▸ (List.mem_insertionSort r).mpr hb
  exact hsorted.2.2 a ha b ((List.mem_append.mp hmem).resolve_left hcut)

end Limit

end Table

end GpuMarket.Lib
