import GpuMarket.Lib.Table

universe u v

namespace GpuMarket.Lib

variable {Row : Type u}

/-- The rows of a table stay in their places, each as it was or rewritten as `R` has it, and those
that follow are `New`. -/
def Grows (R : Row → Row → Prop) (New : Row → Prop) (rows rows' : List Row) : Prop :=
  ∃ kept new, rows' = kept ++ new ∧ List.Forall₂ (fun r r' => r' = r ∨ R r r') rows kept ∧
    ∀ r ∈ new, New r

namespace Grows

variable {R : Row → Row → Prop} {New : Row → Prop} {rows rows' : List Row}

theorem refl (rows : List Row) : Grows R New rows rows :=
  ⟨rows, [], (List.append_nil _).symm, List.forall₂_same.mpr fun _ _ => .inl rfl,
    fun _ h => absurd h List.not_mem_nil⟩

theorem map_append {f : Row → Row} (hf : ∀ r ∈ rows, f r = r ∨ R r (f r)) {new : List Row}
    (hnew : ∀ r ∈ new, New r) : Grows R New rows (rows.map f ++ new) := by
  refine ⟨_, new, rfl, ?_, hnew⟩
  rw [List.forall₂_map_right_iff]
  exact List.forall₂_same.mpr hf

theorem map {f : Row → Row} (hf : ∀ r ∈ rows, f r = r ∨ R r (f r)) :
    Grows R New rows (rows.map f) := by
  have h : Grows R New rows (rows.map f ++ []) :=
    map_append hf fun _ h => absurd h List.not_mem_nil
  rwa [List.append_nil] at h

theorem append {new : List Row} (hnew : ∀ r ∈ new, New r) : Grows R New rows (rows ++ new) :=
  ⟨rows, new, rfl, List.forall₂_same.mpr fun _ _ => .inl rfl, hnew⟩

theorem update {Key : Type v} [DecidableEq Key] {key : Row → Key} {t : Table key} {k : Key}
    {f : Row → Row} (hf : ∀ r, key (f r) = key r) (h : ∀ r ∈ t.rows, key r = k → R r (f r)) :
    Grows R New t.rows (t.update k f hf).rows := by
  refine map fun r hr => ?_
  split
  case isTrue hk => exact .inr (h r hr hk)
  case isFalse => exact .inl rfl

theorem eq_append (h : Grows (fun _ _ => False) New rows rows') :
    ∃ new, rows' = rows ++ new ∧ ∀ r ∈ new, New r := by
  obtain ⟨kept, new, rfl, hkept, hnew⟩ := h
  have hsame : List.Forall₂ Eq rows kept := hkept.imp fun _ _ h => (h.resolve_right id).symm
  rw [List.forall₂_eq_eq_eq] at hsame
  exact ⟨new, by rw [hsame], hnew⟩

theorem of_mem (h : Grows R New rows rows') {r : Row} (hr : r ∈ rows) :
    ∃ r' ∈ rows', r' = r ∨ R r r' := by
  obtain ⟨kept, new, rfl, hkept, -⟩ := h
  obtain ⟨i, hi, rfl⟩ := List.getElem_of_mem hr
  rw [List.forall₂_iff_get] at hkept
  obtain ⟨hlen, hget⟩ := hkept
  have hi' : i < kept.length := by rwa [← hlen]
  exact ⟨kept[i], List.mem_append_left _ (List.getElem_mem hi'), hget i hi hi'⟩

end Grows

end GpuMarket.Lib
