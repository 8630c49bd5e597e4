import Mathlib.Data.List.Find
import Mathlib.Order.Defs.Unbundled

universe u v

namespace GpuMarket.Lib

variable {κ : Type u} {β : Type v}

/-- The row's pattern is part of the subject, and so is no pattern but its own parts. -/
structure MostSpecific (part : κ → κ → Prop) (rows : List (κ × β)) (s : κ) (row : κ × β) :
    Prop where
  mem : row ∈ rows
  part_subject : part row.1 s
  greatest : ∀ row' ∈ rows, part row'.1 s → part row'.1 row.1

def firstMatch (part : κ → κ → Prop) [DecidableRel part] (rows : List (κ × β)) (s : κ) :
    Option (κ × β) :=
  rows.find? fun row => part row.1 s

variable {part : κ → κ → Prop} {rows : List (κ × β)} {s : κ} {row : κ × β}

theorem MostSpecific.part_iff [IsTrans κ part] (h : MostSpecific part rows s row)
    {row' : κ × β} (h' : row' ∈ rows) : part row'.1 s ↔ part row'.1 row.1 :=
  ⟨h.greatest row' h', fun hpart => IsTrans.trans _ _ _ hpart h.part_subject⟩

theorem mostSpecific_self [Std.Refl part] (h : row ∈ rows) : MostSpecific part rows row.1 row :=
  ⟨h, Std.Refl.refl row.1, fun _ _ hpart => hpart⟩

variable [DecidableRel part]

/-- The patterns that are part of the subject are the parts of its most specific one, so a scan
for the one is a scan for the other. -/
theorem MostSpecific.firstMatch_eq [IsTrans κ part] (h : MostSpecific part rows s row) :
    firstMatch part rows s = firstMatch part rows row.1 :=
  List.find?_congr fun _ h' => decide_eq_decide.mpr (h.part_iff h')

/-- A scan finds the most specific row of every subject as soon as it does so for the patterns
themselves. -/
theorem firstMatch_mostSpecific_iff [Std.Refl part] [IsTrans κ part] :
    (∀ s row, MostSpecific part rows s row → firstMatch part rows s = some row) ↔
      ∀ row ∈ rows, firstMatch part rows row.1 = some row := by
  constructor
  · intro h row hrow
    exact h row.1 row (mostSpecific_self hrow)
  · intro h s row hrow
    rw [hrow.firstMatch_eq, h row hrow.mem]

end GpuMarket.Lib
