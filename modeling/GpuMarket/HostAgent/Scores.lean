import GpuMarket.HostAgent.Benchmark
import GpuMarket.Lib.FirstMatch
import Mathlib.Algebra.Order.BigOperators.Group.List
import Mathlib.Data.List.Infix

namespace GpuMarket

open Lib

def Substr (needle s : String) : Prop := needle.toList <:+: s.toList

instance : DecidableRel Substr := fun needle s =>
  inferInstanceAs (Decidable (needle.toList <:+: s.toList))

instance : Std.Refl Substr := ⟨fun s => List.infix_refl s.toList⟩

instance : IsTrans String Substr := ⟨fun _ _ _ => List.IsInfix.trans⟩

theorem contains_iff {s needle : String} : s.contains needle = true ↔ Substr needle s :=
  String.contains_string_iff

theorem scan_eq (table : List (String × ℚ)) (fallback : ℚ) (lname : String) :
    scan table fallback lname = ((firstMatch Substr table lname).map (·.2)).getD fallback := by
  have hrow : (fun row : String × ℚ => lname.contains row.1) =
      fun row => decide (Substr row.1 lname) := by
    funext row
    exact Bool.eq_iff_iff.mpr (contains_iff.trans decide_eq_true_iff.symm)
  rw [scan, hrow, firstMatch]

theorem scan_of_mostSpecific {table : List (String × ℚ)} {fallback : ℚ} {lname : String}
    {row row' : String × ℚ} (h : MostSpecific Substr table lname row)
    (hfirst : firstMatch Substr table row.1 = some row') :
    scan table fallback lname = row'.2 := by
  rw [scan_eq, h.firstMatch_eq, hfirst]
  rfl

theorem firstMatch_appleTable :
    ∀ row ∈ appleTable, firstMatch Substr appleTable row.1 = some row := by
  decide +kernel

theorem firstMatch_gpuTable :
    ∀ row ∈ gpuTable, row.1 ≠ "rtx a4000" → firstMatch Substr gpuTable row.1 = some row := by
  decide +kernel

/-- The one row with a less specific row before it. -/
theorem firstMatch_a4000 : firstMatch Substr gpuTable "rtx a4000" = some ("a40", 74) := by
  decide +kernel

theorem substr_a4000 :
    ∀ row ∈ gpuTable, Substr row.1 "rtx a4000" ↔ row.1 ∈ ["a40", "rtx a4000"] := by
  decide +kernel

theorem mostSpecific_a4000_iff (lname : String) :
    MostSpecific Substr gpuTable lname ("rtx a4000", 40) ↔
      Substr "rtx a4000" lname ∧
        ∀ row ∈ gpuTable, Substr row.1 lname → row.1 ∈ ["a40", "rtx a4000"] := by
  constructor
  · intro h
    exact ⟨h.part_subject, fun row hrow hin =>
      (substr_a4000 row hrow).mp (h.greatest row hrow hin)⟩
  · rintro ⟨hin, hrest⟩
    exact ⟨by decide +kernel, hin, fun row hrow hpart =>
      (substr_a4000 row hrow).mpr (hrest row hrow hpart)⟩

theorem eq_of_a4000 : ∀ row ∈ gpuTable, row.1 = "rtx a4000" → row = ("rtx a4000", 40) := by
  decide +kernel

def tableFor (lname : String) : List (String × ℚ) :=
  if lname.contains "apple" then appleTable else gpuTable

/-- Each row that is most specific for the name, in the table that applies to it, gives the
score. -/
def SpecificWins (toLowercase : String → String) (name : String) : Prop :=
  ∀ row, MostSpecific Substr (tableFor (toLowercase name)) (toLowercase name) row →
    lookupDlperf toLowercase name = row.2

theorem specificWins_of_apple {toLowercase : String → String} {name : String}
    (h : (toLowercase name).contains "apple" = true) : SpecificWins toLowercase name := by
  intro row hrow
  rw [tableFor, if_pos h] at hrow
  have hfirst := firstMatch_mostSpecific_iff.mpr firstMatch_appleTable _ row hrow
  rw [lookupDlperf, if_pos h, appleDlperf, scan_eq, hfirst]
  rfl

theorem specificWins_gpuTable_iff {toLowercase : String → String} {name : String}
    (h : (toLowercase name).contains "apple" = false) :
    SpecificWins toLowercase name ↔
      ¬MostSpecific Substr gpuTable (toLowercase name) ("rtx a4000", 40) := by
  simp only [SpecificWins, tableFor, lookupDlperf, h, Bool.false_eq_true, if_false]
  constructor
  · intro hwins hrow
    have h40 := hwins _ hrow
    rw [scan_of_mostSpecific hrow firstMatch_a4000] at h40
    exact absurd h40 (by decide +kernel)
  · intro hnot row hrow
    have hne : row.1 ≠ "rtx a4000" := fun heq => hnot (eq_of_a4000 row hrow.mem heq ▸ hrow)
    exact scan_of_mostSpecific hrow (firstMatch_gpuTable row hrow.mem hne)

/-- The most specific row wins unless the name is that of an RTX A4000, which the row of the A40
takes. -/
theorem specificWins_iff (toLowercase : String → String) (name : String) :
    SpecificWins toLowercase name ↔
      (toLowercase name).contains "apple" = true ∨
      (toLowercase name).contains "rtx a4000" = false ∨
      ∃ row ∈ gpuTable, (toLowercase name).contains row.1 = true ∧
        row.1 ∉ ["a40", "rtx a4000"] := by
  by_cases happle : (toLowercase name).contains "apple" = true
  · exact iff_of_true (specificWins_of_apple happle) (.inl happle)
  · have hgpu := Bool.not_eq_true _ ▸ happle
    rw [specificWins_gpuTable_iff hgpu, mostSpecific_a4000_iff]
    simp only [hgpu, Bool.false_eq_true, false_or, contains_iff, ← Bool.not_eq_true,
      not_and_or, not_forall, exists_prop]

theorem specificWins_a4000 :
    lookupDlperf String.toLower "NVIDIA RTX A4000" = 74 ∧
      ¬SpecificWins String.toLower "NVIDIA RTX A4000" := by
  have hlower : String.toLower "NVIDIA RTX A4000" = "nvidia rtx a4000" := by decide +kernel
  have happle : ("nvidia rtx a4000").contains "apple" = false := by
    rw [← Bool.not_eq_true, contains_iff]
    decide +kernel
  have hrow : MostSpecific Substr gpuTable "nvidia rtx a4000" ("rtx a4000", 40) :=
    (mostSpecific_a4000_iff _).mpr (by decide +kernel)
  constructor
  · simp only [lookupDlperf, hlower, happle, Bool.false_eq_true, if_false]
    exact scan_of_mostSpecific hrow firstMatch_a4000
  · rw [specificWins_gpuTable_iff (hlower ▸ happle), hlower, not_not]
    exact hrow

section Bounds

theorem scan_bounds {table : List (String × ℚ)} {fallback lo hi : ℚ} (lname : String)
    (h : ∀ row ∈ table, lo ≤ row.2 ∧ row.2 ≤ hi) (hfallback : lo ≤ fallback ∧ fallback ≤ hi) :
    lo ≤ scan table fallback lname ∧ scan table fallback lname ≤ hi := by
  rw [scan]
  cases hfind : table.find? (fun row => lname.contains row.1) with
  | none => exact hfallback
  | some row => exact h row (List.mem_of_find?_eq_some hfind)

theorem lookupDlperf_bounds (toLowercase : String → String) (name : String) :
    2 ≤ lookupDlperf toLowercase name ∧ lookupDlperf toLowercase name ≤ 320 := by
  rw [lookupDlperf]
  split
  · exact scan_bounds _ (by decide +kernel) (by decide +kernel)
  · exact scan_bounds _ (by decide +kernel) (by decide +kernel)

theorem probe_dlperf_bounds {sha256 : List UInt8 → List UInt8} {toLowercase : String → String}
    {inventory : Except String (List GpuInfo)} {inv : Inventory}
    (h : probe sha256 toLowercase inventory = .ok inv) :
    2 * (inv.gpus.length : ℚ) ≤ inv.dlperf ∧ inv.dlperf ≤ 320 * (inv.gpus.length : ℚ) := by
  obtain ⟨-, -, hperf, -⟩ := probe_ok h
  have hscore : ∀ x ∈ inv.gpus.map fun g => lookupDlperf toLowercase g.name,
      2 ≤ x ∧ x ≤ 320 := by
    intro x hx
    obtain ⟨g, -, rfl⟩ := List.mem_map.mp hx
    exact lookupDlperf_bounds toLowercase g.name
  have hlow := List.card_nsmul_le_sum _ (2 : ℚ) fun x hx => (hscore x hx).1
  have hhigh := List.sum_le_card_nsmul _ (320 : ℚ) fun x hx => (hscore x hx).2
  rw [List.length_map, nsmul_eq_mul, mul_comm] at hlow hhigh
  rw [hperf, dlperf, gemmScore]
  exact ⟨hlow, hhigh⟩

end Bounds

end GpuMarket
