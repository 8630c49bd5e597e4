import Mathlib.Algebra.Order.BigOperators.Group.List
import Mathlib.Algebra.Order.Group.MinMax
import Mathlib.Tactic.Abel

universe u

namespace GpuMarket.Lib

variable {α : Type u} [AddCommGroup α] [LinearOrder α]

/-- Claims on a purse, met one after the other as far as it reaches. -/
def takes (purse : α) : List α → List α
  | [] => []
  | x :: xs => min x purse :: takes (purse - min x purse) xs

@[simp] theorem takes_nil (purse : α) : takes purse [] = [] := rfl

@[simp] theorem takes_cons (purse x : α) (xs : List α) :
    takes purse (x :: xs) = min x purse :: takes (purse - min x purse) xs := rfl

theorem takes_le (purse : α) (xs : List α) : List.Forall₂ (· ≤ ·) (takes purse xs) xs := by
  induction xs generalizing purse with
  | nil => exact .nil
  | cons x xs ih => exact .cons (min_le_left _ _) (ih _)

variable [IsOrderedAddMonoid α]

theorem takes_nonneg {purse : α} (hpurse : 0 ≤ purse) {xs : List α} (h : ∀ x ∈ xs, 0 ≤ x) :
    ∀ x ∈ takes purse xs, 0 ≤ x := by
  induction xs generalizing purse with
  | nil => exact fun _ hx => absurd hx List.not_mem_nil
  | cons x xs ih =>
    obtain ⟨hx, hxs⟩ := List.forall_mem_cons.mp h
    have hleft : 0 ≤ purse - min x purse := sub_nonneg.mpr (min_le_right _ _)
    exact List.forall_mem_cons.mpr ⟨le_min hx hpurse, ih hleft hxs⟩

/-- In whatever order the claims come, they take all that they ask for, or all that there is. -/
theorem sum_takes {purse : α} (hpurse : 0 ≤ purse) {xs : List α} (h : ∀ x ∈ xs, 0 ≤ x) :
    (takes purse xs).sum = min xs.sum purse := by
  induction xs generalizing purse with
  | nil => simp [hpurse]
  | cons x xs ih =>
    obtain ⟨hx, hxs⟩ := List.forall_mem_cons.mp h
    have hleft : 0 ≤ purse - min x purse := sub_nonneg.mpr (min_le_right _ _)
    rw [takes_cons, List.sum_cons, List.sum_cons, ih hleft hxs]
    rcases le_total x purse with hle | hle
    · rw [min_eq_left hle, ← min_add_add_left]
      congr 1
      abel
    · have hrest : 0 ≤ xs.sum := List.sum_nonneg hxs
      rw [min_eq_right hle, sub_self, min_eq_right hrest, add_zero,
        min_eq_right (hle.trans (le_add_of_nonneg_right hrest))]

theorem sub_sum_takes {purse : α} (hpurse : 0 ≤ purse) {xs : List α} (h : ∀ x ∈ xs, 0 ≤ x) :
    purse - (takes purse xs).sum = max 0 (purse - xs.sum) := by
  rw [sum_takes hpurse h, ← max_sub_sub_left, sub_self, max_comm]

end GpuMarket.Lib
