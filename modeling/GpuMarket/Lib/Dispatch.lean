import GpuMarket.Lib.Grid

universe u v w x y z

namespace GpuMarket.Lib.Kernel

variable {γ : Type u} {ι : Type v} {μ : Type w} {π : Type x} {β : Type y} {α : Type z}
  [DecidableEq γ] [DecidableEq ι] [Fintype ι] [DecidableEq β]
  (K : Kernel γ ι μ π (Access β α)) (buf : β)

/-- One dispatch of the kernel, with its threads in some order, takes a buffer from `cells` to
`cells'`. -/
def Dispatched (cells cells' : Nat → α) : Prop :=
  ∃ acts s, K.exec K.init acts = some s ∧ K.Stuck s ∧
    cells' = stored cells (s.log.filterMap (Access.written buf))

inductive Dispatches : Nat → (Nat → α) → (Nat → α) → Prop
  | none : Dispatches 0 cells cells
  | next : Dispatches count cells cells' → K.Dispatched buf cells' cells'' →
      Dispatches (count + 1) cells cells''

variable {K buf}

theorem Dispatches.last {P : (Nat → α) → Prop}
    (hP : ∀ {cells cells'}, K.Dispatched buf cells cells' → P cells') {count : Nat}
    {cells cells' : Nat → α} (h : K.Dispatches buf count cells cells') (hcount : 0 < count) :
    P cells' := by
  cases h with
  | none => exact absurd hcount (Nat.lt_irrefl 0)
  | next _ hlast => exact hP hlast

theorem Dispatches.keep {P : (Nat → α) → Prop}
    (hP : ∀ {cells cells'}, K.Dispatched buf cells cells' → P cells') {count : Nat}
    {cells cells' : Nat → α} (h : K.Dispatches buf count cells cells') (hcells : P cells) :
    P cells' := by
  cases h with
  | none => exact hcells
  | next _ hlast => exact hP hlast

theorem Dispatches.exists (hK : ∀ cells, ∃ cells', K.Dispatched buf cells cells') (count : Nat)
    (cells : Nat → α) : ∃ cells', K.Dispatches buf count cells cells' := by
  induction count with
  | zero => exact ⟨cells, .none⟩
  | succ count ih =>
    obtain ⟨cells', h⟩ := ih
    obtain ⟨cells'', hlast⟩ := hK cells'
    exact ⟨cells'', .next h hlast⟩

end GpuMarket.Lib.Kernel
