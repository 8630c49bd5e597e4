import GpuMarket.GpuBench.Shader
import Mathlib.Algebra.Ring.Int.Defs

universe u

namespace GpuMarket

open Lib

inductive GemmBuffer
  | a
  | b
  | c
  | tileA
  | tileB
  deriving DecidableEq

/-- Where a thread of `GEMM_F32_WGSL` is. -/
inductive GemmPc
  /-- at the test of the loop over the tiles -/
  | head
  | loadA
  | loadB
  /-- at the first barrier -/
  | loaded
  /-- at the test of the loop over a tile -/
  | inner
  /-- at the second barrier -/
  | summed
  | store
  | done

structure GemmThread (R : Type u) where
  pc : GemmPc
  t : UInt32
  i : UInt32
  acc : R

structure GemmTiles (R : Type u) where
  tileA : Nat → R
  tileB : Nat → R

def tile : UInt32 := 16

def numTiles (n : UInt32) : UInt32 := (n + tile - 1) / tile

def gemmGroups (n : UInt32) : Nat := (divCeil n tile).toNat

section Model

variable {R : Type u} [Semiring R] (a b : Nat → R)

/-- `GEMM_F32_WGSL`, over exact arithmetic.  An id is the pair of its `x` and its `y`. -/
def gemmNext (n : UInt32) (gid lid : UInt32 × UInt32) (tiles : GemmTiles R) (v : GemmThread R) :
    Move (GemmTiles R) (GemmThread R) (Access GemmBuffer R) :=
  let row := gid.2
  let col := gid.1
  let own := (lid.2 * tile + lid.1).toNat
  match v.pc with
  | .head => .go tiles { v with pc := if v.t < numTiles n then .loadA else .store } []
  | .loadA =>
    let aCol := v.t * tile + lid.1
    if row < n ∧ aCol < n then
      let i := (row * n + aCol).toNat
      .go { tiles with tileA := Function.update tiles.tileA own (a i) } { v with pc := .loadB }
        [.read .a i, .write .tileA own (a i)]
    else
      .go { tiles with tileA := Function.update tiles.tileA own 0 } { v with pc := .loadB }
        [.write .tileA own 0]
  | .loadB =>
    let bRow := v.t * tile + lid.2
    if bRow < n ∧ col < n then
      let i := (bRow * n + col).toNat
      .go { tiles with tileB := Function.update tiles.tileB own (b i) } { v with pc := .loaded }
        [.read .b i, .write .tileB own (b i)]
    else
      .go { tiles with tileB := Function.update tiles.tileB own 0 } { v with pc := .loaded }
        [.write .tileB own 0]
  | .loaded => .barrier { v with pc := .inner, i := 0 }
  | .inner =>
    if v.i < tile then
      let left := (lid.2 * tile + v.i).toNat
      let right := (v.i * tile + lid.1).toNat
      .go tiles { v with acc := v.acc + tiles.tileA left * tiles.tileB right, i := v.i + 1 }
        [.read .tileA left, .read .tileB right]
    else .go tiles { v with pc := .summed } []
  | .summed => .barrier { v with pc := .head, t := v.t + 1 }
  | .store =>
    if row < n ∧ col < n then
      .go tiles { v with pc := .done } [.write .c (row * n + col).toNat v.acc]
    else .go tiles { v with pc := .done } []
  | .done => .halt

def gemmLid (t : Fin 16 × Fin 16) : UInt32 × UInt32 := (UInt32.ofNat t.1, UInt32.ofNat t.2)

def gemmGid {k : Nat} (g : Fin k × Fin k) (t : Fin 16 × Fin 16) : UInt32 × UInt32 :=
  (UInt32.ofNat g.1 * 16 + UInt32.ofNat t.1, UInt32.ofNat g.2 * 16 + UInt32.ofNat t.2)

/-- What `gemm` dispatches.  The variables of a workgroup are zero at first. -/
def gemm (n : UInt32) :
    Kernel (Fin (gemmGroups n) × Fin (gemmGroups n)) (Fin 16 × Fin 16) (GemmTiles R) (GemmThread R)
      (Access GemmBuffer R) where
  mem _ := { tileA := fun _ => 0, tileB := fun _ => 0 }
  own _ _ := { pc := .head, t := 0, i := 0, acc := 0 }
  next g t := gemmNext a b n (gemmGid g t) (gemmLid t)

def gemmSize (n : UInt32) : GemmBuffer → Nat
  | .a | .b | .c => n.toNat * n.toNat
  | .tileA | .tileB => 256

end Model

/-! ### The numbers of a dispatch -/

section Numbers

variable {n : UInt32}

theorem lt_of_square (h : n.toNat * n.toNat ≤ 2 ^ 32) : n.toNat ≤ 65536 := by
  by_contra hn
  have hmul := Nat.mul_le_mul (Nat.not_le.mp hn) (Nat.not_le.mp hn)
  omega

theorem toNat_numTiles (h : n.toNat * n.toNat ≤ 2 ^ 32) :
    (numTiles n).toNat = (n.toNat + 15) / 16 := by
  have hn := lt_of_square h
  have htile : tile.toNat = 16 := rfl
  have hadd : (n + tile).toNat = n.toNat + 16 := toNat_add_of_lt (by omega)
  have hone : (1 : UInt32) ≤ n + tile := by
    rw [UInt32.le_iff_toNat_le, hadd]
    exact Nat.le_add_left 1 _
  rw [numTiles, UInt32.toNat_div, UInt32.toNat_sub_of_le _ _ hone, hadd]
  rfl

theorem numTiles_le (h : n.toNat * n.toNat ≤ 2 ^ 32) : (numTiles n).toNat ≤ 4096 := by
  have hn := lt_of_square h
  rw [toNat_numTiles h]
  omega

theorem gemmGroups_mul (n : UInt32) :
    n.toNat ≤ gemmGroups n * 16 ∧ gemmGroups n * 16 < n.toNat + 16 :=
  divCeil_mul (by decide)

def gemmRow (g : Fin (gemmGroups n) × Fin (gemmGroups n)) (t : Fin 16 × Fin 16) : Nat :=
  g.2 * 16 + t.2

def gemmCol (g : Fin (gemmGroups n) × Fin (gemmGroups n)) (t : Fin 16 × Fin 16) : Nat :=
  g.1 * 16 + t.1

theorem toNat_gemmGid (h : n.toNat * n.toNat ≤ 2 ^ 32)
    (g : Fin (gemmGroups n) × Fin (gemmGroups n)) (t : Fin 16 × Fin 16) :
    (gemmGid g t).1.toNat = gemmCol g t ∧ (gemmGid g t).2.toNat = gemmRow g t := by
  have hn := lt_of_square h
  have hgroups := (gemmGroups_mul n).2
  have hx := g.1.isLt
  have hy := g.2.isLt
  simp [gemmGid, gemmCol, gemmRow]
  omega

theorem toNat_place {x y : UInt32} (hx : x.toNat ≤ 4096) (hy : y.toNat < 16) :
    (x * tile + y).toNat = x.toNat * 16 + y.toNat := by
  simp [tile]
  omega

theorem toNat_at (h : n.toNat * n.toNat ≤ 2 ^ 32) {i j : UInt32} (hi : i < n) (hj : j < n) :
    (i * n + j).toNat = i.toNat * n.toNat + j.toNat ∧
      i.toNat * n.toNat + j.toNat < n.toNat * n.toNat := by
  have hi' : i.toNat + 1 ≤ n.toNat := UInt32.lt_iff_toNat_lt.mp hi
  have hj' : j.toNat < n.toNat := UInt32.lt_iff_toNat_lt.mp hj
  have hmul := Nat.mul_le_mul_right n.toNat hi'
  rw [Nat.succ_mul] at hmul
  have hlt : i.toNat * n.toNat + j.toNat < n.toNat * n.toNat := by omega
  refine ⟨?_, hlt⟩
  have hprod : (i * n).toNat = i.toNat * n.toNat := toNat_mul_of_lt (by omega)
  rw [toNat_add_of_lt (by omega), hprod]

end Numbers

/-! ### What a step is -/

section Spec

variable {R : Type u} [Semiring R] (a b : Nat → R) {n : UInt32}

def padded (m : Nat → R) (n : UInt32) (row col : Nat) : R :=
  if row < n.toNat ∧ col < n.toNat then m (row * n.toNat + col) else 0

theorem padded_of_lt (h : n.toNat * n.toNat ≤ 2 ^ 32) (m : Nat → R) {row col : UInt32}
    (hrow : row < n) (hcol : col < n) :
    m (row * n + col).toNat = padded m n row.toNat col.toNat := by
  rw [(toNat_at h hrow hcol).1, padded, if_pos]
  exact ⟨UInt32.lt_iff_toNat_lt.mp hrow, UInt32.lt_iff_toNat_lt.mp hcol⟩

theorem padded_of_not (m : Nat → R) {row col : UInt32} (hlt : ¬ (row < n ∧ col < n)) :
    padded m n row.toNat col.toNat = 0 := by
  rw [padded, if_neg]
  simpa only [UInt32.lt_iff_toNat_lt] using hlt

def gemmCell (t : Fin 16 × Fin 16) : Nat := t.2 * 16 + t.1

/-- What a thread does between the barriers, and its writes to `c`. -/
inductive GemmStep (g : Fin (gemmGroups n) × Fin (gemmGroups n)) (t : Fin 16 × Fin 16)
    (m : GemmTiles R) (v : GemmThread R) :
    GemmTiles R → GemmThread R → List (Nat × R) → Prop
  | enter : v.pc = .head → v.t.toNat < (numTiles n).toNat →
      GemmStep g t m v m { v with pc := .loadA } []
  | leave : v.pc = .head → (numTiles n).toNat ≤ v.t.toNat →
      GemmStep g t m v m { v with pc := .store } []
  | loadA : v.pc = .loadA →
      GemmStep g t m v
        { m with
          tileA := Function.update m.tileA (gemmCell t)
            (padded a n (gemmRow g t) (v.t.toNat * 16 + t.1)) }
        { v with pc := .loadB } []
  | loadB : v.pc = .loadB →
      GemmStep g t m v
        { m with
          tileB := Function.update m.tileB (gemmCell t)
            (padded b n (v.t.toNat * 16 + t.2) (gemmCol g t)) }
        { v with pc := .loaded } []
  | add {i' : UInt32} : v.pc = .inner → v.i.toNat < 16 → i'.toNat = v.i.toNat + 1 →
      GemmStep g t m v m
        { v with
          pc := .inner
          acc := v.acc + m.tileA (t.2 * 16 + v.i.toNat) * m.tileB (v.i.toNat * 16 + t.1)
          i := i' } []
  | sum : v.pc = .inner → 16 ≤ v.i.toNat → GemmStep g t m v m { v with pc := .summed } []
  | store : v.pc = .store →
      GemmStep g t m v m { v with pc := .done }
        (if gemmRow g t < n.toNat ∧ gemmCol g t < n.toNat then
          [(gemmRow g t * n.toNat + gemmCol g t, v.acc)]
        else [])

variable {a b} {g : Fin (gemmGroups n) × Fin (gemmGroups n)} {t : Fin 16 × Fin 16}
  {m m' : GemmTiles R} {v p : GemmThread R} {events : List (Access GemmBuffer R)}

theorem gemmCell_lt (t : Fin 16 × Fin 16) : gemmCell t < 256 := by
  have hx := t.1.isLt
  have hy := t.2.isLt
  unfold gemmCell
  omega

theorem toNat_gemmLid (t : Fin 16 × Fin 16) :
    (gemmLid t).1.toNat = t.1 ∧ (gemmLid t).2.toNat = t.2 := by
  have hx := t.1.isLt
  have hy := t.2.isLt
  simp [gemmLid]
  omega

theorem gemmLid_lt (t : Fin 16 × Fin 16) :
    (gemmLid t).1.toNat < 16 ∧ (gemmLid t).2.toNat < 16 := by
  rw [(toNat_gemmLid t).1, (toNat_gemmLid t).2]
  exact ⟨t.1.isLt, t.2.isLt⟩

theorem toNat_gemmCell (t : Fin 16 × Fin 16) :
    ((gemmLid t).2 * tile + (gemmLid t).1).toNat = gemmCell t := by
  have hlid := gemmLid_lt t
  rw [toNat_place (by omega) hlid.1, (toNat_gemmLid t).1, (toNat_gemmLid t).2, gemmCell]

theorem load_go (h : n.toNat * n.toNat ≤ 2 ^ 32) (source target : GemmBuffer)
    (put : R → GemmTiles R) {matrix : Nat → R} {row col : UInt32} {cell : Nat}
    {v' : GemmThread R} (hcell : cell < 256)
    (hsource : gemmSize n source = n.toNat * n.toNat) (htarget : gemmSize n target = 256)
    (hc : target ≠ .c)
    (hgo : (if row < n ∧ col < n then
        Move.go (put (matrix (row * n + col).toNat)) v' [.read source (row * n + col).toNat,
          .write target cell (matrix (row * n + col).toNat)]
      else Move.go (put 0) v' [.write target cell 0]) = Move.go m' p events) :
    m' = put (padded matrix n row.toNat col.toNat) ∧ p = v' ∧
      events.filterMap (Access.written .c) = [] ∧ ∀ e ∈ events, e.InBounds (gemmSize n) := by
  have hwrite : cell < gemmSize n target := hcell.trans_eq htarget.symm
  split at hgo
  case isTrue hin =>
    cases hgo
    obtain ⟨hat, hbound⟩ := toNat_at h hin.1 hin.2
    have hread : (row * n + col).toNat < gemmSize n source := by
      rw [hsource, hat]
      exact hbound
    rw [padded_of_lt h matrix hin.1 hin.2]
    refine ⟨rfl, rfl, by simp [List.filterMap_cons, hc], List.forall_mem_cons.mpr ⟨hread, ?_⟩⟩
    exact List.forall_mem_singleton.mpr hwrite
  case isFalse hout =>
    cases hgo
    rw [padded_of_not matrix hout]
    exact ⟨rfl, rfl, by simp [hc], List.forall_mem_singleton.mpr hwrite⟩

section Go

variable (hgo : gemmNext a b n (gemmGid g t) (gemmLid t) m v = .go m' p events)
include hgo

theorem gemmNext_head (hpc : v.pc = .head) :
    GemmStep a b g t m v m' p (events.filterMap (Access.written .c)) ∧
      ∀ e ∈ events, e.InBounds (gemmSize n) := by
  simp only [gemmNext, hpc] at hgo
  cases hgo
  refine ⟨?_, List.forall_mem_nil _⟩
  by_cases hend : v.t < numTiles n
  · rw [if_pos hend]
    exact .enter hpc (UInt32.lt_iff_toNat_lt.mp hend)
  · rw [if_neg hend]
    exact .leave hpc (UInt32.le_iff_toNat_le.mp (UInt32.not_lt.mp hend))

theorem gemmNext_loadA (h : n.toNat * n.toNat ≤ 2 ^ 32) (ht : v.t.toNat ≤ 4096)
    (hpc : v.pc = .loadA) :
    GemmStep a b g t m v m' p (events.filterMap (Access.written .c)) ∧
      ∀ e ∈ events, e.InBounds (gemmSize n) := by
  have hcol : (v.t * tile + (gemmLid t).1).toNat = v.t.toNat * 16 + t.1 := by
    rw [toNat_place ht (gemmLid_lt t).1, (toNat_gemmLid t).1]
  simp only [gemmNext, hpc, toNat_gemmCell] at hgo
  obtain ⟨rfl, rfl, hnone, hbound⟩ := load_go h .a .tileA
    (fun x => { m with tileA := Function.update m.tileA (gemmCell t) x })
    (gemmCell_lt t) rfl rfl nofun hgo
  rw [hnone, (toNat_gemmGid h g t).2, hcol]
  exact ⟨.loadA hpc, hbound⟩

theorem gemmNext_loadB (h : n.toNat * n.toNat ≤ 2 ^ 32) (ht : v.t.toNat ≤ 4096)
    (hpc : v.pc = .loadB) :
    GemmStep a b g t m v m' p (events.filterMap (Access.written .c)) ∧
      ∀ e ∈ events, e.InBounds (gemmSize n) := by
  have hrow : (v.t * tile + (gemmLid t).2).toNat = v.t.toNat * 16 + t.2 := by
    rw [toNat_place ht (gemmLid_lt t).2, (toNat_gemmLid t).2]
  simp only [gemmNext, hpc, toNat_gemmCell] at hgo
  obtain ⟨rfl, rfl, hnone, hbound⟩ := load_go h .b .tileB
    (fun x => { m with tileB := Function.update m.tileB (gemmCell t) x })
    (gemmCell_lt t) rfl rfl nofun hgo
  rw [hnone, (toNat_gemmGid h g t).1, hrow]
  exact ⟨.loadB hpc, hbound⟩

theorem gemmNext_inner (hpc : v.pc = .inner) :
    GemmStep a b g t m v m' p (events.filterMap (Access.written .c)) ∧
      ∀ e ∈ events, e.InBounds (gemmSize n) := by
  simp only [gemmNext, hpc] at hgo
  split at hgo
  case isTrue hin =>
    cases hgo
    have hi : v.i.toNat < 16 := UInt32.lt_iff_toNat_lt.mp hin
    have hx := t.1.isLt
    have hy := t.2.isLt
    have hlid := gemmLid_lt t
    have hleft : ((gemmLid t).2 * tile + v.i).toNat = t.2 * 16 + v.i.toNat := by
      rw [toNat_place (by omega) hi, (toNat_gemmLid t).2]
    have hright : (v.i * tile + (gemmLid t).1).toNat = v.i.toNat * 16 + t.1 := by
      rw [toNat_place (by omega) hlid.1, (toNat_gemmLid t).1]
    have hone : (1 : UInt32).toNat = 1 := rfl
    have hnext : (v.i + 1).toNat = v.i.toNat + 1 := toNat_add_of_lt (by omega)
    rw [hleft, hright]
    refine ⟨.add hpc hi hnext, List.forall_mem_cons.mpr ⟨?_, List.forall_mem_singleton.mpr ?_⟩⟩
    · show t.2 * 16 + v.i.toNat < 256
      omega
    · show v.i.toNat * 16 + t.1 < 256
      omega
  case isFalse hout =>
    cases hgo
    have hi : 16 ≤ v.i.toNat := UInt32.le_iff_toNat_le.mp (UInt32.not_lt.mp hout)
    exact ⟨.sum hpc hi, List.forall_mem_nil _⟩

theorem gemmNext_store (h : n.toNat * n.toNat ≤ 2 ^ 32) (hpc : v.pc = .store) :
    GemmStep a b g t m v m' p (events.filterMap (Access.written .c)) ∧
      ∀ e ∈ events, e.InBounds (gemmSize n) := by
  obtain ⟨hgx, hgy⟩ := toNat_gemmGid h g t
  have hiff : (gemmGid g t).2 < n ∧ (gemmGid g t).1 < n ↔
      gemmRow g t < n.toNat ∧ gemmCol g t < n.toNat := by
    rw [UInt32.lt_iff_toNat_lt, UInt32.lt_iff_toNat_lt, hgx, hgy]
  have hstep := GemmStep.store (a := a) (b := b) (g := g) (t := t) (m := m) hpc
  simp only [gemmNext, hpc] at hgo
  split at hgo
  case isTrue hin =>
    cases hgo
    obtain ⟨hat, hbound⟩ := toNat_at h hin.1 hin.2
    rw [if_pos (hiff.mp hin)] at hstep
    rw [hat, hgx, hgy]
    refine ⟨hstep, List.forall_mem_singleton.mpr ?_⟩
    rwa [hgx, hgy] at hbound
  case isFalse hout =>
    cases hgo
    rw [if_neg (mt hiff.mpr hout)] at hstep
    exact ⟨hstep, List.forall_mem_nil _⟩

theorem gemmNext_go (h : n.toNat * n.toNat ≤ 2 ^ 32) (ht : v.t.toNat ≤ 4096) :
    GemmStep a b g t m v m' p (events.filterMap (Access.written .c)) ∧
      ∀ e ∈ events, e.InBounds (gemmSize n) := by
  cases hpc : v.pc with
  | head => exact gemmNext_head hgo hpc
  | loadA => exact gemmNext_loadA hgo h ht hpc
  | loadB => exact gemmNext_loadB hgo h ht hpc
  | inner => exact gemmNext_inner hgo hpc
  | store => exact gemmNext_store hgo h hpc
  | loaded | summed | done => simp [gemmNext, hpc] at hgo

end Go

theorem gemmNext_barrier
    (hwait : gemmNext a b n (gemmGid g t) (gemmLid t) m v = .barrier p) :
    (v.pc = .loaded ∧ p = { v with pc := .inner, i := 0 }) ∨
      (v.pc = .summed ∧ p = { v with pc := .head, t := v.t + 1 }) := by
  cases hpc : v.pc with
  | loaded =>
    simp only [gemmNext, hpc] at hwait
    cases hwait
    exact .inl ⟨rfl, rfl⟩
  | summed =>
    simp only [gemmNext, hpc] at hwait
    cases hwait
    exact .inr ⟨rfl, rfl⟩
  | head | done => simp [gemmNext, hpc] at hwait
  | loadA | loadB | inner | store =>
    simp only [gemmNext, hpc] at hwait
    split at hwait <;> cases hwait

theorem gemmNext_waits
    (hgo : ∀ m' p events, gemmNext a b n (gemmGid g t) (gemmLid t) m v ≠ .go m' p events) :
    ((v.pc = .loaded ∨ v.pc = .summed) ∧
        ∃ p, gemmNext a b n (gemmGid g t) (gemmLid t) m v = .barrier p) ∨
      (v.pc = .done ∧ gemmNext a b n (gemmGid g t) (gemmLid t) m v = .halt) := by
  cases hpc : v.pc with
  | loaded => exact .inl ⟨.inl rfl, { v with pc := .inner, i := 0 }, by simp only [gemmNext, hpc]⟩
  | summed =>
    exact .inl ⟨.inr rfl, { v with pc := .head, t := v.t + 1 }, by simp only [gemmNext, hpc]⟩
  | done => exact .inr ⟨rfl, by simp only [gemmNext, hpc]⟩
  | head =>
    simp only [gemmNext, hpc] at hgo
    exact absurd rfl (hgo _ _ _)
  | loadA | loadB | inner | store =>
    simp only [gemmNext, hpc] at hgo
    split at hgo <;> exact absurd rfl (hgo _ _ _)

end Spec

/-! ### The two phases of a tile -/

section Phases

variable {R : Type u} [Semiring R] (a b : Nat → R) {n : UInt32}

def dotTo (n : UInt32) (row col k : Nat) : R :=
  ∑ j ∈ Finset.range k, padded a n row j * padded b n j col

variable (m : GemmTiles R) (g : Fin (gemmGroups n) × Fin (gemmGroups n)) (k : Nat)
  (t : Fin 16 × Fin 16)

/-- The cell that a thread loads holds its entry of a tile. -/
def HoldsA : Prop := m.tileA (gemmCell t) = padded a n (gemmRow g t) (k * 16 + t.1)

def HoldsB : Prop := m.tileB (gemmCell t) = padded b n (k * 16 + t.2) (gemmCol g t)

def LoadingPlace : GemmPc → Prop
  | .head => True
  | .loadA => k < (numTiles n).toNat
  | .loadB => k < (numTiles n).toNat ∧ HoldsA a m g k t
  | .loaded => k < (numTiles n).toNat ∧ HoldsA a m g k t ∧ HoldsB b m g k t
  | .store | .done => k = (numTiles n).toNat
  | .inner | .summed => False

structure Loading (v : GemmThread R) : Prop where
  tile : v.t.toNat = k
  acc : v.acc = dotTo a b n (gemmRow g t) (gemmCol g t) (k * 16)
  place : LoadingPlace a b m g k t v.pc

inductive Summing (v : GemmThread R) : Prop
  | inner : v.t.toNat = k → v.pc = .inner → v.i.toNat ≤ 16 →
      v.acc = dotTo a b n (gemmRow g t) (gemmCol g t) (k * 16 + v.i.toNat) → Summing v
  | summed : v.t.toNat = k → v.pc = .summed →
      v.acc = dotTo a b n (gemmRow g t) (gemmCol g t) (k * 16 + 16) → Summing v

inductive GemmInv (own : Fin 16 × Fin 16 → GemmThread R) : Prop
  | loading (k : Nat) : k ≤ (numTiles n).toNat → (∀ t, Loading a b m g k t (own t)) → GemmInv own
  | summing (k : Nat) : k < (numTiles n).toNat → (∀ t, HoldsA a m g k t ∧ HoldsB b m g k t) →
      (∀ t, Summing a b g k t (own t)) → GemmInv own

variable {a b m g k t} {m' : GemmTiles R} {v p : GemmThread R} {writes : List (Nat × R)}

theorem gemmCell_inj {t t' : Fin 16 × Fin 16} (h : gemmCell t' = gemmCell t) : t' = t := by
  have hx := t.1.isLt
  have hx' := t'.1.isLt
  unfold gemmCell at h
  exact Prod.ext (Fin.ext (by omega)) (Fin.ext (by omega))

theorem GemmStep.frame (hstep : GemmStep a b g t m v m' p writes) {t' : Fin 16 × Fin 16}
    (hne : t' ≠ t) :
    m'.tileA (gemmCell t') = m.tileA (gemmCell t') ∧
      m'.tileB (gemmCell t') = m.tileB (gemmCell t') := by
  have hcell : gemmCell t' ≠ gemmCell t := fun h => hne (gemmCell_inj h)
  cases hstep with
  | loadA => exact ⟨Function.update_of_ne hcell _ _, rfl⟩
  | loadB => exact ⟨rfl, Function.update_of_ne hcell _ _⟩
  | enter | leave | add | sum | store => exact ⟨rfl, rfl⟩

theorem Loading.frame (hload : Loading a b m g k t v)
    (hA : m'.tileA (gemmCell t) = m.tileA (gemmCell t))
    (hB : m'.tileB (gemmCell t) = m.tileB (gemmCell t)) : Loading a b m' g k t v where
  tile := hload.tile
  acc := hload.acc
  place := by
    have hplace := hload.place
    cases hpc : v.pc <;> simp_all [LoadingPlace, HoldsA, HoldsB]

theorem Loading.step (hk : k ≤ (numTiles n).toNat) (hload : Loading a b m g k t v)
    (hstep : GemmStep a b g t m v m' p writes) : Loading a b m' g k t p := by
  obtain ⟨htile, hacc, hplace⟩ := hload
  cases hstep with
  | enter hpc hlt => exact ⟨htile, hacc, htile ▸ hlt⟩
  | leave hpc hle => exact ⟨htile, hacc, le_antisymm hk (htile ▸ hle)⟩
  | loadA hpc =>
    rw [hpc] at hplace
    refine ⟨htile, hacc, hplace, ?_⟩
    simp [HoldsA, htile]
  | loadB hpc =>
    rw [hpc] at hplace
    refine ⟨htile, hacc, hplace.1, hplace.2, ?_⟩
    simp [HoldsB, htile]
  | add hpc =>
    rw [hpc] at hplace
    exact hplace.elim
  | sum hpc =>
    rw [hpc] at hplace
    exact hplace.elim
  | store hpc =>
    rw [hpc] at hplace
    exact ⟨htile, hacc, hplace⟩

def gemmRank (n : UInt32) (v : GemmThread R) : Nat :=
  let left := 22 * ((numTiles n).toNat - v.t.toNat)
  match v.pc with
  | .head => left + 2
  | .loadA => left + 1
  | .loadB => left
  | .loaded => left - 1
  | .inner => left - 2 - v.i.toNat
  | .summed => left - 19
  | .store => 1
  | .done => 0

theorem Loading.rank_lt (hload : Loading a b m g k t v)
    (hstep : GemmStep a b g t m v m' p writes) : gemmRank n p < gemmRank n v := by
  obtain ⟨htile, hacc, hplace⟩ := hload
  cases hstep with
  | enter hpc | leave hpc | store hpc => simp [gemmRank, hpc]
  | loadA hpc => simp [gemmRank, hpc]
  | loadB hpc =>
    rw [hpc] at hplace
    have hmore := hplace.1
    simp only [gemmRank, hpc, htile]
    omega
  | add hpc | sum hpc =>
    rw [hpc] at hplace
    exact hplace.elim

theorem Summing.tile (hsum : Summing a b g k t v) : v.t.toNat = k := by
  cases hsum with
  | inner htile | summed htile => exact htile

theorem Summing.pc (hsum : Summing a b g k t v) : v.pc = .inner ∨ v.pc = .summed := by
  cases hsum with
  | inner _ hpc => exact .inl hpc
  | summed _ hpc => exact .inr hpc

theorem Summing.step (hk : k < (numTiles n).toNat)
    (hheld : ∀ t, HoldsA a m g k t ∧ HoldsB b m g k t) (hsum : Summing a b g k t v)
    (hstep : GemmStep a b g t m v m' p writes) :
    m' = m ∧ Summing a b g k t p ∧ gemmRank n p < gemmRank n v := by
  have hpc := hsum.pc
  cases hsum with
  | inner htile hinner hi hacc =>
    cases hstep with
    | add _ hlt hnext =>
      -- the entry of the row is in the cell of thread `(i, y)`, that of the column in `(x, i)`
      have hA : m.tileA (t.2 * 16 + v.i.toNat) = padded a n (gemmRow g t) (k * 16 + v.i.toNat) :=
        (hheld (⟨v.i.toNat, hlt⟩, t.2)).1
      have hB : m.tileB (v.i.toNat * 16 + t.1) = padded b n (k * 16 + v.i.toNat) (gemmCol g t) :=
        (hheld (t.1, ⟨v.i.toNat, hlt⟩)).2
      refine ⟨rfl, .inner htile rfl (hnext.trans_le hlt) ?_, ?_⟩
      · rw [hnext, ← Nat.add_assoc, dotTo, Finset.sum_range_succ, hA, hB, hacc, dotTo]
      · simp only [gemmRank, hinner, htile, hnext]
        omega
    | sum _ hle =>
      have hend : v.i.toNat = 16 := by omega
      refine ⟨rfl, .summed htile rfl (hend ▸ hacc), ?_⟩
      simp only [gemmRank, hinner, htile]
      omega
    | enter hpc' | leave hpc' | loadA hpc' | loadB hpc' | store hpc' => simp [hpc'] at hpc
  | summed htile hsummed hacc =>
    cases hstep with
    | enter hpc' | leave hpc' | loadA hpc' | loadB hpc' | add hpc' | sum hpc' | store hpc' =>
      simp [hsummed] at hpc'

def gemmWrites (g : Fin (gemmGroups n) × Fin (gemmGroups n)) (t : Fin 16 × Fin 16)
    (v : GemmThread R) : List (Nat × R) :=
  match v.pc with
  | .done =>
    if gemmRow g t < n.toNat ∧ gemmCol g t < n.toNat then
      [(gemmRow g t * n.toNat + gemmCol g t, v.acc)]
    else []
  | _ => []

theorem GemmStep.writes_eq (hstep : GemmStep a b g t m v m' p writes) :
    gemmWrites g t p = gemmWrites g t v ++ writes := by
  cases hstep with
  | enter hpc | leave hpc | loadA hpc | loadB hpc | add hpc | sum hpc | store hpc =>
    simp [gemmWrites, hpc]

theorem GemmInv.go (hn : n.toNat * n.toNat ≤ 2 ^ 32) {own : Fin 16 × Fin 16 → GemmThread R}
    {events : List (Access GemmBuffer R)} (hinv : GemmInv a b m g own)
    (hgo : gemmNext a b n (gemmGid g t) (gemmLid t) m (own t) = .go m' p events) :
    GemmInv a b m' g (Function.update own t p) ∧ (∀ e ∈ events, e.InBounds (gemmSize n)) ∧
      gemmWrites g t p = gemmWrites g t (own t) ++ events.filterMap (Access.written .c) ∧
      gemmRank n p < gemmRank n (own t) := by
  have hle := numTiles_le hn
  cases hinv with
  | loading k hk hload =>
    have htile := (hload t).tile
    obtain ⟨hstep, hbound⟩ := gemmNext_go hgo hn (by omega)
    refine ⟨.loading k hk fun t' => ?_, hbound, hstep.writes_eq, (hload t).rank_lt hstep⟩
    by_cases ht : t' = t
    · subst ht
      simpa using (hload t').step hk hstep
    · obtain ⟨hA, hB⟩ := hstep.frame ht
      simpa [ht] using (hload t').frame hA hB
  | summing k hk hheld hsum =>
    have htile := (hsum t).tile
    obtain ⟨hstep, hbound⟩ := gemmNext_go hgo hn (by omega)
    obtain ⟨rfl, hnext, hrank⟩ := (hsum t).step hk hheld hstep
    refine ⟨.summing k hk hheld fun t' => ?_, hbound, hstep.writes_eq, hrank⟩
    by_cases ht : t' = t
    · subst ht
      simpa using hnext
    · simpa [ht] using hsum t'

theorem Loading.leave (hload : Loading a b m g k t v)
    (hwait : gemmNext a b n (gemmGid g t) (gemmLid t) m v = .barrier p) :
    (k < (numTiles n).toNat ∧ HoldsA a m g k t ∧ HoldsB b m g k t) ∧ Summing a b g k t p ∧
      gemmWrites g t p = gemmWrites g t v ∧ gemmRank n p < gemmRank n v := by
  obtain ⟨htile, hacc, hplace⟩ := hload
  rcases gemmNext_barrier hwait with ⟨hpc, rfl⟩ | ⟨hpc, -⟩
  · rw [hpc] at hplace
    have hmore := hplace.1
    refine ⟨hplace, .inner htile rfl (Nat.zero_le 16) hacc, ?_⟩
    simp only [gemmWrites, gemmRank, hpc, htile, true_and]
    omega
  · rw [hpc] at hplace
    exact hplace.elim

theorem Summing.leave (hn : n.toNat * n.toNat ≤ 2 ^ 32) (hk : k < (numTiles n).toNat)
    (hsum : Summing a b g k t v)
    (hwait : gemmNext a b n (gemmGid g t) (gemmLid t) m v = .barrier p) :
    Loading a b m g (k + 1) t p ∧ gemmWrites g t p = gemmWrites g t v ∧
      gemmRank n p < gemmRank n v := by
  have hplace := hsum.pc
  rcases gemmNext_barrier hwait with ⟨hpc, -⟩ | ⟨hpc, rfl⟩
  · simp [hpc] at hplace
  · cases hsum with
    | inner _ hpc' => simp [hpc] at hpc'
    | summed htile _ hacc =>
      have hnext : (v.t + 1).toNat = k + 1 := by
        have hle := numTiles_le hn
        have hone : (1 : UInt32).toNat = 1 := rfl
        rw [toNat_add_of_lt (by omega), htile, hone]
      refine ⟨⟨hnext, (Nat.succ_mul k 16).symm ▸ hacc, trivial⟩, ?_⟩
      simp only [gemmWrites, gemmRank, hpc, htile, hnext, true_and]
      omega

theorem GemmInv.leave (hn : n.toNat * n.toNat ≤ 2 ^ 32) {own own' : Fin 16 × Fin 16 → GemmThread R}
    (hinv : GemmInv a b m g own)
    (hwait : ∀ t, gemmNext a b n (gemmGid g t) (gemmLid t) m (own t) = .barrier (own' t)) :
    GemmInv a b m g own' ∧
      ∀ t, gemmWrites g t (own' t) = gemmWrites g t (own t) ∧
        gemmRank n (own' t) < gemmRank n (own t) := by
  cases hinv with
  | loading k hk hload =>
    have hleave := fun t => (hload t).leave (hwait t)
    have hmore : k < (numTiles n).toNat := (hleave (0, 0)).1.1
    exact ⟨.summing k hmore (fun t => (hleave t).1.2) fun t => (hleave t).2.1,
      fun t => (hleave t).2.2⟩
  | summing k hk hheld hsum =>
    have hleave := fun t => (hsum t).leave hn hk (hwait t)
    exact ⟨.loading (k + 1) hk fun t => (hleave t).1, fun t => (hleave t).2⟩

theorem GemmInv.live {own : Fin 16 × Fin 16 → GemmThread R} (hinv : GemmInv a b m g own)
    (hgo : ∀ t m' p events,
      gemmNext a b n (gemmGid g t) (gemmLid t) m (own t) ≠ .go m' p events) :
    (∀ t, ∃ p, gemmNext a b n (gemmGid g t) (gemmLid t) m (own t) = .barrier p) ∨
      ∀ t, gemmNext a b n (gemmGid g t) (gemmLid t) m (own t) = .halt := by
  cases hinv with
  | loading k hk hload =>
    have hplace : ∀ t, (k < (numTiles n).toNat ∧
          ∃ p, gemmNext a b n (gemmGid g t) (gemmLid t) m (own t) = .barrier p) ∨
        (k = (numTiles n).toNat ∧
          gemmNext a b n (gemmGid g t) (gemmLid t) m (own t) = .halt) := by
      intro t
      have hplace := (hload t).place
      rcases gemmNext_waits (hgo t) with ⟨hpc | hpc, hwait⟩ | ⟨hpc, hhalt⟩
      · rw [hpc] at hplace
        exact .inl ⟨hplace.1, hwait⟩
      · rw [hpc] at hplace
        exact hplace.elim
      · rw [hpc] at hplace
        exact .inr ⟨hplace, hhalt⟩
    rcases Nat.lt_or_eq_of_le hk with hmore | hlast
    · exact .inl fun t => (hplace t).elim (·.2) fun h => absurd h.1 hmore.ne
    · exact .inr fun t => (hplace t).elim (fun h => absurd hlast h.1.ne) (·.2)
  | summing k hk hheld hsum =>
    left
    intro t
    rcases gemmNext_waits (hgo t) with ⟨-, hwait⟩ | ⟨hpc, -⟩
    · exact hwait
    · have hplace := (hsum t).pc
      simp [hpc] at hplace

variable (a b) in
def gemmOutline (hn : n.toNat * n.toNat ≤ 2 ^ 32) :
    (gemm a b n).Outline (Access.written .c) (Access.InBounds (gemmSize n)) where
  Inv g m own := GemmInv a b m g own
  writes g t v := gemmWrites g t v
  rank v := gemmRank n v
  init g := .loading 0 (Nat.zero_le _) fun t =>
    { tile := rfl
      acc := by simp [gemm, dotTo]
      place := trivial }
  start g t := rfl
  go hinv hgo := hinv.go hn hgo
  leave hinv hwait := hinv.leave hn hwait
  live hinv hgo := hinv.live hgo

theorem gemmNext_eq_halt (hhalt : gemmNext a b n (gemmGid g t) (gemmLid t) m v = .halt) :
    v.pc = .done := by
  have hgo : ∀ m' p events, gemmNext a b n (gemmGid g t) (gemmLid t) m v ≠ .go m' p events := by
    intro m' p events
    simp [hhalt]
  rcases gemmNext_waits hgo with ⟨-, p, hwait⟩ | ⟨hpc, -⟩
  · simp [hhalt] at hwait
  · exact hpc

theorem dotTo_eq {row col : Nat} (hrow : row < n.toNat) (hcol : col < n.toNat)
    (hk : n.toNat ≤ k) :
    dotTo a b n row col k =
      ∑ j ∈ Finset.range n.toNat, a (row * n.toNat + j) * b (j * n.toNat + col) := by
  have hsub : Finset.range n.toNat ⊆ Finset.range k := Finset.range_subset_range.mpr hk
  rw [dotTo, ← Finset.sum_subset hsub]
  · apply Finset.sum_congr rfl
    intro j hj
    have hlt := Finset.mem_range.mp hj
    simp [padded, hrow, hcol, hlt]
  · intro j _ hj
    have hlt : ¬ j < n.toNat := fun hlt => hj (Finset.mem_range.mpr hlt)
    simp [padded, hlt]

theorem GemmInv.writes_of_halt (hn : n.toNat * n.toNat ≤ 2 ^ 32)
    {own : Fin 16 × Fin 16 → GemmThread R} (hinv : GemmInv a b m g own)
    (hhalt : ∀ t, gemmNext a b n (gemmGid g t) (gemmLid t) m (own t) = .halt)
    (t : Fin 16 × Fin 16) :
    gemmWrites g t (own t) =
      if gemmRow g t < n.toNat ∧ gemmCol g t < n.toNat then
        [(gemmRow g t * n.toNat + gemmCol g t, ∑ j ∈ Finset.range n.toNat,
          a (gemmRow g t * n.toNat + j) * b (j * n.toNat + gemmCol g t))]
      else [] := by
  have hpc := gemmNext_eq_halt (hhalt t)
  cases hinv with
  | loading k hk hload =>
    have hplace := (hload t).place
    rw [hpc] at hplace
    have hall : n.toNat ≤ k * 16 := by
      rw [show k = (numTiles n).toNat from hplace, toNat_numTiles hn]
      omega
    simp only [gemmWrites, hpc]
    by_cases hin : gemmRow g t < n.toNat ∧ gemmCol g t < n.toNat
    · rw [if_pos hin, if_pos hin, (hload t).acc, dotTo_eq hin.1 hin.2 hall]
    · rw [if_neg hin, if_neg hin]
  | summing k hk hheld hsum =>
    have hplace := (hsum t).pc
    simp [hpc] at hplace

theorem exists_gemmThread {row col : Nat} (hrow : row < n.toNat) (hcol : col < n.toNat) :
    ∃ (g : Fin (gemmGroups n) × Fin (gemmGroups n)) (t : Fin 16 × Fin 16),
      gemmRow g t = row ∧ gemmCol g t = col := by
  have hgroups := (gemmGroups_mul n).1
  refine ⟨(⟨col / 16, by omega⟩, ⟨row / 16, by omega⟩),
    (⟨col % 16, by omega⟩, ⟨row % 16, by omega⟩), ?_, ?_⟩
  · exact Nat.div_add_mod' row 16
  · exact Nat.div_add_mod' col 16

theorem gemmThread_unique {g' : Fin (gemmGroups n) × Fin (gemmGroups n)} {t' : Fin 16 × Fin 16}
    (hrow : gemmRow g' t' = gemmRow g t) (hcol : gemmCol g' t' = gemmCol g t) :
    g' = g ∧ t' = t := by
  unfold gemmRow at hrow
  unfold gemmCol at hcol
  exact ⟨Prod.ext (Fin.ext (by omega)) (Fin.ext (by omega)),
    Prod.ext (Fin.ext (by omega)) (Fin.ext (by omega))⟩

variable (a b) in
theorem gemm_rankOf_init (hn : n.toNat * n.toNat ≤ 2 ^ 32) :
    (gemmOutline a b hn).rankOf (gemm a b n).init =
      gemmGroups n * gemmGroups n * 256 * (22 * (numTiles n).toNat + 2) := by
  have hrank : ∀ g t, (gemmOutline a b hn).rank ((gemm a b n).init.own g t) =
      22 * (numTiles n).toNat + 2 := fun g t => rfl
  simp [Kernel.Outline.rankOf, hrank, Nat.mul_assoc]

variable (a b) in
theorem gemm_filter_writes (hn : n.toNat * n.toNat ≤ 2 ^ 32)
    {s : Grid (Fin (gemmGroups n) × Fin (gemmGroups n)) (Fin 16 × Fin 16) (GemmTiles R)
      (GemmThread R) (Access GemmBuffer R)}
    (hinv : ∀ g, GemmInv a b (s.mem g) g (s.own g)) (hhalted : (gemm a b n).Halted s)
    (hlog : (s.log.filterMap (Access.written .c) : Multiset (Nat × R)) =
      ∑ g, ∑ t, (gemmWrites g t (s.own g t) : Multiset (Nat × R)))
    {row col : Nat} (hrow : row < n.toNat) (hcol : col < n.toNat) :
    (s.log.filterMap (Access.written .c)).filter (·.1 = row * n.toNat + col) =
      [(row * n.toNat + col,
        ∑ k ∈ Finset.range n.toNat, a (row * n.toNat + k) * b (k * n.toNat + col))] := by
  obtain ⟨g, t, rfl, rfl⟩ := exists_gemmThread hrow hcol
  have hwrites := fun g' t' => (hinv g').writes_of_halt hn (hhalted g') t'
  have hself : (gemmWrites g t (s.own g t)).filter
      (·.1 = gemmRow g t * n.toNat + gemmCol g t) = gemmWrites g t (s.own g t) := by
    simp [hwrites, hrow, hcol]
  have hperm := filter_perm_of_sum hlog (·.1 = gemmRow g t * n.toNat + gemmCol g t) g t ?_
  · rw [hself, hwrites, if_pos ⟨hrow, hcol⟩] at hperm
    exact List.perm_singleton.mp hperm
  · intro g' t' hne
    rw [hwrites]
    split
    case isTrue hin =>
      have hplace : gemmRow g' t' * n.toNat + gemmCol g' t' ≠
          gemmRow g t * n.toNat + gemmCol g t := by
        intro heq
        obtain ⟨hrow', hcol'⟩ := (place_eq_iff hin.2).mp heq
        obtain ⟨hrow'', hcol''⟩ := (place_eq_iff hcol).mp rfl
        obtain ⟨hg, ht⟩ := gemmThread_unique (hrow'.symm.trans hrow'') (hcol'.symm.trans hcol'')
        exact hne.elim (absurd hg) (absurd ht)
      simp [hplace]
    case isFalse => rfl

variable (a b) in
/-- The kernel computes the product of the matrices. -/
theorem gemm_computes_product (cells : Nat → R) (hn : n.toNat * n.toNat ≤ 2 ^ 32)
    {acts : List (GridAct (Fin (gemmGroups n) × Fin (gemmGroups n)) (Fin 16 × Fin 16))}
    {s : Grid (Fin (gemmGroups n) × Fin (gemmGroups n)) (Fin 16 × Fin 16) (GemmTiles R)
      (GemmThread R) (Access GemmBuffer R)}
    (hexec : (gemm a b n).exec (gemm a b n).init acts = some s) :
    (∀ e ∈ s.log, e.InBounds (gemmSize n)) ∧
      acts.length ≤ gemmGroups n * gemmGroups n * 256 * (22 * (numTiles n).toNat + 2) ∧
      (∃ more s', (gemm a b n).exec s more = some s' ∧ (gemm a b n).Stuck s') ∧
      ((gemm a b n).Stuck s →
        (gemm a b n).Halted s ∧
        ∀ row < n.toNat, ∀ col < n.toNat,
          (s.log.filterMap (Access.written .c)).filter (·.1 = row * n.toNat + col) =
            [(row * n.toNat + col,
              ∑ k ∈ Finset.range n.toNat, a (row * n.toNat + k) * b (k * n.toNat + col))] ∧
          stored cells (s.log.filterMap (Access.written .c)) (row * n.toNat + col) =
            ∑ k ∈ Finset.range n.toNat, a (row * n.toNat + k) * b (k * n.toNat + col)) := by
  obtain ⟨hinv, hsafe, hlength, hfinish, hend⟩ := (gemmOutline a b hn).correct hexec
  refine ⟨hsafe, gemm_rankOf_init a b hn ▸ hlength, hfinish, fun hstuck => ?_⟩
  obtain ⟨hhalted, hlog⟩ := hend hstuck
  refine ⟨hhalted, fun row hrow col hcol => ?_⟩
  have hwrites := gemm_filter_writes a b hn hinv hhalted hlog hrow hcol
  exact ⟨hwrites, stored_of_filter cells hwrites⟩

/-- Matrices of which a tile covers more than there is. -/
theorem gemm_computes_product_ragged :
    ∃ acts s, (gemm (fun i => (i : Int)) (fun _ => 1) 17).exec
        (gemm (fun i => (i : Int)) (fun _ => 1) 17).init acts = some s ∧
      (gemm (fun i => (i : Int)) (fun _ => 1) 17).Stuck s ∧
      stored (fun _ => 0) (s.log.filterMap (Access.written .c)) (16 * 17 + 16) = 4760 := by
  have hle : (17 : UInt32).toNat * (17 : UInt32).toNat ≤ 2 ^ 32 := by decide
  obtain ⟨-, -, ⟨acts, s, hexec, hstuck⟩, -⟩ :=
    gemm_computes_product (fun i => (i : Int)) (fun _ => 1) (fun _ => 0) hle (Kernel.exec_nil _ _)
  obtain ⟨-, -, -, hend⟩ :=
    gemm_computes_product (fun i => (i : Int)) (fun _ => 1) (fun _ => 0) hle hexec
  obtain ⟨-, hcell⟩ := (hend hstuck).2 16 (by decide) 16 (by decide)
  exact ⟨acts, s, hexec, hstuck, hcell.trans (by decide)⟩

end Phases

end GpuMarket
