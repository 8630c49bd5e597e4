import GpuMarket.GpuBench.Gemm

universe u

namespace GpuMarket

open Lib

inductive SimdPc
  /-- at the test of the loop -/
  | head
  | loadA
  | loadB
  | multiply
  | store
  | done

structure Simdgroup (R : Type u) where
  pc : SimdPc
  k : UInt32
  acc : Nat → Nat → R
  a : Nat → Nat → R
  b : Nat → Nat → R

def simdGroups (n : UInt32) : Nat := (n / 8).toNat

def simdCell (base : Nat) (n : UInt32) (c : Nat) : Nat := base + c / 8 * n.toNat + c % 8

section Model

variable {R : Type u} [Semiring R] (a b : Nat → R)

def simdgroupLoad (buf : GemmBuffer) (base : Nat) (n : UInt32) : List (Access GemmBuffer R) :=
  (List.range 64).map fun c => .read buf (simdCell base n c)

def simdgroupStore (m : Nat → Nat → R) (base : Nat) (n : UInt32) : List (Access GemmBuffer R) :=
  (List.range 64).map fun c => .write .c (simdCell base n c) (m (c / 8) (c % 8))

/-- The kernels of `GEMM_MSL`, over exact arithmetic. -/
def simdNext (n : UInt32) (tgid : UInt32 × UInt32) (v : Simdgroup R) :
    Move Unit (Simdgroup R) (Access GemmBuffer R) :=
  let row := tgid.2 * 8
  let col := tgid.1 * 8
  match v.pc with
  | .head => .go () { v with pc := if v.k < n then .loadA else .store } []
  | .loadA =>
    let base := (row * n).toNat + v.k.toNat
    .go () { v with pc := .loadB, a := fun i j => a (base + i * n.toNat + j) }
      (simdgroupLoad .a base n)
  | .loadB =>
    let base := (v.k * n).toNat + col.toNat
    .go () { v with pc := .multiply, b := fun i j => b (base + i * n.toNat + j) }
      (simdgroupLoad .b base n)
  | .multiply =>
    .go () { v with
      pc := .head
      k := v.k + 8
      acc := fun i j => v.acc i j + ∑ x ∈ Finset.range 8, v.a i x * v.b x j } []
  | .store =>
    .go () { v with pc := .done } (simdgroupStore v.acc ((row * n).toNat + col.toNat) n)
  | .done => .halt

def simdGemm (n : UInt32) : Kernel (Fin (simdGroups n) × Fin (simdGroups n)) Unit Unit (Simdgroup R)
    (Access GemmBuffer R) where
  mem _ := ()
  own _ _ := ⟨.head, 0, fun _ _ => 0, fun _ _ => 0, fun _ _ => 0⟩
  next g _ _ := simdNext a b n (UInt32.ofNat g.1, UInt32.ofNat g.2)

end Model

section Numbers

variable {n : UInt32}

def simdRow (g : Fin (simdGroups n) × Fin (simdGroups n)) : Nat := g.2 * 8

def simdCol (g : Fin (simdGroups n) × Fin (simdGroups n)) : Nat := g.1 * 8

theorem simdGroups_mul (hn : n.toNat % 8 = 0) : simdGroups n * 8 = n.toNat := by
  have hgroups : simdGroups n = n.toNat / 8 := UInt32.toNat_div n 8
  omega

theorem simdRow_le (hn : n.toNat % 8 = 0) (g : Fin (simdGroups n) × Fin (simdGroups n)) :
    simdRow g + 8 ≤ n.toNat := by
  have hgroups := simdGroups_mul hn
  have hlt := g.2.isLt
  unfold simdRow
  omega

theorem simdCol_le (hn : n.toNat % 8 = 0) (g : Fin (simdGroups n) × Fin (simdGroups n)) :
    simdCol g + 8 ≤ n.toNat := by
  have hgroups := simdGroups_mul hn
  have hlt := g.1.isLt
  unfold simdCol
  omega

theorem toNat_simd (hn : n.toNat % 8 = 0) (g : Fin (simdGroups n) × Fin (simdGroups n)) :
    (UInt32.ofNat g.2 * 8).toNat = simdRow g ∧ (UInt32.ofNat g.1 * 8).toNat = simdCol g := by
  have hrow := simdRow_le hn g
  have hcol := simdCol_le hn g
  have hlt := n.toNat_lt
  simp only [simdRow, simdCol] at hrow hcol ⊢
  simp
  omega

theorem toNat_rowStart (hn : n.toNat * n.toNat ≤ 2 ^ 32) {x : UInt32} (hx : x.toNat < n.toNat) :
    (x * n).toNat = x.toNat * n.toNat := by
  refine toNat_mul_of_lt ?_
  have hmul := Nat.mul_le_mul_right n.toNat hx
  rw [Nat.succ_mul] at hmul
  omega

theorem cell_eq (row col i j : Nat) (n : Nat) :
    row * n + col + i * n + j = (row + i) * n + (col + j) := by
  rw [Nat.add_mul]
  omega

theorem cell_lt {n row col : Nat} (hrow : row < n) (hcol : col < n) : row * n + col < n * n := by
  have hmul := Nat.mul_le_mul_right n hrow
  rw [Nat.succ_mul] at hmul
  omega

end Numbers

section Phases

variable {R : Type u} [Semiring R] (a b : Nat → R) {n : UInt32}
  (g : Fin (simdGroups n) × Fin (simdGroups n))

def rowTimesCol (n row col k : Nat) : R :=
  ∑ x ∈ Finset.range k, a (row * n + x) * b (x * n + col)

def SimdHoldsA (v : Simdgroup R) : Prop := ∀ i j,
  v.a i j = a ((simdRow g + i) * n.toNat + (v.k.toNat + j))

def SimdHoldsB (v : Simdgroup R) : Prop := ∀ i j,
  v.b i j = b ((v.k.toNat + i) * n.toNat + (simdCol g + j))

def SimdPlace (v : Simdgroup R) : SimdPc → Prop
  | .head => True
  | .loadA => v.k.toNat < n.toNat
  | .loadB => v.k.toNat < n.toNat ∧ SimdHoldsA a g v
  | .multiply => v.k.toNat < n.toNat ∧ SimdHoldsA a g v ∧ SimdHoldsB b g v
  | .store | .done => v.k.toNat = n.toNat

structure SimdInv (v : Simdgroup R) : Prop where
  aligned : v.k.toNat % 8 = 0
  le : v.k.toNat ≤ n.toNat
  acc : ∀ i j, v.acc i j = rowTimesCol a b n.toNat (simdRow g + i) (simdCol g + j) v.k.toNat
  place : SimdPlace a b g v v.pc

def simdWrites (v : Simdgroup R) : List (Nat × R) :=
  match v.pc with
  | .done => (List.range 64).map fun c =>
      (simdCell (simdRow g * n.toNat + simdCol g) n c, v.acc (c / 8) (c % 8))
  | _ => []

def simdRank (n : UInt32) (v : Simdgroup R) : Nat :=
  let rest := (n.toNat - v.k.toNat) / 8
  match v.pc with
  | .head => 4 * rest + 2
  | .loadA => 4 * rest + 1
  | .loadB => 4 * rest
  | .multiply => 4 * rest - 1
  | .store => 1
  | .done => 0

variable {a b g}

theorem simdCell_eq {row col c : Nat} :
    simdCell (row * n.toNat + col) n c = (row + c / 8) * n.toNat + (col + c % 8) :=
  cell_eq row col (c / 8) (c % 8) n.toNat

theorem simdCell_lt {row col c : Nat} (hrow : row + 8 ≤ n.toNat) (hcol : col + 8 ≤ n.toNat)
    (hc : c < 64) : simdCell (row * n.toNat + col) n c < n.toNat * n.toNat := by
  rw [simdCell_eq]
  exact cell_lt (by omega) (by omega)

omit [Semiring R] in
theorem simdAccess_inBounds {access : Nat → Access GemmBuffer R} {buf : GemmBuffer}
    {row col : Nat} (hbuf : gemmSize n buf = n.toNat * n.toNat)
    (hrow : row + 8 ≤ n.toNat) (hcol : col + 8 ≤ n.toNat)
    (haccess : ∀ c, (simdCell (row * n.toNat + col) n c < gemmSize n buf →
      (access c).InBounds (gemmSize n))) :
    ∀ e ∈ (List.range 64).map access, e.InBounds (gemmSize n) := by
  intro e he
  obtain ⟨c, hc, rfl⟩ := List.mem_map.mp he
  exact haccess c (hbuf ▸ simdCell_lt hrow hcol (List.mem_range.mp hc))

theorem rowTimesCol_add (n row col k : Nat) : rowTimesCol a b n row col (k + 8) =
    rowTimesCol a b n row col k +
      ∑ x ∈ Finset.range 8, a (row * n + (k + x)) * b ((k + x) * n + col) :=
  Finset.sum_range_add _ k 8

variable (a b g) in
structure SimdStep (v p : Simdgroup R) (events : List (Access GemmBuffer R)) : Prop where
  inv : SimdInv a b g p
  bounds : ∀ e ∈ events, e.InBounds (gemmSize n)
  writes : simdWrites g p = simdWrites g v ++ events.filterMap (Access.written .c)
  rank : simdRank n p < simdRank n v

omit [Semiring R] in
theorem written_load (buf : GemmBuffer) (base : Nat) :
    (simdgroupLoad (R := R) buf base n).filterMap (Access.written .c) = [] := by
  simp [simdgroupLoad, List.filterMap_eq_nil_iff]

section Steps

variable {v p : Simdgroup R} {events : List (Access GemmBuffer R)} (hinv : SimdInv a b g v)
  (hgo : simdNext a b n (UInt32.ofNat g.1, UInt32.ofNat g.2) v = .go () p events)
include hinv hgo

theorem SimdInv.head (hpc : v.pc = .head) : SimdStep a b g v p events := by
  simp only [simdNext, hpc] at hgo
  cases hgo
  by_cases hk : v.k < n
  · have hk' := UInt32.lt_iff_toNat_lt.mp hk
    refine ⟨⟨hinv.aligned, hinv.le, hinv.acc, ?_⟩, by simp, by simp [simdWrites, hpc, hk], ?_⟩
    · simpa [hk, SimdPlace] using hk'
    · simp only [simdRank, hpc, hk, if_true]
      omega
  · have hk' : v.k.toNat = n.toNat := by
      rw [UInt32.lt_iff_toNat_lt] at hk
      exact Nat.le_antisymm hinv.le (Nat.not_lt.mp hk)
    refine ⟨⟨hinv.aligned, hinv.le, hinv.acc, ?_⟩, by simp, by simp [simdWrites, hpc, hk], ?_⟩
    · simpa [hk, SimdPlace] using hk'
    · simp only [simdRank, hpc, hk, if_false]
      omega

variable (hn : n.toNat * n.toNat ≤ 2 ^ 32) (h8 : n.toNat % 8 = 0)
include hn h8

theorem SimdInv.loadA (hpc : v.pc = .loadA) : SimdStep a b g v p events := by
  have hk : v.k.toNat < n.toNat := by simpa [hpc, SimdPlace] using hinv.place
  have haligned := hinv.aligned
  have hrow8 := simdRow_le h8 g
  have hrow := (toNat_simd h8 g).1
  have hbase : (UInt32.ofNat g.2 * 8 * n).toNat = simdRow g * n.toNat := by
    rw [toNat_rowStart hn (by omega), hrow]
  simp only [simdNext, hpc, hbase] at hgo
  cases hgo
  refine ⟨⟨haligned, hinv.le, hinv.acc, hk, fun i j => congrArg a (cell_eq ..)⟩, ?_, ?_, ?_⟩
  · exact simdAccess_inBounds rfl hrow8 (by omega) fun c hc => hc
  · simp [simdWrites, hpc, written_load]
  · simp only [simdRank, hpc]
    omega

theorem SimdInv.loadB (hpc : v.pc = .loadB) : SimdStep a b g v p events := by
  have hplace := hinv.place
  rw [hpc] at hplace
  obtain ⟨hk, hA⟩ := hplace
  have haligned := hinv.aligned
  have hcol8 := simdCol_le h8 g
  have hcol := (toNat_simd h8 g).2
  have hbase : (v.k * n).toNat = v.k.toNat * n.toNat := toNat_rowStart hn hk
  simp only [simdNext, hpc, hbase, hcol] at hgo
  cases hgo
  refine ⟨⟨haligned, hinv.le, hinv.acc, hk, hA, fun i j => congrArg b (cell_eq ..)⟩, ?_, ?_, ?_⟩
  · exact simdAccess_inBounds rfl (by omega) hcol8 fun c hc => hc
  · simp [simdWrites, hpc, written_load]
  · simp only [simdRank, hpc]
    omega

omit hn in
theorem SimdInv.multiply (hpc : v.pc = .multiply) : SimdStep a b g v p events := by
  have hplace := hinv.place
  rw [hpc] at hplace
  obtain ⟨hk, hA, hB⟩ := hplace
  have haligned := hinv.aligned
  have hlt := n.toNat_lt
  have hk8 : (v.k + 8).toNat = v.k.toNat + 8 := by
    rw [toNat_add_of_lt]
    · rfl
    · change v.k.toNat + 8 < 2 ^ 32
      omega
  simp only [simdNext, hpc] at hgo
  cases hgo
  refine ⟨⟨?_, ?_, fun i j => ?_, trivial⟩, by simp, by simp [simdWrites, hpc], ?_⟩
  · rw [hk8]
    omega
  · rw [hk8]
    omega
  · rw [hk8, rowTimesCol_add, ← hinv.acc]
    exact congrArg _ (Finset.sum_congr rfl fun x _ => by rw [hA, hB])
  · simp only [simdRank, hpc, hk8]
    omega

theorem SimdInv.store (hpc : v.pc = .store) : SimdStep a b g v p events := by
  have hk : v.k.toNat = n.toNat := by simpa [hpc, SimdPlace] using hinv.place
  have hrow8 := simdRow_le h8 g
  have hcol8 := simdCol_le h8 g
  obtain ⟨hrow, hcol⟩ := toNat_simd h8 g
  have hbase : (UInt32.ofNat g.2 * 8 * n).toNat = simdRow g * n.toNat := by
    rw [toNat_rowStart hn (by omega), hrow]
  simp only [simdNext, hpc, hbase, hcol] at hgo
  cases hgo
  refine ⟨⟨hinv.aligned, hinv.le, hinv.acc, hk⟩, ?_, ?_, ?_⟩
  · exact simdAccess_inBounds rfl hrow8 hcol8 fun c hc => hc
  · simp [simdWrites, hpc, simdgroupStore, List.filterMap_map, Function.comp_def]
  · simp only [simdRank, hpc]
    omega

theorem SimdInv.go : SimdStep a b g v p events := by
  cases hpc : v.pc with
  | head => exact hinv.head hgo hpc
  | loadA => exact hinv.loadA hgo hn h8 hpc
  | loadB => exact hinv.loadB hgo hn h8 hpc
  | multiply => exact hinv.multiply hgo h8 hpc
  | store => exact hinv.store hgo hn h8 hpc
  | done => simp [simdNext, hpc] at hgo

end Steps

theorem simdNext_waits {tgid : UInt32 × UInt32} {v : Simdgroup R}
    (hgo : ∀ p events, simdNext a b n tgid v ≠ .go () p events) :
    v.pc = .done ∧ simdNext a b n tgid v = .halt := by
  cases hpc : v.pc with
  | done => exact ⟨rfl, by simp only [simdNext, hpc]⟩
  | head | loadA | loadB | multiply | store =>
    simp only [simdNext, hpc] at hgo
    exact absurd rfl (hgo _ _)

theorem simdNext_ne_barrier {tgid : UInt32 × UInt32} {v p : Simdgroup R} :
    simdNext a b n tgid v ≠ .barrier p := by
  cases hpc : v.pc <;> simp [simdNext, hpc]

variable (a b) in
def simdOutline (hn : n.toNat * n.toNat ≤ 2 ^ 32) (h8 : n.toNat % 8 = 0) :
    (simdGemm a b n).Outline (Access.written .c) (Access.InBounds (gemmSize n)) where
  Inv g _ own := SimdInv a b g (own ())
  writes g _ v := simdWrites g v
  rank v := simdRank n v
  init g :=
    { aligned := rfl
      le := Nat.zero_le _
      acc := fun _ _ => (Finset.sum_range_zero _).symm
      place := trivial }
  start g t := rfl
  go hinv hgo := by
    have hstep := hinv.go hgo hn h8
    exact ⟨by simpa using hstep.inv, hstep.bounds, hstep.writes, hstep.rank⟩
  leave _ hwait := absurd (hwait ()) simdNext_ne_barrier
  live _ hgo := .inr fun t => (simdNext_waits (hgo t ())).2

def entry (a b : Nat → R) (n row col : Nat) : R :=
  ∑ k ∈ Finset.range n, a (row * n + k) * b (k * n + col)

theorem SimdInv.writes_of_halt {v : Simdgroup R} (hinv : SimdInv a b g v)
    (hhalt : simdNext a b n (UInt32.ofNat g.1, UInt32.ofNat g.2) v = .halt) :
    simdWrites g v = (List.range 64).map fun c =>
      (simdCell (simdRow g * n.toNat + simdCol g) n c,
        entry a b n.toNat (simdRow g + c / 8) (simdCol g + c % 8)) := by
  have hgo : ∀ p events, simdNext a b n (UInt32.ofNat g.1, UInt32.ofNat g.2) v ≠
      .go () p events := by simp [hhalt]
  have hpc := (simdNext_waits hgo).1
  have hk : v.k.toNat = n.toNat := by simpa [hpc, SimdPlace] using hinv.place
  simp only [simdWrites, hpc, hinv.acc, hk, rowTimesCol, entry]

omit [Semiring R] in
theorem filter_tile (h8 : n.toNat % 8 = 0) {f : Nat → R} {i j : Nat} (hi : i < 8) (hj : j < 8) :
    ((List.range 64).map fun c => (simdCell (simdRow g * n.toNat + simdCol g) n c, f c)).filter
        (·.1 = (simdRow g + i) * n.toNat + (simdCol g + j)) =
      [((simdRow g + i) * n.toNat + (simdCol g + j), f (i * 8 + j))] := by
  have hcol8 := simdCol_le h8 g
  have hplace : ∀ c, simdCell (simdRow g * n.toNat + simdCol g) n c =
      (simdRow g + i) * n.toNat + (simdCol g + j) ↔ c = i * 8 + j := by
    intro c
    rw [simdCell_eq, place_eq_iff (by omega)]
    obtain ⟨hrow, hcol⟩ := (place_eq_iff (q := simdRow g + i) (r := simdCol g + j)
      (w := n.toNat) (by omega)).mp rfl
    rw [hrow, hcol]
    omega
  have hone : (List.range 64).filter (fun c => decide (c = i * 8 + j)) = [i * 8 + j] := by
    rw [List.filter_eq, List.count_eq_one_of_mem List.nodup_range (List.mem_range.mpr (by omega))]
    rfl
  rw [List.filter_map, List.filter_congr (q := fun c => decide (c = i * 8 + j)), hone,
    List.map_singleton, (hplace _).mpr rfl]
  intro c _
  simp only [Function.comp_apply, hplace]

theorem exists_simdgroup (h8 : n.toNat % 8 = 0) {row col : Nat} (hrow : row < n.toNat)
    (hcol : col < n.toNat) : ∃ g : Fin (simdGroups n) × Fin (simdGroups n),
      simdRow g + row % 8 = row ∧ simdCol g + col % 8 = col := by
  have hgroups := simdGroups_mul h8
  refine ⟨(⟨col / 8, by omega⟩, ⟨row / 8, by omega⟩), ?_, ?_⟩
  · exact Nat.div_add_mod' row 8
  · exact Nat.div_add_mod' col 8

variable (a b) in
theorem simd_filter_writes (h8 : n.toNat % 8 = 0)
    {s : Grid (Fin (simdGroups n) × Fin (simdGroups n)) Unit Unit (Simdgroup R)
      (Access GemmBuffer R)}
    (hinv : ∀ g, SimdInv a b g (s.own g ())) (hhalted : (simdGemm a b n).Halted s)
    (hlog : (s.log.filterMap (Access.written .c) : Multiset (Nat × R)) =
      ∑ g, ∑ t, (simdWrites g (s.own g t) : Multiset (Nat × R)))
    {row col : Nat} (hrow : row < n.toNat) (hcol : col < n.toNat) :
    (s.log.filterMap (Access.written .c)).filter (·.1 = row * n.toNat + col) =
      [(row * n.toNat + col, entry a b n.toNat row col)] := by
  obtain ⟨g, hr, hc⟩ := exists_simdgroup h8 hrow hcol
  have hwrites := fun g' => (hinv g').writes_of_halt (hhalted g' ())
  have hself : (simdWrites g (s.own g ())).filter (·.1 = row * n.toNat + col) =
      [(row * n.toNat + col, entry a b n.toNat row col)] := by
    have hi := Nat.mod_lt row (show 8 > 0 by decide)
    have hj := Nat.mod_lt col (show 8 > 0 by decide)
    have htile := filter_tile (g := g) h8 (f := fun c =>
      entry a b n.toNat (simdRow g + c / 8) (simdCol g + c % 8)) hi hj
    have hdiv : (row % 8 * 8 + col % 8) / 8 = row % 8 := by omega
    have hmod : (row % 8 * 8 + col % 8) % 8 = col % 8 := by omega
    rw [hr, hc] at htile
    simp only [hdiv, hmod, hr, hc] at htile
    rw [hwrites]
    exact htile
  have hperm := filter_perm_of_sum hlog (·.1 = row * n.toNat + col) g () ?_
  · rw [hself] at hperm
    exact List.perm_singleton.mp hperm
  · intro g' t' hne
    rw [hwrites g', List.filter_eq_nil_iff]
    intro w hw hplace
    obtain ⟨c, hc64, rfl⟩ := List.mem_map.mp hw
    have hc64 := List.mem_range.mp hc64
    have hcol8 := simdCol_le h8 g'
    simp only [decide_eq_true_eq, simdCell_eq] at hplace
    -- the place determines the row and the column, and these the simdgroup
    obtain ⟨hrow', hcol'⟩ := (place_eq_iff (w := n.toNat) (by omega)).mp hplace
    obtain ⟨hrow'', hcol''⟩ := (place_eq_iff (q := row) hcol).mp rfl
    have hg : g' = g := by
      unfold simdRow at hr hrow'
      unfold simdCol at hc hcol'
      exact Prod.ext (Fin.ext (by omega)) (Fin.ext (by omega))
    exact hne.elim (absurd hg) (absurd rfl)

variable (a b) in
/-- No run of the kernel for the matrix units leaves its matrices, every run can be finished, and then
the product has been stored. -/
theorem simdGemm_correct (cells : Nat → R) (hn : n.toNat * n.toNat ≤ 2 ^ 32)
    (h8 : n.toNat % 8 = 0)
    {acts : List (GridAct (Fin (simdGroups n) × Fin (simdGroups n)) Unit)}
    {s : Grid (Fin (simdGroups n) × Fin (simdGroups n)) Unit Unit (Simdgroup R)
      (Access GemmBuffer R)}
    (hexec : (simdGemm a b n).exec (simdGemm a b n).init acts = some s) :
    (∀ e ∈ s.log, e.InBounds (gemmSize n)) ∧
      (∃ more s', (simdGemm a b n).exec s more = some s' ∧ (simdGemm a b n).Stuck s') ∧
      ((simdGemm a b n).Stuck s → ∀ row < n.toNat, ∀ col < n.toNat,
        stored cells (s.log.filterMap (Access.written .c)) (row * n.toNat + col) =
          entry a b n.toNat row col) := by
  obtain ⟨hinv, hsafe, -, hfinish, hend⟩ := (simdOutline a b hn h8).correct hexec
  refine ⟨hsafe, hfinish, fun hstuck row hrow col hcol => ?_⟩
  obtain ⟨hhalted, hlog⟩ := hend hstuck
  exact stored_of_filter cells (simd_filter_writes a b h8 hinv hhalted hlog hrow hcol)

variable (a b) in
/-- The kernel for the matrix units and the portable one store the same matrix, the product, in
whatever order their threads run. -/
theorem simdGemm_agrees_gemm (cells : Nat → R) (hn : n.toNat * n.toNat ≤ 2 ^ 32)
    (h8 : n.toNat % 8 = 0)
    {acts : List (GridAct (Fin (simdGroups n) × Fin (simdGroups n)) Unit)}
    {s : Grid (Fin (simdGroups n) × Fin (simdGroups n)) Unit Unit (Simdgroup R)
      (Access GemmBuffer R)}
    (hexec : (simdGemm a b n).exec (simdGemm a b n).init acts = some s)
    (hstuck : (simdGemm a b n).Stuck s)
    {acts' : List (GridAct (Fin (gemmGroups n) × Fin (gemmGroups n)) (Fin 16 × Fin 16))}
    {s' : Grid (Fin (gemmGroups n) × Fin (gemmGroups n)) (Fin 16 × Fin 16) (GemmTiles R)
      (GemmThread R) (Access GemmBuffer R)}
    (hexec' : (gemm a b n).exec (gemm a b n).init acts' = some s')
    (hstuck' : (gemm a b n).Stuck s') {row col : Nat} (hrow : row < n.toNat)
    (hcol : col < n.toNat) :
    stored cells (s.log.filterMap (Access.written .c)) (row * n.toNat + col) =
        stored cells (s'.log.filterMap (Access.written .c)) (row * n.toNat + col) ∧
      stored cells (s.log.filterMap (Access.written .c)) (row * n.toNat + col) =
        entry a b n.toNat row col := by
  obtain ⟨-, -, hproduct⟩ := simdGemm_correct a b cells hn h8 hexec
  obtain ⟨hinv, -, -, -, hend⟩ := (gemmOutline a b hn).correct hexec'
  obtain ⟨hhalted, hlog⟩ := hend hstuck'
  have hcell := hproduct hstuck row hrow col hcol
  have hcell' := stored_of_filter cells (gemm_filter_writes a b hn hinv hhalted hlog hrow hcol)
  exact ⟨hcell.trans hcell'.symm, hcell⟩

theorem simdGemm_agrees_gemm_16 : ∃ acts s acts' s',
    (simdGemm (fun i => (i : Int)) (fun _ => 1) 16).exec
        (simdGemm (fun i => (i : Int)) (fun _ => 1) 16).init acts = some s ∧
      (gemm (fun i => (i : Int)) (fun _ => 1) 16).exec
        (gemm (fun i => (i : Int)) (fun _ => 1) 16).init acts' = some s' ∧
      stored (fun _ => 0) (s.log.filterMap (Access.written .c)) (15 * 16 + 3) =
        stored (fun _ => 0) (s'.log.filterMap (Access.written .c)) (15 * 16 + 3) ∧
      stored (fun _ => 0) (s.log.filterMap (Access.written .c)) (15 * 16 + 3) = 3960 := by
  have hle : (16 : UInt32).toNat * (16 : UInt32).toNat ≤ 2 ^ 32 := by decide
  obtain ⟨-, ⟨acts, s, hexec, hstuck⟩, -⟩ :=
    simdGemm_correct (fun i => (i : Int)) (fun _ => 1) (fun _ => 0) hle (by decide)
      (Kernel.exec_nil _ _)
  obtain ⟨-, -, -, ⟨acts', s', hexec', hstuck'⟩, -⟩ :=
    (gemmOutline (fun i => (i : Int)) (fun _ => 1) hle).correct (Kernel.exec_nil _ _)
  have hrow : 15 < (16 : UInt32).toNat := by decide
  have hcol : 3 < (16 : UInt32).toNat := by decide
  obtain ⟨hsame, hcell⟩ := simdGemm_agrees_gemm (fun i => (i : Int)) (fun _ => 1) (fun _ => 0) hle
    (by decide) hexec hstuck hexec' hstuck' hrow hcol
  exact ⟨acts, s, acts', s', hexec, hexec', hsame, hcell.trans (by decide)⟩

end Phases

end GpuMarket
