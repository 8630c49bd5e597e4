import GpuMarket.GpuBench.Shader

universe u

namespace GpuMarket

open Lib

inductive TriadBuffer
  | a
  | b
  | c
  deriving DecidableEq

def triadGroups (elements : UInt64) : UInt32 := min (divCeil elements.toUInt32 256) 65535

def bytesPerIter (elements : UInt64) : UInt64 := elements * 3 * 4

section Kernel

variable {R : Type u} [Add R] [Mul R] [OfNat R 2] (a b : Nat → R)

def triadAt (i : Nat) : List (Access TriadBuffer R) :=
  [.read .a i, .read .b i, .write .c i (a i + 2 * b i)]

/-- `TRIAD_WGSL` at the test of its loop, where `n` is the length of `c` and `nwg` the number of
workgroups. -/
def triadNext (n nwg i : UInt32) : Move Unit UInt32 (Access TriadBuffer R) :=
  let stride := nwg * 256
  if i < n then .go () (i + stride) (triadAt a b i.toNat) else .halt

/-- What `bandwidth` dispatches.  The state of a thread is its `i`, at first `gid.x`. -/
def triad (elements : UInt64) :
    Kernel (Fin (triadGroups elements).toNat) (Fin 256) Unit UInt32 (Access TriadBuffer R) where
  mem _ := ()
  own g t := UInt32.ofNat g * 256 + UInt32.ofNat t
  next _ _ _ i := triadNext a b elements.toUInt32 (triadGroups elements) i

def triadWalk (gid stride j : Nat) : List (Access TriadBuffer R) :=
  (List.range j).flatMap fun k => triadAt a b (gid + k * stride)

theorem triadWalk_succ (gid stride j : Nat) :
    triadWalk a b gid stride (j + 1) =
      triadWalk a b gid stride j ++ triadAt a b (gid + j * stride) := by
  simp [triadWalk, List.range_succ]

theorem filter_triadAt (i k : Nat) :
    (triadAt a b k).filter (·.index = i) = if k = i then triadAt a b i else [] := by
  by_cases hk : k = i
  · simp [triadAt, hk]
  · simp [triadAt, hk]

theorem filter_triadWalk {gid stride : Nat} (hgid : gid < stride) (i j : Nat) :
    (triadWalk a b gid stride j).filter (·.index = i) =
      if i % stride = gid ∧ i / stride < j then triadAt a b i else [] := by
  induction j with
  | zero => simp [triadWalk]
  | succ j ih =>
    have hplace : gid + j * stride = i ↔ i % stride = gid ∧ i / stride = j := by
      rw [Nat.add_comm, place_eq_iff hgid, and_comm]
    rw [triadWalk_succ, List.filter_append, ih, filter_triadAt]
    by_cases hmod : i % stride = gid
    · rcases Nat.lt_trichotomy (i / stride) j with hlt | heq | hgt
      · simp [hplace, hmod, hlt, hlt.ne, Nat.lt_succ_of_lt hlt]
      · simp [hplace, hmod, heq]
      · simp [hplace, hmod, hgt.ne', hgt.not_gt, Nat.not_lt.mpr (Nat.succ_le_of_lt hgt)]
    · simp [hplace, hmod]

/-! ### The numbers of a dispatch -/

variable {elements : UInt64}

def triadThreads (elements : UInt64) : Nat := (triadGroups elements).toNat * 256

theorem triadGroups_le (elements : UInt64) : (triadGroups elements).toNat ≤ 65535 := by
  simp only [triadGroups, min]
  split
  case isTrue hle => exact UInt32.le_iff_toNat_le.mp hle
  case isFalse => rfl

theorem toNat_triadStride (elements : UInt64) :
    (triadGroups elements * 256).toNat = triadThreads elements := by
  have hgroups := triadGroups_le elements
  have hlt : (triadGroups elements).toNat * 256 < 2 ^ 32 := by omega
  rw [toNat_mul_of_lt (by simpa using hlt)]
  rfl

theorem lt_triadThreads (g : Fin (triadGroups elements).toNat) (t : Fin 256) :
    g.val * 256 + t.val < triadThreads elements := by
  have hg := g.isLt
  have ht := t.isLt
  unfold triadThreads
  omega

theorem toNat_gid (g : Fin (triadGroups elements).toNat) (t : Fin 256) :
    ((triad a b elements).own g t).toNat = g * 256 + t := by
  have hg := g.isLt
  have ht := t.isLt
  have hgroups := triadGroups_le elements
  simp [triad]
  omega

theorem toNat_toUInt32 (h : elements.toNat ≤ 2 ^ 32 - 2 ^ 24) :
    elements.toUInt32.toNat = elements.toNat := by
  rw [UInt64.toNat_toUInt32]
  omega

theorem toNat_add_stride (h : elements.toNat ≤ 2 ^ 32 - 2 ^ 24) {i : UInt32}
    (hi : i < elements.toUInt32) :
    i.toNat < elements.toNat ∧
      (i + triadGroups elements * 256).toNat = i.toNat + triadThreads elements := by
  have hlt : i.toNat < elements.toNat := by
    simpa only [toNat_toUInt32 h] using UInt32.lt_iff_toNat_lt.mp hi
  have hgroups := triadGroups_le elements
  refine ⟨hlt, ?_⟩
  rw [← toNat_triadStride]
  apply toNat_add_of_lt
  rw [toNat_triadStride, triadThreads]
  omega

theorem triadNext_eq_go {n nwg i i' : UInt32} {u : Unit} {events : List (Access TriadBuffer R)}
    (h : triadNext a b n nwg i = .go u i' events) :
    i < n ∧ i' = i + nwg * 256 ∧ events = triadAt a b i.toNat := by
  unfold triadNext at h
  split at h
  case isTrue hlt =>
    cases h
    exact ⟨hlt, rfl, rfl⟩
  case isFalse => cases h

theorem triadNext_ne_barrier {n nwg i i' : UInt32} : triadNext a b n nwg i ≠ .barrier i' := by
  unfold triadNext
  split <;> nofun

theorem triadNext_eq_halt {n nwg i : UInt32}
    (h : ∀ u i' events, triadNext a b n nwg i ≠ .go u i' events) :
    triadNext a b n nwg i = .halt := by
  unfold triadNext at h ⊢
  split
  case isTrue hlt =>
    simp only [hlt, if_true] at h
    exact absurd rfl (h () _ _)
  case isFalse => rfl

def triadOutline (h : elements.toNat ≤ 2 ^ 32 - 2 ^ 24) :
    (triad a b elements).Outline some (fun e => e.index < elements.toNat) where
  Inv g _ own := ∀ t, ∃ j, (own t).toNat = g * 256 + t + j * triadThreads elements
  writes g t i := triadWalk a b (g * 256 + t) (triadThreads elements)
    ((i.toNat - (g * 256 + t)) / triadThreads elements)
  rank i := elements.toNat - i.toNat
  init g t := ⟨0, by simp [toNat_gid]⟩
  start g t := by simp [toNat_gid, triadWalk]
  go := by
    intro g t m own m' i' events hinv hgo
    obtain ⟨hlt, rfl, rfl⟩ := triadNext_eq_go a b hgo
    obtain ⟨hi, hnext⟩ := toNat_add_stride h hlt
    obtain ⟨j, hj⟩ := hinv t
    have hpos : 0 < triadThreads elements := by
      have hthread := lt_triadThreads g t
      omega
    refine ⟨fun t' => ?_, ?_, ?_, ?_⟩
    · by_cases ht : t' = t
      · subst ht
        exact ⟨j + 1, by simp [hnext, hj, Nat.succ_mul, Nat.add_assoc]⟩
      · simpa [ht] using hinv t'
    · simpa [triadAt] using hi
    · have hdone : ∀ k, (g.val * 256 + t.val + k * triadThreads elements -
          (g.val * 256 + t.val)) / triadThreads elements = k := by
        intro k
        rw [Nat.add_sub_cancel_left, Nat.mul_div_cancel _ hpos]
      have hsucc : (own t).toNat + triadThreads elements =
          g.val * 256 + t.val + (j + 1) * triadThreads elements := by
        rw [hj, Nat.succ_mul, Nat.add_assoc]
      rw [hnext, hsucc, hdone, hj, hdone, triadWalk_succ, List.filterMap_some]
    · omega
  leave := by
    intro g m own own' hinv hall
    exact absurd (hall 0) (triadNext_ne_barrier a b)
  live := by
    intro g m own hinv hgo
    right
    intro t
    exact triadNext_eq_halt a b (hgo t)

theorem filter_writes_of_halt (h : elements.toNat ≤ 2 ^ 32 - 2 ^ 24)
    {g : Fin (triadGroups elements).toNat} {t : Fin 256} {i : UInt32}
    (hinv : ∃ j, i.toNat = g * 256 + t + j * triadThreads elements)
    (hhalt : triadNext a b elements.toUInt32 (triadGroups elements) i = .halt) {k : Nat}
    (hk : k < elements.toNat) :
    (((triadOutline a b h).writes g t i).filter (·.index = k)) =
      if k % triadThreads elements = g * 256 + t then triadAt a b k else [] := by
  obtain ⟨j, hj⟩ := hinv
  have hgid := lt_triadThreads g t
  have hpos : 0 < triadThreads elements := by omega
  have hend : elements.toNat ≤ i.toNat := by
    by_contra hlt
    have hi : i < elements.toUInt32 := by
      simpa only [UInt32.lt_iff_toNat_lt, toNat_toUInt32 h, Nat.not_le] using hlt
    simp [triadNext, hi] at hhalt
  have hiter : (i.toNat - (g.val * 256 + t.val)) / triadThreads elements = j := by
    rw [hj, Nat.add_sub_cancel_left, Nat.mul_div_cancel _ hpos]
  simp only [triadOutline, hiter, filter_triadWalk a b hgid]
  by_cases hmod : k % triadThreads elements = g.val * 256 + t.val
  · have hlast : k / triadThreads elements < j := by
      by_contra hge
      have hmul := Nat.mul_le_mul_right (triadThreads elements) (Nat.not_lt.mp hge)
      have hsplit := Nat.mod_add_div' k (triadThreads elements)
      omega
    simp [hmod, hlast]
  · simp [hmod]

theorem exists_triadThread (hpos : 0 < triadThreads elements) (k : Nat) :
    ∃ (g : Fin (triadGroups elements).toNat) (t : Fin 256),
      k % triadThreads elements = g * 256 + t := by
  have hlt : k % ((triadGroups elements).toNat * 256) < (triadGroups elements).toNat * 256 :=
    Nat.mod_lt _ hpos
  refine ⟨⟨k % triadThreads elements / 256, ?_⟩, ⟨k % triadThreads elements % 256, ?_⟩, ?_⟩
  · unfold triadThreads
    omega
  · exact Nat.mod_lt _ (by omega)
  · exact (Nat.div_add_mod' _ _).symm

theorem triadThreads_pos {k : Nat} (h : elements.toNat ≤ 2 ^ 32 - 2 ^ 24)
    (hk : k < elements.toNat) : 0 < triadThreads elements := by
  have hceil := divCeil_mul (a := elements.toUInt32) (b := 256) (by decide)
  rw [toNat_toUInt32 h] at hceil
  have hgroups : 0 < (triadGroups elements).toNat := by
    simp only [triadGroups, min]
    split
    case isTrue hle =>
      rcases Nat.eq_zero_or_pos (divCeil elements.toUInt32 256).toNat with hzero | hpos
      · rw [hzero] at hceil
        omega
      · exact hpos
    case isFalse => decide
  unfold triadThreads
  omega

theorem triad_rankOf_le (h : elements.toNat ≤ 2 ^ 32 - 2 ^ 24)
    (s : Grid (Fin (triadGroups elements).toNat) (Fin 256) Unit UInt32 (Access TriadBuffer R)) :
    (triadOutline a b h).rankOf s ≤ (triadGroups elements).toNat * 256 * elements.toNat :=
  calc (triadOutline a b h).rankOf s
      ≤ ∑ _ : Fin (triadGroups elements).toNat, ∑ _ : Fin 256, elements.toNat :=
        Finset.sum_le_sum fun g _ => Finset.sum_le_sum fun t _ =>
          Nat.sub_le elements.toNat (s.own g t).toNat
    _ = (triadGroups elements).toNat * 256 * elements.toNat := by simp [Nat.mul_assoc]

theorem triad_filter_perm (h : elements.toNat ≤ 2 ^ 32 - 2 ^ 24)
    {s : Grid (Fin (triadGroups elements).toNat) (Fin 256) Unit UInt32 (Access TriadBuffer R)}
    (hinv : ∀ g, (triadOutline a b h).Inv g (s.mem g) (s.own g))
    (hhalted : (triad a b elements).Halted s)
    (hlog : (s.log.filterMap some : Multiset (Access TriadBuffer R)) =
      ∑ g, ∑ t, ((triadOutline a b h).writes g t (s.own g t) : Multiset (Access TriadBuffer R)))
    {i : Nat} (hi : i < elements.toNat) :
    (s.log.filter (·.index = i)).Perm (triadAt a b i) := by
  rw [List.filterMap_some] at hlog
  obtain ⟨g, t, hgid⟩ := exists_triadThread (triadThreads_pos h hi) i
  have hwrites : ∀ g' t', ((triadOutline a b h).writes g' t' (s.own g' t')).filter (·.index = i) =
      if i % triadThreads elements = g'.val * 256 + t'.val then triadAt a b i else [] :=
    fun g' t' => filter_writes_of_halt a b h (hinv g' t') (hhalted g' t') hi
  have hself := hwrites g t
  rw [if_pos hgid] at hself
  rw [← hself]
  apply filter_perm_of_sum hlog
  intro g' t' hne
  rw [hwrites, if_neg]
  intro hgid'
  have ht := t.isLt
  have ht' := t'.isLt
  rcases hne with hne | hne
  · exact hne (Fin.ext (by omega))
  · exact hne (Fin.ext (by omega))

/-- The triad touches every element exactly once, and moves what is reported. -/
theorem triad_touches_once (cells : Nat → R) (h : elements.toNat ≤ 2 ^ 32 - 2 ^ 24)
    {acts : List (GridAct (Fin (triadGroups elements).toNat) (Fin 256))}
    {s : Grid (Fin (triadGroups elements).toNat) (Fin 256) Unit UInt32 (Access TriadBuffer R)}
    (hexec : (triad a b elements).exec (triad a b elements).init acts = some s) :
    (∀ g t, ∃ j, (s.own g t).toNat = g * 256 + t + j * ((triadGroups elements).toNat * 256)) ∧
      (∀ e ∈ s.log, e.index < elements.toNat) ∧
      acts.length ≤ (triadGroups elements).toNat * 256 * elements.toNat ∧
      (∃ more s', (triad a b elements).exec s more = some s' ∧ (triad a b elements).Stuck s') ∧
      ((triad a b elements).Stuck s →
        (triad a b elements).Halted s ∧
        (∀ i < elements.toNat,
          (s.log.filter (·.index = i)).Perm
            [.read .a i, .read .b i, .write .c i (a i + 2 * b i)]) ∧
        (∀ i < elements.toNat,
          stored cells (s.log.filterMap (Access.written .c)) i = a i + 2 * b i) ∧
        (bytesPerIter elements).toNat = 12 * elements.toNat ∧
        s.log.length * 4 = (bytesPerIter elements).toNat) := by
  obtain ⟨hinv, hsafe, hlength, hfinish, hend⟩ := (triadOutline a b h).correct hexec
  refine ⟨hinv, hsafe, hlength.trans (triad_rankOf_le a b h _), hfinish, fun hstuck => ?_⟩
  obtain ⟨hhalted, hlog⟩ := hend hstuck
  have hperm : ∀ i < elements.toNat, (s.log.filter (·.index = i)).Perm (triadAt a b i) :=
    fun i hi => triad_filter_perm a b h hinv hhalted hlog hi
  have hbytes : (bytesPerIter elements).toNat = 12 * elements.toNat := by
    simp [bytesPerIter]
    omega
  refine ⟨hhalted, hperm, fun i hi => ?_, hbytes, ?_⟩
  · apply stored_of_filter
    rw [Access.filter_filterMap_written]
    have hwrites := (hperm i hi).filterMap (Access.written .c)
    exact List.perm_singleton.mp hwrites
  · have hthree : s.log.length = elements.toNat * 3 := by
      rw [length_eq_sum_filter hsafe, Finset.sum_congr rfl fun i hi =>
        (hperm i (Finset.mem_range.mp hi)).length_eq]
      simp [triadAt]
    omega

/-- Above the limit of a dispatch, where the threads go round more than once. -/
theorem triad_touches_once_capped :
    ∃ acts s, (triad (fun i => (i : Int)) (fun _ => 1) 33554432).exec
        (triad (fun i => (i : Int)) (fun _ => 1) 33554432).init acts = some s ∧
      (triad (fun i => (i : Int)) (fun _ => 1) 33554432).Stuck s ∧
      stored (fun _ => 0) (s.log.filterMap (Access.written .c)) 33554431 = 33554433 ∧
      s.log.length * 4 = 402653184 := by
  have hle : (33554432 : UInt64).toNat ≤ 2 ^ 32 - 2 ^ 24 := by decide
  obtain ⟨-, -, -, ⟨acts, s, hexec, hstuck⟩, -⟩ :=
    triad_touches_once (fun i => (i : Int)) (fun _ => 1) (fun _ => 0) hle (Kernel.exec_nil _ _)
  obtain ⟨-, -, -, -, hend⟩ :=
    triad_touches_once (fun i => (i : Int)) (fun _ => 1) (fun _ => 0) hle hexec
  obtain ⟨-, -, hcells, hbytes, hmoved⟩ := hend hstuck
  exact ⟨acts, s, hexec, hstuck, hcells 33554431 (by decide), hmoved.trans hbytes⟩

end Kernel

end GpuMarket
