import GpuMarket.Lib.Dispatch
import GpuMarket.GpuBench.Simdgroup
import Mathlib.Algebra.Order.Ring.Rat
import Mathlib.Tactic.Linarith

namespace GpuMarket

open Lib

inductive Precision
  | f32
  | f16
  deriving DecidableEq

structure DeviceInfo where
  name : String
  backend : String
  deviceType : String

structure GemmResult where
  device : String
  backend : String
  precision : Precision
  n : UInt32
  iterations : UInt32
  verified : Bool

def ones (_ : Nat) : ℚ := 1

/-- What the graphics API promises of the cells of a buffer that it has just created. -/
def Cleared (created : Nat → ℚ) : Prop := ∀ place, created place = 0

structure WgpuBackend where
  info : DeviceInfo
  f16Supported : Bool

def WgpuBackend.ensure (self : WgpuBackend) (n : UInt32) (precision : Precision) :
    Except String Unit :=
  if ¬0 < n then .error "n must be > 0"
  else if precision = .f16 ∧ ¬self.f16Supported then
    .error "this device does not support SHADER_F16, so fp16 GEMM is unavailable"
  else .ok ()

/-- `WgpuBackend::gemm`, with what it leaves in C where `created` was. The two shaders differ in the
type of A, B and the tiles only. -/
inductive WgpuBackend.Gemm (self : WgpuBackend) (created : Nat → ℚ) (n : UInt32)
    (precision : Precision) (warmup iterations : UInt32) : Except String (GemmResult × (Nat → ℚ)) → Prop
  | refused : self.ensure n precision = .error e →
      Gemm self created n precision warmup iterations (.error e)
  | measured : self.ensure n precision = .ok () →
      (gemm ones ones n).Dispatches .c warmup.toNat created c →
      (gemm ones ones n).Dispatches .c iterations.toNat c c' →
      Gemm self created n precision warmup iterations
        (.ok
          ({ device := self.info.name
             backend := self.info.backend
             precision
             n
             iterations
             -- C is read between the warmup and the timed iterations
             verified := decide (|c 0 - n.toNat| < 1 / 2) },
            c'))

structure MetalBackend where
  name : String

def MetalBackend.ensure (n : UInt32) : Except String Unit :=
  if n ≥ 8 ∧ n % 8 = 0 then .ok ()
  else .error ("the Metal backend needs n to be a positive multiple of 8 (got " ++ toString n ++ ")")

/-- `MetalBackend::gemm`, with what it leaves in C. -/
inductive MetalBackend.Gemm (self : MetalBackend) (created : Nat → ℚ) (n : UInt32)
    (precision : Precision) (warmup iterations : UInt32) : Except String (GemmResult × (Nat → ℚ)) → Prop
  | refused : ensure n = .error e → Gemm self created n precision warmup iterations (.error e)
  | measured : ensure n = .ok () →
      (simdGemm ones ones n).Dispatches .c warmup.toNat created c →
      (simdGemm ones ones n).Dispatches .c iterations.toNat c c' →
      Gemm self created n precision warmup iterations
        (.ok
          ({ device := self.name
             backend := "Metal"
             precision
             n
             iterations
             verified := decide (|c' 0 - n.toNat| < max ((n.toNat : ℚ) * (1 / 1000)) 1) },
            c'))

def Product (n : UInt32) (c : Nat → ℚ) : Prop :=
  ∀ row < n.toNat, ∀ col < n.toNat, c (row * n.toNat + col) = n.toNat

section Dispatches

variable {n : UInt32} (hn : n.toNat * n.toNat ≤ 2 ^ 32)
include hn

theorem gemm_dispatched {cells cells' : Nat → ℚ}
    (h : (gemm ones ones n).Dispatched .c cells cells') : Product n cells' := by
  obtain ⟨acts, s, hexec, hstuck, rfl⟩ := h
  obtain ⟨hinv, -, -, -, hend⟩ := (gemmOutline ones ones hn).correct hexec
  obtain ⟨hhalted, hlog⟩ := hend hstuck
  intro row hrow col hcol
  rw [stored_of_filter cells (gemm_filter_writes ones ones hn hinv hhalted hlog hrow hcol)]
  simp [ones]

theorem exists_gemm_dispatched (cells : Nat → ℚ) :
    ∃ cells', (gemm ones ones n).Dispatched .c cells cells' := by
  obtain ⟨-, -, -, ⟨acts, s, hexec, hstuck⟩, -⟩ :=
    (gemmOutline ones ones hn).correct (Kernel.exec_nil _ _)
  exact ⟨_, acts, s, hexec, hstuck, rfl⟩

theorem simd_dispatched (h8 : n.toNat % 8 = 0) {cells cells' : Nat → ℚ}
    (h : (simdGemm ones ones n).Dispatched .c cells cells') : Product n cells' := by
  obtain ⟨acts, s, hexec, hstuck, rfl⟩ := h
  obtain ⟨-, -, hproduct⟩ := simdGemm_correct ones ones cells hn h8 hexec
  intro row hrow col hcol
  rw [hproduct hstuck row hrow col hcol]
  simp [entry, ones]

theorem exists_simd_dispatched (h8 : n.toNat % 8 = 0) (cells : Nat → ℚ) :
    ∃ cells', (simdGemm ones ones n).Dispatched .c cells cells' := by
  obtain ⟨-, ⟨acts, s, hexec, hstuck⟩, -⟩ :=
    simdGemm_correct ones ones cells hn h8 (Kernel.exec_nil _ _)
  exact ⟨_, acts, s, hexec, hstuck, rfl⟩

end Dispatches

theorem Product.first {n : UInt32} (hpos : 0 < n.toNat) {c : Nat → ℚ} (h : Product n c) :
    c 0 = n.toNat := by
  simpa using h 0 hpos 0 hpos

theorem WgpuBackend.ensure_ok {self : WgpuBackend} {n : UInt32} {precision : Precision} {u : Unit}
    (h : self.ensure n precision = .ok u) : 0 < n.toNat := by
  unfold ensure at h
  split at h
  case isTrue => cases h
  case isFalse hpos => exact UInt32.lt_iff_toNat_lt.mp (not_not.mp hpos)

theorem MetalBackend.ensure_ok {n : UInt32} {u : Unit} (h : ensure n = .ok u) :
    8 ≤ n.toNat ∧ n.toNat % 8 = 0 := by
  unfold ensure at h
  split at h
  case isFalse => cases h
  case isTrue hsize =>
    refine ⟨UInt32.le_iff_toNat_le.mp hsize.1, ?_⟩
    simpa using congrArg UInt32.toNat hsize.2

theorem Cleared.far {created : Nat → ℚ} (h : Cleared created) (n : UInt32) :
    |created 0 - n.toNat| = n.toNat := by
  rw [h 0, zero_sub, abs_neg]
  exact abs_of_nonneg (Nat.cast_nonneg _)

theorem Product.near {n : UInt32} (hpos : 0 < n.toNat) {c : Nat → ℚ} (h : Product n c) :
    |c 0 - n.toNat| = 0 := by
  rw [h.first hpos, sub_self, abs_zero]

section Kernel

variable {γ ι μ π : Type} [DecidableEq γ] [DecidableEq ι] [Fintype ι]
  {K : Kernel γ ι μ π (Access GemmBuffer ℚ)} {n : UInt32}

theorem product_of_dispatches
    (hK : ∀ {cells cells'}, K.Dispatched .c cells cells' → Product n cells') {warmup iterations : Nat}
    {created c c' : Nat → ℚ} (hwarm : K.Dispatches .c warmup created c)
    (htimed : K.Dispatches .c iterations c c') (h : 0 < warmup ∨ 0 < iterations) :
    Product n c' := by
  rcases h with h | h
  · exact htimed.keep hK (hwarm.last hK h)
  · exact htimed.last hK h

end Kernel

/-- The portable backend looks at what the warmup has left in C. -/
theorem WgpuBackend.Gemm.spec {self : WgpuBackend} {created : Nat → ℚ} (hcreated : Cleared created)
    {n : UInt32} {precision : Precision} {warmup iterations : UInt32}
    (hn : n.toNat * n.toNat ≤ 2 ^ 32) {r : GemmResult} {c : Nat → ℚ}
    (h : self.Gemm created n precision warmup iterations (.ok (r, c))) :
    (r.verified = true ↔ 0 < warmup.toNat) ∧
      (0 < warmup.toNat ∨ 0 < iterations.toNat → Product n c) := by
  cases h with
  | @measured c₁ _ hok hwarm htimed =>
    have hpos := ensure_ok hok
    refine ⟨?_, product_of_dispatches (gemm_dispatched hn) hwarm htimed⟩
    rw [decide_eq_true_eq]
    rcases Nat.eq_zero_or_pos warmup.toNat with hzero | hwarmup
    · rw [hzero] at hwarm ⊢
      cases hwarm
      rw [hcreated.far]
      have hone : (1 : ℚ) ≤ n.toNat := by exact_mod_cast hpos
      constructor
      · intro hlt
        linarith
      · intro hlt
        exact absurd hlt (Nat.lt_irrefl 0)
    · have hproduct : Product n c₁ := hwarm.last (gemm_dispatched hn) hwarmup
      rw [hproduct.near hpos]
      simp [hwarmup]

/-- The native backend looks at what is in C in the end. -/
theorem MetalBackend.Gemm.spec {self : MetalBackend} {created : Nat → ℚ} (hcreated : Cleared created)
    {n : UInt32} {precision : Precision} {warmup iterations : UInt32}
    (hn : n.toNat * n.toNat ≤ 2 ^ 32) {r : GemmResult} {c : Nat → ℚ}
    (h : self.Gemm created n precision warmup iterations (.ok (r, c))) :
    (r.verified = true ↔ 0 < warmup.toNat ∨ 0 < iterations.toNat) ∧
      (0 < warmup.toNat ∨ 0 < iterations.toNat → Product n c) := by
  cases h with
  | @measured c₁ _ hok hwarm htimed =>
    obtain ⟨hsize, h8⟩ := ensure_ok hok
    have hproduct := product_of_dispatches (simd_dispatched hn h8) hwarm htimed
    refine ⟨?_, hproduct⟩
    rw [decide_eq_true_eq]
    by_cases hsome : 0 < warmup.toNat ∨ 0 < iterations.toNat
    · rw [(hproduct hsome).near (by omega)]
      simp [hsome]
    · obtain ⟨hzero, hzero'⟩ := not_or.mp hsome
      rw [Nat.eq_zero_of_not_pos hzero] at hwarm
      rw [Nat.eq_zero_of_not_pos hzero'] at htimed
      cases hwarm
      cases htimed
      have hone : (8 : ℚ) ≤ n.toNat := by exact_mod_cast hsize
      rw [hcreated.far]
      simp only [hsome, iff_false, not_lt, max_le_iff]
      constructor <;> linarith

theorem WgpuBackend.exists_gemm (self : WgpuBackend) (created : Nat → ℚ) {n : UInt32}
    (hn : n.toNat * n.toNat ≤ 2 ^ 32) (precision : Precision) (warmup iterations : UInt32) :
    ∃ outcome, self.Gemm created n precision warmup iterations outcome := by
  cases hok : self.ensure n precision with
  | error e => exact ⟨_, .refused hok⟩
  | ok u =>
    obtain ⟨c, hwarm⟩ := Kernel.Dispatches.exists (exists_gemm_dispatched hn) warmup.toNat created
    obtain ⟨c', htimed⟩ := Kernel.Dispatches.exists (exists_gemm_dispatched hn) iterations.toNat c
    exact ⟨_, .measured hok hwarm htimed⟩

theorem MetalBackend.exists_gemm (self : MetalBackend) (created : Nat → ℚ) {n : UInt32}
    (hn : n.toNat * n.toNat ≤ 2 ^ 32) (precision : Precision) (warmup iterations : UInt32) :
    ∃ outcome, self.Gemm created n precision warmup iterations outcome := by
  cases hok : ensure n with
  | error e => exact ⟨_, .refused hok⟩
  | ok u =>
    have hdispatch := exists_simd_dispatched hn (ensure_ok hok).2
    obtain ⟨c, hwarm⟩ := Kernel.Dispatches.exists hdispatch warmup.toNat created
    obtain ⟨c', htimed⟩ := Kernel.Dispatches.exists hdispatch iterations.toNat c
    exact ⟨_, .measured hok hwarm htimed⟩

/-- What `verified` says: on the portable backend that there was a warmup, on the native one that there
was any dispatch at all; the product is in C whenever there was one. -/
theorem gemm_verified {created : Nat → ℚ} (hcreated : Cleared created) {n : UInt32}
    (hn : n.toNat * n.toNat ≤ 2 ^ 32) (portable : WgpuBackend) (native : MetalBackend)
    (precision : Precision) (warmup iterations : UInt32) :
    (∃ outcome, portable.Gemm created n precision warmup iterations outcome) ∧
      (∃ outcome, native.Gemm created n precision warmup iterations outcome) ∧
      (∀ r c, portable.Gemm created n precision warmup iterations (.ok (r, c)) →
        (r.verified = true ↔ 0 < warmup.toNat) ∧
          (0 < warmup.toNat ∨ 0 < iterations.toNat → Product n c)) ∧
      ∀ r c, native.Gemm created n precision warmup iterations (.ok (r, c)) →
        (r.verified = true ↔ 0 < warmup.toNat ∨ 0 < iterations.toNat) ∧
          (0 < warmup.toNat ∨ 0 < iterations.toNat → Product n c) :=
  ⟨portable.exists_gemm created hn precision warmup iterations,
    native.exists_gemm created hn precision warmup iterations,
    fun _ _ h => h.spec hcreated hn, fun _ _ h => h.spec hcreated hn⟩

def testPortable : WgpuBackend := ⟨⟨"Apple M1", "Metal", "IntegratedGpu"⟩, true⟩

def testNative : MetalBackend := ⟨"Apple M1"⟩

/-- Without a warmup the portable backend distrusts a product that the native one vouches for. -/
theorem gemm_verified_cold :
    ∃ r c r' c', testPortable.Gemm (fun _ => 0) 16 .f32 0 1 (.ok (r, c)) ∧
      testNative.Gemm (fun _ => 0) 16 .f32 0 1 (.ok (r', c')) ∧ c 17 = 16 ∧ c' 17 = 16 ∧
        r.verified = false ∧ r'.verified = true := by
  obtain ⟨⟨outcome, h⟩, ⟨outcome', h'⟩, hportable, hnative⟩ :=
    gemm_verified (fun _ => rfl : Cleared fun _ => 0) (n := 16) (by decide) testPortable testNative
      .f32 0 1
  cases h with
  | refused hbad =>
    have hok : testPortable.ensure 16 .f32 = .ok () := rfl
    rw [hok] at hbad
    cases hbad
  | measured hok hwarm htimed =>
    cases h' with
    | refused hbad =>
      have hok : MetalBackend.ensure 16 = .ok () := rfl
      rw [hok] at hbad
      cases hbad
    | measured hok' hwarm' htimed' =>
      obtain ⟨hflag, hproduct⟩ := hportable _ _ (.measured hok hwarm htimed)
      obtain ⟨hflag', hproduct'⟩ := hnative _ _ (.measured hok' hwarm' htimed')
      refine ⟨_, _, _, _, .measured hok hwarm htimed, .measured hok' hwarm' htimed', ?_, ?_, ?_, ?_⟩
      · simpa using hproduct (by decide) 1 (by decide) 1 (by decide)
      · simpa using hproduct' (by decide) 1 (by decide) 1 (by decide)
      · exact Bool.eq_false_iff.mpr fun htrue => absurd (hflag.mp htrue) (by decide)
      · exact hflag'.mpr (by decide)

end GpuMarket
