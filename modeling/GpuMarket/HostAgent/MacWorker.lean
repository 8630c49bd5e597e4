import GpuMarket.GpuBench.Simdgroup
import GpuMarket.HostAgent.Metal

universe u

namespace GpuMarket

open Lib

theorem toNat_ofNat_size {n : Nat} (h : n ≤ 16384) : (UInt32.ofNat n).toNat = n := by
  rw [UInt32.toNat_ofNat']
  omega

theorem inBounds_mono {β R : Type*} {e : Access β R} {size size' : β → Nat}
    (h : e.InBounds size) (hle : ∀ buf, size buf ≤ size' buf) : e.InBounds size' := by
  cases e with
  | read buf i => exact Nat.lt_of_lt_of_le h (hle buf)
  | write buf i x => exact Nat.lt_of_lt_of_le h (hle buf)

/-- Every image that the host accepts becomes a worker of the size that it asks for: the arguments
come through, and the worker's kernel stays in its matrices, ends and computes their product. -/
theorem macWorker_computes {R : Type u} [Semiring R] (a b cells : Nat → R) {image exe : String}
    {n : Nat} (h : parseTask image = .ok (.gemm n)) (port : Int) :
    (∃ p, macWorker (workerArgs exe n port) = some (n, p) ∧
      (0 ≤ port ∧ port < 2 ^ 16 → (p : Int) = port)) ∧ workerRuns n ∧
    ∀ acts s, (simdGemm a b (.ofNat n)).exec (simdGemm a b (.ofNat n)).init acts = some s →
      (∀ e ∈ s.log, e.InBounds fun _ => n * n) ∧
      (∃ more s', (simdGemm a b (.ofNat n)).exec s more = some s' ∧
        (simdGemm a b (.ofNat n)).Stuck s') ∧
      ((simdGemm a b (.ofNat n)).Stuck s → ∀ row < n, ∀ col < n,
        stored cells (s.log.filterMap (Access.written .c)) (row * n + col) = entry a b n row col) := by
  obtain ⟨hargs, hruns⟩ := @macWorker_workerArgs image exe n h port
  obtain ⟨⟨hlow, hhigh⟩, height⟩ := parseTask_size h
  have hsize := toNat_ofNat_size hhigh
  refine ⟨⟨_, hargs, fun hport => ?_⟩, hruns, fun acts s hexec => ?_⟩
  · rw [if_pos hport]
    exact Int.toNat_of_nonneg hport.1
  · have hsquare : (UInt32.ofNat n).toNat * (UInt32.ofNat n).toNat ≤ 2 ^ 32 := by
      rw [hsize]
      exact (Nat.mul_le_mul hhigh hhigh).trans (by decide)
    obtain ⟨hsafe, hfinish, hproduct⟩ := simdGemm_correct a b cells hsquare
      (by rw [hsize]; exact height) hexec
    have hfit : ∀ buf, gemmSize (UInt32.ofNat n) buf ≤ n * n := by
      have hmul := Nat.mul_le_mul hlow hlow
      intro buf
      cases buf <;> simp only [gemmSize, hsize] <;> omega
    rw [hsize] at hproduct
    exact ⟨fun e he => inBounds_mono (hsafe e he) hfit, hfinish, hproduct⟩

theorem macWorker_computes_256 :
    (∃ p, macWorker (workerArgs "vgpu-agent" 256 40001) = some (256, p) ∧ (p : Int) = 40001) ∧
    ∃ acts s, (simdGemm (fun i => (i : Int)) (fun _ => 1) (.ofNat 256)).exec
        (simdGemm (fun i => (i : Int)) (fun _ => 1) (.ofNat 256)).init acts = some s ∧
      stored (fun _ => 0) (s.log.filterMap (Access.written .c)) (0 * 256 + 7) =
        entry (fun i => (i : Int)) (fun _ => 1) 256 0 7 := by
  have accepted : parseTask "metal:gemm:+0256" = .ok (.gemm 256) := by decide +kernel
  obtain ⟨⟨p, hargs, hport⟩, -, hruns⟩ := @macWorker_computes Int _ (fun i => i) (fun _ => 1)
    (fun _ => 0) "metal:gemm:+0256" "vgpu-agent" 256 accepted 40001
  obtain ⟨-, ⟨acts, s, hexec, hstuck⟩, -⟩ := hruns [] _ (Kernel.exec_nil _ _)
  obtain ⟨-, -, hproduct⟩ := hruns acts s hexec
  exact ⟨⟨p, hargs, hport (by decide)⟩, acts, s, hexec,
    hproduct hstuck 0 (by decide) 7 (by decide)⟩

end GpuMarket
