import GpuMarket.HostAgent.Benchmark
import Mathlib.Data.Multiset.MapFold

namespace GpuMarket

section Bytes

theorem asBytes_injective : Function.Injective asBytes := by
  intro s t h
  exact String.toByteArray_inj.mp (ByteArray.ext (Array.toList_inj.mp h))

theorem asBytes_append (s t : String) : asBytes (s ++ t) = asBytes s ++ asBytes t := by
  simp [asBytes, String.toByteArray_append]

theorem strLe_trans (r s t : String) (hrs : strLe r s) (hst : strLe s t) : strLe r t := by
  simp only [strLe, decide_eq_true_eq] at *
  exact List.le_trans hrs hst

theorem strLe_total (s t : String) : strLe s t || strLe t s := by
  simpa [strLe] using List.le_total (asBytes s) (asBytes t)

theorem strLe_antisymm (s t : String) (hst : strLe s t) (hts : strLe t s) : s = t := by
  simp only [strLe, decide_eq_true_eq] at *
  exact asBytes_injective (List.le_antisymm hst hts)

end Bytes

namespace GpuInfo

def key (g : GpuInfo) : String × String × String := (g.name, g.uuid, g.pciBusId)

structure Plain (g : GpuInfo) : Prop where
  name : '|' ∉ g.name.toList ∧ '\x00' ∉ g.name.toList
  uuid : '|' ∉ g.uuid.toList ∧ '\x00' ∉ g.uuid.toList
  pciBusId : '|' ∉ g.pciBusId.toList ∧ '\x00' ∉ g.pciBusId.toList

theorem tuple_toList (g : GpuInfo) :
    g.tuple.toList = g.name.toList ++ '|' :: (g.uuid.toList ++ '|' :: g.pciBusId.toList) := by
  simp [tuple]

theorem Plain.nul_notMem_tuple {g : GpuInfo} (h : g.Plain) : '\x00' ∉ g.tuple.toList := by
  simp [tuple_toList, h.name.2, h.uuid.2, h.pciBusId.2]

theorem Plain.tuple_inj {g g' : GpuInfo} (h : g.Plain) (h' : g'.Plain) :
    g.tuple = g'.tuple ↔ g.key = g'.key := by
  constructor
  · intro heq
    have hlist := congrArg String.toList heq
    rw [tuple_toList, tuple_toList] at hlist
    obtain ⟨hname, hrest⟩ := Lib.append_sep_inj h.name.1 h'.name.1 hlist
    obtain ⟨huuid, hpci⟩ := Lib.append_sep_inj h.uuid.1 h'.uuid.1 hrest
    simp [key, String.toList_inj.mp hname, String.toList_inj.mp huuid, String.toList_inj.mp hpci]
  · intro heq
    simp only [key, Prod.mk.injEq] at heq
    simp [tuple, heq]

end GpuInfo

theorem flatMap_asBytes (ts : List String) :
    (ts.flatMap fun t => asBytes t ++ [0]) =
      asBytes (String.ofList (Lib.terminated '\x00' (ts.map String.toList))) := by
  induction ts with
  | nil => rfl
  | cons t ts ih =>
    have hnul : asBytes (String.ofList ['\x00']) = [0] := by decide +kernel
    have hsplit : String.ofList (Lib.terminated '\x00' ((t :: ts).map String.toList)) =
        t ++ (String.ofList ['\x00'] ++
          String.ofList (Lib.terminated '\x00' (ts.map String.toList))) := by
      rw [← String.toList_inj]
      simp
    rw [List.flatMap_cons, ih, hsplit, asBytes_append, asBytes_append, hnul, List.append_assoc]

theorem mem_sorted {gpus : List GpuInfo} (h : ∀ g ∈ gpus, g.Plain) :
    ∀ r ∈ ((gpus.map GpuInfo.tuple).mergeSort strLe).map String.toList, '\x00' ∉ r := by
  intro r hr
  obtain ⟨t, ht, rfl⟩ := List.mem_map.mp hr
  obtain ⟨g, hg, rfl⟩ := List.mem_map.mp (List.mem_mergeSort.mp ht)
  exact (h g hg).nul_notMem_tuple

/-- The stream can be cut into its records again, and the records are sorted. -/
theorem fingerprintStream_eq_iff {xs ys : List GpuInfo} (hxs : ∀ g ∈ xs, g.Plain)
    (hys : ∀ g ∈ ys, g.Plain) :
    fingerprintStream xs = fingerprintStream ys ↔
      (xs.map GpuInfo.tuple).Perm (ys.map GpuInfo.tuple) := by
  rw [← Lib.mergeSort_eq_iff_perm strLe_trans strLe_total strLe_antisymm]
  constructor
  · intro h
    simp only [fingerprintStream, flatMap_asBytes] at h
    have hrecords := String.ofList_injective (asBytes_injective h)
    exact List.map_injective_iff.mpr (fun _ _ => String.toList_inj.mp)
      (Lib.terminated_inj (mem_sorted hxs) (mem_sorted hys) hrecords)
  · intro h
    rw [fingerprintStream, fingerprintStream, h]

theorem perm_tuple_iff {xs ys : List GpuInfo} (hxs : ∀ g ∈ xs, g.Plain)
    (hys : ∀ g ∈ ys, g.Plain) :
    (xs.map GpuInfo.tuple).Perm (ys.map GpuInfo.tuple) ↔
      (xs.map GpuInfo.key).Perm (ys.map GpuInfo.key) :=
  ⟨Lib.perm_map_of_perm_map fun _ ha _ hb => ((hxs _ ha).tuple_inj (hys _ hb)).mp,
    Lib.perm_map_of_perm_map fun _ ha _ hb => ((hxs _ ha).tuple_inj (hys _ hb)).mpr⟩

/-- The fingerprint identifies exactly the GPUs: two lists have the same one if and only if they
hold the same names, UUIDs and PCI bus ids, each as often. -/
theorem fingerprint_eq_iff {sha256 : List UInt8 → List UInt8} (hsha : Function.Injective sha256)
    {xs ys : List GpuInfo} (hxs : ∀ g ∈ xs, g.Plain) (hys : ∀ g ∈ ys, g.Plain) :
    fingerprint sha256 xs = fingerprint sha256 ys ↔
      (xs.map GpuInfo.key : Multiset (String × String × String)) = ys.map GpuInfo.key := by
  have hstream : fingerprint sha256 xs = fingerprint sha256 ys ↔
      fingerprintStream xs = fingerprintStream ys := (hexString_injective.comp hsha).eq_iff
  rw [hstream, fingerprintStream_eq_iff hxs hys, perm_tuple_iff hxs hys]
  exact Multiset.coe_eq_coe.symm

theorem probe_perm {sha256 : List UInt8 → List UInt8} {toLowercase : String → String}
    {xs ys : List GpuInfo} (h : xs.Perm ys) {inv inv' : Inventory}
    (hx : probe sha256 toLowercase (.ok xs) = .ok inv)
    (hy : probe sha256 toLowercase (.ok ys) = .ok inv') :
    inv.gpuCount = inv'.gpuCount ∧ inv.dlperf = inv'.dlperf ∧
      inv.hwFingerprint = inv'.hwFingerprint := by
  obtain ⟨hgpus, -, hperf, hfp⟩ := probe_ok hx
  obtain ⟨hgpus', -, hperf', hfp'⟩ := probe_ok hy
  rw [Except.ok.inj hgpus, Except.ok.inj hgpus'] at h
  refine ⟨?_, ?_, ?_⟩
  · exact congrArg (fun n : Nat => (n : Int).bmod (2 ^ 32)) h.length_eq
  · rw [hperf, hperf']
    exact (h.map _).sum_eq
  · have hsorted := (Lib.mergeSort_eq_iff_perm strLe_trans strLe_total strLe_antisymm).mpr
      (h.map GpuInfo.tuple)
    rw [hfp, hfp', fingerprint, fingerprint, fingerprintStream, fingerprintStream, hsorted]

def Homogeneous (gpus : List GpuInfo) : Prop :=
  ∀ g ∈ gpus, ∀ g' ∈ gpus, g.name = g'.name ∧ g.vramMb = g'.vramMb

theorem Homogeneous.head_eq {xs ys : List GpuInfo} (hsame : Homogeneous xs) (h : xs.Perm ys) :
    xs.head?.map (·.name) = ys.head?.map (·.name) ∧
      xs.head?.map (·.vramMb) = ys.head?.map (·.vramMb) := by
  cases xs with
  | nil =>
    rw [h.nil_eq]
    exact ⟨rfl, rfl⟩
  | cons x xs =>
    cases ys with
    | nil => exact absurd h.length_eq (by simp)
    | cons y ys =>
      obtain ⟨hname, hvram⟩ := hsame x List.mem_cons_self y (h.symm.subset List.mem_cons_self)
      exact ⟨congrArg some hname, congrArg some hvram⟩

theorem registerRequest_perm {sha256 : List UInt8 → List UInt8} {toLowercase : String → String}
    {xs ys : List GpuInfo} (h : xs.Perm ys) (hsame : Homogeneous xs) {inv inv' : Inventory}
    (hx : probe sha256 toLowercase (.ok xs) = .ok inv)
    (hy : probe sha256 toLowercase (.ok ys) = .ok inv') (args : Args) (specs : HostSpecs)
    (hostId : String) :
    inv.registerRequest args specs hostId = inv'.registerRequest args specs hostId := by
  obtain ⟨hcount, hperf, hfp⟩ := probe_perm h hx hy
  obtain ⟨hname, hvram⟩ := hsame.head_eq h
  rw [Except.ok.inj (probe_ok hx).1, Except.ok.inj (probe_ok hy).1] at hname hvram
  have hgpuName : inv.gpuName = inv'.gpuName := congrArg (·.getD "unknown") hname
  have hvramMb : inv.vramMb = inv'.vramMb := congrArg (·.getD 0) hvram
  rw [Inventory.registerRequest, Inventory.registerRequest, hgpuName, hcount, hvramMb, hperf, hfp]

section Boards

def boardA : GpuInfo :=
  { name := "RTX 4090", uuid := "GPU-aaa", pciBusId := "00000000:01:00.0", vramMb := 24564 }

def boardB : GpuInfo :=
  { name := "RTX 4090", uuid := "GPU-bbb", pciBusId := "00000000:02:00.0", vramMb := 24564 }

def boardsStream : List UInt8 :=
  asBytes "RTX 4090|GPU-aaa|00000000:01:00.0\x00RTX 4090|GPU-bbb|00000000:02:00.0\x00"

def boardsDigest : List UInt8 :=
  [181, 33, 136, 150, 122, 134, 157, 53, 144, 14, 16, 195, 232, 42, 152, 81, 7, 130, 0, 234, 142,
    208, 151, 244, 92, 47, 13, 19, 160, 108, 9, 46]

/-- SHA-256 on the stream of the two boards, and longer than it on any other. -/
def boardsHash (bs : List UInt8) : List UInt8 :=
  if bs = boardsStream then boardsDigest else List.replicate 33 0 ++ bs

theorem boardsHash_injective : Function.Injective boardsHash := by
  have hlong : ∀ bs : List UInt8, boardsDigest ≠ List.replicate 33 0 ++ bs := by
    intro bs h
    have hlen := congrArg List.length h
    simp only [boardsDigest, List.length_append, List.length_replicate, List.length_cons,
      List.length_nil] at hlen
    omega
  intro bs cs h
  by_cases hb : bs = boardsStream <;> by_cases hc : cs = boardsStream
  · rw [hb, hc]
  · rw [boardsHash, if_pos hb, boardsHash, if_neg hc] at h
    exact absurd h (hlong cs)
  · rw [boardsHash, if_neg hb, boardsHash, if_pos hc] at h
    exact absurd h.symm (hlong bs)
  · rw [boardsHash, if_neg hb, boardsHash, if_neg hc] at h
    exact List.append_cancel_left h

theorem boards_plain : ∀ g ∈ [boardA, boardB], g.Plain := by
  intro g hg
  rcases List.mem_pair.mp hg with rfl | rfl <;> constructor <;> decide +kernel

theorem fingerprintStream_boards : fingerprintStream [boardA, boardB] = boardsStream := by
  have hsorted : [boardA.tuple, boardB.tuple].mergeSort strLe = [boardA.tuple, boardB.tuple] :=
    List.mergeSort_of_pairwise (by decide +kernel)
  rw [fingerprintStream, List.map_cons, List.map_cons, List.map_nil, hsorted]
  decide +kernel

theorem fingerprint_boards :
    fingerprint boardsHash [boardA, boardB] =
        "b52188967a869d35900e10c3e82a9851078200ea8ed097f45c2f0d13a06c092e" ∧
      fingerprint boardsHash [boardA, boardB] = fingerprint boardsHash [boardB, boardA] := by
  constructor
  · rw [fingerprint, fingerprintStream_boards]
    decide +kernel
  · exact (fingerprint_eq_iff boardsHash_injective boards_plain
      fun g hg => boards_plain g ((List.Perm.swap boardA boardB []).subset hg)).mpr
      (Multiset.coe_eq_coe.mpr (List.Perm.swap _ _ []))

end Boards

end GpuMarket
