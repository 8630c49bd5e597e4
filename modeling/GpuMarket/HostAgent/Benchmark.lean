import GpuMarket.Core.Api
import GpuMarket.Core.Hex
import Mathlib.Algebra.Order.Field.Rat
import Mathlib.Algebra.BigOperators.Group.List.Basic

namespace GpuMarket

structure GpuInfo where
  name : String
  uuid : String
  pciBusId : String
  /-- per-GPU VRAM in megabytes -/
  vramMb : Int
  deriving DecidableEq, Repr

structure Inventory where
  gpus : List GpuInfo
  dlperf : ℚ
  hwFingerprint : String

namespace Inventory

/-- `len() as i32`. -/
def gpuCount (inv : Inventory) : Int := (inv.gpus.length : Int).bmod (2 ^ 32)

def gpuName (inv : Inventory) : String := (inv.gpus.head?.map (·.name)).getD "unknown"

def vramMb (inv : Inventory) : Int := (inv.gpus.head?.map (·.vramMb)).getD 0

end Inventory

def asBytes (s : String) : List UInt8 := s.toByteArray.data.toList

/-- The order of strings is that of their bytes. -/
def strLe (s t : String) : Bool := decide (asBytes s ≤ asBytes t)

def GpuInfo.tuple (g : GpuInfo) : String := g.name ++ "|" ++ g.uuid ++ "|" ++ g.pciBusId

/-- The bytes that the hasher is fed. -/
def fingerprintStream (gpus : List GpuInfo) : List UInt8 :=
  ((gpus.map GpuInfo.tuple).mergeSort strLe).flatMap fun t => asBytes t ++ [0]

/-- SHA-256 over the sorted tuples, hex-encoded. -/
def fingerprint (sha256 : List UInt8 → List UInt8) (gpus : List GpuInfo) : String :=
  hexString (sha256 (fingerprintStream gpus))

/-- Measured fp16 GEMM throughput; there is no CUDA runtime on any build target. -/
def gemmScore : Option ℚ := none

def gpuTable : List (String × ℚ) :=
  [("h200", 320), ("h100", 300), ("a100", 160), ("l40s", 95), ("l40", 90), ("a40", 74),
    ("a30", 55), ("a10g", 32), ("a10", 30), ("l4", 24), ("v100", 28), ("t4", 16),
    ("rtx 6000 ada", 90), ("rtx a6000", 78), ("rtx a5000", 55), ("rtx a4000", 40),
    ("4090", 42), ("4080", 30), ("4070 ti", 26), ("4070", 20), ("3090 ti", 31), ("3090", 27),
    ("3080", 24), ("3070", 17), ("2080 ti", 16)]

def appleTable : List (String × ℚ) :=
  [("m3 ultra", 13), ("m2 ultra", 11), ("m1 ultra", 10), ("m4 max", 9), ("m3 max", 8),
    ("m2 max", 7), ("m1 max", 6), ("m4 pro", 6), ("m3 pro", 5), ("m2 pro", 4.5), ("m1 pro", 4),
    ("m4", 4), ("m3", 3), ("m2", 2.5), ("m1", 2)]

def scan (table : List (String × ℚ)) (fallback : ℚ) (lname : String) : ℚ :=
  ((table.find? fun row => lname.contains row.1).map (·.2)).getD fallback

def appleDlperf (lname : String) : ℚ := scan appleTable 3 lname

/-- The lower-case mapping of Unicode is a parameter. -/
def lookupDlperf (toLowercase : String → String) (name : String) : ℚ :=
  let lname := toLowercase name
  if lname.contains "apple" then appleDlperf lname else scan gpuTable 18 lname

def dlperf (toLowercase : String → String) (gpus : List GpuInfo) : ℚ :=
  match gemmScore with
  | some measured => measured
  | none => (gpus.map fun g => lookupDlperf toLowercase g.name).sum

/-- What the probe makes of the driver's inventory. -/
def probe (sha256 : List UInt8 → List UInt8) (toLowercase : String → String)
    (inventory : Except String (List GpuInfo)) : Except String Inventory :=
  match inventory with
  | .error e => .error e
  | .ok gpus =>
    if gpus.isEmpty then .error "no NVIDIA GPU detected — nothing to offer"
    else
      .ok
        { gpus
          dlperf := dlperf toLowercase gpus
          hwFingerprint := fingerprint sha256 gpus }

theorem probe_ok {sha256 : List UInt8 → List UInt8} {toLowercase : String → String}
    {inventory : Except String (List GpuInfo)} {inv : Inventory}
    (h : probe sha256 toLowercase inventory = .ok inv) :
    inventory = .ok inv.gpus ∧ inv.gpus ≠ [] ∧ inv.dlperf = dlperf toLowercase inv.gpus ∧
      inv.hwFingerprint = fingerprint sha256 inv.gpus := by
  cases inventory with
  | error e => cases h
  | ok gpus =>
    cases gpus with
    | nil => cases h
    | cons g gpus =>
      cases h
      exact ⟨rfl, List.cons_ne_nil g gpus, rfl, rfl⟩

/-- The arguments of the agent that it registers with. -/
structure Args where
  publicIp : String
  rateSatsPerMin : Int
  portStart : Int
  portEnd : Int
  country : Option String
  inetDownMbps : Option ℚ
  inetUpMbps : Option ℚ

structure HostSpecs where
  cpuName : String
  cpuCores : Int
  ramMb : Int
  diskGb : Int
  diskType : DiskType

def Inventory.registerRequest (inventory : Inventory) (args : Args) (specs : HostSpecs)
    (hostId : String) : RegisterRequest where
  hostId
  gpuName := inventory.gpuName
  gpuCount := inventory.gpuCount
  vramMb := inventory.vramMb
  cpuName := specs.cpuName
  cpuCores := specs.cpuCores
  ramMb := specs.ramMb
  diskGb := specs.diskGb
  diskType := specs.diskType
  publicIp := args.publicIp
  portStart := args.portStart
  portEnd := args.portEnd
  inetDownMbps := args.inetDownMbps
  inetUpMbps := args.inetUpMbps
  country := args.country
  dlperf := inventory.dlperf
  rateSatsPerMin := args.rateSatsPerMin
  hwFingerprint := inventory.hwFingerprint

end GpuMarket
