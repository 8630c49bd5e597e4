import Mathlib.Data.List.Basic

namespace GpuMarket

inductive RentalStatus
  | provisioning | running | evicting | stopped | failed
  deriving DecidableEq, Repr

namespace RentalStatus

/-- The machine is held off the offer index. -/
def occupiesMachine : RentalStatus → Bool
  | .provisioning | .running | .evicting => true
  | .stopped | .failed => false

def isTerminal : RentalStatus → Bool
  | .stopped | .failed => true
  | .provisioning | .running | .evicting => false

def asStr : RentalStatus → String
  | .provisioning => "provisioning"
  | .running => "running"
  | .evicting => "evicting"
  | .stopped => "stopped"
  | .failed => "failed"

def all : List RentalStatus := [.provisioning, .running, .evicting, .stopped, .failed]

theorem mem_all (s : RentalStatus) : s ∈ all := by cases s <;> decide

theorem asStr_injective : Function.Injective asStr := by
  intro s t h
  cases s <;> cases t <;> first | rfl | exact absurd h (by decide)

@[simp] theorem occupiesMachine_eq_not_isTerminal (s : RentalStatus) :
    s.occupiesMachine = !s.isTerminal := by cases s <;> rfl

end RentalStatus

inductive DiskType
  | nvme | ssd | hdd | unknown
  deriving DecidableEq, Repr

inductive RentalKind
  | ssh | httpStatus | httpOpenai
  deriving DecidableEq, Repr

inductive LedgerKind
  | deposit | rentalCharge | hostCredit | payout | evict
  deriving DecidableEq, Repr

/-- `str::strip_prefix`. -/
def stripPrefix (pre s : String) : Option String :=
  if pre.toList.isPrefixOf s.toList then some (String.ofList (s.toList.drop pre.toList.length))
  else none

theorem stripPrefix_append (pre s : String) : stripPrefix pre (pre ++ s) = some s := by
  simp [stripPrefix, String.toList_append]

def isHttpStatusImage (image : String) : Bool := (stripPrefix "metal:" image).isSome

/-- The code points with the Unicode property `White_Space`. -/
def isWhitespace (c : Char) : Bool :=
  let n := c.toNat
  (0x09 ≤ n && n ≤ 0x0D) || n == 0x20 || n == 0x85 || n == 0xA0 || n == 0x1680 ||
    (0x2000 ≤ n && n ≤ 0x200A) || n == 0x2028 || n == 0x2029 || n == 0x202F || n == 0x205F ||
    n == 0x3000

/-- `str::trim`. -/
def trim (s : String) : String :=
  String.ofList ((s.toList.dropWhile isWhitespace).reverse.dropWhile isWhitespace).reverse

end GpuMarket
