import GpuMarket.Core.Model
import Mathlib.Algebra.Order.Ring.Unbundled.Rat

namespace GpuMarket

structure RegisterRequest where
  hostId : String
  gpuName : String
  gpuCount : Int
  vramMb : Int
  cpuName : String
  cpuCores : Int
  ramMb : Int
  diskGb : Int
  diskType : DiskType
  publicIp : String
  portStart : Int
  portEnd : Int
  inetDownMbps : Option ℚ
  inetUpMbps : Option ℚ
  country : Option String
  dlperf : ℚ
  rateSatsPerMin : Int
  hwFingerprint : String

structure HeartbeatRequest where
  online : Bool

inductive Command
  | startRental (rentalId : Int) (image sshPubkey : String)
  | stopRental (rentalId : Int)
  deriving DecidableEq, Repr

def Command.rentalId : Command → Int
  | .startRental id _ _ => id
  | .stopRental id => id

structure ReportRequest where
  rentalId : Int
  status : RentalStatus
  kind : Option RentalKind := none
  sshPort : Option Int := none
  containerId : Option String := none
  error : Option String := none
  deriving DecidableEq, Repr

structure RateRequest where
  rateSatsPerMin : Int

structure PayoutRequest where
  bolt11 : String

structure DepositRequest where
  sats : Int

structure CreateRentalRequest where
  machineId : Int
  accountId : String
  image : String
  sshPubkey : Option String

structure OffersQuery where
  gpuName : Option String := none
  minVramMb : Option Int := none
  minGpuCount : Option Int := none
  maxRateSatsPerMin : Option Int := none
  sort : Option String := none
  limit : Option Int := none

structure Offer where
  machineId : Int
  gpuName : String
  gpuCount : Int
  vramMb : Int
  cpuName : String
  cpuCores : Int
  ramMb : Int
  diskGb : Int
  diskType : DiskType
  publicIp : String
  country : Option String
  inetDownMbps : Option ℚ
  inetUpMbps : Option ℚ
  dlperf : ℚ
  rateSatsPerMin : Int
  rateSatsPerHour : Int

structure AccountResponse where
  accountId : String
  balanceSats : Int
  burnSatsPerMin : Int
  runwayMinutes : Option Int

/-- `GET /rentals/{id}`: the row without its `ssh_pubkey`. -/
structure RentalResponse where
  id : Int
  machineId : Int
  accountId : String
  image : String
  status : RentalStatus
  kind : RentalKind
  gpuName : String
  gpuCount : Int
  sshHost : Option String
  sshPort : Option Int
  sshCommand : Option String
  rateSatsPerMin : Int
  satsCharged : Int
  minutesBilled : Int
  paidThrough : Int
  error : Option String
  createdAt : Int
  endedAt : Option Int

/-- The body of a successful response. -/
inductive Reply
  | ok
  | registered (machineId : Int) (agentToken : String)
  | commands (commands : List Command)
  | paid (paidSats : Int)
  | account (accountId : String)
  | invoice (bolt11 paymentHash : String) (sats : Int)
  | rental (rentalId : Int) (status : RentalStatus) (rateSatsPerMin : Int)
  | rentalStatus (rentalId : Int) (status : String)
  | offers (offers : List Offer)
  | accountDetails (account : AccountResponse)
  | rentalDetails (rental : RentalResponse)
  | health (lnBackend : String)

structure Invoice where
  bolt11 : String
  paymentHash : String
  deriving DecidableEq, Repr

inductive StatusCode
  | badRequest | unauthorized | paymentRequired | notFound | conflict | internalServerError
  | badGateway
  deriving DecidableEq, Repr

/-- What a statement can fail with, as far as the control plane tells it apart. -/
inductive SqlxError
  | rowNotFound
  | database (code : Nat) (message : String)
  deriving DecidableEq, Repr

inductive ErrorMessage
  | text (s : String)
  | database (e : SqlxError)
  | serialization
  | invoiceCreationFailed
  | payoutFailed
  deriving DecidableEq, Repr

structure ApiError where
  status : StatusCode
  message : ErrorMessage
  deriving DecidableEq, Repr

namespace ApiError

def notFound (m : String) : ApiError := ⟨.notFound, .text m⟩
def conflict (m : String) : ApiError := ⟨.conflict, .text m⟩
def paymentRequired (m : String) : ApiError := ⟨.paymentRequired, .text m⟩
def badRequest (m : String) : ApiError := ⟨.badRequest, .text m⟩
def unauthorized (m : String) : ApiError := ⟨.unauthorized, .text m⟩

/-- `impl From<sqlx::Error> for ApiError`. -/
def ofSqlx (e : SqlxError) : ApiError := ⟨.internalServerError, .database e⟩

/-- `impl From<serde_json::Error> for ApiError`. -/
def ofSerde : ApiError := ⟨.internalServerError, .serialization⟩

end ApiError

/-- `?` on a statement inside a handler. -/
def sql : Except SqlxError α → Except ApiError α := Except.mapError .ofSqlx

end GpuMarket
