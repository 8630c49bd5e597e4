import GpuMarket.Lib.Document
import GpuMarket.Core.Api

namespace GpuMarket

open Lib Json

structure RegisterResponse where
  machineId : Int
  agentToken : String

structure HeartbeatResponse where
  commands : List Command

structure PayoutResponse where
  paidSats : Int

structure OffersResponse where
  offers : List Offer

structure CreateAccountResponse where
  accountId : String

structure DepositResponse where
  bolt11 : String
  paymentHash : String
  sats : Int

structure CreateRentalResponse where
  rentalId : Int
  status : RentalStatus
  rateSatsPerMin : Int

structure HealthResponse where
  ok : Bool
  lnBackend : String

section Enums

/-- `#[serde(rename_all = "lowercase")]`. -/
def DiskType.asStr : DiskType → String
  | .nvme => "nvme"
  | .ssd => "ssd"
  | .hdd => "hdd"
  | .unknown => "unknown"

theorem DiskType.asStr_injective : Function.Injective asStr := by
  intro s t h
  cases s <;> cases t <;> first | rfl | exact absurd h (by decide)

/-- `#[serde(rename_all = "snake_case")]`. -/
def RentalKind.asStr : RentalKind → String
  | .ssh => "ssh"
  | .httpStatus => "http_status"
  | .httpOpenai => "http_openai"

theorem RentalKind.asStr_injective : Function.Injective asStr := by
  intro s t h
  cases s <;> cases t <;> first | rfl | exact absurd h (by decide)

variable (serde : Derive)

def RentalStatus.codec : Codec RentalStatus := serde.enum asStr all asStr_injective mem_all

def DiskType.codec : Codec DiskType :=
  serde.enum asStr [.nvme, .ssd, .hdd, .unknown] asStr_injective (by intro t; cases t <;> decide)

def RentalKind.codec : Codec RentalKind :=
  serde.enum asStr [.ssh, .httpStatus, .httpOpenai] asStr_injective (by intro k; cases k <;> decide)

theorem RentalKind.fits_codec (k : RentalKind) : (codec serde).Fits k := serde.fits_enum ..

theorem RentalKind.encode_ne_null (k : RentalKind) (_ : (codec serde).Fits k) :
    (codec serde).encode k ≠ .null := serde.encode_enum_ne_null k

end Enums

section Fields

open Fields Codec

/-! Optional fields are left out for `none`. -/

variable (serde : Derive)

def optionalStr (name : String) : Fields (Option String) :=
  optional name serde.str serde.str_ne_null

def optionalI32 (name : String) : Fields (Option Int) :=
  optional name serde.i32 serde.i32_ne_null

def optionalI64 (name : String) : Fields (Option Int) :=
  optional name serde.i64 serde.i64_ne_null

def optionalF64 (name : String) : Fields (Option ℚ) :=
  optional name serde.float serde.float_ne_null

@[simp] theorem names_optionalStr (name : String) : (optionalStr serde name).names = [name] := rfl

@[simp] theorem names_optionalI32 (name : String) : (optionalI32 serde name).names = [name] := rfl

@[simp] theorem names_optionalI64 (name : String) : (optionalI64 serde name).names = [name] := rfl

@[simp] theorem names_optionalF64 (name : String) : (optionalF64 serde name).names = [name] := rfl

namespace RegisterRequest

def fields : Fields RegisterRequest :=
  iso
    (both (required "host_id" serde.str) <|
      both (required "gpu_name" serde.str) <|
      both (required "gpu_count" serde.i32) <|
      both (required "vram_mb" serde.i64) <|
      both (required "cpu_name" serde.str) <|
      both (required "cpu_cores" serde.i32) <|
      both (required "ram_mb" serde.i64) <|
      both (required "disk_gb" serde.i64) <|
      both (required "disk_type" (DiskType.codec serde)) <|
      both (required "public_ip" serde.str) <|
      both (required "port_start" serde.i32) <|
      both (required "port_end" serde.i32) <|
      both (optionalF64 serde "inet_down_mbps") <|
      both (optionalF64 serde "inet_up_mbps") <|
      both (optionalStr serde "country") <|
      both (required "dlperf" serde.float) <|
      both (required "rate_sats_per_min" serde.i64) <|
      required "hw_fingerprint" serde.str)
    (fun (hostId, gpuName, gpuCount, vramMb, cpuName, cpuCores, ramMb, diskGb, diskType, publicIp,
      portStart, portEnd, inetDownMbps, inetUpMbps, country, dlperf, rateSatsPerMin,
      hwFingerprint) =>
        { hostId, gpuName, gpuCount, vramMb, cpuName, cpuCores, ramMb, diskGb, diskType, publicIp,
          portStart, portEnd, inetDownMbps, inetUpMbps, country, dlperf, rateSatsPerMin,
          hwFingerprint })
    (fun r => (r.hostId, r.gpuName, r.gpuCount, r.vramMb, r.cpuName, r.cpuCores, r.ramMb, r.diskGb,
      r.diskType, r.publicIp, r.portStart, r.portEnd, r.inetDownMbps, r.inetUpMbps, r.country,
      r.dlperf, r.rateSatsPerMin, r.hwFingerprint))

end RegisterRequest

def RegisterResponse.fields : Fields RegisterResponse :=
  iso (both (required "machine_id" serde.i64) <| required "agent_token" serde.str)
    (fun (machineId, agentToken) => { machineId, agentToken })
    (fun r => (r.machineId, r.agentToken))

def HeartbeatRequest.fields : Fields HeartbeatRequest :=
  iso (required "online" serde.bool) HeartbeatRequest.mk HeartbeatRequest.online

namespace Command

/-- `#[serde(tag = "cmd", rename_all = "snake_case")]`. -/
def startRentalFields : Fields (Unit × Int × String × String) :=
  both (required "cmd" (word "start_rental")) <|
    both (required "rental_id" serde.i64) <|
    both (required "image" serde.str) <|
    required "ssh_pubkey" serde.str

def stopRentalFields : Fields (Unit × Int) :=
  both (required "cmd" (word "stop_rental")) <| required "rental_id" serde.i64

def fields : Fields Command :=
  iso (either (startRentalFields serde) (stopRentalFields serde) fun _ => rfl)
    (fun
      | .inl (_, rentalId, image, sshPubkey) => .startRental rentalId image sshPubkey
      | .inr (_, rentalId) => .stopRental rentalId)
    (fun
      | .startRental rentalId image sshPubkey => .inl ((), rentalId, image, sshPubkey)
      | .stopRental rentalId => .inr ((), rentalId))
    (by rintro ⟨⟩ <;> rfl) (by rintro (_ | _) <;> rfl)

end Command

def HeartbeatResponse.fields : Fields HeartbeatResponse :=
  iso (required "commands" (serde.list (serde.object (Command.fields serde)))) HeartbeatResponse.mk
    HeartbeatResponse.commands

def ReportRequest.fields : Fields ReportRequest :=
  iso
    (both (required "rental_id" serde.i64) <|
      both (required "status" (RentalStatus.codec serde)) <|
      both (optional "kind" (RentalKind.codec serde) (RentalKind.encode_ne_null serde)) <|
      both (optionalI32 serde "ssh_port") <|
      both (optionalStr serde "container_id") <|
      optionalStr serde "error")
    (fun (rentalId, status, kind, sshPort, containerId, error) =>
      { rentalId, status, kind, sshPort, containerId, error })
    (fun r => (r.rentalId, r.status, r.kind, r.sshPort, r.containerId, r.error))

def RateRequest.fields : Fields RateRequest :=
  iso (required "rate_sats_per_min" serde.i64) RateRequest.mk RateRequest.rateSatsPerMin

def PayoutRequest.fields : Fields PayoutRequest :=
  iso (required "bolt11" serde.str) PayoutRequest.mk PayoutRequest.bolt11

def PayoutResponse.fields : Fields PayoutResponse :=
  iso (required "paid_sats" serde.i64) PayoutResponse.mk PayoutResponse.paidSats

def Offer.fields : Fields Offer :=
  iso
    (both (required "machine_id" serde.i64) <|
      both (required "gpu_name" serde.str) <|
      both (required "gpu_count" serde.i32) <|
      both (required "vram_mb" serde.i64) <|
      both (required "cpu_name" serde.str) <|
      both (required "cpu_cores" serde.i32) <|
      both (required "ram_mb" serde.i64) <|
      both (required "disk_gb" serde.i64) <|
      both (required "disk_type" (DiskType.codec serde)) <|
      both (required "public_ip" serde.str) <|
      both (optionalStr serde "country") <|
      both (optionalF64 serde "inet_down_mbps") <|
      both (optionalF64 serde "inet_up_mbps") <|
      both (required "dlperf" serde.float) <|
      both (required "rate_sats_per_min" serde.i64) <|
      required "rate_sats_per_hour" serde.i64)
    (fun (machineId, gpuName, gpuCount, vramMb, cpuName, cpuCores, ramMb, diskGb, diskType,
      publicIp, country, inetDownMbps, inetUpMbps, dlperf, rateSatsPerMin, rateSatsPerHour) =>
        { machineId, gpuName, gpuCount, vramMb, cpuName, cpuCores, ramMb, diskGb, diskType,
          publicIp, country, inetDownMbps, inetUpMbps, dlperf, rateSatsPerMin, rateSatsPerHour })
    (fun o => (o.machineId, o.gpuName, o.gpuCount, o.vramMb, o.cpuName, o.cpuCores, o.ramMb,
      o.diskGb, o.diskType, o.publicIp, o.country, o.inetDownMbps, o.inetUpMbps, o.dlperf,
      o.rateSatsPerMin, o.rateSatsPerHour))

def OffersResponse.fields : Fields OffersResponse :=
  iso (required "offers" (serde.list (serde.object (Offer.fields serde)))) OffersResponse.mk
    OffersResponse.offers

def CreateAccountResponse.fields : Fields CreateAccountResponse :=
  iso (required "account_id" serde.str) CreateAccountResponse.mk CreateAccountResponse.accountId

def AccountResponse.fields : Fields AccountResponse :=
  iso
    (both (required "account_id" serde.str) <|
      both (required "balance_sats" serde.i64) <|
      both (required "burn_sats_per_min" serde.i64) <|
      optionalI64 serde "runway_minutes")
    (fun (accountId, balanceSats, burnSatsPerMin, runwayMinutes) =>
      { accountId, balanceSats, burnSatsPerMin, runwayMinutes })
    (fun a => (a.accountId, a.balanceSats, a.burnSatsPerMin, a.runwayMinutes))

def DepositRequest.fields : Fields DepositRequest :=
  iso (required "sats" serde.i64) DepositRequest.mk DepositRequest.sats

def DepositResponse.fields : Fields DepositResponse :=
  iso
    (both (required "bolt11" serde.str) <|
      both (required "payment_hash" serde.str) <|
      required "sats" serde.i64)
    (fun (bolt11, paymentHash, sats) => { bolt11, paymentHash, sats })
    (fun d => (d.bolt11, d.paymentHash, d.sats))

def CreateRentalRequest.fields : Fields CreateRentalRequest :=
  iso
    (both (required "machine_id" serde.i64) <|
      both (required "account_id" serde.str) <|
      both (required "image" serde.str) <|
      optionalStr serde "ssh_pubkey")
    (fun (machineId, accountId, image, sshPubkey) => { machineId, accountId, image, sshPubkey })
    (fun r => (r.machineId, r.accountId, r.image, r.sshPubkey))

def CreateRentalResponse.fields : Fields CreateRentalResponse :=
  iso
    (both (required "rental_id" serde.i64) <|
      both (required "status" (RentalStatus.codec serde)) <|
      required "rate_sats_per_min" serde.i64)
    (fun (rentalId, status, rateSatsPerMin) => { rentalId, status, rateSatsPerMin })
    (fun r => (r.rentalId, r.status, r.rateSatsPerMin))

def RentalResponse.fields : Fields RentalResponse :=
  iso
    (both (required "id" serde.i64) <|
      both (required "machine_id" serde.i64) <|
      both (required "account_id" serde.str) <|
      both (required "image" serde.str) <|
      both (required "status" (RentalStatus.codec serde)) <|
      both (defaulted "kind" (RentalKind.codec serde) .ssh (RentalKind.fits_codec serde .ssh)) <|
      both (required "gpu_name" serde.str) <|
      both (required "gpu_count" serde.i32) <|
      both (optionalStr serde "ssh_host") <|
      both (optionalI32 serde "ssh_port") <|
      both (optionalStr serde "ssh_command") <|
      both (required "rate_sats_per_min" serde.i64) <|
      both (required "sats_charged" serde.i64) <|
      both (required "minutes_billed" serde.i64) <|
      both (required "paid_through" serde.i64) <|
      both (optionalStr serde "error") <|
      both (required "created_at" serde.i64) <|
      optionalI64 serde "ended_at")
    (fun (id, machineId, accountId, image, status, kind, gpuName, gpuCount, sshHost, sshPort,
      sshCommand, rateSatsPerMin, satsCharged, minutesBilled, paidThrough, error, createdAt,
      endedAt) =>
        { id, machineId, accountId, image, status, kind, gpuName, gpuCount, sshHost, sshPort,
          sshCommand, rateSatsPerMin, satsCharged, minutesBilled, paidThrough, error, createdAt,
          endedAt })
    (fun r => (r.id, r.machineId, r.accountId, r.image, r.status, r.kind, r.gpuName, r.gpuCount,
      r.sshHost, r.sshPort, r.sshCommand, r.rateSatsPerMin, r.satsCharged, r.minutesBilled,
      r.paidThrough, r.error, r.createdAt, r.endedAt))

def HealthResponse.fields : Fields HealthResponse :=
  iso (both (required "ok" serde.bool) <| required "ln_backend" serde.str)
    (fun (ok, lnBackend) => { ok, lnBackend })
    (fun h => (h.ok, h.lnBackend))

end Fields

inductive Dto
  | registerRequest | registerResponse | heartbeatRequest | heartbeatResponse | command
  | reportRequest | rateRequest | payoutRequest | payoutResponse | offer | offersResponse
  | createAccountResponse | accountResponse | depositRequest | depositResponse
  | createRentalRequest | createRentalResponse | rentalResponse | healthResponse
  deriving DecidableEq, Repr

namespace Dto

abbrev Body : Dto → Type
  | .registerRequest => RegisterRequest
  | .registerResponse => RegisterResponse
  | .heartbeatRequest => HeartbeatRequest
  | .heartbeatResponse => HeartbeatResponse
  | .command => Command
  | .reportRequest => ReportRequest
  | .rateRequest => RateRequest
  | .payoutRequest => PayoutRequest
  | .payoutResponse => PayoutResponse
  | .offer => Offer
  | .offersResponse => OffersResponse
  | .createAccountResponse => CreateAccountResponse
  | .accountResponse => AccountResponse
  | .depositRequest => DepositRequest
  | .depositResponse => DepositResponse
  | .createRentalRequest => CreateRentalRequest
  | .createRentalResponse => CreateRentalResponse
  | .rentalResponse => RentalResponse
  | .healthResponse => HealthResponse

def fields (serde : Derive) : (d : Dto) → Fields d.Body
  | .registerRequest => RegisterRequest.fields serde
  | .registerResponse => RegisterResponse.fields serde
  | .heartbeatRequest => HeartbeatRequest.fields serde
  | .heartbeatResponse => HeartbeatResponse.fields serde
  | .command => Command.fields serde
  | .reportRequest => ReportRequest.fields serde
  | .rateRequest => RateRequest.fields serde
  | .payoutRequest => PayoutRequest.fields serde
  | .payoutResponse => PayoutResponse.fields serde
  | .offer => Offer.fields serde
  | .offersResponse => OffersResponse.fields serde
  | .createAccountResponse => CreateAccountResponse.fields serde
  | .accountResponse => AccountResponse.fields serde
  | .depositRequest => DepositRequest.fields serde
  | .depositResponse => DepositResponse.fields serde
  | .createRentalRequest => CreateRentalRequest.fields serde
  | .createRentalResponse => CreateRentalResponse.fields serde
  | .rentalResponse => RentalResponse.fields serde
  | .healthResponse => HealthResponse.fields serde

/-- `Serialize` and `Deserialize`. -/
def codec (serde : Derive) (d : Dto) : Codec d.Body := serde.object (d.fields serde)

/-- What an object is understood as is in the range of its type, and all of that can be said; and
whoever adds fields, or orders them otherwise, is understood. -/
theorem codec_roundTrip (serde : Derive) (d : Dto) (b : d.Body) :
    ((d.fields serde).Fits b ↔ ∃ o, (d.codec serde).decode (.obj o) = some b) ∧
      ((d.fields serde).Fits b → ∀ o extra, o.Perm ((d.fields serde).encode b ++ extra) →
        (∀ f ∈ extra, f.1 ∉ (d.fields serde).names) →
          (d.codec serde).decode (.obj o) = some b) ∧
      (d.codec serde).encode b = .obj ((d.fields serde).encode b) := by
  refine ⟨serde.fits_iff_decode _ b, fun h o extra ho hextra => ?_, serde.encode_object _ b⟩
  rw [codec, serde.decode_object]
  exact (d.fields serde).decode_of_perm h ho hextra

/-- The fields of a message the other way round, and one more. -/
theorem codec_roundTrip_swapped :
    (codec .plain .registerResponse).decode
      (.obj [("since", .int 0), ("agent_token", .str "agt_1"), ("machine_id", .int 7)]) =
        some ⟨7, "agt_1"⟩ := by
  have fits : (fields .plain .registerResponse).Fits ⟨7, "agt_1"⟩ :=
    ⟨⟨by decide, by decide⟩, trivial⟩
  refine (codec_roundTrip .plain .registerResponse ⟨7, "agt_1"⟩).2.1 fits _ [("since", .int 0)]
    ?_ ?_
  · exact List.reverse_perm
      [("machine_id", Value.int 7), ("agent_token", Value.str "agt_1"), ("since", Value.int 0)]
  · intro f hf
    obtain rfl := List.mem_singleton.mp hf
    decide

end Dto

end GpuMarket
