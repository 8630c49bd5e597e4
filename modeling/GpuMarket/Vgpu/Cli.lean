import GpuMarket.HostAgent.Client

namespace GpuMarket

open Lib Json

structure OffersArgs where
  gpu : Option String := none
  minVramMb : Option Int := none
  minGpuCount : Option Int := none
  maxRate : Option Int := none
  sort : Option String := none
  limit : Option Int := none

structure RentArgs where
  machineId : Int
  accountId : String
  image : String
  sshKey : Option String := none
  /-- what the file holds, `some none` where it cannot be read -/
  sshKeyFile : Option (Option String) := none

inductive Cmd
  | health
  | offers (args : OffersArgs)
  | createAccount
  | account (accountId : String)
  | deposit (accountId : String) (sats : Int)
  | rent (args : RentArgs)
  | rental (rentalId : Int)
  | stop (rentalId : Int)

def OffersArgs.params (args : OffersArgs) : List (String × String) :=
  (args.gpu.map fun g => ("gpu_name", g)).toList ++
    (args.minVramMb.map fun v => ("min_vram_mb", toString v)).toList ++
    (args.minGpuCount.map fun c => ("min_gpu_count", toString c)).toList ++
    (args.maxRate.map fun r => ("max_rate_sats_per_min", toString r)).toList ++
    (args.sort.map fun s => ("sort", s)).toList ++
    (args.limit.map fun l => ("limit", toString l)).toList

/-- The key to rent with; there is none to send for a `metal:` image. A command that is given
neither a key nor a readable file gives up. -/
def RentArgs.sshPubkey (args : RentArgs) : Option (Option String) :=
  match args.sshKey, args.sshKeyFile with
  | some k, _ => some (some k)
  | none, some file => file.map fun text => some (trim text)
  | none, none => if isHttpStatusImage args.image then some none else none

def RentArgs.request (args : RentArgs) : Option CreateRentalRequest :=
  args.sshPubkey.map fun sshPubkey =>
    { machineId := args.machineId, accountId := args.accountId, image := args.image, sshPubkey }

namespace Cmd

def request (serde : Derive) : Cmd → Option HttpRequest
  | health => some { method := .get, path := "/health" }
  | offers args => some { method := .get, path := "/offers", query := args.params }
  | createAccount => some { method := .post, path := "/accounts" }
  | account accountId => some { method := .get, path := "/accounts/" ++ accountId }
  | deposit accountId sats => some
    { method := .post, path := "/accounts/" ++ accountId ++ "/deposit"
      body := some ((serde.object (DepositRequest.fields serde)).encode { sats }) }
  | rent args => args.request.map fun req =>
    { method := .post, path := "/rentals"
      body := some ((serde.object (CreateRentalRequest.fields serde)).encode req) }
  | rental rentalId => some { method := .get, path := "/rentals/" ++ toString rentalId }
  | stop rentalId => some { method := .delete, path := "/rentals/" ++ toString rentalId }

def index (v : Value) (name : String) : Value :=
  match v with
  | .obj o => (valuesOf name o).getLast?.getD .null
  | _ => .null

end Cmd

def endpointHint (kind : RentalKind) (host : Option String) (port : Option Int) :
    Option (String × String) := do
  let host ← host
  let port ← port
  return match kind with
  | .ssh => ("SSH:", "ssh -p " ++ toString port ++ " root@" ++ host)
  | .httpStatus => ("Status:", "curl http://" ++ host ++ ":" ++ toString port ++ "/")
  | .httpOpenai => ("LLM API:", "curl http://" ++ host ++ ":" ++ toString port ++
    "/v1/chat/completions -H content-type:application/json -d '\x7b\"messages\":[\x7b\"role\":\"user\",\"content\":\"hi\"\x7d],\"max_tokens\":64\x7d'")

inductive Output
  | health (ok : Bool) (lnBackend : String)
  | answer (reply : Reply)
  | rental (r : RentalResponse) (hint : Option (String × String))

namespace Cmd

/-- `parse`, at the body that the command wants. -/
def read (serde : Derive) (v : Value) : Cmd → Option Output
  | health => ((serde.object (HealthResponse.fields serde)).decode v).map fun h =>
    .health h.ok h.lnBackend
  | offers _ => ((serde.object (OffersResponse.fields serde)).decode v).map fun r =>
    .answer (.offers r.offers)
  | createAccount => ((serde.object (CreateAccountResponse.fields serde)).decode v).map fun r =>
    .answer (.account r.accountId)
  | account _ => ((serde.object (AccountResponse.fields serde)).decode v).map fun a =>
    .answer (.accountDetails a)
  | deposit .. => ((serde.object (DepositResponse.fields serde)).decode v).map fun r =>
    .answer (.invoice r.bolt11 r.paymentHash r.sats)
  | rent _ => ((serde.object (CreateRentalResponse.fields serde)).decode v).map fun r =>
    .answer (.rental r.rentalId r.status r.rateSatsPerMin)
  | rental _ => ((serde.object (RentalResponse.fields serde)).decode v).map fun r =>
    .rental r (endpointHint r.kind r.sshHost r.sshPort)
  | stop rentalId =>
    let status := match index v "status" with
      | .str s => s
      | _ => "evicting"
    some (.answer (.rentalStatus rentalId status))

def outcome (serde : Derive) (cmd : Cmd) (resp : HttpResponse) : Except ClientError Output :=
  match resp.status with
  | .failed status => .error (.controlPlane status (index resp.body "error"))
  | .ok | .created =>
    match cmd.read serde resp.body with
    | none => .error .decoding
    | some output => .ok output

/-- The request that the control plane has to see. -/
def call : Cmd → Option Handled
  | health => some .health
  | offers args => some (.offers
    { gpuName := args.gpu, minVramMb := args.minVramMb, minGpuCount := args.minGpuCount
      maxRateSatsPerMin := args.maxRate, sort := args.sort, limit := args.limit })
  | createAccount => some (.write .createAccount)
  | account accountId => some (.getAccount accountId)
  | deposit accountId sats => some (.write (.deposit accountId { sats }))
  | rent args => args.request.map fun req => .write (.createRental req)
  | rental rentalId => some (.getRental rentalId)
  | stop rentalId => some (.write (.deleteRental rentalId))

def Fits : Cmd → Prop
  | health | createAccount => True
  | offers args => (∀ v ∈ args.minVramMb, SignedRange 64 v) ∧
      (∀ c ∈ args.minGpuCount, SignedRange 64 c) ∧ (∀ r ∈ args.maxRate, SignedRange 64 r) ∧
      (∀ l ∈ args.limit, SignedRange 64 l)
  | account accountId => PlainId accountId
  | deposit accountId sats => PlainId accountId ∧ SignedRange 64 sats
  | rent args => SignedRange 64 args.machineId
  | rental rentalId | stop rentalId => SignedRange 64 rentalId

end Cmd

end GpuMarket
