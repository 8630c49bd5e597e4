import GpuMarket.ControlPlane.Router

namespace GpuMarket

open Lib Json

/-- A text that stands in a path or a header as it is. -/
def PlainId (id : String) : Prop := id ≠ "" ∧ id.toList.all fun c => c.isAlphanum || c == '_'

/-- Why a call has failed, once it has been answered. -/
inductive ClientError
  | decoding
  | controlPlane (status : StatusCode) (body : Value)

/-- `ensure_ok`. -/
def ensureOk (resp : HttpResponse) : Except ClientError HttpResponse :=
  match resp.status with
  | .ok | .created => .ok resp
  | .failed status => .error (.controlPlane status resp.body)

inductive AgentCall
  | register (req : RegisterRequest)
  | heartbeat (token : String) (online : Bool)
  | report (token : String) (req : ReportRequest)
  | setRate (token : String) (rateSatsPerMin : Int)

namespace AgentCall

/-- `bearer_auth`. -/
def bearer (token : String) : String := "Bearer " ++ token

def request (serde : Derive) : AgentCall → HttpRequest
  | register req =>
    { method := .post, path := "/agent/register"
      body := some ((serde.object (RegisterRequest.fields serde)).encode req) }
  | heartbeat token online =>
    { method := .post, path := "/agent/heartbeat", authorization := some (bearer token)
      body := some ((serde.object (HeartbeatRequest.fields serde)).encode { online }) }
  | report token req =>
    { method := .post, path := "/agent/report", authorization := some (bearer token)
      body := some ((serde.object (ReportRequest.fields serde)).encode req) }
  | setRate token rateSatsPerMin =>
    { method := .post, path := "/agent/rate", authorization := some (bearer token)
      body := some ((serde.object (RateRequest.fields serde)).encode { rateSatsPerMin }) }

def outcome (serde : Derive) (c : AgentCall) (resp : HttpResponse) : Except ClientError Reply := do
  let resp ← ensureOk resp
  match c with
  | register _ =>
    match (serde.object (RegisterResponse.fields serde)).decode resp.body with
    | none => .error .decoding
    | some r => .ok (.registered r.machineId r.agentToken)
  | heartbeat .. =>
    match (serde.object (HeartbeatResponse.fields serde)).decode resp.body with
    | none => .error .decoding
    | some r => .ok (.commands r.commands)
  | report .. | setRate .. => .ok .ok

def call : AgentCall → Request
  | register req => .register req
  | heartbeat token online => .heartbeat (some (bearer token)) { online }
  | report token req => .report (some (bearer token)) req
  | setRate token rateSatsPerMin => .rate (some (bearer token)) { rateSatsPerMin }

def Fits (serde : Derive) : AgentCall → Prop
  | register req => (RegisterRequest.fields serde).Fits req
  | heartbeat token _ => PlainId token
  | report token req => PlainId token ∧ (ReportRequest.fields serde).Fits req
  | setRate token rateSatsPerMin =>
    PlainId token ∧ (RateRequest.fields serde).Fits { rateSatsPerMin }

end AgentCall

end GpuMarket
