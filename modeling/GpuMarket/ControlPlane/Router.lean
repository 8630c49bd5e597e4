import GpuMarket.Lib.Decimal
import GpuMarket.Core.Dto
import GpuMarket.ControlPlane.Server

namespace GpuMarket

open Lib Json

inductive Method
  | get | post | delete
  deriving DecidableEq, Repr

/-- A request as the extractors see it. The body is there if it is JSON and declared as such. -/
structure HttpRequest where
  method : Method
  path : String
  query : List (String × String) := []
  authorization : Option String := none
  body : Option Value := none

inductive Rejection
  | notFound | methodNotAllowed | badPath | badQuery | unsupportedMediaType | unprocessableEntity
  deriving DecidableEq, Repr

inductive Handled
  | write (r : Request)
  | health
  | offers (q : OffersQuery)
  | getAccount (id : String)
  | getRental (id : Int)

def segments (path : String) : List String := (path.toList.splitOn '/').map String.ofList

inductive Segment
  | lit (s : String)
  | param
  deriving DecidableEq, Repr

namespace Segment

/-- The parameters of a path of this form, where none of them is empty. -/
def params : List Segment → List String → Option (List String)
  | [], [] => some []
  | .lit s :: pattern, t :: path => if s = t then params pattern path else none
  | .param :: pattern, t :: path => if t = "" then none else (params pattern path).map (t :: ·)
  | _, _ => none

/-- A path of this form, whatever stands for the parameters, and be it nothing. -/
def covers : List Segment → List String → Bool
  | [], [] => true
  | .lit s :: pattern, t :: path => s = t && covers pattern path
  | .param :: pattern, _ :: path => covers pattern path
  | _, _ => false

theorem params_eq_none {pattern : List Segment} {path : List String}
    (h : covers pattern path = false) : params pattern path = none := by
  fun_induction covers pattern path with
  | case1 => cases h
  | case2 s pattern t path ih =>
    by_cases hst : s = t
    · rw [params, if_pos hst, ih (by simpa [hst] using h)]
    · rw [params, if_neg hst]
  | case3 pattern t path ih => simp [params, ih h]
  | case4 pattern path => simp_all [params]

end Segment

abbrev Handler := List String → HttpRequest → Except Rejection Handled

structure Route where
  pattern : List Segment
  methods : List (Method × Handler)

section Query

def queryParam (query : List (String × String)) (name : String) (read : String → Option α) :
    Option (Option α) :=
  (atMostOne ((query.filter (·.1 = name)).map (·.2))).bind fun
    | none => some none
    | some s => (read s).map some

/-- `Query<OffersQuery>`. -/
def OffersQuery.ofQuery (query : List (String × String)) : Option OffersQuery := do
  let gpuName ← queryParam query "gpu_name" some
  let minVramMb ← queryParam query "min_vram_mb" (Decimal.parseSigned 64)
  let minGpuCount ← queryParam query "min_gpu_count" (Decimal.parseSigned 64)
  let maxRateSatsPerMin ← queryParam query "max_rate_sats_per_min" (Decimal.parseSigned 64)
  let sort ← queryParam query "sort" some
  let limit ← queryParam query "limit" (Decimal.parseSigned 64)
  return { gpuName, minVramMb, minGpuCount, maxRateSatsPerMin, sort, limit }

end Query

/-- `Json<T>`, `Path<i64>`, `Path<String>` and `Query<OffersQuery>`, by what they accept. -/
structure Extractors where
  /-- within the limit of the size of a body -/
  Takes : Value → Prop
  json : {α : Type} → Codec α → HttpRequest → Except Rejection α
  pathI64 : List String → Except Rejection Int
  pathString : List String → Except Rejection String
  query : HttpRequest → Except Rejection OffersQuery
  json_ok : ∀ {α} {C : Codec α} {r v a},
    r.body = some v → Takes v → C.decode v = some a → json C r = .ok a
  pathI64_ok : ∀ {id n}, Decimal.parseSigned 64 id = some n → pathI64 [id] = .ok n
  pathString_ok : ∀ {id}, '%' ∉ id.toList → pathString [id] = .ok id
  query_ok : ∀ {r q}, OffersQuery.ofQuery r.query = some q → query r = .ok q

def Extractors.Admits (axum : Extractors) (r : HttpRequest) : Prop := ∀ v ∈ r.body, axum.Takes v

/-- The routes, tenant and agent, in the order of `build_router`. -/
def routes (serde : Derive) (axum : Extractors) : List Route :=
  [ ⟨[.lit "", .lit "health"], [(.get, fun _ _ => .ok .health)]⟩,
    ⟨[.lit "", .lit "offers"], [(.get, fun _ r => do return .offers (← axum.query r))]⟩,
    ⟨[.lit "", .lit "accounts"], [(.post, fun _ _ => .ok (.write .createAccount))]⟩,
    ⟨[.lit "", .lit "accounts", .param],
      [(.get, fun params _ => do return .getAccount (← axum.pathString params))]⟩,
    ⟨[.lit "", .lit "accounts", .param, .lit "deposit"],
      [(.post, fun params r => do
        let id ← axum.pathString params
        return .write (.deposit id (← axum.json (serde.object (DepositRequest.fields serde)) r)))]⟩,
    ⟨[.lit "", .lit "rentals"],
      [(.post, fun _ r => do
        let req ← axum.json (serde.object (CreateRentalRequest.fields serde)) r
        return .write (.createRental req))]⟩,
    ⟨[.lit "", .lit "rentals", .param],
      [(.get, fun params _ => do return .getRental (← axum.pathI64 params)),
        (.delete, fun params _ => do return .write (.deleteRental (← axum.pathI64 params)))]⟩,
    ⟨[.lit "", .lit "agent", .lit "register"],
      [(.post, fun _ r => do
        let req ← axum.json (serde.object (RegisterRequest.fields serde)) r
        return .write (.register req))]⟩,
    ⟨[.lit "", .lit "agent", .lit "heartbeat"],
      [(.post, fun _ r => do
        let req ← axum.json (serde.object (HeartbeatRequest.fields serde)) r
        return .write (.heartbeat r.authorization req))]⟩,
    ⟨[.lit "", .lit "agent", .lit "report"],
      [(.post, fun _ r => do
        let req ← axum.json (serde.object (ReportRequest.fields serde)) r
        return .write (.report r.authorization req))]⟩,
    ⟨[.lit "", .lit "agent", .lit "rate"],
      [(.post, fun _ r => do
        let req ← axum.json (serde.object (RateRequest.fields serde)) r
        return .write (.rate r.authorization req))]⟩,
    ⟨[.lit "", .lit "agent", .lit "payout"],
      [(.post, fun _ r => do
        let req ← axum.json (serde.object (PayoutRequest.fields serde)) r
        return .write (.payout r.authorization req))]⟩ ]

/-- What serves a list of routes: a request goes to the handler of its method on the route that its
path is of, if there is no other. -/
structure Axum extends Extractors where
  dispatch : List Route → HttpRequest → Except Rejection Handled
  dispatch_route : ∀ {routes : List Route} {k : Nat} {route : Route} {r : HttpRequest}
    {params : List String} {handler : Handler}, routes[k]? = some route →
      Segment.params route.pattern (segments r.path) = some params →
      (∀ route' ∈ routes.eraseIdx k, Segment.covers route'.pattern (segments r.path) = false) →
      route.methods.lookup r.method = some handler → dispatch routes r = handler params r

def buildRouter (serde : Derive) (axum : Axum) (r : HttpRequest) : Except Rejection Handled :=
  axum.dispatch (routes serde axum.toExtractors) r

inductive HttpStatus
  | ok | created
  | failed (status : StatusCode)
  deriving DecidableEq, Repr

structure HttpResponse where
  status : HttpStatus
  body : Value

def ApiError.intoResponse (display : ErrorMessage → String) (e : ApiError) : HttpResponse :=
  ⟨.failed e.status, .obj [("error", .str (display e.message))]⟩

def Reply.intoResponse (serde : Derive) : Reply → HttpResponse
  | .ok => ⟨.ok, .obj [("ok", .bool true)]⟩
  | .registered machineId agentToken =>
    ⟨.ok, (serde.object (RegisterResponse.fields serde)).encode { machineId, agentToken }⟩
  | .commands cmds =>
    ⟨.ok, (serde.object (HeartbeatResponse.fields serde)).encode { commands := cmds }⟩
  | .paid paidSats => ⟨.ok, (serde.object (PayoutResponse.fields serde)).encode { paidSats }⟩
  | .account accountId =>
    ⟨.created, (serde.object (CreateAccountResponse.fields serde)).encode { accountId }⟩
  | .invoice bolt11 paymentHash sats =>
    ⟨.ok, (serde.object (DepositResponse.fields serde)).encode { bolt11, paymentHash, sats }⟩
  | .rental rentalId status rateSatsPerMin =>
    ⟨.created,
      (serde.object (CreateRentalResponse.fields serde)).encode
        { rentalId, status, rateSatsPerMin }⟩
  | .rentalStatus rentalId status =>
    ⟨.ok, .obj [("rental_id", .int rentalId), ("status", .str status)]⟩
  | .offers rows => ⟨.ok, (serde.object (OffersResponse.fields serde)).encode { offers := rows }⟩
  | .accountDetails a => ⟨.ok, (serde.object (AccountResponse.fields serde)).encode a⟩
  | .rentalDetails r => ⟨.ok, (serde.object (RentalResponse.fields serde)).encode r⟩
  | .health lnBackend =>
    ⟨.ok, (serde.object (HealthResponse.fields serde)).encode { ok := true, lnBackend }⟩

def respond (serde : Derive) (display : ErrorMessage → String) :
    Except ApiError Reply → HttpResponse
  | .error e => e.intoResponse display
  | .ok reply => reply.intoResponse serde

theorem segments_eq {path : String} {ss : List String} (hne : ss ≠ [])
    (hpath : path.toList = ['/'].intercalate (ss.map String.toList))
    (hslash : ∀ s ∈ ss, '/' ∉ s.toList) : segments path = ss := by
  have hsplit : (['/'].intercalate (ss.map String.toList)).splitOn '/' = ss.map String.toList :=
    List.splitOn_intercalate '/' (by simpa using hslash) (by simpa using hne)
  rw [segments, hpath, hsplit, List.map_map]
  simp [Function.comp_def]

theorem Axum.reaches (axum : Axum) (serde : Derive) (k : Nat) (params : List String)
    {route : Route} (hroute : (routes serde axum.toExtractors)[k]? = some route)
    {r : HttpRequest} {ss : List String} (hpath : segments r.path = ss)
    (hparams : Segment.params route.pattern ss = some params)
    (hone : ∀ pattern ∈ ((routes serde axum.toExtractors).eraseIdx k).map (·.pattern),
      Segment.covers pattern ss = false)
    {handler : Handler}
    (hmethod : route.methods.lookup r.method = some handler) :
    buildRouter serde axum r = handler params r := by
  subst hpath
  exact axum.dispatch_route hroute hparams (List.forall_mem_map.mp hone) hmethod

/-- The first route that the path is of. -/
def dispatchTo (r : HttpRequest) : List Route → Except Rejection Handled
  | [] => .error .notFound
  | route :: routes =>
    match Segment.params route.pattern (segments r.path) with
    | none => dispatchTo r routes
    | some params =>
      match route.methods.lookup r.method with
      | none => .error .methodNotAllowed
      | some handler => handler params r

theorem dispatchTo_route {routes : List Route} {k : Nat} {route : Route} {r : HttpRequest}
    {params : List String} {handler : Handler} (hroute : routes[k]? = some route)
    (hparams : Segment.params route.pattern (segments r.path) = some params)
    (hone : ∀ route' ∈ routes.eraseIdx k,
      Segment.covers route'.pattern (segments r.path) = false)
    (hmethod : route.methods.lookup r.method = some handler) :
    dispatchTo r routes = handler params r := by
  induction routes generalizing k with
  | nil => cases hroute
  | cons head rest ih =>
    cases k with
    | zero =>
      cases hroute
      simp only [dispatchTo, hparams, hmethod]
    | succ k =>
      rw [List.eraseIdx_cons_succ, List.forall_mem_cons] at hone
      simp only [dispatchTo, Segment.params_eq_none hone.1]
      exact ih hroute hone.2

def inOrder : Axum where
  Takes _ := True
  json C r :=
    match r.body with
    | none => .error .unsupportedMediaType
    | some v =>
      match C.decode v with
      | none => .error .unprocessableEntity
      | some a => .ok a
  pathI64
    | [id] =>
      match Decimal.parseSigned 64 id with
      | none => .error .badPath
      | some id => .ok id
    | _ => .error .badPath
  pathString
    | [id] => .ok id
    | _ => .error .badPath
  query r :=
    match OffersQuery.ofQuery r.query with
    | none => .error .badQuery
    | some q => .ok q
  dispatch routes r := dispatchTo r routes
  json_ok hbody _ hread := by simp only [hbody, hread]
  pathI64_ok h := by simp only [h]
  pathString_ok _ := rfl
  query_ok h := by simp only [h]
  dispatch_route := dispatchTo_route

end GpuMarket
