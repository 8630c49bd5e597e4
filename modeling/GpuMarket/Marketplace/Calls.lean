import GpuMarket.ControlPlane.Errors
import GpuMarket.Vgpu.Cli

namespace GpuMarket

open Lib Json

def Request.Expects : Request → Reply → Prop
  | .register _, .registered .. => True
  | .heartbeat .., .commands _ => True
  | .report .., .ok => True
  | .rate .., .ok => True
  | .payout .., .paid _ => True
  | .createAccount, .account _ => True
  | .deposit .., .invoice .. => True
  | .createRental _, .rental .. => True
  | .deleteRental id, .rentalStatus id' _ => id' = id
  | _, _ => False

def Thread.Serves (r : Request) : Thread → Prop
  | .received r' => r' = r
  | .registerUpdate .. | .registerInsert .. => ∃ req, r = .register req
  | .heartbeatTx .. => ∃ auth req, r = .heartbeat auth req
  | .reportRead .. | .reportTx .. => ∃ auth req, r = .report auth req
  | .rateUpdate .. => ∃ auth req, r = .rate auth req
  | .payoutPay .. | .payoutTx .. => ∃ auth req, r = .payout auth req
  | .depositInvoice .. | .depositInsert .. => ∃ id req, r = .deposit id req
  | .deleteRentalTx row _ => r = .deleteRental row.id
  | .done (.ok reply) => r.Expects reply
  | .done (.error _) => True

theorem fetch_serves {r : Request} {x : Except ApiError α} {next : α → Next Thread Txn}
    {t : Thread} (hn : fetch x next = .read t)
    (hnext : ∀ a, x = .ok a → next a = .read t → t.Serves r) : t.Serves r := by
  cases x with
  | error e =>
    cases hn
    trivial
  | ok a => exact hnext a rfl hn

theorem Request.serves_read {db : Db} {i : Input} {r : Request} {t : Thread}
    (hn : r.next db i = .read t) : t.Serves r := by
  cases r with
  | register req =>
    simp only [next] at hn
    split at hn
    all_goals
      cases hn
      exact ⟨_, rfl⟩
  | heartbeat auth req | report auth req =>
    refine fetch_serves hn fun m _ hn => ?_
    cases hn
    exact ⟨_, _, rfl⟩
  | rate auth req | payout auth req | deposit auth req =>
    refine fetch_serves hn fun m _ hn => ?_
    refine fetch_serves hn fun _ _ hn => ?_
    cases hn
    exact ⟨_, _, rfl⟩
  | createAccount | createRental req => cases hn
  | deleteRental id =>
    refine fetch_serves hn fun row hrow hn => ?_
    obtain ⟨-, hid⟩ := findRental_ok hrow
    split at hn
    · cases hn
      exact hid
    · cases hn
      exact congrArg _ hid.symm

theorem Thread.serves_read {db : Db} {i : Input} {r : Request} {t t' : Thread} (h : t.Serves r)
    (hn : t.next i db = .read t') : t'.Serves r := by
  cases t with
  | received r' =>
    obtain rfl : r' = r := h
    exact Request.serves_read hn
  | reportRead machine req =>
    refine fetch_serves hn fun rental _ hn => ?_
    cases hn
    exact h
  | payoutPay machine req =>
    simp only [next] at hn
    split at hn
    · cases hn
      exact h
    · cases hn
      trivial
  | depositInvoice id req =>
    simp only [next] at hn
    split at hn
    · cases hn
      trivial
    · cases hn
      exact h
  | done reply =>
    cases hn
    exact h
  | registerUpdate | registerInsert | heartbeatTx | reportTx | rateUpdate | payoutTx | depositInsert
  | deleteRentalTx => cases hn

theorem reportTx_reply {env : Env} {machine : MachineRow} {rental : RentalRow}
    {req : ReportRequest} {now : Int} {db db' : Db} {v : Reply}
    (h : reportTx env machine rental req now db = .ok (db', v)) : v = .ok := by
  obtain ⟨hset, -⟩ | ⟨hset, a, ha, hid, -⟩ := reportTx_ok h
  · rw [reportTx_of_not_settles hset] at h
    cases h
    rfl
  · rw [reportTx_of_settles hset ha hid] at h
    cases h
    rfl

theorem depositTx_reply {id : String} {req : DepositRequest} {invoice : Invoice} {now : Int}
    {db db' : Db} {v : Reply} (h : depositTx id req invoice now db = .ok (db', v)) :
    v = .invoice invoice.bolt11 invoice.paymentHash req.sats := by
  obtain ⟨db₁, -, h⟩ := bind_eq_ok.mp h
  cases h
  rfl

theorem Thread.serves_commit {env : Env} {db db' : Db} {i : Input} {r : Request} {t : Thread}
    {txn : Txn} {v : Reply} (h : t.Serves r) (hn : t.next i db = .commit txn)
    (hx : txn.exec env db = .ok (db', v)) : (t.finish (.ok v)).Serves r := by
  cases t with
  | received r' =>
    obtain rfl : r' = r := h
    rcases Request.creates hn with ⟨rfl, rfl⟩ | ⟨req, rfl, rfl⟩
    · obtain ⟨rfl, -⟩ := createAccountTx_ok hx
      trivial
    · obtain ⟨m, -, -, a, -, -, -, -, -, rfl, -⟩ := createRentalTx_ok hx
      trivial
  | registerUpdate m req now =>
    obtain ⟨q, rfl⟩ := h
    cases hn
    cases hx
    trivial
  | registerInsert req now =>
    obtain ⟨q, rfl⟩ := h
    cases hn
    obtain ⟨-, -, rfl⟩ := registerInsert_ok hx
    trivial
  | heartbeatTx machine req now =>
    obtain ⟨auth, q, rfl⟩ := h
    cases hn
    obtain ⟨⟨cmds, rfl, -⟩, -⟩ := heartbeatTx_ok hx
    trivial
  | reportTx machine rental req now =>
    obtain ⟨auth, q, rfl⟩ := h
    cases hn
    obtain rfl := reportTx_reply hx
    trivial
  | rateUpdate machine req =>
    obtain ⟨auth, q, rfl⟩ := h
    cases hn
    cases hx
    trivial
  | payoutTx machine now =>
    obtain ⟨auth, q, rfl⟩ := h
    cases hn
    cases hx
    trivial
  | depositInsert id req invoice now =>
    obtain ⟨id', q, rfl⟩ := h
    cases hn
    obtain rfl := depositTx_reply hx
    trivial
  | deleteRentalTx row now =>
    obtain rfl : r = .deleteRental row.id := h
    cases hn
    obtain ⟨-, rfl, -⟩ := deleteRentalTx_ok hx
    rfl
  | reportRead machine req =>
    obtain ⟨rental, -, hn⟩ := fetch_eq_commit.mp hn
    cases hn
  | payoutPay machine req =>
    simp only [next] at hn
    split at hn <;> cases hn
  | depositInvoice id req =>
    simp only [next] at hn
    split at hn <;> cases hn
  | done reply => cases hn

theorem server_expects (env : Env) : (server env).Serves fun _ r t => t.Serves r where
  start _ _ := rfl
  read h hn := Thread.serves_read h hn
  commit h hn hx := Thread.serves_commit h hn hx
  error {s r t e} h := by
    cases t with
    | done reply => exact h
    | _ => trivial
  stable _ h := h

/-- Whatever interleaves, a success is of the kind that the request asks for. -/
theorem Request.expects_reply {env : Env} {acts : List ServerAct} {n : Nat} {r : Request}
    {reply : Reply} (hr : (requests acts)[n]? = some r)
    (ht : (serve env acts).threads[n]? = some (.done (.ok reply))) : r.Expects reply := by
  have serves : List.Forall₂ (fun r t => t.Serves r) (requests acts) (serve env acts).threads :=
    (server_expects env).run (server env) rfl acts
  exact forall₂_getElem? serves hr ht

section Requests

variable (serde : Derive) (axum : Axum)

theorem json_encode {α : Type} {F : Fields α} {a : α} {r : HttpRequest}
    (hbody : r.body = some ((serde.object F).encode a)) (hsize : axum.Admits r) (h : F.Fits a) :
    axum.json (serde.object F) r = .ok a :=
  axum.json_ok hbody (hsize _ hbody) (serde.decode_encode F h)

/-- What the agent sends arrives as the request it means. -/
theorem AgentCall.routed {c : AgentCall} (h : c.Fits serde)
    (hsize : axum.Admits (c.request serde)) :
    buildRouter serde axum (c.request serde) = .ok (.write c.call) := by
  cases c with
  | register req =>
    have hpath : segments "/agent/register" = ["", "agent", "register"] := by decide
    have hbody : axum.json (serde.object (RegisterRequest.fields serde))
        ((register req).request serde) = .ok req := json_encode serde axum rfl hsize h
    refine Eq.trans
      (axum.reaches serde 7 [] rfl hpath rfl (by simp [routes, Segment.covers]) rfl) ?_
    exact congrArg (· >>= _) hbody
  | heartbeat token online =>
    have hpath : segments "/agent/heartbeat" = ["", "agent", "heartbeat"] := by decide
    have hbody : axum.json (serde.object (HeartbeatRequest.fields serde))
        ((heartbeat token online).request serde) = .ok { online } :=
      json_encode serde axum rfl hsize (serde.fits_bool online)
    refine Eq.trans
      (axum.reaches serde 8 [] rfl hpath rfl (by simp [routes, Segment.covers]) rfl) ?_
    exact congrArg (· >>= _) hbody
  | report token req =>
    have hpath : segments "/agent/report" = ["", "agent", "report"] := by decide
    have hbody : axum.json (serde.object (ReportRequest.fields serde))
        ((report token req).request serde) = .ok req := json_encode serde axum rfl hsize h.2
    refine Eq.trans
      (axum.reaches serde 9 [] rfl hpath rfl (by simp [routes, Segment.covers]) rfl) ?_
    exact congrArg (· >>= _) hbody
  | setRate token rateSatsPerMin =>
    have hpath : segments "/agent/rate" = ["", "agent", "rate"] := by decide
    have hbody : axum.json (serde.object (RateRequest.fields serde))
        ((setRate token rateSatsPerMin).request serde) = .ok { rateSatsPerMin } :=
      json_encode serde axum rfl hsize h.2
    refine Eq.trans
      (axum.reaches serde 10 [] rfl hpath rfl (by simp [routes, Segment.covers]) rfl) ?_
    exact congrArg (· >>= _) hbody

theorem PlainId.notMem {id : String} (h : PlainId id) {c : Char} (hc : c.isAlphanum = false)
    (hne : c ≠ '_') : c ∉ id.toList := by
  intro hmem
  have hplain := List.all_eq_true.mp h.2 c hmem
  simp [hc, hne] at hplain

theorem slash_notMem_toString (n : Int) : '/' ∉ (toString n).toList := by
  have digits : ∀ m : Nat, '/' ∉ Nat.toDigits 10 m := fun m hmem =>
    absurd (Nat.isDigit_of_mem_toDigits (by decide) (by decide) hmem) (by decide)
  cases n with
  | ofNat m => exact fun h => digits m (Nat.toList_repr ▸ h)
  | negSucc m =>
    rw [Decimal.toList_toString_negSucc]
    simpa using digits (m + 1)

theorem toString_ne_empty (n : Int) : toString n ≠ "" := by
  intro h
  have hlist := congrArg String.toList h
  cases n with
  | ofNat m => exact Nat.toDigits_ne_nil (Nat.toList_repr.symm.trans hlist)
  | negSucc m =>
    rw [Decimal.toList_toString_negSucc] at hlist
    cases hlist

theorem filter_param {name name' : String} {v : Option α} {f : α → String} :
    (((v.map fun a => (name, f a)).toList.filter (·.1 = name')).map (·.2)) =
      if name = name' then (v.map f).toList else [] := by
  cases v with
  | none => simp
  | some a => by_cases h : name = name' <;> simp [h]

theorem filter_param_id {name name' : String} {v : Option String} :
    (((v.map fun s => (name, s)).toList.filter (·.1 = name')).map (·.2)) =
      if name = name' then v.toList else [] := by
  cases v with
  | none => simp
  | some a => by_cases h : name = name' <;> simp [h]

theorem atMostOne_option (v : Option α) : atMostOne v.toList = some v := by cases v <;> rfl

theorem queryParam_eq {query : List (String × String)} {name : String} {v : Option α}
    {f : α → String} {read : String → Option α} (hread : ∀ a ∈ v, read (f a) = some a)
    (hquery : (query.filter (·.1 = name)).map (·.2) = (v.map f).toList) :
    queryParam query name read = some v := by
  rw [queryParam, hquery, atMostOne_option]
  cases v with
  | none => rfl
  | some a => simp [hread a rfl]

theorem parse_i64 {n : Int} (h : SignedRange 64 n) :
    Decimal.parseSigned 64 (toString n) = some n :=
  Decimal.parseSigned_toString h.1 h.2

theorem OffersArgs.params_named (args : OffersArgs) (name : String) :
    (args.params.filter (·.1 = name)).map (·.2) =
      (if "gpu_name" = name then args.gpu.toList else []) ++
        (if "min_vram_mb" = name then (args.minVramMb.map toString).toList else []) ++
        (if "min_gpu_count" = name then (args.minGpuCount.map toString).toList else []) ++
        (if "max_rate_sats_per_min" = name then (args.maxRate.map toString).toList else []) ++
        (if "sort" = name then args.sort.toList else []) ++
        (if "limit" = name then (args.limit.map toString).toList else []) := by
  simp only [params, List.filter_append, List.map_append, filter_param, filter_param_id]

theorem OffersArgs.ofQuery_params {args : OffersArgs} (h : (Cmd.offers args).Fits) :
    OffersQuery.ofQuery args.params = some
      { gpuName := args.gpu, minVramMb := args.minVramMb, minGpuCount := args.minGpuCount
        maxRateSatsPerMin := args.maxRate, sort := args.sort, limit := args.limit } := by
  obtain ⟨hvram, hcount, hrate, hlimit⟩ := h
  have text : ∀ {name : String} {v : Option String},
      (args.params.filter (·.1 = name)).map (·.2) = v.toList →
        queryParam args.params name some = some v := fun hv =>
    queryParam_eq (f := id) (fun _ _ => rfl) (by rw [hv, Option.map_id, id])
  have number : ∀ {name : String} {v : Option Int}, (∀ n ∈ v, SignedRange 64 n) →
      (args.params.filter (·.1 = name)).map (·.2) = (v.map toString).toList →
        queryParam args.params name (Decimal.parseSigned 64) = some v := fun hfits hv =>
    queryParam_eq (fun n hn => parse_i64 (hfits n hn)) hv
  have gpu : queryParam args.params "gpu_name" some = some args.gpu :=
    text (by simp [params_named])
  have vram : queryParam args.params "min_vram_mb" (Decimal.parseSigned 64) =
      some args.minVramMb := number hvram (by simp [params_named])
  have count : queryParam args.params "min_gpu_count" (Decimal.parseSigned 64) =
      some args.minGpuCount := number hcount (by simp [params_named])
  have rate : queryParam args.params "max_rate_sats_per_min" (Decimal.parseSigned 64) =
      some args.maxRate := number hrate (by simp [params_named])
  have sort : queryParam args.params "sort" some = some args.sort := text (by simp [params_named])
  have limit : queryParam args.params "limit" (Decimal.parseSigned 64) = some args.limit :=
    number hlimit (by simp [params_named])
  simp [OffersQuery.ofQuery, gpu, vram, count, rate, sort, limit]

theorem RentArgs.request_fits {args : RentArgs} (h : (Cmd.rent args).Fits)
    {req : CreateRentalRequest} (hreq : args.request = some req) :
    (CreateRentalRequest.fields serde).Fits req := by
  obtain ⟨key, -, rfl⟩ := Option.map_eq_some_iff.mp hreq
  exact ⟨(serde.fits_i64 _).mpr h, serde.fits_str _, serde.fits_str _, fun s _ => serde.fits_str s⟩

theorem rental_routed {rentalId : Int} (h : SignedRange 64 rentalId) :
    buildRouter serde axum { method := .get, path := "/rentals/" ++ toString rentalId } =
        .ok (.getRental rentalId) ∧
      buildRouter serde axum { method := .delete, path := "/rentals/" ++ toString rentalId } =
        .ok (.write (.deleteRental rentalId)) := by
  have hparse := parse_i64 h
  have hslash := slash_notMem_toString rentalId
  have hne := toString_ne_empty rentalId
  generalize toString rentalId = id at *
  have hpath : segments ("/rentals/" ++ id) = ["", "rentals", id] :=
    segments_eq (by simp) (by simp [List.intercalate, List.intersperse]) (by simp [hslash])
  have hid : axum.pathI64 [id] = .ok rentalId := axum.pathI64_ok hparse
  have hparams : Segment.params [.lit "", .lit "rentals", .param] ["", "rentals", id] =
      some [id] := by simp [Segment.params, hne]
  have hone : ∀ pattern ∈ ((routes serde axum.toExtractors).eraseIdx 6).map (·.pattern),
      Segment.covers pattern ["", "rentals", id] = false := by simp [routes, Segment.covers]
  constructor
  · refine Eq.trans (axum.reaches serde 6 [id] rfl hpath hparams hone rfl) ?_
    exact congrArg (· >>= _) hid
  · refine Eq.trans (axum.reaches serde 6 [id]
      (r := { method := .delete, path := "/rentals/" ++ id }) rfl hpath hparams hone rfl) ?_
    exact congrArg (· >>= _) hid

/-- What a command sends arrives as the request it means. -/
theorem Cmd.routed {cmd : Cmd} (h : cmd.Fits)
    (hsize : ∀ r ∈ cmd.request serde, axum.Admits r) :
    (cmd.request serde).map (buildRouter serde axum) = cmd.call.map .ok := by
  cases cmd with
  | health =>
    have hpath : segments "/health" = ["", "health"] := by decide
    refine congrArg some ?_
    refine Eq.trans
      (axum.reaches serde 0 [] rfl hpath rfl (by simp [routes, Segment.covers]) rfl) ?_
    rfl
  | offers args =>
    have hpath : segments "/offers" = ["", "offers"] := by decide
    have hquery := OffersArgs.ofQuery_params h
    refine congrArg some ?_
    refine Eq.trans
      (axum.reaches serde 1 [] rfl hpath rfl (by simp [routes, Segment.covers]) rfl) ?_
    exact congrArg (· >>= _) (axum.query_ok hquery)
  | createAccount =>
    have hpath : segments "/accounts" = ["", "accounts"] := by decide
    refine congrArg some ?_
    refine Eq.trans
      (axum.reaches serde 2 [] rfl hpath rfl (by simp [routes, Segment.covers]) rfl) ?_
    rfl
  | account accountId =>
    have hslash : '/' ∉ accountId.toList := h.notMem rfl (by decide)
    have hpath : segments ("/accounts/" ++ accountId) = ["", "accounts", accountId] :=
      segments_eq (by simp) (by simp [List.intercalate, List.intersperse]) (by simp [hslash])
    have hparams : Segment.params [.lit "", .lit "accounts", .param] ["", "accounts", accountId] =
        some [accountId] := by simp [Segment.params, h.1]
    refine congrArg some ?_
    refine Eq.trans (axum.reaches serde 3 [accountId]
      (r := { method := .get, path := "/accounts/" ++ accountId })
      rfl hpath hparams (by simp [routes, Segment.covers]) rfl) ?_
    exact congrArg (· >>= _) (axum.pathString_ok (h.notMem rfl (by decide)))
  | deposit accountId sats =>
    have hslash : '/' ∉ accountId.toList := h.1.notMem rfl (by decide)
    have hpath : segments ("/accounts/" ++ accountId ++ "/deposit") =
        ["", "accounts", accountId, "deposit"] :=
      segments_eq (by simp) (by simp [List.intercalate, List.intersperse]) (by simp [hslash])
    have hbody := json_encode serde axum (F := DepositRequest.fields serde) (a := { sats })
      (r := { method := .post, path := "/accounts/" ++ accountId ++ "/deposit"
              body := some ((serde.object (DepositRequest.fields serde)).encode { sats }) })
      rfl (hsize _ rfl) ((serde.fits_i64 sats).mpr h.2)
    have hparams : Segment.params [.lit "", .lit "accounts", .param, .lit "deposit"]
        ["", "accounts", accountId, "deposit"] = some [accountId] := by
      simp [Segment.params, h.1.1]
    refine congrArg some ?_
    refine Eq.trans (axum.reaches serde 4 [accountId]
      (r := { method := .post, path := "/accounts/" ++ accountId ++ "/deposit"
              body := some ((serde.object (DepositRequest.fields serde)).encode { sats }) })
      rfl hpath hparams (by simp [routes, Segment.covers]) rfl) ?_
    simp only [axum.pathString_ok (h.1.notMem rfl (by decide)), ok_bind, hbody]
    rfl
  | rent args =>
    have hpath : segments "/rentals" = ["", "rentals"] := by decide
    simp only [request, call, Option.map_map]
    refine Option.map_congr fun req hreq => ?_
    have hfits : (CreateRentalRequest.fields serde).Fits req :=
      RentArgs.request_fits serde h hreq
    have hbody := json_encode serde axum (F := CreateRentalRequest.fields serde) (a := req)
      (r := { method := .post, path := "/rentals"
              body := some ((serde.object (CreateRentalRequest.fields serde)).encode req) })
      rfl (hsize _ (Option.mem_map_of_mem _ hreq)) hfits
    simp only [Function.comp_apply]
    refine Eq.trans (axum.reaches serde 5 []
      (r := { method := .post, path := "/rentals"
              body := some ((serde.object (CreateRentalRequest.fields serde)).encode req) })
      rfl hpath rfl (by simp [routes, Segment.covers]) rfl) ?_
    exact congrArg (· >>= _) hbody
  | rental rentalId => exact congrArg some (rental_routed serde axum h).1
  | stop rentalId => exact congrArg some (rental_routed serde axum h).2

end Requests

section Answers

variable (serde : Derive)

def Reply.Fits : Reply → Prop
  | .ok | .account _ | .health _ => True
  | .registered machineId agentToken =>
    (RegisterResponse.fields serde).Fits { machineId, agentToken }
  | .commands cmds => (HeartbeatResponse.fields serde).Fits { commands := cmds }
  | .paid paidSats => (PayoutResponse.fields serde).Fits { paidSats }
  | .invoice bolt11 paymentHash sats =>
    (DepositResponse.fields serde).Fits { bolt11, paymentHash, sats }
  | .rental rentalId status rateSatsPerMin =>
    (CreateRentalResponse.fields serde).Fits { rentalId, status, rateSatsPerMin }
  | .rentalStatus rentalId _ => SignedRange 64 rentalId
  | .offers rows => (OffersResponse.fields serde).Fits { offers := rows }
  | .accountDetails a => (AccountResponse.fields serde).Fits a
  | .rentalDetails r => (RentalResponse.fields serde).Fits r

def Reply.output : Reply → Output
  | .health lnBackend => .health true lnBackend
  | .rentalDetails r => .rental r (endpointHint r.kind r.sshHost r.sshPort)
  | reply => .answer reply

def ApiError.seen (display : ErrorMessage → String) (e : ApiError) : ClientError :=
  .controlPlane e.status (.obj [("error", .str (display e.message))])

def ApiError.printed (display : ErrorMessage → String) (e : ApiError) : ClientError :=
  .controlPlane e.status (.str (display e.message))

theorem AgentCall.outcome_ok {c : AgentCall} {reply : Reply} (h : c.call.Expects reply)
    (hfits : reply.Fits serde) : c.outcome serde (reply.intoResponse serde) = .ok reply := by
  cases c with
  | register req =>
    cases reply with
    | registered machineId agentToken =>
      have hread := serde.decode_encode (RegisterResponse.fields serde) hfits
      simp [outcome, ensureOk, Reply.intoResponse, ok_bind, hread]
    | _ => cases h
  | heartbeat token online =>
    cases reply with
    | commands cmds =>
      have hread := serde.decode_encode (HeartbeatResponse.fields serde) hfits
      simp [outcome, ensureOk, Reply.intoResponse, ok_bind, hread]
    | _ => cases h
  | report token req =>
    cases reply with
    | ok => rfl
    | _ => cases h
  | setRate token rate =>
    cases reply with
    | ok => rfl
    | _ => cases h

theorem AgentCall.outcome_error {c : AgentCall} {display : ErrorMessage → String} (e : ApiError) :
    c.outcome serde (e.intoResponse display) = .error (e.seen display) := rfl

/-- What is answered to a request, a writing one or not. -/
def Handled.Expects : Handled → Reply → Prop
  | .write r, reply => r.Expects reply
  | .health, .health _ => True
  | .offers _, .offers _ => True
  | .getAccount _, .accountDetails _ => True
  | .getRental _, .rentalDetails _ => True
  | _, _ => False

theorem Cmd.outcome_ok {cmd : Cmd} {handled : Handled} {reply : Reply}
    (hcall : cmd.call = some handled) (h : handled.Expects reply)
    (hfits : reply.Fits serde) :
    cmd.outcome serde (reply.intoResponse serde) = .ok reply.output := by
  cases cmd with
  | health =>
    cases hcall
    cases reply with
    | health lnBackend =>
      have hread := serde.decode_encode (HealthResponse.fields serde)
        (a := { ok := true, lnBackend }) ⟨serde.fits_bool true, serde.fits_str lnBackend⟩
      simp [outcome, read, Reply.intoResponse, hread, Reply.output]
    | _ => cases h
  | offers args =>
    cases hcall
    cases reply with
    | offers rows =>
      have hread := serde.decode_encode (OffersResponse.fields serde) hfits
      simp [outcome, read, Reply.intoResponse, hread, Reply.output]
    | _ => cases h
  | createAccount =>
    cases hcall
    cases reply with
    | account id =>
      have hread := serde.decode_encode (CreateAccountResponse.fields serde) (a := ⟨id⟩)
        (serde.fits_str id)
      simp [outcome, read, Reply.intoResponse, hread, Reply.output]
    | _ => cases h
  | account id =>
    cases hcall
    cases reply with
    | accountDetails a =>
      have hread := serde.decode_encode (AccountResponse.fields serde) hfits
      simp [outcome, read, Reply.intoResponse, hread, Reply.output]
    | _ => cases h
  | deposit id sats =>
    cases hcall
    cases reply with
    | invoice bolt11 hash sats =>
      have hread := serde.decode_encode (DepositResponse.fields serde) hfits
      simp [outcome, read, Reply.intoResponse, hread, Reply.output]
    | _ => cases h
  | rent args =>
    obtain ⟨req, -, rfl⟩ := Option.map_eq_some_iff.mp hcall
    cases reply with
    | rental id status rate =>
      have hread := serde.decode_encode (CreateRentalResponse.fields serde) hfits
      simp [outcome, read, Reply.intoResponse, hread, Reply.output]
    | _ => cases h
  | rental id =>
    cases hcall
    cases reply with
    | rentalDetails r =>
      have hread := serde.decode_encode (RentalResponse.fields serde) hfits
      simp [outcome, read, Reply.intoResponse, hread, Reply.output]
    | _ => cases h
  | stop id =>
    cases hcall
    cases reply with
    | rentalStatus id' status =>
      obtain rfl : id' = id := h
      rfl
    | _ => cases h

theorem Cmd.outcome_error {cmd : Cmd} {display : ErrorMessage → String} (e : ApiError) :
    cmd.outcome serde (e.intoResponse display) = .error (e.printed display) := by
  simp [outcome, ApiError.intoResponse, index, ApiError.printed]

def Handled.Answered (env : Env) (acts : List ServerAct) (result : Except ApiError Reply) :
    Handled → Prop
  | .write r => ∃ n : Nat, (requests acts)[n]? = some r ∧
      (serve env acts).threads[n]? = some (.done result)
  | .health => result = .ok (GpuMarket.health env)
  | .offers q => result = .ok (GpuMarket.offers q (serve env acts).store)
  | .getAccount id => result = GpuMarket.getAccount id (serve env acts).store
  | .getRental id => result = GpuMarket.getRental id (serve env acts).store

theorem Handled.Answered.expects {env : Env} {acts : List ServerAct} {handled : Handled}
    {reply : Reply} (h : handled.Answered env acts (.ok reply)) : handled.Expects reply := by
  cases handled with
  | write r =>
    obtain ⟨n, hr, ht⟩ := h
    exact Request.expects_reply hr ht
  | health =>
    cases h
    trivial
  | offers q =>
    cases h
    trivial
  | getAccount id =>
    have hget : GpuMarket.getAccount id (serve env acts).store = .ok reply := h.symm
    obtain ⟨a, -, hreply⟩ := bind_eq_ok.mp hget
    cases hreply
    trivial
  | getRental id =>
    have hget : GpuMarket.getRental id (serve env acts).store = .ok reply := h.symm
    obtain ⟨r, -, hreply⟩ := bind_eq_ok.mp hget
    split at hreply <;> cases hreply
    trivial

theorem endpointHint_eq {id : Int} {db : Db} {rental : RentalResponse}
    (h : getRental id db = .ok (.rentalDetails rental)) (hkind : rental.kind = .ssh) :
    endpointHint rental.kind rental.sshHost rental.sshPort =
      rental.sshCommand.map fun command => ("SSH:", command) := by
  obtain ⟨r, -, h⟩ := bind_eq_ok.mp h
  split at h <;> cases h
  have hrow : r.kind = .ssh := hkind
  cases hhost : r.sshHost <;> cases hport : r.sshPort <;>
    simp [endpointHint, sshCommand, hrow, hhost, hport]

end Answers

end GpuMarket
