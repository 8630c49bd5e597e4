import GpuMarket.ControlPlane.Queue

namespace GpuMarket

open Lib

/-- What the database says where a key that a request brings along is taken already. -/
def Request.collisions : Request → List SqlxError
  | .register _ => [.unique "machines.agent_token", .unique "machines.host_id"]
  | .createAccount => [.primaryKey "accounts.id"]
  | .deposit .. => [.primaryKey "invoices.payment_hash"]
  | .heartbeat .. | .report .. | .rate .. | .payout .. | .createRental _ | .deleteRental _ => []

def ApiError.Within (cs : List SqlxError) (e : ApiError) : Prop :=
  e.status = .internalServerError → ∃ c ∈ cs, e = .ofSqlx c

/-- A request on its way, or its answer. -/
def Thread.Answers (db : Db) (r : Request) : Thread → Prop
  | .received r' => r' = r
  | .registerInsert req _ => r = .register req
  | .depositInvoice id req | .depositInsert id req _ _ => r = .deposit id req ∧ db.accounts.Has id
  | .done (.error e) => e.Within r.collisions
  | _ => True

theorem ApiError.within_of_ne {cs : List SqlxError} {e : ApiError}
    (h : e.status ≠ .internalServerError) : e.Within cs := fun hstatus => absurd hstatus h

theorem sql_within {x : Except SqlxError α} {cs : List SqlxError} {e : ApiError}
    (h : sql x = .error e) (hx : ∀ c, x = .error c → c ∈ cs) : e.Within cs := by
  obtain ⟨c, hc, rfl⟩ := mapError_eq_error.mp h
  exact fun _ => ⟨c, hx c hc, rfl⟩

section Transactions

variable {env : Env} {db : Db} {e : ApiError} {now : Int}

theorem authenticate_within {auth : Option String} {cs : List SqlxError}
    (h : authenticate db auth = .error e) : e.Within cs := by
  unfold authenticate at h
  apply ApiError.within_of_ne
  split at h
  case h_1 =>
    cases h
    decide
  case h_2 =>
    split at h
    · cases h
      decide
    · cases h

theorem registerInsert_within {req : RegisterRequest} {token : String}
    (h : registerInsert req token now db = .error e) :
    e.Within (Request.register req).collisions := by
  rcases bind_eq_error.mp h with h | ⟨r, -, h⟩
  · refine sql_within h fun c hc => ?_
    unfold Db.insertMachine at hc
    split at hc
    case isTrue =>
      cases hc
      exact List.mem_cons_self
    case isFalse =>
      split at hc
      · cases hc
        exact List.mem_cons_of_mem _ List.mem_cons_self
      · cases hc
  · cases h

theorem createAccount_within {id : String} (h : createAccountTx id now db = .error e) :
    e.Within Request.createAccount.collisions := by
  rcases bind_eq_error.mp h with h | ⟨db', -, h⟩
  · refine sql_within h fun c hc => ?_
    unfold Db.insertAccount at hc
    split at hc
    · cases hc
      exact List.mem_cons_self
    · cases hc
  · cases h

theorem deposit_within {id : String} {req : DepositRequest} {invoice : Invoice}
    (hid : db.accounts.Has id) (h : depositTx id req invoice now db = .error e) :
    e.Within (Request.deposit id req).collisions := by
  rcases bind_eq_error.mp h with h | ⟨db', -, h⟩
  · refine sql_within h fun c hc => ?_
    simp only [Db.insertInvoice, hid, if_true] at hc
    split at hc
    · cases hc
      exact List.mem_cons_self
    · cases hc
  · cases h

theorem heartbeatTx_no_error (hserde : env.serde.RoundTrip) (hnames : db.Names env)
    {machine : MachineRow} {req : HeartbeatRequest} :
    heartbeatTx env machine req now db ≠ .error e := by
  intro h
  rcases bind_eq_error.mp h with h | ⟨cmds, -, h⟩
  · obtain ⟨c, hc, hdecode⟩ := exists_of_mapM_error h
    obtain ⟨cmd, hcmd, -⟩ := hnames c (mem_undelivered.mp hc).1
    rw [decode, hcmd, hserde] at hdecode
    cases hdecode
  · cases h

theorem findRental_within {id : Int} {cs : List SqlxError} (h : findRental db id = .error e) :
    e.Within cs := by
  unfold findRental at h
  split at h
  · cases h
    exact ApiError.within_of_ne (by decide)
  · cases h

theorem rentalOfMachine_within {id machineId : Int} {cs : List SqlxError}
    (h : rentalOfMachine db id machineId = .error e) : e.Within cs := by
  unfold rentalOfMachine at h
  split at h
  · cases h
    exact ApiError.within_of_ne (by decide)
  · cases h

theorem checkRate_within {req : RateRequest} {cs : List SqlxError} (h : checkRate req = .error e) :
    e.Within cs := by
  unfold checkRate at h
  split at h
  · cases h
    exact ApiError.within_of_ne (by decide)
  · cases h

theorem checkOwed_within {machine : MachineRow} {cs : List SqlxError}
    (h : checkOwed machine = .error e) : e.Within cs := by
  unfold checkOwed at h
  split at h
  · cases h
    exact ApiError.within_of_ne (by decide)
  · cases h

theorem checkDeposit_within {req : DepositRequest} {cs : List SqlxError}
    (h : checkDeposit req = .error e) : e.Within cs := by
  unfold checkDeposit at h
  split at h
  · cases h
    exact ApiError.within_of_ne (by decide)
  · cases h

theorem findMachine_within {id : Int} {cs : List SqlxError} (h : findMachine db id = .error e) :
    e.Within cs := by
  unfold findMachine at h
  split at h
  · cases h
    exact ApiError.within_of_ne (by decide)
  · cases h

theorem findAccount_within {id : String} {cs : List SqlxError} (h : findAccount db id = .error e) :
    e.Within cs := by
  unfold findAccount at h
  split at h
  · cases h
    exact ApiError.within_of_ne (by decide)
  · cases h

theorem sshKey_within {req : CreateRentalRequest} {cs : List SqlxError}
    (h : sshKey req = .error e) : e.Within cs := by
  unfold sshKey at h
  apply ApiError.within_of_ne
  repeat' split at h
  all_goals cases h
  all_goals decide

theorem createRental_within {req : CreateRentalRequest}
    (h : createRentalTx env req now db = .error e) : e.Within [] := by
  rcases bind_eq_error.mp h with h | ⟨m, hm, h⟩
  · exact findMachine_within h
  rcases bind_eq_error.mp h with h | ⟨a, ha, h⟩
  · exact findAccount_within h
  rcases bind_eq_error.mp h with h | ⟨key, -, h⟩
  · exact sshKey_within h
  obtain ⟨hmem, hmid⟩ := findMachine_ok hm
  obtain ⟨hamem, haid⟩ := findAccount_ok ha
  by_cases honline : m.online
  · by_cases hocc : occupied db req.machineId
    · simp [honline, hocc, bind, Except.bind, throw, throwThe, MonadExceptOf.throw] at h
      subst h
      exact ApiError.within_of_ne (by decide)
    · by_cases hrate : a.balanceSats < m.rateSatsPerMin
      · simp [honline, hocc, hrate, bind, Except.bind, throw, throwThe, MonadExceptOf.throw] at h
        subst h
        exact ApiError.within_of_ne (by decide)
      · simp only [honline, hocc, hrate, not_true_eq_false, if_false] at h
        have hrefs : db.machines.Has req.machineId ∧ db.accounts.Has req.accountId :=
          ⟨⟨m, hmem, hmid⟩, ⟨a, hamem, haid⟩⟩
        rcases bind_eq_error.mp h with hins | ⟨⟨id, db₁⟩, hins, h⟩
        · simp only [Db.insertRental, hrefs, and_self, if_true] at hins
          cases hins
        · obtain ⟨-, heq⟩ := Db.insertRental_ok.mp (sql_eq_ok.mp hins)
          cases heq
          rcases bind_eq_error.mp h with hcmd | ⟨db₂, hcmd, h⟩
          · have hm' : (db.withRental req.machineId req.accountId req.image key m.rateSatsPerMin
              now).machines.Has req.machineId := hrefs.1
            simp only [Db.insertCommand, hm', if_true] at hcmd
            cases hcmd
          · cases h
  · simp [honline, bind, Except.bind, throw, throwThe, MonadExceptOf.throw] at h
    subst h
    exact ApiError.within_of_ne (by decide)

end Transactions

theorem fetch_answers {db : Db} {r : Request} {x : Except ApiError α} {next : α → Next Thread Txn}
    {t : Thread} (hn : fetch x next = .read t) (hx : ∀ e, x = .error e → e.Within r.collisions)
    (hnext : ∀ a, x = .ok a → next a = .read t → t.Answers db r) : t.Answers db r := by
  cases x with
  | error e =>
    cases hn
    exact hx e rfl
  | ok a => exact hnext a rfl hn

theorem Request.answers_read {db : Db} {i : Input} {r : Request} {t : Thread}
    (hn : r.next db i = .read t) : t.Answers db r := by
  cases r with
  | register req =>
    simp only [next] at hn
    split at hn
    · cases hn
      trivial
    · cases hn
      rfl
  | heartbeat auth req =>
    refine fetch_answers hn (fun e => authenticate_within) fun m _ hn => ?_
    cases hn
    trivial
  | report auth req =>
    refine fetch_answers hn (fun e => authenticate_within) fun m _ hn => ?_
    cases hn
    trivial
  | rate auth req =>
    refine fetch_answers hn (fun e => authenticate_within) fun m _ hn => ?_
    refine fetch_answers hn (fun e => checkRate_within) fun _ _ hn => ?_
    cases hn
    trivial
  | payout auth req =>
    refine fetch_answers hn (fun e => authenticate_within) fun m _ hn => ?_
    refine fetch_answers hn (fun e => checkOwed_within) fun _ _ hn => ?_
    cases hn
    trivial
  | createAccount => cases hn
  | deposit id req =>
    refine fetch_answers hn (fun e => checkDeposit_within) fun _ _ hn => ?_
    refine fetch_answers hn (fun e => findAccount_within) fun a ha hn => ?_
    cases hn
    obtain ⟨hmem, hid⟩ := findAccount_ok ha
    exact ⟨rfl, a, hmem, hid⟩
  | createRental req => cases hn
  | deleteRental id =>
    refine fetch_answers hn (fun e => findRental_within) fun row _ hn => ?_
    split at hn <;> cases hn <;> trivial

theorem Thread.answers_read {db : Db} {i : Input} {r : Request} {t t' : Thread}
    (h : t.Answers db r) (hn : t.next i db = .read t') : t'.Answers db r := by
  cases t with
  | received r' =>
    obtain rfl : r' = r := h
    exact Request.answers_read hn
  | reportRead machine req =>
    refine fetch_answers hn (fun e => rentalOfMachine_within) fun rental _ hn => ?_
    cases hn
    trivial
  | payoutPay machine req =>
    simp only [next] at hn
    split at hn
    · cases hn
      trivial
    · cases hn
      exact ApiError.within_of_ne (by decide)
  | depositInvoice id req =>
    simp only [next] at hn
    split at hn
    · cases hn
      exact ApiError.within_of_ne (by decide)
    · cases hn
      exact h
  | done reply =>
    cases hn
    exact h
  | registerUpdate | registerInsert | heartbeatTx | reportTx | rateUpdate | payoutTx | depositInsert
  | deleteRentalTx => cases hn

theorem Db.Extends.hasAccount {db db' : Db} (h : db.Extends db') {id : String}
    (hid : db.accounts.Has id) : db'.accounts.Has id := by
  obtain ⟨a, ha, rfl⟩ := hid
  obtain ⟨a', ha', hsame⟩ := List.mem_map.mp (h.accounts.subset (List.mem_map_of_mem ha))
  exact ⟨a', ha', hsame⟩

theorem Thread.Answers.mono {db db' : Db} (h : db.Extends db') {r : Request} {t : Thread}
    (ht : t.Answers db r) : t.Answers db' r := by
  cases t with
  | depositInvoice id req => exact ⟨ht.1, h.hasAccount ht.2⟩
  | depositInsert id req invoice now => exact ⟨ht.1, h.hasAccount ht.2⟩
  | done reply => cases reply <;> exact ht
  | _ => exact ht

theorem Thread.answers_finish {db : Db} {r : Request} {t : Thread} {e : ApiError}
    (h : t.Answers db r) (he : e.Within r.collisions) :
    (t.finish (.error e)).Answers db r := by
  cases t with
  | done reply => exact h
  | _ => exact he

theorem Request.creates {db : Db} {i : Input} {r : Request} {txn : Txn}
    (h : r.next db i = .commit txn) :
    r = .createAccount ∧ txn = .createAccount i.token i.now ∨
      ∃ req, r = .createRental req ∧ txn = .createRental req i.now := by
  cases r with
  | createAccount =>
    cases h
    exact .inl ⟨rfl, rfl⟩
  | createRental req =>
    cases h
    exact .inr ⟨req, rfl, rfl⟩
  | register req =>
    simp only [next] at h
    split at h <;> cases h
  | heartbeat auth req | report auth req =>
    obtain ⟨m, -, h⟩ := fetch_eq_commit.mp h
    cases h
  | rate auth req | payout auth req | deposit auth req =>
    obtain ⟨m, -, h⟩ := fetch_eq_commit.mp h
    obtain ⟨-, -, h⟩ := fetch_eq_commit.mp h
    cases h
  | deleteRental id =>
    obtain ⟨r, -, h⟩ := fetch_eq_commit.mp h
    split at h <;> cases h

theorem Thread.answers_error {env : Env} (hserde : env.serde.RoundTrip) {db : Db} (hwf : db.Wf)
    (hnames : db.Names env) {i : Input} {r : Request} {t : Thread} {txn : Txn} {e : ApiError}
    (ht : t.Ok db) (h : t.Answers db r) (hn : t.next i db = .commit txn)
    (hx : txn.exec env db = .error e) : e.Within r.collisions := by
  cases t with
  | received r' =>
    obtain rfl : r' = r := h
    rcases Request.creates hn with ⟨rfl, rfl⟩ | ⟨req, rfl, rfl⟩
    · exact createAccount_within hx
    · exact createRental_within hx
  | registerUpdate m req now =>
    cases hn
    cases hx
  | registerInsert req now =>
    obtain rfl : r = .register req := h
    cases hn
    exact registerInsert_within hx
  | heartbeatTx machine req now =>
    cases hn
    exact absurd hx (heartbeatTx_no_error hserde hnames)
  | reportTx machine rental req now =>
    cases hn
    obtain ⟨x, hok⟩ := @report_exec_ok env machine rental req now db hwf ht.2.1
    rw [hok] at hx
    cases hx
  | rateUpdate machine req =>
    cases hn
    cases hx
  | payoutTx machine now =>
    cases hn
    cases hx
  | depositInsert id req invoice now =>
    obtain ⟨rfl, hid⟩ := h
    cases hn
    exact deposit_within hid hx
  | deleteRentalTx row now =>
    cases hn
    obtain ⟨x, hok⟩ := @deleteRental_exec_ok env row now db hwf ht.1
    rw [hok] at hx
    cases hx
  | reportRead machine req =>
    obtain ⟨rental, -, hn⟩ := fetch_eq_commit.mp hn
    cases hn
  | payoutPay machine req =>
    simp only [next] at hn
    split at hn <;> cases hn
  | depositInvoice id req =>
    simp only [next] at hn
    split at hn <;> cases hn
  | done reply => cases hn

/-- The contract of the control plane, with a queue that can be read back. -/
def ServerConf.Readable (env : Env) (s : ServerConf) : Prop :=
  (serverContract env).Holds s ∧ s.store.Names env

theorem ServerConf.Readable.step {env : Env} {s : ServerConf} (h : s.Readable env)
    (a : ServerAct) : ServerConf.Readable env ((server env).step s a) :=
  ⟨h.1.step _ a, (serverContract env).step_preserves (J := fun db _ => db.Names env)
    (fun _ hv hx hnames => hnames.exec hv hx) h.1 h.2 a⟩

theorem server_answers {env : Env} (hserde : env.serde.RoundTrip) :
    (server env).Answers (ServerConf.Readable env) fun db r t => t.Answers db r where
  start _ _ := rfl
  read _ h hn := Thread.answers_read h hn
  commit {s r t i txn s' v} h hn hx := by
    cases t with
    | done reply => cases hn
    | _ => trivial
  error hs ht h hn hx :=
    Thread.answers_finish h (Thread.answers_error hserde hs.1.inv hs.2 (hs.1.thread _ ht) h hn hx)
  stable hx h := h.mono (Db.Extends.exec hx)

/-- The sums that the database keeps are integers: past an `i64` they become reals, which the
control plane cannot read back. -/
def Db.SumsFit (db : Db) : Prop :=
  (∀ a ∈ db.accounts.rows, a.balanceSats < 2 ^ 63) ∧
    ∀ m ∈ db.machines.rows, m.payoutBalance < 2 ^ 63

instance (db : Db) : Decidable db.SumsFit :=
  inferInstanceAs (Decidable ((∀ a ∈ db.accounts.rows, _) ∧ ∀ m ∈ db.machines.rows, _))

/-- Two registrations of one host, both begun before the host has a row. -/
def racingHosts : List ServerAct :=
  [.request (.register testHost), .request (.register testHost), .thread 0 {}, .thread 1 {},
    .thread 0 { token := "agt_1" }, .thread 1 { token := "agt_2" }]

end GpuMarket
