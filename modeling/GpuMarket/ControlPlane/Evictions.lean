import GpuMarket.ControlPlane.Accounts
import GpuMarket.ControlPlane.Books
import GpuMarket.ControlPlane.Budgets

namespace GpuMarket

open Lib

def Db.Overdrawn (env : Env) (db : Db) (now : Int) (r : RentalRow) : Prop :=
  ∃ a ∈ db.accounts.rows, a.id = r.accountId ∧ a.balanceSats < r.accrued env now

def Txn.Justified (env : Env) (db : Db) : Txn → Prop
  | .evict r now => db.Overdrawn env now r
  | _ => True

def Ticker.Justified (env : Env) (db : Db) : Ticker → Prop
  | .evictTx r now _ => db.Overdrawn env now r
  | _ => True

/-- An account overdrawn when the ticker has read it stays so until the ticker deposits. -/
theorem Db.Overdrawn.exec {env : Env} {txn : Txn} {db db' : Db} {v : Reply}
    (hx : txn.exec env db = .ok (db', v)) (hne : ∀ p now, txn ≠ .pollInvoice p now) {now : Int}
    {r : RentalRow} (h : db.Overdrawn env now r) : db'.Overdrawn env now r := by
  obtain ⟨a, ha, hid, hover⟩ := h
  obtain ⟨a', ha', hid', hle⟩ := exec_balance_le hx hne ha
  exact ⟨a', ha', hid'.trans hid, hle.trans_lt hover⟩

theorem Ticker.Justified.mono {env : Env} {txn : Txn} {db db' : Db} {v : Reply}
    (hx : txn.exec env db = .ok (db', v)) (hne : ∀ p now, txn ≠ .pollInvoice p now) {k : Ticker}
    (h : k.Justified env db) : k.Justified env db' := by
  cases k with
  | evictTx r now rest => exact Db.Overdrawn.exec hx hne h
  | _ => trivial

theorem Ticker.justified_read {env : Env} {i : Input} {db : Db} {k k' : Ticker}
    (hn : k.next env i db = .read k') : k'.Justified env db := by
  cases k with
  | idle => cases hn; trivial
  | poll pending =>
    cases pending with
    | nil => cases hn; trivial
    | cons p rest => simp only [next] at hn; split at hn <;> cases hn <;> trivial
  | enforce => cases hn; trivial
  | budgets running =>
    cases running with
    | nil => cases hn; trivial
    | cons r rest =>
      simp only [next] at hn
      split at hn
      · cases hn; trivial
      · split at hn <;> cases hn <;> trivial
  | balance r now rest =>
    simp only [next] at hn
    split at hn
    case h_1 => cases hn; trivial
    case h_2 sats hsats =>
      split at hn
      case isTrue => cases hn; trivial
      case isFalse hover =>
        cases hn
        obtain ⟨a, ha, hid, rfl⟩ := Db.balanceOf_ok hsats
        exact ⟨a, ha, hid, not_le.mp hover⟩
  | pollTx | markOffline | evictTx => cases hn

theorem Ticker.justified_resume (env : Env) (db : Db) (k : Ticker) (x : Except ApiError Reply) :
    (k.resume x).Justified env db := by
  cases k <;> cases x <;> trivial

theorem Thread.next_ne_evict {i : Input} {db : Db} (t : Thread) {r : RentalRow} {now : Int} :
    t.next i db ≠ .commit (.evict r now) := by
  intro hn
  cases t with
  | received req => rcases Request.next_commit hn with h | ⟨req, h⟩ <;> cases h
  | reportRead machine req => obtain ⟨rental, -, hn⟩ := fetch_eq_commit.mp hn; cases hn
  | payoutPay machine req => simp only [next] at hn; split at hn <;> cases hn
  | depositInvoice id req => simp only [next] at hn; split at hn <;> cases hn
  | registerUpdate | registerInsert | heartbeatTx | reportTx | rateUpdate | payoutTx | depositInsert
  | deleteRentalTx | done => cases hn

theorem Thread.justified_commit {env : Env} {i : Input} {db : Db} {t : Thread} {txn : Txn}
    (hn : t.next i db = .commit txn) : txn.Justified env db := by
  cases txn with
  | evict r now => exact absurd hn t.next_ne_evict
  | _ => trivial

def evictionContract (env : Env) : (server env).Contract :=
  { serverContract env with
    Valid := fun db txn => txn.Valid db ∧ txn.Justified env db
    DaemonOk := fun db k => k.Ok db ∧ k.Justified env db
    exec_inv := fun hwf hv => hwf.exec hv.1
    thread_commit := fun _ ht hn => ⟨(Thread.next_commit ht hn).1, Thread.justified_commit hn⟩
    thread_stable := fun _ _ hx ht => ht.mono (Db.Extends.exec hx)
    daemon_read := fun _ hk hn => ⟨Ticker.next_read hk.1 hn, Ticker.justified_read hn⟩
    daemon_commit := fun _ hk hn => ⟨Ticker.commit_valid hk.1 hn, by
      obtain ⟨p, now, rest, rfl, rfl⟩ | ⟨rfl, rfl⟩ | ⟨r, now, rest, rfl, rfl⟩ := Ticker.next_commit hn
      · trivial
      · trivial
      · exact hk.2⟩
    daemon_resume := fun _ hk hn hx => ⟨Ticker.resume_ok hk.1 hn hx, Ticker.justified_resume _ _ _ _⟩
    daemon_error := fun db k e => ⟨(serverContract env).daemon_error db k e,
      Ticker.justified_resume _ _ _ _⟩
    daemon_stable := fun _ ht hn hx hk =>
      ⟨Ticker.Ok.mono hx (Thread.next_commit ht hn).2 hk.1, hk.2.mono hx (Thread.next_commit ht hn).2⟩ }

def ServerAct.isDaemon : ServerAct → Bool
  | .daemon _ => true
  | _ => false

/-- `now` is the clock of the step in which the ticker came to the rental in its current pass; the
ticker has made `k` steps since. -/
def LookedAt (env : Env) (acts : List ServerAct) (r : RentalRow) (now : Int) (k : Nat) : Prop :=
  ∃ pre i mid rest, acts = pre ++ .daemon i :: mid ∧ (serve env pre).daemon = .budgets (r :: rest) ∧
    i.now = now ∧ (mid.filter ServerAct.isDaemon).length = k

def Ticker.Traced (env : Env) (acts : List ServerAct) : Ticker → Prop
  | .balance r now _ => LookedAt env acts r now 0
  | .evictTx r now _ => LookedAt env acts r now 1
  | _ => True

theorem LookedAt.concat {env : Env} {acts : List ServerAct} {r : RentalRow} {now : Int} {k : Nat}
    (h : LookedAt env acts r now k) (a : ServerAct) :
    LookedAt env (acts ++ [a]) r now (k + if a.isDaemon then 1 else 0) := by
  obtain ⟨pre, i, mid, rest, rfl, hdaemon, hnow, hcount⟩ := h
  refine ⟨pre, i, mid ++ [a], rest, by simp, hdaemon, hnow, ?_⟩
  cases ha : a.isDaemon <;> simp [List.filter_append, ha, hcount]

theorem Ticker.traced_resume (env : Env) (acts : List ServerAct) (k : Ticker)
    (x : Except ApiError Reply) : (k.resume x).Traced env acts := by
  cases k <;> cases x <;> trivial

theorem Ticker.traced_read {env : Env} {acts : List ServerAct} {i : Input} {k' : Ticker}
    (h : (serve env acts).daemon.Traced env acts)
    (hn : (serve env acts).daemon.next env i (serve env acts).store = .read k') :
    k'.Traced env (acts ++ [.daemon i]) := by
  cases hk : (serve env acts).daemon with
  | idle => rw [hk] at hn; cases hn; trivial
  | poll pending =>
    rw [hk] at hn
    cases pending with
    | nil => cases hn; trivial
    | cons p rest => simp only [next] at hn; split at hn <;> cases hn <;> trivial
  | enforce => rw [hk] at hn; cases hn; trivial
  | budgets running =>
    rw [hk] at hn
    cases running with
    | nil => cases hn; trivial
    | cons r rest =>
      simp only [next] at hn
      split at hn
      · cases hn; trivial
      · split at hn <;> cases hn
        · trivial
        · exact ⟨acts, i, [], rest, rfl, hk, rfl, rfl⟩
  | balance r now rest =>
    rw [hk] at hn h
    simp only [next] at hn
    split at hn
    · cases hn; trivial
    · split at hn <;> cases hn
      · trivial
      · exact LookedAt.concat h (.daemon i)
  | pollTx | markOffline | evictTx => rw [hk] at hn; cases hn

theorem Ticker.Traced.concat {env : Env} {acts : List ServerAct} {k : Ticker}
    (h : k.Traced env acts) {a : ServerAct} (ha : a.isDaemon = false) :
    k.Traced env (acts ++ [a]) := by
  have later : ∀ r now n, LookedAt env acts r now n → LookedAt env (acts ++ [a]) r now n := by
    intro r now n hlook
    simpa [ha] using hlook.concat a
  cases k with
  | balance r now rest => exact later r now 0 h
  | evictTx r now rest => exact later r now 1 h
  | idle | poll | pollTx | markOffline | enforce | budgets => trivial

theorem serve_concat (env : Env) (acts : List ServerAct) (a : ServerAct) :
    serve env (acts ++ [a]) = (server env).step (serve env acts) a := run_concat ..

theorem serve_traced (env : Env) (acts : List ServerAct) :
    (serve env acts).daemon.Traced env acts := by
  induction acts using List.reverseRecOn with
  | nil => trivial
  | append_singleton acts a ih =>
    cases a with
    | daemon i =>
      rw [serve_concat]
      simp only [System.step, System.daemonStep]
      split
      case h_1 => exact Ticker.traced_resume ..
      case h_2 =>
        split
        case h_1 k' hn => exact Ticker.traced_read ih hn
        case h_2 => split <;> exact Ticker.traced_resume ..
    | request r =>
      rw [serve_concat, System.step_daemon _ _ (by simp)]
      exact ih.concat rfl
    | thread n i =>
      rw [serve_concat, System.step_daemon _ _ (by simp)]
      exact ih.concat rfl

/-- Only the ticker evicts, from where it has found the account overdrawn. -/
theorem commits_evict {env : Env} {s : ServerConf} {a : ServerAct} {r : RentalRow} {now : Int}
    (h : (server env).commits s a = some (.evict r now)) :
    ∃ rest, s.daemon = .evictTx r now rest := by
  obtain ⟨n, i, t, -, -, -, hn⟩ | ⟨i, -, -, hn⟩ := (server env).commits_cases h
  · exact absurd hn t.next_ne_evict
  · obtain ⟨p, now', rest, -, h⟩ | ⟨-, h⟩ | ⟨r', now', rest, hk, h⟩ := Ticker.next_commit hn
    · cases h
    · cases h
    · cases h
      exact ⟨rest, hk⟩

theorem init_holds_eviction (env : Env) : (evictionContract env).Holds ServerConf.init where
  inv := Db.Wf.empty
  daemon := ⟨trivial, trivial⟩
  thread _ ht := absurd ht List.not_mem_nil

theorem serve_credited (env : Env) (acts : List ServerAct) :
    ∀ p now v, (.pollInvoice p now, v) ∈ (serve env acts).log → (serve env acts).store.Credited p := by
  refine (serverContract env).run_preserves
    (J := fun db log => ∀ p now v, (.pollInvoice p now, v) ∈ log → db.Credited p)
    (fun _ hv hx h p now v hmem => ?_) (init_holds env)
    (fun _ _ _ h => absurd h List.not_mem_nil) acts
  rcases List.mem_append.mp hmem with hmem | hmem
  · exact (h p now v hmem).exec hx
  · cases List.mem_singleton.mp hmem
    exact @Db.Awaits.credited env _ _ _ _ _ hx hv

/-- An eviction is committed where the rental has accrued more, by the clock that the ticker read
for it in the same pass, than its account holds; and the balance is all that the account's settled
invoices have paid in, the ones that the ticker has credited among them, less what it was charged. -/
theorem evictions_justified (env : Env) (acts : List ServerAct) {a : ServerAct} {r : RentalRow}
    {now : Int} (h : (server env).commits (serve env acts) a = some (.evict r now)) :
    let db := (serve env acts).store
    LookedAt env acts r now 1 ∧
    ∃ cur ∈ db.rentals.rows, cur.id = r.id ∧
      ∃ acct ∈ db.accounts.rows, acct.id = cur.accountId ∧
        acct.balanceSats < accruedCharge env.arith cur.createdAt now cur.rateSatsPerMin ∧
        acct.balanceSats = settledSats db acct.id - debitedSats db acct.id ∧
        ∀ p t v, (.pollInvoice p t, v) ∈ (serve env acts).log → db.Credited p := by
  intro db
  obtain ⟨rest, hdaemon⟩ := commits_evict h
  have hlook := serve_traced env acts
  rw [hdaemon] at hlook
  obtain ⟨⟨hr, -⟩, acct, hacct, hid, hover⟩ :=
    ((init_holds_eviction env).run _ acts).valid (evictionContract env) h
  obtain ⟨cur, hcur, hcid, -, haccount, hrate, hcreated⟩ := hr.row
  refine ⟨hlook, cur, hcur, hcid, acct, hacct, hid.trans haccount.symm, ?_, ?_,
    serve_credited env acts⟩
  · rw [hcreated, hrate]
    exact hover
  · exact (serve_books env acts).2.balance_eq hacct

/-- The rental outruns its account's 30 sats before the ticker looks at it. -/
def overrun : List ServerAct :=
  opening 30 ++
  call 3 (.createRental ⟨1, "acct_1", "nvidia/cuda:latest", some "ssh-ed25519 AAAA"⟩) [{}] ++
  call 4 (.report bearer { rentalId := 1, status := .running }) [{}, {}, {}] ++
  call 5 (.heartbeat bearer ⟨true⟩) [{ now := 240 }, {}] ++
  [.daemon {}, .daemon { now := 240 }, .daemon {}, .daemon { now := 240 }, .daemon {}]

def Txn.eviction : Txn → Option (RentalRow × Int)
  | .evict r now => some (r, now)
  | _ => none

theorem Txn.eq_evict {txn : Txn} {r : RentalRow} {now : Int} (h : txn.eviction = some (r, now)) :
    txn = .evict r now := by
  cases txn with
  | evict => cases h; rfl
  | _ => cases h

theorem evictions_justified_overrun :
    ∃ r, (server testEnv).commits (serve testEnv overrun) (.daemon {}) = some (.evict r 240) ∧
      LookedAt testEnv overrun r 240 1 ∧
      ∃ cur ∈ (serve testEnv overrun).store.rentals.rows, cur.id = r.id ∧
        ∃ acct ∈ (serve testEnv overrun).store.accounts.rows, acct.id = cur.accountId ∧
          acct.balanceSats < accruedCharge testEnv.arith cur.createdAt 240 cur.rateSatsPerMin := by
  have evicts : (((server testEnv).commits (serve testEnv overrun) (.daemon {})).bind
      Txn.eviction).map (·.2) = some 240 := by decide +kernel
  obtain ⟨⟨r, now⟩, hbind, rfl⟩ := Option.map_eq_some_iff.mp evicts
  obtain ⟨txn, hc, heviction⟩ := Option.bind_eq_some_iff.mp hbind
  obtain rfl := Txn.eq_evict heviction
  obtain ⟨hlook, cur, hcur, hid, acct, hacct, haid, hover, -⟩ :=
    evictions_justified testEnv overrun hc
  exact ⟨r, hc, hlook, cur, hcur, hid, acct, hacct, haid, hover⟩

end GpuMarket
