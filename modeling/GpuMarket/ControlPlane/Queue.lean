import GpuMarket.ControlPlane.Commands
import GpuMarket.ControlPlane.Evictions
import GpuMarket.HostAgent.Dispatch

namespace GpuMarket

open Lib

section Reports

variable {env : Env} {Q : ReportRequest → Prop}

def Thread.Reports (Q : ReportRequest → Prop) : Thread → Prop
  | .received (.report _ req) | .reportRead _ req | .reportTx _ _ req _ => Q req
  | _ => True

def ServerAct.Reports (Q : ReportRequest → Prop) : ServerAct → Prop
  | .request (.report _ req) => Q req
  | _ => True

def Txn.Reports (Q : ReportRequest → Prop) : Txn → Prop
  | .report _ _ req _ => Q req
  | _ => True

theorem Request.reports_read {db : Db} {i : Input} {r : Request} {t : Thread}
    (h : (Thread.received r).Reports Q) (hn : r.next db i = .read t) : t.Reports Q := by
  cases r with
  | register req => simp only [next] at hn; split at hn <;> cases hn <;> trivial
  | heartbeat auth req =>
    obtain ⟨e, rfl⟩ | ⟨m, -, hn⟩ := fetch_eq_read hn
    · trivial
    · cases hn; trivial
  | report auth req =>
    obtain ⟨e, rfl⟩ | ⟨m, -, hn⟩ := fetch_eq_read hn
    · trivial
    · cases hn; exact h
  | rate auth req =>
    obtain ⟨e, rfl⟩ | ⟨m, -, hn⟩ := fetch_eq_read hn
    · trivial
    · obtain ⟨e, rfl⟩ | ⟨-, -, hn⟩ := fetch_eq_read hn
      · trivial
      · cases hn; trivial
  | payout auth req =>
    obtain ⟨e, rfl⟩ | ⟨m, -, hn⟩ := fetch_eq_read hn
    · trivial
    · obtain ⟨e, rfl⟩ | ⟨-, -, hn⟩ := fetch_eq_read hn
      · trivial
      · cases hn; trivial
  | createAccount => cases hn
  | deposit id req =>
    obtain ⟨e, rfl⟩ | ⟨-, -, hn⟩ := fetch_eq_read hn
    · trivial
    · obtain ⟨e, rfl⟩ | ⟨-, -, hn⟩ := fetch_eq_read hn
      · trivial
      · cases hn; trivial
  | createRental req => cases hn
  | deleteRental id =>
    obtain ⟨e, rfl⟩ | ⟨r, -, hn⟩ := fetch_eq_read hn
    · trivial
    · split at hn <;> cases hn <;> trivial

theorem Thread.reports_read {db : Db} {i : Input} {t t' : Thread} (h : t.Reports Q)
    (hn : t.next i db = .read t') : t'.Reports Q := by
  cases t with
  | received r => exact Request.reports_read h hn
  | reportRead machine req =>
    obtain ⟨e, rfl⟩ | ⟨rental, -, hn⟩ := fetch_eq_read hn
    · trivial
    · cases hn; exact h
  | payoutPay machine req => simp only [next] at hn; split at hn <;> cases hn <;> trivial
  | depositInvoice id req => simp only [next] at hn; split at hn <;> cases hn <;> trivial
  | done reply => cases hn; trivial
  | registerUpdate | registerInsert | heartbeatTx | reportTx | rateUpdate | payoutTx | depositInsert
  | deleteRentalTx => cases hn

theorem serve_reports {acts : List ServerAct} (h : ∀ a ∈ acts, a.Reports Q) :
    ∀ t ∈ (serve env acts).threads, t.Reports Q := by
  induction acts using List.reverseRecOn with
  | nil => exact fun t ht => absurd ht List.not_mem_nil
  | append_singleton acts a ih =>
    rw [serve, run_concat]
    refine (server env).step_threads ?_ (fun i t t' ht hn => Thread.reports_read ht hn) ?_
      (ih fun a ha => h a (List.mem_append_left _ ha))
    · rintro r rfl
      have hr := h (.request r) (by simp)
      cases r <;> exact hr
    · intro t r
      cases t <;> trivial

theorem serve_commits_reports {acts : List ServerAct} (h : ∀ a ∈ acts, a.Reports Q) :
    Along (server env).step ((server env).Commits fun _ txn => txn.Reports Q) ServerConf.init
      acts := by
  intro pre a hpre txn hc
  have hthreads := @serve_reports env Q pre fun b hb =>
    h b (hpre.subset (List.mem_append_left _ hb))
  cases txn with
  | report machine rental req now =>
    obtain ⟨n, i, t, -, ht, -, hn⟩ | ⟨i, -, -, hn⟩ := (server env).commits_cases hc
    · have hreports := hthreads t ht
      rw [Thread.next_report hn] at hreports
      exact hreports
    · obtain ⟨p, now, rest, -, h⟩ | ⟨-, h⟩ | ⟨r, now, rest, -, h⟩ := Ticker.next_commit hn <;>
        cases h
  | _ => trivial

end Reports

structure Message where
  id : Int
  machineId : Int
  command : Option Command
  deriving DecidableEq

def CommandRow.decoded (env : Env) (c : CommandRow) : Message :=
  ⟨c.id, c.machineId, env.serde.fromStr c.payload⟩

def Db.messages (env : Env) (db : Db) : List Message := db.commands.rows.map (·.decoded env)

def Message.starts (id : Int) (m : Message) : Bool :=
  match m.command with
  | some (.startRental id' _ _) => id' = id
  | _ => false

def RentalRow.start (r : RentalRow) : Command := .startRental r.id r.image r.sshPubkey

def messagesOf (nextId : Int) : Post Int Command → List Message
  | .send machineId cmd => [⟨nextId, machineId, some cmd⟩]
  | _ => []

def CommandRow.letter (c : CommandRow) : Int × Int × String := (c.id, c.machineId, c.payload)

def Db.letters (db : Db) : List (Int × Int × String) := db.commands.rows.map (·.letter)

def lettersOf (env : Env) (nextId : Int) : Post Int Command → List (Int × Int × String)
  | .send machineId cmd => [(nextId, machineId, env.serde.toString cmd)]
  | .drain _ | .idle => []

theorem exec_letters {env : Env} {txn : Txn} {db db' : Db} {v : Reply}
    (hx : txn.exec env db = .ok (db', v)) :
    db'.letters = db.letters ++ lettersOf env db.commands.nextId (Txn.post (txn, v)) := by
  have hqueued := exec_queued hx
  generalize Txn.post (txn, v) = post at hqueued ⊢
  cases hqueued with
  | idle hsame => rw [Db.letters, Db.letters, hsame, lettersOf, List.append_nil]
  | send machineId cmd now hsame =>
    rw [Db.letters, Db.letters, hsame]
    simp [Db.withCommand, lettersOf, CommandRow.letter, CommandRow.queued]
  | drain machineId hsame =>
    rw [Db.letters, Db.letters, hsame, Table.rows_mapRows, List.map_map, lettersOf, List.append_nil]
    refine List.map_congr_left fun c _ => ?_
    simp only [Function.comp_apply]
    split <;> rfl

theorem messages_eq_letters (env : Env) (db : Db) :
    db.messages env = db.letters.map fun l => ⟨l.1, l.2.1, env.serde.fromStr l.2.2⟩ := by
  rw [Db.messages, Db.letters, List.map_map]
  rfl

theorem exec_messages {env : Env} (hserde : env.serde.RoundTrip) {txn : Txn} {db db' : Db}
    {v : Reply} (hx : txn.exec env db = .ok (db', v)) :
    db'.messages env = db.messages env ++ messagesOf db.commands.nextId (Txn.post (txn, v)) := by
  rw [messages_eq_letters, messages_eq_letters, exec_letters hx, List.map_append]
  congr 1
  cases Txn.post (txn, v) with
  | send machineId cmd => simp only [lettersOf, messagesOf, List.map_cons, List.map_nil, hserde cmd]
  | drain | idle => rfl

theorem mem_commands_of_exec {env : Env} {txn : Txn} {db db' : Db} {v : Reply} {c : CommandRow}
    (hx : txn.exec env db = .ok (db', v)) (hc : c ∈ db'.commands.rows) :
    (∃ c₀ ∈ db.commands.rows, c₀.machineId = c.machineId ∧ c₀.payload = c.payload) ∨
      ∃ cmd, Txn.post (txn, v) = .send c.machineId cmd ∧ c.payload = env.serde.toString cmd := by
  have hletter : c.letter ∈ db'.letters := List.mem_map_of_mem hc
  rw [exec_letters hx] at hletter
  rcases List.mem_append.mp hletter with hold | hnew
  · obtain ⟨c₀, hc₀, hsame⟩ := List.mem_map.mp hold
    have hrest := congrArg Prod.snd hsame
    exact .inl ⟨c₀, hc₀, congrArg Prod.fst hrest, congrArg Prod.snd hrest⟩
  · cases hpost : Txn.post (txn, v) with
    | send machineId cmd =>
      rw [hpost] at hnew
      have hrest := congrArg Prod.snd (List.mem_singleton.mp hnew)
      obtain rfl : c.machineId = machineId := congrArg Prod.fst hrest
      exact .inr ⟨cmd, rfl, congrArg Prod.snd hrest⟩
    | drain | idle =>
      rw [hpost] at hnew
      cases hnew

/-- Every row of the queue is the text of a command for a rental of its machine. -/
def Db.Names (env : Env) (db : Db) : Prop :=
  ∀ c ∈ db.commands.rows, ∃ cmd, c.payload = env.serde.toString cmd ∧
    ∃ r ∈ db.rentals.rows, r.id = cmd.rentalId ∧ r.machineId = c.machineId

theorem Db.Names.empty (env : Env) : Db.empty.Names env := fun _ hc => absurd hc List.not_mem_nil

theorem Db.Names.exec {env : Env} {txn : Txn} {db db' : Db} {v : Reply} (h : db.Names env)
    (hv : txn.Valid db) (hx : txn.exec env db = .ok (db', v)) : db'.Names env := by
  intro c hc
  rcases mem_commands_of_exec hx hc with ⟨c₀, hc₀, hmachine, hpayload⟩ | ⟨cmd, hpost, hpayload⟩
  · obtain ⟨cmd, hcmd, r, hr, hid, hm⟩ := h c₀ hc₀
    obtain ⟨r', hr', hterms⟩ := (Db.Extends.exec hx).rental hr
    obtain ⟨hm', -, -, -, -, -, hid'⟩ := RentalRow.terms_eq_iff.mp hterms
    exact ⟨cmd, hpayload ▸ hcmd, r', hr', hid'.trans hid, (hm'.trans hm).trans hmachine⟩
  · obtain ⟨r, hr, hid, hm⟩ := Txn.rental_of_post hv hx hpost
    exact ⟨cmd, hpayload, r, hr, hid, hm⟩

theorem Db.Names.message {env : Env} (hserde : env.serde.RoundTrip) {db : Db} (h : db.Names env)
    {m : Message} (hm : m ∈ db.messages env) : ∃ cmd, m.command = some cmd ∧
      ∃ r ∈ db.rentals.rows, r.id = cmd.rentalId ∧ r.machineId = m.machineId := by
  obtain ⟨c, hc, rfl⟩ := List.mem_map.mp hm
  obtain ⟨cmd, hcmd, hrental⟩ := h c hc
  refine ⟨cmd, ?_, hrental⟩
  rw [CommandRow.decoded, hcmd, hserde]

/-- Every message names a rental of its machine; every rental has been sent one start, its own, and
a stop after it once it is evicting. -/
structure Db.Commanded (env : Env) (db : Db) : Prop where
  names : ∀ m ∈ db.messages env, ∃ cmd, m.command = some cmd ∧
    ∃ r ∈ db.rentals.rows, r.id = cmd.rentalId ∧ r.machineId = m.machineId
  start : ∀ r ∈ db.rentals.rows, ∃ n,
    (db.messages env).filter (·.starts r.id) = [⟨n, r.machineId, some r.start⟩] ∧
      (r.status = .evicting →
        ∃ n', n < n' ∧ ⟨n', r.machineId, some (.stopRental r.id)⟩ ∈ db.messages env)

theorem Db.Commanded.empty (env : Env) : Db.empty.Commanded env :=
  ⟨fun _ hm => absurd hm List.not_mem_nil, fun _ hr => absurd hr List.not_mem_nil⟩

theorem lt_nextId_of_message {env : Env} {db : Db} {m : Message} (hm : m ∈ db.messages env) :
    m.id < db.commands.nextId := by
  obtain ⟨c, hc, rfl⟩ := List.mem_map.mp hm
  exact Table.lt_nextId hc

theorem RentalRow.start_of_terms {r r' : RentalRow} (h : r.terms = r'.terms) :
    r.start = r'.start := by
  obtain ⟨-, -, himage, hkey, -, -, hid⟩ := RentalRow.terms_eq_iff.mp h
  rw [start, start, himage, hkey, hid]

theorem Db.Commanded.rewritten {env : Env} (hserde : env.serde.RoundTrip) {db db' : Db}
    (h : db.Commanded env) (hnames : db'.Names env)
    {f : RentalRow → RentalRow} (hf : ∀ r, (f r).terms = r.terms)
    (hrows : db'.rentals.rows = db.rentals.rows.map f) {added : List Message}
    (hmessages : db'.messages env = db.messages env ++ added)
    (hadded : ∀ m ∈ added, ∃ id, m.command = some (.stopRental id))
    (hstatus : ∀ r ∈ db.rentals.rows, (f r).status = .evicting → r.status = .evicting ∨
      ⟨db.commands.nextId, r.machineId, some (.stopRental r.id)⟩ ∈ added) : db'.Commanded env := by
  have fid : ∀ r, (f r).id = r.id := fun r => (congrArg RentalRow.id (hf r) :)
  have fmachine : ∀ r, (f r).machineId = r.machineId := fun r =>
    (congrArg RentalRow.machineId (hf r) :)
  refine ⟨fun m hm => hnames.message hserde hm, fun r' hr' => ?_⟩
  rw [hrows] at hr'
  obtain ⟨r, hr, rfl⟩ := List.mem_map.mp hr'
  obtain ⟨n, hstart, hstop⟩ := h.start r hr
  have none_started : added.filter (·.starts r.id) = [] := by
    refine List.filter_eq_nil_iff.mpr fun m hm => ?_
    obtain ⟨id, hcmd⟩ := hadded m hm
    simp [Message.starts, hcmd]
  refine ⟨n, ?_, fun hevicting => ?_⟩
  · rw [hmessages, List.filter_append, fid, fmachine, RentalRow.start_of_terms (hf r), hstart,
      none_started, List.append_nil]
  · rw [hmessages, fid, fmachine]
    rcases hstatus r hr hevicting with hbefore | hnew
    · obtain ⟨n', hlt, hmem⟩ := hstop hbefore
      exact ⟨n', hlt, List.mem_append_left _ hmem⟩
    · have hn : (⟨n, r.machineId, some r.start⟩ : Message) ∈ db.messages env := by
        have hmem := List.mem_singleton_self (⟨n, r.machineId, some r.start⟩ : Message)
        rw [← hstart] at hmem
        exact List.mem_of_mem_filter hmem
      exact ⟨_, lt_nextId_of_message hn, List.mem_append_right _ hnew⟩

theorem Db.Commanded.create {env : Env} (hserde : env.serde.RoundTrip) {req : CreateRentalRequest}
    {now : Int} {db db' : Db} {v : Reply} (h : db.Commanded env) (hnames : db'.Names env)
    (hx : (Txn.createRental req now).exec env db = .ok (db', v)) : db'.Commanded env := by
  have hmessages := exec_messages hserde hx
  obtain ⟨m, -, -, a, -, -, -, -, -, rfl, key, hkey, rfl⟩ := createRentalTx_ok hx
  simp only [Txn.post, hkey, messagesOf] at hmessages
  have mem_rentals : ∀ r, r ∈ ((db.withRental req.machineId req.accountId req.image key
      m.rateSatsPerMin now).withCommand req.machineId (env.serde.toString
        (.startRental db.rentals.nextId req.image key)) now).rentals.rows ↔ r ∈ db.rentals.rows ∨
          r = .created req.machineId req.accountId req.image key m.rateSatsPerMin now
            db.rentals.nextId := fun r => Db.mem_withRental
  refine ⟨fun m hm => hnames.message hserde hm, fun r hr => ?_⟩
  rcases (mem_rentals r).mp hr with hr | rfl
  · obtain ⟨n, hstart, hstop⟩ := h.start r hr
    have hne : db.rentals.nextId ≠ r.id := fun heq => db.rentals.not_has_nextId ⟨r, hr, heq.symm⟩
    refine ⟨n, ?_, fun hevicting => ?_⟩
    · rw [hmessages, List.filter_append, hstart]
      simp [Message.starts, hne]
    · obtain ⟨n', hlt, hmem⟩ := hstop hevicting
      exact ⟨n', hlt, hmessages ▸ List.mem_append_left _ hmem⟩
  · -- no message so far names the new rental
    have unnamed : (db.messages env).filter (·.starts db.rentals.nextId) = [] := by
      refine List.filter_eq_nil_iff.mpr fun msg hmsg hstarts => ?_
      obtain ⟨cmd, hcmd, r, hr, hid, -⟩ := h.names msg hmsg
      refine db.rentals.not_has_nextId ⟨r, hr, hid.trans ?_⟩
      cases cmd with
      | startRental id image key => simpa [Message.starts, hcmd, Command.rentalId] using hstarts
      | stopRental id => simp [Message.starts, hcmd] at hstarts
    refine ⟨db.commands.nextId, ?_, fun hevicting => by cases hevicting⟩
    rw [hmessages, List.filter_append, RentalRow.created_id, unnamed]
    simp [Message.starts, RentalRow.start, RentalRow.created]

theorem Db.Commanded.exec {env : Env} (hserde : env.serde.RoundTrip) {txn : Txn} {db db' : Db}
    {v : Reply} (h : db.Commanded env) (hnames : db'.Names env) (hv : txn.Valid db)
    (hx : txn.exec env db = .ok (db', v)) (hreport : txn.Reports (·.status ≠ .evicting)) :
    db'.Commanded env := by
  have hmessages := exec_messages hserde hx
  obtain ⟨charge, new, hrows, hopens, -⟩ := exec_rentals hv hx
  -- only a creation adds a rental
  have none_new : (∀ req now, txn ≠ .createRental req now) → new = [] := by
    intro hne
    obtain rfl | ⟨r, -, ⟨req, now, heq⟩, -⟩ := hopens
    · rfl
    · exact absurd heq (hne req now)
  -- a deletion or eviction queues its stop
  have stop : ∀ r₀ : RentalRow, db.HasRental r₀ → (∀ req now, txn ≠ .createRental req now) →
      Txn.post (txn, v) = .send r₀.machineId (.stopRental r₀.id) → txn.target = some r₀.id →
        db'.Commanded env := by
    intro r₀ hr₀ hne hpost htarget
    rw [none_new hne, List.append_nil] at hrows
    rw [hpost] at hmessages
    obtain ⟨cur, hcur, hid, hmachine, -⟩ := hr₀.row
    refine h.rewritten hserde hnames (txn.rewrite_terms charge) hrows hmessages ?_
      fun r hr hevicting => ?_
    · intro m hm
      exact ⟨r₀.id, by rw [List.mem_singleton.mp hm]⟩
    · by_cases heq : r.id = r₀.id
      · refine .inr (List.mem_singleton.mpr ?_)
        rw [Table.eq_of_key_eq hr hcur (heq.trans hid.symm), hid, hmachine]
      · rw [Txn.rewrite_status, Txn.statusOf_of_ne] at hevicting
        · exact .inl hevicting
        · rw [htarget]
          exact fun h => heq (Option.some.inj h).symm
  have idle : (∀ req now, txn ≠ .createRental req now) →
      messagesOf db.commands.nextId (Txn.post (txn, v)) = [] →
        (∀ r, txn.statusOf r = .evicting → r.status = .evicting) → db'.Commanded env := by
    intro hne hpost hstatus
    rw [none_new hne, List.append_nil] at hrows
    rw [hpost] at hmessages
    refine h.rewritten hserde hnames (txn.rewrite_terms charge) hrows hmessages
      (fun m hm => absurd hm List.not_mem_nil) fun r _ hevicting => .inl (hstatus r ?_)
    rwa [Txn.rewrite_status] at hevicting
  cases txn with
  | createRental req now => exact h.create hserde hnames hx
  | deleteRental r now => exact stop r hv.1 (by simp) rfl rfl
  | evict r now => exact stop r hv.1 (by simp) rfl rfl
  | report machine rental req now =>
    refine idle (by simp) rfl fun r hevicting => ?_
    simp only [Txn.statusOf] at hevicting
    split at hevicting
    · exact absurd hevicting hreport
    · exact hevicting
  | _ => exact idle (by simp) rfl fun r hevicting => hevicting

def ReportRequest.OfDispatch (req : ReportRequest) : Prop :=
  req.status = .running ∨ req.status = .stopped ∨ req.status = .failed

instance (req : ReportRequest) : Decidable req.OfDispatch :=
  inferInstanceAs (Decidable (_ ∨ _))

theorem ReportRequest.OfDispatch.ne_evicting {req : ReportRequest} (h : req.OfDispatch) :
    req.status ≠ .evicting := by
  rcases h with h | h | h <;> rw [h] <;> decide

theorem serve_commanded {env : Env} (hserde : env.serde.RoundTrip) {acts : List ServerAct}
    (hreports : ∀ a ∈ acts, a.Reports ReportRequest.OfDispatch) :
    (serve env acts).store.Commanded env := by
  refine (serverContract env).always_of_commits
    (J := fun db _ => db.Names env ∧ db.Commanded env) (P := fun db _ => db.Commanded env)
    (fun _ h => h.2)
    (fun _ hv hx h hD => ⟨h.1.exec hv hx, h.2.exec hserde (h.1.exec hv hx) hv hx ?_⟩)
    (init_holds env) ⟨Db.Names.empty env, Db.Commanded.empty env⟩ (serve_commits_reports hreports)
    acts List.prefix_rfl
  cases ‹Txn› with
  | report machine rental req now => exact ReportRequest.OfDispatch.ne_evicting hD
  | _ => trivial

/-- As long as reports carry only the statuses that `dispatch` sends, every rental has one start
command, its own, and a later stop command once it is evicting; and every command names a rental of
its machine that has been sent its start. -/
theorem commands_complete {env : Env} (hserde : env.serde.RoundTrip) (acts : List ServerAct)
    (hreports : ∀ a ∈ acts, a.Reports ReportRequest.OfDispatch) :
    let db := (serve env acts).store
    (∀ r ∈ db.rentals.rows, ∃ c,
      db.commands.rows.filter (fun c => (c.decoded env).starts r.id) = [c] ∧
        c.machineId = r.machineId ∧
        env.serde.fromStr c.payload = some (.startRental r.id r.image r.sshPubkey) ∧
        (r.status = .evicting → ∃ c' ∈ db.commands.rows, c.id < c'.id ∧
          c'.machineId = r.machineId ∧ env.serde.fromStr c'.payload = some (.stopRental r.id))) ∧
    (∀ c ∈ db.commands.rows, ∀ id, env.serde.fromStr c.payload = some (.stopRental id) →
      ∃ c' ∈ db.commands.rows, (c'.decoded env).starts id = true) ∧
    ∀ c ∈ db.commands.rows, ∃ cmd, env.serde.fromStr c.payload = some cmd ∧
      db.rentals.Has cmd.rentalId ∧
        ∀ r ∈ db.rentals.rows, r.id = cmd.rentalId → r.machineId = c.machineId := by
  intro db
  have hdb : db.Commanded env := serve_commanded hserde hreports
  have start : ∀ r ∈ db.rentals.rows, ∃ c,
      db.commands.rows.filter (fun c => (c.decoded env).starts r.id) = [c] ∧
        c.decoded env = ⟨c.id, r.machineId, some r.start⟩ ∧
        (r.status = .evicting → ∃ c' ∈ db.commands.rows, c.id < c'.id ∧
          c'.machineId = r.machineId ∧
          env.serde.fromStr c'.payload = some (.stopRental r.id)) := by
    intro r hr
    obtain ⟨n, hstart, hstop⟩ := hdb.start r hr
    rw [Db.messages, List.filter_map] at hstart
    obtain ⟨c, hc, hdecoded⟩ := List.map_eq_singleton_iff.mp hstart
    have hid : c.id = n := congrArg Message.id hdecoded
    refine ⟨c, hc, hid ▸ hdecoded, fun hevicting => ?_⟩
    obtain ⟨n', hlt, hmem⟩ := hstop hevicting
    obtain ⟨c', hc', hdecoded'⟩ := List.mem_map.mp hmem
    have hid' : c'.id = n' := congrArg Message.id hdecoded'
    exact ⟨c', hc', by omega, congrArg Message.machineId hdecoded',
      congrArg Message.command hdecoded'⟩
  refine ⟨fun r hr => ?_, fun c hc id hstop => ?_, fun c hc => ?_⟩
  · obtain ⟨c, hc, hdecoded, hstop⟩ := start r hr
    exact ⟨c, hc, congrArg Message.machineId hdecoded, congrArg Message.command hdecoded, hstop⟩
  · obtain ⟨cmd, hcmd, r, hr, hid, -⟩ := hdb.names _ (List.mem_map_of_mem hc)
    obtain rfl : cmd = .stopRental id := Option.some.inj (hcmd.symm.trans hstop)
    obtain ⟨c', hc', -⟩ := start r hr
    have hmem := List.mem_singleton_self c'
    rw [← hc'] at hmem
    obtain ⟨hmem, hstarts⟩ := List.mem_filter.mp hmem
    have hrid : r.id = id := hid
    exact ⟨c', hmem, hrid ▸ hstarts⟩
  · obtain ⟨cmd, hcmd, r, hr, hid, hmachine⟩ := hdb.names _ (List.mem_map_of_mem hc)
    refine ⟨cmd, hcmd, ⟨r, hr, hid⟩, fun r' hr' hid' => ?_⟩
    rw [Table.eq_of_key_eq hr' hr (hid'.trans hid.symm)]
    exact hmachine

/-- The ticker evicts the rental that has outrun its account. -/
def evicted : List ServerAct := overrun ++ [.daemon {}]

/-- It has been sent its stop. -/
theorem commands_complete_evicted :
    (∀ a ∈ evicted, a.Reports ReportRequest.OfDispatch) ∧
    ∃ r ∈ (serve testEnv evicted).store.rentals.rows, r.status = .evicting ∧
      ∃ c ∈ (serve testEnv evicted).store.commands.rows,
        testEnv.serde.fromStr c.payload = some (.startRental r.id r.image r.sshPubkey) ∧
          ∃ c' ∈ (serve testEnv evicted).store.commands.rows, c.id < c'.id ∧
            testEnv.serde.fromStr c'.payload = some (.stopRental r.id) := by
  have reports : ∀ a ∈ evicted, a.Reports ReportRequest.OfDispatch := by
    simp [evicted, overrun, opening, call, ServerAct.Reports, ReportRequest.OfDispatch]
  obtain ⟨r, hr, hevicting⟩ : ∃ r ∈ (serve testEnv evicted).store.rentals.rows,
      r.status = .evicting := by decide +kernel
  obtain ⟨c, hc, -, hstart, hstop⟩ :=
    (commands_complete Serde.json_roundTrip evicted reports).1 r hr
  obtain ⟨c', hc', hlt, -, hpayload⟩ := hstop hevicting
  have hmem := List.mem_singleton_self c
  rw [← hc] at hmem
  exact ⟨reports, r, hr, hevicting, c, List.mem_of_mem_filter hmem, hstart, c', hc', hlt, hpayload⟩

end GpuMarket
