import GpuMarket.ControlPlane.Contract

namespace GpuMarket

open Lib

/-- An operation of the control plane with all that the world outside answers while it runs. -/
inductive Op : Type
  | health
  | offers (q : OffersQuery)
  | getAccount (id : String)
  | getRental (id : Int)
  | register (req : RegisterRequest) (token : String) (now : Int)
  | heartbeat (auth : Option String) (req : HeartbeatRequest) (now : Int)
  | report (auth : Option String) (req : ReportRequest) (now : Int)
  | rate (auth : Option String) (req : RateRequest)
  | payout (auth : Option String) (req : PayoutRequest) (paid : Bool) (now : Int)
  | createAccount (id : String) (now : Int)
  | deposit (id : String) (req : DepositRequest) (invoice : Option Invoice) (now : Int)
  | createRental (req : CreateRentalRequest) (now : Int)
  | deleteRental (id : Int) (now : Int)
  | pollInvoices (isSettled : String → Option Bool) (now : String → Int)
  | markOffline (now : Int)
  | enforceBudgets (now : Int → Int)

/-- The database that a handler leaves: an error rolls its transaction back. -/
def committed (db : Db) : Except ApiError (Db × Reply) → Db
  | .ok (db', _) => db'
  | .error _ => db

/-- An operation that runs with nothing else in between. -/
def Op.step (env : Env) (db : Db) : Op → Db
  | .health | .offers _ | .getAccount _ | .getRental _ => db
  | .register req token now => committed db (GpuMarket.register req token now db)
  | .heartbeat auth req now => committed db (GpuMarket.heartbeat env auth req now db)
  | .report auth req now => committed db (GpuMarket.report env auth req now db)
  | .rate auth req => committed db (GpuMarket.rate auth req db)
  | .payout auth _ paid now => committed db (GpuMarket.payout auth paid now db)
  | .createAccount id now => committed db (createAccountTx id now db)
  | .deposit id req invoice now => committed db (GpuMarket.deposit id req invoice now db)
  | .createRental req now => committed db (createRentalTx env req now db)
  | .deleteRental id now => committed db (GpuMarket.deleteRental env id now db)
  | .pollInvoices isSettled now => (GpuMarket.pollInvoices isSettled now db).1
  | .markOffline now => GpuMarket.markOffline env now db
  | .enforceBudgets now => (GpuMarket.enforceBudgets env now db).1

def Op.reply (env : Env) (db : Db) : Op → Option (Except ApiError Reply)
  | .health => some (.ok (GpuMarket.health env))
  | .offers q => some (.ok (GpuMarket.offers q db))
  | .getAccount id => some (GpuMarket.getAccount id db)
  | .getRental id => some (GpuMarket.getRental id db)
  | .register req token now => some ((GpuMarket.register req token now db).map (·.2))
  | .heartbeat auth req now => some ((GpuMarket.heartbeat env auth req now db).map (·.2))
  | .report auth req now => some ((GpuMarket.report env auth req now db).map (·.2))
  | .rate auth req => some ((GpuMarket.rate auth req db).map (·.2))
  | .payout auth _ paid now => some ((GpuMarket.payout auth paid now db).map (·.2))
  | .createAccount id now => some ((createAccountTx id now db).map (·.2))
  | .deposit id req invoice now => some ((GpuMarket.deposit id req invoice now db).map (·.2))
  | .createRental req now => some ((createRentalTx env req now db).map (·.2))
  | .deleteRental id now => some ((GpuMarket.deleteRental env id now db).map (·.2))
  | .pollInvoices .. | .markOffline _ | .enforceBudgets _ => none

/-- The database after the operations, one at a time, from an empty one. -/
def perform (env : Env) (ops : List Op) : Db := run (Op.step env) .empty ops

/-- The rows that the transaction's handler has read are the current ones. -/
def Txn.Fresh (db : Db) : Txn → Prop
  | .registerUpdate m _ _ => m ∈ db.machines.rows
  | .heartbeat machine _ _ => machine ∈ db.machines.rows
  | .report machine rental req _ =>
    machine ∈ db.machines.rows ∧ rental ∈ db.rentals.rows ∧ rental.id = req.rentalId ∧
      rental.machineId = machine.id
  | .rate machine _ => machine ∈ db.machines.rows
  | .payout machine _ => machine ∈ db.machines.rows ∧ 0 < machine.payoutBalance
  | .deposit _ req _ _ => 0 < req.sats
  | .deleteRental r _ => r ∈ db.rentals.rows ∧ alreadyStopping r = false
  | .pollInvoice p _ => db.Awaits p
  | .evict r _ => r ∈ db.rentals.rows ∧ r.status = .running
  | .registerInsert .. | .createAccount .. | .createRental .. | .markOffline _ => True

theorem Txn.Fresh.valid {db : Db} {txn : Txn} (h : txn.Fresh db) : txn.Valid db := by
  cases txn with
  | registerUpdate m req now => exact ⟨m, h, rfl⟩
  | heartbeat machine req now => exact ⟨machine, h, rfl⟩
  | report machine rental req now => exact ⟨⟨machine, h.1, rfl⟩, ⟨rental, h.2.1, rfl⟩, h.2.2⟩
  | rate machine req => exact ⟨machine, h, rfl⟩
  | payout machine now => exact ⟨⟨machine, h.1, rfl⟩, h.2⟩
  | deposit id req invoice now => exact h
  | deleteRental r now => exact ⟨⟨r, h.1, rfl⟩, h.2⟩
  | pollInvoice p now => exact h
  | evict r now => exact ⟨⟨r, h.1, rfl⟩, h.2⟩
  | registerInsert | createAccount | createRental | markOffline => trivial

def Op.Runs (op : Op) (db : Db) (txn : Txn) : Prop :=
  txn.Fresh db ∧
    match op with
    | .health | .offers _ | .getAccount _ | .getRental _ => False
    | .register req token now =>
      (∃ m, txn = .registerUpdate m req now) ∨ txn = .registerInsert req token now
    | .heartbeat auth req now =>
      ∃ machine, authenticate db auth = .ok machine ∧ txn = .heartbeat machine req now
    | .report auth req now =>
      ∃ machine rental, authenticate db auth = .ok machine ∧
        rentalOfMachine db req.rentalId machine.id = .ok rental ∧
        txn = .report machine rental req now
    | .rate auth req => ∃ machine, authenticate db auth = .ok machine ∧ txn = .rate machine req
    | .payout auth _ paid now =>
      ∃ machine, authenticate db auth = .ok machine ∧ paid = true ∧ txn = .payout machine now
    | .createAccount id now => txn = .createAccount id now
    | .deposit id req invoice now => ∃ inv, invoice = some inv ∧ txn = .deposit id req inv now
    | .createRental req now => txn = .createRental req now
    | .deleteRental id now => ∃ r, findRental db id = .ok r ∧ txn = .deleteRental r now
    | .pollInvoices isSettled now =>
      ∃ p, isSettled p.paymentHash = some true ∧ txn = .pollInvoice p (now p.paymentHash)
    | .markOffline now => txn = .markOffline now
    | .enforceBudgets now => ∃ r, txn = .evict r (now r.id)

/-- The database changes by transactions of a kind, one after the other. -/
inductive Evolves (env : Env) (K : Db → Txn → Prop) : Db → Db → Prop
  | refl (db : Db) : Evolves env K db db
  | step {db db' db'' : Db} {txn : Txn} {v : Reply} : K db txn →
      txn.exec env db = .ok (db', v) → Evolves env K db' db'' → Evolves env K db db''

namespace Evolves

variable {env : Env} {K : Db → Txn → Prop}

theorem single {db db' : Db} {txn : Txn} {v : Reply} (hK : K db txn)
    (hx : txn.exec env db = .ok (db', v)) : Evolves env K db db' := .step hK hx (.refl _)

theorem preserves {J : Db → Prop}
    (hJ : ∀ {db : Db} {txn : Txn} {db' : Db} {v : Reply}, K db txn →
      txn.exec env db = .ok (db', v) → J db → J db')
    {db db' : Db} (h : Evolves env K db db') (hs : J db) : J db' := by
  induction h with
  | refl db => exact hs
  | step hK hx _ ih => exact ih (hJ hK hx hs)

theorem toExtends {db db' : Db} (h : Evolves env K db db') : db.Extends db' := by
  induction h with
  | refl db => exact .refl db
  | step _ hx _ ih => exact (Db.Extends.exec hx).trans ih

end Evolves

theorem committed_evolves {env : Env} {K : Db → Txn → Prop} {db : Db}
    {x : Except ApiError (Db × Reply)}
    (h : ∀ db' v, x = .ok (db', v) →
      db' = db ∨ ∃ txn : Txn, K db txn ∧ txn.exec env db = .ok (db', v)) :
    Evolves env K db (committed db x) := by
  cases x with
  | error e => exact .refl db
  | ok r =>
    obtain heq | ⟨txn, hK, hx⟩ := h r.1 r.2 rfl
    · simp only [committed, heq]
      exact .refl db
    · exact .single hK hx

section Passes

variable {env : Env}

theorem pollInvoicesLoop_evolves {isSettled : String → Option Bool} {now : String → Int}
    {pending : List PendingInvoice} {db : Db} (hall : ∀ p ∈ pending, db.Awaits p)
    (hnodup : (pending.map (·.paymentHash)).Nodup) :
    Evolves env (Op.pollInvoices isSettled now).Runs db
      (pollInvoicesLoop isSettled now pending db).1 := by
  induction pending generalizing db with
  | nil => exact .refl db
  | cons p rest ih =>
    obtain ⟨hp, hrest⟩ := List.nodup_cons.mp hnodup
    simp only [pollInvoicesLoop]
    split
    · exact .refl db
    · exact ih (fun p' hp' => hall p' (List.mem_cons_of_mem _ hp')) hrest
    · split
      case h_1 db' htx =>
        have hx : (Txn.pollInvoice p (now p.paymentHash)).exec env db = .ok (db', .ok) :=
          map_eq_ok.mpr ⟨db', sql_eq_ok.mpr htx, rfl⟩
        have hf : (Txn.pollInvoice p (now p.paymentHash)).Fresh db := hall p (List.mem_cons_self ..)
        refine .step ⟨hf, p, ‹_›, rfl⟩ hx (ih (fun p' hp' => ?_) hrest)
        refine (hall p' (List.mem_cons_of_mem _ hp')).exec_pollInvoice hx fun heq => hp ?_
        exact List.mem_map.mpr ⟨p', hp', heq⟩
      case h_2 => exact .refl db

theorem pollInvoices_evolves (isSettled : String → Option Bool) (now : String → Int) (db : Db) :
    Evolves env (Op.pollInvoices isSettled now).Runs db (pollInvoices isSettled now db).1 :=
  pollInvoicesLoop_evolves (fun _ => awaits_pendingInvoices) (pendingInvoices_nodup db)

theorem evictTx_exec {r : RentalRow} {now : Int} {db db' : Db}
    (h : evictTx env r now db = .ok db') : (Txn.evict r now).exec env db = .ok (db', .ok) :=
  map_eq_ok.mpr ⟨db', sql_eq_ok.mpr h, rfl⟩

theorem mem_rentals_of_evict {r r' : RentalRow} {now : Int} {db db' : Db} {v : Reply}
    (hx : (Txn.evict r now).exec env db = .ok (db', v)) (hr' : r' ∈ db.rentals.rows)
    (hne : r'.id ≠ r.id) : r' ∈ db'.rentals.rows := by
  obtain ⟨-, rfl⟩ := evict_ok hx
  exact List.mem_map.mpr ⟨r', hr', if_neg hne⟩

theorem enforceBudgetsLoop_evolves {now : Int → Int} {running : List RentalRow} {db : Db}
    (hall : ∀ r ∈ running, r ∈ db.rentals.rows ∧ r.status = .running)
    (hnodup : (running.map (·.id)).Nodup) :
    Evolves env (Op.enforceBudgets now).Runs db (enforceBudgetsLoop env now running db).1 := by
  induction running generalizing db with
  | nil => exact .refl db
  | cons r rest ih =>
    obtain ⟨hr, hrest⟩ := List.nodup_cons.mp hnodup
    have skip := ih (fun r' hr' => hall r' (List.mem_cons_of_mem _ hr')) hrest
    simp only [enforceBudgetsLoop]
    split
    case h_1 => exact .refl db
    case h_2 =>
      split
      case isTrue => exact skip
      case isFalse =>
        split
        case h_1 => exact .refl db
        case h_2 =>
          split
          case isTrue => exact skip
          case isFalse =>
            split
            case h_2 => exact .refl db
            case h_1 db' htx =>
              have hx := evictTx_exec htx
              have hf : (Txn.evict r (now r.id)).Fresh db := hall r (List.mem_cons_self ..)
              refine .step ⟨hf, r, rfl⟩ hx (ih (fun r' hr' => ?_) hrest)
              obtain ⟨hmem, hrun⟩ := hall r' (List.mem_cons_of_mem _ hr')
              refine ⟨mem_rentals_of_evict hx hmem fun heq => hr ?_, hrun⟩
              exact List.mem_map.mpr ⟨r', hr', heq⟩

theorem mem_runningRentals {db : Db} {r : RentalRow} :
    r ∈ runningRentals db ↔ r ∈ db.rentals.rows ∧ r.status = .running := by
  simp [runningRentals]

theorem runningRentals_nodup (db : Db) : ((runningRentals db).map (·.id)).Nodup :=
  db.rentals.nodup.sublist (List.filter_sublist.map _)

theorem enforceBudgets_evolves (now : Int → Int) (db : Db) :
    Evolves env (Op.enforceBudgets now).Runs db (enforceBudgets env now db).1 :=
  enforceBudgetsLoop_evolves (fun _ => mem_runningRentals.mp) (runningRentals_nodup db)

end Passes

theorem Op.evolves (env : Env) (db : Db) (op : Op) : Evolves env op.Runs db (op.step env db) := by
  cases op with
  | health | offers | getAccount | getRental => exact .refl db
  | register req token now =>
    refine committed_evolves fun db' v h => .inr ?_
    unfold GpuMarket.register at h
    split at h
    case h_1 m hm =>
      exact ⟨.registerUpdate m req now, ⟨List.mem_of_find?_eq_some hm, .inl ⟨m, rfl⟩⟩, h⟩
    case h_2 => exact ⟨.registerInsert req token now, ⟨trivial, .inr rfl⟩, h⟩
  | heartbeat auth req now =>
    refine committed_evolves fun db' v h => .inr ?_
    obtain ⟨machine, hm, h⟩ := bind_eq_ok.mp h
    exact ⟨.heartbeat machine req now, ⟨(authenticate_ok hm).1, machine, hm, rfl⟩, h⟩
  | report auth req now =>
    refine committed_evolves fun db' v h => .inr ?_
    obtain ⟨machine, hm, h⟩ := bind_eq_ok.mp h
    obtain ⟨rental, hr, h⟩ := bind_eq_ok.mp h
    exact ⟨.report machine rental req now,
      ⟨⟨(authenticate_ok hm).1, rentalOfMachine_ok hr⟩, machine, rental, hm, hr, rfl⟩, h⟩
  | rate auth req =>
    refine committed_evolves fun db' v h => .inr ?_
    obtain ⟨machine, hm, h⟩ := bind_eq_ok.mp h
    obtain ⟨-, -, h⟩ := bind_eq_ok.mp h
    exact ⟨.rate machine req, ⟨(authenticate_ok hm).1, machine, hm, rfl⟩, h⟩
  | payout auth req paid now =>
    refine committed_evolves fun db' v h => .inr ?_
    obtain ⟨machine, hm, h⟩ := bind_eq_ok.mp h
    obtain ⟨_, howed, h⟩ := bind_eq_ok.mp h
    split at h
    case isTrue hpaid =>
      exact ⟨.payout machine now,
        ⟨⟨(authenticate_ok hm).1, checkOwed_ok howed⟩, machine, hm, hpaid, rfl⟩, h⟩
    case isFalse => cases h
  | createAccount id now =>
    exact committed_evolves fun db' v h => .inr ⟨.createAccount id now, ⟨trivial, rfl⟩, h⟩
  | deposit id req invoice now =>
    refine committed_evolves fun db' v h => .inr ?_
    obtain ⟨_, hpos, h⟩ := bind_eq_ok.mp h
    obtain ⟨-, -, h⟩ := bind_eq_ok.mp h
    cases invoice with
    | none => cases h
    | some inv => exact ⟨.deposit id req inv now, ⟨checkDeposit_ok hpos, inv, rfl, rfl⟩, h⟩
  | createRental req now =>
    exact committed_evolves fun db' v h => .inr ⟨.createRental req now, ⟨trivial, rfl⟩, h⟩
  | deleteRental id now =>
    refine committed_evolves fun db' v h => ?_
    obtain ⟨r, hr, h⟩ := bind_eq_ok.mp h
    split at h
    case isTrue => cases h; exact .inl rfl
    case isFalse hstop =>
      exact .inr ⟨.deleteRental r now,
        ⟨⟨(findRental_ok hr).1, Bool.eq_false_iff.mpr hstop⟩, r, hr, rfl⟩, h⟩
  | pollInvoices isSettled now => exact pollInvoices_evolves isSettled now db
  | markOffline now => exact @Evolves.single env _ _ _ (.markOffline now) .ok ⟨trivial, rfl⟩ rfl
  | enforceBudgets now => exact enforceBudgets_evolves now db

theorem Op.report_step (env : Env) (db : Db) (auth : Option String) (req : ReportRequest)
    (now : Int) :
    (Op.report auth req now).step env db = db ∨ ∃ machine rental v,
      authenticate db auth = .ok machine ∧
      rentalOfMachine db req.rentalId machine.id = .ok rental ∧
      (Txn.report machine rental req now).exec env db =
        .ok ((Op.report auth req now).step env db, v) := by
  simp only [step]
  cases hx : GpuMarket.report env auth req now db with
  | error e => exact .inl rfl
  | ok r =>
    obtain ⟨machine, hm, hx⟩ := bind_eq_ok.mp hx
    obtain ⟨rental, hr, hx⟩ := bind_eq_ok.mp hx
    exact .inr ⟨machine, rental, r.2, hm, hr, hx⟩

theorem Op.report_step_of_ok {env : Env} {db : Db} (hwf : db.Wf) {auth : Option String}
    {req : ReportRequest} {now : Int} {machine : MachineRow} {rental : RentalRow}
    (hm : authenticate db auth = .ok machine)
    (hr : rentalOfMachine db req.rentalId machine.id = .ok rental) :
    ∃ v, (Txn.report machine rental req now).exec env db =
      .ok ((Op.report auth req now).step env db, v) := by
  obtain ⟨r, hx⟩ := @report_exec_ok env machine rental req now db hwf
    ⟨rental, (rentalOfMachine_ok hr).1, rfl⟩
  have hrun : GpuMarket.report env auth req now db = .ok r :=
    bind_eq_ok.mpr ⟨machine, hm, bind_eq_ok.mpr ⟨rental, hr, hx⟩⟩
  exact ⟨r.2, by rw [hx, step, hrun, committed]⟩

theorem Op.preserves {env : Env} {J : Db → Prop}
    (hJ : ∀ {db : Db} {txn : Txn} {db' : Db} {v : Reply}, txn.Fresh db →
      txn.exec env db = .ok (db', v) → J db → J db')
    {db : Db} (h : J db) (op : Op) : J (op.step env db) :=
  (op.evolves env db).preserves (fun hK => hJ hK.1) h

/-- What fresh transactions preserve holds after any sequence of operations. -/
theorem perform_preserves {env : Env} {J : Db → Prop}
    (hJ : ∀ {db : Db} {txn : Txn} {db' : Db} {v : Reply}, txn.Fresh db →
      txn.exec env db = .ok (db', v) → J db → J db')
    (h : J .empty) (ops : List Op) : J (perform env ops) :=
  run_invariant (I := J) (fun _ op h => Op.preserves hJ h op) h ops

theorem Op.wf {env : Env} {db : Db} (h : db.Wf) (op : Op) : (op.step env db).Wf :=
  Op.preserves (fun hf hx h => h.exec hf.valid hx) h op

theorem perform_wf (env : Env) (ops : List Op) : (perform env ops).Wf :=
  perform_preserves (fun hf hx h => h.exec hf.valid hx) Db.Wf.empty ops

def underway (rate sats : Int) : List Op :=
  [.register { testHost with rateSatsPerMin := rate } "agt_1" 0, .createAccount "acct_1" 0,
    .deposit "acct_1" ⟨sats⟩ (some ⟨"lnbc1", "01"⟩) 0,
    .pollInvoices (fun _ => some true) fun _ => 0,
    .createRental ⟨1, "acct_1", "nvidia/cuda:latest", some "ssh-ed25519 AAAA"⟩ 0,
    .report bearer { rentalId := 1, status := .running } 0]

end GpuMarket
