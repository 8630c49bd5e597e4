import GpuMarket.ControlPlane.Machines

namespace GpuMarket

open Lib

def paidBy (machineId : Int) : Txn × Reply → Int
  | (.payout machine _, .paid sats) => if machine.id = machineId then sats else 0
  | _ => 0

def paidSats (log : List (Txn × Reply)) (machineId : Int) : Int :=
  (log.map (paidBy machineId)).sum

/-- What every machine has been paid and is still owed is what its rentals have credited it. -/
def HostsPaid (db : Db) (log : List (Txn × Reply)) : Prop :=
  ∀ m ∈ db.machines.rows, paidSats log m.id + m.payoutBalance = hostCredits db.ledger m.id

def Db.MayPay (db : Db) : Txn → Prop
  | .payout machine _ =>
    ∀ cur ∈ db.machines.rows, cur.id = machine.id → cur.payoutBalance = machine.payoutBalance
  | _ => True

theorem paidSats_concat (log : List (Txn × Reply)) (e : Txn × Reply) (id : Int) :
    paidSats (log ++ [e]) id = paidSats log id + paidBy id e := by
  simp [paidSats]

def LogOk (db : Db) (log : List (Txn × Reply)) : Prop :=
  ∀ e ∈ log, ∀ machine now, e.1 = .payout machine now → db.machines.Has machine.id

theorem paidSats_eq_zero {db : Db} {log : List (Txn × Reply)} (h : LogOk db log) {id : Int}
    (hid : ¬db.machines.Has id) : paidSats log id = 0 := by
  refine List.sum_eq_zero fun x hx => ?_
  obtain ⟨⟨txn, v⟩, he, rfl⟩ := List.mem_map.mp hx
  unfold paidBy
  split
  case h_1 machine now sats heq =>
    cases heq
    refine if_neg fun hm => hid ?_
    exact hm ▸ h _ he machine now rfl
  case h_2 => rfl

theorem LogOk.exec {env : Env} {txn : Txn} {db db' : Db} {v : Reply} {log : List (Txn × Reply)}
    (h : LogOk db log) (hv : txn.Valid db) (hx : txn.exec env db = .ok (db', v)) :
    LogOk db' (log ++ [(txn, v)]) := by
  intro e he machine now htxn
  refine (Db.Extends.exec hx).hasMachine ?_
  rcases List.mem_append.mp he with he | he
  · exact h e he machine now htxn
  · obtain rfl := List.mem_singleton.mp he
    obtain rfl : txn = .payout machine now := htxn
    exact hv.1.has

/-- How far what a payout has read of a machine is from what it owes. -/
def Txn.stale (m : MachineRow) : Txn → Int
  | .payout machine _ =>
    if m.id = machine.id then machine.payoutBalance - m.payoutBalance else 0
  | _ => 0

theorem Db.MayPay.stale {db : Db} {txn : Txn} (h : db.MayPay txn) {m : MachineRow}
    (hm : m ∈ db.machines.rows) : txn.stale m = 0 := by
  cases txn with
  | payout machine now =>
    by_cases hid : m.id = machine.id
    · simp [Txn.stale, hid, h m hm hid]
    · simp [Txn.stale, hid]
  | _ => rfl

/-- A payout takes from the balance what it returns, and what it had read too much or too
little of. -/
theorem payout_balance {env : Env} {charge : Int} {txn : Txn} {db db' : Db} {v : Reply}
    (hx : txn.exec env db = .ok (db', v)) (m : MachineRow) :
    paidBy m.id (txn, v) + (txn.rewriteMachine env charge m).payoutBalance =
      m.payoutBalance + txn.credits charge m.id + txn.stale m := by
  cases txn with
  | payout machine now =>
    cases hx
    by_cases hid : m.id = machine.id
    · simp [paidBy, Txn.rewriteMachine, Txn.credits, Txn.stale, hid]
    · simp [paidBy, Txn.rewriteMachine, Txn.credits, Txn.stale, hid, Ne.symm hid]
  | registerUpdate m₀ req now =>
    by_cases hid : m.id = m₀.id <;>
      simp [paidBy, Txn.rewriteMachine, Txn.credits, Txn.stale, hid, RegisterRequest.refresh]
  | heartbeat machine req now =>
    by_cases hid : m.id = machine.id <;> simp [paidBy, Txn.rewriteMachine, Txn.credits, Txn.stale, hid]
  | rate machine req =>
    by_cases hid : m.id = machine.id <;> simp [paidBy, Txn.rewriteMachine, Txn.credits, Txn.stale, hid]
  | markOffline now =>
    simp only [paidBy, Txn.rewriteMachine, Txn.credits, Txn.stale]
    split <;> simp
  | report machine rental req now => simp [paidBy, Txn.rewriteMachine, Txn.stale]
  | _ => simp [paidBy, Txn.rewriteMachine, Txn.credits, Txn.stale]

theorem HostsPaid.exec {env : Env} {txn : Txn} {db db' : Db} {v : Reply} {log : List (Txn × Reply)}
    (h : HostsPaid db log) (hlog : LogOk db log) (hwf : db.Wf)
    (hx : txn.exec env db = .ok (db', v)) (hmay : db.MayPay txn) :
    HostsPaid db' (log ++ [(txn, v)]) := by
  obtain ⟨charge, hrows, hcredits⟩ := exec_machines hx
  intro m hm
  rw [hrows] at hm
  rw [paidSats_concat, hcredits]
  rcases List.mem_append.mp hm with hm | hm
  · obtain ⟨m₀, hm₀, rfl⟩ := List.mem_map.mp hm
    have hstep := @payout_balance env charge txn db db' v hx m₀
    have hbefore := h m₀ hm₀
    rw [hmay.stale hm₀] at hstep
    rw [Txn.rewriteMachine_id]
    omega
  · cases txn with
    | registerInsert req token now =>
      obtain rfl := List.mem_singleton.mp hm
      have hnew := db.machines.not_has_nextId
      have hledger : hostCredits db.ledger db.machines.nextId = 0 :=
        hostCredits_eq_zero fun l hl howner => hnew (hwf.ledger_machine l hl _ howner)
      rw [RegisterRequest.toRow_id, paidSats_eq_zero hlog hnew, hledger]
      rfl
    | _ => cases hm

theorem HostsPaid.not_exec {env : Env} {txn : Txn} {db db' : Db} {v : Reply}
    {log : List (Txn × Reply)} (h : HostsPaid db log) (hx : txn.exec env db = .ok (db', v))
    (hmay : ¬db.MayPay txn) : ¬HostsPaid db' (log ++ [(txn, v)]) := by
  intro hafter
  apply hmay
  cases txn with
  | payout machine now =>
    intro cur hcur hid
    obtain ⟨charge, hrows, hcredits⟩ := exec_machines hx
    have hstep := @payout_balance env charge _ db db' v hx cur
    have hcur' := hafter _ (hrows ▸ List.mem_append_left _ (List.mem_map_of_mem hcur))
    have hbefore := h cur hcur
    simp only [Txn.stale, hid, if_true] at hstep
    rw [paidSats_concat, hcredits, Txn.rewriteMachine_id, hid] at hcur'
    rw [hid] at hbefore
    omega
  | _ => trivial

/-- What hosts have been paid and are owed is what they were credited, in every state of a run,
exactly as long as every payout finds the balance that it has read. -/
theorem hosts_paid_iff (env : Env) (acts : List ServerAct) :
    Always (server env).step (fun s => HostsPaid s.store s.log) ServerConf.init acts ↔
      Along (server env).step ((server env).Commits Db.MayPay) ServerConf.init acts := by
  refine (serverContract env).always_iff_commits
    (J := fun db log => HostsPaid db log ∧ LogOk db log) (P := HostsPaid) (fun _ h => h.1)
    (fun hwf hv hx h hmay => ⟨h.1.exec h.2 hwf hx hmay, h.2.exec hv hx⟩) ?_
    (fun _ _ hx h hmay => h.1.not_exec hx hmay) (init_holds env)
    ⟨fun _ hm => absurd hm List.not_mem_nil, fun _ he => absurd he List.not_mem_nil⟩ acts
  intro db txn _ _ hmay
  cases txn with
  | payout machine now => exact ⟨_, rfl⟩
  | _ => exact absurd trivial hmay

instance (db : Db) (log : List (Txn × Reply)) : Decidable (HostsPaid db log) :=
  inferInstanceAs (Decidable (∀ m ∈ db.machines.rows, _))

def Thread.paying : Thread → Bool
  | .received (.payout ..) | .payoutPay .. | .payoutTx .. => true
  | _ => false

/-- Two payouts read the same balance, and both are paid. -/
def doublePayout : List ServerAct :=
  opening 100 ++
  call 3 (.createRental ⟨1, "acct_1", "nvidia/cuda:latest", some "ssh-ed25519 AAAA"⟩) [{}] ++
  call 4 (.report bearer { rentalId := 1, status := .stopped }) [{}, { now := 60 }, {}] ++
  [.request (.payout bearer ⟨"lnbc2"⟩), .request (.payout bearer ⟨"lnbc3"⟩),
    .thread 5 {}, .thread 6 {}, .thread 5 {}, .thread 6 {}, .thread 5 {}, .thread 6 {}]

theorem doublePayout_overpaid :
    (∀ a ∈ doublePayout, ∀ n i, a = .thread n i → i.fails = none) ∧
    (∀ t ∈ (serve testEnv doublePayout).threads, t.paying = false) ∧
    ¬HostsPaid (serve testEnv doublePayout).store (serve testEnv doublePayout).log := by
  refine ⟨?_, by decide, by decide⟩
  simp only [doublePayout, opening, call]
  simp

end GpuMarket
