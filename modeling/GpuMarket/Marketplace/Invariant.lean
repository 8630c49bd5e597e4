import GpuMarket.ControlPlane.Machines
import GpuMarket.ControlPlane.Queue
import GpuMarket.Marketplace.Refinement

namespace GpuMarket

open Lib

def Thread.isReport : Thread → Bool
  | .received (.report ..) | .reportRead .. | .reportTx .. => true
  | _ => false

def Thread.Carries (db : Db) (auth : Option String) (machineId : Int) (req : ReportRequest) :
    Thread → Prop
  | .received r => r = .report auth req
  | .reportRead machine q => q = req ∧ machine.id = machineId ∧ db.HasMachine machine
  | .reportTx machine rental q now => q = req ∧ (Txn.report machine rental q now).Valid db
  | .done _ => True
  | _ => False

def Phase.Ok (db : Db) (auth : Option String) (machineId : Int) : Phase → Prop
  | .starting .. | .stopping .. => True
  | .reporting rentalId outcome _ thread =>
    thread.Carries db auth machineId (outcome.report rentalId)

def Task.Ok (db : Db) (t : Task) : Prop :=
  ∃ r ∈ db.rentals.rows, r.id = t.rentalId ∧
    (∃ m, authenticate db (bearerAuth t.token) = .ok m ∧ m.id = r.machineId) ∧
    t.phase.Ok db (bearerAuth t.token) r.machineId

def Db.TokensUnique (db : Db) : Prop := (db.machines.rows.map (·.agentToken)).Nodup

structure World.Inv (env : Env) (w : World) : Prop where
  holds : (serverContract env).Holds w.conf
  follows : w.conf.store.Follows env w.conf.log
  addressed : w.conf.store.Addressed w.conf.log
  tokens : w.conf.store.TokensUnique
  threads : ∀ t ∈ w.conf.threads, t.isReport = false
  tasks : ∀ t ∈ w.tasks, t.Ok w.conf.store

section Stability

variable {db db' : Db}

theorem authenticate_mono (h : db.Extends db') {auth : Option String} {m : MachineRow}
    (ha : authenticate db auth = .ok m) : ∃ m', authenticate db' auth = .ok m' ∧ m'.id = m.id := by
  unfold authenticate at ha
  split at ha
  case h_1 => cases ha
  case h_2 token htoken =>
    split at ha
    case h_1 => cases ha
    case h_2 m₀ hm =>
      cases ha
      have hbefore : (db.machines.rows.map (·.identity)).find? (fun k => decide (k.2.1 = token)) =
          some m.identity := by
        rw [List.find?_map]
        exact congrArg (Option.map MachineRow.identity) hm
      have hafter := h.machines.find?_eq_some hbefore
      rw [List.find?_map] at hafter
      obtain ⟨m', hm', hsame⟩ := Option.map_eq_some_iff.mp hafter
      have hfind : db'.machines.rows.find? (fun m => decide (m.agentToken = token)) = some m' := hm'
      exact ⟨m', by simp [authenticate, htoken, hfind], congrArg Prod.fst hsame⟩

theorem Thread.Carries.mono (h : db.Extends db') {auth : Option String} {machineId : Int}
    {req : ReportRequest} {t : Thread} (ht : t.Carries db auth machineId req) :
    t.Carries db' auth machineId req := by
  cases t with
  | received r => exact ht
  | reportRead machine q => exact ⟨ht.1, ht.2.1, ht.2.2.mono h⟩
  | reportTx machine rental q now =>
    obtain ⟨hreq, hm, hr, hids⟩ := ht
    exact ⟨hreq, hm.mono h, hr.mono h, hids⟩
  | done reply => trivial
  | _ => exact ht.elim

theorem Task.Ok.mono (h : db.Extends db') {t : Task} (ht : t.Ok db) : t.Ok db' := by
  obtain ⟨r, hr, hid, ⟨m, hm, hmid⟩, hphase⟩ := ht
  obtain ⟨r', hr', hsame⟩ := h.rental hr
  obtain ⟨hmachine, -, -, -, -, -, hid'⟩ := RentalRow.terms_eq_iff.mp hsame
  obtain ⟨m', hm', hmid'⟩ := authenticate_mono h hm
  refine ⟨r', hr', hid'.trans hid, ⟨m', hm', hmid'.trans (hmid.trans hmachine.symm)⟩, ?_⟩
  rw [hmachine]
  cases hp : t.phase with
  | starting | stopping => trivial
  | reporting rentalId outcome left thread =>
    rw [hp] at hphase
    exact Thread.Carries.mono h hphase

end Stability

section Transactions

variable {env : Env} {txn : Txn} {db db' : Db} {v : Reply} {log : List (Txn × Reply)}

theorem nodup_identity {g : Int × String × String × Int → String}
    (h : (db.machines.rows.map fun m => g m.identity).Nodup)
    (hx : txn.exec env db = .ok (db', v))
    (hfresh : ∀ req token id,
      (∀ m ∈ db.machines.rows, m.agentToken ≠ token ∧ m.hostId ≠ RegisterRequest.hostId req) →
        ∀ m ∈ db.machines.rows, ∀ now, g m.identity ≠ g (req.toRow id token now).identity) :
    (db'.machines.rows.map fun m => g m.identity).Nodup := by
  obtain ⟨charge, hrows, -⟩ := exec_machines hx
  have kept : (db.machines.rows.map (txn.rewriteMachine env charge)).map (fun m => g m.identity) =
      db.machines.rows.map fun m => g m.identity := by
    rw [List.map_map]
    exact List.map_congr_left fun m _ => congrArg g (txn.rewriteMachine_identity env charge m)
  rw [hrows, List.map_append, kept]
  cases txn with
  | registerInsert req token now =>
    obtain ⟨hinsert, -, -⟩ := registerInsert_ok hx
    refine List.Nodup.append h (List.nodup_singleton _) ?_
    intro k hold hnew
    obtain ⟨m, hm, rfl⟩ := List.mem_map.mp hold
    exact hfresh req token _ hinsert m hm now (List.mem_singleton.mp hnew)
  | _ => simpa [Txn.newMachines] using h

theorem Db.TokensUnique.exec (h : db.TokensUnique) (hx : txn.exec env db = .ok (db', v)) :
    db'.TokensUnique :=
  nodup_identity (g := fun k => k.2.1) h hx fun _ _ _ hinsert m hm _ => (hinsert m hm).1

theorem Db.TokensUnique.authenticate (h : db.TokensUnique) {machine : MachineRow}
    (hm : db.HasMachine machine) : ∃ m, authenticate db (bearerAuth machine.agentToken) = .ok m ∧
      m.id = machine.id := by
  obtain ⟨m, hmem, hsame⟩ := hm
  have htoken : m.agentToken = machine.agentToken := congrArg (fun k => k.2.1) hsame
  have hfind : db.machines.rows.find? (fun m => decide (m.agentToken = machine.agentToken)) =
      some m := by
    cases hf : db.machines.rows.find? (fun m => decide (m.agentToken = machine.agentToken)) with
    | none => exact absurd (List.find?_eq_none.mp hf m hmem) (by simp [htoken])
    | some m' =>
      have htoken' : m'.agentToken = machine.agentToken := by simpa using List.find?_some hf
      rw [List.inj_on_of_nodup_map h (List.mem_of_find?_eq_some hf) hmem
        (htoken'.trans htoken.symm)]
  refine ⟨m, ?_, congrArg Prod.fst hsame⟩
  simp only [GpuMarket.authenticate, bearerAuth, Option.bind_some, stripPrefix_append, hfind]

theorem Db.Addressed.exec (h : db.Addressed log) (hv : txn.Valid db)
    (hx : txn.exec env db = .ok (db', v)) : db'.Addressed (log ++ [(txn, v)]) := by
  have hext := Db.Extends.exec hx
  have grow : ∀ m cmd, (∃ r ∈ db.rentals.rows, r.id = cmd.rentalId ∧ r.machineId = m) →
      ∃ r ∈ db'.rentals.rows, r.id = Command.rentalId cmd ∧ r.machineId = m := by
    rintro m cmd ⟨r, hr, hid, hm⟩
    obtain ⟨r', hr', hsame⟩ := hext.rental hr
    obtain ⟨hmachine, -, -, -, -, -, hid'⟩ := RentalRow.terms_eq_iff.mp hsame
    exact ⟨r', hr', hid'.trans hid, hmachine.trans hm⟩
  intro m cmd hcmd
  rw [mailbox_concat] at hcmd
  rcases Post.mem_apply hcmd with hold | hsend
  · exact grow m cmd (h m cmd hold)
  · exact Txn.rental_of_post hv hx hsend

theorem spawned_ok (hserde : env.serde.RoundTrip) (hfollows : db.Follows env log)
    (haddressed : db.Addressed log) (htokens : db.TokensUnique) (hv : txn.Valid db)
    (hx : txn.exec env db = .ok (db', v)) {t : Task} (ht : t ∈ spawned (txn, v)) : t.Ok db := by
  cases txn with
  | heartbeat machine req now =>
    obtain rfl := hfollows.heartbeat hserde hx
    obtain ⟨cmd, hcmd, rfl⟩ := List.mem_map.mp ht
    obtain ⟨r, hr, hid, hm⟩ := haddressed _ cmd hcmd
    obtain ⟨m, hauth, hmid⟩ := htokens.authenticate hv
    cases cmd with
    | startRental | stopRental => exact ⟨r, hr, hid, ⟨m, hauth, hmid.trans hm.symm⟩, trivial⟩
  | _ => cases ht

end Transactions

section Threads

theorem Thread.reports_false_iff (t : Thread) :
    t.Reports (fun _ => False) ↔ t.isReport = false := by
  cases t with
  | received r => cases r <;> simp [Reports, isReport]
  | _ => simp [Reports, isReport]

theorem Thread.next_not_report {db : Db} {i : Input} {t t' : Thread} (h : t.isReport = false)
    (hn : t.next i db = .read t') : t'.isReport = false :=
  (reports_false_iff t').mp (Thread.reports_read ((reports_false_iff t).mpr h) hn)

theorem Thread.isReport_finish (t : Thread) (r : Except ApiError Reply) :
    (t.finish r).isReport = false := by
  cases t <;> rfl

theorem commits_not_report {env : Env} {s : ServerConf} {a : ServerAct} {txn : Txn}
    (h : ∀ t ∈ s.threads, t.isReport = false) (hc : (server env).commits s a = some txn)
    (machine : MachineRow) (rental : RentalRow) (req : ReportRequest) (now : Int) :
    txn ≠ .report machine rental req now := by
  rintro rfl
  obtain ⟨n, i, t, -, ht, -, hn⟩ | ⟨i, -, -, hn⟩ := (server env).commits_cases hc
  · have ht' := h t ht
    rw [Thread.next_report hn] at ht'
    cases ht'
  · obtain ⟨p, now, rest, -, h⟩ | ⟨-, h⟩ | ⟨r, now, rest, -, h⟩ := Ticker.next_commit hn <;>
      cases h

theorem step_not_report {env : Env} {s : ServerConf} {a : ServerAct} (ha : a.isReport = false)
    (h : ∀ t ∈ s.threads, t.isReport = false) :
    ∀ t ∈ ((server env).step s a).threads, t.isReport = false := by
  refine (server env).step_threads ?_ (fun i t t' ht hn => Thread.next_not_report ht hn)
    Thread.isReport_finish h
  rintro r rfl
  cases r <;> first | rfl | cases ha

end Threads

end GpuMarket
