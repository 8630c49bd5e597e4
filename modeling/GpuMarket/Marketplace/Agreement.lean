import GpuMarket.ControlPlane.Occupancy
import GpuMarket.Marketplace.Steps

namespace GpuMarket

open Lib

theorem Task.chore_eq_none {t : Task} {id : Int} :
    t.chore id = none ↔ ¬(t.rentalId = id ∧ t.finished = false) := by
  by_cases hid : t.rentalId = id
  case neg => simp [hid, chore_of_ne hid]
  case pos =>
    obtain ⟨token, runtime, phase⟩ := t
    cases phase with
    | starting | stopping => simp [chore, finished, hid]
    | reporting rentalId outcome left thread =>
      cases thread <;> simp [chore, finished, hid]

theorem Command.order_eq_none {id : Int} {cmd : Command} :
    cmd.order id = none ↔ cmd.rentalId ≠ id := by
  refine ⟨fun h hid => ?_, order_of_ne⟩
  subst hid
  cases cmd <;> simp [rentalId] at h

theorem Db.Follows.exists_undelivered {env : Env} (hserde : env.serde.RoundTrip) {db : Db}
    {log : List (Txn × Reply)} (h : db.Follows env log) (p : Command → Prop) :
    (∃ c ∈ db.commands.rows, c.delivered = false ∧ ∃ cmd, env.serde.fromStr c.payload = some cmd ∧
      p cmd) ↔ ∃ m, ∃ cmd ∈ (mailbox log).pending m, p cmd := by
  constructor
  · rintro ⟨c, hc, hwaits, cmd, hcmd, hp⟩
    have hpayload : c.payload ∈ waitingFor db c.machineId :=
      List.mem_map_of_mem (mem_undelivered.mpr ⟨hc, rfl, hwaits⟩)
    rw [h.waiting] at hpayload
    obtain ⟨cmd', hcmd', hsame⟩ := List.mem_map.mp hpayload
    rw [← hsame, hserde] at hcmd
    cases hcmd
    exact ⟨_, _, hcmd', hp⟩
  · rintro ⟨m, cmd, hcmd, hp⟩
    have hpayload : env.serde.toString cmd ∈ waitingFor db m := by
      rw [h.waiting]
      exact List.mem_map_of_mem hcmd
    obtain ⟨c, hc, hsame⟩ := List.mem_map.mp hpayload
    obtain ⟨hrow, -, hwaits⟩ := mem_undelivered.mp hc
    exact ⟨c, hrow, hwaits, cmd, by rw [hsame, hserde], hp⟩

namespace World

variable {env : Env} {w : World}

theorem runs_iff {id : Int} : w.Runs id ↔ (w.view id).believed = true := by
  unfold Runs view remote
  cases hr : w.conf.store.rentals.find? id with
  | none =>
    have hnone := Table.find?_eq_none.mp hr
    simp only [Option.any_none, Bool.false_eq_true, iff_false]
    rintro ⟨r, hmem, hid, -⟩
    exact hnone ⟨r, hmem, hid⟩
  | some r =>
    obtain ⟨hmem, hid⟩ := Table.mem_of_find? hr
    simp only [Option.any_some, decide_eq_true_eq]
    refine ⟨?_, fun hstatus => ⟨r, hmem, hid, hstatus⟩⟩
    rintro ⟨r', hmem', hid', hstatus⟩
    rwa [Table.eq_of_key_eq hmem' hmem (hid'.trans hid.symm)] at hstatus

theorem busy_iff (hserde : env.serde.RoundTrip)
    (hfollows : w.conf.store.Follows env w.conf.log)
    (haddressed : w.conf.store.Addressed w.conf.log) {id : Int} :
    w.Busy env id ↔ ¬(w.view id).Idle := by
  have orders : (∃ c ∈ w.conf.store.commands.rows, c.delivered = false ∧
      (env.serde.fromStr c.payload).map Command.rentalId = some id) ↔
        (w.view id).orders ≠ [] := by
    simp only [Option.map_eq_some_iff]
    rw [hfollows.exists_undelivered hserde (·.rentalId = id)]
    constructor
    · rintro ⟨m, cmd, hcmd, hid⟩ hnil
      obtain ⟨r, hr, hrid, rfl⟩ := haddressed m cmd hcmd
      have hfind : w.conf.store.rentals.find? id = some r :=
        (hrid.trans hid) ▸ Table.find?_of_mem hr
      simp only [view, remote, ordersOf, hfind] at hnil
      exact Command.order_eq_none.mp (List.filterMap_eq_nil_iff.mp hnil cmd hcmd) hid
    · intro hne
      simp only [view, remote, ordersOf] at hne
      split at hne
      case h_1 => exact absurd rfl hne
      case h_2 r _ =>
        obtain ⟨o, ho⟩ := List.exists_mem_of_ne_nil _ hne
        obtain ⟨cmd, hcmd, horder⟩ := List.mem_filterMap.mp ho
        exact ⟨_, cmd, hcmd, Command.rentalId_of_order horder⟩
  have chores : (∃ t ∈ w.tasks, t.rentalId = id ∧ t.finished = false) ↔
      (w.view id).chores ≠ [] := by
    rw [view, remote, ne_eq, List.filterMap_eq_nil_iff]
    simp only [Task.chore_eq_none, not_forall, not_not, exists_prop]
  rw [Busy, orders, chores, Remote.Idle, not_and_or]

theorem agrees_iff (hserde : env.serde.RoundTrip) (h : w.Inv env) :
    w.Agrees env ↔ ∀ id, (w.view id).Agrees := by
  refine forall_congr' fun id => ?_
  rw [busy_iff hserde h.follows h.addressed, not_not, runs_iff, Bool.eq_iff_iff.symm]
  rfl

theorem current_of_not_committing {n : Nat} {t : Task} (ht : w.tasks[n]? = some t)
    (hnone : t.committing = none) (now : Int) : w.Current env (.report n now) := by
  simp [Current, ht, hnone]

theorem current_report_iff (hserde : env.serde.RoundTrip) (h : w.Inv env) {n : Nat} {t : Task}
    (ht : w.tasks[n]? = some t) {rentalId : Int} {outcome : Outcome} {left : Bool}
    {machine : MachineRow} {rental : RentalRow} {req : ReportRequest} {now' : Int}
    (hp : t.phase = .reporting rentalId outcome left (.reportTx machine rental req now'))
    (now : Int) :
    w.Current env (.report n now) ↔ ((view { w with tasks := w.tasks.eraseIdx n } rentalId).Idle →
      w.live rentalId = if outcome.isFailedStop then false else left) := by
  have hbusy : Busy env { w with tasks := w.tasks.eraseIdx n } rentalId ↔
      ¬(view { w with tasks := w.tasks.eraseIdx n } rentalId).Idle :=
    busy_iff (w := { w with tasks := w.tasks.eraseIdx n }) hserde h.follows h.addressed
  have hcommitting : t.committing = some (rentalId, outcome, left) := by
    simp [Task.committing, hp]
  constructor
  · intro hcurrent hidle
    refine hcurrent rentalId outcome left ?_ (hbusy.not.mpr (not_not.mpr hidle))
    rw [ht, Option.bind_some, hcommitting]
  · intro hcurrent rentalId' outcome' left' he hrest
    rw [ht, Option.bind_some, hcommitting] at he
    cases he
    exact hcurrent (not_not.mp (hbusy.not.mp hrest))

/-- Other steps than the transaction of a report are steps of every rental; that one tells the
control plane of one of them, and is current exactly if this leaves the two in agreement. -/
theorem step_cases (hserde : env.serde.RoundTrip) (h : w.Inv env) (a : WorldAct) :
    (w.step env a).Inv env ∧
      ((∀ id, (w.view id).Step ((w.step env a).view id)) ∧ w.Current env a ∨
        ∃ rentalId on left failedStop,
          (∀ id, id ≠ rentalId → (w.step env a).view id = w.view id) ∧
          (w.view rentalId).Tells on left failedStop ((w.step env a).view rentalId) ∧
          (w.Current env a ↔ (((w.step env a).view rentalId).Idle →
            ((w.step env a).view rentalId).live = if failedStop then false else left))) := by
  have unchanged (hsame : w.step env a = w) (hcurrent : w.Current env a) :
      (w.step env a).Inv env ∧
        (∀ id, (w.view id).Step ((w.step env a).view id)) ∧ w.Current env a :=
    ⟨hsame.symm ▸ h, fun id => hsame.symm ▸ .idle _, hcurrent⟩
  cases a with
  | server a =>
    cases ha : a.isReport with
    | true => exact (unchanged (by simp [step, ha]) trivial).imp_right .inl
    | false =>
      have hstep : w.step env (.server a) = w.serverStep env a := by simp [step, ha]
      rw [hstep]
      exact (serverStep_ok hserde h ha).imp_right fun hview => .inl ⟨hview, trivial⟩
  | docker n a =>
    cases ht : w.tasks[n]? with
    | none => exact (unchanged (by simp [step, ht]) trivial).imp_right .inl
    | some t =>
      have hstep : w.step env (.docker n a) = w.dockerStep n t a := by simp [step, ht]
      rw [hstep]
      exact (dockerStep_ok h ht a).imp_right fun hview => .inl ⟨hview, trivial⟩
  | report n now =>
    cases ht : w.tasks[n]? with
    | none => exact (unchanged (by simp [step, ht]) (by simp [Current, ht])).imp_right .inl
    | some t =>
      have hstep : w.step env (.report n now) = w.reportStep env n t now := by simp [step, ht]
      cases hp : t.phase with
      | starting | stopping =>
        have hcurrent := @current_of_not_committing env _ _ _ ht (by simp [Task.committing, hp]) now
        exact (unchanged (by simp [hstep, reportStep, hp]) hcurrent).imp_right .inl
      | reporting rentalId outcome left thread =>
        rw [hstep]
        by_cases htx : ∃ machine rental req now', thread = .reportTx machine rental req now'
        case neg =>
          obtain ⟨hinv, hsame⟩ := reportStep_waits h ht hp (by grind) now
          have hnone : t.committing = none := by
            unfold Task.committing
            grind
          exact ⟨hinv, .inl ⟨fun id => hsame id ▸ .idle _, current_of_not_committing ht hnone now⟩⟩
        case pos =>
          obtain ⟨machine, rental, req, now', rfl⟩ := htx
          obtain ⟨hinv, hothers, htells, hidle⟩ := reportStep_tells hserde h ht hp now
          refine ⟨hinv, .inr ⟨rentalId, _, _, _, hothers, htells, ?_⟩⟩
          have hlive : ((w.reportStep env n t now).view rentalId).live = w.live rentalId := by
            simp [view, remote, reportStep, hp]
          rw [hidle, hlive]
          exact current_report_iff hserde h ht hp now

theorem init_inv (env : Env) : init.Inv env where
  holds := init_holds env
  follows := ⟨fun _ => rfl, fun _ => rfl⟩
  addressed _ _ hcmd := absurd hcmd List.not_mem_nil
  tokens := List.nodup_nil
  threads _ ht := absurd ht List.not_mem_nil
  tasks _ ht := absurd ht List.not_mem_nil

theorem init_sound (id : Int) : (init.view id).Sound where
  fresh _ := ⟨⟨rfl, rfl⟩, rfl, rfl⟩
  once := Nat.zero_le _
  unstarted _ := rfl
  truthful _ _ _ hmem := absurd hmem List.not_mem_nil

theorem init_agrees (id : Int) : (init.view id).Agrees := fun _ => rfl

/-- Every rental is sound and agrees with its host once it rests. -/
def Good (env : Env) (w : World) : Prop :=
  w.Inv env ∧ ∀ id, (w.view id).Sound ∧ (w.view id).Agrees

theorem Good.step (hserde : env.serde.RoundTrip) {a : WorldAct} (h : w.Good env)
    (hcurrent : w.Current env a) : (w.step env a).Good env := by
  obtain ⟨hinv, hview⟩ := h
  obtain ⟨hinv', ⟨hstep, -⟩ | ⟨rentalId, on, left, failedStop, hothers, htells, hiff⟩⟩ :=
    step_cases hserde hinv a
  · exact ⟨hinv', fun id => ⟨(hstep id).sound (hview id).1, (hstep id).agrees (hview id).2⟩⟩
  · refine ⟨hinv', fun id => ?_⟩
    by_cases hid : id = rentalId
    · subst hid
      have hsound := (hview id).1
      exact ⟨htells.sound hsound, (htells.agrees_iff hsound).mpr (hiff.mp hcurrent)⟩
    · rw [hothers id hid]
      exact hview id

theorem Good.not_agrees (hserde : env.serde.RoundTrip) {a : WorldAct} (h : w.Good env)
    (hcurrent : ¬w.Current env a) : ¬(w.step env a).Agrees env := by
  intro hagrees
  obtain ⟨hinv', ⟨-, hc⟩ | ⟨rentalId, on, left, failedStop, -, htells, hiff⟩⟩ :=
    step_cases hserde h.1 a
  · exact hcurrent hc
  · have hagrees' := (agrees_iff hserde hinv').mp hagrees rentalId
    exact hcurrent (hiff.mpr ((htells.agrees_iff (h.2 rentalId).1).mp hagrees'))

theorem not_offered {id : Int} (hruns : w.Runs id) {r : RentalRow}
    (hr : r ∈ w.conf.store.rentals.rows) (hid : r.id = id) {q : OffersQuery} {l : List Offer}
    (hl : offers q w.conf.store = .offers l) {o : Offer} (ho : o ∈ l) :
    o.machineId ≠ r.machineId := by
  obtain ⟨r', hr', hid', hstatus⟩ := hruns
  obtain rfl := Table.eq_of_key_eq hr' hr (hid'.trans hid.symm)
  obtain rfl := Reply.offers.inj hl
  obtain ⟨m, hm, rfl⟩ := List.mem_map.mp ho
  have hmachine := List.mem_filter.mp
    ((List.perm_insertionSort _ _).mem_iff.mp (List.mem_of_mem_take hm))
  have hfree : ¬occupied w.conf.store m.id := (of_decide_eq_true hmachine.2).2.1
  intro hsame
  exact hfree (occupied_iff.mpr ⟨r', hr', hsame.symm, by rw [hstatus]; rfl⟩)

/-- What the two know of each other once everything has come to rest. -/
def AgreesAtRest (w : World) : Prop :=
  w.AtRest → (∀ id, w.live id = true ↔ w.Runs id) ∧
    ∀ q l, offers q w.conf.store = .offers l → ∀ o ∈ l, ∀ r ∈ w.conf.store.rentals.rows,
      w.live r.id = true → o.machineId ≠ r.machineId

theorem Agrees.atRest (h : w.Agrees env) : w.AgreesAtRest := by
  intro hrest
  have agree : ∀ id, w.live id = true ↔ w.Runs id := fun id => h id (hrest.not_busy id)
  refine ⟨agree, fun q l hl o ho r hr hlive => ?_⟩
  exact not_offered ((agree r.id).mp hlive) hr rfl hl ho

end World

/-- Control plane and host agree on every rental that is at rest, in every state of a run, exactly
as long as no report that brings its rental to rest is out of date. -/
theorem agrees_iff_current {env : Env} (hserde : env.serde.RoundTrip) (acts : List WorldAct) :
    (Always (World.step env) (World.Agrees env) .init acts ↔
      Along (World.step env) (World.Current env) .init acts) ∧
    (Along (World.step env) (World.Current env) .init acts →
      Always (World.step env) World.AgreesAtRest .init acts) := by
  have agrees : ∀ w : World, w.Good env → w.Agrees env := fun w h =>
    (World.agrees_iff hserde h.1).mpr fun id => (h.2 id).2
  have start : World.init.Good env :=
    ⟨World.init_inv env, fun id => ⟨World.init_sound id, World.init_agrees id⟩⟩
  have hiff : Always (World.step env) (World.Agrees env) .init acts ↔
      Along (World.step env) (World.Current env) .init acts :=
    always_iff_along agrees (fun _ _ h => h.step hserde) (fun _ _ h => h.not_agrees hserde) start
      acts
  exact ⟨hiff, fun hC pre hpre => (hiff.mpr hC pre hpre).atRest⟩

/-- The first rental is created, and the agent's first task starts it. -/
def launch : List WorldAct :=
  (opening 100 ++
    call 3 (.createRental ⟨1, "acct_1", "nvidia/cuda:latest", some "ssh-ed25519 AAAA"⟩) [{}] ++
    call 4 (.heartbeat bearer ⟨true⟩) [{}, {}]).map .server ++
  [.docker 0 { live := false }, .docker 0 { live := false }, .docker 0 { live := false },
    .docker 0 { containerId := "c1", live := false }, .docker 0 { live := true }]

/-- The tenant deletes the rental, and the agent's second task is to stop it. -/
def withdrawal : List WorldAct :=
  (call 5 (.deleteRental 1) [{ now := 60 }, {}] ++
    call 6 (.heartbeat bearer ⟨true⟩) [{}, {}]).map .server

def reported (n : Nat) (now : Int) : List WorldAct :=
  [.report n now, .report n now, .report n now]

def orderly : List WorldAct :=
  launch ++ reported 0 5 ++ withdrawal ++ [.docker 1 { live := false }, .docker 1 { live := false }] ++
  reported 1 90

theorem orderly_agrees :
    testEnv.serde.RoundTrip ∧ Along (World.step testEnv) (World.Current testEnv) .init orderly ∧
    Always (World.step testEnv) World.AgreesAtRest .init orderly := by
  have current : Along (World.step testEnv) (World.Current testEnv) .init orderly := by
    decide +kernel
  exact ⟨Serde.json_roundTrip, current, (agrees_iff_current Serde.json_roundTrip orderly).2 current⟩

/-- The daemon times out where the second task stops the container. -/
def failedStop : List WorldAct :=
  launch ++ reported 0 5 ++ withdrawal ++
  [.docker 1 { result := .error (.other "request timed out"), live := true }] ++ reported 1 90

theorem failedStop_disagrees :
    (run (World.step testEnv) .init failedStop).AtRest ∧
    (run (World.step testEnv) .init failedStop).live 1 = true ∧
    ¬(run (World.step testEnv) .init failedStop).Runs 1 ∧
    ¬occupied (run (World.step testEnv) .init failedStop).conf.store 1 ∧
    ¬Always (World.step testEnv) World.AgreesAtRest .init failedStop := by
  have facts : (run (World.step testEnv) .init failedStop).AtRest ∧
      (run (World.step testEnv) .init failedStop).live 1 = true ∧
      ¬(run (World.step testEnv) .init failedStop).Runs 1 ∧
      ¬occupied (run (World.step testEnv) .init failedStop).conf.store 1 := by decide +kernel
  obtain ⟨rest, live, gone, free⟩ := facts
  refine ⟨rest, live, gone, free, fun h => gone ?_⟩
  exact ((h failedStop (List.prefix_refl _) rest).1 1).mp live

end GpuMarket
