import GpuMarket.HostAgent.Metal

namespace GpuMarket

open Lib

def MetalCall.child? : MetalCall → Option Nat
  | .insert _ child _ | .kill _ child => some child
  | _ => none

def MetalCall.Holds (w : MetalWorker) : MetalCall → Prop
  | .insert spec _ port => w.rentalId = spec.rentalId ∧ w.port = port
  | .kill rentalId _ => w.rentalId = rentalId
  | _ => True

namespace MetalHost

/-- The processes that the runtime can still stop. -/
def held (h : MetalHost) : List Nat :=
  h.jobs.map (·.2.child) ++ h.calls.filterMap MetalCall.child?

/-- A rental has one job, a process one holder, and what holds it knows what it was started for. -/
structure Wf (h : MetalHost) : Prop where
  keys : (h.jobs.map (·.1)).Nodup
  held : h.held.Nodup
  jobs : ∀ e ∈ h.jobs, ∃ w, h.workers[e.2.child]? = some w ∧ w.rentalId = e.1 ∧ w.port = e.2.port
  calls : ∀ c ∈ h.calls, ∀ child, c.child? = some child →
    ∃ w, h.workers[child]? = some w ∧ c.Holds w

/-- Every worker that runs can still be stopped. -/
def Tracked (h : MetalHost) : Prop := ∀ child, h.alive child = true → child ∈ h.held

/-- No job is replaced while its worker runs, and no worker runs across a restart. -/
def Kept (h : MetalHost) : MetalAct → Prop
  | .turn i _ => ∀ spec child port, h.calls[i]? = some (.insert spec child port) →
    ∀ job, (spec.rentalId, job) ∈ h.jobs → h.alive job.child = false
  | .restart => ∀ child, h.alive child = false
  | _ => True

variable {text : TaskError → String} {h : MetalHost}

theorem mem_insert {jobs : List (Int × MetalJob)} {rentalId : Int} {job : MetalJob}
    {e : Int × MetalJob} :
    e ∈ insert jobs rentalId job ↔ e = (rentalId, job) ∨ e ∈ jobs ∧ e.1 ≠ rentalId := by
  simp [insert]

theorem keys_insert {jobs : List (Int × MetalJob)} (hkeys : (jobs.map (·.1)).Nodup) (rentalId : Int)
    (job : MetalJob) : ((insert jobs rentalId job).map (·.1)).Nodup := by
  rw [insert, List.map_cons, List.nodup_cons]
  exact ⟨by simp, hkeys.sublist (List.filter_sublist.map _)⟩

theorem quit_spec {child child' : Nat} {w : MetalWorker}
    (hw : h.workers[child']? = some w) :
    ∃ w', (h.quit child)[child']? = some w' ∧ w'.rentalId = w.rentalId ∧ w'.port = w.port := by
  rw [quit, List.getElem?_modify, hw]
  split <;> exact ⟨_, rfl, rfl, rfl⟩

theorem Wf.withWorkers (hwf : h.Wf) {workers : List MetalWorker}
    (hw : ∀ (child : Nat) (w : MetalWorker), h.workers[child]? = some w →
      ∃ w', workers[child]? = some w' ∧ w'.rentalId = w.rentalId ∧ w'.port = w.port) :
    Wf { h with workers } := by
  refine ⟨hwf.keys, hwf.held, fun e he => ?_, fun c hc child hchild => ?_⟩
  · obtain ⟨w, hfound, hid, hport⟩ := hwf.jobs e he
    obtain ⟨w', hfound', hid', hport'⟩ := hw _ w hfound
    exact ⟨w', hfound', hid'.trans hid, hport'.trans hport⟩
  · obtain ⟨w, hfound, hholds⟩ := hwf.calls c hc child hchild
    obtain ⟨w', hfound', hid', hport'⟩ := hw _ w hfound
    refine ⟨w', hfound', ?_⟩
    cases c with
    | insert spec child port => exact ⟨hid'.trans hholds.1, hport'.trans hholds.2⟩
    | kill rentalId child => exact hid'.trans hholds
    | _ => trivial

theorem held_setCall {i : Nat} {c : MetalCall} (hi : h.calls[i]? = some c) : ∃ rest,
    h.held.Perm (c.child?.toList ++ rest) ∧
      ∀ c', (held { h with calls := h.calls.set i c' }).Perm (c'.child?.toList ++ rest) := by
  obtain ⟨rest, hold, hnew⟩ := exists_filterMap_set (f := MetalCall.child?) hi
  have front : ∀ {l x : List Nat}, l.Perm (x ++ rest) →
      (h.jobs.map (·.2.child) ++ l).Perm (x ++ (h.jobs.map (·.2.child) ++ rest)) := by
    intro l x hl
    refine (hl.append_left _).trans ?_
    rw [← List.append_assoc, ← List.append_assoc]
    exact List.perm_append_comm.append_right rest
  exact ⟨h.jobs.map (·.2.child) ++ rest, front hold, fun c' => front (hnew c')⟩

theorem Wf.release (hwf : h.Wf) {i : Nat} {c c' : MetalCall} (hi : h.calls[i]? = some c)
    (hc' : c'.child? = none) : Wf { h with calls := h.calls.set i c' } ∧
      h.held.Perm (c.child?.toList ++ MetalHost.held { h with calls := h.calls.set i c' }) := by
  obtain ⟨rest, hold, hnew⟩ := held_setCall hi
  have hrest := hnew c'
  rw [hc', Option.toList_none, List.nil_append] at hrest
  have hperm := hold.trans (hrest.symm.append_left _)
  refine ⟨⟨hwf.keys, (List.nodup_append.mp (hperm.nodup_iff.mp hwf.held)).2.1, hwf.jobs,
    fun c₀ hc₀ child hchild => ?_⟩, hperm⟩
  rcases List.mem_or_eq_of_mem_set hc₀ with hc₀ | rfl
  · exact hwf.calls c₀ hc₀ child hchild
  · rw [hc'] at hchild
    cases hchild

theorem Wf.take (hwf : h.Wf) {i : Nat} {c c' : MetalCall} (hi : h.calls[i]? = some c)
    (hc : c.child? = none) {child : Nat} (hc' : c'.child? = some child) (hfree : child ∉ h.held)
    {w : MetalWorker} (hw : h.workers[child]? = some w) (hholds : c'.Holds w) :
    Wf { h with calls := h.calls.set i c' } ∧
      (MetalHost.held { h with calls := h.calls.set i c' }).Perm (child :: h.held) := by
  obtain ⟨rest, hold, hnew⟩ := held_setCall hi
  rw [hc, Option.toList_none, List.nil_append] at hold
  have hperm := hnew c'
  rw [hc', Option.toList_some, List.singleton_append] at hperm
  have hperm := hperm.trans (hold.symm.cons child)
  refine ⟨⟨hwf.keys, hperm.nodup_iff.mpr (List.nodup_cons.mpr ⟨hfree, hwf.held⟩), hwf.jobs,
    fun c₀ hc₀ child₀ hchild => ?_⟩, hperm⟩
  rcases List.mem_or_eq_of_mem_set hc₀ with hc₀ | rfl
  · exact hwf.calls c₀ hc₀ child₀ hchild
  · cases hc'.symm.trans hchild
    exact ⟨w, hw, hholds⟩

theorem Wf.withJobs (hwf : h.Wf) {p : Int × MetalJob → Bool} :
    Wf { h with jobs := h.jobs.filter p } := by
  have hsub : (h.jobs.filter p).Sublist h.jobs := List.filter_sublist
  exact ⟨hwf.keys.sublist (hsub.map _),
    hwf.held.sublist ((hsub.map _).append_right (h.calls.filterMap MetalCall.child?)),
    fun e he => hwf.jobs e (hsub.subset he), hwf.calls⟩

theorem Wf.insertJob (hwf : h.Wf) {rentalId : Int} {job : MetalJob} (hfree : job.child ∉ h.held)
    {w : MetalWorker} (hw : h.workers[job.child]? = some w) (hid : w.rentalId = rentalId)
    (hport : w.port = job.port) : Wf { h with jobs := insert h.jobs rentalId job } := by
  have hdrop : Wf { h with jobs := h.jobs.filter (·.1 ≠ rentalId) } := hwf.withJobs
  refine ⟨keys_insert hwf.keys rentalId job, List.nodup_cons.mpr ⟨fun hmem => hfree ?_, hdrop.held⟩,
    fun e he => ?_, hwf.calls⟩
  · rcases List.mem_append.mp hmem with hmem | hmem
    · exact List.mem_append_left _ ((List.filter_sublist.map _).subset hmem)
    · exact List.mem_append_right _ hmem
  · rcases mem_insert.mp he with rfl | ⟨he, -⟩
    · exact ⟨w, hw, hid, hport⟩
    · exact hwf.jobs e he

theorem held_dropJob (hwf : h.Wf) {rentalId : Int} {job : MetalJob}
    (hjob : (rentalId, job) ∈ h.jobs) :
    h.held.Perm (job.child :: held { h with jobs := h.jobs.filter (·.1 ≠ rentalId) }) := by
  have hperm := (perm_cons_filter_ne hwf.keys hjob).map (·.2.child)
  exact hperm.append_right (h.calls.filterMap MetalCall.child?)

theorem alive_iff {child : Nat} :
    h.alive child = true ↔ ∃ w, h.workers[child]? = some w ∧ w.alive = true := by
  simp [alive, Option.any_eq_true]

theorem alive_quit {child child' : Nat} (halive : alive { h with workers := h.quit child } child' =
    true) : h.alive child' = true ∧ child' ≠ child := by
  obtain ⟨w, hw, hrun⟩ := alive_iff.mp halive
  simp only [quit, List.getElem?_modify] at hw
  obtain ⟨w₀, hw₀, rfl⟩ := Option.map_eq_some_iff.mp hw
  by_cases hsame : child = child'
  · simp [hsame] at hrun
  · rw [if_neg hsame] at hrun
    exact ⟨alive_iff.mpr ⟨w₀, hw₀, hrun⟩, Ne.symm hsame⟩

theorem Wf.lt_of_held (hwf : h.Wf) {child : Nat} (hmem : child ∈ h.held) :
    child < h.workers.length := by
  rcases List.mem_append.mp hmem with hmem | hmem
  · obtain ⟨e, he, rfl⟩ := List.mem_map.mp hmem
    obtain ⟨w, hw, -⟩ := hwf.jobs e he
    exact (List.getElem?_eq_some_iff.mp hw).1
  · obtain ⟨c, hc, hchild⟩ := List.mem_filterMap.mp hmem
    obtain ⟨w, hw, -⟩ := hwf.calls c hc child hchild
    exact (List.getElem?_eq_some_iff.mp hw).1

section Turns

variable {i : Nat} {c c' : MetalCall} (hwf : h.Wf) (hi : h.calls[i]? = some c)
include hwf hi

theorem Wf.idle (hc : c.child? = none) (hc' : c'.child? = none) :
    Wf { h with calls := h.calls.set i c' } ∧
      (h.Tracked → Tracked { h with calls := h.calls.set i c' }) := by
  obtain ⟨hwf', hperm⟩ := hwf.release hi hc'
  rw [hc, Option.toList_none, List.nil_append] at hperm
  exact ⟨hwf', fun ht child halive => hperm.subset (ht child halive)⟩

theorem Wf.spawned {w : MetalWorker} {child : Nat} (hc : c.child? = none)
    (hchild : child = h.workers.length) (hc' : c'.child? = some child) (hholds : c'.Holds w) :
    Wf { h with workers := h.workers ++ [w], calls := h.calls.set i c' } ∧
      (h.Tracked → Tracked { h with workers := h.workers ++ [w], calls := h.calls.set i c' }) := by
  subst hchild
  have hmore : Wf { h with workers := h.workers ++ [w] } := by
    refine hwf.withWorkers fun child w₀ hw₀ => ⟨w₀, ?_, rfl, rfl⟩
    rw [List.getElem?_append_left (List.getElem?_eq_some_iff.mp hw₀).1, hw₀]
  have hfree : h.workers.length ∉ h.held := fun hmem => (hwf.lt_of_held hmem).false
  obtain ⟨hwf', hperm⟩ := hmore.take hi hc hc' hfree (List.getElem?_concat_length ..) hholds
  refine ⟨hwf', fun ht child halive => hperm.symm.subset ?_⟩
  obtain ⟨w₀, hw₀, hrun⟩ := alive_iff.mp halive
  rcases Nat.lt_or_ge child h.workers.length with hlt | hge
  · refine List.mem_cons_of_mem _ (ht child (alive_iff.mpr ⟨w₀, ?_, hrun⟩))
    rwa [List.getElem?_append_left hlt] at hw₀
  · have hlen := (List.getElem?_eq_some_iff.mp hw₀).1
    rw [List.length_append, List.length_singleton] at hlen
    rw [show child = h.workers.length by omega]
    exact List.mem_cons_self

theorem Wf.inserted {spec : RentalSpec} {child : Nat} {port : Int} (hc : c = .insert spec child port)
    (hc' : c'.child? = none) :
    Wf { h with
      jobs := insert h.jobs spec.rentalId ⟨child, port⟩
      calls := h.calls.set i c' } ∧
    (h.Kept (.turn i none) → h.Tracked → Tracked { h with
      jobs := insert h.jobs spec.rentalId ⟨child, port⟩
      calls := h.calls.set i c' }) := by
  subst hc
  obtain ⟨hwf', hrest⟩ := hwf.release hi hc'
  have hperm : h.held.Perm (child :: MetalHost.held { h with calls := h.calls.set i c' }) := hrest
  have hnodup := List.nodup_cons.mp (hperm.nodup_iff.mp hwf.held)
  obtain ⟨w, hw, hid, hport⟩ := hwf.calls _ (List.mem_of_getElem? hi) child rfl
  refine ⟨hwf'.insertJob hnodup.1 hw hid hport, fun hkept ht child' halive => ?_⟩
  rcases List.mem_cons.mp (hperm.subset (ht child' halive)) with rfl | hmem
  · exact List.mem_append_left _ (List.mem_map.mpr ⟨_, mem_insert.mpr (.inl rfl), rfl⟩)
  · rcases List.mem_append.mp hmem with hmem | hmem
    · obtain ⟨⟨id, job⟩, he, rfl⟩ := List.mem_map.mp hmem
      refine List.mem_append_left _ (List.mem_map.mpr ⟨(id, job), mem_insert.mpr (.inr ⟨he, ?_⟩), rfl⟩)
      rintro rfl
      have hdead := hkept spec child port hi job he
      rw [show h.alive job.child = true from halive] at hdead
      cases hdead
    · exact List.mem_append_right _ hmem

theorem Wf.removed {rentalId : Int} {job : MetalJob} (hc : c.child? = none)
    (hjob : (rentalId, job) ∈ h.jobs) :
    Wf { h with
      jobs := h.jobs.filter (·.1 ≠ rentalId)
      calls := h.calls.set i (.kill rentalId job.child) } ∧
    (h.Tracked → Tracked { h with
      jobs := h.jobs.filter (·.1 ≠ rentalId)
      calls := h.calls.set i (.kill rentalId job.child) }) := by
  have hperm := held_dropJob hwf hjob
  have hnodup := List.nodup_cons.mp (hperm.nodup_iff.mp hwf.held)
  obtain ⟨w, hw, hid, -⟩ := hwf.jobs _ hjob
  obtain ⟨hwf', hperm'⟩ := @Wf.take { h with jobs := h.jobs.filter (·.1 ≠ rentalId) } hwf.withJobs
    i c (.kill rentalId job.child) hi hc job.child rfl hnodup.1 w hw hid
  exact ⟨hwf', fun ht child halive => hperm'.symm.subset (hperm.subset (ht child halive))⟩

theorem Wf.killed {rentalId : Int} {child : Nat} (hc : c = .kill rentalId child)
    (hc' : c'.child? = none) :
    Wf { h with workers := h.quit child, calls := h.calls.set i c' } ∧
      (h.Tracked → Tracked { h with workers := h.quit child, calls := h.calls.set i c' }) := by
  subst hc
  obtain ⟨hwf', hrest⟩ := hwf.release hi hc'
  have hperm : h.held.Perm (child :: MetalHost.held { h with calls := h.calls.set i c' }) := hrest
  refine ⟨hwf'.withWorkers fun child' w hw => quit_spec hw, fun ht child' halive => ?_⟩
  obtain ⟨hbefore, hne⟩ := alive_quit halive
  rcases List.mem_cons.mp (hperm.subset (ht child' hbefore)) with rfl | hmem
  · exact absurd rfl hne
  · exact hmem

end Turns

theorem Wf.turn (hwf : h.Wf) {i : Nat} {c : MetalCall} (hi : h.calls[i]? = some c)
    (failure : Option String) : (h.turn text i failure c).Wf ∧
      (h.Kept (.turn i failure) → h.Tracked → (h.turn text i failure c).Tracked) := by
  have idle : ∀ {c' : MetalCall}, c.child? = none → c'.child? = none →
      Wf { h with calls := h.calls.set i c' } ∧ (h.Kept (.turn i failure) → h.Tracked →
        Tracked { h with calls := h.calls.set i c' }) := fun hc hc' =>
    (hwf.idle hi hc hc').imp_right fun ht _ => ht
  cases c with
  | start spec =>
    simp only [MetalHost.turn]
    split
    case h_1 => exact idle rfl rfl
    case h_2 => split <;> exact idle rfl rfl
  | spawn spec n port =>
    simp only [MetalHost.turn]
    split
    case h_1 => exact idle rfl rfl
    case h_2 =>
      have hholds : (MetalCall.insert spec h.workers.length port).Holds
          ⟨spec.rentalId, workerArgs h.exe n port, port, true⟩ := ⟨rfl, rfl⟩
      exact (hwf.spawned hi rfl rfl rfl hholds).imp_right fun ht _ => ht
  | insert spec child port => exact hwf.inserted hi rfl rfl
  | remove rentalId =>
    simp only [MetalHost.turn]
    split
    case h_1 => exact idle rfl rfl
    case h_2 id job hfind =>
      obtain rfl : id = rentalId := by simpa using List.find?_some hfind
      exact (hwf.removed hi rfl (List.mem_of_find?_eq_some hfind)).imp_right fun ht _ => ht
  | kill rentalId child => exact (hwf.killed hi rfl rfl).imp_right fun ht _ => ht
  | started | stopped => exact ⟨hwf, fun _ ht => ht⟩

theorem Wf.called (hwf : h.Wf) {c : MetalCall} (hc : c.child? = none) :
    Wf { h with calls := h.calls ++ [c] } ∧
      (h.Tracked → Tracked { h with calls := h.calls ++ [c] }) := by
  have hheld : MetalHost.held { h with calls := h.calls ++ [c] } = h.held := by
    simp [MetalHost.held, hc]
  refine ⟨⟨hwf.keys, hheld ▸ hwf.held, hwf.jobs, fun c₀ hc₀ child hchild => ?_⟩,
    fun ht child halive => hheld ▸ ht child halive⟩
  rcases List.mem_append.mp hc₀ with hc₀ | hc₀
  · exact hwf.calls c₀ hc₀ child hchild
  · rw [List.mem_singleton.mp hc₀, hc] at hchild
    cases hchild

theorem Wf.step (hwf : h.Wf) (a : MetalAct) : (h.step text a).Wf ∧
    (h.Kept a → h.Tracked → (h.step text a).Tracked) := by
  cases a with
  | start spec => exact (hwf.called rfl).imp_right fun ht _ => ht
  | stop rentalId => exact (hwf.called rfl).imp_right fun ht _ => ht
  | turn i failure =>
    simp only [MetalHost.step]
    split
    case h_1 => exact ⟨hwf, fun _ ht => ht⟩
    case h_2 c hi => exact hwf.turn hi failure
  | runningRentals =>
    refine ⟨hwf.withJobs, fun _ ht child halive => ?_⟩
    rcases List.mem_append.mp (ht child halive) with hmem | hmem
    · obtain ⟨e, he, rfl⟩ := List.mem_map.mp hmem
      exact List.mem_append_left _ (List.mem_map.mpr ⟨e, List.mem_filter.mpr ⟨he, halive⟩, rfl⟩)
    · exact List.mem_append_right _ hmem
  | exit child =>
    exact ⟨hwf.withWorkers fun child' w hw => quit_spec hw,
      fun _ ht child' halive => ht child' (alive_quit halive).1⟩
  | restart =>
    refine ⟨⟨List.nodup_nil, List.nodup_nil, nofun, nofun⟩, fun hkept _ child halive => ?_⟩
    cases (hkept child).symm.trans halive

/-- Otherwise a worker goes on that the runtime has lost. -/
theorem Wf.not_tracked (hwf : h.Wf) {a : MetalAct} (ha : ¬h.Kept a) :
    ¬(h.step text a).Tracked := by
  intro ht
  cases a with
  | turn i failure =>
    simp only [Kept, not_forall, Bool.not_eq_false] at ha
    obtain ⟨spec, child, port, hi, job, hjob, halive⟩ := ha
    have hstep : h.step text (.turn i failure) = { h with
        jobs := insert h.jobs spec.rentalId ⟨child, port⟩
        calls := h.calls.set i (.started spec
          (.ok ⟨jobName spec.rentalId, port, .httpStatus⟩)) } := by
      simp [MetalHost.step, hi, MetalHost.turn]
    rw [hstep] at ht
    have hrelease : (MetalCall.started spec
        (.ok ⟨jobName spec.rentalId, port, .httpStatus⟩)).child? = none := rfl
    obtain ⟨hwf', hrest⟩ := hwf.release hi hrelease
    have hperm := hrest.trans ((held_dropJob hwf' hjob).append_left _)
    -- the new process, the one that it replaces, and all that goes on being held are apart
    obtain ⟨hne, hold⟩ := List.nodup_cons.mp (hperm.nodup_iff.mp hwf.held)
    rcases List.mem_cons.mp (ht job.child halive) with hsame | hmem
    · have hchild : job.child = child := hsame
      exact hne (by rw [← hchild]; exact List.mem_cons_self)
    · exact (List.nodup_cons.mp hold).1 hmem
  | restart =>
    simp only [Kept, not_forall, Bool.not_eq_false] at ha
    obtain ⟨child, halive⟩ := ha
    exact absurd (ht child halive) List.not_mem_nil
  | _ => exact ha trivial

def fresh (exe : String) (ports : DockerRuntime) : MetalHost := ⟨exe, ports, [], [], []⟩

/-- What the runtime lists is what runs and is not in the hands of a call. -/
def Listed (h : MetalHost) : Prop := ∀ r, r ∈ h.runningRentals.1 ↔
  ∃ child w, h.workers[child]? = some w ∧ w.alive = true ∧
    child ∉ h.calls.filterMap MetalCall.child? ∧ r = ⟨w.rentalId, jobName w.rentalId, w.port⟩

theorem Wf.listed (hwf : h.Wf) (ht : h.Tracked) : h.Listed := by
  intro r
  simp only [runningRentals, List.mem_map, List.mem_filter]
  constructor
  · rintro ⟨⟨rentalId, job⟩, ⟨he, halive⟩, rfl⟩
    obtain ⟨w, hw, hrun⟩ := alive_iff.mp halive
    obtain ⟨w', hw', hid, hport⟩ := hwf.jobs _ he
    cases hw.symm.trans hw'
    have hfree := (List.nodup_append.mp hwf.held).2.2 job.child
      (List.mem_map.mpr ⟨_, he, rfl⟩)
    exact ⟨job.child, w, hw, hrun, fun hmem => hfree _ hmem rfl, by rw [hid, hport]⟩
  · rintro ⟨child, w, hw, hrun, hfree, rfl⟩
    have halive := alive_iff.mpr ⟨w, hw, hrun⟩
    rcases List.mem_append.mp (ht child halive) with hmem | hmem
    · obtain ⟨e, he, rfl⟩ := List.mem_map.mp hmem
      obtain ⟨w', hw', hid, hport⟩ := hwf.jobs e he
      cases hw.symm.trans hw'
      exact ⟨e, ⟨he, halive⟩, by rw [hid, hport]⟩
    · exact absurd hmem hfree

theorem fresh_wf (exe : String) (ports : DockerRuntime) : (fresh exe ports).Wf :=
  ⟨List.nodup_nil, List.nodup_nil, nofun, nofun⟩

theorem fresh_tracked (exe : String) (ports : DockerRuntime) : (fresh exe ports).Tracked := by
  intro child halive
  simp [alive, fresh] at halive

end MetalHost

/-- The runtime for Metal keeps every worker that runs within its reach, and lists it, exactly as
long as no job is replaced while its worker runs and no worker runs across a restart. -/
theorem workers_tracked_iff (text : TaskError → String) (exe : String) (ports : DockerRuntime)
    (as : List MetalAct) :
    (Always (MetalHost.step text) MetalHost.Tracked (.fresh exe ports) as ↔
      Along (MetalHost.step text) MetalHost.Kept (.fresh exe ports) as) ∧
    (Along (MetalHost.step text) MetalHost.Kept (.fresh exe ports) as →
      Always (MetalHost.step text) MetalHost.Listed (.fresh exe ports) as) := by
  have start : (MetalHost.fresh exe ports).Wf ∧ (MetalHost.fresh exe ports).Tracked :=
    ⟨MetalHost.fresh_wf exe ports, MetalHost.fresh_tracked exe ports⟩
  have step : ∀ (h : MetalHost) (a : MetalAct), h.Wf ∧ h.Tracked → h.Kept a →
      (h.step text a).Wf ∧ (h.step text a).Tracked := fun h a hI hkept =>
    ⟨(hI.1.step a).1, (hI.1.step a).2 hkept hI.2⟩
  exact ⟨always_iff_along (fun _ hI => hI.2) step (fun _ _ hI ha => hI.1.not_tracked ha) start as,
    always_of_along (fun _ hI => hI.1.listed hI.2) step start⟩

end GpuMarket
