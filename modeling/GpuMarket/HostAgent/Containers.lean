import GpuMarket.HostAgent.Daemon
import GpuMarket.Lib.Records
import Mathlib.Data.List.Nodup

namespace GpuMarket

open Lib

variable {ι : Type}

def RentalSpec.InRange (spec : RentalSpec) : Prop := -2 ^ 63 ≤ spec.rentalId ∧ spec.rentalId < 2 ^ 63

instance (spec : RentalSpec) : Decidable spec.InRange := inferInstanceAs (Decidable (_ ∧ _))

namespace DockerRuntime

def InRange (rt : DockerRuntime) : Prop := -2 ^ 31 ≤ rt.portStart ∧ rt.portEnd < 2 ^ 31

instance (rt : DockerRuntime) : Decidable rt.InRange := inferInstanceAs (Decidable (_ ∧ _))

def HasPort (rt : DockerRuntime) (p : Int) : Prop := rt.portStart ≤ p ∧ p ≤ rt.portEnd

end DockerRuntime

theorem mem_ports {start stop p : Int} :
    p ∈ (List.range (stop + 1 - start).toNat).map (start + Int.ofNat ·) ↔ start ≤ p ∧ p ≤ stop := by
  rw [List.mem_map]
  constructor
  · rintro ⟨k, hk, rfl⟩
    have := List.mem_range.mp hk
    simp only [Int.ofNat_eq_natCast]
    omega
  · rintro ⟨hlow, hhigh⟩
    refine ⟨(p - start).toNat, List.mem_range.mpr (by omega), ?_⟩
    simp only [Int.ofNat_eq_natCast]
    omega

theorem pickFreePort_spec {start stop p : Int} {used : List Int}
    (h : pickFreePort start stop used = some p) : (start ≤ p ∧ p ≤ stop) ∧ p ∉ used := by
  have hused := List.find?_some h
  exact ⟨mem_ports.mp (List.mem_of_find?_eq_some h), by simpa using hused⟩

theorem containerName_injective {m n : Int} (h : containerName m = containerName n) : m = n :=
  Decimal.toString_int_injective (String.append_right_inj _ |>.mp h)

theorem PortBinding.Clashes.symm {b b' : PortBinding} (h : b.Clashes b') : b'.Clashes b := by
  obtain ⟨hport, hip⟩ := h
  refine ⟨hport.symm, ?_⟩
  rcases hip with hip | hip | hip
  · exact .inl hip.symm
  · exact .inr (.inr hip)
  · exact .inr (.inl hip)

theorem Container.Clashes.symm {c c' : Container} (h : c.Clashes c') : c'.Clashes c := by
  obtain ⟨b, hb, b', hb', hclash⟩ := h
  exact ⟨b', hb', b, hb, hclash.symm⟩

namespace Container

def Of (c : Container) (spec : RentalSpec) (sshPort : Int) : Prop :=
  c.name = containerName spec.rentalId ∧ c.config = spec.config sshPort

variable {c : Container} {spec : RentalSpec} {sshPort : Int}

theorem Of.label_rentalId (h : c.Of spec sshPort) :
    c.label labelRentalId = some (toString spec.rentalId) := by
  rw [label, h.2]
  rfl

theorem Of.label_sshPort (h : c.Of spec sshPort) :
    c.label labelSshPort = some (toString sshPort) := by
  rw [label, h.2]
  rfl

theorem Of.bindings (h : c.Of spec sshPort) : c.bindings = [⟨"0.0.0.0", toString sshPort⟩] := by
  rw [Container.bindings, h.2]
  rfl

theorem Of.unique (h : c.Of spec sshPort) {spec' : RentalSpec} {sshPort' : Int}
    (h' : c.Of spec' sshPort') : spec = spec' ∧ sshPort = sshPort' := by
  have hconfig : spec.config sshPort = spec'.config sshPort' := h.2.symm.trans h'.2
  obtain ⟨rentalId, image, sshPubkey⟩ := spec
  obtain ⟨rentalId', image', sshPubkey'⟩ := spec'
  simp only [RentalSpec.config, ContainerConfig.mk.injEq, List.cons.injEq, Prod.mk.injEq,
    String.append_right_inj, PortBinding.mk.injEq, true_and, and_true] at hconfig
  obtain ⟨rfl, ⟨rfl, -⟩, ⟨hid, hport⟩, -⟩ := hconfig
  exact ⟨by rw [Decimal.toString_int_injective hid], Decimal.toString_int_injective hport⟩

theorem Of.rental?_eq (h : c.Of spec sshPort) (hspec : spec.InRange) (hlow : -2 ^ 31 ≤ sshPort)
    (hhigh : sshPort < 2 ^ 31) : c.rental? = some ⟨spec.rentalId, c.id, sshPort⟩ := by
  have hid : Decimal.parseSigned 64 (toString spec.rentalId) = some spec.rentalId :=
    Decimal.parseSigned_toString hspec.1 hspec.2
  have hport : Decimal.parseSigned 32 (toString sshPort) = some sshPort :=
    Decimal.parseSigned_toString hlow hhigh
  simp only [rental?, h.label_rentalId, h.label_sshPort, hid, hport]

end Container

namespace Daemon

variable {d : Daemon} {name : String} {running : Bool}

theorem mem_setRunning {c : Container} : c ∈ d.setRunning name running ↔
    ∃ c₀ ∈ d, c = if c₀.name = name then { c₀ with running } else c₀ := by
  simp [setRunning, eq_comm]

theorem map_name_setRunning :
    (d.setRunning name running).map (·.name) = List.map (·.name) d := by
  rw [setRunning, List.map_map]
  refine List.map_congr_left fun c _ => ?_
  simp only [Function.comp_apply]
  split <;> rfl

inductive Change (d : Daemon) : DockerRequest → Daemon → Prop
  | same (req : DockerRequest) : Change d req d
  | create (newId name : String) (config : ContainerConfig) (fresh : ∀ c ∈ d, c.name ≠ name) :
    Change d (.createContainer name config) (d ++ [⟨newId, name, config, false⟩])
  | start (c : Container) (mem : c ∈ d) (apart : ∀ c' ∈ d, c'.running = true → ¬c.Clashes c') :
    Change d (.startContainer c.name) (d.setRunning c.name true)
  | stop (name : String) : Change d (.stopContainer name) (d.setRunning name false)
  | remove (name : String) : Change d (.removeContainer name) (d.remove name)

end Daemon

/-- What the daemon documents of its calls.  A call does at most what it is for: no name is given
twice, and no container starts while another that runs holds one of its ports; and the daemon does
what it says that it has done. -/
structure DockerApi.Documented (docker : DockerApi ι) : Prop where
  change : ∀ (d : Daemon) i req, d.Change req (docker.respond d i req).1
  listed : ∀ d i label, (docker.respond d i (.listContainers label)).2.result = .ok () →
    (docker.respond d i (.listContainers label)).2.containers.Perm (d.listContainers label)
  created : ∀ d i name config,
    (docker.respond d i (.createContainer name config)).2.result = .ok () →
      (∀ c ∈ d, c.name ≠ name) ∧ (docker.respond d i (.createContainer name config)).1 =
        d ++ [⟨(docker.respond d i (.createContainer name config)).2.id, name, config, false⟩]
  started : ∀ d i name, (docker.respond d i (.startContainer name)).2.result = .ok () →
    ∃ c ∈ d, c.name = name ∧
      { c with running := true } ∈ (docker.respond d i (.startContainer name)).1
  /-- also where it says that there was nothing to stop -/
  stopped : ∀ (d : Daemon) i name, (d.map (·.name)).Nodup →
    (∀ e, (docker.respond d i (.stopContainer name)).2.result = .error e →
      e.isNotFound = true ∨ e.isNotModified = true) →
    ∀ c ∈ (docker.respond d i (.stopContainer name)).1, c.name = name → c.running = false
  /-- also where it says that there was nothing to remove -/
  removed : ∀ d i name,
    (∀ e, (docker.respond d i (.removeContainer name)).2.result = .error e →
      e.isNotFound = true) →
    ∀ c ∈ (docker.respond d i (.removeContainer name)).1, c.name ≠ name

namespace Daemon

variable {d : Daemon} {name : String} {running : Bool}

theorem Change.mem {d' : Daemon} {req : DockerRequest} (h : d.Change req d') {c : Container}
    (hc : c ∈ d') :
    (∃ c₀ ∈ d, c.id = c₀.id ∧ c.name = c₀.name ∧ c.config = c₀.config) ∨
      ∃ newId name config, req = .createContainer name config ∧
        c = ⟨newId, name, config, false⟩ := by
  have switched : ∀ {name running}, c ∈ d.setRunning name running →
      ∃ c₀ ∈ d, c.id = c₀.id ∧ c.name = c₀.name ∧ c.config = c₀.config := by
    intro name running hc
    obtain ⟨c₀, hc₀, rfl⟩ := mem_setRunning.mp hc
    exact ⟨c₀, hc₀, by split <;> simp⟩
  cases h with
  | same => exact .inl ⟨c, hc, rfl, rfl, rfl⟩
  | create newId name config fresh =>
    rcases List.mem_append.mp hc with hc | hc
    · exact .inl ⟨c, hc, rfl, rfl, rfl⟩
    · exact .inr ⟨newId, name, config, rfl, List.mem_singleton.mp hc⟩
  | start c mem apart => exact .inl (switched hc)
  | stop name => exact .inl (switched hc)
  | remove name => exact .inl ⟨c, List.mem_of_mem_filter hc, rfl, rfl, rfl⟩

theorem Change.names {d' : Daemon} {req : DockerRequest} (h : d.Change req d')
    (hd : (d.map (·.name)).Nodup) : (d'.map (·.name)).Nodup := by
  cases h with
  | same => exact hd
  | create newId name config fresh =>
    rw [List.map_append, List.nodup_append]
    exact ⟨hd, by simp, by simpa using fresh⟩
  | start c mem apart =>
    rw [map_name_setRunning]
    exact hd
  | stop name =>
    rw [map_name_setRunning]
    exact hd
  | remove name => exact hd.sublist (List.filter_sublist.map _)

/-- Names are unique, and containers that run publish different ports. -/
structure Apart (d : Daemon) : Prop where
  names : (d.map (·.name)).Nodup
  apart : ∀ c ∈ d, ∀ c' ∈ d, c.running = true → c'.running = true → c.Clashes c' → c.name = c'.name

/-- The label of a rental is only on what `start_rental` has created. -/
structure Ok (rt : DockerRuntime) (d : Daemon) : Prop extends Apart d where
  ours : ∀ c ∈ d, (c.label labelRentalId).isSome = true →
    ∃ spec sshPort, spec.InRange ∧ rt.HasPort sshPort ∧ c.Of spec sshPort

theorem Apart.eq_of_name (h : d.Apart) {c c' : Container} (hc : c ∈ d) (hc' : c' ∈ d)
    (hname : c.name = c'.name) : c = c' := List.inj_on_of_nodup_map h.names hc hc' hname

theorem Apart.setRunning (h : d.Apart)
    (hapart : running = true → ∀ c ∈ d, c.name = name → ∀ c' ∈ d, c'.running = true →
      ¬c.Clashes c') : (d.setRunning name running).Apart := by
  refine ⟨?_, fun c hc c' hc' hrun hrun' hclash => ?_⟩
  · rw [map_name_setRunning]
    exact h.names
  · obtain ⟨a, ha, rfl⟩ := mem_setRunning.mp hc
    obtain ⟨b, hb, rfl⟩ := mem_setRunning.mp hc'
    by_cases ha' : a.name = name <;> by_cases hb' : b.name = name
    · simp [ha', hb']
    · simp only [if_pos ha', if_neg hb'] at hrun hrun' hclash
      exact absurd hclash (hapart hrun a ha ha' b hb hrun')
    · simp only [if_neg ha', if_pos hb'] at hrun hrun' hclash
      exact absurd hclash.symm (hapart hrun' b hb hb' a ha hrun)
    · simp only [if_neg ha', if_neg hb'] at hrun hrun' hclash ⊢
      exact h.apart a ha b hb hrun hrun' hclash

theorem Change.apart {d' : Daemon} {req : DockerRequest} (hd : d.Change req d') (h : d.Apart) :
    d'.Apart := by
  cases hd with
  | same => exact h
  | create newId name config fresh =>
    have hchange : d.Change (.createContainer name config) (d ++ [⟨newId, name, config, false⟩]) :=
      .create newId name config fresh
    refine ⟨hchange.names h.names, fun c hc c' hc' hrun hrun' hclash => ?_⟩
    have old : ∀ c ∈ d ++ [⟨newId, name, config, false⟩], c.running = true → c ∈ d := by
      intro c hc hrun
      rcases List.mem_append.mp hc with hc | hc
      · exact hc
      · rw [List.mem_singleton.mp hc] at hrun
        cases hrun
    exact h.apart c (old c hc hrun) c' (old c' hc' hrun') hrun hrun' hclash
  | start c mem apart =>
    refine h.setRunning fun _ c₀ hc₀ hname => ?_
    rw [h.eq_of_name hc₀ mem hname]
    exact apart
  | stop name => exact h.setRunning nofun
  | remove name =>
    have hsub : (d.remove name).Sublist d := List.filter_sublist
    exact ⟨h.names.sublist (hsub.map _),
      fun c hc c' hc' => h.apart c (hsub.subset hc) c' (hsub.subset hc')⟩

end Daemon

def DockerRequest.Ok (rt : DockerRuntime) : DockerRequest → Prop
  | .createContainer name config => (config.labels.lookup labelRentalId).isSome = true →
    ∃ (spec : RentalSpec) (sshPort : Int), spec.InRange ∧ rt.HasPort sshPort ∧
      name = containerName spec.rentalId ∧ config = spec.config sshPort
  | _ => True

namespace Daemon

variable {rt : DockerRuntime} {d : Daemon}

theorem Ok.setRunning (h : d.Ok rt) {name : String} {running : Bool}
    (hapart : (d.setRunning name running).Apart) : (d.setRunning name running).Ok rt := by
  refine ⟨hapart, fun c hc hl => ?_⟩
  obtain ⟨a, ha, rfl⟩ := mem_setRunning.mp hc
  obtain ⟨spec, sshPort, hspec, hport, hof⟩ := h.ours a ha (by split at hl <;> exact hl)
  exact ⟨spec, sshPort, hspec, hport, by split <;> exact hof⟩

theorem Ok.change (h : d.Ok rt) {req : DockerRequest} (hreq : req.Ok rt) {d' : Daemon}
    (hd : d.Change req d') : d'.Ok rt := by
  have hapart := hd.apart h.toApart
  cases hd with
  | same => exact h
  | create newId name config fresh =>
    refine ⟨hapart, fun c hc hl => ?_⟩
    rcases List.mem_append.mp hc with hc | hc
    · exact h.ours c hc hl
    · obtain rfl := List.mem_singleton.mp hc
      exact hreq hl
  | start c mem apart => exact h.setRunning hapart
  | stop name => exact h.setRunning hapart
  | remove name => exact ⟨hapart, fun c hc => h.ours c (List.mem_of_mem_filter hc)⟩

section Listing

variable {listed : List Container} (hlisted : listed.Perm (d.listContainers labelRentalId))
include hlisted

theorem Ok.rental_listed (h : d.Ok rt) (hrt : rt.InRange) {c : Container} (hc : c ∈ listed) :
    ∃ spec sshPort, c.Of spec sshPort ∧ c.rental? = some ⟨spec.rentalId, c.id, sshPort⟩ := by
  obtain ⟨hmem, hshown⟩ := List.mem_filter.mp (hlisted.mem_iff.mp hc)
  obtain ⟨spec, sshPort, hspec, hport, hof⟩ := h.ours c hmem (Bool.and_eq_true_iff.mp hshown).2
  exact ⟨spec, sshPort, hof, hof.rental?_eq hspec (hrt.1.trans hport.1) (hport.2.trans_lt hrt.2)⟩

theorem Ok.mem_runningRentals (h : d.Ok rt) (hrt : rt.InRange) {r : RunningRental} :
    r ∈ DockerRuntime.runningRentals listed ↔ ∃ c ∈ d, c.running = true ∧ c.id = r.containerId ∧
      ∃ spec : RentalSpec, spec.rentalId = r.rentalId ∧ c.Of spec r.sshPort := by
  rw [DockerRuntime.runningRentals, List.mem_filterMap]
  constructor
  · rintro ⟨c, hc, hr⟩
    obtain ⟨spec, sshPort, hof, hread⟩ := h.rental_listed hlisted hrt hc
    obtain ⟨hmem, hshown⟩ := List.mem_filter.mp (hlisted.mem_iff.mp hc)
    cases hread.symm.trans hr
    exact ⟨c, hmem, (Bool.and_eq_true_iff.mp hshown).1, rfl, spec, rfl, hof⟩
  · rintro ⟨c, hmem, hrun, hid, spec, hrid, hof⟩
    have hc : c ∈ listed := by
      refine hlisted.mem_iff.mpr (List.mem_filter.mpr ⟨hmem, ?_⟩)
      simp [hrun, hof.label_rentalId]
    obtain ⟨spec', sshPort', hof', hread⟩ := h.rental_listed hlisted hrt hc
    obtain ⟨rfl, rfl⟩ := hof.unique hof'
    exact ⟨c, hc, by rw [hread, hid, hrid]⟩

theorem Ok.nodup_rentalId (h : d.Ok rt) (hrt : rt.InRange) :
    ((DockerRuntime.runningRentals listed).map (·.rentalId)).Nodup := by
  have hnames : (listed.map (·.name)).Nodup :=
    (hlisted.map _).nodup_iff.mpr (h.names.sublist (List.filter_sublist.map _))
  have hsub : ((DockerRuntime.runningRentals listed).map fun r => containerName r.rentalId).Sublist
      (listed.map (·.name)) := by
    refine map_filterMap_sublist fun c hc r hr => ?_
    obtain ⟨spec, sshPort, hof, hread⟩ := h.rental_listed hlisted hrt hc
    cases hread.symm.trans hr
    exact hof.1.symm
  have hmap :
      (((DockerRuntime.runningRentals listed).map (·.rentalId)).map containerName).Nodup := by
    rw [List.map_map]
    exact hnames.sublist hsub
  exact hmap.of_map

theorem Ok.nodup_sshPort (h : d.Ok rt) (hrt : rt.InRange) :
    (DockerRuntime.usedPorts listed).Nodup := by
  have hids := h.nodup_rentalId hlisted hrt
  refine (hids.of_map).map_on fun r hr r' hr' hport => ?_
  refine List.inj_on_of_nodup_map hids hr hr' ?_
  obtain ⟨c, hc, hrun, -, spec, hrid, hof⟩ := (h.mem_runningRentals hlisted hrt).mp hr
  obtain ⟨c', hc', hrun', -, spec', hrid', hof'⟩ := (h.mem_runningRentals hlisted hrt).mp hr'
  -- the two containers would publish one port
  have hclash : c.Clashes c' := by
    rw [hport] at hof
    exact ⟨⟨"0.0.0.0", toString r'.sshPort⟩, by simp [hof.bindings],
      ⟨"0.0.0.0", toString r'.sshPort⟩, by simp [hof'.bindings], rfl, .inl rfl⟩
  have hname := h.apart c hc c' hc' hrun hrun' hclash
  rw [hof.1, hof'.1] at hname
  rw [← hrid, ← hrid', containerName_injective hname]

end Listing

end Daemon

section Runs

variable {docker : DockerApi ι} {rt : DockerRuntime}

def StartStage.port? : StartStage → Option Int
  | .pullImage | .usedPorts => none
  | .forceRemove sshPort | .createContainer sshPort | .startContainer sshPort _ => some sshPort

def Job.Ok (rt : DockerRuntime) : Job → Prop
  | .starting spec s => spec.InRange ∧ ∀ p, s.port? = some p → rt.HasPort p
  | _ => True

theorem Job.Ok.request {j : Job} (h : j.Ok rt) {req : DockerRequest} (hreq : j.request = some req) :
    req.Ok rt := by
  cases j with
  | starting spec s =>
    cases hreq
    cases s with
    | createContainer sshPort => exact fun _ => ⟨spec, sshPort, h.1, h.2 _ rfl, rfl, rfl⟩
    | _ => trivial
  | stopping rentalId s =>
    cases hreq
    cases s <;> trivial
  | started => cases hreq
  | stopped => cases hreq

theorem DockerRuntime.startRental_port {spec : RentalSpec} {a : DockerAnswer} {s s' : StartStage}
    (h : rt.startRental spec a s = .next s') (hs : ∀ p, s.port? = some p → rt.HasPort p) :
    ∀ p, s'.port? = some p → rt.HasPort p := by
  cases s with
  | usedPorts =>
    simp only [startRental] at h
    split at h
    case h_1 => cases h
    case h_2 =>
      split at h
      case h_1 => cases h
      case h_2 sshPort hpick =>
        cases h
        rintro p ⟨⟩
        exact (pickFreePort_spec hpick).1
  | pullImage | forceRemove | createContainer | startContainer =>
    simp only [startRental] at h
    split at h
    all_goals cases h
    all_goals exact hs

theorem Job.Ok.advance {j : Job} (h : j.Ok rt) (a : DockerAnswer) : (j.advance rt a).Ok rt := by
  cases j with
  | starting spec s =>
    simp only [Job.advance]
    split
    case h_1 s' hs' => exact ⟨h.1, DockerRuntime.startRental_port hs' h.2⟩
    case h_2 => trivial
  | stopping rentalId s =>
    simp only [Job.advance]
    split <;> trivial
  | started => trivial
  | stopped => trivial

structure Host.Ok (rt : DockerRuntime) (h : Host) : Prop where
  daemon : h.daemon.Ok rt
  jobs : ∀ j ∈ h.jobs, j.Ok rt

/-- Nobody else creates containers with the label of a rental. -/
def HostAct.Ok : HostAct ι → Prop
  | .start spec => spec.InRange
  | .other _ (.createContainer _ config) => config.labels.lookup labelRentalId = none
  | _ => True

instance : (a : HostAct ι) → Decidable a.Ok
  | .start spec => inferInstanceAs (Decidable spec.InRange)
  | .other _ (.createContainer _ config) =>
    inferInstanceAs (Decidable (config.labels.lookup labelRentalId = none))
  | .other _ (.createImage ..) | .other _ (.listContainers _) | .other _ (.startContainer _)
  | .other _ (.stopContainer _) | .other _ (.removeContainer _) | .stop _ | .call .. | .crash
  | .exit _ => .isTrue trivial

def Host.init : Host := ⟨[], []⟩

theorem Host.ok_init : Host.init.Ok rt := by
  refine ⟨⟨⟨List.nodup_nil, ?_⟩, ?_⟩, ?_⟩ <;> simp [init]

theorem Host.Ok.step (hdocker : docker.Documented) {h : Host} (hok : h.Ok rt) {a : HostAct ι}
    (ha : a.Ok) : (h.step docker rt a).Ok rt := by
  cases a with
  | start spec =>
    refine ⟨hok.daemon, fun j hj => ?_⟩
    rcases List.mem_append.mp hj with hj | hj
    · exact hok.jobs j hj
    · obtain rfl := List.mem_singleton.mp hj
      exact ⟨ha, nofun⟩
  | stop rentalId =>
    refine ⟨hok.daemon, fun j hj => ?_⟩
    rcases List.mem_append.mp hj with hj | hj
    · exact hok.jobs j hj
    · obtain rfl := List.mem_singleton.mp hj
      trivial
  | call n i =>
    simp only [Host.step]
    split
    case h_1 => exact hok
    case h_2 j hj =>
      have hjok := hok.jobs j (List.mem_of_getElem? hj)
      unfold callStep
      split
      case h_1 => exact hok
      case h_2 req hreq =>
        refine ⟨hok.daemon.change (hjok.request hreq) (hdocker.change h.daemon i req),
          fun j' hj' => ?_⟩
        rcases List.mem_or_eq_of_mem_set hj' with hj' | rfl
        · exact hok.jobs j' hj'
        · exact hjok.advance _
  | crash => exact ⟨hok.daemon, nofun⟩
  | exit name =>
    exact ⟨hok.daemon.setRunning (hok.daemon.toApart.setRunning nofun), hok.jobs⟩
  | other i req =>
    refine ⟨hok.daemon.change ?_ (hdocker.change h.daemon i req), hok.jobs⟩
    cases req with
    | createContainer name config =>
      intro hl
      rw [show config.labels.lookup labelRentalId = none from ha] at hl
      cases hl
    | _ => trivial

theorem Host.ok_run (hdocker : docker.Documented) {as : List (HostAct ι)} (has : ∀ a ∈ as, a.Ok) :
    (run (Host.step docker rt) Host.init as).Ok rt := by
  refine run_invariant_along (C := fun _ a => a.Ok) (fun h a hok ha => hok.step hdocker ha)
    Host.ok_init as ?_
  exact fun pre a hpre => has a (hpre.subset (by simp))

/-- What the agent reads off a list of the daemon's are exactly the rental containers that run, each
once, with the rental it was started for and the port it publishes; the other ports of the range are
free. -/
structure Daemon.Recovered (rt : DockerRuntime) (d : Daemon) (listed : List Container) : Prop where
  rentals : ((DockerRuntime.runningRentals listed).map (·.rentalId)).Nodup
  ports : ((DockerRuntime.runningRentals listed).map (·.sshPort)).Nodup
  mem_iff : ∀ r, r ∈ DockerRuntime.runningRentals listed ↔ ∃ c ∈ d, c.running = true ∧
    (c.label labelRentalId).isSome = true ∧ c.id = r.containerId ∧
      c.name = containerName r.rentalId ∧ c.bindings = [⟨"0.0.0.0", toString r.sshPort⟩]
  available_iff : ∀ p, p ∈ rt.available listed ↔ rt.HasPort p ∧ ∀ c ∈ d, c.running = true →
    (c.label labelRentalId).isSome = true → ⟨"0.0.0.0", toString p⟩ ∉ c.bindings

theorem Daemon.Ok.recovered {d : Daemon} (h : d.Ok rt) (hrt : rt.InRange)
    {listed : List Container} (hlisted : listed.Perm (d.listContainers labelRentalId)) :
    d.Recovered rt listed := by
  have hmem : ∀ r, r ∈ DockerRuntime.runningRentals listed ↔ ∃ c ∈ d, c.running = true ∧
      (c.label labelRentalId).isSome = true ∧ c.id = r.containerId ∧
        c.name = containerName r.rentalId ∧ c.bindings = [⟨"0.0.0.0", toString r.sshPort⟩] := by
    intro r
    rw [h.mem_runningRentals hlisted hrt]
    refine exists_congr fun c => and_congr_right fun hc => and_congr_right fun hrun => ?_
    constructor
    · rintro ⟨hid, spec, hrid, hof⟩
      exact ⟨by simp [hof.label_rentalId], hid, hrid ▸ hof.1, hof.bindings⟩
    · rintro ⟨hl, hid, hname, hbindings⟩
      obtain ⟨spec, sshPort, -, -, hof⟩ := h.ours c hc hl
      have hport : sshPort = r.sshPort := by
        rw [hof.bindings] at hbindings
        simp only [List.cons.injEq, PortBinding.mk.injEq, true_and, and_true] at hbindings
        exact Decimal.toString_int_injective hbindings
      exact ⟨hid, spec, containerName_injective (hof.1.symm.trans hname), hport ▸ hof⟩
  refine ⟨h.nodup_rentalId hlisted hrt, h.nodup_sshPort hlisted hrt, hmem, fun p => ?_⟩
  rw [DockerRuntime.available, List.mem_filter, mem_ports]
  refine and_congr_right fun hp => ?_
  simp only [DockerRuntime.usedPorts, List.mem_map, decide_eq_true_eq, not_exists, not_and]
  constructor
  · rintro hfree c hc hrun hl hbinding
    obtain ⟨spec, sshPort, -, -, hof⟩ := h.ours c hc hl
    have hport : p = sshPort := by
      simp only [hof.bindings, List.mem_singleton, PortBinding.mk.injEq, true_and] at hbinding
      exact Decimal.toString_int_injective hbinding
    exact hfree ⟨spec.rentalId, c.id, sshPort⟩
      ((h.mem_runningRentals hlisted hrt).mpr ⟨c, hc, hrun, rfl, spec, rfl, hof⟩) hport.symm
  · rintro hfree r hr rfl
    obtain ⟨c, hc, hrun, hl, -, -, hbindings⟩ := (hmem r).mp hr
    exact hfree c hc hrun hl (by rw [hbindings]; exact List.mem_singleton_self _)

/-- After any history of the host, with launches side by side, lost answers and restarts of the
agent, the agent recovers its rentals from what the daemon lists. -/
theorem running_rentals_recovered (hdocker : docker.Documented) (hrt : rt.InRange)
    {as : List (HostAct ι)} (has : ∀ a ∈ as, a.Ok) {i : ι} {d : Daemon} {reply : DockerReply}
    (hreply : docker.respond (run (Host.step docker rt) Host.init as).daemon i
      (.listContainers labelRentalId) = (d, reply)) (hok : reply.result = .ok ()) :
    (run (Host.step docker rt) Host.init as).daemon.Recovered rt reply.containers := by
  have hlisted := hdocker.listed (run (Host.step docker rt) Host.init as).daemon i labelRentalId
  rw [hreply] at hlisted
  exact (Host.ok_run hdocker has).daemon.recovered hrt (hlisted hok)

end Runs

/-- A daemon that does what it is asked if it can; the input is the id of a new container. -/
def engine : DockerApi String where
  respond d newId
    | .createImage .. => (d, {})
    | .listContainers label => (d, { containers := d.listContainers label })
    | .createContainer name config =>
      if ∃ c ∈ d, c.name = name then
        (d, { result := .error (.responseServerError 409 "the container name is already in use") })
      else (d ++ [⟨newId, name, config, false⟩], { id := newId })
    | .startContainer name =>
      match d.find? (·.name = name) with
      | none => (d, { result := .error (.responseServerError 404 "no such container") })
      | some c =>
        if c.running then
          (d, { result := .error (.responseServerError 304 "container already started") })
        else if ∃ c' ∈ d, c'.running ∧ c.Clashes c' then
          (d, { result := .error (.responseServerError 500 "port is already allocated") })
        else (d.setRunning name true, {})
    | .stopContainer name =>
      match d.find? (·.name = name) with
      | none => (d, { result := .error (.responseServerError 404 "no such container") })
      | some c =>
        if c.running then (d.setRunning name false, {})
        else (d, { result := .error (.responseServerError 304 "container already stopped") })
    | .removeContainer name =>
      if ∃ c ∈ d, c.name = name then (d.remove name, {})
      else (d, { result := .error (.responseServerError 404 "no such container") })

theorem Daemon.find?_name {d : Daemon} {name : String} {c : Container}
    (h : d.find? (·.name = name) = some c) : c ∈ d ∧ c.name = name :=
  ⟨List.mem_of_find?_eq_some h, by simpa using List.find?_some h⟩

theorem engine_change (d : Daemon) (newId : String) (req : DockerRequest) :
    d.Change req (engine.respond d newId req).1 := by
  cases req with
  | createImage fromImage tag => exact .same _
  | listContainers label => exact .same _
  | createContainer name config =>
    simp only [engine]
    split
    case isTrue => exact .same _
    case isFalse hfresh => exact .create newId name config (by simpa using hfresh)
  | startContainer name =>
    simp only [engine]
    split
    case h_1 => exact .same _
    case h_2 c hc =>
      obtain ⟨hmem, rfl⟩ := Daemon.find?_name hc
      split
      case isTrue => exact .same _
      case isFalse =>
        split
        case isTrue => exact .same _
        case isFalse hapart => exact .start c hmem (by simpa using hapart)
  | stopContainer name =>
    simp only [engine]
    split
    case h_1 => exact .same _
    case h_2 c hc =>
      split
      case isTrue => exact .stop name
      case isFalse => exact .same _
  | removeContainer name =>
    simp only [engine]
    split
    case isTrue => exact .remove name
    case isFalse => exact .same _

theorem engine_started {d : Daemon} {newId name : String}
    (h : (engine.respond d newId (.startContainer name)).2.result = .ok ()) :
    ∃ c ∈ d, c.name = name ∧
      { c with running := true } ∈ (engine.respond d newId (.startContainer name)).1 := by
  simp only [engine] at h ⊢
  cases hc : d.find? (·.name = name) with
  | none => simp [hc] at h
  | some c =>
    obtain ⟨hmem, hname⟩ := Daemon.find?_name hc
    simp only [hc] at h ⊢
    split at h
    case isTrue => cases h
    case isFalse hrun =>
      rw [if_neg hrun]
      split at h
      case isTrue => cases h
      case isFalse hapart =>
        rw [if_neg hapart]
        exact ⟨c, hmem, hname, Daemon.mem_setRunning.mpr ⟨c, hmem, by rw [if_pos hname]⟩⟩

/-- An engine that finds nothing to stop is right, since the names are unique. -/
theorem engine_stopped {d : Daemon} {newId name : String} (hnames : (d.map (·.name)).Nodup)
    {c : Container} (hc : c ∈ (engine.respond d newId (.stopContainer name)).1)
    (hname : c.name = name) : c.running = false := by
  simp only [engine] at hc
  split at hc
  case h_1 hnone => exact absurd hname (by simpa using List.find?_eq_none.mp hnone c hc)
  case h_2 c₀ hfound =>
    obtain ⟨hmem, hname₀⟩ := Daemon.find?_name hfound
    split at hc
    case isTrue hrun =>
      obtain ⟨c₁, -, rfl⟩ := Daemon.mem_setRunning.mp hc
      split at hname
      case isTrue hsame => rw [if_pos hsame]
      case isFalse hne => exact absurd hname hne
    case isFalse hrun =>
      obtain rfl := List.inj_on_of_nodup_map hnames hc hmem (hname.trans hname₀.symm)
      simpa using hrun

theorem engine_removed {d : Daemon} {newId name : String} {c : Container}
    (hc : c ∈ (engine.respond d newId (.removeContainer name)).1) : c.name ≠ name := by
  simp only [engine] at hc
  split at hc
  case isTrue => simpa using (List.mem_filter.mp hc).2
  case isFalse hnone => exact fun hname => hnone ⟨c, hc, hname⟩

theorem engine_documented : engine.Documented where
  change := engine_change
  listed d newId label _ := List.Perm.refl _
  created d newId name config h := by
    simp only [engine] at h ⊢
    split at h
    case isTrue => cases h
    case isFalse hfresh =>
      rw [if_neg hfresh]
      exact ⟨by simpa using hfresh, rfl⟩
  started _ _ _ h := engine_started h
  stopped _ _ _ hnames _ _ hc hname := engine_stopped hnames hc hname
  removed _ _ _ _ _ hc := engine_removed hc

/-- Two rentals are launched side by side and pick the same port; the second launch fails, and the
agent ends before it can clean up. -/
def raceRun : List (HostAct String) :=
  [.start ⟨1, "cuda:12", "k1"⟩, .start ⟨2, "cuda", "k2"⟩] ++
    ([0, 0, 1, 1, 0, 0, 0, 1, 1, 1].map fun n => .call n ("c" ++ toString n)) ++ [.crash]

theorem running_rentals_recovered_race :
    ∃ listed,
      (run (Host.step engine ⟨40000, 40099⟩) Host.init raceRun).daemon.Recovered ⟨40000, 40099⟩
        listed ∧ DockerRuntime.runningRentals listed = [⟨1, "c0", 40000⟩] :=
  ⟨_, running_rentals_recovered (i := "") engine_documented (by decide) (by decide) rfl rfl,
    by decide +kernel⟩

end GpuMarket
