import Mathlib.Data.List.Count

namespace GpuMarket.Lib

/-- What a controller asks of the host of a resource. -/
inductive Order
  | start | stop
  deriving DecidableEq, Repr

/-- An order that a worker of the host carries out, or the report that it has sent: whether it
says that the resource is on, whether its worker left it on, and whether it is about a stop that
failed. -/
inductive Chore
  | doing (o : Order)
  | told (on left failedStop : Bool)
  deriving DecidableEq, Repr

def Chore.starts : Chore → Bool
  | .doing .start => true
  | _ => false

/-- A resource that a controller has switched on and off by orders, and what the controller
believes from the reports on them. -/
structure Remote where
  known : Bool
  believed : Bool
  orders : List Order
  chores : List Chore
  live : Bool
  deriving DecidableEq, Repr

namespace Remote

def Idle (s : Remote) : Prop := s.orders = [] ∧ s.chores = []

/-- At rest the controller knows whether the resource is on. -/
def Agrees (s : Remote) : Prop := s.Idle → s.live = s.believed

def starts (s : Remote) : Nat := s.orders.count .start + s.chores.countP (·.starts)

/-- The controller and the workers act in any order; a worker's calls can switch the resource on
only in the start that succeeds. -/
inductive Step : Remote → Remote → Prop
  | idle (s : Remote) : Step s s
  | create (s : Remote) (h : s.known = false) :
    Step s { s with known := true, believed := false, orders := s.orders ++ [.start] }
  | retire (s : Remote) (h : s.known = true) :
    Step s { s with believed := false, orders := s.orders ++ [.stop] }
  | hand (s : Remote) : Step s { s with orders := [], chores := s.chores ++ s.orders.map .doing }
  | work (s : Remote) (pre post : List Chore) (o : Order) (live : Bool)
    (h : s.chores = pre ++ .doing o :: post) (hlive : live = true → s.live = true) :
    Step s { s with live }
  | started (s : Remote) (pre post : List Chore) (h : s.chores = pre ++ .doing .start :: post) :
    Step s { s with chores := pre ++ .told true true false :: post, live := true }
  | startFailed (s : Remote) (pre post : List Chore) (live : Bool)
    (h : s.chores = pre ++ .doing .start :: post) (hlive : live = true → s.live = true) :
    Step s { s with chores := pre ++ .told false live false :: post, live }
  | stopped (s : Remote) (pre post : List Chore) (h : s.chores = pre ++ .doing .stop :: post) :
    Step s { s with chores := pre ++ .told false false false :: post, live := false }
  | stopFailed (s : Remote) (pre post : List Chore) (live : Bool)
    (h : s.chores = pre ++ .doing .stop :: post) (hlive : live = true → s.live = true) :
    Step s { s with chores := pre ++ .told false live true :: post, live }

inductive Tells (on left failedStop : Bool) : Remote → Remote → Prop
  | intro (s : Remote) (pre post : List Chore)
    (h : s.chores = pre ++ .told on left failedStop :: post) :
    Tells on left failedStop s { s with believed := on, chores := pre ++ post }

/-- A resource is started at most once, and is off until then; every report says what its worker
has left, unless a stop failed. -/
structure Sound (s : Remote) : Prop where
  fresh : s.known = false → s.Idle ∧ s.live = false ∧ s.believed = false
  once : s.starts ≤ 1
  unstarted : 0 < s.starts → s.live = false
  truthful : ∀ on left failedStop, Chore.told on left failedStop ∈ s.chores →
    on = if failedStop then false else left

variable {s s' : Remote}

theorem Sound.known (h : s.Sound) {c : Chore} (hc : c ∈ s.chores) : s.known = true := by
  by_contra hk
  rw [(h.fresh (Bool.eq_false_iff.mpr hk)).1.2] at hc
  cases hc

/-- A chore may become another, as long as that starts nothing that the first did not. -/
theorem Sound.replace (h : s.Sound) {pre post : List Chore} {c c' : Chore} {live : Bool}
    (hc : s.chores = pre ++ c :: post) (hstarts : c'.starts = true → c.starts = true)
    (hlive : live = true → s.live = true ∨ c.starts = true ∧ c'.starts = false)
    (htold : ∀ on left failedStop, c' = .told on left failedStop →
      on = if failedStop then false else left) :
    Sound { s with chores := pre ++ c' :: post, live } := by
  have before : s.starts = s.orders.count .start + (pre.countP (·.starts) +
      (post.countP (·.starts) + if c.starts = true then 1 else 0)) := by
    simp [starts, hc, List.countP_append, List.countP_cons]
  have after : starts { s with chores := pre ++ c' :: post, live } =
      s.orders.count .start + (pre.countP (·.starts) +
        (post.countP (·.starts) + if c'.starts = true then 1 else 0)) := by
    simp [starts, List.countP_append, List.countP_cons]
  have fewer : (if c'.starts = true then 1 else 0) ≤ if c.starts = true then 1 else 0 := by
    split
    case isTrue hs => simp [hstarts hs]
    case isFalse => exact Nat.zero_le _
  have honce := h.once
  refine ⟨fun hk => ?_, by omega, fun hpos => ?_, fun on left failedStop hmem => ?_⟩
  · have hknown := h.known (c := c) (by simp [hc])
    rw [hknown] at hk
    cases hk
  · by_contra hon
    rcases hlive (Bool.of_not_eq_false hon) with hlive | ⟨hs, hs'⟩
    · rw [h.unstarted (by omega)] at hlive
      cases hlive
    · rw [if_pos hs] at before
      rw [if_neg (by simp [hs'])] at after
      omega
  · simp only [List.mem_append, List.mem_cons] at hmem
    rcases hmem with hmem | hmem | hmem
    · exact h.truthful on left failedStop (by simp [hc, hmem])
    · exact htold on left failedStop hmem.symm
    · exact h.truthful on left failedStop (by simp [hc, hmem])

theorem starts_handed (orders : List Order) :
    (orders.map Chore.doing).countP (·.starts) = orders.count .start := by
  induction orders with
  | nil => rfl
  | cons o orders ih =>
    rw [List.map_cons, List.countP_cons, List.count_cons, ih]
    cases o <;> rfl

theorem Step.sound (hs : Step s s') (h : s.Sound) : s'.Sound := by
  cases hs with
  | idle => exact h
  | create hk =>
    obtain ⟨⟨horders, hchores⟩, hoff, -⟩ := h.fresh hk
    refine ⟨by simp, ?_, fun _ => hoff, by simp [hchores]⟩
    simp [starts, horders, hchores]
  | retire hk =>
    have same : starts { s with believed := false, orders := s.orders ++ [.stop] } = s.starts := by
      simp [starts, List.count_append]
    refine ⟨?_, by rw [same]; exact h.once, ?_, h.truthful⟩
    · intro hk'
      simp [hk] at hk'
    · rw [same]
      exact h.unstarted
  | hand =>
    have same : starts { s with orders := [], chores := s.chores ++ s.orders.map .doing } =
        s.starts := by
      simp only [starts, List.countP_append, starts_handed, List.count_nil]
      omega
    refine ⟨fun hk => ?_, by rw [same]; exact h.once, ?_, fun on left failedStop hmem => ?_⟩
    · obtain ⟨⟨horders, hchores⟩, hoff⟩ := h.fresh hk
      exact ⟨⟨rfl, by simp [horders, hchores]⟩, hoff⟩
    · rw [same]
      exact h.unstarted
    · refine h.truthful on left failedStop ?_
      simpa using hmem
  | work pre post o live hc hlive =>
    have hnew := @Sound.replace s h pre post _ (.doing o) live hc id (fun hon => .inl (hlive hon))
      (by simp)
    rwa [← hc] at hnew
  | started pre post hc =>
    exact h.replace hc (by simp [Chore.starts]) (fun _ => .inr ⟨rfl, rfl⟩) (by simp)
  | startFailed pre post live hc hlive =>
    have pending : 0 < s.starts := by
      simp only [starts, hc, List.countP_append, List.countP_cons, Chore.starts, if_true]
      omega
    have hoff : live = false := by
      rw [h.unstarted pending] at hlive
      simpa using hlive
    exact h.replace hc (by simp [Chore.starts]) (by simp [hoff]) (by simp [hoff])
  | stopped pre post hc => exact h.replace hc (by simp [Chore.starts]) (by simp) (by simp)
  | stopFailed pre post live hc hlive =>
    exact h.replace hc (by simp [Chore.starts]) (fun hon => .inl (hlive hon)) (by simp)

/-- Whatever the controller and the workers do, agreement at rest lasts until a report. -/
theorem Step.agrees (hs : Step s s') (h : s.Agrees) : s'.Agrees := by
  cases hs with
  | idle => exact h
  | create hk => exact fun hidle => absurd hidle.1 (by simp)
  | retire hk => exact fun hidle => absurd hidle.1 (by simp)
  | hand =>
    intro hidle
    obtain ⟨hchores, horders⟩ := List.append_eq_nil_iff.mp hidle.2
    exact h ⟨by simpa using horders, hchores⟩
  | work pre post o live hc hlive =>
    refine fun hidle => absurd hidle.2 ?_
    simp [hc]
  | started | startFailed | stopped | stopFailed => exact fun hidle => absurd hidle.2 (by simp)

variable {on left failedStop : Bool}

theorem Tells.sound (hs : Tells on left failedStop s s') (h : s.Sound) : s'.Sound := by
  obtain ⟨pre, post, hc⟩ := hs
  have same : starts { s with believed := on, chores := pre ++ post } = s.starts := by
    simp [starts, hc, List.countP_append, Chore.starts]
  refine ⟨fun hk => ?_, by rw [same]; exact h.once, ?_, fun on' left' failed' hmem => ?_⟩
  · have hknown := h.known (c := .told on left failedStop) (by simp [hc])
    rw [hknown] at hk
    cases hk
  · rw [same]
    exact h.unstarted
  · refine h.truthful on' left' failed' ?_
    rw [hc]
    exact List.mem_append.mpr ((List.mem_append.mp hmem).imp_right (List.mem_cons_of_mem _))

/-- The report that brings a resource to rest settles whether the controller is right: unless
nothing has been switched since its worker was done, or a failed stop has been made good. -/
theorem Tells.agrees_iff (hs : Tells on left failedStop s s') (h : s.Sound) :
    s'.Agrees ↔ (s'.Idle → s'.live = if failedStop then false else left) := by
  obtain ⟨pre, post, hc⟩ := hs
  have htrue := h.truthful on left failedStop (by simp [hc])
  refine forall_congr' fun _ => ?_
  rw [htrue]

theorem Step.starts_le (hs : Step s s') (hk : s.known = true) : s'.starts ≤ s.starts := by
  cases hs with
  | idle => exact Nat.le_refl _
  | create hnew =>
    rw [hnew] at hk
    cases hk
  | retire => simp [starts, List.count_append]
  | hand =>
    simp only [starts, List.countP_append, starts_handed, List.count_nil]
    omega
  | work => exact Nat.le_refl _
  | started pre post hc | startFailed pre post live hc | stopped pre post hc
  | stopFailed pre post live hc =>
    simp [starts, hc, List.countP_append, Chore.starts]

end Remote

end GpuMarket.Lib
