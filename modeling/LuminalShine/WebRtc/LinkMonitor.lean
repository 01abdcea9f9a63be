import LuminalShine.Lib.Run
import Mathlib.Data.Nat.Notation

/-!
# The link monitor

`link_monitor_t` of `src/webrtc_link_monitor.cpp`, with the grace timers that
`report_link_state` of `src/webrtc_stream.cpp` starts for it: reports arrive from the two
observers, each timer fires once and at any later moment.

A disconnect that is reported during a restart is a state change like any other: it bumps the
epoch, and the timer the first disconnect armed is stale.

## Main definitions

* `Monitor.report`, `Monitor.graceExpired` — the source's functions.
* `Link`, `step` — a monitor, its pending timers, and the close decisions made.
* `Sound` — one decision at most, made by the timers of a link that has not recovered.
* `Keeps` — the reports that keep it.
-/

namespace LuminalShine.WebRtc.LinkMonitor

open LuminalShine.Lib

/-- `link_state_e`. -/
inductive LinkState
  | unknown
  | connecting
  | connected
  | disconnected
  | failed
  | closed
  deriving DecidableEq, Repr

/-- `link_action_e`. -/
inductive LinkAction
  | none
  | startGraceTimer
  | closeSession
  deriving DecidableEq, Repr

/-- `link_monitor_t`. -/
structure Monitor where
  state : LinkState
  epoch : UInt64
  graceArmed : Bool
  closing : Bool
  deriving DecidableEq, Repr

/-- A monitor nothing was reported to. -/
def Monitor.new : Monitor :=
  { state := .unknown, epoch := 0, graceArmed := false, closing := false }

/-- The report changes nothing. -/
def Monitor.Ignores (m : Monitor) (state : LinkState) : Prop :=
  m.closing = true ∨ state = m.state ∨ state = .unknown

/-- `restart_after_loss`. -/
def Monitor.Restarts (m : Monitor) (state : LinkState) : Prop :=
  m.state = .disconnected ∧ state = .connecting

instance (m : Monitor) (state : LinkState) : Decidable (m.Ignores state) :=
  inferInstanceAs (Decidable (_ ∨ _))

instance (m : Monitor) (state : LinkState) : Decidable (m.Restarts state) :=
  inferInstanceAs (Decidable (_ ∧ _))

/-- The new state, and a new epoch unless the link restarts after a loss. -/
def Monitor.enter (m : Monitor) (state : LinkState) : Monitor :=
  if m.Restarts state then { m with state }
  else { m with state, epoch := m.epoch + 1, graceArmed := false }

/-- `report`: the action, and the monitor it leaves. -/
def Monitor.report (m : Monitor) (state : LinkState) : LinkAction × Monitor :=
  if m.Ignores state then (.none, m)
  else if state = .failed then (.closeSession, { m.enter state with closing := true })
  else if state = .disconnected then (.startGraceTimer, { m.enter state with graceArmed := true })
  else (.none, m.enter state)

/-- The timer's epoch is the one that is armed. -/
def Monitor.Expires (m : Monitor) (epoch : UInt64) : Prop :=
  m.closing = false ∧ m.graceArmed = true ∧ epoch = m.epoch

instance (m : Monitor) (epoch : UInt64) : Decidable (m.Expires epoch) :=
  inferInstanceAs (Decidable (_ ∧ _))

/-- `grace_expired`: whether the session must close, and the monitor it leaves. -/
def Monitor.graceExpired (m : Monitor) (epoch : UInt64) : Bool × Monitor :=
  if m.Expires epoch then (true, { m with closing := true }) else (false, m)

/-! ## A link and its timers -/

/-- A pending timer: the epoch it was given, and whether the link came back, failed or was
closed since the disconnect that armed it. -/
structure Timer where
  epoch : UInt64
  recovered : Bool
  deriving DecidableEq, Repr

/-- The reports that end a loss. -/
def LinkState.recovery : LinkState → Bool
  | .connected | .failed | .closed => true
  | _ => false

/-- What a report means for a pending timer. -/
def Timer.hear (state : LinkState) (t : Timer) : Timer :=
  { t with recovered := t.recovered || state.recovery }

/-- One session's link. -/
structure Link where
  monitor : Monitor
  pending : List Timer
  closes : ℕ
  deriving DecidableEq, Repr

/-- A link nothing has happened to. -/
def Link.new : Link := { monitor := .new, pending := [], closes := 0 }

/-- A report of an observer, or the firing of a pending timer. -/
inductive Event
  | report (state : LinkState)
  | expire (i : ℕ)

/-- The timers after a report. -/
def Link.timers (l : Link) (state : LinkState) : List Timer :=
  l.pending.map (Timer.hear state) ++
    if (l.monitor.report state).1 = .startGraceTimer then
      [{ epoch := (l.monitor.report state).2.epoch, recovered := false }]
    else []

/-- One event. -/
def step (l : Link) : Event → Option Link
  | .report state =>
      some { monitor := (l.monitor.report state).2, pending := l.timers state,
             closes := l.closes + if (l.monitor.report state).1 = .closeSession then 1 else 0 }
  | .expire i =>
      l.pending[i]?.map fun t =>
        { monitor := (l.monitor.graceExpired t.epoch).2, pending := l.pending.eraseIdx i,
          closes := l.closes + if (l.monitor.graceExpired t.epoch).1 then 1 else 0 }

/-- What a link promises: at most one close decision; before it, a pending timer makes it
exactly if nothing came after its disconnect but attempts; and no timer, of whatever epoch,
closes a connected link. -/
structure Sound (l : Link) : Prop where
  once : l.closes ≤ 1
  exact : l.monitor.closing = false → ∀ t ∈ l.pending,
    (l.monitor.graceExpired t.epoch).1 = !t.recovered
  connected : l.monitor.state = .connected → ∀ epoch, (l.monitor.graceExpired epoch).1 = false

/-- A disconnect that is no repetition does not come during a restart, and the epoch it begins
is not that of a timer still pending. -/
def Keeps (l : Link) : Event → Prop
  | .report .disconnected => ¬l.monitor.Ignores .disconnected →
      ¬(l.monitor.state = .connecting ∧ l.monitor.graceArmed = true) ∧
        ∀ t ∈ l.pending, t.epoch ≠ l.monitor.epoch + 1
  | _ => True

instance (l : Link) : ∀ i, Decidable (Keeps l i)
  | .report .disconnected => inferInstanceAs (Decidable (_ → _))
  | .report .unknown | .report .connecting | .report .connected | .report .failed
  | .report .closed | .expire _ => isTrue trivial

/-! ## What one call does -/

theorem report_ignored {m : Monitor} {state : LinkState} (h : m.Ignores state) :
    m.report state = (.none, m) := if_pos h

theorem report_failed {m : Monitor} (h : ¬m.Ignores .failed) :
    m.report .failed =
      (.closeSession, ⟨.failed, m.epoch + 1, false, true⟩) := by
  simp [Monitor.report, h, Monitor.enter, Monitor.Restarts]

theorem report_disconnected {m : Monitor} (h : ¬m.Ignores .disconnected) :
    m.report .disconnected =
      (.startGraceTimer, ⟨.disconnected, m.epoch + 1, true, m.closing⟩) := by
  simp [Monitor.report, h, Monitor.enter, Monitor.Restarts]

theorem report_restart {m : Monitor} (h : ¬m.Ignores .connecting) (hm : m.state = .disconnected) :
    m.report .connecting = (.none, { m with state := .connecting }) := by
  simp [Monitor.report, h, Monitor.enter, Monitor.Restarts, hm]

/-- Every other report begins an epoch with no grace. -/
theorem report_other {m : Monitor} {state : LinkState} (h : ¬m.Ignores state)
    (hf : state ≠ .failed) (hd : state ≠ .disconnected) (hr : ¬m.Restarts state) :
    m.report state = (.none, ⟨state, m.epoch + 1, false, m.closing⟩) := by
  simp [Monitor.report, h, Monitor.enter, hr, hf, hd]

theorem graceExpired_fst {m : Monitor} {epoch : UInt64} :
    (m.graceExpired epoch).1 = true ↔ m.Expires epoch := by
  simp only [Monitor.graceExpired]
  split_ifs with h <;> simp [h]

theorem graceExpired_eq_false {m : Monitor} {epoch : UInt64} :
    (m.graceExpired epoch).1 = false ↔ ¬m.Expires epoch := by
  rw [← graceExpired_fst, Bool.not_eq_true]

@[simp] theorem hear_epoch (state : LinkState) (t : Timer) : (t.hear state).epoch = t.epoch := rfl

theorem hear_recovered (state : LinkState) (t : Timer) :
    (t.hear state).recovered = (t.recovered || state.recovery) := rfl

/-- The next epoch is another one. -/
theorem epoch_succ_ne (e : UInt64) : e ≠ e + 1 := by
  intro h
  have := congrArg UInt64.toNat h
  rw [UInt64.toNat_add] at this
  have hlt := e.toNat_lt
  have hone : (1 : UInt64).toNat = 1 := rfl
  omega

/-! ## The invariant -/

/-- While no decision is made, the timers of the armed epoch are those of a link that has not
recovered; there is one, and the link is disconnected or restarting. -/
structure Waiting (l : Link) : Prop where
  timers : ∀ t ∈ l.pending,
    t.recovered = false ↔ l.monitor.graceArmed = true ∧ t.epoch = l.monitor.epoch
  armed : l.monitor.graceArmed = true → ∃ t ∈ l.pending, t.epoch = l.monitor.epoch
  down : l.monitor.graceArmed = true →
    l.monitor.state = .disconnected ∨ l.monitor.state = .connecting
  lost : l.monitor.state = .disconnected → l.monitor.graceArmed = true

/-- The decisions made are counted, and until then the timers are as they should be. -/
structure Inv (l : Link) : Prop where
  closes : l.closes = if l.monitor.closing then 1 else 0
  waiting : l.monitor.closing = false → Waiting l

theorem Inv.sound {l : Link} (h : Inv l) : Sound l where
  once := by
    have := h.closes
    split_ifs at this <;> omega
  exact := by
    intro hopen t ht
    have htimer := (h.waiting hopen).timers t ht
    cases hr : t.recovered with
    | false => exact graceExpired_fst.mpr ⟨hopen, htimer.mp hr⟩
    | true =>
        refine graceExpired_eq_false.mpr fun hexp => ?_
        rw [htimer.mpr hexp.2] at hr
        cases hr
  connected := by
    intro hstate epoch
    refine graceExpired_eq_false.mpr fun hexp => ?_
    rcases (h.waiting hexp.1).down hexp.2.1 with hdown | hdown <;>
      (rw [hstate] at hdown; cases hdown)

theorem inv_new : Inv Link.new where
  closes := rfl
  waiting := fun _ => ⟨by simp [Link.new], by simp [Link.new, Monitor.new],
    by simp [Link.new, Monitor.new], by simp [Link.new, Monitor.new]⟩

/-- A recovery is no news to timers that have none to wait for. -/
theorem Waiting.hear {l : Link} {state : LinkState} (h : Waiting l)
    (hnews : state.recovery = true → l.monitor.graceArmed = false) :
    Waiting { l with pending := l.pending.map (Timer.hear state) } where
  timers := by
    simp only [List.forall_mem_map, hear_epoch, hear_recovered]
    intro t ht
    rw [← h.timers t ht]
    cases hr : state.recovery with
    | false => simp
    | true => simp [h.timers t ht, hnews hr]
  armed := fun harmed => by
    rcases h.armed harmed with ⟨t, ht, he⟩
    exact ⟨t.hear state, List.mem_map_of_mem ht, he⟩
  down := h.down
  lost := h.lost

/-- A link that is down from no loss has no timer to wait for. -/
theorem Waiting.recovered {l : Link} (h : Waiting l) (hup : l.monitor.graceArmed = false)
    {t : Timer} (ht : t ∈ l.pending) : t.recovered = true := by
  rw [← Bool.not_eq_false, h.timers t ht]
  simp [hup]

/-- A new epoch with no grace: what is pending has recovered, before or by this report. -/
theorem Waiting.begin {l : Link} {state : LinkState} {e : UInt64} {closing : Bool} {closes : ℕ}
    (h : Waiting l) (hnews : state.recovery = true ∨ l.monitor.graceArmed = false)
    (hstate : state ≠ .disconnected) :
    Waiting ⟨⟨state, e, false, closing⟩, l.pending.map (Timer.hear state), closes⟩ where
  timers := by
    simp only [List.forall_mem_map, hear_recovered]
    intro t ht
    rcases hnews with hr | hup
    · simp [hr]
    · simp [h.recovered hup ht]
  armed := by simp
  down := by simp
  lost := fun h => absurd h hstate

/-- A loss that is no restart's: the one timer to wait for is its own. -/
theorem Waiting.lose {l : Link} {closing : Bool} {closes : ℕ} (h : Waiting l)
    (hup : l.monitor.graceArmed = false) (hfresh : ∀ t ∈ l.pending, t.epoch ≠ l.monitor.epoch + 1) :
    Waiting ⟨⟨.disconnected, l.monitor.epoch + 1, true, closing⟩,
      l.pending.map (Timer.hear .disconnected) ++ [⟨l.monitor.epoch + 1, false⟩], closes⟩ where
  timers := by
    intro x hx
    rcases List.mem_append.mp hx with hold | hnew
    · rcases List.mem_map.mp hold with ⟨t, ht, rfl⟩
      simp [hear_recovered, h.recovered hup ht, hfresh t ht]
    · rw [List.mem_singleton.mp hnew]
      simp
  armed := fun _ => ⟨_, List.mem_append_right _ List.mem_cons_self, rfl⟩
  down := fun _ => .inl rfl
  lost := fun _ => rfl

/-- While the state is neither of the two, no grace is armed. -/
theorem Waiting.not_armed {l : Link} (h : Waiting l) (hd : l.monitor.state ≠ .disconnected)
    (hc : ¬(l.monitor.state = .connecting ∧ l.monitor.graceArmed = true)) :
    l.monitor.graceArmed = false := by
  rw [← Bool.not_eq_true]
  intro harmed
  rcases h.down harmed with hdown | hdown
  · exact hd hdown
  · exact hc ⟨hdown, harmed⟩

theorem Inv.report_ignored {l l' : Link} {state : LinkState} (h : Inv l)
    (hignores : l.monitor.Ignores state) (hs : LinkMonitor.step l (.report state) = some l') :
    Inv l' := by
  simp only [LinkMonitor.step, Link.timers, LinkMonitor.report_ignored hignores, reduceCtorEq,
    if_false, List.append_nil, Nat.add_zero, Option.some.injEq] at hs
  subst hs
  refine ⟨h.closes, fun hopen => ?_⟩
  have hw := h.waiting hopen
  refine hw.hear fun hr => ?_
  rcases hignores with hclosing | hsame | hunknown
  · rw [hopen] at hclosing
    cases hclosing
  · subst hsame
    refine hw.not_armed (fun hd => ?_) (fun hc => ?_)
    · rw [hd] at hr
      cases hr
    · rw [hc.1] at hr
      cases hr
  · subst hunknown
    cases hr

theorem Inv.report_accepted {l l' : Link} {state : LinkState} (h : Inv l)
    (haccepts : ¬l.monitor.Ignores state) (hguard : Keeps l (.report state))
    (hs : LinkMonitor.step l (.report state) = some l') : Inv l' := by
  have hopen : l.monitor.closing = false := by
    rw [← Bool.not_eq_true]
    exact fun hclosing => haccepts (.inl hclosing)
  have hchanged : l.monitor.state ≠ state := fun heq => haccepts (.inr (.inl heq.symm))
  have hw := h.waiting hopen
  have hcloses := h.closes
  rw [hopen] at hcloses
  have hother : state ≠ .failed → state ≠ .disconnected → ¬l.monitor.Restarts state →
      (state.recovery = true ∨ l.monitor.graceArmed = false) → Inv l' := by
    intro hf hd hr hnews
    simp only [LinkMonitor.step, Link.timers, report_other haccepts hf hd hr, reduceCtorEq,
      if_false, List.append_nil, Nat.add_zero, Option.some.injEq] at hs
    subst hs
    exact ⟨h.closes, fun _ => hw.begin hnews hd⟩
  cases state with
  | unknown => exact absurd (.inr (.inr rfl)) haccepts
  | connecting =>
      by_cases hdown : l.monitor.state = .disconnected
      · simp only [LinkMonitor.step, Link.timers, report_restart haccepts hdown, reduceCtorEq,
          if_false, List.append_nil, Nat.add_zero, Option.some.injEq] at hs
        subst hs
        have hstill : Waiting { l with pending := l.pending.map (Timer.hear .connecting) } :=
          hw.hear (fun hr => by cases hr)
        exact ⟨h.closes, fun _ => ⟨hstill.timers, hstill.armed, fun _ => .inr rfl,
          fun hd => by cases hd⟩⟩
      · refine hother (by decide) (by decide) (fun hr => hdown hr.1) (.inr ?_)
        exact hw.not_armed hdown (fun hc => hchanged hc.1)
  | connected => exact hother (by decide) (by decide) (fun hr => by cases hr.2) (.inl rfl)
  | closed => exact hother (by decide) (by decide) (fun hr => by cases hr.2) (.inl rfl)
  | failed =>
      simp only [LinkMonitor.step, LinkMonitor.report_failed haccepts, Option.some.injEq] at hs
      subst hs
      refine ⟨by simp [hcloses], fun hclosed => by cases hclosed⟩
  | disconnected =>
      simp only [LinkMonitor.step, Link.timers, LinkMonitor.report_disconnected haccepts,
        reduceCtorEq, if_false, if_true, Nat.add_zero, Option.some.injEq] at hs
      subst hs
      have hkeeps := hguard haccepts
      exact ⟨h.closes, fun _ => hw.lose (hw.not_armed hchanged hkeeps.1) hkeeps.2⟩

theorem Inv.expire {l l' : Link} {i : ℕ} (h : Inv l)
    (hs : LinkMonitor.step l (.expire i) = some l') : Inv l' := by
  simp only [LinkMonitor.step, Option.map_eq_some_iff] at hs
  rcases hs with ⟨t, hi, rfl⟩
  by_cases hexp : l.monitor.Expires t.epoch
  · have hcloses := h.closes
    rw [hexp.1] at hcloses
    simp only [Monitor.graceExpired, if_pos hexp]
    exact ⟨by simp [hcloses], fun hclosed => by cases hclosed⟩
  · simp only [Monitor.graceExpired, if_neg hexp]
    refine ⟨by simpa using h.closes, fun hopen => ?_⟩
    have hw := h.waiting hopen
    refine ⟨fun u hu => hw.timers u (List.mem_of_mem_eraseIdx hu), fun harmed => ?_, hw.down,
      hw.lost⟩
    -- The timer that fires is not of the armed epoch.
    rcases hw.armed harmed with ⟨u, hu, he⟩
    rcases List.getElem?_of_mem hu with ⟨j, hj⟩
    refine ⟨u, List.mem_eraseIdx_iff_getElem?.mpr ⟨j, fun hij => ?_, hj⟩, he⟩
    subst hij
    rw [hi, Option.some.injEq] at hj
    exact hexp ⟨hopen, harmed, hj ▸ he⟩

theorem Inv.step {l l' : Link} {i : Event} (h : Inv l) (hguard : Keeps l i)
    (hs : LinkMonitor.step l i = some l') : Inv l' := by
  cases i with
  | report state =>
      by_cases hignores : l.monitor.Ignores state
      · exact h.report_ignored hignores hs
      · exact h.report_accepted hignores hguard hs
  | expire i => exact h.expire hs

/-- A disconnect in a restart leaves the first timer stale; one in an epoch that was left to
a pending timer revives it. -/
theorem Inv.breaks {l l' : Link} {i : Event} (h : Inv l) (hguard : ¬Keeps l i)
    (hs : LinkMonitor.step l i = some l') : ¬Sound l' := by
  cases i with
  | expire i => exact absurd trivial hguard
  | report state =>
      cases state with
      | unknown => exact absurd trivial hguard
      | connecting => exact absurd trivial hguard
      | connected => exact absurd trivial hguard
      | failed => exact absurd trivial hguard
      | closed => exact absurd trivial hguard
      | disconnected =>
          simp only [Keeps, not_forall] at hguard
          rcases hguard with ⟨haccepts, hnot⟩
          have hopen : l.monitor.closing = false := by
            rw [← Bool.not_eq_true]
            exact fun hclosing => haccepts (.inl hclosing)
          have hw := h.waiting hopen
          simp only [LinkMonitor.step, Link.timers, LinkMonitor.report_disconnected haccepts,
            if_true, Option.some.injEq] at hs
          subst hs
          intro hsound
          have hexact : ∀ t ∈ l.pending,
              (Monitor.graceExpired ⟨.disconnected, l.monitor.epoch + 1, true, l.monitor.closing⟩
                t.epoch).1 = !t.recovered := by
            intro t ht
            have := hsound.exact hopen (t.hear .disconnected)
              (List.mem_append_left _ (List.mem_map_of_mem ht))
            rwa [hear_recovered, show LinkState.recovery .disconnected = false from rfl,
              Bool.or_false] at this
          by_cases hrestart : l.monitor.state = .connecting ∧ l.monitor.graceArmed = true
          · rcases hw.armed hrestart.2 with ⟨t, ht, he⟩
            have := hexact t ht
            rw [(hw.timers t ht).mpr ⟨hrestart.2, he⟩, Bool.not_false, graceExpired_fst] at this
            exact epoch_succ_ne l.monitor.epoch (he ▸ this.2.2)
          · have hup : l.monitor.graceArmed = false :=
              hw.not_armed (fun hd => haccepts (.inr (.inl hd.symm))) hrestart
            refine hnot ⟨hrestart, fun t ht he => ?_⟩
            have := hexact t ht
            rw [hw.recovered hup ht, Bool.not_true, graceExpired_eq_false] at this
            exact this ⟨hopen, rfl, he⟩

/-- **Flapping.**  A link's run is sound all along exactly if no disconnect is reported while a
restart still has its grace, and none begins the epoch of a timer still pending. -/
theorem sound_iff_keeps {is : List Event} {l : Link} (hrun : run step .new is = some l) :
    Always step Sound .new is ↔ RunMeets step Keeps .new is :=
  always_iff_runMeets (fun _ h => h.sound) (fun _ _ _ h hguard hs => h.step hguard hs)
    (fun _ _ _ h hguard hs => h.breaks hguard hs) inv_new hrun

/-- A link that is lost, tries once, and comes back. -/
theorem sound_iff_keeps_recovering :
    Always step Sound .new
        [.report .connected, .report .disconnected, .report .connecting, .report .connected] ↔
      RunMeets step Keeps .new
        [.report .connected, .report .disconnected, .report .connecting, .report .connected] :=
  sound_iff_keeps (show run step .new _ = some ⟨⟨.connected, 3, false, false⟩, [⟨2, true⟩], 0⟩
    by decide)

/-- An attempt that fails: the timer of the first disconnect, which nothing but attempts
followed, fires and makes no decision. -/
theorem second_disconnect_not_sound :
    ¬∀ is, Always step Sound .new is := by
  intro h
  have hsound := h [.report .connected, .report .disconnected, .report .connecting,
    .report .disconnected] 4 ⟨⟨.disconnected, 3, true, false⟩, [⟨2, false⟩, ⟨3, false⟩], 0⟩
    (by decide)
  have := hsound.exact rfl ⟨2, false⟩ (by simp)
  revert this
  decide

end LuminalShine.WebRtc.LinkMonitor
