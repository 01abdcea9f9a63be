import LuminalShine.Lib.Threads
import LuminalShine.WebRtc.Exclusivity
import Mathlib.Tactic.IntervalCases

/-!
# Exclusivity of the capture

When no browser capture is active beside a Moonlight session or behind the preemption step of a
launch.  A capture start checks three variables one after another and publishes itself seconds
later; a launch handler looks for a capture once.  And the flag that refuses browsers is lowered
by threads that have counted the active sessions a moment ago, or not at all.  `Meets` says, step
by step, that none of this goes wrong.

## Main definitions

* `Meets` — the condition on the steps.
* `Inv` — what such a run keeps.

## Main results

* `capture_exclusive` — exclusivity in every run that meets the condition.
-/

namespace LuminalShine.WebRtc.Exclusivity

open LuminalShine.Lib

/-! ## The condition -/

/-- No capture start is between its check and its publication. -/
def State.NoStart (s : State) : Prop := s.checked = 0 ∧ s.captureMutex = none

instance (s : State) : Decidable s.NoStart :=
  inferInstanceAs (Decidable (s.checked = 0 ∧ s.captureMutex = none))

/-- The join and the rollback count the running sessions again while they own the cleanup. -/
def Site.revalidates : Site → Bool
  | .join | .rollback => true
  | .abort _ | .cancel => false

/-- The readings of a check still hold when the last one is made; when a handler leaves the
preemption step no capture start is between its check and its publication, and no capture is
active if it gives up because of a new session; and the flag is not lowered by a failed handler
or a cancel while a Moonlight session runs. -/
def Meets (s : State) : Label → Prop
  | .readEvent => s.launchEvent = none →
      captureStartAllowed s.rtspSessionsActive s.moonlightLaunchIsPending = true
  | .readCapture => s.owner = .handler (.sawSessions false) → s.captureActive = false → s.NoStart
  | .checkEmpty => s.sessions ≠ [] → s.NoStart ∧ s.captureActive = false
  | .stopForLaunch => s.checked = 0
  | .perform r => r.op = some .lower → s.runningSessions ≤ 0
  | .performOwner =>
      match s.owner with
      | .cleanup r => r.op = some .lower → r.site.revalidates = false → s.runningSessions ≤ 0
      | _ => True
  | _ => True

instance (s : State) (label : Label) : Decidable (Meets s label) := by
  unfold Meets
  cases label
  case performOwner => cases s.owner <;> infer_instance
  all_goals infer_instance

/-! ## The invariant -/

/-- What `running_sessions` is behind while the session that starts is not counted yet. -/
def Owner.uncounted : Owner → ℕ
  | .launch _ .activated => 1
  | _ => 0

/-- While the flag is down, only the session that is about to raise it may live. -/
def Owner.FlagDown (sessions : ℕ) : Owner → Prop
  | .launch _ .activated => sessions ≤ 1
  | .launch _ (.counted true) => True
  | _ => sessions = 0

theorem Owner.FlagDown.mono {owner : Owner} {m n : ℕ} (h : owner.FlagDown n) (hle : m ≤ n) :
    owner.FlagDown m := by
  unfold Owner.FlagDown at h ⊢
  split at h
  · omega
  · trivial
  · omega

/-- Past its check, before its last operation. -/
def Reconciler.secured (r : Reconciler) : Prop :=
  match r.site with
  | .join => r.pc = 2
  | .rollback => 3 ≤ r.pc ∧ r.pc < 9
  | .abort _ | .cancel => False

structure Inv (s : State) : Prop where
  latches : s.moonlightLaunchesInFlight = s.begun + s.finishing + s.discarded.length +
    s.owner.latches + s.reconcilers.countP (·.latched)
  unclaimed : ∀ id admission, s.owner = .launch id admission →
    s.launchEvent = some id ∨ ∃ d ∈ s.discarded, d.id = id
  running : s.runningSessions = s.moonlightSessions - s.owner.uncounted
  flag : s.rtspSessionsActive = false → s.owner.FlagDown s.moonlightSessions
  secured : ∀ r, s.owner = .cleanup r → r.secured → s.moonlightSessions = 0
  exclusive : 0 < s.launching + s.moonlightSessions → s.captureActive = false ∧ s.NoStart

theorem inv_initial : Inv .initial where
  latches := rfl
  unclaimed := by simp [State.initial]
  running := rfl
  flag := by simp [State.initial, Owner.FlagDown, State.moonlightSessions]
  secured := by simp [State.initial]
  exclusive := by simp [State.initial, State.launching, State.moonlightSessions, Owner.launching]

variable {s s' : State}

theorem Reconciler.latched_of_ofLaunch {r : Reconciler} (h : r.ofLaunch = true) :
    r.latched = true := by
  obtain ⟨site, pc, deferred⟩ := r
  cases site <;> simp_all

theorem Owner.launching_le_latches {owner : Owner}
    (h : ∀ id admission, owner ≠ .launch id admission) : owner.launching ≤ owner.latches := by
  cases owner with
  | idle => exact Nat.le_refl 0
  | handler phase => exact Bool.toNat_le phase.preempted
  | launch id admission => exact absurd rfl (h id admission)
  | cleanup r =>
      simp only [Owner.launching, Owner.latches]
      cases hlaunch : r.ofLaunch with
      | true => simp [Reconciler.latched_of_ofLaunch hlaunch]
      | false => exact Nat.zero_le _

/-- A pending launch is seen by every later check. -/
theorem Inv.launching_eq_zero (h : Inv s) (hlatch : s.moonlightLaunchesInFlight = 0)
    (hevent : s.launchEvent = none) : s.launching = 0 := by
  have hsum := h.latches
  rw [hlatch] at hsum
  have hdiscarded : s.discarded = [] := List.length_eq_zero_iff.mp (by omega)
  have hreconcilers : s.reconcilers.countP (·.ofLaunch) ≤ s.reconcilers.countP (·.latched) :=
    List.countP_mono_left (fun r _ hlaunch => Reconciler.latched_of_ofLaunch hlaunch)
  have howner : s.owner.launching ≤ s.owner.latches := by
    apply Owner.launching_le_latches
    intro id admission howner
    have hunclaimed := h.unclaimed id admission howner
    simp [hevent, hdiscarded] at hunclaimed
  simp only [State.launching, hevent, hdiscarded, Option.toList_none, List.length_nil]
  omega

/-- The check passes only on a host without a Moonlight session or launch. -/
theorem Inv.quiet (h : Inv s)
    (hallowed : captureStartAllowed s.rtspSessionsActive s.moonlightLaunchIsPending = true)
    (hevent : s.launchEvent = none) : s.launching = 0 ∧ s.moonlightSessions = 0 := by
  simp only [captureStartAllowed, State.moonlightLaunchIsPending, hevent, Option.isSome_none,
    Bool.or_false, Bool.and_eq_true, Bool.not_eq_true', decide_eq_false_iff_not, Nat.not_lt,
    Nat.le_zero] at hallowed
  have hlaunching := h.launching_eq_zero hallowed.2 hevent
  refine ⟨hlaunching, ?_⟩
  have hflag := h.flag hallowed.1
  simp only [State.launching] at hlaunching
  cases howner : s.owner with
  | launch id admission => simp [howner, Owner.launching] at hlaunching
  | idle => simpa [howner, Owner.FlagDown] using hflag
  | handler phase => simpa [howner, Owner.FlagDown] using hflag
  | cleanup r => simpa [howner, Owner.FlagDown] using hflag

/-! ## The browser side -/

/-- The browser side keeps the Moonlight side. -/
theorem Inv.browserSide (h : Inv s) {captureActive idleShutdownPending : Bool}
    {idleShutdownToken idleStops flagRead latchRead checked started nextSession closed : ℕ}
    {idleTasks sessions : List ℕ} {captureMutex : Option Bool}
    (hexclusive : 0 < s.launching + s.moonlightSessions →
      captureActive = false ∧ checked = 0 ∧ captureMutex = none) :
    Inv { s with
      captureActive, idleShutdownPending, idleShutdownToken, idleTasks, idleStops, flagRead,
      latchRead, checked, captureMutex, started, sessions, nextSession, closed } :=
  ⟨h.latches, h.unclaimed, h.running, h.flag, h.secured, hexclusive⟩

theorem Inv.browserStep (h : Inv s) {label : Label} (hmeets : Meets s label)
    (hstep : browserStep s label = some s') : Inv s' := by
  cases label <;> simp only [Exclusivity.browserStep, reduceCtorEq] at hstep
  case readFlag =>
    obtain ⟨-, rfl⟩ := guarded_eq_some.mp hstep
    exact h.browserSide h.exclusive
  case readLatch =>
    obtain ⟨-, rfl⟩ := guarded_eq_some.mp hstep
    exact h.browserSide h.exclusive
  case readEvent =>
    split at hstep
    · split at hstep
      · case isTrue hevent =>
          cases hstep
          apply h.browserSide
          intro hpos
          -- the three readings hold together, so no launch is under way and no session runs
          have hquiet := h.quiet (hmeets hevent) hevent
          omega
      · cases hstep
        exact h.browserSide h.exclusive
    · cases hstep
  case lockCapture =>
    obtain ⟨⟨hchecked, -⟩, rfl⟩ := guarded_eq_some.mp hstep
    apply h.browserSide
    intro hpos
    have hnone := (h.exclusive hpos).2.1
    omega
  case reuseCapture =>
    obtain ⟨⟨hmutex, -⟩, rfl⟩ := guarded_eq_some.mp hstep
    apply h.browserSide
    intro hpos
    exact ⟨(h.exclusive hpos).1, (h.exclusive hpos).2.1, rfl⟩
  case stopPrevious =>
    obtain ⟨-, rfl⟩ := guarded_eq_some.mp hstep
    apply h.browserSide
    intro hpos
    exact ⟨rfl, (h.exclusive hpos).2⟩
  case failStart =>
    obtain ⟨-, rfl⟩ := guarded_eq_some.mp hstep
    apply h.browserSide
    intro hpos
    exact ⟨(h.exclusive hpos).1, (h.exclusive hpos).2.1, rfl⟩
  case publish =>
    obtain ⟨⟨hmutex, -⟩, rfl⟩ := guarded_eq_some.mp hstep
    apply h.browserSide
    intro hpos
    simp [(h.exclusive hpos).2.2] at hmutex
  case createSession =>
    obtain ⟨-, rfl⟩ := guarded_eq_some.mp hstep
    exact h.browserSide h.exclusive
  case closeSession id =>
    obtain ⟨-, rfl⟩ := guarded_eq_some.mp hstep
    exact h.browserSide h.exclusive
  case scheduleIdle =>
    obtain ⟨-, rfl⟩ := guarded_eq_some.mp hstep
    exact h.browserSide h.exclusive
  case idleTask token noPeers =>
    obtain ⟨-, rfl⟩ := guarded_eq_some.mp hstep
    exact h.browserSide h.exclusive
  case stopIdle =>
    obtain ⟨-, rfl⟩ := guarded_eq_some.mp hstep
    apply h.browserSide
    intro hpos
    exact ⟨rfl, (h.exclusive hpos).2⟩

/-! ## The handlers -/

/-- No launch session holds the lease. -/
def Owner.Plain (owner : Owner) : Prop := ∀ id admission, owner ≠ .launch id admission

theorem Owner.Plain.uncounted {owner : Owner} (h : owner.Plain) : owner.uncounted = 0 := by
  cases owner with
  | launch id admission => exact absurd rfl (h id admission)
  | idle => rfl
  | handler phase => rfl
  | cleanup r => rfl

theorem Owner.Plain.flagDown_iff {owner : Owner} (h : owner.Plain) (sessions : ℕ) :
    owner.FlagDown sessions ↔ sessions = 0 := by
  cases owner with
  | launch id admission => exact absurd rfl (h id admission)
  | idle => exact Iff.rfl
  | handler phase => exact Iff.rfl
  | cleanup r => exact Iff.rfl

theorem Owner.plain_idle : Owner.idle.Plain := by simp [Owner.Plain]

theorem Owner.plain_handler (phase : Preparing) : (Owner.handler phase).Plain := by
  simp [Owner.Plain]

theorem Owner.plain_cleanup (r : Reconciler) : (Owner.cleanup r).Plain := by simp [Owner.Plain]

/-- The coordinator passes between owners none of which is a launch session. -/
theorem Inv.handover (h : Inv s) (hplain : s.owner.Plain)
    {moonlightLaunchesInFlight begun : ℕ} {owner : Owner} {reconcilers : List Reconciler}
    {captureActive idleShutdownPending : Bool} {idleShutdownToken : ℕ}
    {idleTasks sessions : List ℕ} (hplain' : owner.Plain)
    (hsecured : ∀ r, owner = .cleanup r → r.secured → s.moonlightSessions = 0)
    (hlatches : moonlightLaunchesInFlight = begun + s.finishing + s.discarded.length +
      owner.latches + reconcilers.countP (·.latched))
    (hexclusive : 0 < owner.launching + s.launchEvent.toList.length + s.finishing +
      s.discarded.length + reconcilers.countP (·.ofLaunch) + s.moonlightSessions →
        captureActive = false ∧ s.NoStart) :
    Inv { s with
      moonlightLaunchesInFlight, begun, owner, reconcilers, captureActive, idleShutdownPending,
      idleShutdownToken, idleTasks, sessions } where
  latches := hlatches
  unclaimed id admission howner := absurd howner (hplain' id admission)
  running := by
    have hrunning := h.running
    rw [hplain.uncounted] at hrunning
    rw [hplain'.uncounted]
    exact hrunning
  flag hflag := (hplain'.flagDown_iff _).mpr ((hplain.flagDown_iff _).mp (h.flag hflag))
  secured := hsecured
  exclusive := hexclusive

/-- The guards of a failed handler keep its latch. -/
theorem Inv.abort (h : Inv s) {phase : Preparing} (howner : s.owner = .handler phase) :
    Inv (s.abort phase.preempted) := by
  have hlatches := h.latches
  have hexclusive := h.exclusive
  rw [howner] at hlatches
  rw [State.launching, howner] at hexclusive
  apply h.handover (howner ▸ Owner.plain_handler phase) Owner.plain_idle (by simp)
  · simp [Threads.countP_start, Owner.latches] at hlatches ⊢
    omega
  · intro hpos
    apply hexclusive
    simp only [Threads.countP_start, Reconciler.ofLaunch_mk, Site.ofLaunch, Owner.launching]
      at hpos ⊢
    omega

/-- A handler moves on under its lease. -/
theorem Inv.proceed (h : Inv s) {phase phase' : Preparing} (howner : s.owner = .handler phase)
    {captureActive idleShutdownPending : Bool} {idleShutdownToken : ℕ}
    {idleTasks sessions : List ℕ}
    (hkept : s.captureActive = false → captureActive = false)
    (hprepared : phase'.preempted = true →
      phase.preempted = true ∨ captureActive = false ∧ s.NoStart) :
    Inv { s with
      owner := .handler phase'
      captureActive, idleShutdownPending, idleShutdownToken, idleTasks, sessions } := by
  have hlatches := h.latches
  have hexclusive := h.exclusive
  rw [howner] at hlatches
  rw [State.launching, howner] at hexclusive
  apply h.handover (howner ▸ Owner.plain_handler phase) (Owner.plain_handler phase') (by simp)
    hlatches
  intro hpos
  cases hphase : phase'.preempted with
  | true =>
      rcases hprepared hphase with hbefore | hquiet
      · simp only [Owner.launching, hbefore, hphase] at hexclusive hpos
        exact (hexclusive hpos).imp_left hkept
      · exact hquiet
  | false =>
      apply (hexclusive _).imp_left hkept
      simp only [Owner.launching, hphase, Bool.toNat_false] at hpos ⊢
      omega

/-- The lease and the latch pass on to the pending launch and to the end of the handler. -/
theorem Inv.raiseLaunch (h : Inv s) (howner : s.owner = .handler .prepared) :
    Inv { s with
      launchEvent := some s.nextLaunchId
      nextLaunchId := s.nextLaunchId + 1
      owner := .launch s.nextLaunchId .waiting
      finishing := s.finishing + 1 } := by
  have hlatches := h.latches
  have hrunning := h.running
  have hflag := h.flag
  have hexclusive := h.exclusive
  rw [howner] at hlatches hrunning hflag
  rw [State.launching, howner] at hexclusive
  refine ⟨?_, ?_, hrunning, hflag, by simp, ?_⟩
  · simp only [Owner.latches] at hlatches ⊢
    omega
  · rintro id admission hid
    cases hid
    exact Or.inl rfl
  · intro _
    apply hexclusive
    simp [Owner.launching, Preparing.preempted]

theorem Inv.handlerStep (h : Inv s) {label : Label} (hmeets : Meets s label)
    (hstep : handlerStep s label = some s') : Inv s' := by
  have hlatches := h.latches
  have hexclusive := h.exclusive
  rw [State.launching] at hexclusive
  cases label <;> simp only [Exclusivity.handlerStep, reduceCtorEq] at hstep
  case launchBegin =>
    cases hstep
    exact ⟨by dsimp only; omega, h.unclaimed, h.running, h.flag, h.secured, h.exclusive⟩
  case acquireLaunch =>
    obtain ⟨⟨hbegun, howner⟩, rfl⟩ := guarded_eq_some.mp hstep
    rw [howner] at hlatches hexclusive
    apply h.handover (howner ▸ Owner.plain_idle) (Owner.plain_handler _) (by simp)
    · simp only [Owner.latches] at hlatches ⊢
      omega
    · exact hexclusive
  case refuse =>
    obtain ⟨hbegun, rfl⟩ := guarded_eq_some.mp hstep
    refine ⟨?_, h.unclaimed, h.running, h.flag, h.secured, ?_⟩
    · simp [Threads.countP_start]
      omega
    · intro hpos
      apply h.exclusive
      simpa [Threads.countP_start, State.launching, State.moonlightSessions] using hpos
  case checkPending =>
    split at hstep
    · case isTrue howner =>
        split at hstep
        · cases hstep
          exact h.proceed howner id (by simp [Preparing.preempted])
        · cases hstep
          exact h.abort howner
    · cases hstep
  case readSessions =>
    obtain ⟨howner, rfl⟩ := guarded_eq_some.mp hstep
    exact h.proceed howner id (by simp [Preparing.preempted])
  case readCapture =>
    split at hstep
    · case h_1 sessions howner =>
        split at hstep
        · case isTrue hidle =>
            cases hstep
            simp only [Bool.and_eq_true, Bool.not_eq_true'] at hidle
            rw [hidle.1] at howner
            exact h.proceed howner id (fun _ => Or.inr ⟨hidle.2, hmeets howner hidle.2⟩)
        · cases hstep
          exact h.proceed howner id (by simp [Preparing.preempted])
    · cases hstep
  case snapshot =>
    obtain ⟨howner, rfl⟩ := guarded_eq_some.mp hstep
    exact h.proceed howner id (by simp [Preparing.preempted])
  case closeNext =>
    split at hstep
    · case h_1 id ids howner =>
        split at hstep <;> cases hstep <;>
          exact h.proceed howner (fun hidle => hidle) (by simp [Preparing.preempted])
    · cases hstep
  case scheduleNext =>
    split at hstep
    · case h_1 ids howner =>
        cases hstep
        exact h.proceed howner id (by simp [Preparing.preempted])
    · cases hstep
  case checkEmpty =>
    split at hstep
    · case isTrue howner =>
        split at hstep
        · cases hstep
          exact h.proceed howner id (by simp [Preparing.preempted])
        · case isFalse hsessions =>
            cases hstep
            have hquiet := hmeets hsessions
            exact h.proceed howner id (fun _ => Or.inr ⟨hquiet.2, hquiet.1⟩)
    · cases hstep
  case stopForLaunch =>
    obtain ⟨⟨howner, hmutex⟩, rfl⟩ := guarded_eq_some.mp hstep
    exact h.proceed howner (fun _ => rfl) (fun _ => Or.inr ⟨rfl, hmeets, hmutex⟩)
  case failLaunch =>
    split at hstep
    · case h_1 phase howner =>
        cases hstep
        exact h.abort howner
    · cases hstep
  case raiseLaunch =>
    split at hstep
    · case isTrue howner =>
        split at hstep
        · cases hstep
          exact h.raiseLaunch howner
        · cases hstep
          exact h.abort howner
    · cases hstep
  case launchEnd =>
    obtain ⟨hfinishing, rfl⟩ := guarded_eq_some.mp hstep
    refine ⟨?_, h.unclaimed, h.running, h.flag, h.secured, ?_⟩
    · simp only [State.moonlightLaunchEnd]
      omega
    · intro hpos
      apply h.exclusive
      simp [State.launching, State.moonlightLaunchEnd, State.moonlightSessions] at hpos ⊢
      omega
/-! ## The RTSP server and the sessions -/

/-- `cmd_announce` moves on under the admission mutex. -/
theorem Inv.admit (h : Inv s) {id : ℕ} {admission admission' : Admission}
    (howner : s.owner = .launch id admission) {rtspSessionsActive : Bool} {activeSessions : ℕ}
    {runningSessions : ℤ}
    (hrunning : runningSessions = (activeSessions + s.stopping : ℕ) -
      (Owner.launch id admission').uncounted)
    (hflag : rtspSessionsActive = false →
      (Owner.launch id admission').FlagDown (activeSessions + s.stopping)) :
    Inv { s with
      rtspSessionsActive, activeSessions, runningSessions
      owner := .launch id admission' } := by
  have hlatches := h.latches
  have hexclusive := h.exclusive
  rw [howner] at hlatches
  rw [State.launching, howner] at hexclusive
  refine ⟨hlatches, ?_, hrunning, hflag, by simp, ?_⟩
  · rintro id' admission' hid
    cases hid
    exact h.unclaimed id admission howner
  · intro _
    apply hexclusive
    simp [Owner.launching]

/-- The event goes when its session has started. -/
theorem Inv.withoutEvent (h : Inv s)
    (hclaimed : ∀ id admission, s.owner = .launch id admission → s.launchEvent ≠ some id) :
    Inv { s with launchEvent := none } := by
  refine ⟨h.latches, ?_, h.running, h.flag, h.secured, ?_⟩
  · intro id admission howner
    exact Or.inr ((h.unclaimed id admission howner).resolve_left (hclaimed id admission howner))
  · intro hpos
    apply h.exclusive
    simp only [State.launching, State.moonlightSessions, Option.toList_none,
      List.length_nil] at hpos ⊢
    omega

/-- The event goes to a thread that holds a latch. -/
theorem Inv.discard (h : Inv s) {id : ℕ} (hevent : s.launchEvent = some id) (explicit : Bool)
    {moonlightLaunchesInFlight begun : ℕ}
    (hlatches : moonlightLaunchesInFlight + s.begun = s.moonlightLaunchesInFlight + begun + 1) :
    Inv { s with
      launchEvent := none
      moonlightLaunchesInFlight, begun
      discarded := ⟨id, explicit⟩ :: s.discarded } := by
  have hbefore := h.latches
  refine ⟨?_, ?_, h.running, h.flag, h.secured, ?_⟩
  · simp only [List.length_cons]
    omega
  · intro id' admission howner
    have hunclaimed := h.unclaimed id' admission howner
    rw [hevent, Option.some.injEq] at hunclaimed
    rcases hunclaimed with rfl | ⟨d, hd, hid⟩
    · exact Or.inr ⟨_, List.mem_cons_self, rfl⟩
    · exact Or.inr ⟨d, List.mem_cons_of_mem _ hd, hid⟩
  · intro _
    apply h.exclusive
    simp [State.launching, hevent]

/-- The launch is retired before its session starts. -/
theorem Inv.retire (h : Inv s) {id : ℕ} {d : Discarded}
    (howner : s.owner = .launch id .waiting) (hd : d ∈ s.discarded) :
    Inv { s with
      owner := .idle
      discarded := s.discarded.erase d
      reconcilers :=
        ⟨if d.explicitCancel then .cancel else .rollback, 0, false⟩ :: s.reconcilers } := by
  have hlatches := h.latches
  have hrunning := h.running
  have hflag := h.flag
  have hexclusive := h.exclusive
  have hlength := Threads.length_leave hd
  rw [howner] at hlatches hrunning hflag
  rw [State.launching, howner] at hexclusive
  refine ⟨?_, by simp, hrunning, hflag, by simp, ?_⟩
  · cases d.explicitCancel <;> simp [Threads.countP_start, Owner.latches] at hlatches ⊢ <;> omega
  · intro _
    apply hexclusive
    simp [Owner.launching]

/-- A launch that has started is let go of. -/
theorem Inv.settleClaimed (h : Inv s) {d : Discarded} (hd : d ∈ s.discarded)
    (hclaimed : ∀ id admission, s.owner = .launch id admission → id ≠ d.id) :
    Inv (s.settleClaimed d) := by
  have hlatches := h.latches
  have hlength := Threads.length_leave hd
  refine ⟨?_, ?_, h.running, h.flag, h.secured, ?_⟩
  · cases hexplicit : d.explicitCancel <;>
      simp [State.settleClaimed, hexplicit, Threads.countP_start] at hlatches ⊢ <;> omega
  · intro id admission howner
    refine (h.unclaimed id admission howner).imp_right ?_
    rintro ⟨d', hd', rfl⟩
    have hne : d' ≠ d := fun heq => hclaimed d'.id admission howner (heq ▸ rfl)
    exact ⟨d', (List.mem_erase_of_ne hne).mpr hd', rfl⟩
  · intro _
    apply h.exclusive
    simp only [State.launching]
    omega

theorem Inv.joinSession (h : Inv s) (hstopping : 0 < s.stopping) :
    Inv { s with
      stopping := s.stopping - 1
      runningSessions := s.runningSessions - 1
      reconcilers :=
        if s.runningSessions - 1 = 0 then ⟨.join, 0, false⟩ :: s.reconcilers
        else s.reconcilers } := by
  have hless : s.activeSessions + (s.stopping - 1) + 1 = s.moonlightSessions := by
    simp only [State.moonlightSessions]
    omega
  refine ⟨?_, h.unclaimed, ?_, ?_, ?_, ?_⟩
  · have hlatches := h.latches
    split <;> simpa [Threads.countP_start] using hlatches
  · have hrunning := h.running
    simp only [State.moonlightSessions] at hrunning ⊢
    omega
  · intro hdown
    apply (h.flag hdown).mono
    simp only [State.moonlightSessions]
    omega
  · intro r howner hsecured
    have hnone := h.secured r howner hsecured
    omega
  · intro hpos
    apply h.exclusive
    simp only [State.launching, State.moonlightSessions] at hpos ⊢
    split at hpos
    · simp only [Threads.countP_start, Reconciler.ofLaunch_mk, Site.ofLaunch, Bool.toNat_false]
        at hpos
      omega
    · omega

theorem Inv.rtspStep (h : Inv s) {label : Label} (hstep : rtspStep s label = some s') :
    Inv s' := by
  have hrunning := h.running
  have hflag := h.flag
  cases label <;> simp only [Exclusivity.rtspStep, reduceCtorEq] at hstep
  case announce =>
    split at hstep
    · case h_1 id howner =>
        cases hstep
        rw [howner] at hrunning hflag
        exact h.admit howner hrunning hflag
    · cases hstep
  case announceFails =>
    split at hstep
    · case h_1 id howner =>
        cases hstep
        rw [howner] at hrunning hflag
        exact h.admit howner hrunning hflag
    · cases hstep
  case activate =>
    split at hstep
    · case h_1 id howner =>
        cases hstep
        rw [howner] at hrunning hflag
        apply h.admit howner
        · simp [Owner.uncounted, State.moonlightSessions] at hrunning ⊢
          omega
        · intro hdown
          have hnone := hflag hdown
          simp [Owner.FlagDown, State.moonlightSessions] at hnone ⊢
          omega
    · cases hstep
  case count =>
    split at hstep
    · case h_1 id howner =>
        cases hstep
        rw [howner] at hrunning hflag
        simp [Owner.uncounted, State.moonlightSessions] at hrunning
        apply h.admit howner
        · simp [Owner.uncounted]
          omega
        · intro hdown
          have hone := hflag hdown
          simp only [Owner.FlagDown, State.moonlightSessions] at hone
          -- the session that starts is the first unless it has been joined already
          by_cases hfirst : s.runningSessions + 1 = 1
          · simp [hfirst, Owner.FlagDown]
          · simp [hfirst, Owner.FlagDown]
            omega
    · cases hstep
  case raiseFlag =>
    split at hstep
    · case h_1 id howner =>
        cases hstep
        rw [howner] at hrunning
        exact h.admit howner hrunning (by simp)
    · cases hstep
  case claim =>
    split at hstep
    · case h_1 id howner =>
        cases hstep
        have hlatches := h.latches
        have hexclusive := h.exclusive
        rw [howner] at hlatches hrunning hflag
        rw [State.launching, howner] at hexclusive
        refine ⟨hlatches, by simp, hrunning, hflag, by simp, ?_⟩
        intro _
        apply hexclusive
        simp [Owner.launching]
    · cases hstep
  case clear =>
    split at hstep
    · cases hstep
    · case h_2 id unclaimed admission hevent howner =>
        split at hstep
        · cases hstep
        · case isFalse hid =>
            cases hstep
            apply h.withoutEvent
            intro id' admission' hid'
            rw [howner, Owner.launch.injEq] at hid'
            rw [hevent, ne_eq, Option.some.injEq]
            exact fun heq => hid (heq.trans hid'.1.symm)
    · case h_3 id hevent hplain =>
        cases hstep
        apply h.withoutEvent
        exact fun id' admission' hid' => absurd hid' (hplain id' admission')
  case expire =>
    split at hstep
    · cases hstep
    · case h_2 id hevent =>
        cases hstep
        exact h.discard hevent false (by omega)
  case cancel =>
    have hlatches := h.latches
    split at hstep
    · case isTrue hbegun =>
        split at hstep
        · cases hstep
          refine ⟨?_, h.unclaimed, h.running, h.flag, h.secured, ?_⟩
          · simp [Threads.countP_start]
            omega
          · intro hpos
            apply h.exclusive
            simpa [Threads.countP_start, State.launching, State.moonlightSessions] using hpos
        · case h_2 id hevent =>
            cases hstep
            exact h.discard hevent true (by omega)
    · cases hstep
  case reconcile d =>
    split at hstep
    · case isTrue hd =>
        split at hstep
        · case h_1 id admission howner =>
            split at hstep
            · case isTrue hid =>
                split at hstep
                · case isTrue hwaiting =>
                    cases hstep
                    exact h.retire (hwaiting ▸ howner) hd
                · cases hstep
            · case isFalse hid =>
                cases hstep
                apply h.settleClaimed hd
                intro id' admission' hid'
                rw [howner, Owner.launch.injEq] at hid'
                exact hid'.1 ▸ hid
        · case h_2 hplain =>
            cases hstep
            apply h.settleClaimed hd
            exact fun id admission howner => absurd howner (hplain id admission)
    · cases hstep
  case stopSession =>
    obtain ⟨hactive, rfl⟩ := guarded_eq_some.mp hstep
    have hsame : s.activeSessions - 1 + (s.stopping + 1) = s.moonlightSessions := by
      simp only [State.moonlightSessions]
      omega
    refine ⟨h.latches, h.unclaimed, ?_, ?_, ?_, ?_⟩ <;>
      simp only [State.launching, State.moonlightSessions, hsame]
    · exact h.running
    · exact h.flag
    · exact h.secured
    · exact h.exclusive
  case joinSession =>
    obtain ⟨hstopping, rfl⟩ := guarded_eq_some.mp hstep
    exact h.joinSession hstopping

/-! ## The reconciling threads -/

/-- Only an operation that lowers the flag can leave it down. -/
theorem flagAfter_eq_false {op : Op} (h : s.flagAfter op = false) :
    s.rtspSessionsActive = false ∨ op = .lower := by
  cases op <;> simp_all [State.flagAfter]

/-- With no session counted, the flag may be down. -/
theorem Inv.flagDown_of_running (h : Inv s) (hrunning : s.runningSessions ≤ 0) :
    s.owner.FlagDown s.moonlightSessions := by
  have hcounted := h.running
  unfold Owner.FlagDown
  split
  · case h_1 id howner =>
      rw [howner] at hcounted
      simp only [Owner.uncounted] at hcounted
      omega
  · trivial
  · case h_3 hactivated hfirst =>
      have hzero : s.owner.uncounted = 0 := by
        unfold Owner.uncounted
        split
        · case h_1 id howner => exact absurd howner (hactivated id)
        · rfl
      omega

theorem site_perform (r : Reconciler) (op : Op) : (s.perform r op).site = r.site := by
  cases op <;> rfl

@[simp] theorem latched_perform (r : Reconciler) (op : Op) :
    (s.perform r op).latched = r.latched := by
  cases op <;> rfl

@[simp] theorem ofLaunch_perform (r : Reconciler) (op : Op) :
    (s.perform r op).ofLaunch = r.ofLaunch := by
  cases op <;> rfl

/-- A thread moves from one place to another outside the coordinator. -/
theorem Inv.replace (h : Inv s) {r r' : Reconciler} (hr : r ∈ s.reconcilers)
    (hsite : r'.site = r.site) {rtspSessionsActive : Bool}
    (hflag : rtspSessionsActive = false → s.owner.FlagDown s.moonlightSessions) :
    Inv { s with rtspSessionsActive, reconcilers := r' :: s.reconcilers.erase r } := by
  have hlatched : (r' :: s.reconcilers.erase r).countP (·.latched) =
      s.reconcilers.countP (·.latched) := by
    exact Threads.countP_move_eq hr (by rw [Reconciler.latched, hsite]; rfl)
  have hlaunch : (r' :: s.reconcilers.erase r).countP (·.ofLaunch) =
      s.reconcilers.countP (·.ofLaunch) := by
    exact Threads.countP_move_eq hr (by rw [Reconciler.ofLaunch, hsite]; rfl)
  refine ⟨?_, h.unclaimed, h.running, hflag, h.secured, ?_⟩
  · exact h.latches.trans (by rw [hlatched])
  · intro hpos
    apply h.exclusive
    simpa only [State.launching, hlaunch, State.moonlightSessions] using hpos

/-- Whoever takes the cleanup has not made its check yet. -/
theorem Reconciler.not_secured_of_acquire {r : Reconciler} {skip : ℕ}
    (hop : r.op = some (.acquireCleanup skip)) (deferred : Bool) :
    ¬ (r.acquired skip deferred).secured := by
  obtain ⟨site, pc, deferred⟩ := r
  cases site with
  | join =>
      intro hpc
      obtain rfl : pc = 1 := by
        simpa [Reconciler.secured, Reconciler.acquired, Reconciler.jump] using hpc
      simp [Reconciler.op, program] at hop
  | rollback =>
      rintro ⟨hlow, hhigh⟩
      simp [Reconciler.acquired, Reconciler.jump] at hlow hhigh
      have hbound : pc < 8 := by omega
      interval_cases pc <;> simp [Reconciler.op, program] at hop
  | abort preempted => exact id
  | cancel => exact id

/-- The flag is lowered behind the check. -/
theorem Reconciler.secured_of_lower {r : Reconciler} (hop : r.op = some .lower)
    (hsite : r.site.revalidates = true) : r.secured := by
  obtain ⟨site, pc, deferred⟩ := r
  have hpc := (List.getElem?_eq_some_iff.mp hop).1
  cases site with
  | join =>
      simp only [program, List.length_cons, List.length_nil] at hpc
      interval_cases pc <;> simp_all [Reconciler.op, program, Reconciler.secured]
  | rollback =>
      simp only [program, List.length_cons, List.length_nil] at hpc
      interval_cases pc <;> simp_all [Reconciler.op, program, Reconciler.secured]
  | abort preempted => simp [Site.revalidates] at hsite
  | cancel => simp [Site.revalidates] at hsite

/-- Behind the check is who was there, or has just passed it. -/
theorem secured_perform {r : Reconciler} {op : Op} (hop : r.op = some op)
    (hsecured : (s.perform r op).secured) : r.secured ∨ s.runningSessions = 0 := by
  obtain ⟨site, pc, deferred⟩ := r
  have hpc := (List.getElem?_eq_some_iff.mp hop).1
  cases site with
  | join =>
      simp only [program, List.length_cons, List.length_nil] at hpc
      interval_cases pc <;> simp [Reconciler.op, program] at hop <;> subst hop <;>
        simp_all [State.perform, Reconciler.jump, Reconciler.secured, State.validates]
  | rollback =>
      simp only [program, List.length_cons, List.length_nil] at hpc
      interval_cases pc <;> simp [Reconciler.op, program] at hop <;> subst hop <;>
        simp [State.perform, Reconciler.jump, Reconciler.secured, State.validates] at hsecured ⊢ <;>
        split at hsecured <;> simp_all
  | abort preempted => cases op <;> exact hsecured.elim
  | cancel => cases op <;> exact hsecured.elim

theorem Inv.acquireCleanup (h : Inv s) {r : Reconciler} {skip : ℕ} (deferred : Bool)
    (hop : r.op = some (.acquireCleanup skip)) (hr : r ∈ s.reconcilers)
    (howner : s.owner = .idle) :
    Inv { s with
      owner := .cleanup (r.acquired skip deferred)
      reconcilers := s.reconcilers.erase r } := by
  have hlatches := h.latches
  have hexclusive := h.exclusive
  have hlatched := Threads.countP_leave (·.latched) hr
  have hlaunch := Threads.countP_leave (·.ofLaunch) hr
  rw [howner] at hlatches
  rw [State.launching, howner] at hexclusive
  apply h.handover (howner ▸ Owner.plain_idle) (Owner.plain_cleanup _)
  · rintro r' hr' hsecured
    cases hr'
    exact absurd hsecured (Reconciler.not_secured_of_acquire hop deferred)
  · simp only [Owner.latches, Reconciler.latched_acquired] at hlatches ⊢
    omega
  · intro hpos
    apply hexclusive
    simp only [Owner.launching, Reconciler.ofLaunch_acquired] at hpos ⊢
    omega

/-- The owner of the cleanup moves from one place to another. -/
theorem Inv.moveOwner (h : Inv s) {r r' : Reconciler} (howner : s.owner = .cleanup r)
    (hsite : r'.site = r.site) (hsecured : r'.secured → r.secured ∨ s.runningSessions = 0)
    {rtspSessionsActive : Bool}
    (hflag : rtspSessionsActive = false → s.owner.FlagDown s.moonlightSessions) :
    Inv { s with rtspSessionsActive, owner := .cleanup r' } := by
  have hlatches := h.latches
  have hrunning := h.running
  have hexclusive := h.exclusive
  have hlatched : r'.latched = r.latched := by rw [Reconciler.latched, hsite]; rfl
  have hlaunch : r'.ofLaunch = r.ofLaunch := by rw [Reconciler.ofLaunch, hsite]; rfl
  rw [howner] at hlatches hrunning hflag
  rw [State.launching, howner] at hexclusive
  refine ⟨?_, by simp, hrunning, hflag, ?_, ?_⟩
  · simpa only [Owner.latches, hlatched] using hlatches
  · rintro r'' hr'' hsecured'
    cases hr''
    rcases hsecured hsecured' with hbefore | hnone
    · exact h.secured r howner hbefore
    · simp only [Owner.uncounted] at hrunning
      simp only [State.moonlightSessions] at hrunning ⊢
      omega
  · intro hpos
    apply hexclusive
    simpa only [State.launching, Owner.launching, hlaunch, State.moonlightSessions] using hpos

theorem Inv.performOwner (h : Inv s) {r : Reconciler} {op : Op} (howner : s.owner = .cleanup r)
    (hop : r.op = some op)
    (hmeets : op = .lower → r.site.revalidates = false → s.runningSessions ≤ 0) :
    Inv { s with rtspSessionsActive := s.flagAfter op, owner := .cleanup (s.perform r op) } := by
  apply h.moveOwner howner (site_perform r op) (secured_perform hop)
  intro hdown
  rcases flagAfter_eq_false hdown with hbefore | rfl
  · exact h.flag hbefore
  cases hsite : r.site.revalidates with
  | true =>
      rw [howner]
      exact h.secured r howner (Reconciler.secured_of_lower hop hsite)
  | false => exact h.flagDown_of_running (hmeets rfl hsite)

/-- Where it gives up, the rollback has made its second check. -/
theorem Inv.giveUp (h : Inv s) {r : Reconciler} (howner : s.owner = .cleanup r)
    (hsite : r.site = .rollback) (hpc : r.pc = 3) :
    Inv { s with owner := .cleanup (r.jump false 5) } := by
  have hsame : (r.jump false 5).site = r.site := rfl
  refine h.moveOwner howner hsame (fun _ => .inl ?_) h.flag
  simp [Reconciler.secured, hsite, hpc]

theorem Inv.leave (h : Inv s) {r : Reconciler} (hr : r ∈ s.reconcilers) :
    Inv { s with
      reconcilers := s.reconcilers.erase r
      moonlightLaunchesInFlight := s.moonlightLaunchesInFlight - r.latched.toNat } := by
  have hlatches := h.latches
  have hlatched := Threads.countP_leave (·.latched) hr
  have hlaunch := Threads.countP_leave (·.ofLaunch) hr
  refine ⟨?_, h.unclaimed, h.running, h.flag, h.secured, ?_⟩
  · dsimp only
    omega
  · intro hpos
    apply h.exclusive
    simp only [State.launching, State.moonlightSessions] at hpos ⊢
    omega

theorem Inv.leaveOwner (h : Inv s) {r : Reconciler} (howner : s.owner = .cleanup r) :
    Inv { s with
      owner := .idle
      moonlightLaunchesInFlight := s.moonlightLaunchesInFlight - r.latched.toNat } := by
  have hlatches := h.latches
  have hexclusive := h.exclusive
  rw [howner] at hlatches
  rw [State.launching, howner] at hexclusive
  apply h.handover (howner ▸ Owner.plain_cleanup r) Owner.plain_idle (by simp)
  · simp only [Owner.latches] at hlatches ⊢
    omega
  · intro hpos
    apply hexclusive
    simp only [Owner.launching] at hpos ⊢
    omega

theorem Inv.reconcilerStep (h : Inv s) {label : Label} (hmeets : Meets s label)
    (hstep : reconcilerStep s label = some s') : Inv s' := by
  cases label <;> simp only [Exclusivity.reconcilerStep, reduceCtorEq] at hstep
  case acquireCleanup r deferred =>
    split at hstep
    · case h_1 skip hop =>
        obtain ⟨⟨hr, howner⟩, rfl⟩ := guarded_eq_some.mp hstep
        exact h.acquireCleanup deferred hop hr howner
    · cases hstep
  case perform r =>
    split at hstep
    · case h_1 op hop =>
        obtain ⟨⟨hr, -⟩, rfl⟩ := guarded_eq_some.mp hstep
        apply h.replace hr (site_perform r op)
        intro hdown
        rcases flagAfter_eq_false hdown with hbefore | rfl
        · exact h.flag hbefore
        · exact h.flagDown_of_running (hmeets hop)
    · cases hstep
  case performOwner =>
    split at hstep
    · case h_1 r howner =>
        split at hstep
        · case h_1 op hop =>
            cases hstep
            apply h.performOwner howner hop
            intro hlower
            simp only [Meets, howner] at hmeets
            exact hmeets (hlower ▸ hop)
        · cases hstep
    · cases hstep
  case giveUp =>
    split at hstep
    · case h_1 r howner =>
        obtain ⟨⟨hsite, hpc⟩, rfl⟩ := guarded_eq_some.mp hstep
        exact h.giveUp howner hsite hpc
    · cases hstep
  case retry r =>
    obtain ⟨⟨hr, -, hsite⟩, rfl⟩ := guarded_eq_some.mp hstep
    exact h.replace hr hsite.symm h.flag
  case leave r =>
    obtain ⟨⟨hr, -⟩, rfl⟩ := guarded_eq_some.mp hstep
    exact h.leave hr
  case leaveOwner =>
    split at hstep
    · case h_1 r howner =>
        obtain ⟨-, rfl⟩ := guarded_eq_some.mp hstep
        exact h.leaveOwner howner
    · cases hstep

/-! ## Every run -/

theorem Inv.step (h : Inv s) {label : Label} (hmeets : Meets s label)
    (hstep : step s label = some s') : Inv s' := by
  unfold Exclusivity.step at hstep
  split at hstep
  all_goals first
    | exact h.browserStep hmeets hstep
    | exact h.handlerStep hmeets hstep
    | exact h.rtspStep hstep
    | exact h.reconcilerStep hmeets hstep

/-- **The capture is exclusive.**  In a run whose steps meet the condition, an active browser
capture has neither a Moonlight session beside it nor a launch past its preemption step. -/
theorem capture_exclusive {labels : List Label} (hrun : run step .initial labels = some s)
    (hmeets : RunMeets step Meets .initial labels) (hactive : s.captureActive = true) :
    s.activeSessions = 0 ∧ s.stopping = 0 ∧ s.launching = 0 := by
  have hinv : Inv s := run_invariant_of_meets
    (fun _ _ _ h hmeets hstep => Inv.step h hmeets hstep) inv_initial hmeets hrun
  by_contra hother
  have hpos : 0 < s.launching + s.moonlightSessions := by
    simp only [State.moonlightSessions]
    omega
  simp [(hinv.exclusive hpos).1] at hactive

/-- A browser start up to the capture mutex. -/
def startLocked : List Label := [.readFlag, .readLatch, .readEvent, .lockCapture]

/-- A launch handler that finds nothing to preempt. -/
def launchPrepared : List Label :=
  [.launchBegin, .acquireLaunch, .checkPending, .readSessions, .readCapture]

/-- The client claims the pending launch. -/
def sessionStart : List Label := [.announce, .activate, .count, .raiseFlag, .claim]

/-- A Moonlight session comes and goes, then a browser starts its capture. -/
def inTurn : List Label :=
  launchPrepared ++ ([.raiseLaunch, .launchEnd] : List Label) ++ sessionStart ++
    ([.clear, .stopSession, .joinSession, .acquireCleanup ⟨.join, 0, false⟩ false, .performOwner,
      .performOwner, .leaveOwner] : List Label) ++ startLocked ++ ([.publish] : List Label)

theorem capture_exclusive_inTurn :
    ∃ s, run step .initial inTurn = some s ∧ s.captureActive = true ∧
      s.activeSessions = 0 ∧ s.stopping = 0 ∧ s.launching = 0 := by
  obtain ⟨s, hrun, hs⟩ := (Option.any_eq_true _ _).mp
    (show (run step .initial inTurn).any (fun s => decide (s.captureActive = true)) = true by
      rfl)
  have hactive := of_decide_eq_true hs
  exact ⟨s, hrun, hactive, capture_exclusive hrun (by decide) hactive⟩

/-- The launch looks for a capture while the start prepares its display. -/
def overtaken : List Label := startLocked ++ launchPrepared ++ ([.publish] : List Label)

/-- A second launch is refused because the first is pending; its guard finds no active session
and lowers the flag when the first launch has been claimed. -/
def lowered : List Label :=
  launchPrepared ++ ([.raiseLaunch, .launchEnd, .launchBegin, .refuse,
      .perform ⟨.abort false, 0, false⟩, .perform ⟨.abort false, 3, false⟩] : List Label) ++
    sessionStart ++
    ([.perform ⟨.abort false, 4, false⟩, .leave ⟨.abort false, 5, false⟩, .clear] : List Label) ++
    startLocked ++ ([.publish] : List Label)

/-- The capture becomes active behind the preemption step and stays beside the session; and it
becomes active beside a session whose flag was lowered. -/
theorem capture_not_exclusive :
    (∃ s, run step .initial overtaken = some s ∧ s.captureActive = true ∧
      s.owner = .handler .prepared) ∧
    (∃ s, run step .initial (overtaken ++ [.raiseLaunch, .launchEnd] ++ sessionStart) = some s ∧
      s.captureActive = true ∧ s.activeSessions = 1) ∧
    ∃ s, run step .initial lowered = some s ∧ s.captureActive = true ∧ s.activeSessions = 1 := by
  refine ⟨?_, ?_, ?_⟩
  · obtain ⟨s, hrun, hs⟩ := (Option.any_eq_true _ _).mp
      (show (run step .initial overtaken).any (fun s => decide
        (s.captureActive = true ∧ s.owner = .handler .prepared)) = true by rfl)
    exact ⟨s, hrun, of_decide_eq_true hs⟩
  · obtain ⟨s, hrun, hs⟩ := (Option.any_eq_true _ _).mp
      (show (run step .initial (overtaken ++ [.raiseLaunch, .launchEnd] ++ sessionStart)).any
        (fun s => decide (s.captureActive = true ∧ s.activeSessions = 1)) = true by
          rfl)
    exact ⟨s, hrun, of_decide_eq_true hs⟩
  · obtain ⟨s, hrun, hs⟩ := (Option.any_eq_true _ _).mp
      (show (run step .initial lowered).any
        (fun s => decide (s.captureActive = true ∧ s.activeSessions = 1)) = true by
          rfl)
    exact ⟨s, hrun, of_decide_eq_true hs⟩

end LuminalShine.WebRtc.Exclusivity
