import Mathlib.Data.List.Basic
import Mathlib.Data.Nat.Notation
import Mathlib.Data.Int.Notation

/-!
# The polling thread and a dead display stack

When the whole machine stops enumerating displays no restore can succeed.  The polling thread
counts failed probes; once they are many and old enough it says so loudly, holds the restore, and
only looks on until a probe succeeds.  The escalator outlives the thread: the next one finds it as
the last one left it.

* `WedgeEscalation.onEnumerationResult` — the escalator, one probe at a time;
* `Poll.turn`, `Poll.thread` — `restore_poll_proc`, with everything it loads, waits for and tries
  as inputs of the turn;
* `Mark` and `Allowed` — what a thread does, and when it may;
* `restore_polling_disciplined` — over any succession of polling threads every mark is allowed.
-/

namespace LuminalShine.DisplayHelper.RestorePolling

/-! ## The escalator -/

/-- `WedgeEscalation::Config`, in milliseconds. -/
structure Config where
  failureThreshold : ℕ
  minFailureDuration : ℤ
  relogInterval : ℤ
  deriving DecidableEq, Repr

/-- The default values. -/
def Config.default : Config where
  failureThreshold := 5
  minFailureDuration := 60 * 1000
  relogInterval := 10 * 60 * 1000

inductive Action where
  | proceed
  | escalate
  | hold
  | relog
  | retryNow
  deriving DecidableEq, Repr

structure WedgeEscalation where
  consecutiveFailures : ℕ
  wedged : Bool
  firstFailure : ℤ
  lastEscalationLog : ℤ
  deriving DecidableEq, Repr

namespace WedgeEscalation

/-- `reset`. -/
def reset : WedgeEscalation where
  consecutiveFailures := 0
  wedged := false
  firstFailure := 0
  lastEscalationLog := 0

/-- `engaged`. -/
def engaged (w : WedgeEscalation) : Bool := w.wedged || decide (0 < w.consecutiveFailures)

/-- `on_enumeration_result`. -/
def onEnumerationResult (config : Config) (w : WedgeEscalation) (enumerationOk : Bool)
    (now : ℤ) : WedgeEscalation × Action :=
  if enumerationOk then (reset, if w.wedged then .retryNow else .proceed)
  else
    let firstFailure := if w.consecutiveFailures = 0 then now else w.firstFailure
    let w := { w with
      firstFailure := firstFailure, consecutiveFailures := w.consecutiveFailures + 1 }
    if !w.wedged then
      if config.failureThreshold ≤ w.consecutiveFailures ∧
          config.minFailureDuration ≤ now - w.firstFailure then
        ({ w with wedged := true, lastEscalationLog := now }, .escalate)
      else (w, .proceed)
    else if config.relogInterval ≤ now - w.lastEscalationLog then
      ({ w with lastEscalationLog := now }, .relog)
    else (w, .hold)

end WedgeEscalation

/-! ## The thread -/

/-- What a polling thread does.  A probe is `held` when the hold path makes it, and `loud` when
the failure is logged with it; `stopped` is an end by cancellation, `gaveUp` the end of a window. -/
inductive Mark where
  | started
  | initialAttempt
  | attempt
  | probe (held ok : Bool) (now : ℤ) (loud : Bool)
  | restored
  | stopped
  | gaveUp
  deriving DecidableEq, Repr

/-- The escalator, and what has happened so far, newest first. -/
structure Poll where
  wedge : WedgeEscalation
  history : List Mark
  deriving DecidableEq, Repr

/-- What the thread meets before its loop: whether there is nothing to restore, whether it is
cancelled, whether it gets to make the first attempt, how that ends, and the probe behind it. -/
structure Start where
  nothingToRestore : Bool
  cancelled : Bool
  attempts : Bool
  success : Bool
  cancelledBehind : Bool
  enumerates : Bool
  probedAt : ℤ
  deriving DecidableEq, Repr

/-- What a turn of the loop meets: the window it loads, whether an event woke it, whether the back
off lets it go on, how the attempt ends, the answers of the two probes, and where it finds itself
cancelled. -/
structure Turn where
  cancelledAtHead : Bool
  nowMs : ℤ
  activeUntilMs : ℤ
  primary : Bool
  event : Bool
  cancelledWaiting : Bool
  heldEnumerates : Bool
  heldAt : ℤ
  awaits : Bool
  cancelledBackingOff : Bool
  success : Bool
  cancelledTrying : Bool
  enumerates : Bool
  probedAt : ℤ
  deriving DecidableEq, Repr

namespace Poll

variable (config : Config)

def mark (s : Poll) (m : Mark) : Poll := { s with history := m :: s.history }

/-- A probe and, where the escalator asks for it, `log_wedge_escalation`. -/
def probe (s : Poll) (held ok : Bool) (now : ℤ) : Poll × Action :=
  let (wedge, action) := s.wedge.onEnumerationResult config ok now
  (⟨wedge, .probe held ok now (action = .escalate ∨ action = .relog) :: s.history⟩, action)

/-- The restore attempt and what follows it: the thread ends, or has noted the failure. -/
def attempt (s : Poll) (success cancelled enumerates : Bool) (probedAt : ℤ) : Poll × Bool :=
  if cancelled then (s.mark .stopped, false)
  else if success then (⟨.reset, .restored :: s.history⟩, false)
  else ((s.probe config false enumerates probedAt).1, true)

/-- The turn behind the hold path. -/
def react (s : Poll) (i : Turn) (triggered windowExpired : Bool) : Poll × Bool :=
  if !triggered then
    if windowExpired ∧ s.wedge.engaged = false then (s.mark .gaveUp, false) else (s, true)
  else if !i.awaits ∨ i.cancelledBackingOff then (s.mark .stopped, false)
  else (s.mark .attempt).attempt config i.success i.cancelledTrying i.enumerates i.probedAt

/-- One turn of the loop, and whether there is another one. -/
def turn (s : Poll) (i : Turn) : Poll × Bool :=
  if i.cancelledAtHead then (s.mark .stopped, false)
  else
    let activeWindow : Bool := i.activeUntilMs ≠ 0 ∧ i.nowMs ≤ i.activeUntilMs
    let windowExpired : Bool := i.activeUntilMs ≠ 0 ∧ i.activeUntilMs < i.nowMs
    let triggered := i.event || (activeWindow && i.primary)
    if i.cancelledWaiting then (s.mark .stopped, false)
    else if s.wedge.engaged then
      match s.probe config true i.heldEnumerates i.heldAt with
      | (s, .escalate) => (s, true)
      | (s, .relog) => (s, true)
      | (s, .hold) => (s, true)
      | (s, .retryNow) => s.react config i true windowExpired
      | (s, .proceed) => s.react config i triggered windowExpired
    else s.react config i triggered windowExpired

/-- The loop. -/
def loop (s : Poll) : List Turn → Poll
  | [] => s
  | i :: turns =>
      match s.turn config i with
      | (s, true) => s.loop turns
      | (s, false) => s

/-- `restore_poll_proc`. -/
def thread (s : Poll) (start : Start) (turns : List Turn) : Poll :=
  let s := s.mark .started
  if start.nothingToRestore ∨ start.cancelled then s.mark .stopped
  else if start.attempts then
    match (s.mark .initialAttempt).attempt config start.success
        (start.success && start.cancelledBehind) start.enumerates start.probedAt with
    | (s, true) => s.loop config turns
    | (s, false) => s
  else s.loop config turns

/-- The threads, one behind the other. -/
def threads (s : Poll) (runs : List (Start × List Turn)) : Poll :=
  runs.foldl (fun s run => s.thread config run.1 run.2) s

/-- The helper has just started. -/
def initial : Poll where
  wedge := .reset
  history := []

end Poll

/-! ## What is allowed -/

/-- A probe that succeeds and a restore that is confirmed end a streak of failures. -/
def Mark.resolves : Mark → Bool
  | .probe _ ok _ _ => ok
  | .restored => true
  | _ => false

def Mark.failingAt : Mark → Option ℤ
  | .probe _ false now _ => some now
  | _ => none

def Mark.loudAt : Mark → Option ℤ
  | .probe _ _ now true => some now
  | _ => none

/-- The marks since the last streak was ended. -/
def streak (h : List Mark) : List Mark := h.takeWhile fun m => !m.resolves

/-- The failed probes of the streak, newest first, and the loud ones. -/
def failing (h : List Mark) : List ℤ := (streak h).filterMap Mark.failingAt

def louds (h : List Mark) : List ℤ := (streak h).filterMap Mark.loudAt

/-- A failed probe is to be logged: the streak has become long and old enough, or the last
message is old enough. -/
def Due (config : Config) (now : ℤ) (older : List Mark) : Prop :=
  match (louds older).head? with
  | some last => config.relogInterval ≤ now - last
  | none => config.failureThreshold ≤ (failing older).length + 1 ∧
      config.minFailureDuration ≤ now - (failing older).getLast?.getD now

/-- What may follow the marks `older`. -/
def Allowed (config : Config) : Mark → List Mark → Prop
  | .probe _ ok now loud, older => loud = true ↔ ok = false ∧ Due config now older
  | .attempt, older => louds older = []
  | .gaveUp, older => failing older = []
  | _, _ => True

/-- The hold path has just seen the displays come back. -/
def Recovered : List Mark → Prop
  | .probe true true _ _ :: older => louds older ≠ []
  | _ => False

/-- Every mark is allowed, and a recovery is followed by an attempt, or by the end. -/
def Disciplined (config : Config) : List Mark → Prop
  | [] => True
  | m :: older => Allowed config m older ∧
      (Recovered older → m = .attempt ∨ m = .stopped) ∧ Disciplined config older

/-! ## The escalator and the marks -/

/-- What the escalator holds is what the streak shows. -/
structure Agrees (w : WedgeEscalation) (h : List Mark) : Prop where
  failures : w.consecutiveFailures = (failing h).length
  first : ∀ t ∈ (failing h).getLast?, w.firstFailure = t
  wedged : w.wedged = !(louds h).isEmpty
  last : ∀ t ∈ (louds h).head?, w.lastEscalationLog = t

variable {config : Config} {w : WedgeEscalation} {h : List Mark} {s : Poll}

@[simp] theorem failing_cons (m : Mark) (h : List Mark) :
    failing (m :: h) = if m.resolves then [] else m.failingAt.toList ++ failing h := by
  cases hm : m.resolves <;> simp [failing, streak, hm, List.filterMap_cons]
  cases m.failingAt <;> rfl

@[simp] theorem louds_cons (m : Mark) (h : List Mark) :
    louds (m :: h) = if m.resolves then [] else m.loudAt.toList ++ louds h := by
  cases hm : m.resolves <;> simp [louds, streak, hm, List.filterMap_cons]
  cases m.loudAt <;> rfl

theorem agrees_reset {m : Mark} (hm : m.resolves = true) : Agrees .reset (m :: h) := by
  constructor <;> simp [hm, WedgeEscalation.reset]

/-- A mark without a probe changes nothing. -/
theorem Agrees.mark (ha : Agrees w h) {m : Mark} (hresolves : m.resolves = false)
    (hfailing : m.failingAt = none) (hloud : m.loudAt = none) : Agrees w (m :: h) := by
  constructor
  · simpa [hresolves, hfailing] using ha.failures
  · simpa [hresolves, hfailing] using ha.first
  · simpa [hresolves, hloud] using ha.wedged
  · simpa [hresolves, hloud] using ha.last

theorem Agrees.engaged (ha : Agrees w h) (hquiet : w.engaged = false) :
    failing h = [] ∧ louds h = [] := by
  simp only [WedgeEscalation.engaged, Bool.or_eq_false_iff, decide_eq_false_iff_not] at hquiet
  constructor
  · have := ha.failures
    rw [← List.length_eq_zero_iff]
    omega
  · simpa [hquiet.1] using ha.wedged

/-- The first failure of the streak, once `now` has failed too. -/
def firstOf (w : WedgeEscalation) (now : ℤ) : ℤ :=
  if w.consecutiveFailures = 0 then now else w.firstFailure

theorem Agrees.firstOf (ha : Agrees w h) (now : ℤ) :
    firstOf w now = (failing h).getLast?.getD now ∧
      ∀ t ∈ (now :: failing h).getLast?, firstOf w now = t := by
  have hfailures := ha.failures
  have hfirst := ha.first
  rw [RestorePolling.firstOf]
  rcases hlist : failing h with _ | ⟨t, older⟩
  · rw [hlist, List.length_nil] at hfailures
    simp [hfailures]
  · rw [hlist, List.length_cons] at hfailures
    rw [hlist] at hfirst
    have hne : w.consecutiveFailures ≠ 0 := by omega
    obtain ⟨last, hlast⟩ : ∃ last, (t :: older).getLast? = some last :=
      ⟨_, List.getLast?_eq_some_getLast (List.cons_ne_nil t older)⟩
    rw [if_neg hne, hlast, List.getLast?_cons_cons, hlast]
    exact ⟨hfirst last hlast, fun t' ht' => hfirst t' (hlast ▸ ht')⟩

/-- A failed probe is added to the streak, and to its messages if it is logged. -/
theorem Agrees.failed (ha : Agrees w h) (held loud : Bool) (now : ℤ) :
    Agrees ⟨w.consecutiveFailures + 1, loud || w.wedged, RestorePolling.firstOf w now,
      if loud then now else w.lastEscalationLog⟩ (.probe held false now loud :: h) := by
  constructor
  · simp [Mark.resolves, Mark.failingAt, ha.failures]
  · simpa [Mark.resolves, Mark.failingAt] using (ha.firstOf now).2
  · cases loud <;> simp [Mark.resolves, Mark.loudAt, ha.wedged]
  · cases loud
    · simpa [Mark.resolves, Mark.loudAt] using ha.last
    · simp [Mark.resolves, Mark.loudAt]

/-- **A failed probe.**  The escalator asks for a message exactly when one is due. -/
theorem Agrees.onEnumerationResult (config : Config) (ha : Agrees w h) (now : ℤ) :
    ∃ loud action, w.onEnumerationResult config false now =
        (⟨w.consecutiveFailures + 1, loud || w.wedged, RestorePolling.firstOf w now,
          if loud then now else w.lastEscalationLog⟩, action) ∧
      (loud = true ↔ Due config now h) ∧
      (loud = true ↔ action = .escalate ∨ action = .relog) ∧ action ≠ .retryNow ∧
      (action = .proceed → loud = false ∧ louds h = []) := by
  have hdue := (ha.firstOf now).1
  have hwedged := ha.wedged
  have hfailures := ha.failures
  rw [RestorePolling.firstOf] at hdue ⊢
  rcases hlouds : louds h with _ | ⟨t, older⟩
  · -- the streak has not been logged yet
    rw [hlouds] at hwedged
    by_cases hcross : config.failureThreshold ≤ w.consecutiveFailures + 1 ∧
        config.minFailureDuration ≤
          now - (if w.consecutiveFailures = 0 then now else w.firstFailure)
    · refine ⟨true, .escalate, ?_, ?_, by simp, by simp, by simp⟩
      · simp [WedgeEscalation.onEnumerationResult, hwedged, hcross]
      · rw [hdue, hfailures] at hcross
        simpa [Due, hlouds] using hcross
    · refine ⟨false, .proceed, ?_, ?_, by simp, by simp, by simp⟩
      · simp [WedgeEscalation.onEnumerationResult, hwedged, hcross]
      · rw [hdue, hfailures] at hcross
        simpa [Due, hlouds] using hcross
  · rw [hlouds] at hwedged
    have htime : w.lastEscalationLog = t := ha.last t (by simp [hlouds])
    by_cases hrelog : config.relogInterval ≤ now - t
    · refine ⟨true, .relog, ?_, ?_, by simp, by simp, by simp⟩
      · simp [WedgeEscalation.onEnumerationResult, hwedged, htime, hrelog]
      · simpa [Due, hlouds] using hrelog
    · refine ⟨false, .hold, ?_, ?_, by simp, by simp, by simp⟩
      · simp [WedgeEscalation.onEnumerationResult, hwedged, htime, hrelog]
      · simpa [Due, hlouds] using hrelog

/-- **One probe.**  The escalator logs what is due, and agrees with the marks again. -/
theorem Agrees.probe (config : Config) (ha : Agrees s.wedge s.history) (held ok : Bool)
    (now : ℤ) :
    ∃ loud, (s.probe config held ok now).1.history = .probe held ok now loud :: s.history ∧
      Agrees (s.probe config held ok now).1.wedge (.probe held ok now loud :: s.history) ∧
      Allowed config (.probe held ok now loud) s.history ∧
      ((s.probe config held ok now).2 = .retryNow ↔ ok = true ∧ louds s.history ≠ []) ∧
      ((s.probe config held ok now).2 = .proceed →
        louds (.probe held ok now loud :: s.history) = []) := by
  cases ok with
  | true =>
      have hwedged := ha.wedged
      refine ⟨false, ?_, agrees_reset rfl, by simp [Allowed], ?_, by simp [Mark.resolves]⟩
      · cases hw : s.wedge.wedged <;>
          simp [Poll.probe, WedgeEscalation.onEnumerationResult, hw]
      · rcases hlouds : louds s.history with _ | ⟨t, older⟩ <;> rw [hlouds] at hwedged <;>
          simp [Poll.probe, WedgeEscalation.onEnumerationResult, hwedged]
  | false =>
      obtain ⟨loud, action, hon, hdue, hloud, hretry, hproceed⟩ :=
        ha.onEnumerationResult config now
      have hprobe : s.probe config held false now = (⟨⟨s.wedge.consecutiveFailures + 1,
          loud || s.wedge.wedged, RestorePolling.firstOf s.wedge now,
          if loud then now else s.wedge.lastEscalationLog⟩,
          .probe held false now loud :: s.history⟩, action) := by
        have hdecide : decide (action = .escalate ∨ action = .relog) = loud := by
          cases loud <;> simpa using hloud
        simp only [Poll.probe, hon, hdecide]
      rw [hprobe]
      refine ⟨loud, rfl, ha.failed held loud now, by simpa [Allowed] using hdue, ?_, ?_⟩
      · simpa using hretry
      · intro h
        obtain ⟨hquiet, hlouds⟩ := hproceed h
        simp [hquiet, hlouds, Mark.resolves, Mark.loudAt]

/-! ## The invariant -/

/-- The escalator agrees with the marks, and all of them are allowed. -/
structure Sound (config : Config) (s : Poll) : Prop where
  agrees : Agrees s.wedge s.history
  disciplined : Disciplined config s.history

/-- No recovery waits for its attempt. -/
def Settled (s : Poll) : Prop := ¬ Recovered s.history

/-- A mark of the thread itself. -/
theorem Sound.mark (hs : Sound config s) {m : Mark} (hallowed : Allowed config m s.history)
    (hanswers : Recovered s.history → m = .attempt ∨ m = .stopped)
    (hplain : m.resolves = false ∧ m.failingAt = none ∧ m.loudAt = none) :
    Sound config (s.mark m) :=
  ⟨hs.agrees.mark hplain.1 hplain.2.1 hplain.2.2, hallowed, hanswers, hs.disciplined⟩

theorem Sound.stopped (hs : Sound config s) : Sound config (s.mark .stopped) :=
  hs.mark trivial (fun _ => Or.inr rfl) ⟨rfl, rfl, rfl⟩

theorem Sound.probe (hs : Sound config s) (hset : Settled s) (held ok : Bool) (now : ℤ) :
    Sound config (s.probe config held ok now).1 := by
  obtain ⟨loud, hhistory, hagrees, hallowed, -, -⟩ :=
    hs.agrees.probe config held ok now
  rw [← hhistory] at hagrees
  refine ⟨hagrees, ?_⟩
  rw [hhistory]
  exact ⟨hallowed, fun h => absurd h hset, hs.disciplined⟩

/-- The attempt, and the probe behind a failed one. -/
theorem Sound.attempt (hs : Sound config s) (hset : Settled s) (success cancelled ok : Bool)
    (now : ℤ) : Sound config (s.attempt config success cancelled ok now).1 ∧
      Settled (s.attempt config success cancelled ok now).1 := by
  rw [Poll.attempt]
  cases cancelled
  · cases success
    · refine ⟨hs.probe hset false ok now, ?_⟩
      obtain ⟨loud, hhistory, -⟩ := hs.agrees.probe config false ok now
      simp only [Bool.false_eq_true, if_false, Settled, hhistory]
      exact id
    · exact ⟨⟨agrees_reset rfl, trivial, fun h => absurd h hset, hs.disciplined⟩, id⟩
  · exact ⟨hs.stopped, id⟩

/-- The turn behind the hold path: what has recovered is tried. -/
theorem Sound.react (hs : Sound config s) (hlouds : louds s.history = []) (i : Turn)
    {triggered windowExpired : Bool} (hrecovered : Recovered s.history → triggered = true) :
    Sound config (s.react config i triggered windowExpired).1 ∧
      Settled (s.react config i triggered windowExpired).1 := by
  rw [Poll.react]
  split
  · case isTrue hquiet =>
    have hset : ¬ Recovered s.history := fun h => by simp [hrecovered h] at hquiet
    split
    · case isTrue hexpired =>
      exact ⟨hs.mark (hs.agrees.engaged hexpired.2).1 (fun h => absurd h hset) ⟨rfl, rfl, rfl⟩, id⟩
    · exact ⟨hs, hset⟩
  · split
    · exact ⟨hs.stopped, id⟩
    · have hmarked : Sound config (s.mark .attempt) :=
        hs.mark hlouds (fun _ => Or.inl rfl) ⟨rfl, rfl, rfl⟩
      exact hmarked.attempt id _ _ _ _

/-- **One turn.** -/
theorem Sound.turn (hs : Sound config s) (hset : Settled s) (i : Turn) :
    Sound config (s.turn config i).1 ∧ Settled (s.turn config i).1 := by
  rw [Poll.turn]
  split
  · exact ⟨hs.stopped, id⟩
  · dsimp only
    split
    · exact ⟨hs.stopped, id⟩
    · split
      · obtain ⟨loud, hhistory, -, -, hretry, hproceed⟩ :=
          hs.agrees.probe config true i.heldEnumerates i.heldAt
        have hprobed := hs.probe hset true i.heldEnumerates i.heldAt
        -- only a retry leaves a recovery behind
        have hrecovered : Recovered (s.probe config true i.heldEnumerates i.heldAt).1.history →
            (s.probe config true i.heldEnumerates i.heldAt).2 = .retryNow := by
          rw [hhistory, hretry]
          cases i.heldEnumerates
          · exact False.elim
          · exact fun h => ⟨rfl, h⟩
        rw [← hhistory] at hproceed
        rcases hp : s.probe config true i.heldEnumerates i.heldAt with ⟨s', action⟩
        rw [hp] at hprobed hrecovered hproceed hretry hhistory
        cases action with
        | escalate => exact ⟨hprobed, fun h => Action.noConfusion (hrecovered h)⟩
        | relog => exact ⟨hprobed, fun h => Action.noConfusion (hrecovered h)⟩
        | hold => exact ⟨hprobed, fun h => Action.noConfusion (hrecovered h)⟩
        | retryNow =>
            have hok := (hretry.mp rfl).1
            have hlouds : louds s'.history = [] := by
              rw [hhistory, hok]
              rfl
            exact hprobed.react hlouds i fun _ => rfl
        | proceed =>
            exact hprobed.react (hproceed rfl) i fun h => Action.noConfusion (hrecovered h)
      · case isFalse hquiet =>
        have hlouds := (hs.agrees.engaged (by simpa using hquiet)).2
        exact hs.react hlouds i fun h => absurd h hset

theorem Sound.loop (turns : List Turn) (hs : Sound config s) (hset : Settled s) :
    Sound config (s.loop config turns) ∧ Settled (s.loop config turns) := by
  induction turns generalizing s with
  | nil => exact ⟨hs, hset⟩
  | cons i turns ih =>
      have hturn := hs.turn hset i
      rw [Poll.loop]
      rcases ht : s.turn config i with ⟨s', _ | _⟩ <;> rw [ht] at hturn
      · exact hturn
      · exact ih hturn.1 hturn.2

/-- **One thread.** -/
theorem Sound.thread (hs : Sound config s) (hset : Settled s) (start : Start)
    (turns : List Turn) : Sound config (s.thread config start turns) ∧
      Settled (s.thread config start turns) := by
  have hstarted : Sound config (s.mark .started) :=
    hs.mark trivial (fun h => absurd h hset) ⟨rfl, rfl, rfl⟩
  rw [Poll.thread]
  split
  · exact ⟨hstarted.stopped, id⟩
  · split
    · have hmarked : Sound config ((s.mark .started).mark .initialAttempt) :=
        hstarted.mark trivial False.elim ⟨rfl, rfl, rfl⟩
      have hattempt := hmarked.attempt id start.success
        (start.success && start.cancelledBehind) start.enumerates start.probedAt
      rcases ha : ((s.mark .started).mark .initialAttempt).attempt config start.success
          (start.success && start.cancelledBehind) start.enumerates start.probedAt with
        ⟨s', _ | _⟩ <;> rw [ha] at hattempt
      · exact hattempt
      · exact Sound.loop turns hattempt.1 hattempt.2
    · exact Sound.loop turns hstarted id

/-- **A dead display stack is handled the same way throughout.**  Take any succession of polling
threads, each with whatever windows, events, cancellations and outcomes.  A failed probe is
logged loudly exactly when the streak of failures since the last success has reached the
threshold and lasted long enough, or the last message of the streak is old enough.  Behind the
first attempt of a thread nothing is tried in a streak that has been logged; the hold path tries
at once what has recovered, unless it is stopped; and no window ends the thread inside a
streak. -/
theorem restore_polling_disciplined (config : Config) (runs : List (Start × List Turn)) :
    Disciplined config (Poll.initial.threads config runs).history := by
  have hinitial : Sound config Poll.initial := by
    refine ⟨?_, trivial⟩
    constructor <;> simp [Poll.initial, WedgeEscalation.reset, failing, louds, streak]
  have hruns : ∀ (runs : List (Start × List Turn)) (s : Poll), Sound config s → Settled s →
      Sound config (s.threads config runs) := by
    intro runs
    induction runs with
    | nil => exact fun _ hs _ => hs
    | cons run runs ih =>
        intro s hs hset
        have hthread := hs.thread hset run.1 run.2
        exact ih _ hthread.1 hthread.2
  exact (hruns runs _ hinitial id).disciplined

end LuminalShine.DisplayHelper.RestorePolling
