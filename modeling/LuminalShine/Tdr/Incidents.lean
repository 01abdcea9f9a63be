import LuminalShine.Lib.Run
import Mathlib

/-!
# Incidents of the display stack

`src/tdr_state.cpp`.  Every part that finds the graphics driver gone reports here.  Reports
that follow one another within five minutes are one incident; a report that the display stack
is down also latches a flag that refuses sessions until the stack is found healthy again, and
while it is set its readers have the platform probe look for that.

Readings of the steady clock are in nanoseconds.  The clock is monotonic: a call that reads it
earlier than the one before is no step.  The counters are 64 bits wide and count calls, so
they are natural numbers here.

## Main definitions

* `Tracker`, its `markEvent`, `markStackDown`, `stackDown` and `noteStackHealthy` — the source's.
* `Watch`, `step` — a tracker with what was reported to it, and when it probed.
* `Accounts` — the books are right: counts, openings, terminal incidents and probes.
* `Sound` — the calls that the tracker handles as it should.

## Main results

* `Books.step` — what holds after every call, whatever the clock said.
* `Books.accounts_step_iff` — one call keeps the accounts exactly when it is sound.
-/

namespace LuminalShine.Tdr

open LuminalShine.Lib

/-! ## The tracker -/

/-- `source_t`. -/
inductive Source
  | encoderD3d11
  | ddTestD3d11
  | virtualDisplayEnumerate
  | queryDisplayConfig
  | encoderStall
  | displayStackDown
  deriving DecidableEq, Repr

/-- `event_t`; its time is the wall clock's. -/
structure Event where
  time : ℤ
  source : Source
  hresult : ℤ
  detail : String
  deriving DecidableEq, Repr

/-- `incident_t`. -/
structure Incident where
  startedAt : ℤ
  lastAt : ℤ
  events : ℕ
  firstSource : Source
  lastSource : Source
  hresult : ℤ
  detail : String
  terminal : Bool
  deriving DecidableEq, Repr

/-- One nanosecond count per millisecond, second and minute. -/
def millisecond : ℕ := 1000000

def second : ℕ := 1000 * millisecond

def minute : ℕ := 60 * second

def incidentWindow : ℕ := 5 * minute

def logCooldown : ℕ := 30 * second

def notifyCooldown : ℕ := 2 * minute

def stackRecheckEvery : ℕ := 5 * second

/-- The globals of the file.  The steady clock's zero point says that there is no time yet. -/
structure Tracker where
  last : Option Event
  count : ℕ
  lastLogAt : ℕ
  lastNotifyAt : ℕ
  incident : Option Incident
  incidentLastSteady : ℕ
  incidentCount : ℕ
  stackDownLatch : Bool
  stackRecheck : Bool
  lastRecheckMs : ℕ
  deriving DecidableEq, Repr

/-- The incident an event opens, before the event is entered. -/
def Incident.fresh (e : Event) : Incident where
  startedAt := e.time
  lastAt := 0
  events := 0
  firstSource := e.source
  lastSource := e.source
  hresult := 0
  detail := ""
  terminal := false

/-- What `mark_event` writes to the incident it has folded into or opened. -/
def Incident.enter (i : Incident) (e : Event) : Incident :=
  { i with
    lastAt := e.time
    lastSource := e.source
    hresult := e.hresult
    detail := e.detail
    events := i.events + 1
    terminal := i.terminal || decide (e.source = .displayStackDown) }

/-- The condition `fold` of `mark_event`. -/
def Tracker.fold (t : Tracker) (now : ℕ) : Bool :=
  t.incident.isSome && decide (t.incidentLastSteady ≠ 0) &&
    decide (now - t.incidentLastSteady < incidentWindow)

/-- Whether a line or a toast is due again. -/
def cooledDown (last now cooldown : ℕ) : Bool :=
  decide (last = 0) || decide (cooldown ≤ now - last)

/-- What `mark_event` leaves behind and goes on to do. -/
structure Marked where
  tracker : Tracker
  shouldLog : Bool
  shouldNotify : Bool

/-- `mark_event`, at a reading of the steady clock. -/
def Tracker.markEvent (t : Tracker) (now : ℕ) (e : Event) : Marked :=
  let incident := if t.fold now then t.incident.getD (.fresh e) else .fresh e
  let shouldLog := cooledDown t.lastLogAt now logCooldown
  let shouldNotify := cooledDown t.lastNotifyAt now notifyCooldown
  { tracker :=
      { t with
        last := some e
        count := t.count + 1
        incident := some (incident.enter e)
        incidentCount := if t.fold now then t.incidentCount else t.incidentCount + 1
        incidentLastSteady := now
        lastLogAt := if shouldLog then now else t.lastLogAt
        lastNotifyAt := if shouldNotify then now else t.lastNotifyAt }
    shouldLog
    shouldNotify }

/-- The event `mark_stack_down` records. -/
def downEvent (time hresult : ℤ) (detail : String) : Event :=
  { time, source := .displayStackDown, hresult, detail }

/-- `mark_stack_down`. -/
def Tracker.markStackDown (t : Tracker) (now : ℕ) (time hresult : ℤ) (detail : String) : Marked :=
  { t with stackDownLatch := true }.markEvent now (downEvent time hresult detail)

/-- `note_stack_healthy`: it closes the incident, but only when it found the latch set. -/
def Tracker.noteStackHealthy (t : Tracker) : Tracker :=
  if t.stackDownLatch then
    { t with
      stackDownLatch := false
      incidentLastSteady := if t.incident.isSome then 0 else t.incidentLastSteady }
  else t

/-- What came of the platform probe. -/
inductive Answer
  | healthy
  | unhealthy
  | threw
  deriving DecidableEq, Repr

/-- What `stack_down` returns and leaves behind, and whether it ran the probe. -/
structure Check where
  down : Bool
  tracker : Tracker
  probed : Bool

/-- `stack_down`.  The interval is measured between readings cut to whole milliseconds. -/
def Tracker.stackDown (t : Tracker) (now : ℕ) (answer : Answer) : Check :=
  if !t.stackDownLatch then { down := false, tracker := t, probed := false }
  else if !t.stackRecheck then { down := true, tracker := t, probed := false }
  else if now / millisecond - t.lastRecheckMs < stackRecheckEvery / millisecond then
    { down := true, tracker := t, probed := false }
  else
    let t := { t with lastRecheckMs := now / millisecond }
    if answer = .healthy then { down := false, tracker := t.noteStackHealthy, probed := true }
    else { down := true, tracker := t, probed := true }

/-! ## Watching it -/

/-- An event with the reading it came at. -/
structure Report where
  now : ℕ
  event : Event
  deriving DecidableEq, Repr

/-- Whether a report opened an incident, and whether it had to. -/
structure Opening where
  opened : Bool
  due : Bool
  deriving DecidableEq, Repr

/-- A tracker, with all it was told (the latest first): the incidents it has replaced, the
events entered in each incident, whether the latest was closed by a healthy stack, and the
readings at which the probe ran. -/
structure Watch where
  tracker : Tracker
  clock : ℕ
  seen : List Report
  past : List Incident
  folded : List (List Event)
  closed : Bool
  openings : List Opening
  probes : List ℕ
  deriving DecidableEq, Repr

/-- The process as it starts. -/
def Watch.start : Watch where
  tracker :=
    { last := none, count := 0, lastLogAt := 0, lastNotifyAt := 0, incident := none,
      incidentLastSteady := 0, incidentCount := 0, stackDownLatch := false,
      stackRecheck := false, lastRecheckMs := 0 }
  clock := 0
  seen := []
  past := []
  folded := []
  closed := false
  openings := []
  probes := []

/-- Every incident there has been, the latest first. -/
def Watch.incidents (w : Watch) : List Incident := w.tracker.incident.toList ++ w.past

/-- Whether an event has to open an incident: there is none, the latest has been closed, or its
last event is too long ago. -/
def Watch.due (w : Watch) (now : ℕ) : Bool :=
  match w.seen with
  | [] => true
  | r :: _ => w.closed || decide (incidentWindow ≤ now - r.now)

/-- An event was entered and left the tracker `t`.  The count of incidents tells what became
of it. -/
def Watch.report (w : Watch) (now : ℕ) (e : Event) (t : Tracker) : Watch :=
  let opened := decide (t.incidentCount ≠ w.tracker.incidentCount)
  { w with
    tracker := t
    clock := now
    seen := ⟨now, e⟩ :: w.seen
    past := if opened then w.incidents else w.past
    folded := if opened then [e] :: w.folded else w.folded.modifyHead (e :: ·)
    closed := false
    openings := ⟨opened, w.due now⟩ :: w.openings }

inductive Call
  | markEvent (now : ℕ) (e : Event)
  | markStackDown (now : ℕ) (time hresult : ℤ) (detail : String)
  | noteStackHealthy
  | stackDown (now : ℕ) (answer : Answer)
  | setStackRecheck (installed : Bool)
  deriving DecidableEq, Repr

def step (w : Watch) : Call → Option Watch
  | .markEvent now e =>
      if w.clock ≤ now then some (w.report now e (w.tracker.markEvent now e).tracker) else none
  | .markStackDown now time hresult detail =>
      if w.clock ≤ now then
        some (w.report now (downEvent time hresult detail)
          (w.tracker.markStackDown now time hresult detail).tracker)
      else none
  | .noteStackHealthy =>
      some
        { w with
          tracker := w.tracker.noteStackHealthy
          closed := w.closed || w.tracker.stackDownLatch }
  | .stackDown now answer =>
      if w.clock ≤ now then
        let check := w.tracker.stackDown now answer
        some
          { w with
            tracker := check.tracker
            clock := now
            -- the latch is cleared by a healthy probe alone
            closed := w.closed || (w.tracker.stackDownLatch && !check.tracker.stackDownLatch)
            probes := if check.probed then now :: w.probes else w.probes }
      else none
  | .setStackRecheck installed =>
      some { w with tracker := { w.tracker with stackRecheck := installed } }

/-- An incident counts the events entered in it, and is terminal if one of them says that the
display stack is down. -/
structure Describes (i : Incident) (events : List Event) : Prop where
  events_eq : i.events = events.length
  terminal_iff : i.terminal = true ↔ ∃ e ∈ events, e.source = .displayStackDown

/-- The books are right. -/
structure Accounts (w : Watch) : Prop where
  /-- The incidents' counts add up to the number of events. -/
  total : (w.incidents.map Incident.events).sum = w.seen.length
  counted : w.tracker.count = w.seen.length
  /-- An incident was opened exactly when it had to be. -/
  opens : ∀ o ∈ w.openings, o.opened = o.due
  /-- Every event is in one incident, and the incidents describe their events. -/
  entered : w.folded.flatten = w.seen.map Report.event
  describes : List.Forall₂ Describes w.incidents w.folded
  /-- Two probes are five seconds apart. -/
  spaced : w.probes.Pairwise fun t u => u + stackRecheckEvery ≤ t

/-- The event is not told from one that has no time: the latest incident is open, its last
event came at the clock's zero point, and the window since then is not over. -/
def Watch.Timeless (w : Watch) (now : ℕ) : Prop :=
  ∃ r ∈ w.seen.head?, r.now = 0 ∧ w.closed = false ∧ now < incidentWindow

/-- The probe is due by whole milliseconds only: the reading is five thousand of them after the
last probe's, and less far into its own. -/
def Watch.Early (w : Watch) (now : ℕ) : Prop :=
  w.tracker.stackDownLatch = true ∧ w.tracker.stackRecheck = true ∧
    ∃ u ∈ w.probes.head?, now / millisecond = u / millisecond + stackRecheckEvery / millisecond ∧
      now % millisecond < u % millisecond

/-- The calls that the tracker handles as it should. -/
def Sound (w : Watch) : Call → Prop
  | .markEvent now _ => ¬w.Timeless now
  | .markStackDown now _ _ _ => ¬w.Timeless now
  | .noteStackHealthy => True
  | .stackDown now _ => ¬w.Early now
  | .setStackRecheck _ => True

instance decidableTimeless (w : Watch) (now : ℕ) : Decidable (w.Timeless now) :=
  inferInstanceAs (Decidable (∃ r ∈ w.seen.head?, r.now = 0 ∧ w.closed = false ∧
    now < incidentWindow))

instance decidableEarly (w : Watch) (now : ℕ) : Decidable (w.Early now) :=
  inferInstanceAs (Decidable (w.tracker.stackDownLatch = true ∧ w.tracker.stackRecheck = true ∧
    ∃ u ∈ w.probes.head?, now / millisecond = u / millisecond + stackRecheckEvery / millisecond ∧
      now % millisecond < u % millisecond))

instance decidableSound (w : Watch) : ∀ call, Decidable (Sound w call)
  | .markEvent now _ => inferInstanceAs (Decidable ¬w.Timeless now)
  | .markStackDown now _ _ _ => inferInstanceAs (Decidable ¬w.Timeless now)
  | .noteStackHealthy => isTrue trivial
  | .stackDown now _ => inferInstanceAs (Decidable ¬w.Early now)
  | .setStackRecheck _ => isTrue trivial

/-! ## What every call leaves true -/

variable {w w' : Watch} {now : ℕ} {e : Event}

theorem Describes.fresh (e : Event) : Describes ((Incident.fresh e).enter e) [e] where
  events_eq := rfl
  terminal_iff := by simp [Incident.enter, Incident.fresh]

theorem Describes.enter {i : Incident} {events : List Event} (h : Describes i events)
    (e : Event) : Describes (i.enter e) (e :: events) where
  events_eq := by simp [Incident.enter, h.events_eq]
  terminal_iff := by simp [Incident.enter, h.terminal_iff, or_comm]

/-- Counts that are each right add up. -/
theorem sum_events {incidents : List Incident} {folded : List (List Event)}
    (h : List.Forall₂ Describes incidents folded) :
    (incidents.map Incident.events).sum = folded.flatten.length := by
  induction h with
  | nil => rfl
  | cons hi _ ih => simp [hi.events_eq, ih]

/-- What holds after every call: the books of the incidents, and what the tracker still knows of
the latest event and the last probe. -/
structure Books (w : Watch) : Prop where
  describes : List.Forall₂ Describes w.incidents w.folded
  entered : w.folded.flatten = w.seen.map Report.event
  counted : w.tracker.count = w.seen.length
  standing : w.tracker.incident.isSome = true ↔ w.seen ≠ []
  steady : ∀ r ∈ w.seen.head?, w.tracker.incidentLastSteady = if w.closed then 0 else r.now
  latched : w.tracker.stackDownLatch = true → w.seen ≠ []
  recheck : ∀ u ∈ w.probes.head?, w.tracker.lastRecheckMs = u / millisecond

theorem Books.total (h : Books w) :
    (w.incidents.map Incident.events).sum = w.seen.length := by
  rw [sum_events h.describes, h.entered, List.length_map]

/-- An event is entered by a tracker whose latch has been set to `latch`. -/
def Watch.told (w : Watch) (latch : Bool) (now : ℕ) (e : Event) : Watch :=
  w.report now e ({ w.tracker with stackDownLatch := latch }.markEvent now e).tracker

/-- Setting the latch has no part in whether an event is folded. -/
theorem Tracker.fold_latch (t : Tracker) (latch : Bool) (now : ℕ) :
    { t with stackDownLatch := latch }.fold now = t.fold now := rfl

theorem Watch.openings_told (latch : Bool) :
    (w.told latch now e).openings = ⟨!w.tracker.fold now, w.due now⟩ :: w.openings := by
  cases hfold : w.tracker.fold now <;>
    simp [Watch.told, Watch.report, Tracker.markEvent, Tracker.fold_latch, hfold]

/-- A folded event is entered in the latest incident. -/
theorem Watch.told_of_fold (latch : Bool) (hfold : w.tracker.fold now = true) :
    (w.told latch now e).incidents =
        (w.tracker.incident.getD (.fresh e)).enter e :: w.past ∧
      (w.told latch now e).folded = w.folded.modifyHead (e :: ·) := by
  simp [Watch.told, Watch.report, Watch.incidents, Tracker.markEvent, Tracker.fold_latch, hfold]

/-- Any other event is entered in an incident of its own. -/
theorem Watch.told_of_not_fold (latch : Bool) (hfold : w.tracker.fold now = false) :
    (w.told latch now e).incidents = (Incident.fresh e).enter e :: w.incidents ∧
      (w.told latch now e).folded = [e] :: w.folded := by
  simp [Watch.told, Watch.report, Watch.incidents, Tracker.markEvent, Tracker.fold_latch, hfold]

theorem Books.told (h : Books w) (latch : Bool) (now : ℕ) (e : Event) :
    Books (w.told latch now e) := by
  have hbooks : List.Forall₂ Describes (w.told latch now e).incidents (w.told latch now e).folded ∧
      (w.told latch now e).folded.flatten = e :: w.seen.map Report.event := by
    cases hfold : w.tracker.fold now with
    | false =>
        obtain ⟨hincidents, hfolded⟩ := Watch.told_of_not_fold (e := e) latch hfold
        rw [hincidents, hfolded]
        exact ⟨.cons (.fresh e) h.describes, by simp [h.entered]⟩
    | true =>
        have hsome : w.tracker.incident.isSome = true := by
          simp only [Tracker.fold, Bool.and_eq_true] at hfold
          exact hfold.1.1
        obtain ⟨i, hi⟩ := Option.isSome_iff_exists.mp hsome
        obtain ⟨hincidents, hfolded⟩ := Watch.told_of_fold (e := e) latch hfold
        rw [hi, Option.getD_some] at hincidents
        have hdescribes := h.describes
        have hentered := h.entered
        simp only [Watch.incidents, hi, Option.toList_some, List.singleton_append] at hdescribes
        cases hold : w.folded with
        | nil => simp [hold] at hdescribes
        | cons events rest =>
            rw [hold] at hdescribes hentered hfolded
            rw [List.forall₂_cons] at hdescribes
            rw [hincidents, hfolded, ← hentered]
            exact ⟨.cons (hdescribes.1.enter e) hdescribes.2, rfl⟩
  exact
    { describes := hbooks.1
      entered := hbooks.2
      counted := congrArg (· + 1) h.counted
      standing := by simp [Watch.told, Watch.report, Tracker.markEvent]
      steady := by simp [Watch.told, Watch.report, Tracker.markEvent]
      latched := by simp [Watch.told, Watch.report]
      recheck := h.recheck }

/-- The tracker folds an event exactly when it should and can tell that it should. -/
theorem Books.fold_iff (h : Books w) (now : ℕ) :
    w.tracker.fold now = true ↔ w.due now = false ∧ ¬w.Timeless now := by
  cases hseen : w.seen with
  | nil =>
      have hnone : w.tracker.incident.isSome ≠ true := by simp [h.standing, hseen]
      simp [Tracker.fold, Watch.due, hseen, hnone]
  | cons r rest =>
      have hsome : w.tracker.incident.isSome = true := by simp [h.standing, hseen]
      have hsteady := h.steady r (by simp [hseen])
      cases hclosed : w.closed with
      | true => simp [Tracker.fold, Watch.due, hseen, hsteady, hclosed]
      | false =>
          simp only [hclosed, Bool.false_eq_true, if_false] at hsteady
          simp [Tracker.fold, Watch.due, Watch.Timeless, hseen, hsome, hsteady, hclosed]
          omega

/-- The tracker when the stack has been found healthy: the latch is clear, and the incident of a
latched tracker is closed. -/
theorem Books.healthy (h : Books w) :
    Books
      { w with
        tracker := w.tracker.noteStackHealthy
        closed := w.closed || w.tracker.stackDownLatch } := by
  cases hlatch : w.tracker.stackDownLatch with
  | false => simpa [Tracker.noteStackHealthy, hlatch] using h
  | true =>
      have hsome : w.tracker.incident.isSome = true := h.standing.mpr (h.latched hlatch)
      simp only [Tracker.noteStackHealthy, hlatch, hsome, if_true, Bool.or_true]
      exact
        { describes := h.describes
          entered := h.entered
          counted := h.counted
          standing := h.standing
          steady := by simp
          latched := by simp
          recheck := h.recheck }

/-- The clock and the installed probe have no part in the books. -/
theorem Books.congr (h : Books w) (clock : ℕ) (installed : Bool) :
    Books { w with clock, tracker := { w.tracker with stackRecheck := installed } } :=
  { describes := h.describes
    entered := h.entered
    counted := h.counted
    standing := h.standing
    steady := h.steady
    latched := h.latched
    recheck := h.recheck }

/-- The probe ran: the tracker keeps the millisecond. -/
theorem Books.probed (h : Books w) (now : ℕ) :
    Books
      { w with
        tracker := { w.tracker with lastRecheckMs := now / millisecond }
        clock := now
        probes := now :: w.probes } :=
  { describes := h.describes
    entered := h.entered
    counted := h.counted
    standing := h.standing
    steady := h.steady
    latched := h.latched
    recheck := by simp }

/-- `stack_down` runs the probe on a latched tracker that has one, when the interval is over by
whole milliseconds. -/
theorem Tracker.probed_iff (t : Tracker) (now : ℕ) (answer : Answer) :
    (t.stackDown now answer).probed = true ↔
      t.stackDownLatch = true ∧ t.stackRecheck = true ∧
        t.lastRecheckMs + stackRecheckEvery / millisecond ≤ now / millisecond := by
  have hinterval : 0 < stackRecheckEvery / millisecond := by decide
  cases hlatch : t.stackDownLatch with
  | false => simp [Tracker.stackDown, hlatch]
  | true =>
      cases hrecheck : t.stackRecheck with
      | false => simp [Tracker.stackDown, hlatch, hrecheck]
      | true =>
          have hdue : now / millisecond - t.lastRecheckMs < stackRecheckEvery / millisecond ↔
              ¬t.lastRecheckMs + stackRecheckEvery / millisecond ≤ now / millisecond := by omega
          by_cases hover : t.lastRecheckMs + stackRecheckEvery / millisecond ≤ now / millisecond
          · by_cases hanswer : answer = .healthy <;>
              simp [Tracker.stackDown, hlatch, hrecheck, hdue, hover, hanswer]
          · simp [Tracker.stackDown, hlatch, hrecheck, hdue, hover]

/-- Without a probe `stack_down` changes nothing. -/
theorem Tracker.stackDown_of_not_probed {t : Tracker} {answer : Answer}
    (h : (t.stackDown now answer).probed = false) : (t.stackDown now answer).tracker = t := by
  revert h
  simp only [Tracker.stackDown]
  split_ifs <;> simp

/-- With one it keeps the millisecond, and notes a healthy stack. -/
theorem Tracker.stackDown_of_probed {t : Tracker} {answer : Answer}
    (h : (t.stackDown now answer).probed = true) :
    (t.stackDown now answer).tracker =
      if answer = .healthy then { t with lastRecheckMs := now / millisecond }.noteStackHealthy
      else { t with lastRecheckMs := now / millisecond } := by
  revert h
  simp only [Tracker.stackDown]
  split_ifs <;> simp

/-- A tracker that notes a healthy stack is not latched. -/
theorem Tracker.latch_noteStackHealthy (t : Tracker) :
    t.noteStackHealthy.stackDownLatch = false := by
  cases hlatch : t.stackDownLatch <;> simp [Tracker.noteStackHealthy, hlatch]

theorem Books.checked (h : Books w) (now : ℕ) (answer : Answer) :
    Books
      { w with
        tracker := (w.tracker.stackDown now answer).tracker
        clock := now
        closed := w.closed ||
          (w.tracker.stackDownLatch && !(w.tracker.stackDown now answer).tracker.stackDownLatch)
        probes := if (w.tracker.stackDown now answer).probed then now :: w.probes
          else w.probes } := by
  cases hprobed : (w.tracker.stackDown now answer).probed with
  | false =>
      rw [Tracker.stackDown_of_not_probed hprobed]
      simpa using h.congr now w.tracker.stackRecheck
  | true =>
      have hlatch := ((w.tracker.probed_iff now answer).mp hprobed).1
      have hafter := h.probed now
      rw [Tracker.stackDown_of_probed hprobed]
      by_cases hanswer : answer = .healthy
      · simpa [hanswer, Tracker.latch_noteStackHealthy] using hafter.healthy
      · simpa [hanswer, hlatch] using hafter

/-- **One call keeps the books.** -/
theorem Books.step {call : Call} (h : Books w) (hstep : step w call = some w') : Books w' := by
  cases call with
  | markEvent now e =>
      obtain ⟨-, rfl⟩ := guarded_eq_some.mp hstep
      exact h.told w.tracker.stackDownLatch now e
  | markStackDown now time hresult detail =>
      obtain ⟨-, rfl⟩ := guarded_eq_some.mp hstep
      exact h.told true now (downEvent time hresult detail)
  | noteStackHealthy =>
      obtain rfl := Option.some.inj hstep
      exact h.healthy
  | stackDown now answer =>
      obtain ⟨-, rfl⟩ := guarded_eq_some.mp hstep
      exact h.checked now answer
  | setStackRecheck installed =>
      obtain rfl := Option.some.inj hstep
      exact h.congr w.clock installed

theorem Books.start : Books Watch.start where
  describes := .nil
  entered := rfl
  counted := rfl
  standing := by simp [Watch.start]
  steady := by simp [Watch.start]
  latched := by simp [Watch.start]
  recheck := by simp [Watch.start]

/-! ## Openings and probes -/

/-- What is left of the accounts once the books are kept. -/
theorem Books.accounts_iff (h : Books w) :
    Accounts w ↔ (∀ o ∈ w.openings, o.opened = o.due) ∧
      w.probes.Pairwise fun t u => u + stackRecheckEvery ≤ t :=
  ⟨fun ha => ⟨ha.opens, ha.spaced⟩, fun ha =>
    { total := h.total
      counted := h.counted
      opens := ha.1
      entered := h.entered
      describes := h.describes
      spaced := ha.2 }⟩

/-- An event with no time is never one that has to open an incident. -/
theorem Watch.not_timeless_of_due (hdue : w.due now = true) : ¬w.Timeless now := by
  rintro ⟨r, hr, hzero, hclosed, hnow⟩
  cases hseen : w.seen with
  | nil => simp [hseen] at hr
  | cons r' rest =>
      obtain rfl : r' = r := by simpa [hseen] using hr
      simp [Watch.due, hseen, hclosed, hzero] at hdue
      omega

/-- An incident is opened exactly when it has to be, unless the event seems to have no time. -/
theorem Books.opening_iff (h : Books w) (now : ℕ) :
    (!w.tracker.fold now) = w.due now ↔ ¬w.Timeless now := by
  have hfold := h.fold_iff now
  cases hdue : w.due now with
  | true =>
      simp only [hdue, Bool.true_eq_false, false_and, iff_false, Bool.not_eq_true] at hfold
      simp [hfold, Watch.not_timeless_of_due hdue]
  | false =>
      simp only [hdue, true_and] at hfold
      simp [hfold]

/-- Millisecond readings hide less than one millisecond. -/
theorem Books.early_iff (h : Books w) (now : ℕ) (answer : Answer) :
    w.Early now ↔ (w.tracker.stackDown now answer).probed = true ∧
      ∃ u ∈ w.probes.head?, now < u + stackRecheckEvery := by
  rw [Tracker.probed_iff]
  constructor
  · rintro ⟨hlatch, hrecheck, u, hu, hnow, hrest⟩
    refine ⟨⟨hlatch, hrecheck, ?_⟩, u, hu, ?_⟩
    · rw [h.recheck u hu]
      exact Nat.le_of_eq hnow.symm
    · simp only [stackRecheckEvery, second, millisecond] at *
      omega
  · rintro ⟨⟨hlatch, hrecheck, hdue⟩, u, hu, hnow⟩
    rw [h.recheck u hu] at hdue
    refine ⟨hlatch, hrecheck, u, hu, ?_⟩
    simp only [stackRecheckEvery, second, millisecond] at *
    omega

/-- A further probe keeps the distance when it is far enough from the last one. -/
theorem spaced_cons_iff {probes : List ℕ} (interval : ℕ)
    (h : probes.Pairwise fun t u => u + interval ≤ t) :
    (∀ u ∈ probes, u + interval ≤ now) ↔ ¬∃ u ∈ probes.head?, now < u + interval := by
  cases probes with
  | nil => simp
  | cons u rest =>
      have hrest := (List.pairwise_cons.mp h).1
      constructor
      · intro hall
        have hu := hall u List.mem_cons_self
        simp [hu]
      · intro hhead v hv
        have hu : u + interval ≤ now := by simpa using hhead
        rcases List.mem_cons.mp hv with rfl | hv
        · exact hu
        · have := hrest v hv
          omega

theorem Books.accounts_told_iff (h : Books w) (latch : Bool) (now : ℕ) (e : Event) :
    Accounts (w.told latch now e) ↔ Accounts w ∧ ¬w.Timeless now := by
  rw [(h.told latch now e).accounts_iff, h.accounts_iff, Watch.openings_told,
    List.forall_mem_cons, ← h.opening_iff now]
  exact ⟨fun hall => ⟨⟨hall.1.2, hall.2⟩, hall.1.1⟩, fun hall => ⟨⟨hall.2, hall.1.1⟩, hall.1.2⟩⟩

theorem Books.accounts_checked_iff (h : Books w) (now : ℕ) (answer : Answer)
    (hstep : Tdr.step w (.stackDown now answer) = some w') :
    Accounts w' ↔ Accounts w ∧ ¬w.Early now := by
  have hbooks := h.step hstep
  obtain ⟨-, rfl⟩ := guarded_eq_some.mp hstep
  rw [hbooks.accounts_iff, h.accounts_iff, h.early_iff now answer]
  cases hprobed : (w.tracker.stackDown now answer).probed with
  | false => simp
  | true =>
      simp only [if_true, true_and, List.pairwise_cons, and_assoc]
      refine and_congr_right fun _ => ?_
      constructor
      · rintro ⟨hall, hspaced⟩
        exact ⟨hspaced, (spaced_cons_iff stackRecheckEvery hspaced).mp hall⟩
      · rintro ⟨hspaced, hlast⟩
        exact ⟨(spaced_cons_iff stackRecheckEvery hspaced).mpr hlast, hspaced⟩

/-- **One call keeps the accounts exactly when it is sound.** -/
theorem Books.accounts_step_iff {call : Call} (h : Books w) (hstep : Tdr.step w call = some w') :
    Accounts w' ↔ Accounts w ∧ Sound w call := by
  cases call with
  | markEvent now e =>
      obtain ⟨-, rfl⟩ := guarded_eq_some.mp hstep
      exact h.accounts_told_iff w.tracker.stackDownLatch now e
  | markStackDown now time hresult detail =>
      obtain ⟨-, rfl⟩ := guarded_eq_some.mp hstep
      exact h.accounts_told_iff true now (downEvent time hresult detail)
  | noteStackHealthy =>
      have hbooks := h.step hstep
      obtain rfl := Option.some.inj hstep
      simp [hbooks.accounts_iff, h.accounts_iff, Sound]
  | stackDown now answer => exact h.accounts_checked_iff now answer hstep
  | setStackRecheck installed =>
      have hbooks := h.step hstep
      obtain rfl := Option.some.inj hstep
      simp [hbooks.accounts_iff, h.accounts_iff, Sound]

/-! ## Runs -/

/-- **The exact condition.**  The accounts are right all along a run exactly when no event comes
within five minutes of an event at the clock's zero point whose incident is still open, and no
probe is due by whole milliseconds only. -/
theorem accounting_iff {calls : List Call} (hrun : run step Watch.start calls = some w) :
    Always step Accounts Watch.start calls ↔ RunMeets step Sound Watch.start calls := by
  have hstart : Books Watch.start ∧ Accounts Watch.start :=
    ⟨.start, Books.start.accounts_iff.mpr (by simp [Watch.start])⟩
  refine always_iff_runMeets (fun w (h : Books w ∧ Accounts w) => h.2) ?_ ?_ hstart hrun
  · rintro w call w' ⟨hbooks, haccounts⟩ hsound hstep
    exact ⟨hbooks.step hstep, (hbooks.accounts_step_iff hstep).mpr ⟨haccounts, hsound⟩⟩
  · rintro w call w' ⟨hbooks, -⟩ hunsound hstep haccounts
    exact hunsound ((hbooks.accounts_step_iff hstep).mp haccounts).2

/-- The stack goes down and comes back, and goes down again. -/
def recovery : List Call :=
  [.setStackRecheck true, .markStackDown (6 * second) 0 (-2005270524) "no paths",
    .stackDown (10 * second) .unhealthy, .stackDown (15 * second) .healthy,
    .markEvent (20 * second) ⟨14, .encoderStall, 0, "encode wait timeout"⟩]

theorem accounting_recovery : Always step Accounts Watch.start recovery := by
  obtain ⟨w, hrun⟩ : ∃ w, run step Watch.start recovery = some w :=
    Option.isSome_iff_exists.mp (by decide)
  exact (accounting_iff hrun).mpr (by decide)

/-- Two readers find the latch set 4.9990001 seconds apart, and each runs the probe. -/
def hurried : List Call :=
  [.setStackRecheck true, .markStackDown (6 * second) 0 (-2005270524) "no paths",
    .stackDown (10 * second + 999900) .unhealthy, .stackDown (15 * second) .unhealthy]

theorem hurried_probes : ∃ w, run step Watch.start hurried = some w ∧ ¬Accounts w := by
  obtain ⟨w, hrun, hprobes⟩ : ∃ w, run step Watch.start hurried = some w ∧
      w.probes = [15 * second, 10 * second + 999900] := ⟨_, rfl, rfl⟩
  refine ⟨w, hrun, fun h => ?_⟩
  have hspaced := h.spaced
  rw [hprobes, List.pairwise_cons] at hspaced
  exact absurd (hspaced.1 _ List.mem_cons_self) (by decide)

end LuminalShine.Tdr
