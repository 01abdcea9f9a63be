import LuminalShine.Lib.Recent
import LuminalShine.Lib.Run
import Mathlib

/-!
# The cursor visibility filter

`src/platform/windows/cursor_visibility_filter.h`.  The filter passes the visibility of the
cursor on as it is reported until too many hide transitions fall into one window; then it
holds the cursor visible until the reports have not changed for a while.

The filter keeps the last eight hide transitions in a ring and sets only its count to zero
when a hold ends.  The rules it follows are stated here over the history of all its calls,
where nothing is forgotten.

Time points are nanosecond counts of the steady clock, settings are in milliseconds.

## Main definitions

* `Filter`, `apply`, `tick` — the filter.
* `Session`, `step` — calls at times that do not decrease, with their history.
* `hidesSinceHold`, `unchangedSince`, `Follows` — the rules.

## Main results

* `visibility_run` — every run follows the rules, and the ring has the true hides.
-/

namespace LuminalShine.Cursor

open LuminalShine.Lib

/-! ## The filter -/

structure Config where
  flapWindow : ℤ := 3000
  flapThreshold : ℤ := 3
  settleTime : ℤ := 2000
  statsInterval : ℤ := 30000
  deriving DecidableEq, Repr

inductive EventKind
  | holdStarted
  | holdEnded
  deriving DecidableEq, Repr

structure Event where
  kind : EventKind
  hideCount : ℤ
  span : ℤ
  deriving DecidableEq, Repr

structure Stats where
  transitions : ℕ
  minGap : ℤ
  interval : ℤ
  deriving DecidableEq, Repr

/-- Milliseconds in the ticks of the clock. -/
def ofMs (ms : ℤ) : ℤ := ms * 1000000

/-- `duration_cast<milliseconds>`, which rounds toward zero. -/
def toMs (ticks : ℤ) : ℤ := ticks.tdiv 1000000

/-- `cursor_visibility_filter_t`, without its configuration. -/
structure Filter where
  lastReported : Option Bool := none
  lastTransitionAt : ℤ := 0
  hides : Vector ℤ 8 := Vector.replicate 8 0
  hideHead : Fin 8 := 0
  hideCount : ℕ := 0
  holding : Bool := false
  holdStartedAt : ℤ := 0
  hidesDuringHold : ℕ := 0
  holdsStarted : ℕ := 0
  event : Option Event := none
  transitionCount : ℕ := 0
  statsWindowStarted : ℤ := 0
  statsTransitions : ℕ := 0
  statsMinGap : Option ℤ := none
  stats : Option Stats := none
  deriving DecidableEq, Repr

/-- `threshold`: the setting, clamped to what the ring can hold. -/
def Config.threshold (cfg : Config) : ℕ := (max 2 (min cfg.flapThreshold 8)).toNat

theorem Config.threshold_bounds (cfg : Config) : 2 ≤ cfg.threshold ∧ cfg.threshold ≤ 8 := by
  simp only [Config.threshold]
  omega

namespace Filter

def pushHide (at_ : ℤ) (s : Filter) : Filter :=
  { s with
    hides := s.hides.set s.hideHead at_ s.hideHead.isLt
    hideHead := nextSlot s.hideHead
    hideCount := min (s.hideCount + 1) 8 }

def nthMostRecentHide (s : Filter) (n : ℕ) : ℤ := lookBack s.hides s.hideHead n

/-- The gap to the transition before, if there was one. -/
def noteGap (now : ℤ) (s : Filter) : Filter :=
  if 0 < s.transitionCount then
    let gap := toMs (now - s.lastTransitionAt)
    { s with statsMinGap := some (match s.statsMinGap with
      | some least => min least gap
      | none => gap) }
  else s

def countHide (s : Filter) : Filter :=
  if s.holding then { s with hidesDuringHold := s.hidesDuringHold + 1 } else s

/-- The report differs from the one before. -/
def changes (reported : Bool) (s : Filter) : Bool := s.lastReported == some !reported

/-- The first part of `apply`: a change of the report. -/
def noteReport (reported : Bool) (now : ℤ) (s : Filter) : Filter :=
  if s.changes reported then
    let s := s.noteGap now
    let s := { s with
      transitionCount := s.transitionCount + 1
      statsTransitions := s.statsTransitions + 1
      lastTransitionAt := now
      lastReported := some reported }
    if !reported then (s.pushHide now).countHide else s
  else { s with lastReported := some reported }

/-- The second part: a hold starts or ends. -/
def judge (cfg : Config) (now : ℤ) (s : Filter) : Filter :=
  if !s.holding then
    let n := cfg.threshold
    if n ≤ s.hideCount then
      let oldest := s.nthMostRecentHide n
      if now - oldest ≤ ofMs cfg.flapWindow then
        { s with
          holding := true
          holdsStarted := s.holdsStarted + 1
          holdStartedAt := now
          -- the hide that tripped the threshold is suppressed too
          hidesDuringHold := 1
          event := some ⟨.holdStarted, n, toMs (now - oldest)⟩ }
      else s
    else s
  else if ofMs cfg.settleTime ≤ now - s.lastTransitionAt then
    { s with
      holding := false
      event := some ⟨.holdEnded, s.hidesDuringHold, toMs (now - s.holdStartedAt)⟩
      hideCount := 0
      hidesDuringHold := 0 }
  else s

def rollStats (cfg : Config) (now : ℤ) (s : Filter) : Filter :=
  if s.statsWindowStarted = 0 then { s with statsWindowStarted := now }
  else
    let elapsed := now - s.statsWindowStarted
    if elapsed < ofMs cfg.statsInterval then s
    else
      { s with
        stats := if 0 < s.statsTransitions then
            some ⟨s.statsTransitions, s.statsMinGap.getD 0, toMs elapsed⟩
          else s.stats
        statsTransitions := 0
        statsMinGap := none
        statsWindowStarted := now }

/-- `apply`: the visibility for the frame, and the filter after the call. -/
def apply (cfg : Config) (reported : Bool) (now : ℤ) (s : Filter) : Bool × Filter :=
  let s := ((s.noteReport reported now).judge cfg now).rollStats cfg now
  (if s.holding then true else reported, s)

def tick (cfg : Config) (now : ℤ) (s : Filter) : Option Bool × Filter :=
  match s.lastReported with
  | none => (none, s)
  | some reported =>
      let (visible, s) := s.apply cfg reported now
      (some visible, s)

def takeEvent (s : Filter) : Option Event × Filter := (s.event, { s with event := none })

def takeStats (s : Filter) : Option Stats × Filter := (s.stats, { s with stats := none })

end Filter

/-! ## Sessions -/

/-- One answered call: what was reported last, when it was asked, the answer, and whether a
hold was on after it. -/
structure Entry where
  reported : Bool
  now : ℤ
  visible : Bool
  holding : Bool
  deriving DecidableEq, Repr

/-- The filter, the time of the last call, and the answered calls, newest first. -/
structure Session where
  filter : Filter := {}
  clock : Option ℤ := none
  history : List Entry := []
  deriving DecidableEq, Repr

inductive Call
  | report (visible : Bool) (now : ℤ)
  | tick (now : ℤ)
  | takeEvent
  | takeStats
  deriving DecidableEq, Repr

namespace Session

/-- After a call at `now`. -/
def record (now : ℤ) (answer : Option Bool) (filter : Filter) (s : Session) : Session where
  filter := filter
  clock := some now
  history := match filter.lastReported, answer with
    | some reported, some visible => ⟨reported, now, visible, filter.holding⟩ :: s.history
    | _, _ => s.history

/-- The clock is monotone. -/
def notBefore (now : ℤ) (s : Session) : Bool := s.clock.all (· ≤ now)

end Session

def step (cfg : Config) (s : Session) : Call → Option Session
  | .report visible now =>
      let (answer, filter) := s.filter.apply cfg visible now
      if s.notBefore now then some (s.record now (some answer) filter) else none
  | .tick now =>
      let (answer, filter) := s.filter.tick cfg now
      if s.notBefore now then some (s.record now answer filter) else none
  | .takeEvent => some { s with filter := s.filter.takeEvent.2 }
  | .takeStats => some { s with filter := s.filter.takeStats.2 }

/-! ## The rules -/

/-- The report of the newest entry. -/
def lastReport (history : List Entry) : Option Bool := history.head?.map (·.reported)

def holdingAfter (history : List Entry) : Bool := (history.head?.map (·.holding)).getD false

/-- The entry is a transition from visible to hidden. -/
def isHide (e : Entry) (before : List Entry) : Bool :=
  !e.reported && (lastReport before == some true)

/-- The times of the hide transitions since the last hold ended, newest first. -/
def hidesSinceHold : List Entry → List ℤ
  | [] => []
  | e :: before =>
      if holdingAfter before && !e.holding then []
      else if isHide e before then e.now :: hidesSinceHold before
      else hidesSinceHold before

/-- Since when the report has been what it is. -/
def unchangedSince : List Entry → ℤ
  | [] => 0
  | e :: before => if lastReport before = some e.reported then unchangedSince before else e.now

/-- The number of hide transitions since the last hold ended that lie in the window before
`now`. -/
def inWindow (cfg : Config) (now : ℤ) (hides : List ℤ) : ℕ :=
  hides.countP fun t => decide (now - t ≤ ofMs cfg.flapWindow)

/-- What one answered call owes to the history before it. -/
structure Right (cfg : Config) (e : Entry) (before : List Entry) : Prop where
  starts : holdingAfter before = false →
    (e.holding = true ↔ isHide e before = true ∧
      inWindow cfg e.now (e.now :: hidesSinceHold before) = cfg.threshold)
  ends : holdingAfter before = true →
    (e.holding = false ↔ ofMs cfg.settleTime ≤ e.now - unchangedSince (e :: before))
  visible : e.visible = if e.holding then true else e.reported

/-- Every call of the history. -/
def Follows (cfg : Config) : List Entry → Prop
  | [] => True
  | e :: before => Right cfg e before ∧ Follows cfg before

/-- The ring has the hides since the last hold ended, as many as fit. -/
def RingTrue (s : Session) : Prop :=
  s.filter.hideCount = min (hidesSinceHold s.history).length 8 ∧
    ∀ n, 1 ≤ n → n ≤ s.filter.hideCount →
      (hidesSinceHold s.history)[n - 1]? = some (s.filter.nthMostRecentHide n)

/-! ## The parts of a call -/

namespace Filter

variable (cfg : Config) (reported : Bool) (now : ℤ) (s : Filter)

theorem noteGap_eq : ∃ gap, s.noteGap now = { s with statsMinGap := gap } := by
  unfold noteGap
  split
  · exact ⟨_, rfl⟩
  · exact ⟨s.statsMinGap, rfl⟩

theorem countHide_eq : ∃ count, s.countHide = { s with hidesDuringHold := count } := by
  unfold countHide
  split
  · exact ⟨_, rfl⟩
  · exact ⟨s.hidesDuringHold, rfl⟩

theorem rollStats_eq : ∃ started transitions gap stats, s.rollStats cfg now =
    { s with
      statsWindowStarted := started
      statsTransitions := transitions
      statsMinGap := gap
      stats := stats } := by
  simp only [rollStats]
  split
  · exact ⟨now, s.statsTransitions, s.statsMinGap, s.stats, rfl⟩
  · split
    · exact ⟨s.statsWindowStarted, s.statsTransitions, s.statsMinGap, s.stats, rfl⟩
    · exact ⟨now, 0, none, _, rfl⟩

/-- What the first part leaves for the second. -/
structure Noted (hides : List ℤ) (s' : Filter) : Prop where
  lastReported : s'.lastReported = some reported
  holding : s'.holding = s.holding
  lastTransitionAt : s'.lastTransitionAt = if s.changes reported then now else s.lastTransitionAt
  ring : Recent s'.hides s'.hideHead s'.hideCount
    (if s.changes reported && !reported then now :: hides else hides)

variable {s} in
theorem noteReport_noted {hides : List ℤ} (h : Recent s.hides s.hideHead s.hideCount hides) :
    Noted reported now s hides (s.noteReport reported now) := by
  unfold noteReport
  split
  case isFalse hsame => exact ⟨rfl, rfl, by simp [hsame], by simpa [hsame] using h⟩
  case isTrue hchanges =>
      obtain ⟨gap, hgap⟩ := noteGap_eq now s
      simp only [hgap]
      cases reported with
      | true => exact ⟨rfl, rfl, by simp [hchanges], by simpa [hchanges] using h⟩
      | false =>
          simp only [Bool.not_false, if_true]
          obtain ⟨count, hcount⟩ := countHide_eq (pushHide now
            { s with
              statsMinGap := gap
              transitionCount := s.transitionCount + 1
              statsTransitions := s.statsTransitions + 1
              lastTransitionAt := now
              lastReported := some false })
          rw [hcount]
          exact ⟨rfl, rfl, by simp [hchanges, pushHide],
            by simpa [hchanges, pushHide] using h.push now⟩

/-- The `n`-th most recent hide lies in the window. -/
def Trips : Prop :=
  cfg.threshold ≤ s.hideCount ∧
    now - s.nthMostRecentHide cfg.threshold ≤ ofMs cfg.flapWindow

/-- What the second part does. -/
theorem judge_cases :
    (s.holding = false ∧ s.Trips cfg now ∧ ∃ started at_ count event, s.judge cfg now =
      { s with
        holding := true
        holdsStarted := started
        holdStartedAt := at_
        hidesDuringHold := count
        event := event }) ∨
    (s.holding = false ∧ ¬ s.Trips cfg now ∧ s.judge cfg now = s) ∨
    (s.holding = true ∧ ofMs cfg.settleTime ≤ now - s.lastTransitionAt ∧ ∃ event,
      s.judge cfg now =
        { s with holding := false, event := event, hideCount := 0, hidesDuringHold := 0 }) ∨
    (s.holding = true ∧ ¬ ofMs cfg.settleTime ≤ now - s.lastTransitionAt ∧
      s.judge cfg now = s) := by
  simp only [judge, Trips]
  cases hholding : s.holding with
  | false =>
      simp only [Bool.not_false, if_true]
      split
      · split
        · case isTrue.isTrue hcount hwindow =>
            exact Or.inl ⟨trivial, ⟨hcount, hwindow⟩, _, _, _, _, rfl⟩
        · case isTrue.isFalse hcount hwindow =>
            exact Or.inr (Or.inl ⟨trivial, fun h => hwindow h.2, rfl⟩)
      · case isFalse hcount => exact Or.inr (Or.inl ⟨trivial, fun h => hcount h.1, rfl⟩)
  | true =>
      simp only [Bool.not_true, Bool.false_eq_true, if_false]
      split
      · case isTrue hsettled => exact Or.inr (Or.inr (Or.inl ⟨trivial, hsettled, _, rfl⟩))
      · case isFalse hmoving => exact Or.inr (Or.inr (Or.inr ⟨trivial, hmoving, rfl⟩))

end Filter

/-! ## The invariant -/

section Invariant

variable {cfg : Config} {s : Filter} {history : List Entry} {now : ℤ} {hides : List ℤ}

theorem inWindow_eq (cfg : Config) (now : ℤ) (hides : List ℤ) :
    inWindow cfg now hides =
      hides.countP fun t => decide (now - ofMs cfg.flapWindow ≤ t) := by
  refine List.countP_congr ?_
  intro t _
  simp only [decide_eq_true_eq]
  omega

/-- Later, fewer hides are in the window. -/
theorem inWindow_anti {now' : ℤ} (h : now ≤ now') (hides : List ℤ) :
    inWindow cfg now' hides ≤ inWindow cfg now hides := by
  refine List.countP_mono_left ?_
  intro t _ ht
  simp only [decide_eq_true_eq] at ht ⊢
  omega

theorem inWindow_cons_le (cfg : Config) (now t : ℤ) (hides : List ℤ) :
    inWindow cfg now (t :: hides) ≤ inWindow cfg now hides + 1 := by
  simp only [inWindow, List.countP_cons]
  split <;> omega

/-- The test of the ring is a question about the window. -/
theorem trips_iff (hring : Recent s.hides s.hideHead s.hideCount hides)
    (hsorted : hides.Pairwise fun a b => b ≤ a) :
    s.Trips cfg now ↔ cfg.threshold ≤ inWindow cfg now hides := by
  have hbounds := cfg.threshold_bounds
  obtain ⟨m, hm⟩ : ∃ m, cfg.threshold = m + 1 := ⟨cfg.threshold - 1, by omega⟩
  have hcount := hring.count_eq
  rw [inWindow_eq, hm, le_countP_iff _ hsorted, Filter.Trips, Filter.nthMostRecentHide, hm]
  constructor
  · rintro ⟨hfull, hwindow⟩
    exact ⟨_, hring.lookBack_eq m (by omega), by omega⟩
  · rintro ⟨t, ht, hwindow⟩
    have hlength := (List.getElem?_eq_some_iff.mp ht).1
    have hfull : m + 1 ≤ s.hideCount := by omega
    rw [hring.lookBack_eq m (by omega), Option.some.injEq] at ht
    exact ⟨hfull, by omega⟩

/-- Without a hold, the hides stay below the threshold. -/
def Calm (cfg : Config) (hides : List ℤ) : Prop :=
  ∀ t ∈ hides.head?, inWindow cfg t hides < cfg.threshold

theorem Calm.inWindow_lt (h : Calm cfg hides) (hnow : ∀ t ∈ hides, t ≤ now) :
    inWindow cfg now hides < cfg.threshold := by
  cases hides with
  | nil =>
      have hbounds := cfg.threshold_bounds
      simp only [inWindow, List.countP_nil]
      omega
  | cons t hides =>
      exact lt_of_le_of_lt (inWindow_anti (hnow t (by simp)) _) (h t (by simp))

/-- The filter and the history of its calls. -/
structure Agrees (cfg : Config) (s : Filter) (history : List Entry) : Prop where
  lastReported : s.lastReported = lastReport history
  holding : s.holding = holdingAfter history
  transition : s.holding = true → s.lastTransitionAt = unchangedSince history
  ring : Recent s.hides s.hideHead s.hideCount (hidesSinceHold history)
  sorted : (hidesSinceHold history).Pairwise fun a b => b ≤ a
  calm : s.holding = false → Calm cfg (hidesSinceHold history)

/-- The hides with the one of this call. -/
def hidesWith (reported : Bool) (now : ℤ) (history : List Entry) : List ℤ :=
  if !reported && (lastReport history == some true) then now :: hidesSinceHold history
  else hidesSinceHold history

theorem hidesSinceHold_cons (e : Entry) (before : List Entry) :
    hidesSinceHold (e :: before) =
      if holdingAfter before && !e.holding then [] else hidesWith e.reported e.now before := rfl

/-- Before the filter decides: what is known after the first part of a call. -/
structure Ready (cfg : Config) (reported : Bool) (now : ℤ) (s : Filter) (history : List Entry) :
    Prop where
  lastReported : s.lastReported = some reported
  holding : s.holding = holdingAfter history
  changed : lastReport history = some (!reported) → s.lastTransitionAt = now
  transition : s.holding = true → ∀ e : Entry, e.reported = reported → e.now = now →
    s.lastTransitionAt = unchangedSince (e :: history)
  ring : Recent s.hides s.hideHead s.hideCount (hidesWith reported now history)
  sorted : (hidesWith reported now history).Pairwise fun a b => b ≤ a
  calm : s.holding = false → Calm cfg (hidesSinceHold history)

theorem Agrees.ready (h : Agrees cfg s history) (reported : Bool)
    (hnow : ∀ t ∈ hidesSinceHold history, t ≤ now) :
    Ready cfg reported now (s.noteReport reported now) history := by
  have hnoted := Filter.noteReport_noted reported now h.ring
  have hhides : (if s.changes reported && !reported then now :: hidesSinceHold history
      else hidesSinceHold history) = hidesWith reported now history := by
    cases reported <;> simp [hidesWith, Filter.changes, h.lastReported]
  refine ⟨hnoted.lastReported, hnoted.holding.trans h.holding, ?_, ?_, hhides ▸ hnoted.ring,
    ?_, ?_⟩
  · intro hchanged
    simp [hnoted.lastTransitionAt, Filter.changes, h.lastReported, hchanged]
  · intro hholding e hreported hetime
    rw [hnoted.holding] at hholding
    rw [hnoted.lastTransitionAt, Filter.changes, h.lastReported, unchangedSince, hreported, hetime,
      h.transition hholding]
    -- A filter that holds has had a report.
    rw [h.holding] at hholding
    cases history with
    | nil => cases hholding
    | cons last history =>
        cases hlast : last.reported <;> cases reported <;> simp [lastReport, hlast]
  · unfold hidesWith
    split
    · exact List.pairwise_cons.mpr ⟨hnow, h.sorted⟩
    · exact h.sorted
  · intro hholding
    exact h.calm (hnoted.holding ▸ hholding)

/-- Without a hold, the test succeeds exactly at a hide that is the last one missing. -/
theorem Ready.trips_iff {reported : Bool} (h : Ready cfg reported now s history)
    (hholding : s.holding = false) (hnow : ∀ t ∈ hidesSinceHold history, t ≤ now) :
    s.Trips cfg now ↔ (!reported && (lastReport history == some true)) = true ∧
      inWindow cfg now (now :: hidesSinceHold history) = cfg.threshold := by
  have hbelow := (h.calm hholding).inWindow_lt hnow
  have hnext := inWindow_cons_le cfg now now (hidesSinceHold history)
  rw [Cursor.trips_iff h.ring h.sorted, hidesWith]
  split
  case isTrue hhide =>
      simp only [hhide, true_and]
      omega
  case isFalse hhide =>
      simp only [hhide, Bool.false_eq_true, false_and, iff_false]
      omega

/-- One call follows the rules and leaves the filter and the history in agreement. -/
theorem Ready.judged {reported : Bool} (h : Ready cfg reported now s history)
    (hnow : ∀ t ∈ hidesSinceHold history, t ≤ now) {e : Entry}
    (he : e = ⟨reported, now, if (s.judge cfg now).holding then true else reported,
      (s.judge cfg now).holding⟩) :
    Right cfg e history ∧ Agrees cfg (s.judge cfg now) (e :: history) := by
  have hholding : s.holding = holdingAfter history := h.holding
  have hvisible : e.visible = if e.holding then true else e.reported := by rw [he]
  have hreported : e.reported = reported := by rw [he]
  have hetime : e.now = now := by rw [he]
  have hhide : isHide e history = (!reported && (lastReport history == some true)) := by
    rw [isHide, hreported]
  have hafter : e.holding = (s.judge cfg now).holding := by rw [he]
  rcases s.judge_cases cfg now with ⟨hoff, htrips, started, at_, count, event, hjudge⟩ |
    ⟨hoff, htrips, hjudge⟩ | ⟨hon, hsettled, event, hjudge⟩ | ⟨hon, hmoving, hjudge⟩
  · -- A hold starts.
    rw [hjudge] at hafter ⊢
    have hhides : hidesSinceHold (e :: history) = hidesWith reported now history := by
      simp [hidesSinceHold_cons, hafter, hreported, hetime]
    have hstart := (h.trips_iff hoff hnow).mp htrips
    refine ⟨⟨?_, ?_, hvisible⟩, ?_, ?_, ?_, ?_, ?_, ?_⟩
    · simp [hafter, hhide, hetime, hstart]
    · simp [← hholding, hoff]
    · simpa [lastReport, hreported] using h.lastReported
    · simp [holdingAfter, hafter]
    · intro _
      have hreports := hstart.1
      simp only [Bool.and_eq_true, Bool.not_eq_true', beq_iff_eq] at hreports
      rw [h.changed (by simp [hreports])]
      simp [unchangedSince, hreports, hreported, hetime]
    · simpa [hhides] using h.ring
    · simpa [hhides] using h.sorted
    · simp
  · -- No hold starts.
    rw [hjudge] at hafter ⊢
    have hhides : hidesSinceHold (e :: history) = hidesWith reported now history := by
      simp [hidesSinceHold_cons, ← hholding, hoff, hreported, hetime]
    refine ⟨⟨?_, ?_, hvisible⟩, ?_, ?_, ?_, ?_, ?_, ?_⟩
    · intro _
      have hnot := fun hstart => htrips ((h.trips_iff hoff hnow).mpr hstart)
      simp only [hafter, hoff, Bool.false_eq_true, hhide, hetime, false_iff]
      exact hnot
    · simp [← hholding, hoff]
    · simpa [lastReport, hreported] using h.lastReported
    · simp [holdingAfter, hafter]
    · simp [hoff]
    · simpa [hhides] using h.ring
    · simpa [hhides] using h.sorted
    · intro _
      rw [hhides, hidesWith]
      split
      · -- The new hide left the window below the threshold.
        have hbelow : inWindow cfg now (now :: hidesSinceHold history) < cfg.threshold := by
          have hmost := inWindow_cons_le cfg now now (hidesSinceHold history)
          have hbefore := (h.calm hoff).inWindow_lt hnow
          have hne : inWindow cfg now (now :: hidesSinceHold history) ≠ cfg.threshold :=
            fun heq => htrips ((h.trips_iff hoff hnow).mpr ⟨‹_›, heq⟩)
          omega
        simpa [Calm] using hbelow
      · exact h.calm hoff
  · -- The hold ends.
    rw [hjudge] at hafter ⊢
    have hhides : hidesSinceHold (e :: history) = [] := by
      simp [hidesSinceHold_cons, ← hholding, hon, hafter]
    refine ⟨⟨?_, ?_, hvisible⟩, ?_, ?_, ?_, ?_, ?_, ?_⟩
    · simp [← hholding, hon]
    · intro _
      rw [← h.transition hon e hreported hetime, hetime]
      simpa [hafter] using hsettled
    · simpa [lastReport, hreported] using h.lastReported
    · simp [holdingAfter, hafter]
    · simp
    · simpa [hhides] using Recent.forget s.hides s.hideHead
    · simp [hhides]
    · simp [hhides, Calm]
  · -- The hold goes on.
    rw [hjudge] at hafter ⊢
    have hhides : hidesSinceHold (e :: history) = hidesWith reported now history := by
      simp [hidesSinceHold_cons, hafter, hon, hreported, hetime]
    refine ⟨⟨?_, ?_, hvisible⟩, ?_, ?_, ?_, ?_, ?_, ?_⟩
    · simp [← hholding, hon]
    · intro _
      rw [← h.transition hon e hreported hetime, hetime]
      simpa [hafter, hon] using hmoving
    · simpa [lastReport, hreported] using h.lastReported
    · simp [holdingAfter, hafter]
    · intro _
      exact h.transition hon e hreported hetime
    · simpa [hhides] using h.ring
    · simpa [hhides] using h.sorted
    · simp [hon]

/-- The statistics are no part of it. -/
theorem Agrees.rollStats (h : Agrees cfg s history) (now : ℤ) :
    Agrees cfg (s.rollStats cfg now) history := by
  obtain ⟨started, transitions, gap, stats, hroll⟩ := s.rollStats_eq cfg now
  rw [hroll]
  exact ⟨h.lastReported, h.holding, h.transition, h.ring, h.sorted, h.calm⟩

theorem holding_rollStats (s : Filter) : (s.rollStats cfg now).holding = s.holding := by
  obtain ⟨started, transitions, gap, stats, hroll⟩ := s.rollStats_eq cfg now
  rw [hroll]

end Invariant

/-! ## Runs -/

/-- The invariant of a session. -/
structure Inv (cfg : Config) (s : Session) : Prop where
  agrees : Agrees cfg s.filter s.history
  follows : Follows cfg s.history
  clock : ∀ t ∈ hidesSinceHold s.history, ∃ last ∈ s.clock, t ≤ last

section Runs

variable {cfg : Config} {s s' : Session} {now : ℤ}

theorem inv_start (cfg : Config) : Inv cfg {} where
  agrees :=
    ⟨rfl, rfl, by simp, Recent.forget _ _, List.Pairwise.nil, by simp [Calm, hidesSinceHold]⟩
  follows := trivial
  clock := by simp [hidesSinceHold]

theorem Inv.hides_le (h : Inv cfg s) (hnow : s.notBefore now = true) :
    ∀ t ∈ hidesSinceHold s.history, t ≤ now := by
  intro t ht
  rcases h.clock t ht with ⟨last, hlast, hle⟩
  have hclock : last ≤ now := by
    simpa [Session.notBefore, Option.mem_def.mp hlast] using hnow
  omega

theorem Inv.apply (h : Inv cfg s) (hnow : s.notBefore now = true) (reported : Bool) :
    Inv cfg (s.record now (some (s.filter.apply cfg reported now).1)
      (s.filter.apply cfg reported now).2) := by
  have hhides := h.hides_le hnow
  have hready := h.agrees.ready reported hhides
  obtain ⟨judged, hjudged⟩ : ∃ f, f = (s.filter.noteReport reported now).judge cfg now := ⟨_, rfl⟩
  obtain ⟨e, he⟩ : ∃ e : Entry, e = ⟨reported, now, if judged.holding then true else reported,
    judged.holding⟩ := ⟨_, rfl⟩
  have hfollows := hready.judged hhides (hjudged ▸ he)
  rw [← hjudged] at hfollows
  have hagrees := hfollows.2.rollStats now
  have hlast : (judged.rollStats cfg now).lastReported = some reported := by
    simp [hagrees.lastReported, lastReport, he]
  have hrecord : (s.record now (some (s.filter.apply cfg reported now).1)
      (s.filter.apply cfg reported now).2).history = e :: s.history := by
    simp [Session.record, Filter.apply, ← hjudged, hlast, holding_rollStats, he]
  have hfilter : (s.filter.apply cfg reported now).2 = judged.rollStats cfg now := by
    simp [Filter.apply, hjudged]
  refine ⟨?_, ?_, ?_⟩
  · rw [hrecord]
    simpa [Session.record, hfilter] using hagrees
  · rw [hrecord]
    exact ⟨hfollows.1, h.follows⟩
  · rw [hrecord]
    intro t ht
    refine ⟨now, rfl, ?_⟩
    rw [hidesSinceHold_cons] at ht
    split at ht
    · simp at ht
    · unfold hidesWith at ht
      split at ht
      · rcases List.mem_cons.mp ht with rfl | hold
        · simp [he]
        · exact hhides t hold
      · exact hhides t ht

theorem Inv.step {c : Call} (h : Inv cfg s) (hs : step cfg s c = some s') : Inv cfg s' := by
  cases c with
  | report visible now =>
      simp only [Cursor.step, guarded_eq_some] at hs
      exact hs.2 ▸ h.apply hs.1 visible
  | tick now =>
      simp only [Cursor.step, guarded_eq_some] at hs
      rw [← hs.2]
      cases hlast : s.filter.lastReported with
      | none =>
          -- Before the first report a tick answers nothing.
          simp only [Filter.tick, hlast, Session.record]
          exact ⟨h.agrees, h.follows, fun t ht => ⟨now, rfl, h.hides_le hs.1 t ht⟩⟩
      | some reported =>
          simp only [Filter.tick, hlast]
          exact h.apply hs.1 reported
  | takeEvent =>
      cases hs
      have ha := h.agrees
      exact ⟨⟨ha.lastReported, ha.holding, ha.transition, ha.ring, ha.sorted, ha.calm⟩, h.follows,
        h.clock⟩
  | takeStats =>
      cases hs
      have ha := h.agrees
      exact ⟨⟨ha.lastReported, ha.holding, ha.transition, ha.ring, ha.sorted, ha.calm⟩, h.follows,
        h.clock⟩

theorem Inv.ringTrue (h : Inv cfg s) : RingTrue s := by
  refine ⟨h.agrees.ring.count_eq, ?_⟩
  intro n hpos hn
  have hback := h.agrees.ring.lookBack_eq (n - 1) (by omega)
  rwa [Nat.sub_add_cancel hpos] at hback

end Runs

/-- **The filter and its rules.**  After any reports and ticks at times that do not decrease,
every call so far has followed the rules, and the ring has the hides since the last hold. -/
theorem visibility_run {cfg : Config} {calls : List Call} {s : Session}
    (hrun : run (step cfg) {} calls = some s) : Follows cfg s.history ∧ RingTrue s := by
  have hinv : Inv cfg s := run_invariant (fun _ _ _ h hs => h.step hs) (inv_start cfg) hrun
  exact ⟨hinv.follows, hinv.ringTrue⟩

/-- Three hides within the window, and then nothing for the settle time. -/
def flap : List Call :=
  [.report true 0, .report false (ofMs 100), .report true (ofMs 500), .report false (ofMs 900),
    .report true (ofMs 1300), .report false (ofMs 1700), .takeEvent, .tick (ofMs 3699),
    .tick (ofMs 3700), .takeStats]

theorem visibility_run_flap :
    ∃ s, run (step {}) {} flap = some s ∧
      s.history.map (·.visible) = [false, true, true, true, false, true, false, true] ∧
      Follows {} s.history ∧ RingTrue s := by
  have hrun : ∃ s, run (step {}) {} flap = some s ∧
      s.history.map (·.visible) = [false, true, true, true, false, true, false, true] := by
    decide
  rcases hrun with ⟨s, hs, hvisible⟩
  exact ⟨s, hs, hvisible, visibility_run hs⟩

end LuminalShine.Cursor
