import LuminalShine.Lib.Run
import LuminalShine.Lib.Since
import LuminalShine.Ring.Ladder

/-!
# What the ladder's verdicts rest on

A verdict of the ladder claims something about the past: a lost heartbeat was stale all
the while, and a stalled frame was waiting all the while.  The ladder itself keeps only
the time such a spell began.  `Watched` puts the observations beside it, and the
invariant ties each of the two clocks to them.

The clocks survive an observation that takes one of the branches which return before
they are looked at, whatever that observation showed.  `KeepsEvidence` is the condition
that no such branch is taken past a running clock.

## Main definitions

* `Watched`, `Event`, `step` — the ladder with its history.
* `KeepsEvidence` — the condition on the steps.
* `verdicts_have_evidence` — the run theorem.
-/

namespace LuminalShine.Ring

open LuminalShine.Lib

/-! ## What each part of `evaluate` does to the clocks -/

namespace Ladder

variable {l : Ladder} {sample : Sample} {now : ℤ}

/-- The recovery budget is spent. -/
def budgetExpired (l : Ladder) (now : ℤ) : Bool := !(l.withinRecoveryBudget now).2

/-- `evaluate` returns before it looks at the heartbeat: the ring is dead, the recovery
budget is spent, or a GPU reset is on record. -/
def returnsEarly (l : Ladder) (sample : Sample) (now : ℤ) : Bool :=
  sample.state = stateDead ||
    if l.config.rebuildingAndAlive sample then (l.observe sample).budgetExpired now
    else sample.tdrEdge

/-- A branch that returns early leaves both clocks as they are. -/
theorem evaluate_of_returnsEarly (h : l.returnsEarly sample now = true) :
    (l.evaluate sample now).1.heartbeatStaleSince = l.heartbeatStaleSince ∧
      (l.evaluate sample now).1.undeliveredSince = (l.observe sample).undeliveredSince ∧
      (l.evaluate sample now).2.reason ≠ .heartbeatLost ∧
      (l.evaluate sample now).2.reason ≠ .deliveryStall := by
  simp only [returnsEarly, budgetExpired, Bool.or_eq_true, decide_eq_true_eq] at h
  simp only [evaluate, observe_config]
  by_cases hdead : sample.state = stateDead
  · simp [hdead, decideAs]
  · replace h := h.resolve_left hdead
    by_cases halive : l.config.rebuildingAndAlive sample = true
    · have hspent : ((l.observe sample).withinRecoveryBudget now).2 = false := by
        simpa [halive] using h
      simp only [if_neg hdead, if_pos halive, if_pos hspent]
      simp [decideAs, withinRecoveryBudget]
    · have htdr : sample.tdrEdge = true := by simpa [halive] using h
      simp [hdead, halive, htdr, decideAs]

/-- A rebuild that is being waited out drops both clocks. -/
theorem evaluate_of_alive (h : l.returnsEarly sample now = false)
    (halive : l.config.rebuildingAndAlive sample = true) :
    (l.evaluate sample now).1.heartbeatStaleSince = none ∧
      (l.evaluate sample now).1.undeliveredSince = none ∧
      (l.evaluate sample now).2.reason = .recovering := by
  simp only [returnsEarly, budgetExpired, Bool.or_eq_false_iff, decide_eq_false_iff_not,
    if_pos halive] at h
  obtain ⟨hdead, hspent⟩ := h
  have hroom : ¬ ((l.observe sample).withinRecoveryBudget now).2 = false := by
    simpa using hspent
  simp only [evaluate, observe_config, if_neg hdead, if_pos halive, if_neg hroom]
  exact ⟨rfl, rfl, rfl⟩

/-- Every other observation reaches the heartbeat ladder. -/
theorem evaluate_eq_evaluateHeartbeat (h : l.returnsEarly sample now = false)
    (halive : l.config.rebuildingAndAlive sample = false) :
    l.evaluate sample now = (l.observe sample).evaluateHeartbeat sample now := by
  simp only [returnsEarly, Bool.or_eq_false_iff, decide_eq_false_iff_not, halive,
    Bool.false_eq_true, if_false] at h
  obtain ⟨hdead, htdr⟩ := h
  simp only [evaluate, observe_config, if_neg hdead, halive, htdr, Bool.false_eq_true, if_false]

/-- A usable heartbeat that is not stale resets its clock. -/
def resetHeartbeat (l : Ladder) (sample : Sample) : Ladder :=
  if sample.heartbeatValid then { l with heartbeatStaleSince := none } else l

theorem resetHeartbeat_config : (l.resetHeartbeat sample).config = l.config := by
  simp only [resetHeartbeat]
  split <;> rfl

theorem resetHeartbeat_undeliveredSince :
    (l.resetHeartbeat sample).undeliveredSince = l.undeliveredSince := by
  simp only [resetHeartbeat]
  split <;> rfl

theorem resetHeartbeat_pending : (l.resetHeartbeat sample).pending sample = l.pending sample := by
  simp only [resetHeartbeat]
  split <;> rfl

theorem resetHeartbeat_budgetExpired :
    (l.resetHeartbeat sample).budgetExpired now = l.budgetExpired now := by
  simp only [resetHeartbeat]
  split <;> rfl

/-- The delivery detector does not touch the heartbeat clock, and never reports a lost
heartbeat. -/
theorem evaluateDelivery_heartbeat :
    (l.evaluateDelivery sample now).1.heartbeatStaleSince = l.heartbeatStaleSince ∧
      (l.evaluateDelivery sample now).2.reason ≠ .heartbeatLost := by
  simp only [evaluateDelivery]
  split
  · split <;> simp [decideAs, withinRecoveryBudget]
  · split
    · split
      · simp [decideAs]
      · split <;> simp [decideAs]
    · simp [decideAs]

/-- The heartbeat clock runs on or starts at a stale observation, and only there does it
report a lost heartbeat. -/
theorem evaluateHeartbeat_of_stale (h : l.config.observesStale sample = true) :
    (l.evaluateHeartbeat sample now).1.heartbeatStaleSince =
        some (l.heartbeatStaleSince.getD now) ∧
      (l.evaluateHeartbeat sample now).1.undeliveredSince = l.undeliveredSince ∧
      ((l.evaluateHeartbeat sample now).2.reason = .heartbeatLost →
        l.config.heartbeatReinitGrace < now - l.heartbeatStaleSince.getD now) ∧
      (l.evaluateHeartbeat sample now).2.reason ≠ .deliveryStall := by
  simp only [evaluateHeartbeat, if_pos h]
  split
  · rename_i hgrace
    exact ⟨rfl, rfl, fun _ => hgrace, by simp [decideAs]⟩
  · exact ⟨rfl, rfl, by simp [decideAs], by simp [decideAs]⟩

theorem evaluateHeartbeat_of_not_stale (h : l.config.observesStale sample = false) :
    l.evaluateHeartbeat sample now =
      (l.resetHeartbeat sample).evaluateDelivery sample now := by
  simp only [evaluateHeartbeat, h, Bool.false_eq_true, if_false, resetHeartbeat]
  split <;> rfl

/-- A rebuild drops the delivery clock unless its budget is spent. -/
theorem evaluateDelivery_of_rebuilding (h : sample.state = stateRebuilding) :
    (l.evaluateDelivery sample now).1.undeliveredSince =
        (if l.budgetExpired now then l.undeliveredSince else none) ∧
      (l.evaluateDelivery sample now).2.reason ≠ .deliveryStall := by
  simp only [evaluateDelivery, if_pos h, budgetExpired]
  by_cases hspent : (l.withinRecoveryBudget now).2 = false
  · simp only [hspent]
    exact ⟨rfl, by simp [decideAs]⟩
  · have hroom : (l.withinRecoveryBudget now).2 = true := by simpa using hspent
    simp [hroom, decideAs]

/-- Otherwise it runs while a frame is pending. -/
theorem evaluateDelivery_of_not_rebuilding (h : sample.state ≠ stateRebuilding) :
    (l.evaluateDelivery sample now).1.undeliveredSince =
        (if l.pending sample then some (l.undeliveredSince.getD now) else none) ∧
      ((l.evaluateDelivery sample now).2.reason = .deliveryStall →
        l.pending sample = true ∧
          ∃ since, l.undeliveredSince = some since ∧ l.config.deliveryStall < now - since) := by
  simp only [evaluateDelivery, if_neg h]
  by_cases hpending : l.pending sample = true
  · simp only [if_pos hpending]
    split
    · rename_i hnone
      simp [decideAs, hnone]
    · rename_i since hsome
      split
      · rename_i hstall
        exact ⟨by simp [decideAs, hsome], fun _ => ⟨hpending, since, hsome, hstall⟩⟩
      · simp [decideAs, hsome]
  · simp [hpending, decideAs]

end Ladder

/-! ## The ladder with its history -/

/-- What was fed to the ladder.  A sample stands there with the sequence that counted as
retired when it was looked at. -/
inductive Observation where
  | sampled (sample : Sample) (retiredSequence : UInt64) (now : ℤ)
  | delivered
  deriving DecidableEq, Repr

/-- A sample taken at `now`. -/
def Observation.takenAt (now : ℤ) : Observation → Prop
  | .sampled _ _ t => t = now
  | .delivered => False

/-- If this is a sample, it showed a stale heartbeat. -/
def Observation.stale (config : Config) : Observation → Prop
  | .sampled sample _ _ => config.observesStale sample = true
  | .delivered => True

/-- A sample of this generation, of a ring that was not rebuilding, with a frame newer
than the delivered and the retired sequence. -/
def Observation.waiting (generation : UInt32) : Observation → Prop
  | .sampled sample retiredSequence _ =>
      sample.generation = generation ∧ sample.state ≠ stateRebuilding ∧
        sample.deliveredSequence < sample.latestSequence ∧
        retiredSequence < sample.latestSequence
  | .delivered => False

structure Watched where
  ladder : Ladder
  /-- Newest first. -/
  history : List Observation

def Watched.fresh (config : Config) : Watched := ⟨{ config := config }, []⟩

inductive Event where
  | sample (sample : Sample) (now : ℤ)
  | noteDelivered
  deriving DecidableEq, Repr

/-- The history with the sample that is being evaluated. -/
def Watched.seeing (w : Watched) (sample : Sample) (now : ℤ) : List Observation :=
  .sampled sample (w.ladder.observe sample).retiredSequence now :: w.history

def step (w : Watched) : Event → Option Watched
  | .sample sample now => some ⟨(w.ladder.evaluate sample now).1, w.seeing sample now⟩
  | .noteDelivered => some ⟨w.ladder.noteDelivered, .delivered :: w.history⟩

/-! ## The condition -/

/-- A running heartbeat clock meets an observation that shows a stale heartbeat or
reaches the line that resets it. -/
def KeepsHeartbeat (l : Ladder) (sample : Sample) (now : ℤ) : Prop :=
  l.heartbeatStaleSince = none ∨ l.config.observesStale sample = true ∨
    (l.returnsEarly sample now = false ∧ sample.heartbeatValid = true)

/-- A running delivery clock meets an observation that shows a waiting frame on a ring
that is not rebuilding, or reaches a line that resets it. -/
def KeepsDelivery (l : Ladder) (sample : Sample) (now : ℤ) : Prop :=
  (l.observe sample).undeliveredSince = none ∨
    (sample.state ≠ stateRebuilding ∧ (l.observe sample).pending sample = true) ∨
    (l.returnsEarly sample now = false ∧ l.config.observesStale sample = false ∧
      ¬ (sample.state = stateRebuilding ∧ (l.observe sample).budgetExpired now = true))

def KeepsEvidence (w : Watched) : Event → Prop
  | .sample sample now =>
      KeepsHeartbeat w.ladder sample now ∧ KeepsDelivery w.ladder sample now
  | .noteDelivered => True

instance (w : Watched) : ∀ event, Decidable (KeepsEvidence w event)
  | .sample _ _ =>
      inferInstanceAs (Decidable ((_ = _ ∨ _ = _ ∨ _ = _ ∧ _ = _) ∧
        (_ = _ ∨ (_ ≠ _ ∧ _ = _) ∨ _ = _ ∧ _ = _ ∧ ¬ (_ = _ ∧ _ = _))))
  | .noteDelivered => isTrue trivial

/-! ## The invariant -/

/-- Each running clock is backed by every observation since it started. -/
structure Evidence (config : Config) (w : Watched) : Prop where
  config_eq : w.ladder.config = config
  heartbeat : ∀ since, w.ladder.heartbeatStaleSince = some since →
    Since (Observation.takenAt since) (Observation.stale config) w.history
  delivery : ∀ since, w.ladder.undeliveredSince = some since →
    ∃ generation, w.ladder.generation = some generation ∧
      Since (Observation.takenAt since) (Observation.waiting generation) w.history

section Step

variable {config : Config} {w : Watched} {sample : Sample} {now : ℤ}

/-- A clock that runs on, or starts now, at a stale observation. -/
theorem Evidence.since_stale (h : Evidence config w) (now : ℤ)
    (hstale : config.observesStale sample = true) :
    Since (Observation.takenAt (w.ladder.heartbeatStaleSince.getD now))
      (Observation.stale config) (w.seeing sample now) := by
  cases hsince : w.ladder.heartbeatStaleSince with
  | none => exact .start rfl hstale
  | some since => exact (h.heartbeat since hsince).continue hstale

/-- A clock that runs on, or starts now, while a frame is waiting. -/
theorem Evidence.since_waiting (h : Evidence config w) (now : ℤ)
    (hstate : sample.state ≠ stateRebuilding)
    (hpending : (w.ladder.observe sample).pending sample = true) :
    Since (Observation.takenAt ((w.ladder.observe sample).undeliveredSince.getD now))
      (Observation.waiting sample.generation) (w.seeing sample now) := by
  have hnow : Observation.waiting sample.generation
      (.sampled sample (w.ladder.observe sample).retiredSequence now) := by
    simp only [Ladder.pending, Bool.and_eq_true, decide_eq_true_eq] at hpending
    exact ⟨rfl, hstate, hpending⟩
  cases hsince : (w.ladder.observe sample).undeliveredSince with
  | none => exact .start rfl hnow
  | some since =>
      obtain ⟨hold, hsame⟩ := w.ladder.undelivered_of_observe sample hsince
      obtain ⟨generation, hgeneration, hpast⟩ := h.delivery since hold
      rw [hsame generation hgeneration] at hpast
      exact hpast.continue hnow

/-- The heartbeat clock after a sample. -/
theorem Evidence.heartbeat_step (h : Evidence config w) (hkeeps : KeepsHeartbeat w.ladder sample now)
    (since : ℤ) (hsince : (w.ladder.evaluate sample now).1.heartbeatStaleSince = some since) :
    Since (Observation.takenAt since) (Observation.stale config) (w.seeing sample now) := by
  -- A clock that was kept without a look at it is backed by the condition.
  have hkept : w.ladder.heartbeatStaleSince = some since →
      ¬ (w.ladder.returnsEarly sample now = false ∧ sample.heartbeatValid = true) →
      Since (Observation.takenAt since) (Observation.stale config) (w.seeing sample now) := by
    intro hsome hnot
    have hstale : w.ladder.config.observesStale sample = true :=
      (hkeeps.resolve_left (by simp [hsome])).resolve_right hnot
    rw [h.config_eq] at hstale
    have hnext := h.since_stale now hstale
    rwa [hsome] at hnext
  by_cases hearly : w.ladder.returnsEarly sample now = true
  · rw [(Ladder.evaluate_of_returnsEarly hearly).1] at hsince
    exact hkept hsince (by simp [hearly])
  · have hlate : w.ladder.returnsEarly sample now = false := by simpa using hearly
    by_cases halive : w.ladder.config.rebuildingAndAlive sample = true
    · rw [(Ladder.evaluate_of_alive hlate halive).1] at hsince
      cases hsince
    · rw [Ladder.evaluate_eq_evaluateHeartbeat hlate (by simpa using halive)] at hsince
      by_cases hstale : (w.ladder.observe sample).config.observesStale sample = true
      · rw [(Ladder.evaluateHeartbeat_of_stale hstale).1, Option.some.injEq] at hsince
        rw [Ladder.observe_config, h.config_eq] at hstale
        rw [← hsince, Ladder.observe_heartbeatStaleSince]
        exact h.since_stale now hstale
      · rw [Ladder.evaluateHeartbeat_of_not_stale (by simpa using hstale),
          Ladder.evaluateDelivery_heartbeat.1] at hsince
        simp only [Ladder.resetHeartbeat] at hsince
        by_cases hvalid : sample.heartbeatValid = true
        · simp [hvalid] at hsince
        · simp only [hvalid, Bool.false_eq_true, if_false,
            Ladder.observe_heartbeatStaleSince] at hsince
          exact hkept hsince (by simp [hvalid])

/-- The delivery clock after a sample. -/
theorem Evidence.delivery_step (h : Evidence config w) (hkeeps : KeepsDelivery w.ladder sample now)
    (since : ℤ) (hsince : (w.ladder.evaluate sample now).1.undeliveredSince = some since) :
    Since (Observation.takenAt since) (Observation.waiting sample.generation)
      (w.seeing sample now) := by
  have hkept : (w.ladder.observe sample).undeliveredSince = some since →
      ¬ (w.ladder.returnsEarly sample now = false ∧
        w.ladder.config.observesStale sample = false ∧
        ¬ (sample.state = stateRebuilding ∧
          (w.ladder.observe sample).budgetExpired now = true)) →
      Since (Observation.takenAt since) (Observation.waiting sample.generation)
        (w.seeing sample now) := by
    intro hsome hnot
    obtain ⟨hstate, hpending⟩ := (hkeeps.resolve_left (by simp [hsome])).resolve_right hnot
    have hnext := h.since_waiting now hstate hpending
    rwa [hsome] at hnext
  by_cases hearly : w.ladder.returnsEarly sample now = true
  · rw [(Ladder.evaluate_of_returnsEarly hearly).2.1] at hsince
    exact hkept hsince (by simp [hearly])
  · have hlate : w.ladder.returnsEarly sample now = false := by simpa using hearly
    by_cases halive : w.ladder.config.rebuildingAndAlive sample = true
    · rw [(Ladder.evaluate_of_alive hlate halive).2.1] at hsince
      cases hsince
    · rw [Ladder.evaluate_eq_evaluateHeartbeat hlate (by simpa using halive)] at hsince
      by_cases hstale : (w.ladder.observe sample).config.observesStale sample = true
      · rw [(Ladder.evaluateHeartbeat_of_stale hstale).2.1] at hsince
        rw [Ladder.observe_config] at hstale
        exact hkept hsince (by simp [hstale])
      · rw [Ladder.evaluateHeartbeat_of_not_stale (by simpa using hstale)] at hsince
        by_cases hstate : sample.state = stateRebuilding
        · rw [(Ladder.evaluateDelivery_of_rebuilding hstate).1,
            Ladder.resetHeartbeat_budgetExpired, Ladder.resetHeartbeat_undeliveredSince] at hsince
          by_cases hspent : (w.ladder.observe sample).budgetExpired now = true
          · rw [if_pos hspent] at hsince
            exact hkept hsince (by simp [hstate, hspent])
          · simp [hspent] at hsince
        · rw [(Ladder.evaluateDelivery_of_not_rebuilding hstate).1,
            Ladder.resetHeartbeat_pending, Ladder.resetHeartbeat_undeliveredSince] at hsince
          by_cases hpending : (w.ladder.observe sample).pending sample = true
          · rw [if_pos hpending, Option.some.injEq] at hsince
            rw [← hsince]
            exact h.since_waiting now hstate hpending
          · simp [hpending] at hsince

/-- **A sample that meets the condition leaves both clocks backed.** -/
theorem Evidence.sampled (h : Evidence config w)
    (hkeeps : KeepsHeartbeat w.ladder sample now ∧ KeepsDelivery w.ladder sample now) :
    Evidence config ⟨(w.ladder.evaluate sample now).1, w.seeing sample now⟩ where
  config_eq := by rw [Ladder.evaluate_config, h.config_eq]
  heartbeat := h.heartbeat_step hkeeps.1
  delivery := fun since hsince =>
    ⟨sample.generation, Ladder.evaluate_generation .., h.delivery_step hkeeps.2 since hsince⟩

/-- A delivery drops the clock it is evidence against. -/
theorem Evidence.noteDelivered (h : Evidence config w) :
    Evidence config ⟨w.ladder.noteDelivered, .delivered :: w.history⟩ where
  config_eq := h.config_eq
  heartbeat := fun since hsince => (h.heartbeat since hsince).continue trivial
  delivery := fun _ hsince => nomatch hsince

/-- A lost heartbeat was stale all the while. -/
theorem Evidence.lost (h : Evidence config w)
    (hlost : (w.ladder.evaluate sample now).2.reason = .heartbeatLost) :
    ∃ since, config.heartbeatReinitGrace < now - since ∧
      Since (Observation.takenAt since) (Observation.stale config) (w.seeing sample now) := by
  by_cases hearly : w.ladder.returnsEarly sample now = true
  · exact absurd hlost (Ladder.evaluate_of_returnsEarly hearly).2.2.1
  · have hlate : w.ladder.returnsEarly sample now = false := by simpa using hearly
    by_cases halive : w.ladder.config.rebuildingAndAlive sample = true
    · rw [(Ladder.evaluate_of_alive hlate halive).2.2] at hlost
      cases hlost
    · rw [Ladder.evaluate_eq_evaluateHeartbeat hlate (by simpa using halive)] at hlost
      by_cases hstale : (w.ladder.observe sample).config.observesStale sample = true
      · have hgrace := (Ladder.evaluateHeartbeat_of_stale hstale).2.2.1 hlost
        rw [Ladder.observe_config, h.config_eq] at hstale hgrace
        rw [Ladder.observe_heartbeatStaleSince] at hgrace
        exact ⟨_, hgrace, h.since_stale now hstale⟩
      · rw [Ladder.evaluateHeartbeat_of_not_stale (by simpa using hstale)] at hlost
        exact absurd hlost Ladder.evaluateDelivery_heartbeat.2

/-- A stalled frame was waiting all the while. -/
theorem Evidence.stalled (h : Evidence config w)
    (hstall : (w.ladder.evaluate sample now).2.reason = .deliveryStall) :
    ∃ since, config.deliveryStall < now - since ∧
      Since (Observation.takenAt since) (Observation.waiting sample.generation)
        (w.seeing sample now) := by
  by_cases hearly : w.ladder.returnsEarly sample now = true
  · exact absurd hstall (Ladder.evaluate_of_returnsEarly hearly).2.2.2
  · have hlate : w.ladder.returnsEarly sample now = false := by simpa using hearly
    by_cases halive : w.ladder.config.rebuildingAndAlive sample = true
    · rw [(Ladder.evaluate_of_alive hlate halive).2.2] at hstall
      cases hstall
    · rw [Ladder.evaluate_eq_evaluateHeartbeat hlate (by simpa using halive)] at hstall
      by_cases hstale : (w.ladder.observe sample).config.observesStale sample = true
      · exact absurd hstall (Ladder.evaluateHeartbeat_of_stale hstale).2.2.2
      · rw [Ladder.evaluateHeartbeat_of_not_stale (by simpa using hstale)] at hstall
        by_cases hstate : sample.state = stateRebuilding
        · exact absurd hstall (Ladder.evaluateDelivery_of_rebuilding hstate).2
        · obtain ⟨hpending, since, hsince, hlimit⟩ :=
            (Ladder.evaluateDelivery_of_not_rebuilding hstate).2 hstall
          rw [Ladder.resetHeartbeat_pending] at hpending
          rw [Ladder.resetHeartbeat_undeliveredSince] at hsince
          rw [Ladder.resetHeartbeat_config, Ladder.observe_config, h.config_eq] at hlimit
          have hpast := h.since_waiting now hstate hpending
          rw [hsince] at hpast
          exact ⟨since, hlimit, hpast⟩

end Step

theorem step_evidence {config : Config} (w : Watched) (event : Event) (w' : Watched)
    (h : Evidence config w) (hkeeps : KeepsEvidence w event) (hstep : step w event = some w') :
    Evidence config w' := by
  cases event with
  | sample sample now =>
      cases hstep
      exact h.sampled hkeeps
  | noteDelivered =>
      cases hstep
      exact h.noteDelivered

theorem evidence_fresh (config : Config) : Evidence config (Watched.fresh config) where
  config_eq := rfl
  heartbeat := fun _ hsince => nomatch hsince
  delivery := fun _ hsince => nomatch hsince

/-- **A verdict rests on an unbroken spell of observations.**  While no observation takes
one of the early branches past a running clock: a heartbeat is reported lost only when
every sample of a spell longer than the grace, up to this one, showed it stale; and a
delivery stall is reported only when every observation of a spell longer than the limit,
up to this one, was a sample of one generation of a ring that was not rebuilding, with an
undelivered frame, and no delivery among them. -/
theorem verdicts_have_evidence (config : Config) {events : List Event} {w : Watched}
    (hmeets : RunMeets step KeepsEvidence (Watched.fresh config) events)
    (hrun : run step (Watched.fresh config) events = some w) (sample : Sample) (now : ℤ) :
    ((w.ladder.evaluate sample now).2.reason = .heartbeatLost →
        ∃ since, config.heartbeatReinitGrace < now - since ∧
          Since (Observation.takenAt since) (Observation.stale config) (w.seeing sample now)) ∧
      ((w.ladder.evaluate sample now).2.reason = .deliveryStall →
        ∃ since, config.deliveryStall < now - since ∧
          Since (Observation.takenAt since) (Observation.waiting sample.generation)
            (w.seeing sample now)) := by
  have h := run_invariant_of_meets step_evidence (evidence_fresh config) hmeets hrun
  exact ⟨h.lost, h.stalled⟩

/-- A silent ring, sampled every five seconds. -/
def silentRing : List Event :=
  [.sample { state := stateActive, heartbeatValid := true, heartbeatAge := 3 * second } 0,
    .sample { state := stateActive, heartbeatValid := true, heartbeatAge := 8 * second }
      (5 * second)]

/-- A ring whose newest frame nobody fetches. -/
def unfetchedFrame : List Event :=
  [.sample { state := stateActive, latestSequence := 7, heartbeatValid := true } 0,
    .sample { state := stateActive, latestSequence := 9, heartbeatValid := true } (3 * second)]

def silentSample : Sample :=
  { state := stateActive, heartbeatValid := true, heartbeatAge := 14 * second }

def unfetchedSample : Sample :=
  { state := stateActive, latestSequence := 9, heartbeatValid := true }

theorem silentRing_evidence :
    (∃ w, run step (Watched.fresh {}) silentRing = some w ∧
      (w.ladder.evaluate silentSample (11 * second)).2.reason = .heartbeatLost ∧
      ∃ since, 10 * second < 11 * second - since ∧
        Since (Observation.takenAt since) (Observation.stale {})
          (w.seeing silentSample (11 * second))) ∧
    ∃ w, run step (Watched.fresh {}) unfetchedFrame = some w ∧
      (w.ladder.evaluate unfetchedSample (6 * second)).2.reason = .deliveryStall ∧
      ∃ since, 5 * second < 6 * second - since ∧
        Since (Observation.takenAt since) (Observation.waiting 0)
          (w.seeing unfetchedSample (6 * second)) := by
  constructor
  · have hmeets : RunMeets step KeepsEvidence (Watched.fresh {}) silentRing := by decide
    refine ⟨_, rfl, by decide, ?_⟩
    exact (verdicts_have_evidence {} hmeets rfl silentSample (11 * second)).1 (by decide)
  · have hmeets : RunMeets step KeepsEvidence (Watched.fresh {}) unfetchedFrame := by decide
    refine ⟨_, rfl, by decide, ?_⟩
    exact (verdicts_have_evidence {} hmeets rfl unfetchedSample (6 * second)).2 (by decide)

/-- In between, one sample without a usable heartbeat. -/
def interruptedSilence : List Event :=
  [.sample { state := stateActive, heartbeatValid := true, heartbeatAge := 3 * second } 0,
    .sample { state := stateActive } (5 * second)]

/-- In between, one sample of a rebuilding ring, under the same generation. -/
def interruptedFrame : List Event :=
  [.sample { state := stateActive, latestSequence := 7, heartbeatValid := true } 0,
    .sample
      { state := stateRebuilding, latestSequence := 7, heartbeatValid := true,
        heartbeatAge := 3 * second }
      (3 * second)]

/-- **Neither verdict needs an unbroken spell.**  A heartbeat is reported lost although one
of the samples did not show it stale, and a stall although the ring was rebuilding. -/
theorem interrupted_spells_count :
    (∃ w, run step (Watched.fresh {}) interruptedSilence = some w ∧
      (w.ladder.evaluate silentSample (11 * second)).2.reason = .heartbeatLost ∧
      ¬ ∃ since, 10 * second < 11 * second - since ∧
        Since (Observation.takenAt since) (Observation.stale {})
          (w.seeing silentSample (11 * second))) ∧
    ∃ w, run step (Watched.fresh {}) interruptedFrame = some w ∧
      (w.ladder.evaluate unfetchedSample (6 * second)).2.reason = .deliveryStall ∧
      ¬ ∃ since, 5 * second < 6 * second - since ∧
        Since (Observation.takenAt since) (Observation.waiting 0)
          (w.seeing unfetchedSample (6 * second)) := by
  constructor
  · refine ⟨_, rfl, by decide, ?_⟩
    rintro ⟨since, hlong, hsince⟩
    obtain ⟨-, htaken | hrest⟩ := since_cons.mp hsince
    · rw [← htaken] at hlong
      exact absurd hlong (by decide)
    · have hstale : ({} : Config).observesStale { state := stateActive } = true :=
        (since_cons.mp hrest).1
      exact absurd hstale (by decide)
  · refine ⟨_, rfl, by decide, ?_⟩
    rintro ⟨since, hlong, hsince⟩
    obtain ⟨-, htaken | hrest⟩ := since_cons.mp hsince
    · rw [← htaken] at hlong
      exact absurd hlong (by decide)
    · obtain ⟨⟨-, hstate, -⟩, -⟩ := since_cons.mp hrest
      exact absurd rfl hstate

end LuminalShine.Ring
