import Mathlib.Data.Int.Notation

/-!
# The ring-liveness ladder

`vgd_ring_liveness_t` of `src/platform/windows/vgd_ring_liveness.h` decides from one
observation of the frame ring after the other whether the ring is healthy, recovering or
dead.  It keeps four clocks: since when a frame waits undelivered, since when the
heartbeat is stale, and since when the ring has been rebuilding and when that was last
confirmed.

Times and durations are integers, in nanoseconds of the steady clock.

## Main definitions

* `Config`, `Sample`, `Decision` — what goes in and what comes out.
* `Ladder`, `Ladder.evaluate` — the state and the decision.
* `Ladder.recovering`, `Ladder.adoptRecoveryStart`, `Ladder.recoveryStart`,
  `Ladder.noteDelivered` — the other entry points.
-/

namespace LuminalShine.Ring

/-! ## Observations and decisions -/

/-- `vgd_ring_state::dead` and the other values of the ring header's state word. -/
def stateUninitialized : UInt32 := 0
def stateActive : UInt32 := 1
def stateRebuilding : UInt32 := 2
def stateDead : UInt32 := 3

/-- `vgd_ring_verdict_e`. -/
inductive Verdict where
  | consume
  | wait
  | reinit
  | broken
  deriving DecidableEq, Repr

/-- `vgd_ring_reason_e`. -/
inductive Reason where
  | healthy
  | ringDead
  | heartbeatStale
  | heartbeatLost
  | recovering
  | rebuilding
  | recoveryBudgetExpired
  | gpuReset
  | deliveryStall
  deriving DecidableEq, Repr

/-- `vgd_ring_sample_t`. -/
structure Sample where
  state : UInt32 := stateUninitialized
  generation : UInt32 := 0
  latestSequence : UInt64 := 0
  deliveredSequence : UInt64 := 0
  heartbeatValid : Bool := false
  heartbeatAge : ℤ := 0
  tdrEdge : Bool := false
  deriving DecidableEq, Repr

/-- `vgd_ring_decision_t`. -/
structure Decision where
  verdict : Verdict
  reason : Reason
  firstReport : Bool
  deriving DecidableEq, Repr

/-- `vgd_recovery_clock_t`. -/
structure RecoveryClock where
  started : ℤ
  lastSeen : ℤ
  deriving DecidableEq, Repr

def second : ℤ := 1000000000

/-- `vgd_ring_liveness_config_t`. -/
structure Config where
  heartbeatStale : ℤ := 2 * second
  heartbeatReinitGrace : ℤ := 10 * second
  deliveryStall : ℤ := 5 * second
  recoveryBudget : ℤ := 660 * second
  recoveryClockHandoffGrace : ℤ := 30 * second
  trustRebuildingHeartbeat : Bool := true
  deriving DecidableEq, Repr

/-- `heartbeat_live`. -/
def Config.heartbeatLive (config : Config) (sample : Sample) : Bool :=
  sample.heartbeatValid && sample.heartbeatAge ≤ config.heartbeatStale

/-- The ring is observed with a stale heartbeat. -/
def Config.observesStale (config : Config) (sample : Sample) : Bool :=
  sample.heartbeatValid && config.heartbeatStale < sample.heartbeatAge

/-- `rebuilding_and_alive`. -/
def Config.rebuildingAndAlive (config : Config) (sample : Sample) : Bool :=
  config.trustRebuildingHeartbeat && sample.state = stateRebuilding && config.heartbeatLive sample

/-! ## The ladder -/

/-- `vgd_ring_liveness_t`. -/
structure Ladder where
  config : Config := {}
  generation : Option UInt32 := none
  retiredSequence : UInt64 := 0
  undeliveredSince : Option ℤ := none
  heartbeatStaleSince : Option ℤ := none
  rebuildingSince : Option ℤ := none
  rebuildingSeen : Option ℤ := none
  lastReason : Option Reason := none
  deriving DecidableEq, Repr

namespace Ladder

/-- `note_generation`. -/
def noteGeneration (l : Ladder) (sample : Sample) : Ladder :=
  match l.generation with
  | none => { l with generation := some sample.generation }
  | some generation =>
      if generation = sample.generation then l
      else
        { l with
          generation := some sample.generation
          retiredSequence := sample.latestSequence
          undeliveredSince := none }

/-- `clear_recovery_clock`. -/
def clearRecoveryClock (l : Ladder) : Ladder :=
  { l with rebuildingSince := none, rebuildingSeen := none }

/-- `within_recovery_budget`: the clock that results, and whether there is room. -/
def withinRecoveryBudget (l : Ladder) (now : ℤ) : Ladder × Bool :=
  let since := l.rebuildingSince.getD now
  ({ l with rebuildingSince := some since, rebuildingSeen := some now },
    now - since ≤ l.config.recoveryBudget)

/-- `decide`. -/
def decideAs (l : Ladder) (verdict : Verdict) (reason : Reason) : Ladder × Decision :=
  ({ l with lastReason := some reason },
    { verdict := verdict, reason := reason, firstReport := l.lastReason ≠ some reason })

/-- The frame the driver published last is newer than what was delivered or retired. -/
def pending (l : Ladder) (sample : Sample) : Bool :=
  sample.deliveredSequence < sample.latestSequence && l.retiredSequence < sample.latestSequence

/-- The end of `evaluate`: a rebuilding ring without a usable heartbeat, then the
delivery-stall detector. -/
def evaluateDelivery (l : Ladder) (sample : Sample) (now : ℤ) : Ladder × Decision :=
  if sample.state = stateRebuilding then
    let budget := l.withinRecoveryBudget now
    if budget.2 = false then budget.1.decideAs .reinit .recoveryBudgetExpired
    else { budget.1 with undeliveredSince := none }.decideAs .wait .rebuilding
  else if l.pending sample then
    match l.undeliveredSince with
    | none => { l with undeliveredSince := some now }.decideAs .consume .healthy
    | some since =>
        if l.config.deliveryStall < now - since then l.decideAs .broken .deliveryStall
        else l.decideAs .consume .healthy
  else { l with undeliveredSince := none }.decideAs .consume .healthy

/-- The heartbeat ladder and what follows it. -/
def evaluateHeartbeat (l : Ladder) (sample : Sample) (now : ℤ) : Ladder × Decision :=
  if l.config.observesStale sample then
    let since := l.heartbeatStaleSince.getD now
    let l := { l with heartbeatStaleSince := some since }
    if l.config.heartbeatReinitGrace < now - since then l.decideAs .reinit .heartbeatLost
    else l.decideAs .wait .heartbeatStale
  else if sample.heartbeatValid then
    { l with heartbeatStaleSince := none }.evaluateDelivery sample now
  else l.evaluateDelivery sample now

/-- What `evaluate` does before its first branch. -/
def observe (l : Ladder) (sample : Sample) : Ladder :=
  let l := l.noteGeneration sample
  if sample.state ≠ stateRebuilding then l.clearRecoveryClock else l

/-- `evaluate`. -/
def evaluate (l : Ladder) (sample : Sample) (now : ℤ) : Ladder × Decision :=
  let l := l.observe sample
  if sample.state = stateDead then l.decideAs .reinit .ringDead
  else if l.config.rebuildingAndAlive sample then
    let budget := l.withinRecoveryBudget now
    if budget.2 = false then budget.1.decideAs .reinit .recoveryBudgetExpired
    else
      { budget.1 with undeliveredSince := none, heartbeatStaleSince := none }.decideAs
        .wait .recovering
  else if sample.tdrEdge then l.decideAs .reinit .gpuReset
  else l.evaluateHeartbeat sample now

/-- `recovering`. -/
def recovering (l : Ladder) (sample : Sample) (now : ℤ) : Ladder × Bool :=
  if sample.state ≠ stateRebuilding then (l.clearRecoveryClock, false)
  else if l.config.rebuildingAndAlive sample = false then (l, false)
  else l.withinRecoveryBudget now

/-- `adopt_recovery_start`. -/
def adoptRecoveryStart (l : Ladder) (clock : Option RecoveryClock) (now : ℤ) : Ladder :=
  match clock with
  | none => l
  | some clock =>
      if l.config.recoveryClockHandoffGrace < now - clock.lastSeen then l
      else { l with rebuildingSince := some clock.started, rebuildingSeen := some clock.lastSeen }

/-- `recovery_start`. -/
def recoveryStart (l : Ladder) : Option RecoveryClock :=
  l.rebuildingSince.map fun since => ⟨since, l.rebuildingSeen.getD since⟩

/-- `note_delivered`. -/
def noteDelivered (l : Ladder) : Ladder := { l with undeliveredSince := none }

/-! ## What the helpers leave alone -/

section Frame

variable (l : Ladder) (sample : Sample) (now : ℤ)

@[simp] theorem noteGeneration_config : (l.noteGeneration sample).config = l.config := by
  simp only [noteGeneration]
  split
  · rfl
  · split <;> rfl

@[simp] theorem noteGeneration_generation :
    (l.noteGeneration sample).generation = some sample.generation := by
  simp only [noteGeneration]
  split
  · rfl
  · rename_i h
    split
    · rename_i heq
      rw [h, heq]
    · rfl

@[simp] theorem noteGeneration_heartbeatStaleSince :
    (l.noteGeneration sample).heartbeatStaleSince = l.heartbeatStaleSince := by
  simp only [noteGeneration]
  split
  · rfl
  · split <;> rfl

@[simp] theorem noteGeneration_rebuildingSince :
    (l.noteGeneration sample).rebuildingSince = l.rebuildingSince := by
  simp only [noteGeneration]
  split
  · rfl
  · split <;> rfl

@[simp] theorem observe_config : (l.observe sample).config = l.config := by
  simp only [observe]
  split <;> simp [clearRecoveryClock]

@[simp] theorem observe_generation : (l.observe sample).generation = some sample.generation := by
  simp only [observe]
  split <;> simp [clearRecoveryClock]

@[simp] theorem observe_heartbeatStaleSince :
    (l.observe sample).heartbeatStaleSince = l.heartbeatStaleSince := by
  simp only [observe]
  split <;> simp [clearRecoveryClock]

/-- A rebuilding ring keeps its recovery clock. -/
theorem observe_of_rebuilding (h : sample.state = stateRebuilding) :
    l.observe sample = l.noteGeneration sample := by
  simp [observe, h]

/-- The delivery clock survives an observation only under its own generation. -/
theorem undelivered_of_observe {since : ℤ} (h : (l.observe sample).undeliveredSince = some since) :
    l.undeliveredSince = some since ∧
      ∀ generation, l.generation = some generation → generation = sample.generation := by
  have hnote : (l.noteGeneration sample).undeliveredSince = some since := by
    simp only [observe] at h
    split at h <;> exact h
  simp only [noteGeneration] at hnote
  split at hnote
  · rename_i hnone
    exact ⟨hnote, by simp [hnone]⟩
  · rename_i generation hsome
    split at hnote
    · rename_i heq
      refine ⟨hnote, fun g hg => ?_⟩
      rw [hsome, Option.some.injEq] at hg
      rw [← hg, heq]
    · cases hnote

/-- The identity of a ladder: no clock and no report. -/
def identity (l : Ladder) : Config × Option UInt32 := (l.config, l.generation)

theorem evaluateDelivery_identity : (l.evaluateDelivery sample now).1.identity = l.identity := by
  simp only [evaluateDelivery]
  split
  · split <;> rfl
  · split
    · split
      · rfl
      · split <;> rfl
    · rfl

theorem evaluateHeartbeat_identity : (l.evaluateHeartbeat sample now).1.identity = l.identity := by
  simp only [evaluateHeartbeat]
  split
  · split <;> rfl
  · split
    · rw [evaluateDelivery_identity]
      rfl
    · rw [evaluateDelivery_identity]

theorem evaluate_identity :
    (l.evaluate sample now).1.identity = (l.config, some sample.generation) := by
  have hobserve : (l.observe sample).identity = (l.config, some sample.generation) := by
    simp [identity]
  rw [← hobserve]
  simp only [evaluate]
  split
  · rfl
  · split
    · split <;> rfl
    · split
      · rfl
      · exact evaluateHeartbeat_identity ..

@[simp] theorem evaluate_config : (l.evaluate sample now).1.config = l.config :=
  congrArg Prod.fst (l.evaluate_identity sample now)

@[simp] theorem evaluate_generation :
    (l.evaluate sample now).1.generation = some sample.generation :=
  congrArg Prod.snd (l.evaluate_identity sample now)

end Frame

end Ladder

end LuminalShine.Ring
