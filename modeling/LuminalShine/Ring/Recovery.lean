import LuminalShine.Lib.Run
import LuminalShine.Ring.Ladder
import Mathlib.Algebra.Order.Ring.Int
import Mathlib.Tactic.Ring

/-!
# How long a rebuilding ring is waited for

Every capture reinit destroys the reader and with it the ladder, so the recovery clock is
handed to the next reader: `recovery_start` of the one that goes is adopted by the one that
comes.  `Reader` is a ladder with the time, and a hand-over replaces the ladder by a fresh
one that adopts the clock.

A wait is either a check of the recovery budget or a stale heartbeat within its grace.  The
budget is measured from a clock that keeps its start across hand-overs, so the checks of one
outage span at most one budget.  The stale spells before the first check and after the last
are bounded by the grace, one spell more for each hand-over, since the heartbeat clock is
not handed on.

## Main definitions

* `Reader`, `Event`, `watch` — the readers of one ring, one after the other.
* `Forward`, `Waits` — time goes on; and every sample is answered with a wait.
* `recovery_wait_bounded` — the run theorem.
-/

namespace LuminalShine.Ring

open LuminalShine.Lib

/-! ## What one sample does to the clocks -/

namespace Ladder

variable {l : Ladder} {sample : Sample} {now : ℤ}

/-- There is room in the budget. -/
theorem withinRecoveryBudget_eq_true (h : ¬ (l.withinRecoveryBudget now).2 = false) :
    now - l.rebuildingSince.getD now ≤ l.config.recoveryBudget := by
  simpa [withinRecoveryBudget] using h

/-- A wait without a usable heartbeat checked the budget. -/
theorem evaluateDelivery_of_wait (hstate : sample.state = stateRebuilding)
    (hwait : (l.evaluateDelivery sample now).2.verdict = .wait) :
    (l.evaluateDelivery sample now).1.rebuildingSince = some (l.rebuildingSince.getD now) ∧
      now - l.rebuildingSince.getD now ≤ l.config.recoveryBudget ∧
      (l.evaluateDelivery sample now).1.heartbeatStaleSince = l.heartbeatStaleSince := by
  simp only [evaluateDelivery, if_pos hstate] at hwait ⊢
  by_cases hroom : (l.withinRecoveryBudget now).2 = false
  · rw [if_pos hroom] at hwait
    cases hwait
  · rw [if_neg hroom]
    exact ⟨rfl, withinRecoveryBudget_eq_true hroom, rfl⟩

/-- A wait on a rebuilding ring checked the budget, or the heartbeat is stale within its
grace. -/
theorem evaluate_of_wait (hstate : sample.state = stateRebuilding)
    (hwait : (l.evaluate sample now).2.verdict = .wait) :
    ((l.evaluate sample now).1.rebuildingSince = some (l.rebuildingSince.getD now) ∧
        now - l.rebuildingSince.getD now ≤ l.config.recoveryBudget ∧
        ((l.evaluate sample now).1.heartbeatStaleSince = none ∨
          (l.evaluate sample now).1.heartbeatStaleSince = l.heartbeatStaleSince)) ∨
      ((l.evaluate sample now).1.rebuildingSince = l.rebuildingSince ∧
        (l.evaluate sample now).1.heartbeatStaleSince =
          some (l.heartbeatStaleSince.getD now) ∧
        now - l.heartbeatStaleSince.getD now ≤ l.config.heartbeatReinitGrace) := by
  have hdead : sample.state ≠ stateDead := by
    rw [hstate]
    decide
  rw [← l.noteGeneration_rebuildingSince sample, ← l.noteGeneration_heartbeatStaleSince sample,
    ← l.noteGeneration_config sample]
  simp only [evaluate, observe_of_rebuilding l sample hstate, if_neg hdead] at hwait ⊢
  set m := l.noteGeneration sample
  by_cases halive : m.config.rebuildingAndAlive sample = true
  · simp only [if_pos halive] at hwait ⊢
    by_cases hroom : (m.withinRecoveryBudget now).2 = false
    · rw [if_pos hroom] at hwait
      cases hwait
    · rw [if_neg hroom]
      exact .inl ⟨rfl, withinRecoveryBudget_eq_true hroom, .inl rfl⟩
  · simp only [if_neg halive] at hwait ⊢
    by_cases htdr : sample.tdrEdge = true
    · rw [if_pos htdr] at hwait
      cases hwait
    · simp only [if_neg htdr, evaluateHeartbeat] at hwait ⊢
      by_cases hstale : m.config.observesStale sample = true
      · simp only [if_pos hstale] at hwait ⊢
        by_cases hgrace : m.config.heartbeatReinitGrace < now - m.heartbeatStaleSince.getD now
        · rw [if_pos hgrace] at hwait
          cases hwait
        · rw [if_neg hgrace]
          exact .inr ⟨rfl, rfl, Int.not_lt.mp hgrace⟩
      · simp only [if_neg hstale] at hwait ⊢
        by_cases hvalid : sample.heartbeatValid = true
        · rw [if_pos hvalid] at hwait ⊢
          obtain ⟨hsince, hbudget, hheartbeat⟩ := evaluateDelivery_of_wait hstate hwait
          exact .inl ⟨hsince, hbudget, .inl hheartbeat⟩
        · rw [if_neg hvalid] at hwait ⊢
          obtain ⟨hsince, hbudget, hheartbeat⟩ := evaluateDelivery_of_wait hstate hwait
          exact .inl ⟨hsince, hbudget, .inr hheartbeat⟩

/-- Both clocks lie in the past. -/
structure ClocksBy (l : Ladder) (now : ℤ) : Prop where
  stale : ∀ since ∈ l.heartbeatStaleSince, since ≤ now
  rebuilding : ∀ since ∈ l.rebuildingSince, since ≤ now

/-- A clock that is off was not started late. -/
theorem clock_off {t : ℤ} : ∀ since ∈ (none : Option ℤ), since ≤ t := by
  intro since hsince
  cases hsince

theorem ClocksBy.mono {t u : ℤ} (h : l.ClocksBy t) (htu : t ≤ u) : l.ClocksBy u where
  stale := fun since hsince => Int.le_trans (h.stale since hsince) htu
  rebuilding := fun since hsince => Int.le_trans (h.rebuilding since hsince) htu

theorem getD_le {since : Option ℤ} (h : ∀ t ∈ since, t ≤ now) : since.getD now ≤ now := by
  cases since with
  | none => exact Int.le_refl now
  | some t => exact h t rfl

theorem ClocksBy.withinRecoveryBudget (h : l.ClocksBy now) :
    (l.withinRecoveryBudget now).1.ClocksBy now where
  stale := h.stale
  rebuilding := by
    rintro _ ⟨⟩
    exact getD_le h.rebuilding

theorem ClocksBy.evaluateDelivery (h : l.ClocksBy now) :
    (l.evaluateDelivery sample now).1.ClocksBy now := by
  simp only [Ladder.evaluateDelivery]
  split
  · split
    · exact ⟨h.stale, h.withinRecoveryBudget.rebuilding⟩
    · exact ⟨h.stale, h.withinRecoveryBudget.rebuilding⟩
  · split
    · split
      · exact ⟨h.stale, h.rebuilding⟩
      · split <;> exact ⟨h.stale, h.rebuilding⟩
    · exact ⟨h.stale, h.rebuilding⟩

/-- A sample starts a clock now or leaves it as it was. -/
theorem ClocksBy.evaluate (h : l.ClocksBy now) : (l.evaluate sample now).1.ClocksBy now := by
  have hobserve : (l.observe sample).ClocksBy now := by
    constructor
    · rw [observe_heartbeatStaleSince]
      exact h.stale
    · simp only [observe]
      split
      · exact clock_off
      · rw [noteGeneration_rebuildingSince]
        exact h.rebuilding
  simp only [Ladder.evaluate, evaluateHeartbeat]
  split
  · exact ⟨hobserve.stale, hobserve.rebuilding⟩
  · split
    · split
      · exact ⟨hobserve.stale, hobserve.withinRecoveryBudget.rebuilding⟩
      · exact ⟨clock_off, hobserve.withinRecoveryBudget.rebuilding⟩
    · split
      · exact ⟨hobserve.stale, hobserve.rebuilding⟩
      · split
        · have hstale : ∀ since ∈ some ((l.observe sample).heartbeatStaleSince.getD now),
              since ≤ now := by
            rintro _ ⟨⟩
            exact getD_le hobserve.stale
          split
          · exact ⟨hstale, hobserve.rebuilding⟩
          · exact ⟨hstale, hobserve.rebuilding⟩
        · split
          · exact ClocksBy.evaluateDelivery ⟨clock_off, hobserve.rebuilding⟩
          · exact hobserve.evaluateDelivery

theorem ClocksBy.recovering (h : l.ClocksBy now) : (l.recovering sample now).1.ClocksBy now := by
  simp only [Ladder.recovering]
  split
  · exact ⟨h.stale, clock_off⟩
  · split
    · exact h
    · exact h.withinRecoveryBudget

theorem recovering_config : (l.recovering sample now).1.config = l.config := by
  simp only [Ladder.recovering]
  split
  · rfl
  · split <;> rfl

/-- A hand-over, as the owner does it: a fresh ladder adopts the clock of the old one. -/
def handOver (l : Ladder) (now : ℤ) : Ladder :=
  ({ config := l.config } : Ladder).adoptRecoveryStart l.recoveryStart now

/-- The clock was confirmed recently enough to be adopted. -/
def Current (l : Ladder) (now : ℤ) : Prop :=
  ∀ clock ∈ l.recoveryStart, now - clock.lastSeen ≤ l.config.recoveryClockHandoffGrace

instance : Decidable (l.Current now) :=
  inferInstanceAs (Decidable (∀ _ ∈ l.recoveryStart, _ ≤ _))

theorem adoptRecoveryStart_config (clock : Option RecoveryClock) :
    (l.adoptRecoveryStart clock now).config = l.config := by
  simp only [adoptRecoveryStart]
  split
  · rfl
  · split <;> rfl

theorem adoptRecoveryStart_heartbeatStaleSince (clock : Option RecoveryClock) :
    (l.adoptRecoveryStart clock now).heartbeatStaleSince = l.heartbeatStaleSince := by
  simp only [adoptRecoveryStart]
  split
  · rfl
  · split <;> rfl

@[simp] theorem handOver_config : (l.handOver now).config = l.config := by
  rw [handOver, adoptRecoveryStart_config]

@[simp] theorem handOver_heartbeatStaleSince : (l.handOver now).heartbeatStaleSince = none := by
  rw [handOver, adoptRecoveryStart_heartbeatStaleSince]

/-- **A clock that is handed over while it is current keeps its start.** -/
theorem handOver_rebuildingSince (h : l.Current now) :
    (l.handOver now).rebuildingSince = l.rebuildingSince := by
  cases hsince : l.rebuildingSince with
  | none => simp [handOver, adoptRecoveryStart, recoveryStart, hsince]
  | some since =>
      have hclock : l.recoveryStart = some ⟨since, l.rebuildingSeen.getD since⟩ := by
        simp [recoveryStart, hsince]
      have hcurrent := h _ hclock
      have hadopts : ¬ l.config.recoveryClockHandoffGrace < now - l.rebuildingSeen.getD since :=
        Int.not_lt.mpr hcurrent
      simp only [handOver, hclock, adoptRecoveryStart, if_neg hadopts]

/-- Adopted or not, the clock of the new reader lies in the past. -/
theorem ClocksBy.handOver (h : l.ClocksBy now) : (l.handOver now).ClocksBy now := by
  constructor
  · rw [handOver_heartbeatStaleSince]
    exact clock_off
  · intro since hsince
    simp only [Ladder.handOver, adoptRecoveryStart, recoveryStart] at hsince
    cases hold : l.rebuildingSince with
    | none =>
        rw [hold] at hsince
        cases hsince
    | some start =>
        rw [hold] at hsince
        simp only [Option.map_some] at hsince
        split at hsince
        · cases hsince
        · cases hsince
          exact h.rebuilding _ hold

end Ladder

/-! ## Readers of one ring -/

namespace Recovery

/-- The reader that is watching, the time of the last event and of the last sample, and how
often the ring changed hands. -/
structure Reader where
  ladder : Ladder
  now : ℤ
  sampledAt : ℤ
  handovers : ℕ

/-- The first reader of a ring. -/
def Reader.first (config : Config) (now : ℤ) : Reader := ⟨{ config := config }, now, now, 0⟩

inductive Event where
  | sample (sample : Sample) (now : ℤ)
  | recovering (sample : Sample) (now : ℤ)
  | noteDelivered
  | resetRecoveryClock
  | handOver (now : ℤ)
  deriving DecidableEq, Repr

def watch (r : Reader) : Event → Option Reader
  | .sample sample now =>
      some { r with
        ladder := (r.ladder.evaluate sample now).1
        now := now
        sampledAt := now }
  | .recovering sample now =>
      some { r with ladder := (r.ladder.recovering sample now).1, now := now }
  | .noteDelivered => some { r with ladder := r.ladder.noteDelivered }
  | .resetRecoveryClock => some { r with ladder := r.ladder.clearRecoveryClock }
  | .handOver now =>
      some { r with
        ladder := r.ladder.handOver now
        now := now
        handovers := r.handovers + 1 }

/-- Time goes on. -/
def Forward (r : Reader) : Event → Prop
  | .sample _ now | .recovering _ now | .handOver now => r.now ≤ now
  | .noteDelivered | .resetRecoveryClock => True

/-- The ring is rebuilding in every sample, at most `d` after the one before, and each is
answered with a wait; a hand-over finds the recovery clock current. -/
def Waits (d : ℕ) (r : Reader) : Event → Prop
  | .sample sample now =>
      sample.state = stateRebuilding ∧ r.now ≤ now ∧ now ≤ r.sampledAt + d ∧
        (r.ladder.evaluate sample now).2.verdict = .wait
  | .handOver now => r.now ≤ now ∧ r.ladder.Current now
  | .recovering _ _ | .noteDelivered | .resetRecoveryClock => False

instance (r : Reader) : ∀ event, Decidable (Forward r event)
  | .sample _ _ | .recovering _ _ | .handOver _ => inferInstanceAs (Decidable (_ ≤ _))
  | .noteDelivered | .resetRecoveryClock => isTrue trivial

instance (d : ℕ) (r : Reader) : ∀ event, Decidable (Waits d r event)
  | .sample _ _ => inferInstanceAs (Decidable (_ = _ ∧ _ ≤ _ ∧ _ ≤ _ ∧ _ = _))
  | .handOver _ => inferInstanceAs (Decidable (_ ≤ _ ∧ Ladder.Current _ _))
  | .recovering _ _ | .noteDelivered | .resetRecoveryClock => isFalse id

/-! ## Before the outage -/

/-- What holds of every reader: its configuration, and that its clocks lie in the past. -/
structure Sound (config : Config) (r : Reader) : Prop where
  config_eq : r.ladder.config = config
  clocks : r.ladder.ClocksBy r.now

theorem watch_sound {config : Config} (r : Reader) (event : Event) (r' : Reader)
    (h : Sound config r) (hforward : Forward r event) (hstep : watch r event = some r') :
    Sound config r' := by
  cases event with
  | sample sample now =>
      cases hstep
      have hclocks := h.clocks.mono hforward
      exact ⟨by rw [Ladder.evaluate_config, h.config_eq], hclocks.evaluate⟩
  | recovering sample now =>
      cases hstep
      have hclocks := h.clocks.mono hforward
      exact ⟨by rw [Ladder.recovering_config, h.config_eq], hclocks.recovering⟩
  | noteDelivered =>
      cases hstep
      exact ⟨h.config_eq, h.clocks.stale, h.clocks.rebuilding⟩
  | resetRecoveryClock =>
      cases hstep
      exact ⟨h.config_eq, h.clocks.stale, Ladder.clock_off⟩
  | handOver now =>
      cases hstep
      have hclocks := h.clocks.mono hforward
      exact ⟨by rw [Ladder.handOver_config, h.config_eq], hclocks.handOver⟩

theorem sound_first (config : Config) (now : ℤ) : Sound config (Reader.first config now) where
  config_eq := rfl
  clocks := ⟨Ladder.clock_off, Ladder.clock_off⟩

/-! ## During the outage -/

/-- One stale spell, with the gap that follows it. -/
def Config.spell (config : Config) (d : ℕ) : ℤ := max 0 config.heartbeatReinitGrace + d

/-- The budget has not been checked yet: there have been only stale spells, one for each
reader. -/
def Unchecked (config : Config) (d : ℕ) (begun : ℤ) (used : ℤ) (r : Reader) : Prop :=
  r.sampledAt + d ≤ begun + used ∨
    ∃ since, r.ladder.heartbeatStaleSince = some since ∧ since ≤ begun + used ∧
      r.sampledAt ≤ since + max 0 config.heartbeatReinitGrace

/-- The clock has been running since `started`; after the last check there have been only
stale spells, which used `spent`. -/
def Checked (config : Config) (d : ℕ) (begun : ℤ) (used : ℤ) (r : Reader) : Prop :=
  ∃ started spent, r.ladder.rebuildingSince = some started ∧ 0 ≤ spent ∧
    started + spent ≤ begun + used + Config.spell config d ∧
    (r.sampledAt ≤ started + max 0 config.recoveryBudget + spent ∨
      ∃ since, r.ladder.heartbeatStaleSince = some since ∧
        since ≤ started + max 0 config.recoveryBudget + spent + d ∧
        r.sampledAt ≤ since + max 0 config.heartbeatReinitGrace)

/-- The invariant of an outage that began at `begun` when the ring had changed hands
`before` times. -/
structure Bounded (config : Config) (d : ℕ) (begun : ℤ) (before : ℕ) (r : Reader) : Prop where
  sound : Sound config r
  phase : Unchecked config d begun ((r.handovers - before) * Config.spell config d) r ∨
    Checked config d begun ((r.handovers - before) * Config.spell config d) r

theorem spell_eq (config : Config) (d : ℕ) :
    Config.spell config d = max 0 config.heartbeatReinitGrace + d := rfl

section Outage

variable {config : Config} {d : ℕ} {begun : ℤ} {before : ℕ} {r : Reader}

/-- A sample that is answered with a wait. -/
theorem Bounded.sample (h : Bounded config d begun before r) {sample : Sample} {now : ℤ}
    (hwaits : Waits d r (.sample sample now)) :
    Bounded config d begun before
      { r with ladder := (r.ladder.evaluate sample now).1, now := now, sampledAt := now } := by
  obtain ⟨hstate, hforward, hgap, hwait⟩ := hwaits
  have hclocks := h.sound.clocks.mono hforward
  refine ⟨watch_sound r (.sample sample now) _ h.sound hforward rfl, ?_⟩
  have hspell := spell_eq config d
  set used := ((r.handovers : ℤ) - before) * Config.spell config d
  rcases Ladder.evaluate_of_wait hstate hwait with
    ⟨hsince, hbudget, -⟩ | ⟨hsince, hheartbeat, hgrace⟩
  · -- The budget was checked: the clock runs, and nothing has been used after the check.
    have hstarted := Ladder.getD_le hclocks.rebuilding
    rw [h.sound.config_eq] at hbudget
    right
    refine ⟨_, 0, hsince, Int.le_refl 0, ?_, .inl ?_⟩
    · rcases h.phase with hunchecked | ⟨started, spent, hold, hspent, hbound, -⟩
      · rcases hunchecked with hleft | ⟨since, -, hsince_le, hsampled⟩
        · show _ ≤ begun + used + Config.spell config d
          omega
        · show _ ≤ begun + used + Config.spell config d
          omega
      · rw [hold, Option.getD_some]
        show _ ≤ begun + used + Config.spell config d
        omega
    · show now ≤ _
      omega
  · -- The heartbeat is stale: its clock started now or at an earlier sample.
    have hstale := Ladder.getD_le hclocks.stale
    rw [h.sound.config_eq] at hgrace
    rcases h.phase with hunchecked | ⟨started, spent, hold, hspent, hbound, hlast⟩
    · left
      right
      refine ⟨_, hheartbeat, ?_, by show now ≤ _; omega⟩
      rcases hunchecked with hleft | ⟨since, hsome, hsince_le, -⟩
      · show _ ≤ begun + used
        omega
      · rw [hsome, Option.getD_some]
        exact hsince_le
    · right
      refine ⟨started, spent, hsince.trans hold, hspent, hbound,
        .inr ⟨_, hheartbeat, ?_, by show now ≤ _; omega⟩⟩
      rcases hlast with hleft | ⟨since, hsome, hsince_le, -⟩
      · omega
      · rw [hsome, Option.getD_some]
        exact hsince_le

/-- A hand-over of a current clock. -/
theorem Bounded.handOver (h : Bounded config d begun before r) {now : ℤ}
    (hwaits : Waits d r (.handOver now)) :
    Bounded config d begun before
      { r with ladder := r.ladder.handOver now, now := now, handovers := r.handovers + 1 } := by
  obtain ⟨hforward, hcurrent⟩ := hwaits
  refine ⟨watch_sound r (.handOver now) _ h.sound hforward rfl, ?_⟩
  have hspell := spell_eq config d
  have hused : (((r.handovers + 1 : ℕ) : ℤ) - before) * Config.spell config d =
      (r.handovers - before) * Config.spell config d + Config.spell config d := by
    push_cast
    ring
  simp only [hused]
  set used := ((r.handovers : ℤ) - before) * Config.spell config d
  rcases h.phase with hunchecked | ⟨started, spent, hold, hspent, hbound, hlast⟩
  · left
    left
    rcases hunchecked with hleft | ⟨since, -, hsince_le, hsampled⟩
    · show r.sampledAt + d ≤ _
      omega
    · show r.sampledAt + d ≤ _
      omega
  · right
    refine ⟨started, spent + Config.spell config d,
      (Ladder.handOver_rebuildingSince hcurrent).trans hold, by omega, by omega, .inl ?_⟩
    rcases hlast with hleft | ⟨since, -, hsince_le, hsampled⟩
    · show r.sampledAt ≤ _
      omega
    · show r.sampledAt ≤ _
      omega

/-- The first sample of an outage.  It comes after no gap, so the one before it is taken to
be as long ago as a gap may be. -/
theorem bounded_begin (h : Sound config r) {sample : Sample}
    (hstate : sample.state = stateRebuilding) (hbegun : r.now ≤ begun)
    (hwait : (r.ladder.evaluate sample begun).2.verdict = .wait) :
    Bounded config d begun r.handovers
      { r with ladder := (r.ladder.evaluate sample begun).1, now := begun, sampledAt := begun } := by
  have hbefore : Bounded config d begun r.handovers { r with sampledAt := begun - d } := by
    refine ⟨⟨h.config_eq, h.clocks⟩, .inl (.inl ?_)⟩
    simp
  exact hbefore.sample ⟨hstate, hbegun, by simp, hwait⟩

/-- How long the outage has lasted at its last sample. -/
theorem Bounded.span (h : Bounded config d begun before r) :
    r.sampledAt - begun ≤
      max 0 config.recoveryBudget
        + (r.handovers - before + 2) * (max 0 config.heartbeatReinitGrace + d) := by
  have hspell := spell_eq config d
  have htotal : ((r.handovers : ℤ) - before + 2) * (max 0 config.heartbeatReinitGrace + d) =
      (r.handovers - before) * Config.spell config d + 2 * Config.spell config d := by
    rw [hspell]
    ring
  rw [htotal]
  have hphase := h.phase
  set used := ((r.handovers : ℤ) - before) * Config.spell config d
  rcases hphase with hunchecked | ⟨started, spent, -, hspent, hbound, hlast⟩
  · rcases hunchecked with hleft | ⟨since, -, hsince_le, hsampled⟩
    · omega
    · omega
  · rcases hlast with hleft | ⟨since, -, hsince_le, hsampled⟩
    · omega
    · omega

end Outage

theorem watch_bounded {config : Config} {d : ℕ} {begun : ℤ} {before : ℕ} (r : Reader)
    (event : Event) (r' : Reader) (h : Bounded config d begun before r) (hwaits : Waits d r event)
    (hstep : watch r event = some r') : Bounded config d begun before r' := by
  cases event with
  | sample sample now =>
      cases hstep
      exact h.sample hwaits
  | handOver now =>
      cases hstep
      exact h.handOver hwaits
  | recovering sample now => exact hwaits.elim
  | noteDelivered => exact hwaits.elim
  | resetRecoveryClock => exact hwaits.elim

/-- The clock of an outage keeps its start. -/
theorem watch_rebuildingSince {d : ℕ} {since : ℤ} (r : Reader) (event : Event) (r' : Reader)
    (h : r.ladder.rebuildingSince = some since) (hwaits : Waits d r event)
    (hstep : watch r event = some r') : r'.ladder.rebuildingSince = some since := by
  cases event with
  | sample sample now =>
      cases hstep
      obtain ⟨hstate, -, -, hwait⟩ := hwaits
      rcases Ladder.evaluate_of_wait hstate hwait with ⟨hsince, -⟩ | ⟨hsince, -⟩
      · rw [h, Option.getD_some] at hsince
        exact hsince
      · exact hsince.trans h
  | handOver now =>
      cases hstep
      exact (Ladder.handOver_rebuildingSince hwaits.2).trans h
  | recovering sample now => exact hwaits.elim
  | noteDelivered => exact hwaits.elim
  | resetRecoveryClock => exact hwaits.elim

/-- **The wait for a rebuilding ring is bounded.**  After any history of readers, let the
ring be rebuilding in every sample of a run, each at most `d` after the one before and each
answered with a wait, and let every hand-over on the way find the recovery clock current.
Then the run takes no longer than the recovery budget and, for each reader and once more,
the heartbeat grace with a gap; and once the recovery clock runs, its start never changes,
whoever holds it. -/
theorem recovery_wait_bounded (config : Config) (start : ℤ) {history : List Event} {r : Reader}
    (hforward : RunMeets watch Forward (Reader.first config start) history)
    (hhistory : run watch (Reader.first config start) history = some r)
    {d : ℕ} {sample : Sample} {begun : ℤ} (hrebuilding : sample.state = stateRebuilding)
    (hbegun : r.now ≤ begun) (hwait : (r.ladder.evaluate sample begun).2.verdict = .wait)
    {r₁ : Reader} (hfirst : watch r (.sample sample begun) = some r₁)
    {outage : List Event} {r₂ : Reader} (hwaits : RunMeets watch (Waits d) r₁ outage)
    (hrun : run watch r₁ outage = some r₂) :
    r₂.sampledAt - begun ≤
        max 0 config.recoveryBudget
          + (r₂.handovers - r₁.handovers + 2) * (max 0 config.heartbeatReinitGrace + d) ∧
      ∀ since, r₁.ladder.rebuildingSince = some since →
        r₂.ladder.rebuildingSince = some since := by
  have hsound := run_invariant_of_meets watch_sound (sound_first config start) hforward hhistory
  cases hfirst
  have hbounded := run_invariant_of_meets watch_bounded
    (bounded_begin hsound hrebuilding hbegun hwait) hwaits hrun
  refine ⟨hbounded.span, fun since hsince => ?_⟩
  exact run_invariant_of_meets watch_rebuildingSince hsince hwaits hrun

/-- A rebuilding ring with a live heartbeat. -/
def rebuildingSample : Sample := { state := stateRebuilding, heartbeatValid := true }

/-- The same ring with a stale one. -/
def staleSample : Sample :=
  { state := stateRebuilding, heartbeatValid := true, heartbeatAge := 3 * second }

/-- The heartbeat goes stale, the reader is replaced, and the heartbeat comes back. -/
def replacedReader : List Event :=
  [.sample staleSample (5 * second), .handOver (6 * second), .sample staleSample (10 * second),
    .sample rebuildingSample (15 * second)]

theorem replacedReader_bounded :
    ∃ r, run watch ⟨(({} : Ladder).evaluate rebuildingSample 0).1, 0, 0, 0⟩ replacedReader =
        some r ∧
      r.sampledAt - 0 ≤ 660 * second + (1 - 0 + 2) * (10 * second + 5000000000) ∧
      r.ladder.rebuildingSince = some 0 := by
  have hforward : RunMeets watch Forward (Reader.first {} 0) [] := trivial
  have hbegun : (Reader.first {} 0).now ≤ 0 := Int.le_refl 0
  have hwait : ((Reader.first {} 0).ladder.evaluate rebuildingSample 0).2.verdict = .wait := by
    decide
  have hwaits : RunMeets watch (Waits 5000000000)
      ⟨(({} : Ladder).evaluate rebuildingSample 0).1, 0, 0, 0⟩ replacedReader := by decide
  obtain ⟨hspan, hsince⟩ :=
    recovery_wait_bounded {} 0 hforward rfl rfl hbegun hwait rfl hwaits rfl
  exact ⟨_, rfl, hspan, hsince 0 rfl⟩

/-- **A clock nobody has confirmed for longer than the hand-over grace is not adopted.**  The
outage goes on, each reader answers that it is recovering, and the second one's budget
starts afresh. -/
theorem unconfirmed_clock_restarts :
    ∃ r₁ r₂, run watch (Reader.first {} 0) [.sample rebuildingSample 0] = some r₁ ∧
      run watch r₁ [.handOver (31 * second)] = some r₂ ∧
      (r₁.ladder.evaluate rebuildingSample (31 * second)).2.reason = .recovering ∧
      (r₁.ladder.evaluate rebuildingSample (31 * second)).1.rebuildingSince = some 0 ∧
      (r₂.ladder.evaluate rebuildingSample (31 * second)).2.reason = .recovering ∧
      (r₂.ladder.evaluate rebuildingSample (31 * second)).1.rebuildingSince =
        some (31 * second) :=
  ⟨_, _, rfl, rfl, by decide, by decide, by decide, by decide⟩

end Recovery

end LuminalShine.Ring
