import LuminalShine.Lib.Run
import Mathlib.Data.List.Chain
import Mathlib.Data.List.Induction
import Mathlib.Tactic.Ring
import Mathlib.Tactic.Linarith

/-!
# The encoder's recovery gate

`encoder_recovery_gate_t` of `src/encoder_recovery_gate.h`.  An encoder thread asks it whether
to hold a session while the capture source recovers; the gate charges every interval that
follows a recovering observation, until progress is noted.

Times are in nanoseconds.  The clock is monotonic: an observation earlier than the last one
is no step.

## Main definitions

* `Gate.evaluate`, `Gate.noteProgress` — the source's functions.
* `timeAfter` — the total of the intervals that follow chosen observations.
* `Watch`, `step` — a gate with its observations and answers since the last progress.

## Main results

* `Inv.step` — the gate's own total is the time after recovering observations.
* `timeAfter_held_le` — how much of it was spent holding.
-/

namespace LuminalShine.Encoder.RecoveryGate

open LuminalShine.Lib

/-- `encoder_recovery_action_e`. -/
inductive Action
  | fail
  | hold
  deriving DecidableEq, Repr

/-- `encoder_recovery_gate_t`, its configuration included. -/
structure Gate where
  holdCeiling : ℤ
  held : ℤ
  lastObservation : Option ℤ
  lastWasRecovering : Bool
  deriving DecidableEq, Repr

/-- The constructor from a configuration. -/
def Gate.new (holdCeiling : ℤ) : Gate :=
  { holdCeiling, held := 0, lastObservation := none, lastWasRecovering := false }

/-- What `evaluate` adds to the time held before it looks at the new verdict. -/
def Gate.charge (g : Gate) (now : ℤ) : ℤ :=
  match g.lastObservation with
  | none => 0
  | some last => if g.lastWasRecovering ∧ now - last > 0 then now - last else 0

/-- `evaluate`: the gate it leaves. -/
def Gate.observe (g : Gate) (captureRecovering : Bool) (now : ℤ) : Gate :=
  { g with
    held := g.held + g.charge now
    lastObservation := some now
    lastWasRecovering := captureRecovering }

/-- `evaluate`: its answer, and the gate it leaves. -/
def Gate.evaluate (g : Gate) (captureRecovering : Bool) (now : ℤ) : Action × Gate :=
  let g := g.observe captureRecovering now
  if !captureRecovering then (.fail, g)
  else if g.held > g.holdCeiling then (.fail, g)
  else (.hold, g)

/-- `note_progress`. -/
def Gate.noteProgress (g : Gate) : Gate :=
  { g with held := 0, lastObservation := none, lastWasRecovering := false }

theorem Gate.evaluate_snd (g : Gate) (r : Bool) (now : ℤ) :
    (g.evaluate r now).2 = g.observe r now := by
  simp only [Gate.evaluate]
  split_ifs <;> rfl

/-- The gate holds exactly while the source recovers and its total is within the ceiling. -/
theorem Gate.evaluate_fst (g : Gate) (r : Bool) (now : ℤ) :
    (g.evaluate r now).1 = .hold ↔ r = true ∧ g.held + g.charge now ≤ g.holdCeiling := by
  cases r <;> simp [Gate.evaluate, Gate.observe, apply_ite Prod.fst]

/-! ## Intervals -/

/-- One observation, and what the gate answered. -/
structure Entry where
  recovering : Bool
  now : ℤ
  action : Action
  deriving DecidableEq, Repr

/-- The total of the intervals that follow a chosen observation. -/
def timeAfter (p : Entry → Bool) : List Entry → ℤ
  | e :: e' :: rest => (if p e then e'.now - e.now else 0) + timeAfter p (e' :: rest)
  | _ => 0

/-- The source was recovering; the gate held. -/
def Entry.held (e : Entry) : Bool := decide (e.action = .hold)

/-- No observation is earlier than the one before it. -/
def Monotonic (history : List Entry) : Prop := history.IsChain (·.now ≤ ·.now)

/-- No two observations in a row are further apart. -/
def Sampled (gap : ℤ) (history : List Entry) : Prop :=
  history.IsChain (fun e e' => e'.now - e.now ≤ gap)

variable {p q : Entry → Bool} {history earlier later : List Entry} {e last : Entry}

@[simp] theorem timeAfter_nil : timeAfter p [] = 0 := rfl

@[simp] theorem timeAfter_singleton : timeAfter p [e] = 0 := rfl

/-- A further observation ends the interval after the last one. -/
theorem timeAfter_concat :
    timeAfter p (history ++ [last] ++ [e]) =
      timeAfter p (history ++ [last]) + (if p last then e.now - last.now else 0) := by
  induction history with
  | nil => simp [timeAfter]
  | cons x history ih =>
      cases history with
      | nil =>
          simp only [List.cons_append, List.nil_append, timeAfter]
          ring
      | cons y history =>
          simp only [List.cons_append, timeAfter] at ih ⊢
          rw [ih, add_assoc]

theorem monotonic_concat :
    Monotonic (history ++ [last] ++ [e]) ↔ Monotonic (history ++ [last]) ∧ last.now ≤ e.now := by
  rw [Monotonic, List.isChain_append]
  simp [Monotonic]

theorem sampled_concat {gap : ℤ} :
    Sampled gap (history ++ [last] ++ [e]) ↔
      Sampled gap (history ++ [last]) ∧ e.now - last.now ≤ gap := by
  rw [Sampled, List.isChain_append]
  simp [Sampled]

/-- The time only grows as observations come in. -/
theorem timeAfter_le_append (h : Monotonic (earlier ++ later)) :
    timeAfter p earlier ≤ timeAfter p (earlier ++ later) := by
  induction later using List.reverseRecOn with
  | nil => simp
  | append_singleton later e ih =>
      rw [← List.append_assoc] at h ⊢
      rcases List.eq_nil_or_concat' (earlier ++ later) with hnil | ⟨history, last, heq⟩
      · rw [List.append_eq_nil_iff] at hnil
        simp [hnil]
      · rw [heq, monotonic_concat] at h
        rw [heq] at ih ⊢
        refine (ih h.1).trans ?_
        rw [timeAfter_concat]
        split_ifs <;> linarith [h.2]

/-- What follows fewer observations is no more time. -/
theorem timeAfter_mono (hpq : ∀ e ∈ history, p e → q e) (h : Monotonic history) :
    timeAfter p history ≤ timeAfter q history := by
  induction history using List.reverseRecOn with
  | nil => exact le_rfl
  | append_singleton history e ih =>
      rcases List.eq_nil_or_concat' history with rfl | ⟨history, last, rfl⟩
      · exact le_rfl
      · rw [monotonic_concat] at h
        have hle := ih (fun x hx => hpq x (List.mem_append_left _ hx)) h.1
        have hlast := hpq last (by simp)
        rw [timeAfter_concat, timeAfter_concat]
        by_cases hp : p last
        · rw [if_pos hp, if_pos (hlast hp)]
          linarith
        · rw [if_neg hp]
          split_ifs <;> linarith [h.2]

/-- **Time held.**  If at every held observation the time after recovering ones was within a
ceiling, the whole time held is within the ceiling and one interval more. -/
theorem timeAfter_held_le {ceiling gap : ℤ}
    (hanswers : ∀ (earlier : List Entry) (e : Entry) (later : List Entry),
      history = earlier ++ e :: later → e.held →
      e.recovering ∧ timeAfter Entry.recovering (earlier ++ [e]) ≤ ceiling)
    (h : Monotonic history) (hgap : Sampled gap history) :
    timeAfter Entry.held history = 0 ∨ timeAfter Entry.held history ≤ ceiling + gap := by
  induction history using List.reverseRecOn with
  | nil => exact .inl rfl
  | append_singleton history e ih =>
      rcases List.eq_nil_or_concat' history with rfl | ⟨history, last, rfl⟩
      · exact .inl rfl
      · rw [monotonic_concat] at h
        rw [sampled_concat] at hgap
        rw [timeAfter_concat]
        split_ifs with hheld
        · -- The last observation was held: all the time before it is within the ceiling.
          have hlast := (hanswers history last [e] (by simp) hheld).2
          have hmono := timeAfter_mono (p := Entry.held) (q := Entry.recovering)
            (fun x hx hp => by
              obtain ⟨before, after, heq⟩ := List.append_of_mem hx
              exact (hanswers before x (after ++ [e]) (by rw [heq]; simp) hp).1) h.1
          exact .inr (by linarith [hgap.2])
        · rw [add_zero]
          refine ih (fun before x after heq hx => ?_) h.1 hgap.1
          exact hanswers before x (after ++ [e]) (by rw [heq]; simp) hx

/-! ## Watching a source -/

/-- A gate, and what it was told and answered since progress was last noted. -/
structure Watch where
  gate : Gate
  history : List Entry
  deriving DecidableEq, Repr

/-- What an encoder thread does with its gate. -/
inductive Event
  | observe (captureRecovering : Bool) (now : ℤ)
  | progress

/-- The thread's gate, before anything has happened. -/
def Watch.new (holdCeiling : ℤ) : Watch := { gate := .new holdCeiling, history := [] }

/-- The clock has not gone back since the last observation. -/
def Watch.Later (w : Watch) (now : ℤ) : Prop := ∀ last ∈ w.history.getLast?, last.now ≤ now

instance (w : Watch) (now : ℤ) : Decidable (w.Later now) :=
  inferInstanceAs (Decidable (∀ last ∈ w.history.getLast?, last.now ≤ now))

/-- One event. -/
def step (w : Watch) : Event → Option Watch
  | .observe r now =>
      if w.Later now then
        some { gate := (w.gate.evaluate r now).2,
               history := w.history ++ [⟨r, now, (w.gate.evaluate r now).1⟩] }
      else none
  | .progress => some { gate := w.gate.noteProgress, history := [] }

/-- The gate's own state says how long the source was recovering, and its answers went by it. -/
structure Inv (w : Watch) (ceiling : ℤ) : Prop where
  configured : w.gate.holdCeiling = ceiling
  held : w.gate.held = timeAfter Entry.recovering w.history
  lastObservation : w.gate.lastObservation = w.history.getLast?.map Entry.now
  lastWasRecovering :
    w.gate.lastWasRecovering = (w.history.getLast?.map Entry.recovering).getD false
  monotonic : Monotonic w.history
  answers : ∀ (earlier : List Entry) (e : Entry) (later : List Entry),
    w.history = earlier ++ e :: later →
    (e.action = .hold ↔ e.recovering ∧ timeAfter Entry.recovering (earlier ++ [e]) ≤ ceiling)

theorem inv_nil {g : Gate} {ceiling : ℤ} (h : g.holdCeiling = ceiling) (hheld : g.held = 0)
    (hlast : g.lastObservation = none) (hrec : g.lastWasRecovering = false) :
    Inv ⟨g, []⟩ ceiling where
  configured := h
  held := hheld
  lastObservation := hlast
  lastWasRecovering := hrec
  monotonic := List.IsChain.nil
  answers := by simp

/-- What is charged is the interval after the last observation, if that was recovering. -/
theorem Inv.charge {w : Watch} {ceiling now : ℤ} {r : Bool} {a : Action} (h : Inv w ceiling)
    (hlater : w.Later now) :
    timeAfter Entry.recovering (w.history ++ [⟨r, now, a⟩]) =
      w.gate.held + w.gate.charge now := by
  have hheld := h.held
  have hlast := h.lastObservation
  have hrec := h.lastWasRecovering
  rcases List.eq_nil_or_concat' w.history with hnil | ⟨history, last, heq⟩
  · rw [hnil] at hheld hlast ⊢
    simp [Gate.charge, hlast, hheld]
  · have hle : last.now ≤ now := hlater last (by rw [heq]; simp)
    rw [heq] at hheld hlast hrec ⊢
    rw [timeAfter_concat, hheld, Gate.charge, hlast, hrec]
    simp only [List.getLast?_append, List.getLast?_singleton, Option.some_or, Option.map_some,
      Option.getD_some]
    cases last.recovering with
    | false => simp
    | true =>
        simp only [if_true, true_and, add_right_inj]
        split_ifs <;> omega

theorem Inv.observe {w : Watch} {ceiling now : ℤ} {r : Bool} (h : Inv w ceiling)
    (hlater : w.Later now) :
    Inv ⟨(w.gate.evaluate r now).2, w.history ++ [⟨r, now, (w.gate.evaluate r now).1⟩]⟩
      ceiling := by
  rw [Gate.evaluate_snd]
  refine ⟨h.configured, (h.charge hlater).symm, by simp [Gate.observe], by simp [Gate.observe],
    ?_, ?_⟩
  · rcases List.eq_nil_or_concat' w.history with hnil | ⟨history, last, heq⟩
    · simp [hnil, Monotonic]
    · have hmono := h.monotonic
      rw [heq] at hmono ⊢
      exact monotonic_concat.mpr ⟨hmono, hlater last (by rw [heq]; simp)⟩
  · intro earlier e later heq
    rcases List.eq_nil_or_concat' later with rfl | ⟨later, x, rfl⟩
    · -- The new observation itself.
      obtain ⟨rfl, hx⟩ := List.append_inj' heq rfl
      obtain rfl := List.singleton_inj.mp hx
      rw [h.charge hlater, Gate.evaluate_fst, h.configured]
    · rw [← List.cons_append, ← List.append_assoc] at heq
      exact h.answers earlier e later (List.append_inj' heq rfl).1

theorem Inv.step {w w' : Watch} {ceiling : ℤ} {i : Event} (h : Inv w ceiling)
    (hs : step w i = some w') : Inv w' ceiling := by
  cases i with
  | observe r now =>
      simp only [RecoveryGate.step, guarded_eq_some] at hs
      exact hs.2 ▸ h.observe hs.1
  | progress =>
      simp only [RecoveryGate.step, Option.some.injEq] at hs
      exact hs ▸ inv_nil h.configured rfl rfl rfl

theorem inv_run {w : Watch} {ceiling : ℤ} {is : List Event}
    (hrun : run step (.new ceiling) is = some w) : Inv w ceiling :=
  run_invariant (P := fun w => Inv w ceiling) (fun _ _ _ hw hs => hw.step hs)
    (inv_nil rfl rfl rfl rfl) hrun

/-- What the gate guarantees since progress was last noted: it holds exactly while the source
recovers and the time after recovering observations is within the ceiling; what was held
is within the ceiling and one interval more; and beyond the ceiling it never holds again. -/
structure Bounded (ceiling : ℤ) (history : List Entry) : Prop where
  holds : ∀ (earlier : List Entry) (e : Entry) (later : List Entry),
    history = earlier ++ e :: later →
    (e.action = .hold ↔ e.recovering ∧ timeAfter Entry.recovering (earlier ++ [e]) ≤ ceiling)
  held : ∀ gap, Sampled gap history →
    timeAfter Entry.held history = 0 ∨ timeAfter Entry.held history ≤ ceiling + gap
  exhausted : ∀ (earlier : List Entry) (e : Entry) (between : List Entry) (e' : Entry)
    (later : List Entry), history = earlier ++ e :: (between ++ e' :: later) →
    ceiling < timeAfter Entry.recovering (earlier ++ [e]) → e.action = .fail ∧ e'.action = .fail

theorem Inv.bounded {w : Watch} {ceiling : ℤ} (h : Inv w ceiling) :
    Bounded ceiling w.history where
  holds := h.answers
  held := fun gap hgap => by
    refine timeAfter_held_le (fun earlier e later heq he => ?_) h.monotonic hgap
    exact (h.answers earlier e later heq).mp (by simpa [Entry.held] using he)
  exhausted := by
    intro earlier e between e' later heq hover
    have hmono := h.monotonic
    have hsplit : w.history = (earlier ++ [e]) ++ (between ++ [e']) ++ later := by
      rw [heq]
      simp
    rw [hsplit] at hmono
    have hle : timeAfter Entry.recovering (earlier ++ [e]) ≤
        timeAfter Entry.recovering (earlier ++ [e] ++ (between ++ [e'])) :=
      timeAfter_le_append (List.IsChain.left_of_append hmono)
    have hfail : ∀ x before after, w.history = before ++ x :: after →
        ceiling < timeAfter Entry.recovering (before ++ [x]) → x.action = .fail := by
      intro x before after hx hlt
      have hne : x.action ≠ .hold := fun hhold =>
        absurd ((h.answers before x after hx).mp hhold).2 (by omega)
      cases hx' : x.action with
      | fail => rfl
      | hold => exact absurd hx' hne
    refine ⟨hfail e earlier _ heq hover,
      hfail e' (earlier ++ e :: between) later (by simp [heq]) ?_⟩
    refine hover.trans_le (hle.trans_eq ?_)
    simp

/-- **The ceiling bounds the time held.**  Whatever is observed and whenever progress is noted,
the observations since then are bounded by the ceiling. -/
theorem bounded_of_run {ceiling : ℤ} {is : List Event} {w : Watch}
    (hrun : run step (.new ceiling) is = some w) : Bounded ceiling w.history :=
  (inv_run hrun).bounded

/-- A source that flaps: twelve units recovering in two parts, against a ceiling of ten. -/
theorem bounded_of_run_flapping :
    Bounded 10 [⟨true, 0, .hold⟩, ⟨false, 6, .fail⟩, ⟨true, 20, .hold⟩, ⟨true, 26, .fail⟩] :=
  bounded_of_run (show run step (.new 10)
      [.progress, .observe true 0, .observe false 6, .observe true 20, .observe true 26] =
    some ⟨⟨10, 12, some 26, true⟩,
      [⟨true, 0, .hold⟩, ⟨false, 6, .fail⟩, ⟨true, 20, .hold⟩, ⟨true, 26, .fail⟩]⟩ by decide)

end LuminalShine.Encoder.RecoveryGate
