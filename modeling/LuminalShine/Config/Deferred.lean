import LuminalShine.Lib.Run
import Mathlib.Data.Nat.Basic
import Mathlib.Data.Nat.Notation

/-!
# The deferred output override

While the lock screen is up, a virtual output is not made the override: it is stored, and a
worker applies it once the screen has cleared.  A call stores under the lock and starts the
worker afterwards, unless the flag says that there is one.  The worker decides under the lock
that it is done and resets the flag later; after applying it may wait for seconds before that.

A critical section is one step.  The lock screen and the displays change at any time.

## Main definitions

* `Overrides`, `Label`, `step` — the globals, the calls in progress and the workers.
* `Served` — what should hold of every state.
* `NotTooLate` — the condition of a step.

## Main results

* `served_iff`
-/

namespace LuminalShine.Config.Deferred

open LuminalShine.Lib

/-- A stored output, with the number of the call that stored it (history). -/
structure Deferral where
  output : String
  serial : ℕ
  deriving DecidableEq, Repr

/-- What a worker has applied, and how many calls there had been (history). -/
structure Application where
  deferral : Deferral
  calls : ℕ
  deriving DecidableEq, Repr

/-- Where a worker is: before it looks at the stored output, before it looks at the lock screen,
before the section in which it applies the output, after that, and out of its loop. -/
inductive Worker where
  | reading
  | checking
  | applying
  | applied
  | ending
  deriving DecidableEq, Repr

/-- It will still look at the stored output. -/
def Worker.examines : Worker → Bool
  | reading | checking | applying => true
  | applied | ending => false

/-- `scheduling` counts the calls that have stored an output and not yet tried to start a worker.
History: the number of calls, and what was applied. -/
structure Overrides where
  lockScreen : Bool := false
  physicalDisplay : Bool := false
  runtimeOutput : Option String := none
  deferred : Option Deferral := none
  workerRunning : Bool := false
  workers : List Worker := []
  scheduling : ℕ := 0
  calls : ℕ := 0
  applied : List Application := []
  deriving DecidableEq, Repr

namespace Overrides

variable (s : Overrides)

/-- The critical section of `set_runtime_output_name_override`. -/
def set (isVirtual : String → Bool) (output : Option String) : Overrides :=
  let s := { s with calls := s.calls + 1 }
  match output with
  | none => { s with runtimeOutput := none, deferred := none }
  | some output =>
      if output = "" then { s with runtimeOutput := none, deferred := none }
      else if isVirtual output && s.lockScreen && s.physicalDisplay then
        { s with
          deferred := some ⟨output, s.calls⟩
          runtimeOutput := none
          scheduling := s.scheduling + 1 }
      else { s with runtimeOutput := some output, deferred := none }

/-- `schedule_deferred_virtual_output_reapply`. -/
def schedule : Overrides :=
  let s := { s with scheduling := s.scheduling - 1 }
  if s.workerRunning then s
  else { s with workerRunning := true, workers := s.workers ++ [.reading] }

/-- The output that a worker finds: an empty one is none. -/
def found : Option Deferral := s.deferred.filter (·.output ≠ "")

def goto (i : ℕ) (w : Worker) : Overrides := { s with workers := s.workers.set i w }

/-- The next step of the worker at `i`. -/
def work (i : ℕ) : Worker → Overrides
  | .reading => if s.found.isSome then s.goto i .checking else s.goto i .ending
  | .checking => if s.lockScreen then s.goto i .reading else s.goto i .applying
  | .applying =>
      match s.found with
      | none => s.goto i .ending
      | some d =>
          if s.lockScreen then s.goto i .reading
          else
            { s.goto i .applied with
              runtimeOutput := some d.output
              deferred := none
              applied := ⟨d, s.calls⟩ :: s.applied }
  | .applied => s.goto i .ending
  | .ending => { s with workerRunning := false, workers := s.workers.eraseIdx i }

end Overrides

inductive Label where
  | lockScreen (active : Bool)
  | physicalDisplay (active : Bool)
  | set (output : Option String)
  | schedule
  | work (i : ℕ)
  deriving DecidableEq, Repr

def step (isVirtual : String → Bool) (s : Overrides) : Label → Option Overrides
  | .lockScreen active => some { s with lockScreen := active }
  | .physicalDisplay active => some { s with physicalDisplay := active }
  | .set output => some (s.set isVirtual output)
  | .schedule => if s.scheduling = 0 then none else some s.schedule
  | .work i => (s.workers[i]?).map (s.work i)

/-! ## The property and its condition -/

/-- What is stored while no call is in progress will be examined, there is one worker at most, and
what was applied had not been cleared or superseded by a later call. -/
structure Served (s : Overrides) : Prop where
  examined : s.deferred.isSome = true → s.scheduling = 0 → ∃ w ∈ s.workers, w.examines = true
  single : s.workers.length ≤ 1
  timely : ∀ a ∈ s.applied, a.deferral.serial = a.calls

/-- The last call in progress does not find the flag of a worker that has applied its output or
left its loop while an output is stored. -/
def NotTooLate (s : Overrides) : Label → Prop
  | .schedule => s.scheduling = 1 → s.deferred.isSome = true → s.workerRunning = true →
      ∃ w ∈ s.workers, w.examines = true
  | _ => True

instance : ∀ s i, Decidable (NotTooLate s i)
  | _, .schedule => inferInstanceAs (Decidable (_ → _ → _ → _))
  | _, .lockScreen _ | _, .physicalDisplay _ | _, .set _ | _, .work _ => isTrue trivial

/-- The flag is that of the one worker, and the stored output is that of the latest call. -/
structure Inv (s : Overrides) : Prop where
  examined : s.deferred.isSome = true → s.scheduling = 0 → ∃ w ∈ s.workers, w.examines = true
  worker : s.workers = [] ∧ s.workerRunning = false ∨
    ∃ w, s.workers = [w] ∧ s.workerRunning = true
  latest : ∀ d, s.deferred = some d → d.serial = s.calls ∧ d.output ≠ ""
  timely : ∀ a ∈ s.applied, a.deferral.serial = a.calls

namespace Inv

variable {s s' : Overrides}

theorem initial : Inv {} where
  examined h := by simp at h
  worker := .inl ⟨rfl, rfl⟩
  latest d hd := by simp at hd
  timely a ha := by simp at ha

theorem served (h : Inv s) : Served s where
  examined := h.examined
  single := by
    rcases h.worker with ⟨hw, -⟩ | ⟨w, hw, -⟩ <;> simp [hw]
  timely := h.timely

theorem set (h : Inv s) (isVirtual : String → Bool) (output : Option String) :
    Inv (s.set isVirtual output) := by
  have hclear : ∀ r, Inv { s with calls := s.calls + 1, runtimeOutput := r, deferred := none } :=
    fun r => ⟨fun hd => by simp at hd, h.worker, fun d hd => by simp at hd, h.timely⟩
  cases output with
  | none => exact hclear none
  | some output =>
      simp only [Overrides.set]
      split
      · exact hclear none
      · rename_i hne
        split
        · refine ⟨fun _ hs => by simp at hs, h.worker, fun d hd => ?_, h.timely⟩
          obtain rfl := Option.some.inj hd
          exact ⟨rfl, hne⟩
        · exact hclear _

/-- A worker is started, or the one that there is will still look. -/
theorem schedule (h : Inv s) (hmeets : NotTooLate s .schedule) : Inv s.schedule := by
  rcases h.worker with ⟨hw, hrunning⟩ | ⟨w, hw, hrunning⟩
  · have hstart : s.schedule = { s with
        scheduling := s.scheduling - 1, workerRunning := true, workers := [.reading] } := by
      simp [Overrides.schedule, hrunning, hw]
    rw [hstart]
    exact ⟨fun _ _ => ⟨.reading, by simp, rfl⟩, .inr ⟨.reading, rfl, rfl⟩, h.latest, h.timely⟩
  · have hleave : s.schedule = { s with scheduling := s.scheduling - 1 } := by
      simp [Overrides.schedule, hrunning]
    rw [hleave]
    refine ⟨fun hd hs => ?_, .inr ⟨w, hw, hrunning⟩, h.latest, h.timely⟩
    by_cases hone : s.scheduling = 1
    · exact hmeets hone hd hrunning
    · have hzero : s.scheduling = 0 := by
        simp only at hs
        omega
      exact h.examined hd hzero

/-- A worker that is through with looking leaves the stored output to nobody. -/
theorem not_served_schedule (hmeets : ¬NotTooLate s .schedule) : ¬Served s.schedule := by
  simp only [NotTooLate, Classical.not_imp] at hmeets
  obtain ⟨hone, hd, hrunning, hnone⟩ := hmeets
  intro hserved
  simp only [Overrides.schedule, hrunning, if_true] at hserved
  exact hnone (hserved.examined hd (by simp [hone]))

/-- A worker goes on: it still looks, or nothing is stored. -/
theorem goto (h : Inv s) {w : Worker} (hw : s.workers = [w]) {next : Worker}
    (hnext : next.examines = true ∨ s.deferred = none ∨ w.examines = false) :
    Inv (s.goto 0 next) := by
  have hrunning : s.workerRunning = true := by
    rcases h.worker with ⟨hnone, -⟩ | ⟨-, -, hrunning⟩
    · simp [hw] at hnone
    · exact hrunning
  refine ⟨fun hd hs => ?_, .inr ⟨next, by simp [Overrides.goto, hw], hrunning⟩, h.latest, h.timely⟩
  have hold := h.examined hd hs
  rw [hw] at hold
  rcases hnext with hnext | hnext | hnext
  · exact ⟨next, by simp [Overrides.goto, hw], hnext⟩
  · simp [Overrides.goto, hnext] at hd
  · simp [hnext] at hold

theorem found_eq_none (h : Inv s) (hfound : s.found = none) : s.deferred = none := by
  cases hd : s.deferred with
  | none => rfl
  | some d => simp [Overrides.found, hd, Option.filter, (h.latest d hd).2] at hfound

theorem work (h : Inv s) {w : Worker} (hw : s.workers = [w]) : Inv (s.work 0 w) := by
  cases w with
  | reading =>
      simp only [Overrides.work]
      split
      · exact h.goto hw (.inl rfl)
      · rename_i hnone
        exact h.goto hw (.inr (.inl (h.found_eq_none (by simpa using hnone))))
  | checking =>
      simp only [Overrides.work]
      split
      · exact h.goto hw (.inl rfl)
      · exact h.goto hw (.inl rfl)
  | applying =>
      simp only [Overrides.work]
      cases hfound : s.found with
      | none => exact h.goto hw (.inr (.inl (h.found_eq_none hfound)))
      | some d =>
          simp only
          split
          · exact h.goto hw (.inl rfl)
          · have hd : s.deferred = some d := (Option.filter_eq_some_iff.mp hfound).1
            have hnew : Inv { s with
                runtimeOutput := some d.output, deferred := none,
                applied := ⟨d, s.calls⟩ :: s.applied } :=
              ⟨fun hd => by simp at hd, h.worker, fun d hd => by simp at hd, by
                simpa [(h.latest d hd).1] using h.timely⟩
            exact hnew.goto hw (.inr (.inl rfl))
  | applied => exact h.goto hw (.inr (.inr rfl))
  | ending =>
      refine ⟨fun hd hs => ?_, .inl ⟨by simp [Overrides.work, hw], rfl⟩, h.latest, h.timely⟩
      have hold := h.examined hd hs
      simp [hw, Worker.examines] at hold

/-- **One step** keeps the invariant if it is not too late. -/
theorem step (h : Inv s) {isVirtual : String → Bool} {i : Label} (hmeets : NotTooLate s i)
    (hstep : Deferred.step isVirtual s i = some s') : Inv s' := by
  cases i with
  | lockScreen active =>
      obtain rfl := Option.some.inj hstep
      exact ⟨h.examined, h.worker, h.latest, h.timely⟩
  | physicalDisplay active =>
      obtain rfl := Option.some.inj hstep
      exact ⟨h.examined, h.worker, h.latest, h.timely⟩
  | set output =>
      obtain rfl := Option.some.inj hstep
      exact h.set isVirtual output
  | schedule =>
      simp only [Deferred.step] at hstep
      split at hstep
      · simp at hstep
      · obtain rfl := Option.some.inj hstep
        exact h.schedule hmeets
  | work i =>
      obtain ⟨w, hget, rfl⟩ := Option.map_eq_some_iff.mp hstep
      rcases h.worker with ⟨hw, -⟩ | ⟨w', hw, -⟩
      · simp [hw] at hget
      · rw [hw, List.getElem?_singleton] at hget
        split at hget
        · rename_i hi
          obtain rfl := Option.some.inj hget
          subst hi
          exact h.work hw
        · simp at hget

end Inv

/-- **No deferred output is stranded** in a run exactly when no call comes too late for the worker
that there is.  The other parts hold of every run. -/
theorem served_iff (isVirtual : String → Bool) {labels : List Label} {t : Overrides}
    (hrun : run (step isVirtual) {} labels = some t) :
    Always (step isVirtual) Served {} labels ↔
      RunMeets (step isVirtual) NotTooLate {} labels := by
  refine always_iff_runMeets (fun s (hs : Inv s) => hs.served) ?_ ?_ Inv.initial hrun
  · exact fun s i s' hs hmeets hstep => hs.step hmeets hstep
  · intro s i s' hs hmeets hstep
    cases i with
    | schedule =>
        simp only [step] at hstep
        split at hstep
        · simp at hstep
        · obtain rfl := Option.some.inj hstep
          exact Inv.not_served_schedule hmeets
    | _ => exact absurd trivial hmeets

/-- An output is deferred and applied by the worker. -/
theorem served_deferral : Always (step fun _ => true) Served {}
    [.lockScreen true, .physicalDisplay true, .set (some "a"), .schedule, .lockScreen false,
      .work 0, .work 0, .work 0, .work 0, .work 0] := by
  exact (served_iff (fun _ => true) rfl).mpr (by decide)

/-- The second output is deferred while the worker, which has applied the first, still waits. -/
theorem second_deferral_stranded :
    ∃ s, run (step fun _ => true) {}
        [.lockScreen true, .physicalDisplay true, .set (some "a"), .schedule, .lockScreen false,
          .work 0, .work 0, .work 0, .lockScreen true, .set (some "b"), .schedule, .work 0,
          .work 0] = some s ∧
      s.deferred.map (·.output) = some "b" ∧ s.scheduling = 0 ∧ s.workers = [] := by
  refine ⟨_, rfl, ?_, ?_, ?_⟩ <;> rfl

end LuminalShine.Config.Deferred
