import LuminalShine.Lib.Run
import Mathlib.Data.List.Infix
import Mathlib.Data.List.Range
import Mathlib.Data.Nat.Notation

/-!
# The serial executor

`serial_executor_t` of `src/serial_executor.h`: one worker thread runs the posted tasks one
at a time, in order, and drops its mutex while it does.  `stop` refuses new tasks, drops
the queued ones and joins the worker; it is called from one thread at a time and never
from a task.

A critical section is one step.  The worker goes through its wait whenever it has the
mutex, woken or not, so that a wake-up is enabled in every state; a task ends by a step of
its own.  A task may post, like anybody else.

## Main definitions

* `Executor`, `Label`, `step` — the executor and its callers.
* `Inv` — the invariant.
* `serial_executor_run` — the run theorem.
-/

namespace LuminalShine.SerialExecutor

open LuminalShine.Lib

variable {α : Type}

/-- A posted task, numbered in the order of acceptance (history). -/
structure Posted (α : Type) where
  task : α
  serial : ℕ
  deriving DecidableEq, Repr

/-- Where the worker is: before `run` takes the mutex, in the wait, in a task, after it and
without the mutex, or gone. -/
inductive Worker (α : Type) where
  | starting
  | waiting
  | running (task : Posted α)
  | returned
  | exited
  deriving DecidableEq, Repr

/-- The fields of the class, the worker, and whether a `stop` is joining it.  History: the
tasks accepted, started and finished, in order, and how many calls of `stop` have begun and
returned. -/
structure Executor (α : Type) where
  queue : List (Posted α)
  stopped : Bool
  worker : Worker α
  joining : Bool
  accepted : List (Posted α)
  started : List (Posted α)
  finished : List (Posted α)
  stopsBegun : ℕ
  stopsReturned : ℕ
  deriving DecidableEq, Repr

namespace Executor

def make : Executor α := ⟨[], false, .starting, false, [], [], [], 0, 0⟩

/-- `post`, with the result it returns. -/
def post (e : Executor α) (task : α) : Bool × Executor α :=
  if e.stopped then (false, e)
  else
    let posted : Posted α := ⟨task, e.accepted.length⟩
    (true, { e with queue := e.queue ++ [posted], accepted := e.accepted ++ [posted] })

/-- The critical section of `stop`. -/
def beginStop (e : Executor α) : Executor α :=
  { e with stopped := true, queue := [], joining := true, stopsBegun := e.stopsBegun + 1 }

/-- The worker has the mutex: the predicate of the wait, and what follows it. -/
def wake (e : Executor α) : Executor α :=
  if e.stopped then { e with worker := .exited }
  else match e.queue with
    | [] => { e with worker := .waiting }
    | task :: rest =>
        { e with queue := rest, worker := .running task, started := e.started ++ [task] }

/-- The task has returned. -/
def finish (e : Executor α) (task : Posted α) : Executor α :=
  { e with worker := .returned, finished := e.finished ++ [task] }

/-- `join` has returned, and `stop` with it. -/
def endStop (e : Executor α) : Executor α :=
  { e with joining := false, stopsReturned := e.stopsReturned + 1 }

end Executor

inductive Label (α : Type) where
  | post (task : α)
  | beginStop
  | endStop
  | wake
  | finish
  deriving DecidableEq, Repr

def step (e : Executor α) : Label α → Option (Executor α)
  | .post task => some (e.post task).2
  | .beginStop => if e.joining then none else some e.beginStop
  | .endStop =>
      match e.worker with
      | .exited => if e.joining then some e.endStop else none
      | _ => none
  | .wake =>
      match e.worker with
      | .running _ | .exited => none
      | _ => some e.wake
  | .finish =>
      match e.worker with
      | .running task => some (e.finish task)
      | _ => none

/-! ## The invariant -/

/-- The task the worker is in, if it is. -/
def Worker.current : Worker α → List (Posted α)
  | .running task => [task]
  | _ => []

structure Inv (e : Executor α) : Prop where
  serials : e.accepted.map Posted.serial = List.range e.accepted.length
  /-- What was started and what is queued is what was accepted, unless `stop` dropped some. -/
  order : e.started ++ e.queue <+: e.accepted
  kept : e.stopped = false → e.started ++ e.queue = e.accepted
  one : e.started = e.finished ++ e.worker.current
  stopped_iff : e.stopped = true ↔ 0 < e.stopsBegun
  exited : e.worker = .exited → e.stopped = true
  dropped : e.stopped = true → e.queue = []
  returned : 0 < e.stopsReturned → e.worker = .exited

theorem inv_make : Inv (Executor.make : Executor α) where
  serials := rfl
  order := List.prefix_refl _
  kept := fun _ => rfl
  one := rfl
  stopped_iff := by simp [Executor.make]
  exited := by intro h; cases h
  dropped := by intro h; cases h
  returned := by intro h; cases h

theorem Inv.post {e : Executor α} (h : Inv e) (task : α) : Inv (e.post task).2 := by
  by_cases hs : e.stopped = true
  · simpa only [Executor.post, if_pos hs] using h
  · simp only [Executor.post, if_neg hs]
    have hs' : e.stopped = false := by simpa using hs
    have hall : e.started ++ (e.queue ++ [⟨task, e.accepted.length⟩]) =
        e.accepted ++ [⟨task, e.accepted.length⟩] := by
      rw [← List.append_assoc, h.kept hs']
    refine ⟨?_, ?_, fun _ => hall, h.one, h.stopped_iff, h.exited, ?_, h.returned⟩
    · simp [h.serials, List.range_succ]
    · rw [hall]
    · intro hstopped
      exact absurd hstopped hs

theorem Inv.beginStop {e : Executor α} (h : Inv e) : Inv e.beginStop where
  serials := h.serials
  order := by
    simp only [Executor.beginStop, List.append_nil]
    exact (List.prefix_append _ _).trans h.order
  kept := by intro hs; cases hs
  one := h.one
  stopped_iff := by simp [Executor.beginStop]
  exited := fun _ => rfl
  dropped := fun _ => rfl
  returned := h.returned

/-- What the worker does where it may take the mutex. -/
theorem Inv.wake {e : Executor α} (h : Inv e) (hcurrent : e.worker.current = [])
    (hexited : e.worker ≠ .exited) : Inv e.wake := by
  have hnone : ¬ 0 < e.stopsReturned := fun hret => hexited (h.returned hret)
  have hone : e.started = e.finished := by rw [h.one, hcurrent, List.append_nil]
  unfold Executor.wake
  split
  · rename_i hs
    exact ⟨h.serials, h.order, h.kept, by simp [hone, Worker.current], h.stopped_iff,
      fun _ => hs, h.dropped, fun _ => rfl⟩
  · rename_i hs
    split
    · exact ⟨h.serials, h.order, h.kept, by simp [hone, Worker.current], h.stopped_iff,
        by simp, h.dropped, fun hret => absurd hret hnone⟩
    · rename_i task rest hqueue
      have hmove : e.started ++ [task] ++ rest = e.started ++ e.queue := by
        rw [hqueue, List.append_assoc, List.singleton_append]
      refine ⟨h.serials, ?_, ?_, ?_, h.stopped_iff, by simp, ?_, fun hret => absurd hret hnone⟩
      · rw [hmove]
        exact h.order
      · intro hstopped
        rw [hmove]
        exact h.kept hstopped
      · simp [hone, Worker.current]
      · intro hstopped
        exact absurd hstopped hs

theorem step_inv {e e' : Executor α} {i : Label α} (h : Inv e) (hs : step e i = some e') :
    Inv e' := by
  cases i with
  | post task =>
      cases hs
      exact h.post task
  | beginStop =>
      simp only [step] at hs
      split at hs
      · cases hs
      · cases hs
        exact h.beginStop
  | endStop =>
      simp only [step] at hs
      split at hs
      · rename_i hworker
        split at hs
        · cases hs
          exact ⟨h.serials, h.order, h.kept, h.one, h.stopped_iff, h.exited, h.dropped,
            fun _ => hworker⟩
        · cases hs
      · cases hs
  | wake =>
      cases hw : e.worker <;> simp only [step, hw] at hs <;> cases hs <;>
        exact h.wake (by rw [hw]; rfl) (by simp [hw])
  | finish =>
      cases hw : e.worker <;> simp only [step, hw] at hs <;> cases hs
      rename_i task
      have hone := h.one
      rw [hw] at hone
      refine ⟨h.serials, h.order, h.kept, ?_, h.stopped_iff, ?_, h.dropped, ?_⟩
      · simp [Executor.finish, Worker.current, hone]
      · intro hexited
        cases hexited
      · intro hret
        rw [h.returned hret] at hw
        cases hw

/-! ## After `stop` -/

/-- Once a `stop` has begun, nothing more is accepted; once it has returned, nothing more is
started. -/
structure Closed (e e' : Executor α) : Prop where
  begun : e.stopsBegun ≤ e'.stopsBegun
  returned : e.stopsReturned ≤ e'.stopsReturned
  accepted : 0 < e.stopsBegun → e'.accepted = e.accepted
  started : 0 < e.stopsReturned → e'.started = e.started

theorem step_closed {e e' : Executor α} {i : Label α} (h : Inv e) (hs : step e i = some e') :
    Closed e e' := by
  cases i with
  | post task =>
      cases hs
      by_cases hstopped : e.stopped = true
      · simp only [Executor.post, if_pos hstopped]
        exact ⟨le_refl _, le_refl _, fun _ => rfl, fun _ => rfl⟩
      · simp only [Executor.post, if_neg hstopped]
        exact ⟨le_refl _, le_refl _, fun hbegun => absurd (h.stopped_iff.mpr hbegun) hstopped,
          fun _ => rfl⟩
  | beginStop =>
      simp only [step] at hs
      split at hs
      · cases hs
      · cases hs
        exact ⟨Nat.le_succ _, le_refl _, fun _ => rfl, fun _ => rfl⟩
  | endStop =>
      simp only [step] at hs
      split at hs
      · split at hs
        · cases hs
          exact ⟨le_refl _, Nat.le_succ _, fun _ => rfl, fun _ => rfl⟩
        · cases hs
      · cases hs
  | wake =>
      have hgone : 0 < e.stopsReturned → e.worker = .exited := h.returned
      cases hw : e.worker <;> simp only [step, hw] at hs <;> cases hs <;>
      · unfold Executor.wake
        split
        · exact ⟨le_refl _, le_refl _, fun _ => rfl, fun _ => rfl⟩
        · split
          · exact ⟨le_refl _, le_refl _, fun _ => rfl, fun _ => rfl⟩
          · exact ⟨le_refl _, le_refl _, fun _ => rfl, fun hret => by simp [hgone hret] at hw⟩
  | finish =>
      cases hw : e.worker <;> simp only [step, hw] at hs <;> cases hs
      exact ⟨le_refl _, le_refl _, fun _ => rfl, fun _ => rfl⟩

theorem Closed.trans {e e' e'' : Executor α} (h : Closed e e') (h' : Closed e' e'') :
    Closed e e'' where
  begun := le_trans h.begun h'.begun
  returned := le_trans h.returned h'.returned
  accepted := fun hbegun =>
    (h'.accepted (lt_of_lt_of_le hbegun h.begun)).trans (h.accepted hbegun)
  started := fun hret =>
    (h'.started (lt_of_lt_of_le hret h.returned)).trans (h.started hret)

theorem run_closed {e e' : Executor α} {is : List (Label α)} (h : Inv e)
    (hrun : run step e is = some e') : Closed e e' := by
  have hboth : Inv e' ∧ Closed e e' := by
    refine run_invariant (P := fun u => Inv u ∧ Closed e u) ?_ ?_ hrun
    · intro u i u' hu hs
      exact ⟨step_inv hu.1 hs, hu.2.trans (step_closed hu.1 hs)⟩
    · exact ⟨h, le_refl _, le_refl _, fun _ => rfl, fun _ => rfl⟩
  exact hboth.2

/-- **The serial executor.**  In every state of every run the tasks started are a prefix of
those accepted, each with its own number, and all of them but the current one have finished;
a post is refused once `stop` has begun; and in every continuation nothing is started once
`stop` has returned. -/
theorem serial_executor_run {is : List (Label α)} {e : Executor α}
    (hrun : run step Executor.make is = some e) :
    e.started <+: e.accepted ∧ (e.started.map Posted.serial).Nodup ∧
    e.started = e.finished ++ e.worker.current ∧
    (0 < e.stopsBegun → ∀ task, e.post task = (false, e)) ∧
    (e.stopsBegun = 0 → ∀ task, (e.post task).1 = true) ∧
    ∀ more e', run step e more = some e' →
      (0 < e.stopsBegun → e'.accepted = e.accepted) ∧
      (0 < e.stopsReturned → e'.started = e.started) := by
  have h : Inv e := run_invariant (fun _ _ _ h hs => step_inv h hs) inv_make hrun
  have hbegins : e.started <+: e.accepted := (List.prefix_append _ _).trans h.order
  refine ⟨hbegins, ?_, h.one, ?_, ?_, ?_⟩
  · have hall : (e.accepted.map Posted.serial).Nodup := h.serials ▸ List.nodup_range
    exact hall.sublist (hbegins.sublist.map _)
  · intro hbegun task
    simp [Executor.post, h.stopped_iff.mpr hbegun]
  · intro hnone task
    have hopen : ¬ e.stopped = true := by
      rw [h.stopped_iff]
      omega
    simp [Executor.post, hopen]
  · intro more e' hmore
    have hclosed := run_closed h hmore
    exact ⟨hclosed.accepted, hclosed.started⟩

/-- Two tasks are accepted, `stop` comes while the first one runs, and a third is refused. -/
def stoppedInTask : List (Label ℕ) :=
  [.wake, .post 1, .post 2, .wake, .beginStop, .post 3, .finish, .wake, .endStop]

theorem serial_executor_run_stoppedInTask :
    ∃ e, run step Executor.make stoppedInTask = some e ∧
      e.started = [⟨1, 0⟩] ∧ e.accepted = [⟨1, 0⟩, ⟨2, 1⟩] ∧ e.started <+: e.accepted ∧
      ∀ more e', run step e more = some e' → e'.started = e.started := by
  have hrun : run step Executor.make stoppedInTask = some _ := rfl
  refine ⟨_, hrun, rfl, rfl, (serial_executor_run hrun).1, ?_⟩
  intro more e' hmore
  exact ((serial_executor_run hrun).2.2.2.2.2 more e' hmore).2 (by decide)

end LuminalShine.SerialExecutor
