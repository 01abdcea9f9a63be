import LuminalShine.Input.Batching
import LuminalShine.Lib.Simulation

/-!
# Handing input over to the task pool

`passthrough` of `src/input.cpp` appends a message and decides under the queue lock, by an
exchange of `input_queue_task_scheduled`, whether it has to push a task; it pushes it after
the lock is released.  The task takes the lock twice and drops it while it sends; the second
time it either clears the flag or pushes itself again, which is the last thing it does.

Messages are numbered in the order in which they are appended, and an entry remembers which
of them were merged into it.

## Main definitions

* `Entry`, `merge` — the batching loop, with the numbers of the merged messages.
* `State`, `step` — queue, flag, pool and running tasks.
* `State.inputQueue` — what `Input.step` sees of it.

## Main results

* `run_refines` — the two-step hand-off is the queue of `Input.step`.
* `handoff_run` — one task, no lost wake-up, and every message exactly once.
-/

namespace LuminalShine.Input.Handoff

open LuminalShine.Lib

/-- A message and the numbers of those it stands for. -/
structure Entry where
  ids : List ℕ
  packet : Packet
  deriving DecidableEq, Repr

/-- `batchLoop`, keeping count of what is merged. -/
def merge (dest : Entry) : List Entry → Entry × List Entry
  | [] => (dest, [])
  | src :: queue =>
      match batch dest.packet src.packet with
      | .terminateBatch => (dest, src :: queue)
      | .batched packet => merge ⟨dest.ids ++ src.ids, packet⟩ queue
      | .notBatchable => ((merge dest queue).1, src :: (merge dest queue).2)

/-- Where a running `passthrough_next_message` is. -/
inductive Task where
  | entered
  | sending (entry : Entry)
  | sent
  | rescheduling
  deriving DecidableEq, Repr

/-- `waking` counts the calls of `passthrough` that have set the flag and not yet pushed
their task, `tasks` those that wait in the pool.  `enqueued` and `delivered` are history. -/
structure State where
  queue : List Entry
  taskScheduled : Bool
  waking : ℕ
  tasks : ℕ
  running : List Task
  delivered : List Entry
  enqueued : List Packet
  deriving DecidableEq, Repr

def State.initial : State := ⟨[], false, 0, 0, [], [], []⟩

/-- `enqueue` and `wake` are the two halves of `passthrough`; the others are the pool, which
starts a task, and the parts of the running task `i`. -/
inductive Label where
  | enqueue (packet : Packet)
  | wake
  | start
  | pop (i : ℕ)
  | send (i : ℕ)
  | recheck (i : ℕ)
  | reschedule (i : ℕ)
  deriving DecidableEq, Repr

def step (s : State) : Label → Option State
  | .enqueue packet => some { s with
      queue := s.queue ++ [⟨[s.enqueued.length], packet⟩]
      taskScheduled := true
      waking := if s.taskScheduled then s.waking else s.waking + 1
      enqueued := s.enqueued ++ [packet] }
  | .wake =>
      if 0 < s.waking then some { s with waking := s.waking - 1, tasks := s.tasks + 1 } else none
  | .start =>
      if 0 < s.tasks then
        some { s with tasks := s.tasks - 1, running := s.running ++ [.entered] }
      else none
  | .pop i =>
      match s.running[i]?, s.queue with
      | some .entered, [] => some { s with
          taskScheduled := false
          running := s.running.eraseIdx i }
      | some .entered, dest :: queue => some { s with
          queue := (merge dest queue).2
          running := s.running.set i (.sending (merge dest queue).1) }
      | _, _ => none
  | .send i =>
      match s.running[i]? with
      | some (.sending entry) => some { s with
          running := s.running.set i .sent
          delivered := s.delivered ++ [entry] }
      | _ => none
  | .recheck i =>
      match s.running[i]? with
      | some .sent =>
          if s.queue.isEmpty then
            some { s with taskScheduled := false, running := s.running.eraseIdx i }
          else some { s with running := s.running.set i .rescheduling }
      | _ => none
  | .reschedule i =>
      match s.running[i]? with
      | some .rescheduling => some { s with
          running := s.running.eraseIdx i
          tasks := s.tasks + 1 }
      | _ => none

/-! ## What the loop merges -/

/-- The entry is what the merge rules make of the messages with its numbers. -/
inductive Merges (enqueued : List Packet) : Entry → Prop
  | single {i : ℕ} {packet : Packet} (h : enqueued[i]? = some packet) :
      Merges enqueued ⟨[i], packet⟩
  | merge {dest src : Entry} {packet : Packet} (hdest : Merges enqueued dest)
      (hsrc : Merges enqueued src) (h : batch dest.packet src.packet = .batched packet) :
      Merges enqueued ⟨dest.ids ++ src.ids, packet⟩

theorem Merges.append {enqueued : List Packet} {entry : Entry} (h : Merges enqueued entry)
    (packet : Packet) : Merges (enqueued ++ [packet]) entry := by
  induction h with
  | single h =>
      obtain ⟨hlt, -⟩ := List.getElem?_eq_some_iff.mp h
      exact .single (by rw [List.getElem?_append_left hlt, h])
  | merge _ _ h ihdest ihsrc => exact .merge ihdest ihsrc h

/-- The numbers of a list of entries. -/
def ids (entries : List Entry) : List ℕ := entries.flatMap Entry.ids

@[simp] theorem ids_nil : ids [] = [] := rfl

@[simp] theorem ids_cons (entry : Entry) (entries : List Entry) :
    ids (entry :: entries) = entry.ids ++ ids entries := rfl

@[simp] theorem ids_append (entries others : List Entry) :
    ids (entries ++ others) = ids entries ++ ids others := List.flatMap_append

/-- No number is lost or doubled by the loop. -/
theorem ids_merge (dest : Entry) (queue : List Entry) :
    ((merge dest queue).1.ids ++ ids (merge dest queue).2).Perm (dest.ids ++ ids queue) := by
  induction queue generalizing dest with
  | nil => simp [merge]
  | cons src queue ih =>
      rw [merge]
      cases batch dest.packet src.packet with
      | terminateBatch => simp
      | batched packet =>
          have h := ih ⟨dest.ids ++ src.ids, packet⟩
          simpa using h
      | notBatchable =>
          have h := (ih dest).append_left src.ids
          simp only [ids_cons]
          have hswap : ((merge dest queue).1.ids ++ (src.ids ++ ids (merge dest queue).2)).Perm
              (src.ids ++ ((merge dest queue).1.ids ++ ids (merge dest queue).2)) :=
            List.perm_append_comm_assoc _ _ _
          exact hswap.trans (h.trans (List.perm_append_comm_assoc _ _ _))

theorem merges_merge {enqueued : List Packet} {dest : Entry} {queue : List Entry}
    (hdest : Merges enqueued dest) (hqueue : ∀ entry ∈ queue, Merges enqueued entry) :
    ∀ entry ∈ (merge dest queue).1 :: (merge dest queue).2, Merges enqueued entry := by
  induction queue generalizing dest with
  | nil => simpa [merge] using hdest
  | cons src queue ih =>
      have hsrc := hqueue src List.mem_cons_self
      have hrest : ∀ entry ∈ queue, Merges enqueued entry :=
        fun entry h => hqueue entry (List.mem_cons_of_mem _ h)
      rw [merge]
      cases hbatch : batch dest.packet src.packet with
      | terminateBatch => simpa [hsrc, hdest] using hrest
      | batched packet => exact ih (.merge hdest hsrc hbatch) hrest
      | notBatchable =>
          have h := ih hdest hrest
          simp only [List.mem_cons, forall_eq_or_imp] at h ⊢
          exact ⟨h.1, hsrc, h.2⟩

/-- Without the numbers it is `batchLoop`. -/
theorem merge_packet (dest : Entry) (queue : List Entry) :
    ((merge dest queue).1.packet, (merge dest queue).2.map Entry.packet) =
      batchLoop dest.packet (queue.map Entry.packet) := by
  induction queue generalizing dest with
  | nil => rfl
  | cons src queue ih =>
      rw [merge, List.map_cons, batchLoop]
      cases batch dest.packet src.packet with
      | terminateBatch => rfl
      | batched packet => exact ih ⟨dest.ids ++ src.ids, packet⟩
      | notBatchable => simp [← ih dest]

/-! ## The hand-off -/

/-- What a task has taken and not handed on. -/
def Task.taken : Task → List Entry
  | .sending entry => [entry]
  | _ => []

/-- Queued, being delivered or delivered. -/
def State.entries (s : State) : List Entry :=
  s.queue ++ s.running.flatMap Task.taken ++ s.delivered

/-- The flag stands for exactly one task, from the moment it is set. -/
structure Inv (s : State) : Prop where
  scheduled : s.waking + s.tasks + s.running.length = s.taskScheduled.toNat
  queued : s.queue ≠ [] → s.taskScheduled = true
  ids : (ids s.entries).Perm (List.range s.enqueued.length)
  merges : ∀ entry ∈ s.entries, Merges s.enqueued entry

theorem inv_initial : Inv .initial := ⟨rfl, nofun, .refl _, nofun⟩

variable {s s' : State}

/-- A running task is the only one, and nothing waits. -/
theorem Inv.alone (h : Inv s) {i : ℕ} {task : Task} (hi : s.running[i]? = some task) :
    i = 0 ∧ s.running = [task] ∧ s.taskScheduled = true ∧ s.waking = 0 ∧ s.tasks = 0 := by
  have hsum := h.scheduled
  have hle := Bool.toNat_le s.taskScheduled
  obtain ⟨hlt, htask⟩ := List.getElem?_eq_some_iff.mp hi
  have hlength : s.running.length = 1 := by omega
  obtain ⟨only, honly⟩ := List.length_eq_one_iff.mp hlength
  have hscheduled : s.taskScheduled = true := by
    cases hflag : s.taskScheduled with
    | true => rfl
    | false =>
        rw [hflag, Bool.toNat_false] at hsum
        omega
  have hzero : i = 0 := by omega
  refine ⟨hzero, ?_, hscheduled, by omega, by omega⟩
  subst hzero
  simpa [honly] using hi

theorem Inv.enqueue (h : Inv s) (packet : Packet)
    (hstep : step s (.enqueue packet) = some s') : Inv s' := by
  rw [← Option.some.inj hstep]
  constructor
  · have hsum := h.scheduled
    cases hflag : s.taskScheduled with
    | false =>
        simp only [hflag, Bool.toNat_false, Bool.toNat_true, Bool.false_eq_true, if_false]
          at hsum ⊢
        omega
    | true => simpa [hflag] using hsum
  · exact fun _ => rfl
  · have hids := h.ids
    simp only [State.entries, ids_append, ids_cons, ids_nil, List.length_append,
      List.length_singleton, List.range_succ] at hids ⊢
    have hmove := (hids.append_right [s.enqueued.length])
    refine List.Perm.trans ?_ hmove
    rw [List.perm_iff_count]
    intro n
    simp only [List.count_append, List.count_nil]
    omega
  · intro entry hentry
    simp only [State.entries, List.append_assoc, List.mem_append, List.mem_singleton] at hentry
    have hold : ∀ entry ∈ s.entries, Merges (s.enqueued ++ [packet]) entry :=
      fun entry hmem => (h.merges entry hmem).append packet
    simp only [State.entries, List.append_assoc, List.mem_append] at hold
    rcases hentry with hqueue | rfl | hother
    · exact hold entry (Or.inl hqueue)
    · exact .single (by simp)
    · exact hold entry (Or.inr hother)

theorem Inv.wake (h : Inv s) (hstep : step s .wake = some s') : Inv s' := by
  simp only [step] at hstep
  obtain ⟨hwaking, rfl⟩ := guarded_eq_some.mp hstep
  refine ⟨?_, h.queued, h.ids, h.merges⟩
  have hsum := h.scheduled
  dsimp only
  omega

theorem Inv.start (h : Inv s) (hstep : step s .start = some s') : Inv s' := by
  simp only [step] at hstep
  obtain ⟨htasks, rfl⟩ := guarded_eq_some.mp hstep
  refine ⟨?_, h.queued, ?_, ?_⟩
  · have hsum := h.scheduled
    simp only [List.length_append, List.length_singleton]
    omega
  · simpa [State.entries, Task.taken] using h.ids
  · simpa [State.entries, Task.taken] using h.merges

theorem Inv.pop (h : Inv s) {i : ℕ} (hstep : step s (.pop i) = some s') : Inv s' := by
  have hids := h.ids
  have hmerges := h.merges
  simp only [step] at hstep
  split at hstep
  · case h_1 hi hqueue =>
      rw [← Option.some.inj hstep]
      obtain ⟨rfl, hrunning, hflag, hwaking, htasks⟩ := h.alone hi
      simp only [State.entries, hqueue, hrunning] at hids hmerges
      constructor
      · simp [hrunning, hwaking, htasks]
      · simp [hqueue]
      · simpa [State.entries, hqueue, hrunning, Task.taken] using hids
      · simpa [State.entries, hqueue, hrunning, Task.taken] using hmerges
  · case h_2 dest queue hi hqueue =>
      rw [← Option.some.inj hstep]
      obtain ⟨rfl, hrunning, hflag, hwaking, htasks⟩ := h.alone hi
      simp only [State.entries, hqueue, hrunning] at hids hmerges
      constructor
      · simp [hrunning, hwaking, htasks, hflag]
      · exact fun _ => hflag
      · simp only [State.entries, hrunning, List.set_cons_zero, List.flatMap_singleton,
          Task.taken, ids_append, ids_cons, ids_nil, List.append_nil] at hids ⊢
        refine List.Perm.trans (List.Perm.append_right _ ?_) hids
        exact List.perm_append_comm.trans (ids_merge dest queue)
      · have hdest := hmerges dest (by simp)
        have hqueued : ∀ entry ∈ queue, Merges s.enqueued entry :=
          fun entry hentry => hmerges entry (by simp [hentry])
        have hall := merges_merge hdest hqueued
        intro entry hentry
        simp only [State.entries, hrunning, List.set_cons_zero, List.flatMap_singleton,
          Task.taken, List.mem_append, List.mem_singleton] at hentry
        rcases hentry with (hqueue | rfl) | hdelivered
        · exact hall entry (List.mem_cons_of_mem _ hqueue)
        · exact hall _ List.mem_cons_self
        · exact hmerges entry (by simp [hdelivered])
  · cases hstep

theorem Inv.send (h : Inv s) {i : ℕ} (hstep : step s (.send i) = some s') : Inv s' := by
  simp only [step] at hstep
  split at hstep
  · case h_1 entry hi =>
      rw [← Option.some.inj hstep]
      obtain ⟨rfl, hrunning, hflag, hwaking, htasks⟩ := h.alone hi
      have hids := h.ids
      have hmerges := h.merges
      simp only [State.entries, hrunning] at hids hmerges
      constructor
      · simp [hrunning, hwaking, htasks, hflag]
      · exact h.queued
      · simp only [State.entries, hrunning, List.set_cons_zero, List.flatMap_singleton,
          Task.taken, ids_append, ids_cons, ids_nil, List.append_nil, List.append_assoc]
          at hids ⊢
        exact (List.perm_append_comm.append_left _).trans hids
      · intro other hother
        refine hmerges other ?_
        simp only [State.entries, hrunning, List.set_cons_zero, List.flatMap_singleton,
          Task.taken, List.mem_append, List.mem_singleton] at hother ⊢
        tauto
  · cases hstep

theorem Inv.recheck (h : Inv s) {i : ℕ} (hstep : step s (.recheck i) = some s') : Inv s' := by
  have hids := h.ids
  have hmerges := h.merges
  simp only [step] at hstep
  split at hstep
  · case h_1 hi =>
      obtain ⟨rfl, hrunning, hflag, hwaking, htasks⟩ := h.alone hi
      simp only [State.entries, hrunning] at hids hmerges
      split at hstep
      · case isTrue hempty =>
          rw [← Option.some.inj hstep]
          rw [List.isEmpty_iff] at hempty
          constructor
          · simp [hrunning, hwaking, htasks]
          · simp [hempty]
          · simpa [State.entries, hrunning, Task.taken] using hids
          · simpa [State.entries, hrunning, Task.taken] using hmerges
      · case isFalse =>
          rw [← Option.some.inj hstep]
          constructor
          · simp [hrunning, hwaking, htasks, hflag]
          · exact h.queued
          · simpa [State.entries, hrunning, Task.taken] using hids
          · simpa [State.entries, hrunning, Task.taken] using hmerges
  · cases hstep

theorem Inv.reschedule (h : Inv s) {i : ℕ} (hstep : step s (.reschedule i) = some s') :
    Inv s' := by
  simp only [step] at hstep
  split at hstep
  · case h_1 hi =>
      rw [← Option.some.inj hstep]
      obtain ⟨rfl, hrunning, hflag, hwaking, htasks⟩ := h.alone hi
      constructor
      · simp [hrunning, hwaking, htasks, hflag]
      · exact h.queued
      · simpa [State.entries, hrunning, Task.taken] using h.ids
      · simpa [State.entries, hrunning, Task.taken] using h.merges
  · cases hstep

theorem Inv.step (h : Inv s) {label : Label} (hstep : step s label = some s') : Inv s' := by
  cases label with
  | enqueue packet => exact h.enqueue packet hstep
  | wake => exact h.wake hstep
  | start => exact h.start hstep
  | pop i => exact h.pop hstep
  | send i => exact h.send hstep
  | recheck i => exact h.recheck hstep
  | reschedule i => exact h.reschedule hstep

/-! ## The queue it implements -/

/-- A task that was decided on counts as queued until it takes the lock. -/
def State.phase (s : State) : Phase :=
  match s.running with
  | .sending entry :: _ => .sending entry.packet
  | .sent :: _ => .finishing
  | _ => if s.taskScheduled then .queued else .idle

def State.inputQueue (s : State) : InputQueue where
  queue := s.queue.map Entry.packet
  phase := s.phase
  sent := s.enqueued
  delivered := s.delivered.map Entry.packet

/-- What the queue of `Input.step` sees. -/
def erase : Label → Option Input.Label
  | .enqueue packet => some (.enqueue packet)
  | .pop _ => some .pop
  | .send _ => some .send
  | .recheck _ => some .finish
  | _ => none

/-- A message leaves the phase alone unless there was no task. -/
theorem Inv.phase_enqueue (h : Inv s) (queue : List Entry) (waking : ℕ)
    (enqueued : List Packet) :
    State.phase { s with queue, taskScheduled := true, waking, enqueued } =
      if s.phase = .idle then .queued else s.phase := by
  cases hrunning : s.running with
  | nil => cases hflag : s.taskScheduled <;> simp [State.phase, hrunning, hflag]
  | cons task rest =>
      have hi : s.running[0]? = some task := by rw [hrunning]; rfl
      have hflag := (h.alone hi).2.2.1
      cases task <;> simp [State.phase, hrunning, hflag]

theorem step_refines (h : Inv s) {label : Label} (hstep : step s label = some s') :
    run Input.step s.inputQueue (erase label).toList = some s'.inputQueue := by
  cases label with
  | enqueue packet =>
      rw [← Option.some.inj hstep]
      simp [erase, run_cons, Input.step, State.inputQueue, h.phase_enqueue]
  | wake =>
      simp only [step] at hstep
      obtain ⟨-, rfl⟩ := guarded_eq_some.mp hstep
      rfl
  | start =>
      simp only [step] at hstep
      obtain ⟨htasks, rfl⟩ := guarded_eq_some.mp hstep
      have hnone : s.running = [] := by
        have hsum := h.scheduled
        have hle := Bool.toNat_le s.taskScheduled
        exact List.length_eq_zero_iff.mp (by omega)
      simp [erase, State.inputQueue, State.phase, hnone]
  | pop i =>
      simp only [step] at hstep
      split at hstep
      · case h_1 hi hqueue =>
          rw [← Option.some.inj hstep]
          obtain ⟨rfl, hrunning, hflag, -, -⟩ := h.alone hi
          simp [erase, run_cons, Input.step, State.inputQueue, hqueue, State.phase,
            hrunning, hflag]
      · case h_2 dest queue hi hqueue =>
          rw [← Option.some.inj hstep]
          obtain ⟨rfl, hrunning, hflag, -, -⟩ := h.alone hi
          have hmerge := merge_packet dest queue
          simp [erase, run_cons, Input.step, State.inputQueue, hqueue, State.phase,
            hrunning, hflag, ← hmerge]
      · cases hstep
  | send i =>
      simp only [step] at hstep
      split at hstep
      · case h_1 entry hi =>
          rw [← Option.some.inj hstep]
          obtain ⟨rfl, hrunning, -, -, -⟩ := h.alone hi
          simp [erase, run_cons, Input.step, State.inputQueue, State.phase, hrunning]
      · cases hstep
  | recheck i =>
      simp only [step] at hstep
      split at hstep
      · case h_1 hi =>
          obtain ⟨rfl, hrunning, hflag, -, -⟩ := h.alone hi
          split at hstep
          · case isTrue hempty =>
              rw [← Option.some.inj hstep]
              simp [erase, run_cons, Input.step, State.inputQueue, State.phase,
                hrunning, List.isEmpty_iff.mp hempty]
          · case isFalse hempty =>
              rw [← Option.some.inj hstep]
              rw [List.isEmpty_iff] at hempty
              simp [erase, run_cons, Input.step, State.inputQueue, State.phase,
                hrunning, hflag, hempty]
      · cases hstep
  | reschedule i =>
      simp only [step] at hstep
      split at hstep
      · case h_1 hi =>
          rw [← Option.some.inj hstep]
          obtain ⟨rfl, hrunning, hflag, -, -⟩ := h.alone hi
          simp [erase, State.inputQueue, State.phase, hrunning, hflag]
      · cases hstep

/-- What is true of every run of `Input.step` is true of the hand-off. -/
theorem run_refines {labels : List Label} (hrun : run step .initial labels = some s) :
    run Input.step .initial (labels.filterMap erase) = some s.inputQueue :=
  run_simulates (fun _ _ _ h hstep => h.step hstep) (fun _ _ _ h hstep => step_refines h hstep)
    inv_initial hrun

/-- **Input is handed over.**  At most one task is queued or running; with anything in the
queue one is, unless an enqueue is about to push it; and every message is queued, being
delivered or delivered exactly once, in an entry that is what the merge rules make of the
messages in it. -/
theorem handoff_run {labels : List Label} (hrun : run step .initial labels = some s) :
    s.tasks + s.running.length ≤ 1 ∧
      (s.queue ≠ [] → s.waking = 0 → s.tasks + s.running.length = 1) ∧
      (ids s.entries).Perm (List.range s.enqueued.length) ∧
      ∀ entry ∈ s.entries, Merges s.enqueued entry := by
  have hinv : Inv s := run_invariant (fun _ _ _ h hstep => h.step hstep) inv_initial hrun
  have hsum := hinv.scheduled
  have hle := Bool.toNat_le s.taskScheduled
  refine ⟨by omega, ?_, hinv.ids, hinv.merges⟩
  intro hqueue hwaking
  rw [hinv.queued hqueue, Bool.toNat_true] at hsum
  omega

/-- Two messages are appended before the task runs, and a third one while it sends. -/
def overlap : List Label :=
  [.enqueue (.absMouseMove 1 1 9 9), .enqueue (.absMouseMove 2 2 9 9), .wake, .start, .pop 0,
    .enqueue (.mouseButton false 1), .send 0, .recheck 0, .reschedule 0]

theorem handoff_run_overlap :
    ∃ s, run step .initial overlap = some s ∧ s.queue = [⟨[2], .mouseButton false 1⟩] ∧
      s.delivered = [⟨[0, 1], .absMouseMove 2 2 9 9⟩] ∧ s.tasks + s.running.length = 1 := by
  obtain ⟨s, hrun, hs⟩ := (Option.any_eq_true _ _).mp
    (show (run step .initial overlap).any (fun s => decide
        (s.queue = [⟨[2], .mouseButton false 1⟩] ∧ s.waking = 0 ∧
          s.delivered = [⟨[0, 1], .absMouseMove 2 2 9 9⟩])) = true by rfl)
  obtain ⟨hqueue, hwaking, hdelivered⟩ := of_decide_eq_true hs
  exact ⟨s, hrun, hqueue, hdelivered, (handoff_run hrun).2.1 (by simp [hqueue]) hwaking⟩

end LuminalShine.Input.Handoff
