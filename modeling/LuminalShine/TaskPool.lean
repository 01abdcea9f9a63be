import LuminalShine.Lib.Run
import LuminalShine.Lib.Descending
import Mathlib.Data.Int.Order.Basic
import Mathlib.Data.Nat.Notation

/-!
# The task pool

`TaskPool` of `src/task_pool.h`: a deque of tasks to run at once and a vector of timers,
kept with the latest deadline in front so that the next one to run is at the back.  Every
operation holds the pool's one mutex, so it is one step.

A task is found by its address, which is free for the next task once this one is gone; a
task is therefore told apart by the push that made it.  Moving a `unique_ptr` out of an
entry leaves the null pointer there, which is the address `0`.

Two operations do not keep what the rest relies on.  `delay` moves an entry only towards
the front, so that a deadline that comes nearer leaves its entry too far in front;
`pop(task_id)` moves the task out and leaves its entry behind, without a task.

## Main definitions

* `Pool` and its operations — the class.
* `State`, `Label`, `step` — the pool with its clock and its history.
* `Orderly` — the uses of `delay` and `pop(task_id)` that keep the order.
* `Correct` — what the pool is for.
-/

namespace LuminalShine.TaskPool

open LuminalShine.Lib

/-- A pushed task: the address of the runnable, and which push this was (history). -/
structure Task where
  address : ℕ
  serial : ℕ
  deriving DecidableEq, Repr

/-- An entry of `_timer_tasks`; no task is a null pointer. -/
structure Timer where
  deadline : ℤ
  task : Option Task
  deriving DecidableEq, Repr

/-- What `&*task` and `get()` give. -/
def Timer.id (t : Timer) : ℕ :=
  match t.task with
  | none => 0
  | some task => task.address

structure Pool where
  /-- `_tasks` and `_timer_tasks`, front first. -/
  tasks : List Task
  timerTasks : List Timer
  deriving DecidableEq, Repr

/-- The loop that looks for an entry by its id: what stands in front of it, nearest
first, the entry, and what stands behind it. -/
def findTimer (taskId : ℕ) (front : List Timer) :
    List Timer → Option (List Timer × Timer × List Timer)
  | [] => none
  | t :: rest =>
      if t.id = taskId then some (front, t, rest) else findTimer taskId (t :: front) rest

namespace Pool

def push (p : Pool) (task : Task) : Pool :=
  { p with tasks := p.tasks ++ [task] }

/-- `pushDelayed` of a deadline and a task. -/
def pushDelayed (p : Pool) (deadline : ℤ) (task : Task) : Pool :=
  { p with timerTasks := insertDescending Timer.deadline ⟨deadline, some task⟩ p.timerTasks }

/-- `delay`, at the time `now`. -/
def delay (p : Pool) (now : ℤ) (taskId : ℕ) (duration : ℤ) : Pool :=
  match findTimer taskId [] p.timerTasks with
  | none => p
  | some (front, t, behind) =>
      { p with timerTasks :=
          bubble Timer.deadline front { t with deadline := now + duration } behind }

/-- `cancel`, with the result it returns. -/
def cancel (p : Pool) (taskId : ℕ) : Bool × Pool :=
  match findTimer taskId [] p.timerTasks with
  | none => (false, p)
  | some (front, _, behind) => (true, { p with timerTasks := front.reverse ++ behind })

/-- `pop(task_id)`: the pair is moved out of its place in the vector. -/
def popById (p : Pool) (taskId : ℕ) : Option Timer × Pool :=
  match findTimer taskId [] p.timerTasks with
  | none => (none, p)
  | some (front, t, behind) =>
      (some t, { p with timerTasks := front.reverse ++ { t with task := none } :: behind })

/-- `pop()`, at the time `now`. -/
def pop (p : Pool) (now : ℤ) : Option (Option Task) × Pool :=
  match p.tasks with
  | task :: rest => (some (some task), { p with tasks := rest })
  | [] =>
      match p.timerTasks.getLast? with
      | none => (none, p)
      | some t =>
          if t.deadline ≤ now then (some t.task, { p with timerTasks := p.timerTasks.dropLast })
          else (none, p)

/-- `next()`. -/
def next (p : Pool) : Option ℤ := p.timerTasks.getLast?.map Timer.deadline

/-- `ready()`, at the time `now`. -/
def ready (p : Pool) (now : ℤ) : Bool :=
  !p.tasks.isEmpty || p.timerTasks.getLast?.any fun t => decide (t.deadline ≤ now)

/-- The tasks the pool owns. -/
def held (p : Pool) : List Task := p.tasks ++ p.timerTasks.filterMap Timer.task

/-- The entries of both containers. -/
def size (p : Pool) : ℕ := p.tasks.length + p.timerTasks.length

end Pool

/-- What a `pop` handed out: the task, the deadline of the entry it was taken from (none
for a task to run at once), and when. -/
structure Yield where
  task : Option Task
  deadline : Option ℤ
  time : ℤ
  deriving DecidableEq, Repr

/-- The pool with the steady clock.  `pushed` counts the pushes and `returned` has what
the two `pop`s returned, in order: both are history. -/
structure State where
  pool : Pool
  now : ℤ
  pushed : ℕ
  returned : List Yield
  deriving DecidableEq, Repr

def State.init (now : ℤ) : State := ⟨⟨[], []⟩, now, 0, []⟩

/-- One critical section, or the passing of time.  The overload of `pushDelayed` that
takes a duration reads the clock before it takes the mutex, so the deadline it brings
along is any. -/
inductive Label where
  | push (address : ℕ)
  | pushDelayed (deadline : ℤ) (address : ℕ)
  | delay (taskId : ℕ) (duration : ℤ)
  | cancel (taskId : ℕ)
  | popById (taskId : ℕ)
  | pop
  | elapse (d : ℕ)
  deriving DecidableEq, Repr

/-- A new runnable is at an address of its own. -/
def Fresh (p : Pool) (address : ℕ) : Prop :=
  address ≠ 0 ∧ ∀ task ∈ p.held, task.address ≠ address

instance (p : Pool) (address : ℕ) : Decidable (Fresh p address) := by
  unfold Fresh
  infer_instance

namespace State

def afterPush (s : State) (p : Pool) : State := { s with pool := p, pushed := s.pushed + 1 }

def afterPopById (s : State) (taskId : ℕ) : State :=
  match s.pool.popById taskId with
  | (none, p) => { s with pool := p }
  | (some t, p) =>
      { s with pool := p, returned := s.returned ++ [⟨t.task, some t.deadline, s.now⟩] }

/-- The deadline recorded is that of the entry at the back, unless a task of the deque
goes first. -/
def afterPop (s : State) : State :=
  match s.pool.pop s.now with
  | (none, p) => { s with pool := p }
  | (some task, p) =>
      let deadline := if s.pool.tasks = [] then s.pool.next else none
      { s with pool := p, returned := s.returned ++ [⟨task, deadline, s.now⟩] }

/-- The tasks handed out. -/
def returnedTasks (s : State) : List Task := s.returned.filterMap Yield.task

end State

def step (s : State) : Label → Option State
  | .push address =>
      if Fresh s.pool address then some (s.afterPush (s.pool.push ⟨address, s.pushed⟩)) else none
  | .pushDelayed deadline address =>
      if Fresh s.pool address then
        some (s.afterPush (s.pool.pushDelayed deadline ⟨address, s.pushed⟩))
      else none
  | .delay taskId duration => some { s with pool := s.pool.delay s.now taskId duration }
  | .cancel taskId => some { s with pool := (s.pool.cancel taskId).2 }
  | .popById taskId => some (s.afterPopById taskId)
  | .pop => some s.afterPop
  | .elapse d => some { s with now := s.now + d }

/-! ## What the pool is for, and when -/

/-- The entries behind the one with this id; none if there is no such entry. -/
def entriesBehind (taskId : ℕ) (timers : List Timer) : List Timer :=
  match findTimer taskId [] timers with
  | none => []
  | some (_, _, behind) => behind

/-- The uses of the two operations that keep the order: a new deadline that is no earlier
than those of the entries behind, and no `pop(task_id)` of a pending task. -/
def Orderly (s : State) : Label → Prop
  | .delay taskId duration =>
      ∀ t ∈ entriesBehind taskId s.pool.timerTasks, t.deadline ≤ s.now + duration
  | .popById taskId => ∀ t ∈ s.pool.timerTasks, t.id ≠ taskId
  | _ => True

instance decidableOrderly (s : State) : ∀ i, Decidable (Orderly s i)
  | .delay _ _ => List.decidableBAll _ _
  | .popById _ => List.decidableBAll _ _
  | .push _ => isTrue trivial
  | .pushDelayed _ _ => isTrue trivial
  | .cancel _ => isTrue trivial
  | .pop => isTrue trivial
  | .elapse _ => isTrue trivial

/-- The order of the timers, what `next` and `pop` do with it, and what has been handed
out so far. -/
structure Correct (s : State) : Prop where
  sorted : Descending Timer.deadline s.pool.timerTasks
  next_earliest : (s.pool.timerTasks = [] ∧ s.pool.next = none) ∨
    ∃ t ∈ s.pool.timerTasks, s.pool.next = some t.deadline ∧
      ∀ u ∈ s.pool.timerTasks, t.deadline ≤ u.deadline
  pop_earliest : s.pool.tasks = [] → ∀ task, (s.pool.pop s.now).1 = some task →
    ∃ t ∈ s.pool.timerTasks, t.task = task ∧ t.deadline ≤ s.now ∧
      ∀ u ∈ s.pool.timerTasks, t.deadline ≤ u.deadline
  returned_due : ∀ y ∈ s.returned, ∀ d, y.deadline = some d → d ≤ y.time
  returned_once : (s.returnedTasks.map Task.serial).Nodup
  returned_task : ∀ y ∈ s.returned, y.task ≠ none

/-- As long as the pool holds the task, this step neither cancels nor delays it. -/
def Spares (task : Task) (s : State) (i : Label) : Prop :=
  task ∈ s.pool.held →
    match i with
    | .cancel taskId => taskId ≠ task.address
    | .delay taskId _ => taskId ≠ task.address
    | _ => True

instance decidableSpares (task : Task) (s : State) : ∀ i, Decidable (Spares task s i)
  | .push _ => isTrue fun _ => trivial
  | .pushDelayed _ _ => isTrue fun _ => trivial
  | .delay taskId _ =>
      inferInstanceAs (Decidable (task ∈ s.pool.held → taskId ≠ task.address))
  | .cancel taskId =>
      inferInstanceAs (Decidable (task ∈ s.pool.held → taskId ≠ task.address))
  | .popById _ => isTrue fun _ => trivial
  | .pop => isTrue fun _ => trivial
  | .elapse _ => isTrue fun _ => trivial

/-- How many tasks the labels push. -/
def pushes : List Label → ℕ
  | [] => 0
  | .push _ :: is => pushes is + 1
  | .pushDelayed _ _ :: is => pushes is + 1
  | _ :: is => pushes is

/-- How many of the labels, taken from the time `now` on, call `pop()` at the deadline or
after it. -/
def duePops (deadline : ℤ) : ℤ → List Label → ℕ
  | _, [] => 0
  | now, .pop :: is => duePops deadline now is + if deadline ≤ now then 1 else 0
  | now, .elapse d :: is => duePops deadline (now + d) is
  | now, _ :: is => duePops deadline now is

/-! ## One operation at a time -/

/-- The search splits the list at the first entry with the id. -/
theorem findTimer_append {taskId : ℕ} {front l f b : List Timer} {t : Timer}
    (h : findTimer taskId front l = some (f, t, b)) :
    front.reverse ++ l = f.reverse ++ t :: b ∧ t.id = taskId := by
  induction l generalizing front with
  | nil => simp [findTimer] at h
  | cons u rest ih =>
      by_cases hid : u.id = taskId
      · simp only [findTimer, if_pos hid, Option.some.injEq, Prod.mk.injEq] at h
        obtain ⟨rfl, rfl, rfl⟩ := h
        exact ⟨rfl, hid⟩
      · simp only [findTimer, if_neg hid] at h
        simpa using ih h

theorem findTimer_eq_some {taskId : ℕ} {l f b : List Timer} {t : Timer}
    (h : findTimer taskId [] l = some (f, t, b)) :
    l = f.reverse ++ t :: b ∧ t.id = taskId := by
  simpa using findTimer_append h

theorem findTimer_eq_none {taskId : ℕ} {front l : List Timer}
    (h : ∀ t ∈ l, t.id ≠ taskId) : findTimer taskId front l = none := by
  induction l generalizing front with
  | nil => rfl
  | cons u rest ih =>
      rw [findTimer, if_neg (h u List.mem_cons_self)]
      exact ih fun t ht => h t (List.mem_cons_of_mem u ht)

/-- `pop()` hands out the front of the deque, else the back of the timers once it is due,
else nothing. -/
theorem pop_cases (p : Pool) (now : ℤ) :
    (∃ (task : Task) (rest : List Task), p.tasks = task :: rest ∧
      p.pop now = (some (some task), { p with tasks := rest })) ∨
    (∃ (l : List Timer) (t : Timer), p.tasks = [] ∧ p.timerTasks = l ++ [t] ∧ t.deadline ≤ now ∧
      p.pop now = (some t.task, { p with timerTasks := l })) ∨
    (p.tasks = [] ∧
      (∀ (l : List Timer) (t : Timer), p.timerTasks = l ++ [t] → now < t.deadline) ∧
      p.pop now = (none, p)) := by
  obtain ⟨tasks, timers⟩ := p
  cases tasks with
  | cons task rest => exact .inl ⟨task, rest, rfl, rfl⟩
  | nil =>
      rcases List.eq_nil_or_concat' timers with rfl | ⟨l, t, rfl⟩
      · exact .inr (.inr ⟨rfl, by simp, rfl⟩)
      · by_cases hdue : t.deadline ≤ now
        · refine .inr (.inl ⟨l, t, rfl, rfl, hdue, ?_⟩)
          simp [Pool.pop, hdue]
        · refine .inr (.inr ⟨rfl, ?_, ?_⟩)
          · intro l' t' heq
            obtain ⟨-, rfl⟩ := List.append_singleton_inj.mp heq
            exact not_le.mp hdue
          · simp [Pool.pop, hdue]

/-- A pushed timer is one more among the others. -/
theorem pushDelayed_perm (p : Pool) (deadline : ℤ) (task : Task) :
    (p.pushDelayed deadline task).timerTasks.Perm (⟨deadline, some task⟩ :: p.timerTasks) :=
  insertDescending_perm _ _

theorem held_push (p : Pool) (task : Task) : (p.push task).held.Perm (task :: p.held) := by
  simp only [Pool.held, Pool.push, List.append_assoc, List.singleton_append]
  exact List.perm_middle

theorem held_pushDelayed (p : Pool) (deadline : ℤ) (task : Task) :
    (p.pushDelayed deadline task).held.Perm (task :: p.held) := by
  have h := (pushDelayed_perm p deadline task).filterMap Timer.task
  have h' := h.append_left p.tasks
  simp only [List.filterMap_cons] at h'
  exact h'.trans List.perm_middle

/-- What `delay` does to the timers, if it finds one. -/
theorem delay_cases (p : Pool) (now : ℤ) (taskId : ℕ) (duration : ℤ) :
    p.delay now taskId duration = p ∨
    ∃ front t behind, p.timerTasks = front.reverse ++ t :: behind ∧ t.id = taskId ∧
      entriesBehind taskId p.timerTasks = behind ∧
      p.delay now taskId duration = { p with
        timerTasks := bubble Timer.deadline front { t with deadline := now + duration } behind
      } := by
  unfold Pool.delay entriesBehind
  cases hfind : findTimer taskId [] p.timerTasks with
  | none => exact .inl rfl
  | some found =>
      obtain ⟨front, t, behind⟩ := found
      obtain ⟨hsplit, hid⟩ := findTimer_eq_some hfind
      exact .inr ⟨front, t, behind, hsplit, hid, rfl, rfl⟩

theorem held_delay (p : Pool) (now : ℤ) (taskId : ℕ) (duration : ℤ) :
    (p.delay now taskId duration).held.Perm p.held := by
  rcases delay_cases p now taskId duration with heq | ⟨front, t, behind, hsplit, -, -, heq⟩
  · rw [heq]
  · rw [heq]
    simp only [Pool.held, hsplit]
    refine List.Perm.append_left _ ?_
    have h : (bubble Timer.deadline front { t with deadline := now + duration } behind).Perm _ :=
      bubble_perm front _ behind
    simpa [List.filterMap_append, List.filterMap_cons] using h.filterMap Timer.task

/-- `cancel` takes one entry out, or none. -/
theorem cancel_cases (p : Pool) (taskId : ℕ) :
    (p.cancel taskId).2 = p ∨
    ∃ front t behind, p.timerTasks = front ++ t :: behind ∧ t.id = taskId ∧
      (p.cancel taskId).2 = { p with timerTasks := front ++ behind } := by
  rw [Pool.cancel]
  cases hfind : findTimer taskId [] p.timerTasks with
  | none => exact .inl rfl
  | some found =>
      obtain ⟨front, t, behind⟩ := found
      obtain ⟨hsplit, hid⟩ := findTimer_eq_some hfind
      exact .inr ⟨front.reverse, t, behind, hsplit, hid, rfl⟩

theorem cancel_timers_sublist (p : Pool) (taskId : ℕ) :
    (p.cancel taskId).2.timerTasks.Sublist p.timerTasks := by
  rcases cancel_cases p taskId with heq | ⟨front, t, behind, hsplit, -, heq⟩
  · rw [heq]
  · rw [heq, hsplit]
    exact (List.sublist_cons_self t behind).append_left front

theorem cancel_tasks (p : Pool) (taskId : ℕ) : (p.cancel taskId).2.tasks = p.tasks := by
  rcases cancel_cases p taskId with heq | ⟨front, t, behind, -, -, heq⟩ <;> rw [heq]

/-- An id nobody has: `pop(task_id)` returns nothing and changes nothing. -/
theorem afterPopById_of_absent {s : State} {taskId : ℕ}
    (h : ∀ t ∈ s.pool.timerTasks, t.id ≠ taskId) : s.afterPopById taskId = s := by
  simp [State.afterPopById, Pool.popById, findTimer_eq_none h]

/-- What a call of `pop()` does to the state. -/
theorem afterPop_cases (s : State) :
    (∃ (task : Task) (rest : List Task), s.pool.tasks = task :: rest ∧
      s.afterPop = { s with pool := { s.pool with tasks := rest }
                            returned := s.returned ++ [⟨some task, none, s.now⟩] }) ∨
    (∃ (l : List Timer) (t : Timer), s.pool.tasks = [] ∧ s.pool.timerTasks = l ++ [t] ∧
      t.deadline ≤ s.now ∧
      s.afterPop = { s with pool := { s.pool with timerTasks := l }
                            returned := s.returned ++ [⟨t.task, some t.deadline, s.now⟩] }) ∨
    (s.pool.tasks = [] ∧
      (∀ (l : List Timer) (t : Timer), s.pool.timerTasks = l ++ [t] → s.now < t.deadline) ∧
      s.afterPop = s) := by
  rcases pop_cases s.pool s.now with
    ⟨task, rest, htasks, hpop⟩ | ⟨l, t, htasks, htimers, hdue, hpop⟩ | ⟨htasks, hlate, hpop⟩
  · exact .inl ⟨task, rest, htasks, by simp [State.afterPop, hpop, htasks]⟩
  · refine .inr (.inl ⟨l, t, htasks, htimers, hdue, ?_⟩)
    simp [State.afterPop, hpop, htasks, Pool.next, htimers]
  · exact .inr (.inr ⟨htasks, hlate, by simp [State.afterPop, hpop]⟩)

/-! ## The invariant -/

/-- Every task that is or was in the pool: what was handed out, and what is held. -/
def State.known (s : State) : List Task := s.returnedTasks ++ s.pool.held

structure Inv (s : State) : Prop where
  sorted : Descending Timer.deadline s.pool.timerTasks
  full : ∀ t ∈ s.pool.timerTasks, t.task ≠ none
  distinct : (s.known.map Task.serial).Nodup
  numbered : ∀ task ∈ s.known, task.serial < s.pushed
  returned_due : ∀ y ∈ s.returned, ∀ d, y.deadline = some d → d ≤ y.time
  returned_task : ∀ y ∈ s.returned, y.task ≠ none

theorem inv_init (now : ℤ) : Inv (State.init now) where
  sorted := List.Pairwise.nil
  full := by intro t ht; cases ht
  distinct := List.nodup_nil
  numbered := by intro task htask; cases htask
  returned_due := by intro y hy; cases hy
  returned_task := by intro y hy; cases hy

/-- A push numbers its task with the count of the pushes before it. -/
theorem Inv.pushed {s : State} (h : Inv s) {p : Pool} {task : Task}
    (hserial : task.serial = s.pushed) (hheld : p.held.Perm (task :: s.pool.held))
    (hsorted : Descending Timer.deadline p.timerTasks)
    (hfull : ∀ t ∈ p.timerTasks, t.task ≠ none) : Inv (s.afterPush p) := by
  have hknown : (s.afterPush p).known.Perm (task :: s.known) :=
    (hheld.append_left s.returnedTasks).trans List.perm_middle
  refine ⟨hsorted, hfull, ?_, ?_, h.returned_due, h.returned_task⟩
  · rw [(hknown.map Task.serial).nodup_iff, List.map_cons]
    refine List.nodup_cons.mpr ⟨?_, h.distinct⟩
    intro hmem
    obtain ⟨old, hold, heq⟩ := List.mem_map.mp hmem
    have := h.numbered old hold
    omega
  · intro new hnew
    rcases List.mem_cons.mp (hknown.mem_iff.mp hnew) with rfl | hold
    · simp only [State.afterPush]; omega
    · have := h.numbered new hold
      simp only [State.afterPush]; omega

/-- A change of the pool that brings no task in. -/
theorem Inv.withPool {s : State} (h : Inv s) {p : Pool} (hheld : p.held.Subperm s.pool.held)
    (hsorted : Descending Timer.deadline p.timerTasks)
    (hfull : ∀ t ∈ p.timerTasks, t.task ≠ none) : Inv { s with pool := p } := by
  obtain ⟨l, hperm, hsub⟩ := hheld
  have hknown : (s.returnedTasks ++ l).Perm (State.known { s with pool := p }) :=
    hperm.append_left s.returnedTasks
  have hknown' : (s.returnedTasks ++ l).Sublist s.known := hsub.append_left s.returnedTasks
  refine ⟨hsorted, hfull, ?_, ?_, h.returned_due, h.returned_task⟩
  · rw [← (hknown.map Task.serial).nodup_iff]
    exact h.distinct.sublist (hknown'.map Task.serial)
  · exact fun task htask => h.numbered task (hknown'.subset (hknown.mem_iff.mpr htask))

/-- A pop moves one task from the pool to the history. -/
theorem Inv.afterPop {s : State} (h : Inv s) : Inv s.afterPop := by
  rcases afterPop_cases s with
    ⟨task, rest, htasks, heq⟩ | ⟨l, t, htasks, htimers, hdue, heq⟩ | ⟨-, -, heq⟩
  · have hknown : s.afterPop.known = s.known := by
      rw [heq]
      simp [State.known, State.returnedTasks, Pool.held, htasks, List.filterMap_append]
    rw [heq] at hknown ⊢
    refine ⟨h.sorted, h.full, hknown ▸ h.distinct, hknown ▸ h.numbered, ?_, ?_⟩
    · simp only [List.forall_mem_append, List.forall_mem_singleton]
      exact ⟨h.returned_due, fun d hd => by cases hd⟩
    · simp only [List.forall_mem_append, List.forall_mem_singleton]
      exact ⟨h.returned_task, by simp⟩
  · obtain ⟨task, htask⟩ : ∃ task, t.task = some task :=
      Option.ne_none_iff_exists'.mp (h.full t (by rw [htimers]; simp))
    have hknown : s.afterPop.known.Perm s.known := by
      rw [heq]
      simp only [State.known, State.returnedTasks, Pool.held, htasks, htimers, htask,
        List.filterMap_append, List.filterMap_cons, List.filterMap_nil, List.nil_append,
        List.append_assoc]
      exact List.perm_append_comm.append_left _
    have hsub : l.Sublist s.pool.timerTasks := by
      rw [htimers]
      exact List.sublist_append_left l [t]
    rw [heq] at hknown ⊢
    refine ⟨h.sorted.sublist hsub, fun u hu => h.full u (hsub.subset hu), ?_, ?_, ?_, ?_⟩
    · exact ((hknown.map Task.serial).nodup_iff).mpr h.distinct
    · exact fun task htask => h.numbered task (hknown.mem_iff.mp htask)
    · simp only [List.forall_mem_append, List.forall_mem_singleton, Option.some.injEq]
      exact ⟨h.returned_due, fun d hd => hd ▸ hdue⟩
    · simp only [List.forall_mem_append, List.forall_mem_singleton]
      exact ⟨h.returned_task, by simp [htask]⟩
  · rw [heq]
    exact h

theorem Inv.delay {s : State} (h : Inv s) {taskId : ℕ} {duration : ℤ}
    (hlater : ∀ t ∈ entriesBehind taskId s.pool.timerTasks, t.deadline ≤ s.now + duration) :
    Inv { s with pool := s.pool.delay s.now taskId duration } := by
  have hheld := held_delay s.pool s.now taskId duration
  rcases delay_cases s.pool s.now taskId duration with
    heq | ⟨front, t, behind, hsplit, -, hbehind, heq⟩
  · rw [heq]
    exact h
  · refine h.withPool hheld.subperm ?_ ?_
    · rw [heq]
      refine Descending.bubble ?_ (hbehind ▸ hlater)
      refine h.sorted.sublist ?_
      rw [hsplit]
      exact (List.sublist_cons_self t behind).append_left front.reverse
    · rw [heq]
      intro u hu
      have hu' := (bubble_perm front _ behind).mem_iff.mp hu
      have hfull : ∀ v ∈ front.reverse ++ t :: behind, v.task ≠ none := hsplit ▸ h.full
      simp only [List.mem_append, List.mem_cons] at hu' hfull
      rcases hu' with hu' | rfl | hu'
      · exact hfull u (.inl hu')
      · exact hfull t (.inr (.inl rfl))
      · exact hfull u (.inr (.inr hu'))

theorem step_inv {s s' : State} {i : Label} (h : Inv s) (hg : Orderly s i)
    (hs : step s i = some s') : Inv s' := by
  cases i with
  | push address =>
      obtain ⟨-, rfl⟩ := guarded_eq_some.mp hs
      exact h.pushed rfl (held_push s.pool _) h.sorted h.full
  | pushDelayed deadline address =>
      obtain ⟨-, rfl⟩ := guarded_eq_some.mp hs
      refine h.pushed rfl (held_pushDelayed s.pool deadline _) h.sorted.insert ?_
      intro t ht
      rcases List.mem_cons.mp ((pushDelayed_perm s.pool deadline _).mem_iff.mp ht) with rfl | ht
      · simp
      · exact h.full t ht
  | delay taskId duration =>
      cases hs
      exact h.delay hg
  | cancel taskId =>
      cases hs
      have hsub := cancel_timers_sublist s.pool taskId
      refine h.withPool ?_ (h.sorted.sublist hsub) fun t ht => h.full t (hsub.subset ht)
      simp only [Pool.held, cancel_tasks]
      exact ((hsub.filterMap Timer.task).append_left s.pool.tasks).subperm
  | popById taskId =>
      cases hs
      rw [afterPopById_of_absent hg]
      exact h
  | pop =>
      cases hs
      exact h.afterPop
  | elapse d =>
      cases hs
      exact ⟨h.sorted, h.full, h.distinct, h.numbered, h.returned_due, h.returned_task⟩

theorem Inv.correct {s : State} (h : Inv s) : Correct s where
  sorted := h.sorted
  next_earliest := by
    rcases List.eq_nil_or_concat' s.pool.timerTasks with hnil | ⟨l, t, htimers⟩
    · exact .inl ⟨hnil, by simp [Pool.next, hnil]⟩
    · have hleast := (htimers ▸ h.sorted).back_le
      rw [htimers]
      exact .inr ⟨t, by simp, by simp [Pool.next, htimers], hleast⟩
  pop_earliest := by
    intro hempty task hpop
    rcases pop_cases s.pool s.now with
      ⟨_, _, htasks, -⟩ | ⟨l, t, -, htimers, hdue, heq⟩ | ⟨-, -, heq⟩
    · simp [hempty] at htasks
    · simp only [heq, Option.some.injEq] at hpop
      have hleast := (htimers ▸ h.sorted).back_le
      rw [htimers]
      exact ⟨t, by simp, hpop, hdue, hleast⟩
    · simp [heq] at hpop
  returned_due := h.returned_due
  returned_once := by
    have hnodup := h.distinct
    rw [State.known, List.map_append] at hnodup
    exact (List.nodup_append.mp hnodup).1
  returned_task := h.returned_task

/-! ## Nothing waits forever -/

theorem returnedTasks_mono {s s' : State} {i : Label} (hs : step s i = some s') :
    s.returnedTasks ⊆ s'.returnedTasks := by
  have happend : ∀ y : Yield, s.returnedTasks ⊆ (s.returned ++ [y]).filterMap Yield.task := by
    intro y
    rw [List.filterMap_append]
    exact List.subset_append_left _ _
  cases i with
  | push address =>
      obtain ⟨-, rfl⟩ := guarded_eq_some.mp hs
      exact List.Subset.refl _
  | pushDelayed deadline address =>
      obtain ⟨-, rfl⟩ := guarded_eq_some.mp hs
      exact List.Subset.refl _
  | popById taskId =>
      cases hs
      rw [State.afterPopById]
      split
      · exact List.Subset.refl _
      · exact happend _
  | pop =>
      cases hs
      rcases afterPop_cases s with ⟨_, _, -, heq⟩ | ⟨_, _, -, -, -, heq⟩ | ⟨-, -, heq⟩
      · rw [heq]
        exact happend _
      · rw [heq]
        exact happend _
      · rw [heq]
        exact List.Subset.refl _
  | delay taskId duration => cases hs; exact List.Subset.refl _
  | cancel taskId => cases hs; exact List.Subset.refl _
  | elapse d => cases hs; exact List.Subset.refl _

theorem returnedTasks_run_mono {s t : State} {is : List Label} (hrun : run step s is = some t) :
    s.returnedTasks ⊆ t.returnedTasks :=
  run_invariant (P := fun u => s.returnedTasks ⊆ u.returnedTasks)
    (fun _ _ _ hu hs => List.Subset.trans hu (returnedTasks_mono hs)) (List.Subset.refl _) hrun

/-- A task that has its entry is held. -/
theorem mem_held_of_timer {p : Pool} {t : Timer} {task : Task} (ht : t ∈ p.timerTasks)
    (htask : t.task = some task) : task ∈ p.held :=
  List.mem_append_right _ (List.mem_filterMap.mpr ⟨t, ht, htask⟩)

/-- How one step moves the number of entries while the timer `t` is waiting: up by a
push, and down by a `pop()` once `t` is due, whatever that `pop()` hands out. -/
def Progress (t : Timer) (s s' : State) (i : Label) : Prop :=
  t ∈ s'.pool.timerTasks ∧
    s'.pool.size + duePops t.deadline s.now [i] ≤ s.pool.size + pushes [i]

theorem progress_pop {s : State} {t : Timer} {task : Task} (h : Inv s)
    (ht : t ∈ s.pool.timerTasks) (htask : t.task = some task) :
    Progress t s s.afterPop .pop ∨ task ∈ s.afterPop.returnedTasks := by
  rcases afterPop_cases s with
    ⟨first, rest, htasks, heq⟩ | ⟨l, b, htasks, htimers, hdue, heq⟩ | ⟨htasks, hlate, heq⟩
  · left
    rw [heq]
    refine ⟨ht, ?_⟩
    simp only [Pool.size, htasks, List.length_cons, duePops, pushes]
    split <;> omega
  · rw [htimers, List.mem_append, List.mem_singleton] at ht
    rcases ht with ht | rfl
    · left
      rw [heq]
      refine ⟨ht, ?_⟩
      simp only [Pool.size, htimers, List.length_append, List.length_singleton, duePops, pushes]
      split <;> omega
    · right
      rw [heq]
      simp [State.returnedTasks, List.filterMap_append, htask]
  · left
    -- the entry at the back is not due yet, and no entry is due before it
    have hnot : ¬ t.deadline ≤ s.now := by
      rcases List.eq_nil_or_concat' s.pool.timerTasks with hnil | ⟨l, b, htimers⟩
      · simp [hnil] at ht
      · have hb := hlate l b htimers
        have hleast := (htimers ▸ h.sorted).back_le t (htimers ▸ ht)
        omega
    rw [heq]
    refine ⟨ht, ?_⟩
    simp [duePops, pushes, hnot]

theorem mem_delay_of_id_ne {p : Pool} {now : ℤ} {taskId : ℕ} {duration : ℤ} {t : Timer}
    (ht : t ∈ p.timerTasks) (hid : t.id ≠ taskId) :
    t ∈ (p.delay now taskId duration).timerTasks := by
  rcases delay_cases p now taskId duration with heq | ⟨front, u, behind, hsplit, hu, -, heq⟩
  · rwa [heq]
  · rw [heq]
    refine (bubble_perm front _ behind).mem_iff.mpr ?_
    rw [hsplit, List.mem_append, List.mem_cons] at ht
    rw [List.mem_append, List.mem_cons]
    rcases ht with ht | rfl | ht
    · exact .inl ht
    · exact absurd hu hid
    · exact .inr (.inr ht)

theorem size_delay (p : Pool) (now : ℤ) (taskId : ℕ) (duration : ℤ) :
    (p.delay now taskId duration).size = p.size := by
  rcases delay_cases p now taskId duration with heq | ⟨front, u, behind, hsplit, -, -, heq⟩
  · rw [heq]
  · rw [heq]
    simp only [Pool.size, hsplit, (bubble_perm front _ behind).length_eq,
      List.length_append, List.length_cons]

theorem mem_cancel_of_id_ne {p : Pool} {taskId : ℕ} {t : Timer} (ht : t ∈ p.timerTasks)
    (hid : t.id ≠ taskId) : t ∈ (p.cancel taskId).2.timerTasks := by
  rcases cancel_cases p taskId with heq | ⟨front, u, behind, hsplit, hu, heq⟩
  · rwa [heq]
  · rw [heq]
    rw [hsplit, List.mem_append, List.mem_cons] at ht
    refine List.mem_append.mpr ?_
    rcases ht with ht | rfl | ht
    · exact .inl ht
    · exact absurd hu hid
    · exact .inr ht

/-- A waiting task makes progress by every step that spares it, or it is handed out. -/
theorem step_progress {s s' : State} {i : Label} {t : Timer} {task : Task} (h : Inv s)
    (hg : Orderly s i) (hspare : Spares task s i) (ht : t ∈ s.pool.timerTasks)
    (htask : t.task = some task) (hs : step s i = some s') :
    Progress t s s' i ∨ task ∈ s'.returnedTasks := by
  have hid : t.id = task.address := by simp [Timer.id, htask]
  have hspared := hspare (mem_held_of_timer ht htask)
  cases i with
  | push address =>
      obtain ⟨-, rfl⟩ := guarded_eq_some.mp hs
      refine .inl ⟨ht, ?_⟩
      simp [Pool.size, State.afterPush, Pool.push, duePops, pushes]
      omega
  | pushDelayed deadline address =>
      obtain ⟨-, rfl⟩ := guarded_eq_some.mp hs
      have hperm := pushDelayed_perm s.pool deadline ⟨address, s.pushed⟩
      refine .inl ⟨hperm.mem_iff.mpr (List.mem_cons_of_mem _ ht), ?_⟩
      have hlen := hperm.length_eq
      simp only [List.length_cons] at hlen
      have htasks : (s.pool.pushDelayed deadline ⟨address, s.pushed⟩).tasks = s.pool.tasks := rfl
      simp only [Pool.size, State.afterPush, duePops, pushes, hlen, htasks]
      omega
  | delay taskId duration =>
      cases hs
      refine .inl ⟨mem_delay_of_id_ne ht (hid ▸ hspared.symm), ?_⟩
      simp [size_delay, duePops, pushes]
  | cancel taskId =>
      cases hs
      refine .inl ⟨mem_cancel_of_id_ne ht (hid ▸ hspared.symm), ?_⟩
      have hle := (cancel_timers_sublist s.pool taskId).length_le
      simp only [Pool.size, cancel_tasks, duePops, pushes]
      omega
  | popById taskId =>
      cases hs
      rw [afterPopById_of_absent hg]
      exact .inl ⟨ht, Nat.le_refl _⟩
  | pop =>
      cases hs
      exact progress_pop h ht htask
  | elapse d =>
      cases hs
      exact .inl ⟨ht, Nat.le_refl _⟩

theorem pushes_cons (i : Label) (is : List Label) : pushes (i :: is) = pushes [i] + pushes is := by
  cases i <;> simp [pushes] <;> omega

/-- Only `elapse` moves the clock. -/
theorem duePops_cons {s s' : State} {i : Label} (hs : step s i = some s') (deadline : ℤ)
    (is : List Label) :
    duePops deadline s.now (i :: is) =
      duePops deadline s.now [i] + duePops deadline s'.now is := by
  cases i with
  | push address =>
      obtain ⟨-, rfl⟩ := guarded_eq_some.mp hs
      simp [duePops, State.afterPush]
  | pushDelayed at' address =>
      obtain ⟨-, rfl⟩ := guarded_eq_some.mp hs
      simp [duePops, State.afterPush]
  | popById taskId =>
      cases hs
      rw [State.afterPopById]
      split <;> simp [duePops]
  | pop =>
      cases hs
      have hnow : s.afterPop.now = s.now := by
        rw [State.afterPop]
        split <;> rfl
      simp only [duePops, hnow]
      omega
  | delay taskId duration => cases hs; simp [duePops]
  | cancel taskId => cases hs; simp [duePops]
  | elapse d => cases hs; simp [duePops]

/-- A task that is neither cancelled nor delayed is handed out by the time `pop()` has
been called, after its deadline, once for every entry there is and every later push. -/
theorem eventually_returned {t : Timer} {task : Task} (htask : t.task = some task)
    {s s' : State} {more : List Label} (h : Inv s) (ht : t ∈ s.pool.timerTasks)
    (hmeets : RunMeets step (fun s i => Orderly s i ∧ Spares task s i) s more)
    (hrun : run step s more = some s')
    (hoften : s.pool.size + pushes more ≤ duePops t.deadline s.now more) :
    task ∈ s'.returnedTasks := by
  induction more generalizing s with
  | nil =>
      have hpos : 0 < s.pool.timerTasks.length := List.length_pos_of_mem ht
      simp only [Pool.size, duePops] at hoften
      omega
  | cons i is ih =>
      obtain ⟨u, hu, hrest⟩ := run_cons_eq_some.mp hrun
      obtain ⟨⟨hg, hspare⟩, htail⟩ := hmeets
      rcases step_progress h hg hspare ht htask hu with ⟨ht', hsize⟩ | hdone
      · refine ih (step_inv h hg hu) ht' (htail u hu) hrest ?_
        rw [pushes_cons, duePops_cons hu] at hoften
        omega
      · exact returnedTasks_run_mono hrest hdone

/-! ## Runs -/

/-- **The timers of an orderly run.**  They stay sorted, `next` and `pop()` give the
earliest deadline, what is handed out is a task, once and not before its deadline, and a
waiting task that is neither cancelled nor delayed is handed out when `pop()` is called
often enough after its deadline. -/
theorem orderly_run_correct {now : ℤ} {is : List Label} {s : State}
    (hmeets : RunMeets step Orderly (State.init now) is)
    (hrun : run step (State.init now) is = some s) :
    Correct s ∧
    ∀ t ∈ s.pool.timerTasks, ∃ task, t.task = some task ∧
      ∀ more s', RunMeets step (fun s i => Orderly s i ∧ Spares task s i) s more →
        run step s more = some s' →
        s.pool.size + pushes more ≤ duePops t.deadline s.now more →
        task ∈ s'.returnedTasks := by
  have h : Inv s := run_invariant_of_meets (fun _ _ _ h hg hs => step_inv h hg hs)
    (inv_init now) hmeets hrun
  refine ⟨h.correct, ?_⟩
  intro t ht
  obtain ⟨task, htask⟩ := Option.ne_none_iff_exists'.mp (h.full t ht)
  refine ⟨task, htask, ?_⟩
  intro more s' hmore hrun' hoften
  exact eventually_returned htask h ht hmore hrun' hoften

/-- Two timers, and the earlier one delayed past the later one: `delay` puts it in front. -/
def overtaking : List Label := [.pushDelayed 10 1, .pushDelayed 20 2, .delay 1 30]

theorem orderly_run_correct_overtaking :
    RunMeets step Orderly (State.init 0) overtaking ∧
    ∃ s s', run step (State.init 0) overtaking = some s ∧ Correct s ∧
      run step s [.elapse 20, .pop, .pop] = some s' ∧ ⟨2, 1⟩ ∈ s'.returnedTasks := by
  have hmeets : RunMeets step Orderly (State.init 0) overtaking := by decide
  refine ⟨hmeets, _, _, rfl, (orderly_run_correct hmeets rfl).1, rfl, ?_⟩
  obtain ⟨task, htask, hreturned⟩ := (orderly_run_correct hmeets rfl).2
    ⟨20, some ⟨2, 1⟩⟩ (by decide)
  cases htask
  exact hreturned [.elapse 20, .pop, .pop] _ (by decide) rfl (by decide)

/-- A deadline that comes nearer, and a task taken out by its id. -/
def hastened : List Label := [.pushDelayed 10 1, .pushDelayed 20 2, .delay 2 5, .elapse 5]

def hollowed : List Label := [.pushDelayed 10 1, .popById 1, .elapse 10, .pop]

/-- After `hastened` a task is due and `pop()` returns nothing, for `next` still gives the
later deadline; after `hollowed` a `pop()` has returned an empty task, and the one before
it a task that was not due. -/
theorem pool_incorrect :
    (∃ s, run step (State.init 0) hastened = some s ∧ ¬ Correct s ∧
      (∃ t ∈ s.pool.timerTasks, t.deadline ≤ s.now) ∧ s.pool.next = some 10 ∧
      (s.pool.pop s.now).1 = none) ∧
    ∃ s, run step (State.init 0) hollowed = some s ∧ ¬ Correct s ∧
      s.returned = [⟨some ⟨1, 0⟩, some 10, 0⟩, ⟨none, some 10, 10⟩] := by
  refine ⟨⟨_, rfl, ?_, by decide, rfl, rfl⟩, ⟨_, rfl, ?_, rfl⟩⟩
  · intro h
    exact absurd h.sorted (by decide)
  · intro h
    exact h.returned_task ⟨none, some 10, 10⟩ (by decide) rfl

end LuminalShine.TaskPool
