import LuminalShine.Lib.Run
import Mathlib.Data.List.Infix
import Mathlib.Data.Nat.Notation
import Mathlib.Logic.Function.Basic

/-!
# The bounded queue

`queue_t` of `src/thread_safe.h`.  A producer that finds a blocking queue full, and a
consumer that finds it empty, sleep on one condition variable; `stop` and `reset` wake
everybody up and advance a generation, which every sleeper compares with the one it saw
when it came in.

A critical section is one step: from taking the lock to the wait that releases it or to
the return.  A sleeper may wake up at any time, notified or not, so its wake-up is a
label of its own that is always enabled; this covers every wake-up order.

## Main definitions

* `Queue`, `Label`, `step` — the transition system, any number of threads.
* `Inv` — the invariant.
* `blocking_queue_fifo` — the run theorem.
-/

namespace LuminalShine.Safe

open LuminalShine.Lib

/-- `queue_overflow_e`. -/
inductive QueueOverflow where
  | clear
  | block
  deriving DecidableEq, Repr

/-- A stored element.  All but `value` is history: the epoch it was accepted in, and how
many calls of `stop` and `reset` there had been when its `raise` was called and when it
was inserted. -/
structure Entry (α : Type) where
  value : α
  epoch : ℕ
  raisedAfter : ℕ
  insertedAfter : ℕ
  deriving DecidableEq, Repr

/-- Where a thread is: outside the queue, or asleep in one of the three waits with the
generation it captured. -/
inductive Thread (α : Type) where
  | outside
  | raising (value : α) (generation raisedAfter : ℕ)
  | popping (generation : ℕ)
  | poppingFor (generation : ℕ)
  deriving DecidableEq, Repr

structure Queue (α : Type) where
  /-- The fields of the class. -/
  running : Bool
  maxElements : ℕ
  overflow : QueueOverflow
  generation : ℕ
  waitingProducers : ℕ
  queue : List (Entry α)
  thread : ℕ → Thread α
  /-- History: the calls of `reset`, those of `stop` and `reset`, what was accepted, and
  what was popped in which epoch. -/
  epoch : ℕ
  interruptions : ℕ
  accepted : List (Entry α)
  popped : List (ℕ × Entry α)

inductive Label (α : Type) where
  | raise (thread : ℕ) (value : α)
  | wakeRaise (thread : ℕ)
  | pop (thread : ℕ)
  | wakePop (thread : ℕ)
  | popFor (thread : ℕ)
  | wakePopFor (thread : ℕ) (timedOut : Bool)
  | stop
  | reset
  deriving DecidableEq, Repr

variable {α : Type}

namespace Queue

/-- The constructor: a capacity of zero becomes one. -/
def make (maxElements : ℕ) (overflow : QueueOverflow) : Queue α where
  running := true
  maxElements := if maxElements = 0 then 1 else maxElements
  overflow := overflow
  generation := 0
  waitingProducers := 0
  queue := []
  thread := fun _ => .outside
  epoch := 0
  interruptions := 0
  accepted := []
  popped := []

def setThread (q : Queue α) (t : ℕ) (x : Thread α) : Queue α :=
  { q with thread := Function.update q.thread t x }

@[simp] theorem setThread_self (q : Queue α) (t : ℕ) (x : Thread α) :
    (q.setThread t x).thread t = x := Function.update_self ..

theorem setThread_of_ne (q : Queue α) {t u : ℕ} (x : Thread α) (h : u ≠ t) :
    (q.setThread t x).thread u = q.thread u := Function.update_of_ne h ..

/-- `_queue.emplace_back`. -/
def emplaceBack (q : Queue α) (value : α) (raisedAfter : ℕ) : Queue α :=
  let entry : Entry α := ⟨value, q.epoch, raisedAfter, q.interruptions⟩
  { q with queue := q.queue ++ [entry], accepted := q.accepted ++ [entry] }

/-- Take the front element out, if there is one. -/
def takeFront (q : Queue α) : Queue α :=
  match q.queue with
  | [] => q
  | entry :: rest => { q with queue := rest, popped := q.popped ++ [(q.epoch, entry)] }

/-- `raise`, up to its wait. -/
def raise (q : Queue α) (t : ℕ) (value : α) : Queue α :=
  if q.running = false then q
  else match q.overflow with
    | .block =>
        if q.queue.length < q.maxElements then q.emplaceBack value q.interruptions
        else
          { q with waitingProducers := q.waitingProducers + 1 }.setThread t
            (.raising value q.generation q.interruptions)
    | .clear =>
        let q := if q.maxElements ≤ q.queue.length then { q with queue := [] } else q
        q.emplaceBack value q.interruptions

/-- A producer wakes up: the predicate of the wait, and what follows it. -/
def wakeRaise (q : Queue α) (t : ℕ) (value : α) (generation raisedAfter : ℕ) : Queue α :=
  if q.running = false ∨ generation ≠ q.generation then
    { q with waitingProducers := q.waitingProducers - 1 }.setThread t .outside
  else if q.queue.length < q.maxElements then
    ({ q with waitingProducers := q.waitingProducers - 1 }.setThread t .outside).emplaceBack
      value raisedAfter
  else q

/-- The part both `pop`s share: `asleep` is where the thread goes when there is nothing. -/
def pop (q : Queue α) (t : ℕ) (asleep : ℕ → Thread α) : Queue α :=
  if q.running = false then q
  else if q.queue = [] then q.setThread t (asleep q.generation)
  else q.takeFront

/-- `pop()` wakes up: the generation is compared before the queue is looked at again. -/
def wakePop (q : Queue α) (t : ℕ) (generation : ℕ) : Queue α :=
  if q.running = false ∨ generation ≠ q.generation then q.setThread t .outside
  else if q.queue = [] then q
  else (q.setThread t .outside).takeFront

/-- `pop(delay)` wakes up: the generation is compared only while there is nothing to
pop. -/
def wakePopFor (q : Queue α) (t : ℕ) (generation : ℕ) (timedOut : Bool) : Queue α :=
  if timedOut = true then q.setThread t .outside
  else if q.queue ≠ [] then (q.setThread t .outside).takeFront
  else if q.running = false ∨ generation ≠ q.generation then q.setThread t .outside
  else q

def stop (q : Queue α) : Queue α :=
  { q with
    running := false
    generation := if q.running = true then q.generation + 1 else q.generation
    interruptions := q.interruptions + 1 }

def reset (q : Queue α) : Queue α :=
  { q with
    running := true
    queue := []
    generation := q.generation + 1
    epoch := q.epoch + 1
    interruptions := q.interruptions + 1 }

end Queue

def step (q : Queue α) : Label α → Option (Queue α)
  | .raise t value =>
      match q.thread t with
      | .outside => some (q.raise t value)
      | _ => none
  | .wakeRaise t =>
      match q.thread t with
      | .raising value generation raisedAfter =>
          some (q.wakeRaise t value generation raisedAfter)
      | _ => none
  | .pop t =>
      match q.thread t with
      | .outside => some (q.pop t .popping)
      | _ => none
  | .wakePop t =>
      match q.thread t with
      | .popping generation => some (q.wakePop t generation)
      | _ => none
  | .popFor t =>
      match q.thread t with
      | .outside => some (q.pop t .poppingFor)
      | _ => none
  | .wakePopFor t timedOut =>
      match q.thread t with
      | .poppingFor generation => some (q.wakePopFor t generation timedOut)
      | _ => none
  | .stop => some q.stop
  | .reset => some q.reset

/-! ## What an epoch accepted and what it popped -/

/-- The elements accepted in one epoch, in order. -/
def Queue.acceptedIn (q : Queue α) (epoch : ℕ) : List (Entry α) :=
  q.accepted.filter fun entry => entry.epoch = epoch

/-- The elements popped in one epoch, in order. -/
def Queue.poppedIn (q : Queue α) (epoch : ℕ) : List (Entry α) :=
  (q.popped.filter fun p => p.1 = epoch).map (·.2)

theorem acceptedIn_emplaceBack (q : Queue α) (value : α) (raisedAfter epoch : ℕ) :
    (q.emplaceBack value raisedAfter).acceptedIn epoch =
      q.acceptedIn epoch ++
        if q.epoch = epoch then [⟨value, q.epoch, raisedAfter, q.interruptions⟩] else [] := by
  simp only [Queue.acceptedIn, Queue.emplaceBack, List.filter_append, List.filter_cons,
    List.filter_nil, decide_eq_true_eq]

theorem poppedIn_of_append {q q' : Queue α} {entry : Entry α}
    (h : q'.popped = q.popped ++ [(q.epoch, entry)]) (epoch : ℕ) :
    q'.poppedIn epoch = q.poppedIn epoch ++ if q.epoch = epoch then [entry] else [] := by
  simp only [Queue.poppedIn, h, List.filter_append, List.filter_cons, List.filter_nil,
    List.map_append, decide_eq_true_eq]
  split <;> rfl

/-- Nothing has happened yet in an epoch that has not begun. -/
theorem acceptedIn_eq_nil {q : Queue α} {epoch : ℕ}
    (h : ∀ entry ∈ q.accepted, entry.epoch < epoch) : q.acceptedIn epoch = [] := by
  refine List.filter_eq_nil_iff.mpr fun entry hentry => ?_
  have hlt := h entry hentry
  simp only [decide_eq_true_eq]
  omega

theorem poppedIn_eq_nil {q : Queue α} {epoch : ℕ} (h : ∀ p ∈ q.popped, p.1 < epoch) :
    q.poppedIn epoch = [] := by
  rw [Queue.poppedIn, List.map_eq_nil_iff]
  refine List.filter_eq_nil_iff.mpr fun p hp => ?_
  have hlt := h p hp
  simp only [decide_eq_true_eq]
  omega

/-! ## The invariant -/

/-- What has been accepted and popped so far, against what is in the queue. -/
structure Ordered (q : Queue α) : Prop where
  /-- Every epoch pops what it accepted, in order; the current one still has the rest. -/
  prefixes : ∀ epoch, q.poppedIn epoch <+: q.acceptedIn epoch
  current : q.acceptedIn q.epoch = q.poppedIn q.epoch ++ q.queue
  acceptedBy : ∀ entry ∈ q.accepted, entry.epoch ≤ q.epoch
  poppedBy : ∀ p ∈ q.popped, p.1 ≤ q.epoch
  samePopped : ∀ p ∈ q.popped, p.2.epoch = p.1
  sameQueued : ∀ entry ∈ q.queue, entry.epoch = q.epoch
  uninterrupted : ∀ entry ∈ q.accepted, entry.raisedAfter = entry.insertedAfter

/-- A producer whose generation is current has slept through no `stop` and no `reset`. -/
def Awake (q : Queue α) : Prop :=
  ∀ t value generation raisedAfter, q.thread t = .raising value generation raisedAfter →
    generation ≤ q.generation ∧
      (generation = q.generation → q.running = true ∧ raisedAfter = q.interruptions)

/-- The invariant of a blocking queue of capacity `maxElements`. -/
structure Inv (maxElements : ℕ) (q : Queue α) : Prop where
  blocking : q.overflow = .block
  capacity : q.maxElements = maxElements
  size : q.queue.length ≤ q.maxElements
  ordered : Ordered q
  awake : Awake q

section Ordered

variable {q q' : Queue α}

/-- Only the epoch, the elements and their history count. -/
theorem Ordered.congr (h : Ordered q) (hepoch : q'.epoch = q.epoch) (hqueue : q'.queue = q.queue)
    (haccepted : q'.accepted = q.accepted) (hpopped : q'.popped = q.popped) : Ordered q' := by
  have hin : ∀ e, q'.acceptedIn e = q.acceptedIn e := by
    intro e
    rw [Queue.acceptedIn, haccepted, Queue.acceptedIn]
  have hout : ∀ e, q'.poppedIn e = q.poppedIn e := by
    intro e
    rw [Queue.poppedIn, hpopped, Queue.poppedIn]
  constructor
  · intro e
    rw [hin, hout]
    exact h.prefixes e
  · rw [hin, hout, hepoch, hqueue]
    exact h.current
  · rw [haccepted, hepoch]
    exact h.acceptedBy
  · rw [hpopped, hepoch]
    exact h.poppedBy
  · rw [hpopped]
    exact h.samePopped
  · rw [hqueue, hepoch]
    exact h.sameQueued
  · rw [haccepted]
    exact h.uninterrupted

/-- An element goes in at the back. -/
theorem Ordered.emplaceBack (h : Ordered q) {value : α} :
    Ordered (q.emplaceBack value q.interruptions) := by
  have hout : ∀ e, (q.emplaceBack value q.interruptions).poppedIn e = q.poppedIn e := fun _ => rfl
  constructor
  · intro e
    rw [acceptedIn_emplaceBack, hout]
    exact (h.prefixes e).trans (List.prefix_append _ _)
  · rw [acceptedIn_emplaceBack, hout]
    simp only [Queue.emplaceBack, if_true]
    rw [h.current, List.append_assoc]
  · intro entry hentry
    rcases List.mem_append.mp hentry with hold | hnew
    · exact h.acceptedBy entry hold
    · rw [List.mem_singleton.mp hnew]
      exact Nat.le_refl _
  · exact h.poppedBy
  · exact h.samePopped
  · intro entry hentry
    rcases List.mem_append.mp hentry with hold | hnew
    · exact h.sameQueued entry hold
    · rw [List.mem_singleton.mp hnew]
      rfl
  · intro entry hentry
    rcases List.mem_append.mp hentry with hold | hnew
    · exact h.uninterrupted entry hold
    · rw [List.mem_singleton.mp hnew]

/-- The front element comes out. -/
theorem Ordered.takeFront (h : Ordered q) : Ordered q.takeFront := by
  rw [Queue.takeFront]
  split
  · exact h
  · rename_i entry rest hqueue
    set taken : Queue α := { q with queue := rest, popped := q.popped ++ [(q.epoch, entry)] }
    have hout : ∀ e, taken.poppedIn e = q.poppedIn e ++ if q.epoch = e then [entry] else [] :=
      poppedIn_of_append rfl
    have hcurrent : q.acceptedIn q.epoch = q.poppedIn q.epoch ++ [entry] ++ rest := by
      rw [h.current, hqueue, List.append_assoc]
      rfl
    constructor
    · intro e
      rw [hout]
      by_cases he : q.epoch = e
      · subst he
        simp only [if_true]
        exact ⟨rest, hcurrent.symm⟩
      · simp only [he, if_false, List.append_nil]
        exact h.prefixes e
    · rw [hout, if_pos rfl]
      exact hcurrent
    · exact h.acceptedBy
    · intro p hp
      rcases List.mem_append.mp hp with hold | hnew
      · exact h.poppedBy p hold
      · rw [List.mem_singleton.mp hnew]
    · intro p hp
      rcases List.mem_append.mp hp with hold | hnew
      · exact h.samePopped p hold
      · rw [List.mem_singleton.mp hnew]
        exact h.sameQueued entry (by rw [hqueue]; exact List.mem_cons_self)
    · intro x hx
      exact h.sameQueued x (by rw [hqueue]; exact List.mem_cons_of_mem entry hx)
    · exact h.uninterrupted

/-- A new epoch begins empty. -/
theorem Ordered.reset (h : Ordered q) : Ordered q.reset := by
  constructor
  · exact h.prefixes
  · have hin : q.reset.acceptedIn q.reset.epoch = [] :=
      acceptedIn_eq_nil fun entry hentry => Nat.lt_succ_of_le (h.acceptedBy entry hentry)
    have hout : q.reset.poppedIn q.reset.epoch = [] :=
      poppedIn_eq_nil fun p hp => Nat.lt_succ_of_le (h.poppedBy p hp)
    rw [hin, hout]
    rfl
  · exact fun entry hentry => Nat.le_succ_of_le (h.acceptedBy entry hentry)
  · exact fun p hp => Nat.le_succ_of_le (h.poppedBy p hp)
  · exact h.samePopped
  · exact fun entry hentry => absurd hentry List.not_mem_nil
  · exact h.uninterrupted

end Ordered

section Awake

variable {q q' : Queue α}

/-- A thread that leaves, or goes to sleep in a `pop`, is no sleeping producer. -/
theorem Awake.setThread (h : Awake q) {t : ℕ} {x : Thread α}
    (hx : ∀ value generation raisedAfter, x = .raising value generation raisedAfter →
      generation = q.generation ∧ q.running = true ∧ raisedAfter = q.interruptions) :
    Awake (q.setThread t x) := by
  intro u value generation raisedAfter hu
  by_cases hut : u = t
  · subst hut
    rw [Queue.setThread_self] at hu
    obtain ⟨hg, hrest⟩ := hx value generation raisedAfter hu
    exact ⟨Nat.le_of_eq hg, fun _ => hrest⟩
  · rw [Queue.setThread_of_ne q x hut] at hu
    exact h u value generation raisedAfter hu

theorem Awake.congr (h : Awake q) (hthread : q'.thread = q.thread)
    (hgeneration : q'.generation = q.generation) (hrunning : q'.running = q.running)
    (hinterruptions : q'.interruptions = q.interruptions) : Awake q' := by
  intro t value generation raisedAfter ht
  rw [hthread] at ht
  rw [hgeneration, hrunning, hinterruptions]
  exact h t value generation raisedAfter ht

/-- Once the generation has moved on, no sleeping producer is current. -/
theorem Awake.advance (h : Awake q) (hthread : q'.thread = q.thread)
    (hgeneration : q.generation < q'.generation) : Awake q' := by
  intro t value generation raisedAfter ht
  rw [hthread] at ht
  have hle := (h t value generation raisedAfter ht).1
  refine ⟨by omega, fun heq => ?_⟩
  omega

theorem Awake.stop (h : Awake q) : Awake q.stop := by
  by_cases hrunning : q.running = true
  · refine h.advance rfl ?_
    simp only [Queue.stop, hrunning, if_true]
    exact Nat.lt_succ_self _
  · -- The first `stop` has already left every sleeper behind.
    intro t value generation raisedAfter ht
    obtain ⟨hle, hcurrent⟩ := h t value generation raisedAfter ht
    simp only [Queue.stop, hrunning]
    refine ⟨hle, fun heq => absurd (hcurrent heq).1 hrunning⟩

end Awake

@[simp] theorem takeFront_overflow (q : Queue α) : q.takeFront.overflow = q.overflow := by
  rw [Queue.takeFront]
  split <;> rfl

@[simp] theorem takeFront_maxElements (q : Queue α) : q.takeFront.maxElements = q.maxElements := by
  rw [Queue.takeFront]
  split <;> rfl

theorem length_takeFront_le (q : Queue α) : q.takeFront.queue.length ≤ q.queue.length := by
  rw [Queue.takeFront]
  split
  · exact Nat.le_refl _
  · rename_i hqueue
    rw [hqueue]
    exact Nat.le_succ _

theorem Awake.takeFront {q : Queue α} (h : Awake q) : Awake q.takeFront := by
  rw [Queue.takeFront]
  split
  · exact h
  · exact h.congr rfl rfl rfl rfl

section Steps

variable {maxElements : ℕ} {q : Queue α}

theorem Inv.takeFront (h : Inv maxElements q) : Inv maxElements q.takeFront where
  blocking := by rw [takeFront_overflow, h.blocking]
  capacity := by rw [takeFront_maxElements, h.capacity]
  size := by
    rw [takeFront_maxElements]
    exact Nat.le_trans (length_takeFront_le q) h.size
  ordered := h.ordered.takeFront
  awake := h.awake.takeFront

theorem Inv.emplaceBack (h : Inv maxElements q) (hroom : q.queue.length < q.maxElements)
    (value : α) : Inv maxElements (q.emplaceBack value q.interruptions) where
  blocking := h.blocking
  capacity := h.capacity
  size := by
    simp only [Queue.emplaceBack, List.length_append, List.length_singleton]
    omega
  ordered := h.ordered.emplaceBack
  awake := h.awake.congr rfl rfl rfl rfl

/-- A thread moves and the count of waiting producers changes. -/
theorem Inv.setThread (h : Inv maxElements q) (waiting : ℕ) {t : ℕ} {x : Thread α}
    (hx : ∀ value generation raisedAfter, x = .raising value generation raisedAfter →
      generation = q.generation ∧ q.running = true ∧ raisedAfter = q.interruptions) :
    Inv maxElements ({ q with waitingProducers := waiting }.setThread t x) where
  blocking := h.blocking
  capacity := h.capacity
  size := h.size
  ordered := h.ordered.congr rfl rfl rfl rfl
  awake := Awake.setThread (h.awake.congr rfl rfl rfl rfl) hx

theorem Inv.outside (h : Inv maxElements q) (t : ℕ) :
    Inv maxElements (q.setThread t .outside) :=
  h.setThread q.waitingProducers (by simp)

theorem Inv.raise (h : Inv maxElements q) (t : ℕ) (value : α) :
    Inv maxElements (q.raise t value) := by
  rw [Queue.raise]
  split
  · exact h
  · rename_i hrunning
    split
    · split
      · rename_i hroom
        exact h.emplaceBack hroom value
      · refine h.setThread _ ?_
        rintro _ _ _ heq
        cases heq
        exact ⟨rfl, by simpa using hrunning, rfl⟩
    · rename_i hclear
      rw [h.blocking] at hclear
      cases hclear

theorem Inv.wakeRaise (h : Inv maxElements q) {t : ℕ} {value : α} {generation raisedAfter : ℕ}
    (ht : q.thread t = .raising value generation raisedAfter) :
    Inv maxElements (q.wakeRaise t value generation raisedAfter) := by
  have hleft := h.setThread (q.waitingProducers - 1) (t := t) (x := .outside) (by simp)
  rw [Queue.wakeRaise]
  by_cases hstale : q.running = false ∨ generation ≠ q.generation
  · rw [if_pos hstale]
    exact hleft
  · rw [if_neg hstale]
    by_cases hroom : q.queue.length < q.maxElements
    · -- The generation is current, so the element was raised after as many interruptions.
      have hcurrent : generation = q.generation := by
        by_contra hne
        exact hstale (.inr hne)
      obtain ⟨-, hraised⟩ := (h.awake t value generation raisedAfter ht).2 hcurrent
      rw [if_pos hroom, hraised]
      exact hleft.emplaceBack hroom value
    · rw [if_neg hroom]
      exact h

theorem Inv.pop (h : Inv maxElements q) (t : ℕ) {asleep : ℕ → Thread α}
    (hasleep : ∀ g value generation raisedAfter,
      asleep g ≠ .raising value generation raisedAfter) :
    Inv maxElements (q.pop t asleep) := by
  rw [Queue.pop]
  split
  · exact h
  · split
    · exact h.setThread q.waitingProducers
        fun value generation raisedAfter heq => absurd heq (hasleep _ value generation raisedAfter)
    · exact h.takeFront

theorem Inv.wakePop (h : Inv maxElements q) (t generation : ℕ) :
    Inv maxElements (q.wakePop t generation) := by
  rw [Queue.wakePop]
  split
  · exact h.outside t
  · split
    · exact h
    · exact (h.outside t).takeFront

theorem Inv.wakePopFor (h : Inv maxElements q) (t generation : ℕ) (timedOut : Bool) :
    Inv maxElements (q.wakePopFor t generation timedOut) := by
  rw [Queue.wakePopFor]
  split
  · exact h.outside t
  · split
    · exact (h.outside t).takeFront
    · split
      · exact h.outside t
      · exact h

theorem Inv.stop (h : Inv maxElements q) : Inv maxElements q.stop where
  blocking := h.blocking
  capacity := h.capacity
  size := h.size
  ordered := h.ordered.congr rfl rfl rfl rfl
  awake := h.awake.stop

theorem Inv.reset (h : Inv maxElements q) : Inv maxElements q.reset where
  blocking := h.blocking
  capacity := h.capacity
  size := Nat.zero_le _
  ordered := h.ordered.reset
  awake := h.awake.advance rfl (Nat.lt_succ_self _)

end Steps

/-- **Every critical section keeps the invariant.** -/
theorem step_inv {maxElements : ℕ} (q : Queue α) (label : Label α) (q' : Queue α)
    (h : Inv maxElements q) (hstep : step q label = some q') : Inv maxElements q' := by
  cases label with
  | raise t value =>
      simp only [step] at hstep
      split at hstep <;> cases hstep
      exact h.raise t value
  | wakeRaise t =>
      simp only [step] at hstep
      split at hstep <;> cases hstep
      rename_i ht
      exact h.wakeRaise ht
  | pop t =>
      simp only [step] at hstep
      split at hstep <;> cases hstep
      exact h.pop t (by simp)
  | wakePop t =>
      simp only [step] at hstep
      split at hstep <;> cases hstep
      exact h.wakePop t _
  | popFor t =>
      simp only [step] at hstep
      split at hstep <;> cases hstep
      exact h.pop t (by simp)
  | wakePopFor t timedOut =>
      simp only [step] at hstep
      split at hstep <;> cases hstep
      exact h.wakePopFor t _ timedOut
  | stop =>
      cases hstep
      exact h.stop
  | reset =>
      cases hstep
      exact h.reset

theorem inv_make (maxElements : ℕ) :
    Inv (if maxElements = 0 then 1 else maxElements)
      (Queue.make maxElements .block : Queue α) where
  blocking := rfl
  capacity := rfl
  size := Nat.zero_le _
  ordered := by
    constructor <;> simp [Queue.make, Queue.acceptedIn, Queue.poppedIn]
  awake := by
    intro t value generation raisedAfter ht
    simp [Queue.make] at ht

/-- **A blocking queue is first in, first out within every epoch.**  What an epoch pops is
a prefix of what it accepted, and the current epoch still holds the rest; the size stays
within the capacity; no element outlives its epoch; and between the call that brought an
element and its insertion there was no `stop` and no `reset`. -/
theorem blocking_queue_fifo (maxElements : ℕ) {labels : List (Label α)} {q : Queue α}
    (hrun : run step (Queue.make maxElements .block) labels = some q) :
    (∀ epoch, q.poppedIn epoch <+: q.acceptedIn epoch) ∧
      q.acceptedIn q.epoch = q.poppedIn q.epoch ++ q.queue ∧
      q.queue.length ≤ (if maxElements = 0 then 1 else maxElements) ∧
      (∀ p ∈ q.popped, p.2.epoch = p.1) ∧
      ∀ entry ∈ q.accepted, entry.raisedAfter = entry.insertedAfter := by
  have h := run_invariant step_inv (inv_make maxElements) hrun
  refine ⟨h.ordered.prefixes, h.ordered.current, ?_, h.ordered.samePopped,
    h.ordered.uninterrupted⟩
  have hsize := h.size
  rw [h.capacity] at hsize
  exact hsize

/-- A producer that sleeps across a `stop` and a `reset` leaves its element outside, and
the next epoch begins with its own. -/
def staleProducer : List (Label ℕ) :=
  [.raise 0 1, .raise 1 2, .stop, .reset, .wakeRaise 1, .raise 0 3, .popFor 2]

theorem staleProducer_fifo :
    ∃ q, run step (Queue.make 1 .block) staleProducer = some q ∧
      q.accepted.map (·.value) = [1, 3] ∧ q.popped.map (fun p => (p.1, p.2.value)) = [(1, 3)] ∧
      ∀ epoch, q.poppedIn epoch <+: q.acceptedIn epoch := by
  obtain ⟨q, hrun⟩ : ∃ q, run step (Queue.make 1 .block) staleProducer = some q := ⟨_, rfl⟩
  refine ⟨q, hrun, ?_, ?_, (blocking_queue_fifo 1 hrun).1⟩
  · cases hrun
    rfl
  · cases hrun
    rfl

end LuminalShine.Safe
