import Mathlib.Data.Nat.Notation

/-!
# The session lifecycle coordinator

`coordinator_t` of `src/session_lifecycle_coordinator.h` arbitrates between launch
preparation and last-session cleanup.  Every one of its member functions runs under
one mutex, so each is a function on the record of its fields; a function that waits
on the condition variable is the critical section it executes each time it holds
the mutex.

* `acquireLaunchEnter`, `acquireLaunchWake` — the two critical sections of
  `acquire_launch`, before and after a wait;
* `acquireCleanupEnter`, `acquireCleanupWake` — likewise for `acquire_cleanup`;
* `commitLaunch`, `markLaunchStarted`, `releaseLaunch`, `releaseCleanup`.
-/

namespace LuminalShine.Lifecycle

/-- `owner_e`. -/
inductive Owner where
  | idle
  | launch
  | cleanup
  deriving DecidableEq, Repr

/-- The fields of `coordinator_t`. -/
structure Coordinator where
  owner : Owner := .idle
  cleanupWaiters : ℕ := 0
  nextLaunchGeneration : ℕ := 0
  activeLaunchGeneration : ℕ := 0
  activeLaunchCommitted : Bool := false
  activeLaunchStarted : Bool := false
  deferredCleanupPending : Bool := false
  deriving DecidableEq, Repr

namespace Coordinator

/-! ## `acquire_launch` -/

/-- What a critical section of `acquire_launch` ends with. -/
inductive LaunchResult where
  | granted (generation : ℕ)
  | refused
  | waiting
  deriving DecidableEq, Repr

/-- The predicate a launch waits for: waiting cleanups go first. -/
def available (c : Coordinator) : Bool := c.owner = .idle && c.cleanupWaiters = 0

def grantLaunch (c : Coordinator) : Coordinator :=
  { c with
    owner := .launch
    activeLaunchCommitted := false
    activeLaunchStarted := false
    nextLaunchGeneration := c.nextLaunchGeneration + 1
    activeLaunchGeneration := c.nextLaunchGeneration + 1 }

/-- From the call up to the first wait. -/
def acquireLaunchEnter (c : Coordinator) : Coordinator × LaunchResult :=
  if c.owner = .launch then (c, .refused)
  else if c.available then (c.grantLaunch, .granted (c.nextLaunchGeneration + 1))
  else (c, .waiting)

/-- After a wake-up; the predicate is evaluated once more at the deadline. -/
def acquireLaunchWake (timedOut : Bool) (c : Coordinator) : Coordinator × LaunchResult :=
  if c.available then (c.grantLaunch, .granted (c.nextLaunchGeneration + 1))
  else if timedOut then (c, .refused)
  else (c, .waiting)

/-! ## `acquire_cleanup` -/

/-- What a critical section of `acquire_cleanup` ends with.  `acquired` carries the
obligation taken over from a superseded cleanup. -/
inductive CleanupResult where
  | acquired (deferredCleanupPending : Bool)
  | supersededByLaunch
  | timedOut
  | waiting
  deriving DecidableEq, Repr

def finishWait (c : Coordinator) : Coordinator := { c with cleanupWaiters := c.cleanupWaiters - 1 }

def takeCleanup (c : Coordinator) : Coordinator :=
  { c.finishWait with owner := .cleanup, deferredCleanupPending := false }

def deferToLaunch (c : Coordinator) : Coordinator :=
  { c.finishWait with
    deferredCleanupPending := c.deferredCleanupPending || !c.activeLaunchStarted }

/-- The loop body up to the wait. -/
def cleanupLoop (c : Coordinator) : Coordinator × CleanupResult :=
  match c.owner with
  | .idle => (c.takeCleanup, .acquired c.deferredCleanupPending)
  | .launch => (c.deferToLaunch, .supersededByLaunch)
  | .cleanup => (c, .waiting)

def acquireCleanupEnter (c : Coordinator) : Coordinator × CleanupResult :=
  cleanupLoop { c with cleanupWaiters := c.cleanupWaiters + 1 }

/-- After a wake-up.  At the deadline only an idle coordinator is taken; a launch
that owns it by then no longer supersedes the cleanup. -/
def acquireCleanupWake (timedOut : Bool) (c : Coordinator) : Coordinator × CleanupResult :=
  if timedOut then
    if c.owner = .idle then cleanupLoop c else (c.finishWait, .timedOut)
  else cleanupLoop c

/-! ## What the leases call -/

def commitLaunch (generation : ℕ) (c : Coordinator) : Coordinator :=
  if c.owner = .launch ∧ c.activeLaunchGeneration = generation then
    { c with activeLaunchCommitted := true }
  else c

def markLaunchStarted (generation : ℕ) (c : Coordinator) : Coordinator :=
  if c.owner = .launch ∧ c.activeLaunchGeneration = generation then
    { c with activeLaunchStarted := true, deferredCleanupPending := false }
  else c

def releaseLaunch (generation : ℕ) (committed : Bool) (c : Coordinator) : Coordinator :=
  if c.owner ≠ .launch ∨ c.activeLaunchGeneration ≠ generation then c
  else
    { c with
      activeLaunchCommitted := if committed then c.activeLaunchCommitted else false
      owner := .idle
      activeLaunchGeneration := 0
      activeLaunchStarted := false }

def releaseCleanup (c : Coordinator) : Coordinator :=
  if c.owner = .cleanup then { c with owner := .idle } else c

/-! ## What the critical sections can do -/

variable {c : Coordinator}

theorem available_iff : c.available = true ↔ c.owner = .idle ∧ c.cleanupWaiters = 0 := by
  simp [available]

/-- A launch is granted only from an idle coordinator nobody waits to clean up. -/
theorem acquireLaunchEnter_cases (c : Coordinator) :
    (c.available = true ∧
      c.acquireLaunchEnter = (c.grantLaunch, .granted (c.nextLaunchGeneration + 1))) ∨
    (c.owner = .launch ∧ c.acquireLaunchEnter = (c, .refused)) ∨
    c.acquireLaunchEnter = (c, .waiting) := by
  simp only [acquireLaunchEnter]
  by_cases hlaunch : c.owner = .launch
  · simp [hlaunch]
  · by_cases ha : c.available = true
    · simp [hlaunch, ha]
    · simp [hlaunch, ha]

theorem acquireLaunchWake_cases (timedOut : Bool) (c : Coordinator) :
    (c.available = true ∧
      c.acquireLaunchWake timedOut = (c.grantLaunch, .granted (c.nextLaunchGeneration + 1))) ∨
    c.acquireLaunchWake timedOut = (c, .refused) ∨
    c.acquireLaunchWake timedOut = (c, .waiting) := by
  simp only [acquireLaunchWake]
  by_cases ha : c.available = true
  · simp [ha]
  · cases timedOut <;> simp [ha]

/-- One pass of the loop takes an idle coordinator, yields to a launch, or waits for
another cleanup. -/
theorem cleanupLoop_cases (c : Coordinator) :
    (c.owner = .idle ∧ c.cleanupLoop = (c.takeCleanup, .acquired c.deferredCleanupPending)) ∨
    (c.owner = .launch ∧ c.cleanupLoop = (c.deferToLaunch, .supersededByLaunch)) ∨
    (c.owner = .cleanup ∧ c.cleanupLoop = (c, .waiting)) := by
  simp only [cleanupLoop]
  cases c.owner <;> simp

theorem acquireCleanupWake_cases (timedOut : Bool) (c : Coordinator) :
    c.acquireCleanupWake timedOut = c.cleanupLoop ∨
    (c.owner ≠ .idle ∧ timedOut = true ∧
      c.acquireCleanupWake timedOut = (c.finishWait, .timedOut)) := by
  simp only [acquireCleanupWake]
  cases timedOut
  · exact .inl rfl
  · by_cases hidle : c.owner = .idle
    · simp [hidle]
    · simp [hidle]

@[simp] theorem acquireLaunchEnter_deferred (c : Coordinator) :
    c.acquireLaunchEnter.1.deferredCleanupPending = c.deferredCleanupPending := by
  rcases c.acquireLaunchEnter_cases with ⟨-, he⟩ | ⟨-, he⟩ | he
  · rw [he]; rfl
  · rw [he]
  · rw [he]

@[simp] theorem acquireLaunchWake_deferred (timedOut : Bool) (c : Coordinator) :
    (c.acquireLaunchWake timedOut).1.deferredCleanupPending = c.deferredCleanupPending := by
  rcases c.acquireLaunchWake_cases timedOut with ⟨-, he⟩ | he | he
  · rw [he]; rfl
  · rw [he]
  · rw [he]

@[simp] theorem commitLaunch_deferred (generation : ℕ) (c : Coordinator) :
    (c.commitLaunch generation).deferredCleanupPending = c.deferredCleanupPending := by
  simp only [commitLaunch]
  split <;> rfl

@[simp] theorem releaseLaunch_deferred (generation : ℕ) (committed : Bool) (c : Coordinator) :
    (c.releaseLaunch generation committed).deferredCleanupPending
      = c.deferredCleanupPending := by
  simp only [releaseLaunch]
  split <;> rfl

@[simp] theorem releaseCleanup_deferred (c : Coordinator) :
    c.releaseCleanup.deferredCleanupPending = c.deferredCleanupPending := by
  simp only [releaseCleanup]
  split <;> rfl

end Coordinator

end LuminalShine.Lifecycle
