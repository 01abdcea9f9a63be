import LuminalShine.Lib.Run
import LuminalShine.Lifecycle.Coordinator
import Mathlib.Logic.Function.Basic

/-!
# Leases on the coordinator

Ownership of the coordinator is carried by movable lease objects.  A lease lives in
a location (a variable, a member, an optional); its member functions first change
the lease and then call the coordinator under its mutex, so between the two any
other thread may run.  `System` keeps the locations and, per thread, the call that
is on its way to the mutex; `step` is one atomic action of one thread.

Two fields exist for the statements only: `granted`, the generations handed out so
far, and `cleanups`, which numbers the cleanup leases so that a cleanup lease can be
told apart from an earlier one.

## Main definitions

* `System`, `Label`, `step` — the transition system.
* `Invariant` — at most one holder, and it is the owner.
* `lease_exclusion` — what holds in every reachable state.
-/

namespace LuminalShine.Lifecycle

open LuminalShine.Lib

/-- A live `launch_lease_t`; a default-constructed or moved-from one is `none`. -/
structure LaunchLease where
  generation : ℕ
  committed : Bool
  deriving DecidableEq, Repr

/-- A call of a lease that has not reached the mutex yet. -/
inductive Call where
  | commitLaunch (generation : ℕ)
  | markLaunchStarted (generation : ℕ)
  | releaseLaunch (generation : ℕ) (committed : Bool)
  | releaseCleanup (ticket : ℕ)
  deriving DecidableEq, Repr

structure System where
  coordinator : Coordinator
  launchLease : ℕ → Option LaunchLease
  cleanupLease : ℕ → Option ℕ
  inFlight : ℕ → Option Call
  launchWaiting : List ℕ
  cleanupWaiting : List ℕ
  granted : List ℕ
  cleanups : ℕ

/-- Before the first request. -/
def System.initial : System where
  coordinator := {}
  launchLease := fun _ => none
  cleanupLease := fun _ => none
  inFlight := fun _ => none
  launchWaiting := []
  cleanupWaiting := []
  granted := []
  cleanups := 0

/-- The actions of a thread.  A returned lease is put in the location `slot`;
`reset` is also what the destructor does. -/
inductive Label where
  | acquireLaunch (thread slot : ℕ)
  | wakeLaunch (thread slot : ℕ) (timedOut : Bool)
  | acquireCleanup (thread slot : ℕ)
  | wakeCleanup (thread slot : ℕ) (timedOut : Bool)
  | commit (thread slot : ℕ)
  | markStarted (thread slot : ℕ)
  | resetLaunch (thread slot : ℕ)
  | moveLaunch (thread source target : ℕ)
  | resetCleanup (thread slot : ℕ)
  | moveCleanup (thread source target : ℕ)
  | serve (thread : ℕ)
  deriving DecidableEq, Repr

namespace System

/-! ## Acquisitions -/

/-- Store what a critical section of `acquire_launch` returned. -/
def finishLaunch (s : System) (thread slot : ℕ) :
    Coordinator × Coordinator.LaunchResult → System
  | (c, .granted generation) =>
      { s with
        coordinator := c
        launchLease := Function.update s.launchLease slot (some ⟨generation, false⟩)
        launchWaiting := s.launchWaiting.erase thread
        granted := s.granted ++ [generation] }
  | (c, .refused) =>
      { s with coordinator := c, launchWaiting := s.launchWaiting.erase thread }
  | (c, .waiting) =>
      { s with coordinator := c, launchWaiting := s.launchWaiting.erase thread ++ [thread] }

/-- Store what a critical section of `acquire_cleanup` returned. -/
def finishCleanup (s : System) (thread slot : ℕ) :
    Coordinator × Coordinator.CleanupResult → System
  | (c, .acquired _) =>
      { s with
        coordinator := c
        cleanupLease := Function.update s.cleanupLease slot (some (s.cleanups + 1))
        cleanupWaiting := s.cleanupWaiting.erase thread
        cleanups := s.cleanups + 1 }
  | (c, .supersededByLaunch) =>
      { s with coordinator := c, cleanupWaiting := s.cleanupWaiting.erase thread }
  | (c, .timedOut) =>
      { s with coordinator := c, cleanupWaiting := s.cleanupWaiting.erase thread }
  | (c, .waiting) =>
      { s with coordinator := c, cleanupWaiting := s.cleanupWaiting.erase thread ++ [thread] }

/-! ## Lease operations -/

/-- `commit`: a second commit does not reach the coordinator. -/
def commit (s : System) (thread slot : ℕ) : System :=
  match s.launchLease slot with
  | none => s
  | some lease =>
      if lease.committed then s
      else
        { s with
          launchLease := Function.update s.launchLease slot (some { lease with committed := true })
          inFlight := Function.update s.inFlight thread (some (.commitLaunch lease.generation)) }

def markStarted (s : System) (thread slot : ℕ) : System :=
  match s.launchLease slot with
  | none => s
  | some lease =>
      { s with
        inFlight := Function.update s.inFlight thread (some (.markLaunchStarted lease.generation)) }

/-- `reset`: the lease is empty before the release reaches the mutex. -/
def resetLaunch (s : System) (thread slot : ℕ) : System :=
  match s.launchLease slot with
  | none => s
  | some lease =>
      { s with
        launchLease := Function.update s.launchLease slot none
        inFlight := Function.update s.inFlight thread
          (some (.releaseLaunch lease.generation lease.committed)) }

def resetCleanup (s : System) (thread slot : ℕ) : System :=
  match s.cleanupLease slot with
  | none => s
  | some ticket =>
      { s with
        cleanupLease := Function.update s.cleanupLease slot none
        inFlight := Function.update s.inFlight thread (some (.releaseCleanup ticket)) }

/-- Exchange the source for an empty lease and store it in the target. -/
def transferLaunch (s : System) (source target : ℕ) : System :=
  { s with
    launchLease := Function.update (Function.update s.launchLease source none) target
      (s.launchLease source) }

def transferCleanup (s : System) (source target : ℕ) : System :=
  { s with
    cleanupLease := Function.update (Function.update s.cleanupLease source none) target
      (s.cleanupLease source) }

/-- Move construction and assignment; assigning a lease to itself does nothing.  The
release of the target's old lease is left in flight, which allows it to be served
before the transfer and later. -/
def moveLaunch (s : System) (thread source target : ℕ) : System :=
  if source = target then s
  else (s.resetLaunch thread target).transferLaunch source target

def moveCleanup (s : System) (thread source target : ℕ) : System :=
  if source = target then s
  else (s.resetCleanup thread target).transferCleanup source target

/-- The critical section of a call. -/
def runCall (c : Coordinator) : Call → Coordinator
  | .commitLaunch generation => c.commitLaunch generation
  | .markLaunchStarted generation => c.markLaunchStarted generation
  | .releaseLaunch generation committed => c.releaseLaunch generation committed
  | .releaseCleanup _ => c.releaseCleanup

def serve (s : System) (thread : ℕ) (call : Call) : System :=
  { s with
    coordinator := runCall s.coordinator call
    inFlight := Function.update s.inFlight thread none }

theorem finishCleanup_granted (s : System) (thread slot : ℕ)
    (r : Coordinator × Coordinator.CleanupResult) :
    (s.finishCleanup thread slot r).granted = s.granted := by
  obtain ⟨c, r⟩ := r
  cases r <;> rfl

theorem commit_granted (s : System) (thread slot : ℕ) :
    (s.commit thread slot).granted = s.granted := by
  simp only [commit]
  split
  · rfl
  · split <;> rfl

theorem markStarted_granted (s : System) (thread slot : ℕ) :
    (s.markStarted thread slot).granted = s.granted := by
  simp only [markStarted]
  split <;> rfl

theorem resetLaunch_granted (s : System) (thread slot : ℕ) :
    (s.resetLaunch thread slot).granted = s.granted := by
  simp only [resetLaunch]
  split <;> rfl

theorem resetCleanup_granted (s : System) (thread slot : ℕ) :
    (s.resetCleanup thread slot).granted = s.granted := by
  simp only [resetCleanup]
  split <;> rfl

theorem moveLaunch_granted (s : System) (thread source target : ℕ) :
    (s.moveLaunch thread source target).granted = s.granted := by
  simp only [moveLaunch]
  split
  · rfl
  · exact s.resetLaunch_granted thread target

theorem moveCleanup_granted (s : System) (thread source target : ℕ) :
    (s.moveCleanup thread source target).granted = s.granted := by
  simp only [moveCleanup]
  split
  · rfl
  · exact s.resetCleanup_granted thread target

/-- No call touches the waiter count or the generation counter. -/
theorem runCall_frame (c : Coordinator) (call : Call) :
    (runCall c call).cleanupWaiters = c.cleanupWaiters ∧
      (runCall c call).nextLaunchGeneration = c.nextLaunchGeneration := by
  cases call <;> simp only [runCall, Coordinator.commitLaunch, Coordinator.markLaunchStarted,
    Coordinator.releaseLaunch, Coordinator.releaseCleanup] <;> split <;> exact ⟨rfl, rfl⟩

end System

/-- A thread runs one call at a time, and a lease is returned into a fresh object. -/
def step (s : System) : Label → Option System
  | .acquireLaunch thread slot =>
      if s.launchLease slot = none ∧ thread ∉ s.launchWaiting then
        some (s.finishLaunch thread slot s.coordinator.acquireLaunchEnter)
      else none
  | .wakeLaunch thread slot timedOut =>
      if s.launchLease slot = none ∧ thread ∈ s.launchWaiting then
        some (s.finishLaunch thread slot (s.coordinator.acquireLaunchWake timedOut))
      else none
  | .acquireCleanup thread slot =>
      if s.cleanupLease slot = none ∧ thread ∉ s.cleanupWaiting then
        some (s.finishCleanup thread slot s.coordinator.acquireCleanupEnter)
      else none
  | .wakeCleanup thread slot timedOut =>
      if s.cleanupLease slot = none ∧ thread ∈ s.cleanupWaiting then
        some (s.finishCleanup thread slot (s.coordinator.acquireCleanupWake timedOut))
      else none
  | .commit thread slot => if s.inFlight thread = none then some (s.commit thread slot) else none
  | .markStarted thread slot =>
      if s.inFlight thread = none then some (s.markStarted thread slot) else none
  | .resetLaunch thread slot =>
      if s.inFlight thread = none then some (s.resetLaunch thread slot) else none
  | .moveLaunch thread source target =>
      if s.inFlight thread = none then some (s.moveLaunch thread source target) else none
  | .resetCleanup thread slot =>
      if s.inFlight thread = none then some (s.resetCleanup thread slot) else none
  | .moveCleanup thread source target =>
      if s.inFlight thread = none then some (s.moveCleanup thread source target) else none
  | .serve thread => (s.inFlight thread).map (s.serve thread)

/-! ## Holders -/

/-- Where the ownership of the coordinator can be: in a lease, or in a release that
has not been served. -/
inductive Holder where
  | launchSlot (slot : ℕ)
  | cleanupSlot (slot : ℕ)
  | releasing (thread : ℕ)
  deriving DecidableEq, Repr

def Call.isRelease : Call → Bool
  | .commitLaunch _ => false
  | .markLaunchStarted _ => false
  | .releaseLaunch _ _ => true
  | .releaseCleanup _ => true

theorem System.runCall_owner_of_flag (c : Coordinator) {call : Call}
    (h : call.isRelease = false) :
    (runCall c call).owner = c.owner ∧
      (runCall c call).activeLaunchGeneration = c.activeLaunchGeneration := by
  cases call with
  | commitLaunch generation =>
      simp only [runCall, Coordinator.commitLaunch]
      split <;> exact ⟨rfl, rfl⟩
  | markLaunchStarted generation =>
      simp only [runCall, Coordinator.markLaunchStarted]
      split <;> exact ⟨rfl, rfl⟩
  | releaseLaunch generation committed => cases h
  | releaseCleanup ticket => cases h

/-- The release a holder will make. -/
def System.token (s : System) : Holder → Option Call
  | .launchSlot slot =>
      (s.launchLease slot).map fun lease => .releaseLaunch lease.generation lease.committed
  | .cleanupSlot slot => (s.cleanupLease slot).map .releaseCleanup
  | .releasing thread => (s.inFlight thread).filter Call.isRelease

/-- The launch with this generation owns the coordinator. -/
def System.LaunchOwns (s : System) (generation : ℕ) : Prop :=
  s.coordinator.owner = .launch ∧ s.coordinator.activeLaunchGeneration = generation

/-- The cleanup with this ticket owns the coordinator. -/
def System.CleanupOwns (s : System) (ticket : ℕ) : Prop :=
  s.coordinator.owner = .cleanup ∧ s.cleanups = ticket

/-- The lease that made a call is the owner. -/
def System.CallerOwns (s : System) : Call → Prop
  | .commitLaunch generation => s.LaunchOwns generation
  | .markLaunchStarted generation => s.LaunchOwns generation
  | .releaseLaunch generation _ => s.LaunchOwns generation
  | .releaseCleanup ticket => s.CleanupOwns ticket

theorem System.CallerOwns.not_idle {s : System} {call : Call} (h : s.CallerOwns call) :
    s.coordinator.owner ≠ .idle := by
  cases call <;> simp [CallerOwns, LaunchOwns, CleanupOwns] at h <;> simp [h.1]

/-- **The invariant.**  At most one holder, and the coordinator agrees that it is the
owner; the waiter count is the number of blocked cleanups; generations grow. -/
structure Invariant (s : System) : Prop where
  unique : ∀ a b x y, s.token a = some x → s.token b = some y → a = b
  owns : ∀ a call, s.token a = some call → s.CallerOwns call
  waiters_eq : s.coordinator.cleanupWaiters = s.cleanupWaiting.length
  granted_le : ∀ generation ∈ s.granted, generation ≤ s.coordinator.nextLaunchGeneration
  granted_increasing : s.granted.Pairwise (· < ·)

theorem invariant_initial : Invariant System.initial where
  unique := by
    intro a _ _ _ ha
    cases a <;> simp [System.token, System.initial] at ha
  owns := by
    intro a _ ha
    cases a <;> simp [System.token, System.initial] at ha
  waiters_eq := rfl
  granted_le := by simp [System.initial]
  granted_increasing := List.Pairwise.nil

namespace Invariant

variable {s s' : System}

theorem token_eq_none_of_idle (h : Invariant s) (hidle : s.coordinator.owner = .idle)
    (a : Holder) : s.token a = none := by
  cases htoken : s.token a with
  | none => rfl
  | some call => exact absurd hidle (h.owns a call htoken).not_idle

/-- Ownership that only moves from holder to holder stays with at most one of them. -/
theorem of_moved (h : Invariant s) (f : Holder → Holder)
    (hf : ∀ a call, s'.token a = some call →
      ∃ b call', s.token b = some call' ∧ f b = a ∧ (s.CallerOwns call' → s'.CallerOwns call))
    (hwaiters : s'.coordinator.cleanupWaiters = s'.cleanupWaiting.length)
    (hnext : s'.coordinator.nextLaunchGeneration = s.coordinator.nextLaunchGeneration)
    (hgranted : s'.granted = s.granted) : Invariant s' where
  unique := by
    intro a b x y ha hb
    obtain ⟨c, z, hc, rfl, -⟩ := hf a x ha
    obtain ⟨d, w, hd, rfl, -⟩ := hf b y hb
    rw [h.unique c d z w hc hd]
  owns := by
    intro a call ha
    obtain ⟨b, call', hb, -, himp⟩ := hf a call ha
    exact himp (h.owns b call' hb)
  waiters_eq := hwaiters
  granted_le := by
    rw [hgranted, hnext]
    exact h.granted_le
  granted_increasing := hgranted ▸ h.granted_increasing

/-- The same holders, and a coordinator that has not changed hands. -/
theorem of_same_tokens (h : Invariant s) (htoken : s'.token = s.token)
    (howns : ∀ call, s.CallerOwns call → s'.CallerOwns call)
    (hwaiters : s'.coordinator.cleanupWaiters = s'.cleanupWaiting.length)
    (hnext : s'.coordinator.nextLaunchGeneration = s.coordinator.nextLaunchGeneration)
    (hgranted : s'.granted = s.granted) : Invariant s' := by
  refine h.of_moved id (fun a call ha => ?_) hwaiters hnext hgranted
  exact ⟨a, call, by rw [← htoken, ha], rfl, howns call⟩

/-- One holder hands its token to another. -/
theorem of_relocated (h : Invariant s) (source target : Holder)
    (htoken : ∀ a, s'.token a =
      if a = target then s.token source else if a = source then none else s.token a)
    (howns : ∀ call, s.CallerOwns call → s'.CallerOwns call)
    (hwaiters : s'.coordinator.cleanupWaiters = s'.cleanupWaiting.length)
    (hnext : s'.coordinator.nextLaunchGeneration = s.coordinator.nextLaunchGeneration)
    (hgranted : s'.granted = s.granted) : Invariant s' := by
  refine h.of_moved (fun a => if a = source then target else a) (fun a call ha => ?_)
    hwaiters hnext hgranted
  rw [htoken] at ha
  by_cases htarget : a = target
  · rw [if_pos htarget] at ha
    exact ⟨source, call, ha, by simp [htarget], howns call⟩
  · rw [if_neg htarget] at ha
    by_cases hsource : a = source
    · simp [hsource] at ha
    · rw [if_neg hsource] at ha
      exact ⟨a, call, ha, by simp [hsource], howns call⟩

/-! ### Lease operations -/

theorem commit (h : Invariant s) (thread slot : ℕ) :
    Invariant (s.commit thread slot) := by
  simp only [System.commit]
  cases hlease : s.launchLease slot with
  | none => exact h
  | some lease =>
      dsimp only
      split
      · exact h
      · refine h.of_moved id (fun a call ha => ?_) h.waiters_eq rfl rfl
        cases a with
        | launchSlot i =>
            by_cases hi : i = slot
            · subst hi
              refine ⟨.launchSlot i, .releaseLaunch lease.generation lease.committed, ?_, rfl, ?_⟩
              · simp [System.token, hlease]
              · obtain rfl : Call.releaseLaunch lease.generation true = call := by
                  simpa [System.token] using ha
                exact id
            · exact ⟨.launchSlot i, call, by simpa [System.token, hi] using ha, rfl, id⟩
        | cleanupSlot i => exact ⟨.cleanupSlot i, call, ha, rfl, id⟩
        | releasing t =>
            by_cases ht : t = thread
            · obtain ⟨rfl, hrel⟩ : Call.commitLaunch lease.generation = call ∧
                  call.isRelease = true := by
                simpa [System.token, ht] using ha
              exact absurd hrel Bool.false_ne_true
            · exact ⟨.releasing t, call, by simpa [System.token, ht] using ha, rfl, id⟩

theorem markStarted (h : Invariant s) {thread : ℕ} (hfree : s.inFlight thread = none)
    (slot : ℕ) : Invariant (s.markStarted thread slot) := by
  simp only [System.markStarted]
  cases hlease : s.launchLease slot with
  | none => exact h
  | some lease =>
      refine h.of_same_tokens (funext fun a => ?_) (fun _ => id) h.waiters_eq rfl rfl
      cases a with
      | launchSlot i => rfl
      | cleanupSlot i => rfl
      | releasing t =>
          by_cases ht : t = thread
          · subst ht
            simp [System.token, Call.isRelease, hfree]
          · simp [System.token, ht]

theorem resetLaunch (h : Invariant s) (thread slot : ℕ) :
    Invariant (s.resetLaunch thread slot) := by
  simp only [System.resetLaunch]
  cases hlease : s.launchLease slot with
  | none => exact h
  | some lease =>
      refine h.of_relocated (.launchSlot slot) (.releasing thread) (fun a => ?_) (fun _ => id)
        h.waiters_eq rfl rfl
      cases a with
      | launchSlot i => by_cases hi : i = slot <;> simp [System.token, hi]
      | cleanupSlot i => simp [System.token]
      | releasing t =>
          by_cases ht : t = thread <;>
            simp [System.token, ht, hlease, Option.filter, Call.isRelease]

theorem resetCleanup (h : Invariant s) (thread slot : ℕ) :
    Invariant (s.resetCleanup thread slot) := by
  simp only [System.resetCleanup]
  cases hlease : s.cleanupLease slot with
  | none => exact h
  | some ticket =>
      refine h.of_relocated (.cleanupSlot slot) (.releasing thread) (fun a => ?_) (fun _ => id)
        h.waiters_eq rfl rfl
      cases a with
      | launchSlot i => simp [System.token]
      | cleanupSlot i => by_cases hi : i = slot <;> simp [System.token, hi]
      | releasing t =>
          by_cases ht : t = thread <;>
            simp [System.token, ht, hlease, Option.filter, Call.isRelease]

theorem transferLaunch (h : Invariant s) {source target : ℕ} (hne : source ≠ target) :
    Invariant (s.transferLaunch source target) := by
  refine h.of_relocated (.launchSlot source) (.launchSlot target) (fun a => ?_) (fun _ => id)
    h.waiters_eq rfl rfl
  cases a with
  | launchSlot i =>
      by_cases hi : i = target
      · simp [System.token, System.transferLaunch, hi]
      · by_cases his : i = source <;> simp [System.token, System.transferLaunch, hi, his, hne]
  | cleanupSlot i => simp [System.token, System.transferLaunch]
  | releasing t => simp [System.token, System.transferLaunch]

theorem transferCleanup (h : Invariant s) {source target : ℕ} (hne : source ≠ target) :
    Invariant (s.transferCleanup source target) := by
  refine h.of_relocated (.cleanupSlot source) (.cleanupSlot target) (fun a => ?_) (fun _ => id)
    h.waiters_eq rfl rfl
  cases a with
  | launchSlot i => simp [System.token, System.transferCleanup]
  | cleanupSlot i =>
      by_cases hi : i = target
      · simp [System.token, System.transferCleanup, hi]
      · by_cases his : i = source <;> simp [System.token, System.transferCleanup, hi, his, hne]
  | releasing t => simp [System.token, System.transferCleanup]

theorem moveLaunch (h : Invariant s) (thread source target : ℕ) :
    Invariant (s.moveLaunch thread source target) := by
  simp only [System.moveLaunch]
  split
  · exact h
  · exact (h.resetLaunch thread target).transferLaunch (by assumption)

theorem moveCleanup (h : Invariant s) (thread source target : ℕ) :
    Invariant (s.moveCleanup thread source target) := by
  simp only [System.moveCleanup]
  split
  · exact h
  · exact (h.resetCleanup thread target).transferCleanup (by assumption)

/-! ### Served calls -/

/-- A served release empties the coordinator, and nobody is left to hold it. -/
theorem serve_release (h : Invariant s) {thread : ℕ} {call : Call}
    (hcall : s.inFlight thread = some call) (hrel : call.isRelease = true) :
    Invariant (s.serve thread call) := by
  have htoken : s.token (.releasing thread) = some call := by simp [System.token, hcall, hrel]
  have hnone : ∀ a, (s.serve thread call).token a = none := by
    intro a
    cases hx : s.token a with
    | none =>
        cases a with
        | launchSlot i => exact hx
        | cleanupSlot i => exact hx
        | releasing t =>
            by_cases ht : t = thread
            · simp [System.token, System.serve, ht]
            · simpa [System.token, System.serve, ht] using hx
    | some x =>
        rw [h.unique a (.releasing thread) x call hx htoken]
        simp [System.token, System.serve]
  have hcoord := System.runCall_frame s.coordinator call
  refine ⟨fun a _ x _ ha => ?_, fun a x ha => ?_, hcoord.1.trans h.waiters_eq, ?_,
    h.granted_increasing⟩
  · rw [hnone a] at ha
    cases ha
  · rw [hnone a] at ha
    cases ha
  · intro generation hg
    exact Nat.le_trans (h.granted_le generation hg) (Nat.le_of_eq hcoord.2.symm)

/-- The other calls leave the ownership as it is. -/
theorem serve_flag (h : Invariant s) {thread : ℕ} {call : Call}
    (hcall : s.inFlight thread = some call) (hrel : call.isRelease = false) :
    Invariant (s.serve thread call) := by
  have hcoord := System.runCall_frame s.coordinator call
  have howner := System.runCall_owner_of_flag s.coordinator hrel
  refine h.of_same_tokens (funext fun a => ?_) (fun x hx => ?_) (hcoord.1.trans h.waiters_eq)
    hcoord.2 rfl
  · cases a with
    | launchSlot i => rfl
    | cleanupSlot i => rfl
    | releasing t =>
        by_cases ht : t = thread
        · simp [System.token, System.serve, ht, hcall, hrel, Option.filter]
        · simp [System.token, System.serve, ht]
  · cases x with
    | releaseCleanup ticket => exact ⟨howner.1.trans hx.1, hx.2⟩
    | _ => exact ⟨howner.1.trans hx.1, howner.2.trans hx.2⟩

theorem serve (h : Invariant s) {thread : ℕ} {call : Call}
    (hcall : s.inFlight thread = some call) : Invariant (s.serve thread call) := by
  cases hrel : call.isRelease with
  | true => exact h.serve_release hcall hrel
  | false => exact h.serve_flag hcall hrel

/-! ### Acquisitions -/

/-- A lease granted by an idle coordinator is the only holder. -/
theorem of_granted (h : Invariant s) (hidle : s.coordinator.owner = .idle) (holder : Holder)
    (htoken : ∀ a, a ≠ holder → s'.token a = s.token a)
    (howns : ∀ call, s'.token holder = some call → s'.CallerOwns call)
    (hwaiters : s'.coordinator.cleanupWaiters = s'.cleanupWaiting.length)
    (hle : ∀ generation ∈ s'.granted, generation ≤ s'.coordinator.nextLaunchGeneration)
    (hinc : s'.granted.Pairwise (· < ·)) : Invariant s' := by
  have honly : ∀ a call, s'.token a = some call → a = holder := by
    intro a call ha
    by_contra hne
    rw [htoken a hne, h.token_eq_none_of_idle hidle] at ha
    cases ha
  refine ⟨fun a b x y ha hb => ?_, fun a call ha => ?_, hwaiters, hle, hinc⟩
  · rw [honly a x ha, honly b y hb]
  · exact howns call (honly a call ha ▸ ha)

theorem grantLaunch (h : Invariant s) (ha : s.coordinator.available = true) (thread slot : ℕ) :
    Invariant (s.finishLaunch thread slot
      (s.coordinator.grantLaunch, .granted (s.coordinator.nextLaunchGeneration + 1))) := by
  obtain ⟨hidle, -⟩ := Coordinator.available_iff.mp ha
  refine h.of_granted hidle (.launchSlot slot) (fun a hne => ?_) (fun call hcall => ?_)
    h.waiters_eq ?_ ?_
  · cases a with
    | launchSlot i =>
        have hi : i ≠ slot := fun heq => hne (heq ▸ rfl)
        simp [System.token, System.finishLaunch, hi]
    | cleanupSlot i => rfl
    | releasing t => rfl
  · obtain rfl : Call.releaseLaunch (s.coordinator.nextLaunchGeneration + 1) false = call := by
      simpa [System.token, System.finishLaunch] using hcall
    exact ⟨rfl, rfl⟩
  · intro generation hg
    rcases List.mem_append.mp hg with hg | hg
    · exact Nat.le_succ_of_le (h.granted_le generation hg)
    · rw [List.mem_singleton.mp hg]
      exact Nat.le_refl _
  · refine List.pairwise_append.mpr ⟨h.granted_increasing, List.pairwise_singleton _ _, ?_⟩
    intro generation hg x hx
    rw [List.mem_singleton.mp hx]
    exact Nat.lt_succ_of_le (h.granted_le generation hg)

/-- Refusing a launch or letting it wait touches nothing but the list of waiters. -/
theorem finishLaunch_of_same (h : Invariant s) (thread slot : ℕ)
    (r : Coordinator.LaunchResult) (hr : r = .refused ∨ r = .waiting) :
    Invariant (s.finishLaunch thread slot (s.coordinator, r)) := by
  rcases hr with rfl | rfl <;>
    exact h.of_same_tokens rfl (fun _ => id) h.waiters_eq rfl rfl

/-- One pass of the cleanup loop by a thread that is counted as a waiter. -/
theorem cleanupLoop (h : Invariant s) (thread slot waiters : ℕ)
    (hwaiters : waiters = (s.cleanupWaiting.erase thread).length + 1) :
    Invariant (s.finishCleanup thread slot
      (Coordinator.cleanupLoop { s.coordinator with cleanupWaiters := waiters })) := by
  have hpred : waiters - 1 = (s.cleanupWaiting.erase thread).length := by omega
  rcases Coordinator.cleanupLoop_cases { s.coordinator with cleanupWaiters := waiters } with
    ⟨hidle, hloop⟩ | ⟨-, hloop⟩ | ⟨-, hloop⟩
  · rw [hloop]
    refine h.of_granted hidle (.cleanupSlot slot) (fun a hne => ?_) (fun call hcall => ?_)
      hpred h.granted_le h.granted_increasing
    · cases a with
      | launchSlot i => rfl
      | cleanupSlot i =>
          have hi : i ≠ slot := fun heq => hne (heq ▸ rfl)
          simp [System.token, System.finishCleanup, hi]
      | releasing t => rfl
    · obtain rfl : Call.releaseCleanup (s.cleanups + 1) = call := by
        simpa [System.token, System.finishCleanup] using hcall
      exact ⟨rfl, rfl⟩
  · rw [hloop]
    exact h.of_same_tokens rfl (fun _ => id) hpred rfl rfl
  · rw [hloop]
    refine h.of_same_tokens rfl (fun _ => id) ?_ rfl rfl
    simp [System.finishCleanup, hwaiters]

theorem acquireCleanup (h : Invariant s) {thread : ℕ} (hnew : thread ∉ s.cleanupWaiting)
    (slot : ℕ) :
    Invariant (s.finishCleanup thread slot s.coordinator.acquireCleanupEnter) :=
  h.cleanupLoop thread slot _ (by rw [List.erase_of_not_mem hnew, h.waiters_eq])

theorem wakeCleanup (h : Invariant s) {thread : ℕ} (hold : thread ∈ s.cleanupWaiting)
    (slot : ℕ) (timedOut : Bool) :
    Invariant (s.finishCleanup thread slot (s.coordinator.acquireCleanupWake timedOut)) := by
  have hlength := List.length_erase_of_mem hold
  have hpos := List.length_pos_of_mem hold
  have hwaiters : s.coordinator.cleanupWaiters = (s.cleanupWaiting.erase thread).length + 1 := by
    rw [h.waiters_eq]
    omega
  rcases Coordinator.acquireCleanupWake_cases timedOut s.coordinator with hloop | ⟨-, -, hloop⟩
  · rw [hloop]
    exact h.cleanupLoop thread slot s.coordinator.cleanupWaiters hwaiters
  · rw [hloop]
    refine h.of_same_tokens rfl (fun _ => id) ?_ rfl rfl
    simp only [System.finishCleanup, Coordinator.finishWait]
    omega

theorem acquireLaunch (h : Invariant s) (thread slot : ℕ) :
    Invariant (s.finishLaunch thread slot s.coordinator.acquireLaunchEnter) := by
  rcases s.coordinator.acquireLaunchEnter_cases with ⟨ha, he⟩ | ⟨-, he⟩ | he
  · rw [he]
    exact h.grantLaunch ha thread slot
  · rw [he]
    exact h.finishLaunch_of_same thread slot _ (.inl rfl)
  · rw [he]
    exact h.finishLaunch_of_same thread slot _ (.inr rfl)

theorem wakeLaunch (h : Invariant s) (thread slot : ℕ) (timedOut : Bool) :
    Invariant (s.finishLaunch thread slot (s.coordinator.acquireLaunchWake timedOut)) := by
  rcases s.coordinator.acquireLaunchWake_cases timedOut with ⟨ha, he⟩ | he | he
  · rw [he]
    exact h.grantLaunch ha thread slot
  · rw [he]
    exact h.finishLaunch_of_same thread slot _ (.inl rfl)
  · rw [he]
    exact h.finishLaunch_of_same thread slot _ (.inr rfl)

end Invariant

/-- Every action of every thread keeps the invariant. -/
theorem step_invariant (s : System) (label : Label) (s' : System) (h : Invariant s)
    (hstep : step s label = some s') : Invariant s' := by
  cases label with
  | serve thread =>
      obtain ⟨call, hcall, rfl⟩ := Option.map_eq_some_iff.mp hstep
      exact h.serve hcall
  | acquireLaunch thread slot =>
      obtain ⟨-, rfl⟩ := guarded_eq_some.mp hstep
      exact h.acquireLaunch thread slot
  | wakeLaunch thread slot timedOut =>
      obtain ⟨-, rfl⟩ := guarded_eq_some.mp hstep
      exact h.wakeLaunch thread slot timedOut
  | acquireCleanup thread slot =>
      obtain ⟨hguard, rfl⟩ := guarded_eq_some.mp hstep
      exact h.acquireCleanup hguard.2 slot
  | wakeCleanup thread slot timedOut =>
      obtain ⟨hguard, rfl⟩ := guarded_eq_some.mp hstep
      exact h.wakeCleanup hguard.2 slot timedOut
  | commit thread slot =>
      obtain ⟨-, rfl⟩ := guarded_eq_some.mp hstep
      exact h.commit thread slot
  | markStarted thread slot =>
      obtain ⟨hfree, rfl⟩ := guarded_eq_some.mp hstep
      exact h.markStarted hfree slot
  | resetLaunch thread slot =>
      obtain ⟨-, rfl⟩ := guarded_eq_some.mp hstep
      exact h.resetLaunch thread slot
  | moveLaunch thread source target =>
      obtain ⟨-, rfl⟩ := guarded_eq_some.mp hstep
      exact h.moveLaunch thread source target
  | resetCleanup thread slot =>
      obtain ⟨-, rfl⟩ := guarded_eq_some.mp hstep
      exact h.resetCleanup thread slot
  | moveCleanup thread source target =>
      obtain ⟨-, rfl⟩ := guarded_eq_some.mp hstep
      exact h.moveCleanup thread source target

/-! ## Exclusion over whole runs -/

/-- A call of a lease that lost the coordinator changes nothing. -/
theorem Invariant.serve_of_not_owner {s : System} (h : Invariant s) {thread : ℕ} {call : Call}
    (hcall : s.inFlight thread = some call) (hnot : ¬ s.CallerOwns call) :
    (s.serve thread call).coordinator = s.coordinator := by
  cases call with
  | commitLaunch generation => exact if_neg hnot
  | markLaunchStarted generation => exact if_neg hnot
  | releaseLaunch generation committed =>
      have htoken : s.token (.releasing thread) = some (.releaseLaunch generation committed) := by
        simp [System.token, hcall, Option.filter, Call.isRelease]
      exact absurd (h.owns _ _ htoken) hnot
  | releaseCleanup ticket =>
      have htoken : s.token (.releasing thread) = some (.releaseCleanup ticket) := by
        simp [System.token, hcall, Option.filter, Call.isRelease]
      exact absurd (h.owns _ _ htoken) hnot

/-- Only an acquisition that finds nobody waiting to clean up hands out a lease. -/
theorem no_waiter_of_granted {s s' : System} {label : Label} (hstep : step s label = some s')
    (hgranted : s'.granted ≠ s.granted) : s.coordinator.cleanupWaiters = 0 := by
  cases label with
  | acquireLaunch thread slot =>
      obtain ⟨-, rfl⟩ := guarded_eq_some.mp hstep
      rcases s.coordinator.acquireLaunchEnter_cases with ⟨ha, -⟩ | ⟨-, he⟩ | he
      · exact (Coordinator.available_iff.mp ha).2
      · exact absurd (by rw [he]; rfl) hgranted
      · exact absurd (by rw [he]; rfl) hgranted
  | wakeLaunch thread slot timedOut =>
      obtain ⟨-, rfl⟩ := guarded_eq_some.mp hstep
      rcases s.coordinator.acquireLaunchWake_cases timedOut with ⟨ha, -⟩ | he | he
      · exact (Coordinator.available_iff.mp ha).2
      · exact absurd (by rw [he]; rfl) hgranted
      · exact absurd (by rw [he]; rfl) hgranted
  | serve thread =>
      obtain ⟨call, -, rfl⟩ := Option.map_eq_some_iff.mp hstep
      exact absurd rfl hgranted
  | acquireCleanup thread slot =>
      obtain ⟨-, rfl⟩ := guarded_eq_some.mp hstep
      exact absurd (System.finishCleanup_granted _ _ _ _) hgranted
  | wakeCleanup thread slot timedOut =>
      obtain ⟨-, rfl⟩ := guarded_eq_some.mp hstep
      exact absurd (System.finishCleanup_granted _ _ _ _) hgranted
  | commit thread slot =>
      obtain ⟨-, rfl⟩ := guarded_eq_some.mp hstep
      exact absurd (System.commit_granted _ _ _) hgranted
  | markStarted thread slot =>
      obtain ⟨-, rfl⟩ := guarded_eq_some.mp hstep
      exact absurd (System.markStarted_granted _ _ _) hgranted
  | resetLaunch thread slot =>
      obtain ⟨-, rfl⟩ := guarded_eq_some.mp hstep
      exact absurd (System.resetLaunch_granted _ _ _) hgranted
  | moveLaunch thread source target =>
      obtain ⟨-, rfl⟩ := guarded_eq_some.mp hstep
      exact absurd (System.moveLaunch_granted _ _ _ _) hgranted
  | resetCleanup thread slot =>
      obtain ⟨-, rfl⟩ := guarded_eq_some.mp hstep
      exact absurd (System.resetCleanup_granted _ _ _) hgranted
  | moveCleanup thread source target =>
      obtain ⟨-, rfl⟩ := guarded_eq_some.mp hstep
      exact absurd (System.moveCleanup_granted _ _ _ _) hgranted

/-- **Lease exclusion.**  In every state any interleaving of acquisitions, wake-ups,
commits, starts, resets, moves and served calls can reach: ownership has at most one
holder and that holder is the coordinator's owner; generations were handed out in
strictly increasing order; a call of a lease that is not the owner leaves the
coordinator as it is; no action hands out a launch lease while a cleanup waits; and
the waiter count is the number of outstanding cleanup acquisitions. -/
theorem lease_exclusion {labels : List Label} {s : System}
    (hrun : run step System.initial labels = some s) :
    (∀ a b x y, s.token a = some x → s.token b = some y → a = b) ∧
      (∀ a call, s.token a = some call → s.CallerOwns call) ∧
      s.granted.Pairwise (· < ·) ∧
      (∀ thread call, s.inFlight thread = some call → ¬ s.CallerOwns call →
        (s.serve thread call).coordinator = s.coordinator) ∧
      (∀ label s', step s label = some s' → s'.granted ≠ s.granted →
        s.coordinator.cleanupWaiters = 0) ∧
      s.coordinator.cleanupWaiters = s.cleanupWaiting.length := by
  have h : Invariant s := run_invariant step_invariant invariant_initial hrun
  exact ⟨h.unique, h.owns, h.granted_increasing, fun _ _ => h.serve_of_not_owner,
    fun _ _ => no_waiter_of_granted, h.waiters_eq⟩

/-- A launch is committed and released; its commit reaches the mutex after the
release, when a cleanup owns the coordinator and another one waits for it. -/
theorem lease_exclusion_late_commit :
    let labels := [Label.acquireLaunch 0 0, .commit 0 0, .resetLaunch 1 0, .serve 1,
      .acquireCleanup 2 0, .acquireCleanup 3 1]
    ∃ s, run step System.initial labels = some s ∧
      s.inFlight 0 = some (.commitLaunch 1) ∧ ¬ s.CallerOwns (.commitLaunch 1) ∧
      (s.serve 0 (.commitLaunch 1)).coordinator = s.coordinator ∧
      s.coordinator.cleanupWaiters = 1 := by
  intro labels
  refine ⟨_, rfl, rfl, ?_, ?_, rfl⟩
  · rintro ⟨howner, -⟩
    cases howner
  · refine (@lease_exclusion labels _ rfl).2.2.2.1 0 _ rfl ?_
    rintro ⟨howner, -⟩
    cases howner

end LuminalShine.Lifecycle
