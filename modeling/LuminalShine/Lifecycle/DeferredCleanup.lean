import LuminalShine.Lib.Records
import LuminalShine.Lib.Run
import LuminalShine.Lifecycle.Coordinator

/-!
# Deferred global cleanup

A last-session cleanup that finds an unstarted launch in possession of the
coordinator leaves an obligation behind, the coordinator's deferred flag.  The next
cleanup acquisition takes the flag, wherever it is made: `session::join`, the guards
of an aborted `launch` or `resume`, `cancel`, and the rollback of an unclaimed launch.
Each of these revalidates its situation under the lease before it cleans up.

The model keeps one program counter per thread; what a thread reads outside the
coordinator (session counters, pending launch, browser sessions, applications) is an
input of its step, so the environment is unconstrained.  `obligation` is a history
variable: it is set when a cleanup is superseded by an unstarted launch and reset
when a launch marks itself started or a thread has run the global cleanup.

## Main definitions

* `Site`, `proceeds`, `runsCleanup` — the acquisition sites and their early returns.
* `step` — one atomic action of one thread.
* `Accounted` — the obligation is recorded in the flag or carried by a lease holder.
* `obligation_accounted` — the run theorem, under `TakesNoEarlyReturn`.
-/

namespace LuminalShine.Lifecycle.Deferred

open LuminalShine.Lib

/-- What the rollback knows about the launch it undoes. -/
structure DiscardedLaunch where
  terminateAppOnUnclaimed : Bool
  appid : ℕ
  launchedAppGeneration : Option ℕ
  deriving DecidableEq, Repr

/-- The callers of `acquire_cleanup`. -/
inductive Site where
  | sessionJoin
  | abortedLaunch
  | abortedResume
  | clientCancel
  | unclaimedRollback (discarded : DiscardedLaunch)
  deriving DecidableEq, Repr

/-- What a lease holder reads before it cleans up. -/
structure Reads where
  runningSessions : ℕ
  activeSessions : ℕ
  webrtcActive : Bool
  launchPending : Bool
  exactAppTerminated : Bool
  hasActiveApp : Bool
  deriving DecidableEq, Repr

/-- `last_session_cleanup_still_valid`. -/
def lastSessionCleanupStillValid (runningRtspSessions activeRtspSessions : ℕ) : Bool :=
  runningRtspSessions = 0 && activeRtspSessions = 0

/-- The lambda `successor_exists` of the rollback. -/
def successorExists (r : Reads) : Bool :=
  r.activeSessions ≠ 0 || r.webrtcActive || r.launchPending

/-- The rollback terminates the application this launch started. -/
def terminatesApp (discarded : DiscardedLaunch) : Bool :=
  discarded.terminateAppOnUnclaimed && 0 < discarded.appid &&
    discarded.launchedAppGeneration.isSome

/-- Whether the holder gets past its early returns. -/
def proceeds : Site → Reads → Bool
  | .sessionJoin, r => lastSessionCleanupStillValid r.runningSessions r.activeSessions
  | .abortedLaunch, _ => true
  | .abortedResume, _ => true
  | .clientCancel, r => !(r.activeSessions ≠ 0 || r.launchPending)
  | .unclaimedRollback discarded, r =>
      !(r.runningSessions ≠ 0 || successorExists r) &&
        !(terminatesApp discarded && !r.exactAppTerminated && r.hasActiveApp)

/-- Whether the holder then runs the global cleanup: `join` always does its own, the
others complete a deferred one. -/
def runsCleanup (site : Site) (deferredCleanupPending : Bool) : Bool :=
  match site with
  | .sessionJoin => true
  | _ => deferredCleanupPending

/-- Where a thread is. -/
inductive Pc where
  | idle
  | launchWait
  | launching (generation : ℕ)
  | cleanupWait (site : Site)
  | holding (site : Site) (deferredCleanupPending : Bool)
  | cleaning (site : Site) (deferredCleanupPending : Bool)
  | leaving (deferredCleanupPending ran : Bool)
  deriving DecidableEq, Repr

structure State where
  coordinator : Coordinator
  pc : ℕ → Pc
  obligation : Bool

def State.initial : State where
  coordinator := {}
  pc := fun _ => .idle
  obligation := false

inductive Label where
  | acquireLaunch (thread : ℕ)
  | wakeLaunch (thread : ℕ) (timedOut : Bool)
  | commit (thread : ℕ)
  | markStarted (thread : ℕ)
  | releaseLaunch (thread : ℕ) (committed : Bool)
  | acquireCleanup (thread : ℕ) (site : Site)
  | wakeCleanup (thread : ℕ) (timedOut : Bool)
  | revalidate (thread : ℕ) (reads : Reads)
  | runCleanup (thread : ℕ)
  | releaseCleanup (thread : ℕ)
  deriving DecidableEq, Repr

/-! ## Steps -/

def State.finishLaunch (s : State) (thread : ℕ) :
    Coordinator × Coordinator.LaunchResult → State
  | (c, .granted generation) =>
      { s with coordinator := c, pc := Function.update s.pc thread (.launching generation) }
  | (c, .refused) => { s with coordinator := c, pc := Function.update s.pc thread .idle }
  | (c, .waiting) => { s with coordinator := c, pc := Function.update s.pc thread .launchWait }

/-- A superseded cleanup leaves an obligation exactly when it set the flag. -/
def State.finishCleanup (s : State) (thread : ℕ) (site : Site) :
    Coordinator × Coordinator.CleanupResult → State
  | (c, .acquired deferred) =>
      { s with coordinator := c, pc := Function.update s.pc thread (.holding site deferred) }
  | (c, .supersededByLaunch) =>
      { coordinator := c
        pc := Function.update s.pc thread .idle
        obligation := s.obligation || !s.coordinator.activeLaunchStarted }
  | (c, .timedOut) => { s with coordinator := c, pc := Function.update s.pc thread .idle }
  | (c, .waiting) =>
      { s with coordinator := c, pc := Function.update s.pc thread (.cleanupWait site) }

/-- `mark_started` by the launch that owns the coordinator ends the obligation. -/
def State.markStarted (s : State) (generation : ℕ) : State :=
  { s with
    coordinator := s.coordinator.markLaunchStarted generation
    obligation :=
      if s.coordinator.owner = .launch ∧ s.coordinator.activeLaunchGeneration = generation then
        false
      else s.obligation }

def step (s : State) : Label → Option State
  | .acquireLaunch thread =>
      match s.pc thread with
      | .idle => some (s.finishLaunch thread s.coordinator.acquireLaunchEnter)
      | _ => none
  | .wakeLaunch thread timedOut =>
      match s.pc thread with
      | .launchWait => some (s.finishLaunch thread (s.coordinator.acquireLaunchWake timedOut))
      | _ => none
  | .commit thread =>
      match s.pc thread with
      | .launching generation =>
          some { s with coordinator := s.coordinator.commitLaunch generation }
      | _ => none
  | .markStarted thread =>
      match s.pc thread with
      | .launching generation => some (s.markStarted generation)
      | _ => none
  | .releaseLaunch thread committed =>
      match s.pc thread with
      | .launching generation =>
          some { s with
            coordinator := s.coordinator.releaseLaunch generation committed
            pc := Function.update s.pc thread .idle }
      | _ => none
  | .acquireCleanup thread site =>
      match s.pc thread with
      | .idle => some (s.finishCleanup thread site s.coordinator.acquireCleanupEnter)
      | _ => none
  | .wakeCleanup thread timedOut =>
      match s.pc thread with
      | .cleanupWait site =>
          some (s.finishCleanup thread site (s.coordinator.acquireCleanupWake timedOut))
      | _ => none
  | .revalidate thread reads =>
      match s.pc thread with
      | .holding site deferred =>
          some { s with
            pc := Function.update s.pc thread
              (if proceeds site reads then .cleaning site deferred else .leaving deferred false) }
      | _ => none
  | .runCleanup thread =>
      match s.pc thread with
      | .cleaning site deferred =>
          some { s with
            pc := Function.update s.pc thread (.leaving deferred (runsCleanup site deferred))
            obligation := if runsCleanup site deferred then false else s.obligation }
      | _ => none
  | .releaseCleanup thread =>
      match s.pc thread with
      | .leaving _ _ =>
          some { s with
            coordinator := s.coordinator.releaseCleanup
            pc := Function.update s.pc thread .idle }
      | _ => none

/-! ## Where the obligation is -/

/-- The thread holds the lease, took the flag and has not run the cleanup yet. -/
def Carries : Pc → Prop
  | .holding _ deferred => deferred = true
  | .cleaning _ deferred => deferred = true
  | _ => False

/-- **The invariant.**  An outstanding obligation is in the flag or with a lease
holder that will still run the cleanup, and a holder that took the flag leaves only
after the cleanup. -/
structure Accounted (s : State) : Prop where
  kept : s.obligation = true →
    s.coordinator.deferredCleanupPending = true ∨ ∃ thread, Carries (s.pc thread)
  discharged : ∀ thread ran, s.pc thread = .leaving true ran → ran = true

/-- The condition on the steps: a holder that took the flag does not return early. -/
def TakesNoEarlyReturn (s : State) : Label → Prop
  | .revalidate thread reads =>
      ∀ site, s.pc thread = .holding site true → proceeds site reads = true
  | _ => True

instance (s : State) : ∀ label, Decidable (TakesNoEarlyReturn s label)
  | .revalidate thread reads =>
      match h : s.pc thread with
      | .holding site true =>
          decidable_of_iff (proceeds site reads = true) (by simp [TakesNoEarlyReturn, h])
      | .holding _ false | .idle | .launchWait | .launching _ | .cleanupWait _ | .cleaning ..
      | .leaving .. => isTrue (by simp [TakesNoEarlyReturn, h])
  | .acquireLaunch _ | .wakeLaunch .. | .commit _ | .markStarted _ | .releaseLaunch ..
  | .acquireCleanup .. | .wakeCleanup .. | .runCleanup _ | .releaseCleanup _ => isTrue trivial

theorem runsCleanup_deferred (site : Site) : runsCleanup site true = true := by
  cases site <;> rfl

theorem accounted_initial : Accounted State.initial :=
  ⟨fun h => Bool.noConfusion h, fun _ _ h => Pc.noConfusion h⟩

namespace Accounted

variable {s : State}

theorem discharged_update (h : Accounted s) {thread : ℕ} {next : Pc}
    (hnext : ∀ ran, next = .leaving true ran → ran = true) (t : ℕ) (ran : Bool)
    (ht : Function.update s.pc thread next t = .leaving true ran) : ran = true := by
  by_cases heq : t = thread
  · subst heq
    rw [Function.update_self] at ht
    exact hnext ran ht
  · rw [Function.update_of_ne heq] at ht
    exact h.discharged t ran ht

/-- A thread that carries nothing moves on without touching flag or obligation. -/
theorem of_moved (h : Accounted s) {thread : ℕ} {next : Pc} {c : Coordinator}
    (hnot : ¬ Carries (s.pc thread))
    (hflag : c.deferredCleanupPending = s.coordinator.deferredCleanupPending)
    (hnext : ∀ ran, next = .leaving true ran → ran = true) :
    Accounted { s with coordinator := c, pc := Function.update s.pc thread next } where
  kept := by
    intro ho
    rcases h.kept ho with hf | hc
    · exact .inl (hflag.trans hf)
    · exact .inr (exists_update_of_not hnot hc)
  discharged := h.discharged_update hnext

theorem finishLaunch (h : Accounted s) {thread : ℕ} (hnot : ¬ Carries (s.pc thread))
    {r : Coordinator × Coordinator.LaunchResult}
    (hflag : r.1.deferredCleanupPending = s.coordinator.deferredCleanupPending) :
    Accounted (s.finishLaunch thread r) := by
  obtain ⟨c, result⟩ := r
  cases result <;> exact h.of_moved hnot hflag (by rintro _ ⟨⟩)

/-- One pass of the loop: the flag goes to the thread that acquires the lease, and a
superseded cleanup sets it. -/
theorem cleanupLoop (h : Accounted s) {thread : ℕ} (hnot : ¬ Carries (s.pc thread))
    (site : Site) (waiters : ℕ) :
    Accounted (s.finishCleanup thread site
      (Coordinator.cleanupLoop { s.coordinator with cleanupWaiters := waiters })) := by
  rcases Coordinator.cleanupLoop_cases { s.coordinator with cleanupWaiters := waiters } with
    ⟨-, hloop⟩ | ⟨-, hloop⟩ | ⟨-, hloop⟩
  · rw [hloop]
    refine ⟨fun ho => .inr ?_, h.discharged_update (by rintro _ ⟨⟩)⟩
    rcases h.kept ho with hf | hc
    · exact ⟨thread, by simpa [State.finishCleanup, Carries] using hf⟩
    · exact exists_update_of_not hnot hc
  · rw [hloop]
    refine ⟨fun ho => ?_, h.discharged_update (by rintro _ ⟨⟩)⟩
    simp only [State.finishCleanup, Bool.or_eq_true] at ho
    rcases ho with ho | ho
    · rcases h.kept ho with hf | hc
      · exact .inl (by simp [State.finishCleanup, Coordinator.deferToLaunch, hf])
      · exact .inr (exists_update_of_not hnot hc)
    · exact .inl (by simp only [State.finishCleanup, Coordinator.deferToLaunch, ho, Bool.or_true])
  · rw [hloop]
    exact h.of_moved hnot rfl (by rintro _ ⟨⟩)

theorem markStarted (h : Accounted s) (generation : ℕ) : Accounted (s.markStarted generation) := by
  by_cases howner : s.coordinator.owner = .launch ∧
      s.coordinator.activeLaunchGeneration = generation
  · refine ⟨fun ho => ?_, h.discharged⟩
    simp [State.markStarted, howner] at ho
  · have hsame : s.markStarted generation = s := by
      simp [State.markStarted, Coordinator.markLaunchStarted, howner]
    rw [hsame]
    exact h

theorem wakeCleanup (h : Accounted s) {thread : ℕ} (hnot : ¬ Carries (s.pc thread))
    (site : Site) (timedOut : Bool) :
    Accounted (s.finishCleanup thread site (s.coordinator.acquireCleanupWake timedOut)) := by
  rcases Coordinator.acquireCleanupWake_cases timedOut s.coordinator with hloop | ⟨-, -, hloop⟩
  · rw [hloop]
    exact h.cleanupLoop hnot site s.coordinator.cleanupWaiters
  · rw [hloop]
    exact h.of_moved hnot rfl (by rintro _ ⟨⟩)

/-- A holder that took the flag goes on to the cleanup. -/
theorem revalidate (h : Accounted s) {thread : ℕ} {site : Site} {deferred : Bool}
    (hpc : s.pc thread = .holding site deferred) {reads : Reads}
    (hguard : deferred = true → proceeds site reads = true) :
    Accounted { s with
      pc := Function.update s.pc thread
        (if proceeds site reads then .cleaning site deferred else .leaving deferred false) } := by
  cases deferred with
  | false =>
      refine h.of_moved (by simp [hpc, Carries]) rfl (fun ran hnext => ?_)
      split at hnext <;> cases hnext
  | true =>
      rw [if_pos (hguard rfl)]
      refine ⟨fun ho => .inr ⟨thread, ?_⟩, h.discharged_update (by rintro _ ⟨⟩)⟩
      simp [Carries]

/-- The cleanup a carrier runs ends the obligation. -/
theorem runCleanup (h : Accounted s) {thread : ℕ} {site : Site} {deferred : Bool}
    (hpc : s.pc thread = .cleaning site deferred) :
    Accounted { s with
      pc := Function.update s.pc thread (.leaving deferred (runsCleanup site deferred))
      obligation := if runsCleanup site deferred then false else s.obligation } where
  kept := by
    intro ho
    cases hruns : runsCleanup site deferred with
    | true => simp [hruns] at ho
    | false =>
        have hdeferred : deferred = false := by
          cases deferred with
          | false => rfl
          | true => rw [runsCleanup_deferred] at hruns; cases hruns
        rcases h.kept (by simpa [hruns] using ho) with hf | hc
        · exact .inl hf
        · exact .inr (exists_update_of_not (by simp [hpc, Carries, hdeferred]) hc)
  discharged := by
    refine h.discharged_update ?_
    rintro ran ⟨⟩
    exact runsCleanup_deferred site

end Accounted

/-- Every action that meets the condition keeps the obligation accounted for. -/
theorem step_accounted (s : State) (label : Label) (s' : State) (h : Accounted s)
    (hguard : TakesNoEarlyReturn s label) (hstep : step s label = some s') : Accounted s' := by
  cases label with
  | acquireLaunch thread =>
      simp only [step] at hstep
      split at hstep <;> cases hstep
      exact h.finishLaunch (by simp [*, Carries]) (Coordinator.acquireLaunchEnter_deferred _)
  | wakeLaunch thread timedOut =>
      simp only [step] at hstep
      split at hstep <;> cases hstep
      exact h.finishLaunch (by simp [*, Carries]) (Coordinator.acquireLaunchWake_deferred _ _)
  | commit thread =>
      simp only [step] at hstep
      split at hstep <;> cases hstep
      refine ⟨fun ho => ?_, h.discharged⟩
      simpa only [Coordinator.commitLaunch_deferred] using h.kept ho
  | markStarted thread =>
      simp only [step] at hstep
      split at hstep <;> cases hstep
      exact h.markStarted _
  | releaseLaunch thread committed =>
      simp only [step] at hstep
      split at hstep <;> cases hstep
      exact h.of_moved (by simp [*, Carries]) (Coordinator.releaseLaunch_deferred _ _ _)
        (by rintro _ ⟨⟩)
  | acquireCleanup thread site =>
      simp only [step] at hstep
      split at hstep <;> cases hstep
      exact h.cleanupLoop (by simp [*, Carries]) site (s.coordinator.cleanupWaiters + 1)
  | wakeCleanup thread timedOut =>
      simp only [step] at hstep
      split at hstep <;> cases hstep
      exact h.wakeCleanup (by simp [*, Carries]) _ timedOut
  | revalidate thread reads =>
      simp only [step] at hstep
      split at hstep <;> cases hstep
      rename_i site deferred hpc
      exact h.revalidate hpc (fun hd => hguard site (hd ▸ hpc))
  | runCleanup thread =>
      simp only [step] at hstep
      split at hstep <;> cases hstep
      exact h.runCleanup (by assumption)
  | releaseCleanup thread =>
      simp only [step] at hstep
      split at hstep <;> cases hstep
      exact h.of_moved (by simp [*, Carries]) (Coordinator.releaseCleanup_deferred _)
        (by rintro _ ⟨⟩)

/-! ## Who clears the flag -/

/-- The launch that owns the coordinator marks itself started. -/
def StartedBy (s : State) (thread : ℕ) : Prop :=
  ∃ generation, s.pc thread = .launching generation ∧ s.coordinator.owner = .launch ∧
    s.coordinator.activeLaunchGeneration = generation

theorem cleanupLoop_clears {s : State} {thread : ℕ} {site : Site} (waiters : ℕ)
    (hset : s.coordinator.deferredCleanupPending = true)
    (hclear : (s.finishCleanup thread site (Coordinator.cleanupLoop
      { s.coordinator with cleanupWaiters := waiters })).coordinator.deferredCleanupPending
        = false) :
    (s.finishCleanup thread site (Coordinator.cleanupLoop
      { s.coordinator with cleanupWaiters := waiters })).pc thread = .holding site true := by
  rcases Coordinator.cleanupLoop_cases { s.coordinator with cleanupWaiters := waiters } with
    ⟨-, hloop⟩ | ⟨-, hloop⟩ | ⟨-, hloop⟩
  · rw [hloop]
    simp [State.finishCleanup, hset]
  · rw [hloop] at hclear
    simp [State.finishCleanup, Coordinator.deferToLaunch, hset] at hclear
  · rw [hloop] at hclear
    simp [State.finishCleanup, hset] at hclear

theorem finishLaunch_deferred {s : State} {thread : ℕ}
    {r : Coordinator × Coordinator.LaunchResult}
    (hflag : r.1.deferredCleanupPending = s.coordinator.deferredCleanupPending) :
    (s.finishLaunch thread r).coordinator.deferredCleanupPending
      = s.coordinator.deferredCleanupPending := by
  obtain ⟨c, result⟩ := r
  cases result <;> exact hflag

/-- The flag is cleared only by a launch that marks itself started, or by an
acquisition whose lease holder now has the obligation. -/
theorem flag_cleared_by {s s' : State} {label : Label} (hstep : step s label = some s')
    (hset : s.coordinator.deferredCleanupPending = true)
    (hclear : s'.coordinator.deferredCleanupPending = false) :
    (∃ thread, label = .markStarted thread ∧ StartedBy s thread) ∨
      ∃ thread site, s'.pc thread = .holding site true := by
  have hcontra : s'.coordinator.deferredCleanupPending
      ≠ s.coordinator.deferredCleanupPending := by simp [hset, hclear]
  cases label with
  | acquireLaunch thread =>
      simp only [step] at hstep
      split at hstep <;> cases hstep
      exact absurd (finishLaunch_deferred (Coordinator.acquireLaunchEnter_deferred _)) hcontra
  | wakeLaunch thread timedOut =>
      simp only [step] at hstep
      split at hstep <;> cases hstep
      exact absurd (finishLaunch_deferred (Coordinator.acquireLaunchWake_deferred _ _)) hcontra
  | commit thread =>
      simp only [step] at hstep
      split at hstep <;> cases hstep
      exact absurd (Coordinator.commitLaunch_deferred _ _) hcontra
  | markStarted thread =>
      simp only [step] at hstep
      split at hstep <;> cases hstep
      rename_i generation hpc
      refine .inl ⟨thread, rfl, generation, hpc, ?_⟩
      by_contra howner
      exact hcontra (by simp [State.markStarted, Coordinator.markLaunchStarted, howner])
  | releaseLaunch thread committed =>
      simp only [step] at hstep
      split at hstep <;> cases hstep
      exact absurd (Coordinator.releaseLaunch_deferred _ _ _) hcontra
  | acquireCleanup thread site =>
      simp only [step] at hstep
      split at hstep <;> cases hstep
      exact .inr ⟨thread, site, cleanupLoop_clears _ hset hclear⟩
  | wakeCleanup thread timedOut =>
      simp only [step] at hstep
      split at hstep <;> cases hstep
      rename_i site hpc
      rcases Coordinator.acquireCleanupWake_cases timedOut s.coordinator with hloop | ⟨-, -, hloop⟩
      · rw [hloop] at hclear ⊢
        exact .inr ⟨thread, site,
          cleanupLoop_clears s.coordinator.cleanupWaiters hset hclear⟩
      · rw [hloop] at hcontra
        exact absurd rfl hcontra
  | revalidate thread reads =>
      simp only [step] at hstep
      split at hstep <;> cases hstep
      exact absurd rfl hcontra
  | runCleanup thread =>
      simp only [step] at hstep
      split at hstep <;> cases hstep
      exact absurd rfl hcontra
  | releaseCleanup thread =>
      simp only [step] at hstep
      split at hstep <;> cases hstep
      exact absurd (Coordinator.releaseCleanup_deferred _) hcontra

/-- **The obligation is never lost while no holder of the flag returns early.**  In
every state such a run reaches, an outstanding obligation is in the flag or with a
lease holder that has yet to run the cleanup, a holder that took the flag leaves only
after running it, and the next action clears the flag only by a launch that marks
itself started or by handing the obligation to the thread that acquires the lease. -/
theorem obligation_accounted {labels : List Label} {s : State}
    (hmeets : RunMeets step TakesNoEarlyReturn State.initial labels)
    (hrun : run step State.initial labels = some s) :
    (s.obligation = true →
        s.coordinator.deferredCleanupPending = true ∨ ∃ thread, Carries (s.pc thread)) ∧
      (∀ thread ran, s.pc thread = .leaving true ran → ran = true) ∧
      ∀ label s', step s label = some s' → s.coordinator.deferredCleanupPending = true →
        s'.coordinator.deferredCleanupPending = false →
        (∃ thread, label = .markStarted thread ∧ StartedBy s thread) ∨
          ∃ thread site, s'.pc thread = .holding site true := by
  have h : Accounted s := run_invariant_of_meets step_accounted accounted_initial hmeets hrun
  exact ⟨h.kept, h.discharged, fun _ _ => flag_cleared_by⟩

/-- A cleanup superseded by launch 1 is completed by the rollback of that launch. -/
theorem obligation_accounted_rollback :
    let discarded : DiscardedLaunch := ⟨true, 5, some 1⟩
    let reads : Reads := ⟨0, 0, false, false, true, false⟩
    let labels := [Label.acquireLaunch 0, .acquireCleanup 1 .sessionJoin, .releaseLaunch 0 true,
      .acquireCleanup 2 (.unclaimedRollback discarded), .revalidate 2 reads]
    RunMeets step TakesNoEarlyReturn State.initial labels ∧
      ∃ s, run step State.initial labels = some s ∧ s.obligation = true ∧
        (s.coordinator.deferredCleanupPending = true ∨ ∃ thread, Carries (s.pc thread)) := by
  intro discarded reads labels
  have hmeets : RunMeets step TakesNoEarlyReturn State.initial labels := by decide
  exact ⟨hmeets, _, rfl, rfl, (obligation_accounted hmeets rfl).1 rfl⟩

/-- The same run when another application is active: the rollback returns early with
the flag it took, and nobody owes the cleanup any more. -/
theorem rollback_drops_obligation :
    let discarded : DiscardedLaunch := ⟨true, 5, some 1⟩
    let reads : Reads := ⟨0, 0, false, false, false, true⟩
    let labels := [Label.acquireLaunch 0, .acquireCleanup 1 .sessionJoin, .releaseLaunch 0 true,
      .acquireCleanup 2 (.unclaimedRollback discarded), .revalidate 2 reads, .releaseCleanup 2]
    ∃ s, run step State.initial labels = some s ∧ s.obligation = true ∧
      s.coordinator.deferredCleanupPending = false ∧ s.coordinator.owner = .idle ∧
      ∀ thread, s.pc thread = .idle := by
  refine ⟨_, rfl, rfl, rfl, rfl, fun thread => ?_⟩
  match thread with
  | 0 => rfl
  | 1 => rfl
  | 2 => rfl
  | _ + 3 => rfl

end LuminalShine.Lifecycle.Deferred
