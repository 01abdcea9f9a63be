import LuminalShine.Lib.Run
import LuminalShine.Process.Launch
import Mathlib.Data.Int.Order.Basic
import Mathlib.Data.Nat.Basic
import Mathlib.Order.Basic

/-!
# Guards of active sessions

A cleanup that is delayed carries a guard: the app, the client and the time of the launch it was
captured in.  `terminate_if_active_session` ends the app only if all three are those of the
guard.  The time is taken when a launch completes, so a launch that waits for a sign-in has none:
its guard is that of every waiting launch of that app by that client.

The clock is steady, and every call reads a later time than the calls before.

## Main definitions

* `TimedProc` — the process object with the fields that identify a launch.
* `Guard`, `activeSessionGuard`, `terminateIfActiveSession`.
* `History`, `Call`, `step` — histories of calls and the guards captured in them.
* `SparesOthers` — what a guard may do; `Meets` — the condition on the calls.
-/

namespace LuminalShine.Process.SessionGuard

open LuminalShine.Lib

/-! ## The process object -/

/-- `launchTime` is zero when no launch has completed. -/
structure TimedProc where
  proc : Proc
  launchTime : ℕ := 0
  clientUuid : String := ""
  deriving DecidableEq, Repr

namespace TimedProc

variable (t : TimedProc)

/-- `terminate`. -/
def terminate : TimedProc := { proc := (Process.terminate t.proc).2 }

/-- `launch_app_commands`; the time is taken at its end. -/
def launchAppCommands (outcomes : Outcomes) (now : ℕ) : Bool × TimedProc :=
  match Process.launchAppCommands t.proc outcomes with
  | (_, true, proc) => (true, { t with proc, launchTime := now })
  | (_, false, proc) => (false, { proc })

/-- `execute`. -/
def execute (appId : ℤ) (clientUuid : String) (noSession : Bool) (outcomes : Outcomes)
    (now : ℕ) : TimedProc :=
  let t := t.terminate
  match t.proc.apps.find? (·.id = toString appId) with
  | none => t
  | some app =>
      let entered := { t with proc := enter t.proc appId app, clientUuid }
      if noSession && requiresUserSession app then
        { entered with proc := { entered.proc with deferredLaunch := true } }
      else (entered.launchAppCommands outcomes now).2

/-- The part of `running` behind the deferred launch. -/
def runningTracked (o : Observed) : ℤ × TimedProc :=
  if tracked t.proc o then (t.proc.appId, t)
  else if detachedExit t.proc o then
    (t.proc.appId, { t with proc := { t.proc with placebo := true } })
  else if t.proc.process then (0, t.terminate)
  else (0, t)

/-- `running`. -/
def running (o : Observed) (now : ℕ) : ℤ × TimedProc :=
  if t.proc.deferredLaunch then
    if o.sessionReady then
      match { t with proc := { t.proc with deferredLaunch := false } }.launchAppCommands
          o.outcomes now with
      | (true, t) => t.runningTracked o
      | (false, t) => (0, t)
    else (t.proc.appId, t)
  else t.runningTracked o

/-- `refresh`, with the lists it has parsed. -/
def refresh (apps : List App) (o : Observed) (now : ℕ) : TimedProc :=
  match t.running o now with
  | (appId, t) =>
      if 0 < appId then { t with proc := { t.proc with apps } }
      else { proc := { apps, deferredLaunch := t.proc.deferredLaunch, runs := t.proc.runs } }

end TimedProc

/-! ### The process object is that of `Process.call` -/

section

variable (t : TimedProc)

theorem launchAppCommands_proc (outcomes : Outcomes) (now : ℕ) :
    (t.launchAppCommands outcomes now).1 = (launchAppCommands t.proc outcomes).2.1 ∧
      (t.launchAppCommands outcomes now).2.proc = (launchAppCommands t.proc outcomes).2.2 := by
  simp only [TimedProc.launchAppCommands]
  split <;> rename_i h <;> simp [h]

theorem execute_proc (appId : ℤ) (clientUuid : String) (noSession : Bool) (outcomes : Outcomes)
    (now : ℕ) :
    (t.execute appId clientUuid noSession outcomes now).proc =
      (execute t.proc appId noSession outcomes).2 := by
  have hlaunch : ∀ t : TimedProc, (t.launchAppCommands outcomes now).2.proc =
      (launchAppCommands t.proc outcomes).2.2 := fun t => (launchAppCommands_proc t outcomes now).2
  simp only [TimedProc.execute, execute, TimedProc.terminate]
  cases (terminate t.proc).2.apps.find? (·.id = toString appId) with
  | none => rfl
  | some app =>
      simp only
      split
      · rfl
      · rw [hlaunch]
        split <;> rename_i h <;> simp [h]

theorem runningTracked_proc (o : Observed) :
    (t.runningTracked o).1 = (runningTracked t.proc o).2.1 ∧
      (t.runningTracked o).2.proc = (runningTracked t.proc o).2.2 := by
  simp only [TimedProc.runningTracked, runningTracked]
  repeat' split
  all_goals exact ⟨rfl, rfl⟩

theorem running_proc (o : Observed) (now : ℕ) :
    (t.running o now).1 = (running t.proc o).2.1 ∧
      (t.running o now).2.proc = (running t.proc o).2.2 := by
  have hlaunch := launchAppCommands_proc
    { t with proc := { t.proc with deferredLaunch := false } } o.outcomes now
  simp only [TimedProc.running, running]
  split
  · split
    · split <;> rename_i heq <;> rw [heq] at hlaunch <;> obtain ⟨hok, hproc⟩ := hlaunch <;>
        split <;> rename_i heq' <;> rw [heq'] at hok hproc
      · obtain rfl := hproc
        exact runningTracked_proc _ o
      · simp at hok
      · simp at hok
      · exact ⟨rfl, hproc⟩
    · exact ⟨rfl, rfl⟩
  · exact runningTracked_proc t o

theorem refresh_proc (apps : List App) (o : Observed) (now : ℕ) :
    (t.refresh apps o now).proc = (refresh t.proc apps o).2 := by
  obtain ⟨hid, hproc⟩ := running_proc t o now
  simp only [TimedProc.refresh, refresh]
  rw [hid, hproc]
  split <;> rfl

end

/-! ## Guards -/

/-- `active_session_guard_t`. -/
structure Guard where
  hasActiveApp : Bool
  appId : ℤ
  clientUuid : String
  launchStartedAt : ℕ
  deriving DecidableEq, Repr

/-- `active_session_guard`. -/
def activeSessionGuard (t : TimedProc) : Guard where
  hasActiveApp := 0 < t.proc.appId
  appId := if 0 < t.proc.appId then t.proc.appId else 0
  clientUuid := if 0 < t.proc.appId then t.clientUuid else ""
  launchStartedAt := t.launchTime

/-- The comparison of `terminate_if_active_session`. -/
def Guard.Names (g : Guard) (t : TimedProc) : Prop :=
  t.proc.appId = g.appId ∧ t.launchTime = g.launchStartedAt ∧ t.clientUuid = g.clientUuid

instance (g : Guard) (t : TimedProc) : Decidable (g.Names t) :=
  inferInstanceAs (Decidable (_ ∧ _ ∧ _))

/-- `terminate_if_active_session`. -/
def terminateIfActiveSession (t : TimedProc) (g : Guard) : Bool × TimedProc :=
  if g.Names t then (true, t.terminate) else (false, t)

/-! ## Histories -/

/-- `captured` are the guards, each with the number of the launch it was captured in. -/
structure History where
  timed : TimedProc
  clock : ℕ := 0
  captured : List (Guard × ℕ) := []
  deriving DecidableEq, Repr

def History.initial (apps : List App) : History := { timed := { proc := { apps } } }

/-- The number of the current launch, or the last. -/
def History.launch (h : History) : ℕ := h.timed.proc.runs

/-- `elapsed` is the time since the call before. -/
inductive Call where
  | execute (appId : ℤ) (clientUuid : String) (noSession : Bool) (outcomes : Outcomes)
      (elapsed : ℕ)
  | running (o : Observed) (elapsed : ℕ)
  | terminate
  | updateApps (apps : List App)
  | refresh (apps : List App) (o : Observed) (elapsed : ℕ)
  | activeSessionGuard
  | terminateIfActiveSession (g : Guard)
  deriving DecidableEq, Repr

/-- A call that reads the clock. -/
def History.timedCall (h : History) (elapsed : ℕ) (f : ℕ → TimedProc) : History :=
  { h with timed := f (h.clock + elapsed + 1), clock := h.clock + elapsed + 1 }

def step (h : History) : Call → Option History
  | .execute appId clientUuid noSession outcomes elapsed =>
      some (h.timedCall elapsed (h.timed.execute appId clientUuid noSession outcomes))
  | .running o elapsed => some (h.timedCall elapsed fun now => (h.timed.running o now).2)
  | .terminate => some { h with timed := h.timed.terminate }
  | .updateApps apps => some { h with timed := { h.timed with proc := { h.timed.proc with apps } } }
  | .refresh apps o elapsed => some (h.timedCall elapsed (h.timed.refresh apps o))
  | .activeSessionGuard =>
      some { h with captured := (activeSessionGuard h.timed, h.launch) :: h.captured }
  | .terminateIfActiveSession g => some { h with timed := (terminateIfActiveSession h.timed g).2 }

/-- **What a guard may do.**  A guard captured in another launch returns false and changes
nothing. -/
def SparesOthers (h : History) : Prop :=
  ∀ e ∈ h.captured, e.1.hasActiveApp = true → e.2 ≠ h.launch →
    terminateIfActiveSession h.timed e.1 = (false, h.timed)

instance (h : History) : Decidable (SparesOthers h) :=
  inferInstanceAs (Decidable (∀ _ ∈ _, _ → _ → _))

/-- The call makes a launch wait for a sign-in. -/
def Defers (h : History) (appId : ℤ) (noSession : Bool) : Bool :=
  noSession && (h.timed.proc.apps.find? (·.id = toString appId)).any requiresUserSession

/-- **The condition.**  No launch waits for a sign-in if a guard was captured while an earlier
launch of that app by that client waited. -/
def Meets (h : History) : Call → Prop
  | .execute appId clientUuid noSession _ _ =>
      Defers h appId noSession = true → ∀ e ∈ h.captured,
        ¬(e.1.hasActiveApp = true ∧ e.1.appId = appId ∧ e.1.clientUuid = clientUuid ∧
          e.1.launchStartedAt = 0)
  | _ => True

/-! ## What a call does to a launch -/

/-- The call leaves the launch alone, ends it, or completes one; and no launch is forgotten. -/
structure Moves (t t' : TimedProc) (now : ℕ) : Prop where
  runs : t.proc.runs ≤ t'.proc.runs
  launch : (t'.proc.appId = t.proc.appId ∧ t'.launchTime = t.launchTime ∧
      t'.clientUuid = t.clientUuid ∧ t'.proc.runs = t.proc.runs) ∨
    (t'.proc.appId ≤ 0 ∧ t'.launchTime = 0) ∨ t'.launchTime = now

section Moves

variable {t t' t'' : TimedProc} {now : ℕ}

theorem Moves.trans (h : Moves t t' now) (h' : Moves t' t'' now) : Moves t t'' now := by
  refine ⟨h.runs.trans h'.runs, ?_⟩
  rcases h'.launch with ⟨happ, htime, hclient, hruns⟩ | hended | hcompleted
  · rw [happ, htime, hclient, hruns]
    exact h.launch
  · exact .inr (.inl hended)
  · exact .inr (.inr hcompleted)

/-- The launch stays what it is. -/
theorem Moves.same (happ : t'.proc.appId = t.proc.appId) (htime : t'.launchTime = t.launchTime)
    (hclient : t'.clientUuid = t.clientUuid) (hruns : t'.proc.runs = t.proc.runs) :
    Moves t t' now := ⟨hruns.ge, .inl ⟨happ, htime, hclient, hruns⟩⟩

theorem moves_terminate : Moves t t.terminate now :=
  ⟨le_rfl, .inr (.inl ⟨by simp [TimedProc.terminate, terminate], rfl⟩)⟩

theorem runs_launchAppCommands (p : Proc) (outcomes : Outcomes) :
    (launchAppCommands p outcomes).2.2.runs = p.runs := by
  have hstart : ∀ (p started : Proc), startApp p outcomes = some started →
      started.runs = p.runs := by
    intro p started h
    simp only [startApp] at h
    repeat' split at h
    all_goals cases h
    all_goals rfl
  simp only [launchAppCommands]
  split
  · rename_i started h
    split at h
    · exact (hstart _ _ h).trans rfl
    · cases h
  · rfl

/-- A failed launch ends as no app. -/
theorem appId_of_launch_fails {p p' : Proc} {outcomes : Outcomes} {es : List Event}
    (h : launchAppCommands p outcomes = (es, false, p')) : p'.appId = -1 := by
  simp only [launchAppCommands] at h
  split at h
  · simp at h
  · obtain rfl := congrArg (fun result => result.2.2) h
    rfl

/-- A launch fails and is ended, or it completes. -/
theorem launchAppCommands_cases (t : TimedProc) (outcomes : Outcomes) (now : ℕ) :
    (t.launchAppCommands outcomes now).2.proc.runs = t.proc.runs ∧
      (((t.launchAppCommands outcomes now).2.proc.appId ≤ 0 ∧
        (t.launchAppCommands outcomes now).2.launchTime = 0) ∨
        (t.launchAppCommands outcomes now).2.launchTime = now) := by
  have hruns := runs_launchAppCommands t.proc outcomes
  simp only [TimedProc.launchAppCommands]
  split
  · rename_i heq
    rw [heq] at hruns
    exact ⟨hruns, .inr rfl⟩
  · rename_i heq
    rw [heq] at hruns
    exact ⟨hruns, .inl ⟨by rw [appId_of_launch_fails heq]; decide, rfl⟩⟩

theorem moves_launchAppCommands (t : TimedProc) (outcomes : Outcomes) (now : ℕ) :
    Moves t (t.launchAppCommands outcomes now).2 now :=
  ⟨(launchAppCommands_cases t outcomes now).1.ge, .inr (launchAppCommands_cases t outcomes now).2⟩

theorem moves_runningTracked (t : TimedProc) (o : Observed) (now : ℕ) :
    Moves t (t.runningTracked o).2 now := by
  simp only [TimedProc.runningTracked]
  repeat' split
  · exact .same rfl rfl rfl rfl
  · exact .same rfl rfl rfl rfl
  · exact moves_terminate
  · exact .same rfl rfl rfl rfl

theorem moves_running (t : TimedProc) (o : Observed) (now : ℕ) :
    Moves t (t.running o now).2 now := by
  have hlaunch := moves_launchAppCommands
    { t with proc := { t.proc with deferredLaunch := false } } o.outcomes now
  have hresumed : Moves t { t with proc := { t.proc with deferredLaunch := false } } now :=
    .same rfl rfl rfl rfl
  simp only [TimedProc.running]
  split
  · split
    · split
      · rename_i heq
        rw [heq] at hlaunch
        exact (hresumed.trans hlaunch).trans (moves_runningTracked _ o now)
      · rename_i heq
        rw [heq] at hlaunch
        exact hresumed.trans hlaunch
    · exact .same rfl rfl rfl rfl
  · exact moves_runningTracked t o now

theorem moves_refresh (t : TimedProc) (apps : List App) (o : Observed) (now : ℕ) :
    Moves t (t.refresh apps o now) now := by
  have hrunning := moves_running t o now
  simp only [TimedProc.refresh]
  split
  · exact hrunning.trans (.same rfl rfl rfl rfl)
  · exact ⟨hrunning.runs, .inr (.inl ⟨le_rfl, rfl⟩)⟩

/-- An execution that does not wait ends the launch before it, and completes its own or none. -/
theorem moves_execute {appId : ℤ} {noSession : Bool}
    (h : (noSession && (t.proc.apps.find? (·.id = toString appId)).any requiresUserSession) = false)
    (clientUuid : String) (outcomes : Outcomes) :
    Moves t (t.execute appId clientUuid noSession outcomes now) now := by
  have happs : t.terminate.proc.apps = t.proc.apps := rfl
  simp only [TimedProc.execute, happs]
  cases hfind : t.proc.apps.find? (·.id = toString appId) with
  | none => exact moves_terminate
  | some app =>
      rw [hfind, Option.any_some] at h
      simp only [h, Bool.false_eq_true, if_false]
      obtain ⟨hruns, hlaunch⟩ := launchAppCommands_cases
        { t.terminate with proc := enter t.terminate.proc appId app, clientUuid } outcomes now
      exact ⟨(Nat.le_succ _).trans hruns.ge, .inr hlaunch⟩

/-- One that waits has no time yet. -/
theorem execute_of_defers {appId : ℤ} {noSession : Bool}
    (h : (noSession && (t.proc.apps.find? (·.id = toString appId)).any requiresUserSession) = true)
    (clientUuid : String) (outcomes : Outcomes) (now : ℕ) :
    (t.execute appId clientUuid noSession outcomes now).proc.appId = appId ∧
      (t.execute appId clientUuid noSession outcomes now).clientUuid = clientUuid ∧
      (t.execute appId clientUuid noSession outcomes now).launchTime = 0 ∧
      (t.execute appId clientUuid noSession outcomes now).proc.runs = t.proc.runs + 1 := by
  have happs : t.terminate.proc.apps = t.proc.apps := rfl
  simp only [TimedProc.execute, happs]
  cases hfind : t.proc.apps.find? (·.id = toString appId) with
  | none =>
      rw [hfind] at h
      simp at h
  | some app =>
      rw [hfind, Option.any_some] at h
      simp only
      rw [if_pos h]
      exact ⟨rfl, rfl, rfl, rfl⟩

end Moves

/-! ## The invariant -/

/-- Guards are of launches that were active, no later than now, and spare the others. -/
structure Inv (h : History) : Prop where
  launchTime : h.timed.launchTime ≤ h.clock
  guards : ∀ e ∈ h.captured, e.1.hasActiveApp = true →
    0 < e.1.appId ∧ e.1.launchStartedAt ≤ h.clock ∧ e.2 ≤ h.launch
  spares : ∀ e ∈ h.captured, e.1.hasActiveApp = true → e.1.Names h.timed → e.2 = h.launch

theorem sparesOthers_iff (h : History) :
    SparesOthers h ↔
      ∀ e ∈ h.captured, e.1.hasActiveApp = true → e.1.Names h.timed → e.2 = h.launch := by
  refine forall_congr' fun e => forall_congr' fun _ => forall_congr' fun _ => ?_
  simp only [terminateIfActiveSession]
  by_cases hnames : e.1.Names h.timed
  · simp [hnames]
  · simp [hnames]

section

variable {h : History}

/-- A call that only moves the launch. -/
theorem Inv.moves {t' : TimedProc} {now : ℕ} (hinv : Inv h) (hnow : h.clock < now)
    (hmoves : Moves h.timed t' now) : Inv { h with timed := t', clock := now } := by
  refine ⟨?_, fun e he hactive => ?_, fun e he hactive hnames => ?_⟩
  · rcases hmoves.launch with ⟨-, htime, -⟩ | ⟨-, htime⟩ | htime
    · exact htime ▸ hinv.launchTime.trans hnow.le
    · exact htime ▸ Nat.zero_le now
    · exact htime.le
  · obtain ⟨happ, htime, hrun⟩ := hinv.guards e he hactive
    exact ⟨happ, htime.trans hnow.le, hrun.trans hmoves.runs⟩
  · obtain ⟨happ, htime, -⟩ := hinv.guards e he hactive
    rcases hmoves.launch with ⟨happ', htime', hclient', hruns'⟩ | ⟨happ', -⟩ | htime'
    · refine (hinv.spares e he hactive ?_).trans hruns'.symm
      exact ⟨happ' ▸ hnames.1, htime' ▸ hnames.2.1, hclient' ▸ hnames.2.2⟩
    · have := hnames.1
      dsimp only at this
      omega
    · -- a launch that completes now is later than every guard
      have := hnames.2.1
      dsimp only at this
      omega

/-- A launch that waits, when no guard was captured while such a one waited. -/
theorem Inv.defers (hinv : Inv h) {appId : ℤ} {clientUuid : String} {noSession : Bool}
    {outcomes : Outcomes} {elapsed : ℕ} (hdefers : Defers h appId noSession = true)
    (hmeets : Meets h (.execute appId clientUuid noSession outcomes elapsed)) :
    Inv (h.timedCall elapsed (h.timed.execute appId clientUuid noSession outcomes)) := by
  obtain ⟨happ, hclient, htime, hruns⟩ :=
    execute_of_defers hdefers clientUuid outcomes (h.clock + elapsed + 1)
  refine ⟨?_, fun e he hactive => ?_, fun e he hactive hnames => ?_⟩
  · exact htime ▸ Nat.zero_le _
  · obtain ⟨hpos, hstarted, hrun⟩ := hinv.guards e he hactive
    refine ⟨hpos, ?_, ?_⟩
    · simp only [History.timedCall]
      omega
    · simp only [History.launch, History.timedCall, hruns] at hrun ⊢
      omega
  · obtain ⟨hnapp, hntime, hnclient⟩ := hnames
    exact absurd ⟨hactive, hnapp.symm.trans happ, hnclient.symm.trans hclient,
      hntime.symm.trans htime⟩ (hmeets hdefers e he)

/-- Otherwise that guard is also the new launch's. -/
theorem not_spares_of_defers (hinv : Inv h) {appId : ℤ} {clientUuid : String} {noSession : Bool}
    {outcomes : Outcomes} {elapsed : ℕ}
    (hmeets : ¬Meets h (.execute appId clientUuid noSession outcomes elapsed)) :
    ¬SparesOthers (h.timedCall elapsed (h.timed.execute appId clientUuid noSession outcomes)) := by
  simp only [Meets, not_forall, not_not] at hmeets
  obtain ⟨hdefers, e, he, hactive, happ, hclient, htime⟩ := hmeets
  obtain ⟨happ', hclient', htime', hruns'⟩ :=
    execute_of_defers hdefers clientUuid outcomes (h.clock + elapsed + 1)
  obtain ⟨-, -, hrun⟩ := hinv.guards e he hactive
  rw [sparesOthers_iff]
  intro hspares
  have hsame := hspares e he hactive
    ⟨happ'.trans happ.symm, htime'.trans htime.symm, hclient'.trans hclient.symm⟩
  simp only [History.launch, History.timedCall, hruns'] at hsame hrun
  omega

theorem Inv.timedCall (hinv : Inv h) (elapsed : ℕ) {f : ℕ → TimedProc}
    (hmoves : Moves h.timed (f (h.clock + elapsed + 1)) (h.clock + elapsed + 1)) :
    Inv (h.timedCall elapsed f) :=
  hinv.moves (by omega) hmoves

/-- A call that takes no time. -/
theorem Inv.untimed (hinv : Inv h) {t' : TimedProc} (hmoves : ∀ now, Moves h.timed t' now)
    (htime : t'.launchTime ≤ h.clock) : Inv { h with timed := t' } := by
  have hlater := hinv.moves (Nat.lt_succ_self h.clock) (hmoves (h.clock + 1))
  refine ⟨htime, fun e he hactive => ?_, hlater.spares⟩
  obtain ⟨hpos, hstarted, -⟩ := hinv.guards e he hactive
  exact ⟨hpos, hstarted, (hlater.guards e he hactive).2.2⟩

theorem Inv.activeSessionGuard (hinv : Inv h) :
    Inv { h with captured := (activeSessionGuard h.timed, h.launch) :: h.captured } := by
  refine ⟨hinv.launchTime, ?_, ?_⟩
  · intro e he hactive
    rcases List.mem_cons.mp he with rfl | he
    · have hpos : 0 < h.timed.proc.appId := by
        simpa [SessionGuard.activeSessionGuard] using hactive
      refine ⟨?_, hinv.launchTime, le_rfl⟩
      simp [SessionGuard.activeSessionGuard, hpos]
    · exact hinv.guards e he hactive
  · intro e he hactive hnames
    rcases List.mem_cons.mp he with rfl | he
    · rfl
    · exact hinv.spares e he hactive hnames

theorem inv_step {c : Call} {h' : History} (hinv : Inv h) (hmeets : Meets h c)
    (hstep : step h c = some h') : Inv h' := by
  cases c with
  | execute appId clientUuid noSession outcomes elapsed =>
      obtain rfl := Option.some.inj hstep
      cases hdefers : Defers h appId noSession with
      | true => exact hinv.defers hdefers hmeets
      | false => exact hinv.timedCall elapsed (moves_execute hdefers clientUuid outcomes)
  | running o elapsed =>
      obtain rfl := Option.some.inj hstep
      exact hinv.timedCall elapsed (moves_running _ _ _)
  | terminate =>
      obtain rfl := Option.some.inj hstep
      exact hinv.untimed (fun _ => moves_terminate) (Nat.zero_le _)
  | updateApps apps =>
      obtain rfl := Option.some.inj hstep
      exact hinv.untimed (fun _ => .same rfl rfl rfl rfl) hinv.launchTime
  | refresh apps o elapsed =>
      obtain rfl := Option.some.inj hstep
      exact hinv.timedCall elapsed (moves_refresh _ _ _ _)
  | activeSessionGuard =>
      obtain rfl := Option.some.inj hstep
      exact hinv.activeSessionGuard
  | terminateIfActiveSession g =>
      obtain rfl := Option.some.inj hstep
      simp only [SessionGuard.terminateIfActiveSession]
      split
      · exact hinv.untimed (fun _ => moves_terminate) (Nat.zero_le _)
      · exact hinv

theorem not_spares_step {c : Call} {h' : History} (hinv : Inv h) (hmeets : ¬Meets h c)
    (hstep : step h c = some h') : ¬SparesOthers h' := by
  cases c with
  | execute appId clientUuid noSession outcomes elapsed =>
      obtain rfl := Option.some.inj hstep
      exact not_spares_of_defers hinv hmeets
  | _ => exact absurd trivial hmeets

end

theorem inv_initial (apps : List App) : Inv (.initial apps) where
  launchTime := le_rfl
  guards e he := absurd he (by simp [History.initial])
  spares e he := absurd he (by simp [History.initial])

/-- No call is refused. -/
theorem run_isSome (h : History) (calls : List Call) : ∃ h', run step h calls = some h' := by
  induction calls generalizing h with
  | nil => exact ⟨h, rfl⟩
  | cons c calls ih =>
      have hstep : ∃ h', step h c = some h' := by
        cases c <;> exact ⟨_, rfl⟩
      obtain ⟨h', hstep⟩ := hstep
      rw [run_cons, hstep, Option.bind_some]
      exact ih h'

/-- **A cleanup that is delayed ends its own launch only**, in every history of calls, exactly
if no launch waits for a sign-in after a guard was captured while an earlier launch of that app by
that client waited. -/
theorem guards_spare_others_iff (apps : List App) (calls : List Call) :
    Always step SparesOthers (.initial apps) calls ↔ RunMeets step Meets (.initial apps) calls := by
  obtain ⟨h, hrun⟩ := run_isSome (.initial apps) calls
  exact always_iff_runMeets (fun h hinv => (sparesOthers_iff h).mpr hinv.spares)
    (fun _ _ _ hinv hmeets hstep => inv_step hinv hmeets hstep)
    (fun _ _ _ hinv hmeets hstep => not_spares_step hinv hmeets hstep) (inv_initial apps) hrun

/-- An app is launched twice for a client while nobody has signed in; a guard is captured after
the first launch. -/
def launchedTwice : List Call :=
  [.execute 5 "client" true ⟨[], true, true⟩ 0, .activeSessionGuard,
    .execute 5 "client" true ⟨[], true, true⟩ 0]

theorem guard_ends_later_launch :
    ¬Always step SparesOthers (.initial [{ id := "5", cmd := "game.exe" }]) launchedTwice := by
  intro h
  exact absurd (h 3 _ rfl) (by decide)

end LuminalShine.Process.SessionGuard
