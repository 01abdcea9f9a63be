import LuminalShine.Lib.Simulation
import LuminalShine.Process.Launch
import Mathlib.Data.List.Basic

/-!
# Prep commands and their undo commands

A history is paired when every undo command that is started is that of the last prep command
not undone yet, when no prep command of an earlier run is outstanding at a do command, and none
at all when an app is reported as not running or the process object is replaced.  `running` can
return without `terminate` while it has nothing to track: `Keeps` says that then nothing is
outstanding.

## Main definitions

* `Paired` — the pairing, as brackets.
* `Keeps`, `Meets` — the condition on the calls.

## Main results

* `prep_undo_paired` — a history is paired exactly if its calls meet the condition.
-/

namespace LuminalShine.Process

open LuminalShine.Lib
open LuminalShine.Lib.Brackets

/-! ## Paired histories -/

/-- A prep command with an undo command is a bracket. -/
def Event.mark : Event → Option (Mark (ℕ × ℕ))
  | .doStarted run _ => some (.demands fun item => item.1 = run)
  | .passed run index true => some (.opens (run, index))
  | .passed _ _ false => none
  | .undoStarted run index => some (.closes (run, index))
  | .notRunning | .replaced => some (.demands fun _ => false)

def marks (es : List Event) : List (Mark (ℕ × ℕ)) := es.filterMap Event.mark

def Paired (trace : List Event) : Prop := (scan [] (marks trace)).isSome = true

instance (trace : List Event) : Decidable (Paired trace) :=
  inferInstanceAs (Decidable (_ = true))

/-- The prep commands to be undone, the last one first. -/
def pending (run : ℕ) (prepCmds : List Cmd) : ℕ → List (ℕ × ℕ)
  | 0 => []
  | index + 1 =>
      (match prepCmds[index]? with
        | some cmd => if cmd.undoCmd = "" then [] else [(run, index)]
        | none => []) ++ pending run prepCmds index

def outstanding (p : Proc) : List (ℕ × ℕ) := pending p.runs p.app.prepCmds p.completedPrepCmds

/-! ## The condition -/

/-- The record that the checks of `running` are made on, unless it returns before. -/
def checkedRecord (p : Proc) (o : Observed) : Option Proc :=
  if p.deferredLaunch then
    if o.sessionReady then
      match launchAppCommands { p with deferredLaunch := false } o.outcomes with
      | (_, true, p) => some p
      | (_, false, _) => none
    else none
  else some p

/-- The call returns no positive id and does not terminate: it has no process, or the id of the
app itself is not positive. -/
def abandons (p : Proc) (o : Observed) : Bool :=
  if tracked p o || detachedExit p o then p.appId ≤ 0 else !p.process

/-- What is abandoned has nothing to undo. -/
def Keeps (p : Proc) (o : Observed) : Prop :=
  ∀ q ∈ checkedRecord p o, abandons q o = true → outstanding q = []

instance (p : Proc) (o : Observed) : Decidable (Keeps p o) :=
  inferInstanceAs (Decidable (∀ q ∈ checkedRecord p o, abandons q o = true → outstanding q = []))

def Meets (s : State) : Call → Prop
  | .running o | .refresh _ o => Keeps s.proc o
  | .execute _ _ _ | .terminate | .updateApps _ => True

instance (s : State) : ∀ c, Decidable (Meets s c)
  | .running o | .refresh _ o => inferInstanceAs (Decidable (Keeps s.proc o))
  | .execute _ _ _ | .terminate | .updateApps _ => isTrue trivial

/-! ## The loops -/

variable {p p' : Proc} {o : Observed}

@[simp] theorem marks_passed_true (run index : ℕ) (es : List Event) :
    marks (.passed run index true :: es) = .opens (run, index) :: marks es := rfl

@[simp] theorem marks_passed_false (run index : ℕ) (es : List Event) :
    marks (.passed run index false :: es) = marks es := rfl

@[simp] theorem marks_undoStarted (run index : ℕ) (es : List Event) :
    marks (.undoStarted run index :: es) = .closes (run, index) :: marks es := rfl

theorem marks_append (es es' : List Event) : marks (es ++ es') = marks es ++ marks es' :=
  List.filterMap_append

/-- Only prep commands of one run are pending. -/
theorem all_pending (run : ℕ) (prepCmds : List Cmd) (n : ℕ) :
    (pending run prepCmds n).all (fun item => item.1 = run) = true := by
  induction n with
  | zero => rfl
  | succ index ih =>
      rw [pending, List.all_append, ih, Bool.and_true]
      split
      · split <;> simp
      · rfl

/-- The undo loop closes all of them, in order. -/
theorem scan_undoLoop (run : ℕ) (prepCmds : List Cmd) (n : ℕ) :
    scan (pending run prepCmds n) (marks (undoLoop run prepCmds n)) = some [] := by
  induction n with
  | zero => rfl
  | succ index ih =>
      cases hcmd : prepCmds[index]? with
      | none => simpa [pending, undoLoop, hcmd] using ih
      | some cmd =>
          by_cases hundo : cmd.undoCmd = ""
          · simpa [pending, undoLoop, hcmd, hundo] using ih
          · simpa [pending, undoLoop, hcmd, hundo] using ih

theorem pending_succ_of_undo {run index : ℕ} {prepCmds : List Cmd} {cmd : Cmd}
    (hcmd : prepCmds[index]? = some cmd) (hundo : cmd.undoCmd ≠ "") :
    pending run prepCmds (index + 1) = (run, index) :: pending run prepCmds index := by
  simp [pending, hcmd, hundo]

theorem pending_succ_of_no_undo {run index : ℕ} {prepCmds : List Cmd} {cmd : Cmd}
    (hcmd : prepCmds[index]? = some cmd) (hundo : cmd.undoCmd = "") :
    pending run prepCmds (index + 1) = pending run prepCmds index := by
  simp [pending, hcmd, hundo]

/-- A command that the loop gets past becomes pending. -/
theorem scan_passed {run index : ℕ} {prepCmds : List Cmd} {cmd : Cmd}
    (hcmd : prepCmds[index]? = some cmd) (es : List Event) :
    scan (pending run prepCmds index)
        (marks (.passed run index (cmd.undoCmd ≠ "") :: es)) =
      scan (pending run prepCmds (index + 1)) (marks es) := by
  by_cases hundo : cmd.undoCmd = ""
  · rw [pending_succ_of_no_undo hcmd hundo]
    simp [hundo]
  · rw [pending_succ_of_undo hcmd hundo]
    simp [hundo]

theorem scan_doStarted (run index : ℕ) (prepCmds : List Cmd) (es : List Event) :
    scan (pending run prepCmds index) (marks (.doStarted run index :: es)) =
      scan (pending run prepCmds index) (marks es) :=
  scan_demands_of_all (all_pending run prepCmds index) (marks es)

/-- The prep loop leaves pending what it got past. -/
theorem scan_prepLoop (run : ℕ) (prepCmds : List Cmd) (cmds : List Cmd) (index : ℕ)
    (outcomes : List Bool) (hdrop : prepCmds.drop index = cmds) (hindex : index ≤ prepCmds.length) :
    scan (pending run prepCmds index) (marks (prepLoop run cmds index outcomes).events) =
        some (pending run prepCmds (prepLoop run cmds index outcomes).completed) ∧
      (prepLoop run cmds index outcomes).completed ≤ prepCmds.length := by
  induction cmds generalizing index outcomes with
  | nil => exact ⟨rfl, hindex⟩
  | cons cmd cmds ih =>
      have hlt : index < prepCmds.length := by
        rw [← List.drop_eq_nil_iff.not.trans Nat.not_le, hdrop]
        exact List.cons_ne_nil cmd cmds
      have hcmd : prepCmds[index]? = some cmd := by
        rw [← Nat.add_zero index, ← List.getElem?_drop, hdrop]
        rfl
      have hrest : prepCmds.drop (index + 1) = cmds := by
        rw [← List.drop_drop, hdrop]
        rfl
      by_cases hdo : cmd.doCmd = ""
      · rw [prepLoop_of_empty hdo]
        have hpassed := ih (index + 1) outcomes hrest hlt
        exact ⟨(scan_passed hcmd _).trans hpassed.1, hpassed.2⟩
      · match outcomes with
        | true :: outcomes =>
            rw [prepLoop_of_passes hdo]
            have hpassed := ih (index + 1) outcomes hrest hlt
            refine ⟨?_, hpassed.2⟩
            exact (scan_doStarted run index prepCmds _).trans
              ((scan_passed hcmd _).trans hpassed.1)
        | [] =>
            rw [prepLoop_of_fails hdo (by simp)]
            exact ⟨scan_doStarted run index prepCmds [], hindex⟩
        | false :: _ =>
            rw [prepLoop_of_fails hdo (by simp)]
            exact ⟨scan_doStarted run index prepCmds [], hindex⟩

/-! ## The functions -/

/-- The count stays within the commands of the app, and nothing has been done for a launch that
is deferred. -/
structure WellFormed (p : Proc) : Prop where
  completed : p.completedPrepCmds ≤ p.app.prepCmds.length
  deferred : p.deferredLaunch = true → p.completedPrepCmds = 0

/-- A function that pairs what it does with what it leaves. -/
structure Pairs (p : Proc) (es : List Event) (p' : Proc) : Prop where
  wellFormed : WellFormed p'
  scan : Brackets.scan (outstanding p) (marks es) = some (outstanding p')

theorem Pairs.trans {q : Proc} {es es' : List Event} (h : Pairs p es p') (h' : Pairs p' es' q) :
    Pairs p (es ++ es') q where
  wellFormed := h'.wellFormed
  scan := by
    rw [marks_append, scan_append_of_eq_some h.scan]
    exact h'.scan

theorem outstanding_terminate (p : Proc) : outstanding (terminate p).2 = [] := rfl

theorem pairs_terminate (h : WellFormed p) : Pairs p (terminate p).1 (terminate p).2 where
  wellFormed := ⟨Nat.zero_le _, fun hdeferred => by cases hdeferred⟩
  scan := by
    rw [outstanding_terminate]
    simp only [terminate, Nat.min_eq_left h.completed]
    exact scan_undoLoop _ _ _

/-- Starting the app does not touch the prep commands. -/
theorem startApp_eq_some {outcomes : Outcomes} (h : startApp p outcomes = some p') :
    ∃ process placebo, p' = { p with process, placebo } := by
  unfold startApp at h
  split at h
  · split at h <;> cases h
    exact ⟨_, _, rfl⟩
  · split at h
    · split at h <;> cases h
      exact ⟨_, _, rfl⟩
    · split at h
      · cases h
        exact ⟨_, _, rfl⟩
      · split at h <;> cases h
        exact ⟨_, _, rfl⟩

/-- The record after the prep loop. -/
def prepared (p : Proc) (outcomes : Outcomes) : Proc :=
  { p with
    completedPrepCmds := (prepLoop p.runs (p.app.prepCmds.drop p.completedPrepCmds)
      p.completedPrepCmds outcomes.prepPasses).completed }

/-- A launch ends with the app started, or with everything undone. -/
theorem launchAppCommands_cases (h : WellFormed p) (hdeferred : p.deferredLaunch = false)
    (outcomes : Outcomes) :
    (∃ es q, launchAppCommands p outcomes = (es, true, q) ∧ Pairs p es q) ∨
      ∃ es q, launchAppCommands p outcomes = (es, false, q) ∧ Pairs p es q ∧
        outstanding q = [] := by
  have hprep := scan_prepLoop p.runs p.app.prepCmds _ p.completedPrepCmds outcomes.prepPasses rfl
    h.completed
  have hprepared : Pairs p (prepLoop p.runs (p.app.prepCmds.drop p.completedPrepCmds)
      p.completedPrepCmds outcomes.prepPasses).events (prepared p outcomes) :=
    ⟨⟨hprep.2, fun htrue => by simp [prepared, hdeferred] at htrue⟩, hprep.1⟩
  cases hstart : if (prepLoop p.runs (p.app.prepCmds.drop p.completedPrepCmds)
      p.completedPrepCmds outcomes.prepPasses).passed then startApp (prepared p outcomes) outcomes
      else none with
  | some q =>
      refine Or.inl ⟨(prepLoop p.runs (p.app.prepCmds.drop p.completedPrepCmds)
        p.completedPrepCmds outcomes.prepPasses).events, q, ?_, ?_⟩
      · simp only [launchAppCommands]
        rw [prepared] at hstart
        rw [hstart]
      · have hstarted : startApp (prepared p outcomes) outcomes = some q := by
          split at hstart
          · exact hstart
          · cases hstart
        obtain ⟨process, placebo, rfl⟩ := startApp_eq_some hstarted
        exact ⟨⟨hprepared.wellFormed.completed, hprepared.wellFormed.deferred⟩, hprepared.scan⟩
  | none =>
      refine Or.inr ⟨_, _, ?_, hprepared.trans (pairs_terminate hprepared.wellFormed), ?_⟩
      · simp only [launchAppCommands]
        rw [prepared] at hstart
        rw [hstart]
        rfl
      · exact outstanding_terminate _

/-! ## The calls -/

variable {q : Proc} {es : List Event}

theorem scan_report_of_nil (hq : outstanding q = []) {reports : List Event}
    (hreports : ∀ e ∈ reports, e = .notRunning ∨ e = .replaced) :
    scan (outstanding q) (marks reports) = some [] := by
  induction reports with
  | nil => simp [marks, hq]
  | cons e reports ih =>
      have hrest := ih fun e he => hreports e (List.mem_cons_of_mem _ he)
      rw [hq] at hrest ⊢
      cases hreports e List.mem_cons_self with
      | inl he => subst he; exact hrest
      | inr he => subst he; exact hrest

/-- A report is refused while anything is outstanding. -/
theorem scan_notRunning_of_ne_nil (hq : outstanding q ≠ []) (es : List Event) :
    scan (outstanding q) (marks (.notRunning :: es)) = none := by
  have hall : (outstanding q).all (fun _ => false) = false := by
    cases hitems : outstanding q with
    | nil => exact absurd hitems hq
    | cons item items => rfl
  exact scan_demands_of_not_all hall (marks es)

theorem Pairs.notRunning (h : Pairs p es q) (hq : outstanding q = []) :
    Pairs p (es ++ [.notRunning]) q where
  wellFormed := h.wellFormed
  scan := by
    rw [marks_append, scan_append_of_eq_some h.scan, scan_report_of_nil hq (by simp), hq]

/-- A new run starts with nothing outstanding. -/
theorem pairs_enter (hp : outstanding p = []) (appId : ℤ) (app : App) (deferred : Bool) :
    Pairs p [] { enter p appId app with deferredLaunch := deferred } where
  wellFormed := ⟨Nat.zero_le _, fun _ => rfl⟩
  scan := by
    rw [hp]
    rfl

theorem pairs_execute (h : WellFormed p) (appId : ℤ) (noSession : Bool) (outcomes : Outcomes) :
    Pairs p (execute p appId noSession outcomes).1 (execute p appId noSession outcomes).2 := by
  have hundone := pairs_terminate h
  have hnil := outstanding_terminate p
  simp only [execute]
  split
  · exact hundone.notRunning hnil
  next app _ =>
    split
    · simpa using hundone.trans (pairs_enter hnil appId app true)
    · have henter : Pairs p (terminate p).1 (enter (terminate p).2 appId app) := by
        have hfirst := hundone.trans (pairs_enter hnil appId app false)
        rw [List.append_nil] at hfirst
        exact hfirst
      cases launchAppCommands_cases henter.wellFormed rfl outcomes with
      | inl hstarted =>
          obtain ⟨es, q, hlaunch, hpairs⟩ := hstarted
          rw [hlaunch]
          exact henter.trans hpairs
      | inr hfailed =>
          obtain ⟨es, q, hlaunch, hpairs, hq⟩ := hfailed
          rw [hlaunch]
          exact (henter.trans hpairs).notRunning hq

/-! ### `running` -/

theorem pairs_runningTracked (h : WellFormed p) (o : Observed) :
    Pairs p (runningTracked p o).1 (runningTracked p o).2.2 := by
  simp only [runningTracked]
  split
  · exact ⟨h, rfl⟩
  · split
    · exact ⟨⟨h.completed, h.deferred⟩, rfl⟩
    · split
      · exact pairs_terminate h
      · exact ⟨h, rfl⟩

/-- The checks abandon what they neither terminate nor report as running. -/
theorem runningTracked_keeps_iff (p : Proc) (o : Observed) :
    (abandons p o = true → outstanding p = []) ↔
      ((runningTracked p o).2.1 ≤ 0 → outstanding (runningTracked p o).2.2 = []) := by
  cases htracked : tracked p o with
  | true => simp [abandons, runningTracked, htracked]
  | false =>
      cases hdetached : detachedExit p o with
      | true =>
          simp only [abandons, runningTracked, htracked, hdetached]
          simp [outstanding]
      | false =>
          cases hprocess : p.process with
          | true =>
              simp [abandons, runningTracked, htracked, hdetached, hprocess,
                outstanding_terminate]
          | false => simp [abandons, runningTracked, htracked, hdetached, hprocess]

theorem WellFormed.clear (h : WellFormed p) : WellFormed { p with deferredLaunch := false } :=
  ⟨h.completed, fun htrue => by cases htrue⟩

theorem pairs_running (h : WellFormed p) (o : Observed) :
    Pairs p (running p o).1 (running p o).2.2 := by
  cases hdeferred : p.deferredLaunch with
  | false => simpa [running, hdeferred] using pairs_runningTracked h o
  | true =>
      cases hready : o.sessionReady with
      | false => simpa [running, hdeferred, hready] using (⟨h, rfl⟩ : Pairs p [] p)
      | true =>
          cases launchAppCommands_cases h.clear rfl o.outcomes with
          | inl hstarted =>
              obtain ⟨es, q, hlaunch, hpairs⟩ := hstarted
              simp only [running, hdeferred, hready, hlaunch, if_true]
              exact Pairs.trans ⟨hpairs.wellFormed, hpairs.scan⟩
                (pairs_runningTracked hpairs.wellFormed o)
          | inr hfailed =>
              obtain ⟨es, q, hlaunch, hpairs, -⟩ := hfailed
              simp only [running, hdeferred, hready, hlaunch, if_true]
              exact ⟨hpairs.wellFormed, hpairs.scan⟩

/-- A call keeps its condition exactly if what it reports as not running has nothing
outstanding. -/
theorem keeps_iff (h : WellFormed p) (o : Observed) :
    Keeps p o ↔ ((running p o).2.1 ≤ 0 → outstanding (running p o).2.2 = []) := by
  cases hdeferred : p.deferredLaunch with
  | false => simpa [Keeps, checkedRecord, running, hdeferred] using runningTracked_keeps_iff p o
  | true =>
      cases hready : o.sessionReady with
      | false =>
          have hnil : outstanding p = [] := by
            rw [outstanding, h.deferred hdeferred]
            rfl
          simp [Keeps, checkedRecord, running, hdeferred, hready, hnil]
      | true =>
          cases launchAppCommands_cases h.clear rfl o.outcomes with
          | inl hstarted =>
              obtain ⟨es, q, hlaunch, -⟩ := hstarted
              simpa [Keeps, checkedRecord, running, hdeferred, hready, hlaunch]
                using runningTracked_keeps_iff q o
          | inr hfailed =>
              obtain ⟨es, q, hlaunch, -, hq⟩ := hfailed
              simp [Keeps, checkedRecord, running, hdeferred, hready, hlaunch, hq]

/-! ### One call -/

/-- A call that meets the condition is paired. -/
theorem pairs_call {s : State} (h : WellFormed s.proc) {c : Call} (hmeets : Meets s c) :
    Pairs s.proc (call s.proc c).1 (call s.proc c).2 := by
  cases c with
  | execute appId noSession outcomes => exact pairs_execute h appId noSession outcomes
  | terminate => exact pairs_terminate h
  | updateApps apps => exact ⟨⟨h.completed, h.deferred⟩, rfl⟩
  | running o =>
      have hpairs := pairs_running h o
      have hnil := (keeps_iff h o).mp hmeets
      by_cases hreport : 0 < (running s.proc o).2.1
      · simpa [call, report, hreport] using hpairs
      · simpa [call, report, hreport] using hpairs.notRunning (hnil (by omega))
  | refresh apps o =>
      have hpairs := pairs_running h o
      have hnil := (keeps_iff h o).mp hmeets
      by_cases hreport : 0 < (running s.proc o).2.1
      · simp only [call, refresh, hreport, if_true]
        exact ⟨⟨hpairs.wellFormed.completed, hpairs.wellFormed.deferred⟩, hpairs.scan⟩
      · simp only [call, refresh, hreport, if_false]
        refine ⟨⟨Nat.zero_le _, fun _ => rfl⟩, ?_⟩
        rw [marks_append, scan_append_of_eq_some hpairs.scan]
        exact scan_report_of_nil (hnil (by omega)) (by simp)

/-- A call that does not meet it reports, or drops, what is outstanding. -/
theorem scan_call_of_not_meets {s : State} (h : WellFormed s.proc) {c : Call}
    (hmeets : ¬ Meets s c) :
    scan (outstanding s.proc) (marks (call s.proc c).1) = none := by
  cases c with
  | execute appId noSession outcomes => exact absurd trivial hmeets
  | terminate => exact absurd trivial hmeets
  | updateApps apps => exact absurd trivial hmeets
  | running o =>
      have hpairs := pairs_running h o
      obtain ⟨hreport, hne⟩ := Classical.not_imp.mp ((keeps_iff h o).not.mp hmeets)
      simp only [call, report, if_neg (Int.not_lt.mpr hreport)]
      rw [marks_append, scan_append_of_eq_some hpairs.scan]
      exact scan_notRunning_of_ne_nil hne []
  | refresh apps o =>
      have hpairs := pairs_running h o
      obtain ⟨hreport, hne⟩ := Classical.not_imp.mp ((keeps_iff h o).not.mp hmeets)
      simp only [call, refresh, if_neg (Int.not_lt.mpr hreport)]
      rw [marks_append, scan_append_of_eq_some hpairs.scan]
      exact scan_notRunning_of_ne_nil hne [.replaced]

theorem wellFormed_call (h : WellFormed p) (c : Call) : WellFormed (call p c).2 := by
  cases c with
  | execute appId noSession outcomes => exact (pairs_execute h appId noSession outcomes).wellFormed
  | terminate => exact (pairs_terminate h).wellFormed
  | updateApps apps => exact ⟨h.completed, h.deferred⟩
  | running o => exact (pairs_running h o).wellFormed
  | refresh apps o =>
      have hrunning := (pairs_running h o).wellFormed
      by_cases hreport : 0 < (running p o).2.1
      · simp only [call, refresh, hreport, if_true]
        exact ⟨hrunning.completed, hrunning.deferred⟩
      · simp only [call, refresh, hreport, if_false]
        exact ⟨Nat.zero_le _, fun _ => rfl⟩

/-! ## Whole histories -/

/-- In a paired history the stack is what is outstanding. -/
structure Inv (s : State) : Prop where
  wellFormed : WellFormed s.proc
  scan : ∀ stack, Brackets.scan [] (marks s.trace) = some stack → stack = outstanding s.proc

theorem inv_initial (apps : List App) : Inv (.initial apps) where
  wellFormed := ⟨Nat.zero_le _, fun _ => rfl⟩
  scan := fun _ hstack => (Option.some.inj hstack).symm

theorem paired_iff_of_step {s s' : State} {c : Call} (hs : Inv s) (hstep : step s c = some s') :
    Paired s'.trace ↔ Paired s.trace ∧ Meets s c := by
  simp only [step, Option.some.injEq] at hstep
  subst hstep
  simp only [Paired, marks_append, scan_append]
  cases hscan : scan [] (marks s.trace) with
  | none => simp
  | some stack =>
      rw [hs.scan stack hscan]
      by_cases hmeets : Meets s c
      · simp [(pairs_call hs.wellFormed hmeets).scan, hmeets]
      · simp [scan_call_of_not_meets hs.wellFormed hmeets, hmeets]

theorem inv_step {s s' : State} {c : Call} (hs : Inv s) (hstep : step s c = some s') : Inv s' := by
  have hpaired := paired_iff_of_step hs hstep
  simp only [step, Option.some.injEq] at hstep
  subst hstep
  refine ⟨wellFormed_call hs.wellFormed c, fun stack hstack => ?_⟩
  have hmeets := hpaired.mp (Option.isSome_iff_exists.mpr ⟨stack, hstack⟩)
  obtain ⟨before, hbefore⟩ := Option.isSome_iff_exists.mp hmeets.1
  rw [marks_append, scan_append_of_eq_some hbefore, hs.scan before hbefore,
    (pairs_call hs.wellFormed hmeets.2).scan, Option.some.injEq] at hstack
  exact hstack.symm

theorem run_calls (s : State) (calls : List Call) : ∃ s', run step s calls = some s' := by
  induction calls generalizing s with
  | nil => exact ⟨s, rfl⟩
  | cons c calls ih => exact ih _

/-- A history is paired exactly if no call abandons an outstanding undo command; what was
opened in a paired history has then been undone once or is outstanding. -/
theorem prep_undo_paired (apps : List App) (calls : List Call) :
    ∃ s, run step (.initial apps) calls = some s ∧
      (Paired s.trace ↔ RunMeets step Meets (.initial apps) calls) ∧
      (Paired s.trace → ∀ item,
        ((marks s.trace).filterMap opened).count item =
          ((marks s.trace).filterMap closed).count item + (outstanding s.proc).count item) := by
  obtain ⟨s, hrun⟩ := run_calls (.initial apps) calls
  have hinv : Inv s := run_invariant (fun _ _ _ => inv_step) (inv_initial apps) hrun
  refine ⟨s, hrun, ?_, fun hpaired item => ?_⟩
  · have hverdict := run_verdict_iff (fun _ _ _ => inv_step)
      (fun _ _ _ => paired_iff_of_step) (inv_initial apps) hrun
    exact hverdict.trans (and_iff_right rfl)
  · obtain ⟨stack, hstack⟩ := Option.isSome_iff_exists.mp hpaired
    have hcount := count_opened hstack item
    rw [hinv.scan stack hstack] at hcount
    simpa using hcount

/-! ### The Playnite URI

The helper does not start and the game is opened over its URI: there is nothing to track, and
the next look at the app takes it for ended. -/

def game : App :=
  { id := "1", prepCmds := [⟨"mode 4k", "mode restore"⟩], playniteId := "g" }

def uriOnly : Outcomes := ⟨[true], false, true⟩

def played : Observed := ⟨true, false, false, true, false, uriOnly⟩

theorem prep_undo_not_paired :
    ∃ s, run step (.initial [game]) [.execute 1 false uriOnly, .refresh [game] played] = some s ∧
      .passed 1 0 true ∈ s.trace ∧ .undoStarted 1 0 ∉ s.trace ∧ .replaced ∈ s.trace ∧
      outstanding s.proc = [] ∧ ¬ Paired s.trace :=
  ⟨_, rfl, by decide⟩

end LuminalShine.Process
