import LuminalShine.Lib.Brackets
import Mathlib.Data.Int.Notation

/-!
# Launching and ending an app

`proc_t::execute`, `launch_app_commands`, `running`, `terminate`, `update_apps` and the function
`refresh` of `src/process.cpp`, in the Windows build.  Each holds the lifecycle mutex, so a call
is one step.  How commands and processes behave is an input; the lists that `refresh` parses are
too.  The events record which prep commands were started, passed and undone.

## Main definitions

* `Proc` — the fields of `proc_t` that decide what is undone.
* `terminate`, `launchAppCommands`, `execute`, `running`, `refresh` — the functions.
* `State`, `Call`, `step` — histories of calls.
-/

namespace LuminalShine.Process

/-! ## Apps and the process object -/

/-- `cmd_t`. -/
structure Cmd where
  doCmd : String
  undoCmd : String
  deriving DecidableEq, Repr

/-- `ctx_t`. -/
structure App where
  id : String := ""
  cmd : String := ""
  prepCmds : List Cmd := []
  detached : List String := []
  playniteId : String := ""
  playniteFullscreen : Bool := false
  waitAll : Bool := false
  autoDetach : Bool := false
  deriving DecidableEq, Repr

/-- `process` says whether `_process` is valid; `runs` counts the apps that were executed. -/
structure Proc where
  appId : ℤ := 0
  apps : List App := []
  app : App := {}
  placebo : Bool := false
  deferredLaunch : Bool := false
  process : Bool := false
  completedPrepCmds : ℕ := 0
  runs : ℕ := 0
  deriving DecidableEq, Repr

/-- What is done to the prep command `index` of a run, and what is reported.  `passed` carries
whether the command has an undo command. -/
inductive Event where
  | doStarted (run index : ℕ)
  | passed (run index : ℕ) (hasUndo : Bool)
  | undoStarted (run index : ℕ)
  | notRunning
  | replaced
  deriving DecidableEq, Repr

/-! ## The end of an app -/

/-- The undo commands of the first `completed` prep commands, the last one first. -/
def undoLoop (run : ℕ) (prepCmds : List Cmd) : ℕ → List Event
  | 0 => []
  | index + 1 =>
      (match prepCmds[index]? with
        | some cmd => if cmd.undoCmd = "" then [] else [.undoStarted run index]
        | none => []) ++ undoLoop run prepCmds index

/-- `terminate`: what it starts and what it leaves. -/
def terminate (p : Proc) : List Event × Proc :=
  (undoLoop p.runs p.app.prepCmds (min p.completedPrepCmds p.app.prepCmds.length),
    { p with
      appId := -1
      placebo := false
      deferredLaunch := false
      process := false
      completedPrepCmds := 0 })

/-! ## The launch -/

/-- How the commands of a launch turn out: the do commands in order, a missing one failing;
then the command or the Playnite helper, and the Playnite URI. -/
structure Outcomes where
  prepPasses : List Bool
  commandStarts : Bool
  uriStarts : Bool
  deriving DecidableEq, Repr

/-- What the prep loop does, where it ends, and whether it got past the last command. -/
structure PrepResult where
  events : List Event
  completed : ℕ
  passed : Bool
  deriving DecidableEq, Repr

def PrepResult.cons (es : List Event) (result : PrepResult) : PrepResult :=
  { result with events := es ++ result.events }

/-- The prep loop over the commands from `index` on. -/
def prepLoop (run : ℕ) : List Cmd → ℕ → List Bool → PrepResult
  | [], index, _ => ⟨[], index, true⟩
  | cmd :: cmds, index, outcomes =>
      if cmd.doCmd = "" then
        (prepLoop run cmds (index + 1) outcomes).cons [.passed run index (cmd.undoCmd ≠ "")]
      else
        match outcomes with
        | true :: outcomes =>
            (prepLoop run cmds (index + 1) outcomes).cons
              [.doStarted run index, .passed run index (cmd.undoCmd ≠ "")]
        | _ => ⟨[.doStarted run index], index, false⟩

section
variable {run index : ℕ} {cmd : Cmd} {cmds : List Cmd}

theorem prepLoop_of_empty (hdo : cmd.doCmd = "") (outcomes : List Bool) :
    prepLoop run (cmd :: cmds) index outcomes =
      (prepLoop run cmds (index + 1) outcomes).cons [.passed run index (cmd.undoCmd ≠ "")] := by
  simp [prepLoop, hdo]

theorem prepLoop_of_passes (hdo : cmd.doCmd ≠ "") (outcomes : List Bool) :
    prepLoop run (cmd :: cmds) index (true :: outcomes) =
      (prepLoop run cmds (index + 1) outcomes).cons
        [.doStarted run index, .passed run index (cmd.undoCmd ≠ "")] := by
  simp [prepLoop, hdo]

theorem prepLoop_of_fails (hdo : cmd.doCmd ≠ "") {outcomes : List Bool}
    (hfails : outcomes.head? ≠ some true) :
    prepLoop run (cmd :: cmds) index outcomes = ⟨[.doStarted run index], index, false⟩ := by
  match outcomes with
  | [] => simp [prepLoop, hdo]
  | false :: _ => simp [prepLoop, hdo]
  | true :: _ => exact absurd rfl hfails

end

/-- Behind the prep commands: the process that is tracked, if any, or `none` if nothing could
be started. -/
def startApp (p : Proc) (outcomes : Outcomes) : Option Proc :=
  if p.app.playniteId ≠ "" ∧ p.app.cmd = "" then
    -- the URI is a fallback that leaves no process to track
    if outcomes.commandStarts || outcomes.uriStarts then
      some { p with process := outcomes.commandStarts, placebo := false }
    else none
  else if p.app.playniteFullscreen then
    if outcomes.commandStarts then some { p with process := true, placebo := false } else none
  else if p.app.cmd = "" then some { p with placebo := true }
  else if outcomes.commandStarts then some { p with process := true } else none

/-- `launch_app_commands`; a failure terminates what was started. -/
def launchAppCommands (p : Proc) (outcomes : Outcomes) : List Event × Bool × Proc :=
  let prep := prepLoop p.runs (p.app.prepCmds.drop p.completedPrepCmds) p.completedPrepCmds
    outcomes.prepPasses
  let prepared := { p with completedPrepCmds := prep.completed }
  match if prep.passed then startApp prepared outcomes else none with
  | some started => (prep.events, true, started)
  | none => (prep.events ++ (terminate prepared).1, false, (terminate prepared).2)

def requiresUserSession (app : App) : Bool :=
  app.prepCmds ≠ [] || app.detached ≠ [] || app.cmd ≠ "" || app.playniteId ≠ "" ||
    app.playniteFullscreen

/-- The record of a run before its first command. -/
def enter (p : Proc) (appId : ℤ) (app : App) : Proc :=
  { p with
    appId
    app
    completedPrepCmds := 0
    runs := p.runs + 1 }

/-- `execute`; `noSession` says that the host runs as a service and nobody has signed in. -/
def execute (p : Proc) (appId : ℤ) (noSession : Bool) (outcomes : Outcomes) :
    List Event × Proc :=
  let (undone, p) := terminate p
  match p.apps.find? (·.id = toString appId) with
  | none => (undone ++ [.notRunning], p)
  | some app =>
      if noSession && requiresUserSession app then
        (undone, { enter p appId app with deferredLaunch := true })
      else
        match launchAppCommands (enter p appId app) outcomes with
        | (es, true, p) => (undone ++ es, p)
        | (es, false, p) => (undone ++ es ++ [.notRunning], p)

/-! ## Whether the app runs -/

/-- What a call of `running` sees: whether a user has signed in, the process and its group,
and whether the app was launched less than 5 s ago.  `outcomes` are those of a launch that was
deferred. -/
structure Observed where
  sessionReady : Bool
  groupRunning : Bool
  processRunning : Bool
  exitedZero : Bool
  justLaunched : Bool
  outcomes : Outcomes
  deriving DecidableEq, Repr

/-- The process that exited counts as detached; an invalid `_process` has exit code 0. -/
def detachedExit (p : Proc) (o : Observed) : Bool :=
  p.app.autoDetach && (!p.process || o.exitedZero) && o.justLaunched

/-- The app is running, as far as the call can tell. -/
def tracked (p : Proc) (o : Observed) : Bool :=
  p.placebo || (p.app.waitAll && o.groupRunning) || (p.process && o.processRunning)

/-- The part of `running` behind the deferred launch: what it does, what it returns and what
it leaves. -/
def runningTracked (p : Proc) (o : Observed) : List Event × ℤ × Proc :=
  if tracked p o then ([], p.appId, p)
  else if detachedExit p o then ([], p.appId, { p with placebo := true })
  else if p.process then ((terminate p).1, 0, (terminate p).2)
  else ([], 0, p)

/-- `running`. -/
def running (p : Proc) (o : Observed) : List Event × ℤ × Proc :=
  if p.deferredLaunch then
    if o.sessionReady then
      match launchAppCommands { p with deferredLaunch := false } o.outcomes with
      | (es, true, p) => (es ++ (runningTracked p o).1, (runningTracked p o).2)
      | (es, false, p) => (es, 0, p)
    else ([], p.appId, p)
  else runningTracked p o

/-- The report of a call that returned `appId`. -/
def report (appId : ℤ) : List Event := if 0 < appId then [] else [.notRunning]

/-- `refresh` with the lists it has parsed.  The assignment leaves `_deferred_launch` alone. -/
def refresh (p : Proc) (apps : List App) (o : Observed) : List Event × Proc :=
  match running p o with
  | (es, appId, p) =>
      if 0 < appId then (es, { p with apps })
      else
        (es ++ [.notRunning, .replaced],
          { apps, deferredLaunch := p.deferredLaunch, runs := p.runs })

/-! ## Histories -/

structure State where
  proc : Proc
  trace : List Event
  deriving DecidableEq, Repr

def State.initial (apps : List App) : State := ⟨{ apps }, []⟩

inductive Call where
  | execute (appId : ℤ) (noSession : Bool) (outcomes : Outcomes)
  | running (o : Observed)
  | terminate
  | updateApps (apps : List App)
  | refresh (apps : List App) (o : Observed)
  deriving DecidableEq, Repr

/-- One call: what it records and what it leaves. -/
def call (p : Proc) : Call → List Event × Proc
  | .execute appId noSession outcomes => execute p appId noSession outcomes
  | .running o => match running p o with
      | (es, appId, p) => (es ++ report appId, p)
  | .terminate => terminate p
  | .updateApps apps => ([], { p with apps })
  | .refresh apps o => refresh p apps o

def step (s : State) (c : Call) : Option State :=
  some ⟨(call s.proc c).2, s.trace ++ (call s.proc c).1⟩

end LuminalShine.Process
