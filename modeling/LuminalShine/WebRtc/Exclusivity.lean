import LuminalShine.Lib.Run
import Mathlib.Data.Int.Notation

/-!
# Browser capture beside Moonlight

`start_webrtc_capture` and its stops in `src/webrtc_stream.cpp`, the handlers `launch`, `resume`
and `cancel` of `src/nvhttp.cpp`, the pending launch of `src/rtsp.cpp` and the session counters
of `src/stream.cpp`, as one transition system.  A label is one read or write of shared memory,
or one critical section.  Threads that carry nothing but their place in the code are counted.

What owns the lifecycle coordinator is kept in `Owner`, with the place it has reached.  Which
cleanup carries a deferred obligation is an input here, and so is every failure of a launch or
of a capture start.  The process exit (`shutdown`, `rtsp_server_t::stop`) is left out.

## Main definitions

* `Site`, `program` — the threads that write `rtsp_sessions_active`, step by step.
* `State`, `Label`, `step` — the transition system.
* `State.launching` — the launches past their preemption step.
-/

namespace LuminalShine.WebRtc.Exclusivity

/-- `capture_start_allowed`. -/
def captureStartAllowed (rtspSessionsActive moonlightLaunchPending : Bool) : Bool :=
  !rtspSessionsActive && !moonlightLaunchPending

/-! ## Reconciliation of `rtsp_sessions_active` -/

/-- Where the flag is reconciled: the join of the last session, the guards of a handler that
did not hand off its launch, `cancel`, and the rollback of an unclaimed launch. -/
inductive Site where
  | join
  | abort (preempted : Bool)
  | cancel
  | rollback
  deriving DecidableEq, Repr

/-- All but the join hold `moonlight_launch_begin` until they leave. -/
@[simp] def Site.latched : Site → Bool
  | .join => false
  | .abort _ | .cancel | .rollback => true

/-- It ends a launch that has preempted the browser. -/
@[simp] def Site.ofLaunch : Site → Bool
  | .abort preempted => preempted
  | .rollback => true
  | .join | .cancel => false

/-- One operation; a test that fails skips the operations it guards. -/
inductive Op where
  | acquireCleanup (skip : ℕ)
  | validate (skip : ℕ)
  | testDeferred (skip : ℕ)
  | readIdle (skip : ℕ)
  | lower
  | readBusy (skip : ℕ)
  | restore
  deriving DecidableEq, Repr

def Op.isAcquire : Op → Bool
  | .acquireCleanup _ => true
  | _ => false

/-- `testDeferred` and the store behind it are `complete_deferred_global_cleanup`; before it the
rollback gives up where it finds another application running. -/
def program : Site → List Op
  | .join => [.acquireCleanup 2, .validate 1, .lower]
  | .abort _ => [.acquireCleanup 2, .testDeferred 1, .lower, .readIdle 1, .lower]
  | .cancel => [.readIdle 3, .lower, .readBusy 1, .restore, .acquireCleanup 3, .validate 2,
      .testDeferred 1, .lower]
  | .rollback => [.validate 8, .acquireCleanup 7, .validate 6, .testDeferred 1, .lower,
      .readIdle 3, .lower, .readBusy 1, .restore]

structure Reconciler where
  site : Site
  pc : ℕ := 0
  deferred : Bool := false
  deriving DecidableEq, Repr

namespace Reconciler

def op (r : Reconciler) : Option Op := (program r.site)[r.pc]?

/-- On to the next operation, or past those that the test guards. -/
def jump (r : Reconciler) (test : Bool) (skip : ℕ) : Reconciler :=
  { r with pc := r.pc + 1 + if test then 0 else skip }

def latched (r : Reconciler) : Bool := r.site.latched

def ofLaunch (r : Reconciler) : Bool := r.site.ofLaunch

@[simp] theorem latched_mk (site : Site) (pc : ℕ) (deferred : Bool) :
    (Reconciler.mk site pc deferred).latched = site.latched := rfl

@[simp] theorem ofLaunch_mk (site : Site) (pc : ℕ) (deferred : Bool) :
    (Reconciler.mk site pc deferred).ofLaunch = site.ofLaunch := rfl

/-- It has acquired the cleanup, with the obligation that goes with it. -/
def acquired (r : Reconciler) (skip : ℕ) (deferred : Bool) : Reconciler :=
  { r.jump true skip with deferred }

@[simp] theorem latched_jump (r : Reconciler) (test : Bool) (skip : ℕ) :
    (r.jump test skip).latched = r.latched := rfl

@[simp] theorem ofLaunch_jump (r : Reconciler) (test : Bool) (skip : ℕ) :
    (r.jump test skip).ofLaunch = r.ofLaunch := rfl

@[simp] theorem latched_acquired (r : Reconciler) (skip : ℕ) (deferred : Bool) :
    (r.acquired skip deferred).latched = r.latched := rfl

@[simp] theorem ofLaunch_acquired (r : Reconciler) (skip : ℕ) (deferred : Bool) :
    (r.acquired skip deferred).ofLaunch = r.ofLaunch := rfl

end Reconciler

/-! ## The state -/

/-- The place of a launch or resume handler under its launch lease. -/
inductive Preparing where
  | acquired
  | checked
  | sawSessions (sessions : Bool)
  | preempting
  | closing (ids : List ℕ)
  | scheduling (ids : List ℕ)
  | stopping
  | prepared
  deriving DecidableEq, Repr

/-- The place of `cmd_announce` on a launch that is not claimed yet; it holds the launch's
admission mutex from `starting` on. -/
inductive Admission where
  | waiting
  | starting
  | activated
  | counted (first : Bool)
  deriving DecidableEq, Repr

/-- The owner of the coordinator.  The launch lease moves from the handler into the launch
session it raises. -/
inductive Owner where
  | idle
  | handler (phase : Preparing)
  | launch (id : ℕ) (admission : Admission)
  | cleanup (reconciler : Reconciler)
  deriving DecidableEq, Repr

/-- A pending launch that was taken out of `launch_event` and is not reconciled yet. -/
structure Discarded where
  id : ℕ
  explicitCancel : Bool
  deriving DecidableEq, Repr

/-- `flagRead`, `latchRead` and `checked` count capture starts by the readings they have made;
`captureMutex` is held by a start, with the idle shutdown it has cancelled; `started` have
succeeded and create their session next.  `begun` handlers have no lease yet, `finishing`
handlers have raised their launch.  `stopping` sessions are stopped and not joined. -/
structure State where
  rtspSessionsActive : Bool := false
  moonlightLaunchesInFlight : ℕ := 0
  launchEvent : Option ℕ := none
  nextLaunchId : ℕ := 0
  owner : Owner := .idle
  begun : ℕ := 0
  finishing : ℕ := 0
  discarded : List Discarded := []
  reconcilers : List Reconciler := []
  activeSessions : ℕ := 0
  stopping : ℕ := 0
  runningSessions : ℤ := 0
  captureActive : Bool := false
  idleShutdownPending : Bool := false
  idleShutdownToken : ℕ := 0
  idleTasks : List ℕ := []
  idleStops : ℕ := 0
  flagRead : ℕ := 0
  latchRead : ℕ := 0
  checked : ℕ := 0
  captureMutex : Option Bool := none
  started : ℕ := 0
  sessions : List ℕ := []
  nextSession : ℕ := 0
  closed : ℕ := 0

def State.initial : State := {}

def Preparing.preempted (phase : Preparing) : Bool := phase = .prepared

namespace Owner

/-- What the owner contributes to `moonlight_launches_in_flight`. -/
def latches : Owner → ℕ
  | .handler _ => 1
  | .cleanup r => r.latched.toNat
  | .idle | .launch _ _ => 0

/-- Whether the owner is a launch past its preemption step. -/
def launching : Owner → ℕ
  | .handler phase => phase.preempted.toNat
  | .launch _ _ => 1
  | .cleanup r => r.ofLaunch.toNat
  | .idle => 0

end Owner

namespace State

/-- The threads that are between the preemption step of a launch and its end: the handler
until it returns, the launch session while it is pending, being claimed, discarded or rolled
back. -/
def launching (s : State) : ℕ :=
  s.owner.launching + s.launchEvent.toList.length + s.finishing + s.discarded.length +
    s.reconcilers.countP (·.ofLaunch)

/-- The Moonlight sessions from the start of their threads to the join. -/
def moonlightSessions (s : State) : ℕ := s.activeSessions + s.stopping

/-- `moonlight_launch_is_pending`. -/
def moonlightLaunchIsPending (s : State) : Bool :=
  0 < s.moonlightLaunchesInFlight || s.launchEvent.isSome

/-- The launch lease may be taken: a launch session that has been claimed keeps its copy until it
is cleared or discarded. -/
def leaseTaken (s : State) : Bool :=
  s.owner ≠ .idle || s.launchEvent.isSome || !s.discarded.isEmpty

/-- `moonlight_launch_end`; an unbalanced call leaves the counter at zero. -/
def moonlightLaunchEnd (s : State) : State :=
  { s with moonlightLaunchesInFlight := s.moonlightLaunchesInFlight - 1 }

/-- The stop under the capture mutex, `stop_webrtc_capture_if_idle`. -/
def stopCapture (s : State) : State :=
  { s with
    captureActive := false
    idleShutdownPending := !s.captureActive && s.idleShutdownPending }

/-- `schedule_webrtc_idle_shutdown`. -/
def scheduleIdleShutdown (s : State) : State :=
  { s with
    idleShutdownPending := true
    idleShutdownToken := s.idleShutdownToken + 1
    idleTasks := (s.idleShutdownToken + 1) :: s.idleTasks }

/-- The guards of a handler that fails: its lease is released and the flag reconciled. -/
def abort (s : State) (preempted : Bool) : State :=
  { s with owner := .idle, reconcilers := ⟨.abort preempted, 0, false⟩ :: s.reconcilers }

/-- A discarded launch whose session has started: a timeout lets go of it, `cancel` goes on. -/
def settleClaimed (s : State) (d : Discarded) : State :=
  { s with
    discarded := s.discarded.erase d
    moonlightLaunchesInFlight :=
      s.moonlightLaunchesInFlight - if d.explicitCancel then 0 else 1
    reconcilers := if d.explicitCancel then ⟨.cancel, 0, false⟩ :: s.reconcilers
      else s.reconcilers }

/-- The check that a reconciling thread makes before it cleans up. -/
def validates (s : State) : Site → Bool
  | .join => s.runningSessions = 0 && s.activeSessions = 0
  | .abort _ => true
  | .cancel => s.activeSessions = 0 && s.launchEvent.isNone
  | .rollback => s.runningSessions = 0 && s.activeSessions = 0 && s.sessions.isEmpty &&
      s.launchEvent.isNone

/-- Where an operation leads; `acquire_cleanup` is superseded or timed out here. -/
def perform (s : State) (r : Reconciler) : Op → Reconciler
  | .acquireCleanup skip => r.jump false skip
  | .validate skip => r.jump (s.validates r.site) skip
  | .testDeferred skip => r.jump r.deferred skip
  | .readIdle skip => r.jump (s.activeSessions = 0) skip
  | .readBusy skip => r.jump (0 < s.activeSessions) skip
  | .lower | .restore => r.jump true 0

/-- What an operation leaves in `rtsp_sessions_active`. -/
def flagAfter (s : State) : Op → Bool
  | .lower => false
  | .restore => true
  | _ => s.rtspSessionsActive

end State

/-! ## The steps -/

inductive Label where
  -- `start_webrtc_capture` and the browser sessions
  | readFlag
  | readLatch
  | readEvent
  | lockCapture
  | reuseCapture
  | stopPrevious
  | failStart
  | publish
  | createSession
  | closeSession (id : ℕ)
  | scheduleIdle
  | idleTask (token : ℕ) (noPeers : Bool)
  | stopIdle
  -- `launch` and `resume`
  | launchBegin
  | acquireLaunch
  | refuse
  | checkPending
  | readSessions
  | readCapture
  | snapshot
  | closeNext
  | scheduleNext
  | checkEmpty
  | stopForLaunch
  | failLaunch
  | raiseLaunch
  | launchEnd
  -- the pending launch and the Moonlight sessions
  | announce
  | announceFails
  | activate
  | count
  | raiseFlag
  | claim
  | clear
  | expire
  | cancel
  | reconcile (discarded : Discarded)
  | stopSession
  | joinSession
  -- the reconciling threads
  | acquireCleanup (r : Reconciler) (deferred : Bool)
  | perform (r : Reconciler)
  | performOwner
  | giveUp
  | retry (r : Reconciler)
  | leave (r : Reconciler)
  | leaveOwner
  deriving DecidableEq, Repr

/-- The steps of the browser side. -/
def browserStep (s : State) : Label → Option State
  | .readFlag =>
      if s.rtspSessionsActive = false then some { s with flagRead := s.flagRead + 1 } else none
  | .readLatch =>
      if 0 < s.flagRead then
        some { s with
          flagRead := s.flagRead - 1
          latchRead := s.latchRead + if s.moonlightLaunchesInFlight = 0 then 1 else 0 }
      else none
  | .readEvent =>
      if 0 < s.latchRead then
        if s.launchEvent = none then
          some { s with
            latchRead := s.latchRead - 1
            checked := s.checked + 1
            idleShutdownToken := s.idleShutdownToken + 1 }
        else some { s with latchRead := s.latchRead - 1 }
      else none
  | .lockCapture =>
      if 0 < s.checked ∧ s.captureMutex = none then
        some { s with
          checked := s.checked - 1
          captureMutex := some s.idleShutdownPending
          idleShutdownPending := false }
      else none
  | .reuseCapture =>
      if s.captureMutex = some false ∧ s.captureActive = true then
        some { s with captureMutex := none, started := s.started + 1 }
      else none
  | .stopPrevious =>
      if s.captureMutex = some true ∧ s.captureActive = true then some s.stopCapture else none
  | .failStart =>
      if s.captureMutex.isSome ∧ ¬ (s.captureMutex = some false ∧ s.captureActive = true) then
        some { s with captureMutex := none }
      else none
  | .publish =>
      if s.captureMutex.isSome ∧ s.captureActive = false then
        some { s with captureActive := true, captureMutex := none, started := s.started + 1 }
      else none
  | .createSession =>
      if 0 < s.started then
        some { s with
          started := s.started - 1
          sessions := s.nextSession :: s.sessions
          nextSession := s.nextSession + 1 }
      else none
  | .closeSession id =>
      if id ∈ s.sessions then
        some { s with
          sessions := s.sessions.erase id
          closed := s.closed + if s.sessions.erase id = [] then 1 else 0 }
      else none
  | .scheduleIdle =>
      if 0 < s.closed then some { s.scheduleIdleShutdown with closed := s.closed - 1 } else none
  | .idleTask token noPeers =>
      if token ∈ s.idleTasks then
        some { s with
          idleTasks := s.idleTasks.erase token
          idleStops := s.idleStops +
            if token = s.idleShutdownToken ∧ s.sessions = [] ∧ noPeers = true then 1 else 0 }
      else none
  | .stopIdle =>
      if 0 < s.idleStops ∧ s.captureMutex = none then
        some { s.stopCapture with idleStops := s.idleStops - 1 }
      else none
  | _ => none

/-- The steps of a launch or resume handler; the preemption of the browser goes from
`readSessions` to the step that leaves the phase `prepared`. -/
def handlerStep (s : State) : Label → Option State
  | .launchBegin =>
      some { s with
        moonlightLaunchesInFlight := s.moonlightLaunchesInFlight + 1
        begun := s.begun + 1 }
  | .acquireLaunch =>
      if 0 < s.begun ∧ s.owner = .idle then
        some { s with begun := s.begun - 1, owner := .handler .acquired }
      else none
  | .refuse =>
      if 0 < s.begun then
        some { s with
          begun := s.begun - 1
          reconcilers := ⟨.abort false, 0, false⟩ :: s.reconcilers }
      else none
  | .checkPending =>
      if s.owner = .handler .acquired then
        if s.launchEvent = none then some { s with owner := .handler .checked }
        else some (s.abort false)
      else none
  | .readSessions =>
      if s.owner = .handler .checked then
        some { s with owner := .handler (.sawSessions (s.sessions ≠ [])) }
      else none
  | .readCapture =>
      match s.owner with
      | .handler (.sawSessions sessions) =>
          if !sessions && !s.captureActive then some { s with owner := .handler .prepared }
          else some { s with owner := .handler .preempting }
      | _ => none
  | .snapshot =>
      if s.owner = .handler .preempting then
        some { s with owner := .handler (.closing s.sessions) }
      else none
  | .closeNext =>
      match s.owner with
      | .handler (.closing (id :: ids)) =>
          if id ∈ s.sessions ∧ s.sessions.erase id = [] then
            some { s with sessions := [], owner := .handler (.scheduling ids) }
          else
            some { s with sessions := s.sessions.erase id, owner := .handler (.closing ids) }
      | _ => none
  | .scheduleNext =>
      match s.owner with
      | .handler (.scheduling ids) =>
          some { s.scheduleIdleShutdown with owner := .handler (.closing ids) }
      | _ => none
  | .checkEmpty =>
      if s.owner = .handler (.closing []) then
        if s.sessions = [] then
          some { s with
            idleShutdownToken := s.idleShutdownToken + 1
            owner := .handler .stopping }
        else some { s with owner := .handler .prepared }
      else none
  | .stopForLaunch =>
      if s.owner = .handler .stopping ∧ s.captureMutex = none then
        some { s.stopCapture with owner := .handler .prepared }
      else none
  | .failLaunch =>
      match s.owner with
      | .handler phase => some (s.abort phase.preempted)
      | _ => none
  | .raiseLaunch =>
      if s.owner = .handler .prepared then
        if s.launchEvent = none then
          some { s with
            launchEvent := some s.nextLaunchId
            nextLaunchId := s.nextLaunchId + 1
            owner := .launch s.nextLaunchId .waiting
            finishing := s.finishing + 1 }
        else some (s.abort true)
      else none
  | .launchEnd =>
      if 0 < s.finishing then
        some { s.moonlightLaunchEnd with finishing := s.finishing - 1 }
      else none
  | _ => none

/-- The steps of the RTSP server and of the session threads. -/
def rtspStep (s : State) : Label → Option State
  | .announce =>
      match s.owner with
      | .launch id .waiting => some { s with owner := .launch id .starting }
      | _ => none
  | .announceFails =>
      match s.owner with
      | .launch id .starting => some { s with owner := .launch id .waiting }
      | _ => none
  | .activate =>
      match s.owner with
      | .launch id .starting =>
          some { s with owner := .launch id .activated, activeSessions := s.activeSessions + 1 }
      | _ => none
  | .count =>
      match s.owner with
      | .launch id .activated =>
          some { s with
            owner := .launch id (.counted (s.runningSessions + 1 = 1))
            runningSessions := s.runningSessions + 1 }
      | _ => none
  | .raiseFlag =>
      match s.owner with
      | .launch id (.counted true) =>
          some { s with owner := .launch id (.counted false), rtspSessionsActive := true }
      | _ => none
  -- `session::start` drops its copy of the lease before the admission mutex is free
  | .claim =>
      match s.owner with
      | .launch _ (.counted false) => some { s with owner := .idle }
      | _ => none
  -- `session_clear`, for a session whose `start` has returned
  | .clear =>
      match s.launchEvent, s.owner with
      | none, _ => none
      | some id, .launch unclaimed _ =>
          if id = unclaimed then none else some { s with launchEvent := none }
      | some _, _ => some { s with launchEvent := none }
  | .expire =>
      match s.launchEvent with
      | none => none
      | some id =>
          some { s with
            launchEvent := none
            moonlightLaunchesInFlight := s.moonlightLaunchesInFlight + 1
            discarded := ⟨id, false⟩ :: s.discarded }
  | .cancel =>
      if 0 < s.begun then
        match s.launchEvent with
        | none =>
            some { s with
              begun := s.begun - 1
              reconcilers := ⟨.cancel, 4, false⟩ :: s.reconcilers }
        | some id =>
            some { s with
              begun := s.begun - 1
              launchEvent := none
              discarded := ⟨id, true⟩ :: s.discarded }
      else none
  -- `reconcile_discarded_launch`, once it has the admission mutex
  | .reconcile d =>
      if d ∈ s.discarded then
        match s.owner with
        | .launch id admission =>
            if id = d.id then
              if admission = .waiting then
                some { s with
                  owner := .idle
                  discarded := s.discarded.erase d
                  reconcilers :=
                    ⟨if d.explicitCancel then .cancel else .rollback, 0, false⟩ :: s.reconcilers }
              else none
            else some (s.settleClaimed d)
        | _ => some (s.settleClaimed d)
      else none
  | .stopSession =>
      if 0 < s.activeSessions then
        some { s with activeSessions := s.activeSessions - 1, stopping := s.stopping + 1 }
      else none
  | .joinSession =>
      if 0 < s.stopping then
        some { s with
          stopping := s.stopping - 1
          runningSessions := s.runningSessions - 1
          reconcilers :=
            if s.runningSessions - 1 = 0 then ⟨.join, 0, false⟩ :: s.reconcilers
            else s.reconcilers }
      else none
  | _ => none

/-- The steps of the threads that reconcile the flag. -/
def reconcilerStep (s : State) : Label → Option State
  | .acquireCleanup r deferred =>
      match r.op with
      | some (.acquireCleanup skip) =>
          if r ∈ s.reconcilers ∧ s.owner = .idle then
            some { s with
              owner := .cleanup (r.acquired skip deferred)
              reconcilers := s.reconcilers.erase r }
          else none
      | _ => none
  | .perform r =>
      match r.op with
      | some op =>
          if r ∈ s.reconcilers ∧ (op.isAcquire = true → s.leaseTaken = true) then
            some { s with
              rtspSessionsActive := s.flagAfter op
              reconcilers := s.perform r op :: s.reconcilers.erase r }
          else none
      | none => none
  | .performOwner =>
      match s.owner with
      | .cleanup r =>
          match r.op with
          | some op =>
              some { s with
                rtspSessionsActive := s.flagAfter op
                owner := .cleanup (s.perform r op) }
          | none => none
      | _ => none
  | .giveUp =>
      match s.owner with
      | .cleanup r =>
          if r.site = .rollback ∧ r.pc = 3 then
            some { s with owner := .cleanup (r.jump false 5) }
          else none
      | _ => none
  | .retry r =>
      if r ∈ s.reconcilers ∧ r.op = none ∧ r.site = .rollback then
        some { s with reconcilers := ⟨.rollback, 0, false⟩ :: s.reconcilers.erase r }
      else none
  | .leave r =>
      if r ∈ s.reconcilers ∧ r.op = none then
        some { s with
          reconcilers := s.reconcilers.erase r
          moonlightLaunchesInFlight := s.moonlightLaunchesInFlight - r.latched.toNat }
      else none
  | .leaveOwner =>
      match s.owner with
      | .cleanup r =>
          if r.op = none then
            some { s with
              owner := .idle
              moonlightLaunchesInFlight := s.moonlightLaunchesInFlight - r.latched.toNat }
          else none
      | _ => none
  | _ => none

def step (s : State) (label : Label) : Option State :=
  match label with
  | .readFlag | .readLatch | .readEvent | .lockCapture | .reuseCapture | .stopPrevious
  | .failStart | .publish | .createSession | .closeSession _ | .scheduleIdle | .idleTask _ _
  | .stopIdle => browserStep s label
  | .launchBegin | .acquireLaunch | .refuse | .checkPending | .readSessions | .readCapture
  | .snapshot | .closeNext | .scheduleNext | .checkEmpty | .stopForLaunch | .failLaunch
  | .raiseLaunch | .launchEnd => handlerStep s label
  | .announce | .announceFails | .activate | .count | .raiseFlag | .claim | .clear | .expire
  | .cancel | .reconcile _ | .stopSession | .joinSession => rtspStep s label
  | .acquireCleanup _ _ | .perform _ | .performOwner | .giveUp | .retry _ | .leave _
  | .leaveOwner => reconcilerStep s label

end LuminalShine.WebRtc.Exclusivity
