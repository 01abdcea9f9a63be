import LuminalShine.Lib.Assoc
import LuminalShine.Lib.Run
import Mathlib.Data.List.TakeWhile
import Mathlib.Logic.Function.Basic

/-!
# Who speaks for a session on the control stream

`session::start` registers its session with the control server and waits.  The control thread
claims it for the first peer of the ENet host that shows the session's credential, serves that
peer's events to it, and takes it off the list when it is stopping.  Sessions are started, stopped
and joined by other threads at any moment, except that nothing is registered while the control
thread goes over the list, which it does under the lock.

A peer is a slot of the ENet host.  The host uses it again for another connection, so a session
that is stopping must not be served for long.

## Main definitions

* `Server` — the control server and its sessions.
* `Server.getSession`, `Server.iterate`, `Server.visit`, `Server.terminate` — the control thread.
* `Server.step` — what it does and what the other threads do.
* `late` — the messages handed to a session after it was stopped.
-/

namespace LuminalShine.Control.Peers

open LuminalShine.Lib

/-! ## The control server -/

/-- `state_e`.  STARTING is never stored: a session is STOPPED until its start is complete. -/
inductive SessionState where
  | stopped
  | stopping
  | starting
  | running
  deriving DecidableEq, Repr

/-- What a session is told about its client before it is started. -/
structure Launch where
  /-- `config.mlFeatureFlags & ML_FF_SESSION_ID_V1` -/
  sessionIdV1 : Bool
  connectData : ℕ
  expectedPeerAddress : String

/-- The part of `session_t` the control server works on.  `joined` is set when `session::join`
is past its wait for `controlEnd`; the session is destroyed behind that. -/
structure Session where
  registered : Bool := false
  peer : Option ℕ := none
  state : SessionState := .stopped
  pingTimeout : ℕ := 0
  controlEnd : Bool := false
  joined : Bool := false
  deriving DecidableEq, Repr

/-- A received packet comes with whether its handler stops the session. -/
inductive EventKind where
  | connect
  | receive (packet : List UInt8) (stops : Bool)
  | disconnect
  | none

/-- An event of the ENet host: the slot, the address it is connected to, and `event.data`. -/
structure Event where
  peer : ℕ
  address : String
  data : ℕ
  kind : EventKind

/-- What the control server does to the world outside. -/
inductive Call where
  /-- `rtsp_stream::launch_session_clear` with the session's launch. -/
  | launchSessionClear (session : ℕ)
  | call (session peer type : ℕ) (payload : List UInt8)
  /-- `shutdown_event->raise` of `session::stop`, or behind the control thread -/
  | shutdown (session : ℕ)
  /-- `shutdown_event->raise` of the session's own threads, which leaves it running -/
  | threadRaises (session : ℕ)
  /-- `controlEnd.raise` -/
  | controlEnd (session : ℕ)
  | disconnectNow (peer : ℕ)
  | sendTermination (session peer : ℕ)
  deriving DecidableEq, Repr

/-- One turn of the control thread over the list. -/
structure Pass where
  pos : ℕ
  now : ℕ
  processRunning : Bool
  awaitingPeer : Bool
  deriving DecidableEq, Repr

/-- Where the control thread is. -/
inductive Phase where
  | top
  | visiting (pass : Pass)
  | serving
  | ended
  deriving DecidableEq, Repr

/-- The sessions are those there will ever be, by their addresses. -/
structure Server where
  session : ℕ → Session
  sessions : List ℕ
  peerToSession : AList fun _ : ℕ => ℕ
  processTerminatedSince : Option ℕ
  /-- `shutdown_event` or `broadcast_shutdown_event` of the host. -/
  shutdown : Bool
  phase : Phase
  calls : List Call
  /-- History: the events of the ENet host so far. -/
  served : List Event

def Server.start : Server where
  session := fun _ => {}
  sessions := []
  peerToSession := ∅
  processTerminatedSince := none
  shutdown := false
  phase := .top
  calls := []
  served := []

/-- What the other parts of the host give the control thread for its next step. -/
structure Input where
  now : ℕ
  processRunning : Bool
  event : Option Event

/-- The control thread's next step, and the steps of other threads: the registration of a session
in `session::start`, what follows it there, a raise by the session's own threads, `session::stop`,
the end of the wait in `session::join`, and the host's shutdown. -/
inductive Op where
  | register (session : ℕ)
  | setPingTimeout (session time : ℕ)
  | run (session : ℕ)
  | threadRaises (session : ℕ)
  | stop (session : ℕ)
  | join (session : ℕ)
  | shutdown
  | control (input : Input)

/-- The connect data where the client supports it, else the address. -/
def Launch.admits (l : Launch) (e : Event) : Bool :=
  if l.sessionIdV1 then l.connectData == e.data else l.expectedPeerAddress == e.address

/-- `pending_peer_termination_grace`, in milliseconds like all times. -/
def pendingPeerTerminationGrace : ℕ := 1000

namespace Server

def update (s : Server) (i : ℕ) (x : Session) : Server :=
  { s with session := Function.update s.session i x }

def emit (s : Server) (c : Call) : Server := { s with calls := s.calls ++ [c] }

/-- `session::stop`.  The counter of active sessions is left out. -/
def stop (s : Server) (i : ℕ) : Server :=
  if (s.session i).state = .running then
    (s.update i { s.session i with state := .stopping }).emit (.shutdown i)
  else s

section Thread
variable (launch : ℕ → Launch) (pingTimeout : ℕ)

/-- The session of a peer, claimed if need be. -/
def getSession (s : Server) (e : Event) : Server × Option ℕ :=
  match s.peerToSession.lookup e.peer with
  | some i => (s, some i)
  | none =>
      match s.sessions.find? fun i => (s.session i).peer.isNone && (launch i).admits e with
      | some i =>
          let s := s.emit (.launchSessionClear i)
          let s := s.update i { s.session i with peer := some e.peer }
          ({ s with peerToSession := emplace s.peerToSession e.peer i }, some i)
      | none => (s, none)

/-- The branches of `iterate` on the kind of an event. -/
def handle (s : Server) (i : ℕ) (e : Event) : Server :=
  match e.kind with
  | .receive (b₀ :: b₁ :: payload) stops =>
      let s := s.emit (.call i e.peer (b₀.toNat + 256 * b₁.toNat) payload)
      if stops then s.stop i else s
  | .receive _ _ => s
  | .disconnect => if (s.session i).state = .running then s.stop i else s
  | .connect => s
  | .none => s

/-- `control_server_t::iterate` -/
def iterate (s : Server) (now : ℕ) : Option Event → Server
  | none => s
  | some e =>
      let s := { s with served := s.served ++ [e] }
      match s.getSession launch e with
      | (s, none) => s.emit (.disconnectNow e.peer)
      | (s, some i) =>
          (s.update i { s.session i with pingTimeout := now + pingTimeout }).handle i e

/-- A session that is stopping goes from the list, its peer from the map. -/
def eraseSession (s : Server) (pass : Pass) (i : ℕ) : Server :=
  let s := { s with sessions := s.sessions.eraseIdx pass.pos }
  let s := match (s.session i).peer with
    | some peer =>
        { s with peerToSession := s.peerToSession.erase peer }.emit (.disconnectNow peer)
    | none => s
  let s := (s.update i { s.session i with controlEnd := true }).emit (.controlEnd i)
  { s with phase := .visiting pass }

/-- The app has been gone for longer than a client may take to connect. -/
def graceOver (s : Server) (pass : Pass) : Bool :=
  !pass.processRunning && s.processTerminatedSince.any fun since =>
    since + pendingPeerTerminationGrace ≤ pass.now

/-- The body of the loop over the list, at one session. -/
def visit (s : Server) (pass : Pass) (i : ℕ) : Server :=
  let s := if (s.session i).pingTimeout < pass.now then s.stop i else s
  if (s.session i).state = .stopping then s.eraseSession pass i
  else if (s.session i).peer.isSome then
    { s with phase := .visiting { pass with pos := pass.pos + 1 } }
  else if s.graceOver pass then
    { s.stop i with phase := .visiting { pass with pos := pass.pos + 1 } }
  else { s with phase := .visiting { pass with pos := pass.pos + 1, awaitingPeer := true } }

/-- The body of the loop behind the control thread, at one session. -/
def terminateSession (s : Server) (i : ℕ) : Server :=
  let s := match (s.session i).peer with
    | some peer => s.emit (.sendTermination i peer)
    | none => s
  let s := s.emit (.shutdown i)
  (s.update i { s.session i with controlEnd := true }).emit (.controlEnd i)

/-- What is done when the control thread's loop is left. -/
def terminate (s : Server) : Server :=
  { s.sessions.foldl terminateSession s with phase := .ended }

/-- The head of the loop. -/
def beginPass (s : Server) (input : Input) : Server :=
  let since := if input.processRunning then none
    else some (s.processTerminatedSince.getD input.now)
  { s with
    processTerminatedSince := since
    phase := .visiting ⟨0, input.now, input.processRunning, false⟩ }

def control (s : Server) (input : Input) : Server :=
  match s.phase with
  | .top => if s.shutdown then s.terminate else s.beginPass input
  | .visiting pass =>
      match s.sessions[pass.pos]?, s.shutdown with
      | some i, false => s.visit pass i
      | _, _ =>
          if !pass.processRunning && !pass.awaitingPeer then s.terminate
          else { s with phase := .serving }
  | .serving => { s.iterate launch pingTimeout input.now input.event with phase := .top }
  | .ended => s

/-- The list is not locked. -/
def unlocked (s : Server) : Bool :=
  match s.phase with
  | .visiting _ => false
  | _ => true

def step (s : Server) : Op → Option Server
  | .register i =>
      if (s.session i).registered = false ∧ s.unlocked = true then
        some { s.update i { s.session i with registered := true } with
          sessions := s.sessions ++ [i] }
      else none
  | .setPingTimeout i time =>
      if (s.session i).registered = true ∧ (s.session i).state = .stopped then
        some (s.update i { s.session i with pingTimeout := time })
      else none
  | .run i =>
      if (s.session i).registered = true ∧ (s.session i).state = .stopped then
        some (s.update i { s.session i with state := .running })
      else none
  | .threadRaises i => some (s.emit (.threadRaises i))
  | .stop i => some (s.stop i)
  | .join i =>
      if (s.session i).controlEnd = true then
        some (s.update i { s.session i with joined := true })
      else none
  | .shutdown => some { s with shutdown := true }
  | .control input => some (s.control launch pingTimeout input)

end Thread

end Server

/-! ## Messages that come late -/

def Call.handsTo (i : ℕ) : Call → Bool
  | .call j _ _ _ => j == i
  | _ => false

/-- The messages handed to a session after `session::stop`, or the end of the control thread, told
it to shut down. -/
def late (i : ℕ) (calls : List Call) : ℕ := (calls.dropWhile (· ≠ .shutdown i)).countP (·.handsTo i)

variable {i : ℕ} {calls : List Call} {c : Call}

theorem dropWhile_of_notMem (h : Call.shutdown i ∉ calls) :
    calls.dropWhile (· ≠ .shutdown i) = [] := by
  rw [List.dropWhile_eq_nil_iff]
  intro c hc
  have hne : c ≠ .shutdown i := fun heq => h (heq ▸ hc)
  simp [hne]

theorem late_of_notMem (h : Call.shutdown i ∉ calls) : late i calls = 0 := by
  rw [late, dropWhile_of_notMem h, List.countP_nil]

/-- A call comes late once at most. -/
theorem late_concat (i : ℕ) (calls : List Call) (c : Call) :
    late i (calls ++ [c]) ≤ late i calls + (c.handsTo i).toNat := by
  rw [late, late, List.dropWhile_append]
  by_cases h : Call.shutdown i ∈ calls
  · cases hrest : calls.dropWhile (· ≠ .shutdown i) with
    | nil => simpa using List.dropWhile_eq_nil_iff.mp hrest _ h
    | cons first rest =>
        cases hc : c.handsTo i <;> simp [List.countP_cons, hc]
        omega
  · -- nothing is late before the session is told to shut down, and the telling is not a message
    rw [dropWhile_of_notMem h]
    by_cases hc : c = .shutdown i
    · subst hc
      simp [Call.handsTo]
    · simp [hc]

end LuminalShine.Control.Peers
