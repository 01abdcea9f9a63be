import LuminalShine.Lib.Run
import LuminalShine.Pipes.Framed

/-!
# The anonymous pipe handshake

How a server and a client of `src/platform/windows/ipc/pipes.cpp` come from the control pipe
to a data pipe of their own.  The server sends the name of the data pipe, the client
acknowledges it and connects; each side gives up by itself and stays on the control pipe, with
what it has read by then put back in front of it.

Every wait may run out at any time, and a read may return any piece of what is there.  A call
that reports a timeout or a failure may have moved bytes all the same (`Pipes.Overlapped`): what
a receive then took is lost, and what a send then wrote is in the pipe.

## Main definitions

* `Server`, `Client` — how far each side is.
* `step` — one call of either side on a pipe.
* `Agrees` — the two pipes are one, and carry the payload alone.
* `Patient` — no side gives up on the other.

## Main results

* `handshake_agrees`
-/

namespace LuminalShine.Pipes.Handshake

open LuminalShine.Lib

/-! ## Bytes -/

/-- `ACK_MSG` -/
def ackMsg : UInt8 := 2

/-- `kMaxHandshakeFrameLen` -/
def maxHandshakeFrameLen : ℕ := 2 * 1024 * 1024

/-- `kMaxHandshakePrefetchBytes` -/
def maxHandshakePrefetchBytes : ℕ := 65536

/-- `sizeof(AnonConnectMsg)` -/
def connectMsgSize : ℕ := 80

/-- `looks_like_framed_payload_header`; the client makes the same test. -/
def looksLikeFramedPayloadHeader : Bytes → Bool
  | b₀ :: b₁ :: b₂ :: b₃ :: _ =>
      0 < fromLe32 b₀ b₁ b₂ b₃ && fromLe32 b₀ b₁ b₂ b₃ ≤ maxHandshakeFrameLen
  | _ => false

/-- The four parts of a GUID. -/
structure Guid where
  data1 : UInt32
  data2 : UInt16
  data3 : UInt16
  data4 : List UInt8
  deriving DecidableEq, Repr

def hexDigit (d : ℕ) : Char := "0123456789ABCDEF".toList.getD d '0'

/-- The `n` digits of `v`. -/
def hex (v : ℕ) : ℕ → List Char
  | 0 => []
  | n + 1 => hexDigit (v / 16 ^ n % 16) :: hex v n

/-- `StringFromGUID2` -/
def stringFromGuid2 (g : Guid) : List Char :=
  '{' :: hex g.data1.toNat 8 ++ '-' :: hex g.data2.toNat 4 ++ '-' :: hex g.data3.toNat 4 ++
    '-' :: (g.data4.take 2).flatMap (fun b => hex b.toNat 2) ++
    '-' :: (g.data4.drop 2).flatMap (fun b => hex b.toNat 2) ++ ['}']

/-- `generate_guid`, empty when there is none. -/
def pipeName (guid : Option Guid) : List Char := guid.elim [] stringFromGuid2

/-- A `wchar_t`. -/
def wide (c : Char) : Bytes := [UInt8.ofNat c.toNat, UInt8.ofNat (c.toNat / 256)]

/-- The bytes of `AnonConnectMsg`: `wcsncpy_s` into forty places, of which the last is zero. -/
def connectMsg (name : List Char) : Bytes :=
  (name.take 39).flatMap wide ++ List.replicate (connectMsgSize - 2 * (name.take 39).length) 0

/-! ## The two sides -/

inductive Channel where
  | control
  | data
  deriving DecidableEq, Repr

/-- A pipe in a side's hands; `buffer` is what its `PrefetchedPipe` hands out first. -/
structure Pipe where
  channel : Channel
  buffer : Bytes
  deriving DecidableEq, Repr

inductive Server where
  | idle
  | awaitAck (buffered : Bytes)
  | peekAck (buffered : Bytes)
  | createData (buffered : Bytes)
  | awaitClient (buffered : Bytes)
  | done (pipe : Option Pipe)
  deriving DecidableEq, Repr

inductive Client where
  | awaitMessage (prefetched : Bytes) (zeroReads : ℕ)
  | sendAck (msg : Bytes)
  | connect (msg : Bytes)
  | done (pipe : Option Pipe)
  deriving DecidableEq, Repr

/-- `AnonymousServerPipe`, or `handshake_server` of the factory. -/
inductive Kind where
  | lazy
  | factory
  deriving DecidableEq, Repr

inductive DataPipe where
  | absent
  | listening
  | connected
  | closed
  deriving DecidableEq, Repr

/-- The bytes under way. -/
structure Wire where
  toServer : Bytes
  toClient : Bytes
  deriving DecidableEq, Repr

/-- `message` is the connect message that was sent; the last four fields are history: the
payload each side has sent, and what each has handed to its reader. -/
structure State where
  server : Server
  client : Client
  message : Option Bytes
  dataPipe : DataPipe
  control : Wire
  data : Wire
  serverSent : Bytes
  clientSent : Bytes
  serverGot : Bytes
  clientGot : Bytes
  deriving DecidableEq, Repr

/-- The control pipe is connected, and nothing was sent. -/
def initial : State where
  server := .idle
  client := .awaitMessage [] 0
  message := none
  dataPipe := .absent
  control := ⟨[], []⟩
  data := ⟨[], []⟩
  serverSent := []
  clientSent := []
  serverGot := []
  clientGot := []

def State.wire (s : State) : Channel → Wire
  | .control => s.control
  | .data => s.data

def State.setWire (s : State) (wire : Wire) : Channel → State
  | .control => { s with control := wire }
  | .data => { s with data := wire }

@[simp] theorem State.server_setWire (s : State) (wire : Wire) (channel : Channel) :
    (s.setWire wire channel).server = s.server := by
  cases channel <;> rfl

@[simp] theorem State.client_setWire (s : State) (wire : Wire) (channel : Channel) :
    (s.setWire wire channel).client = s.client := by
  cases channel <;> rfl

/-! ## The server -/

/-- `send_handshake_message` fails, or the lazy pipe has no name to send. -/
def unsent : Kind → Server
  | .lazy => .done (some ⟨.control, []⟩)
  | .factory => .done none

/-- The handshake begins; `sends` tells whether the send of the message succeeds.  One that fails
has written the first `n` bytes. -/
def beginHandshake (kind : Kind) (guid : Option Guid) (sends : Bool) (n : ℕ) (s : State) : State :=
  if kind = .lazy ∧ guid = none then { s with server := unsent kind }
  else if sends = false then
    { s with
      server := unsent kind
      control := { s.control with
        toClient := s.control.toClient ++ (connectMsg (pipeName guid)).take n } }
  else
    { s with
      server := .awaitAck []
      message := some (connectMsg (pipeName guid))
      control := { s.control with toClient := s.control.toClient ++ connectMsg (pipeName guid) } }

/-- `HandshakeAckResult::Fallback` -/
def fallback (buffered : Bytes) : Server := .done (some ⟨.control, buffered⟩)

/-- `HandshakeAckResult::Failed` -/
def ackFailed : Kind → Bytes → Server
  | .lazy, buffered => .done (some ⟨.control, buffered⟩)
  | .factory, _ => .done none

/-- A turn of `wait_for_handshake_ack` that has read something. -/
def classifyAck (buffered : Bytes) : Server :=
  if looksLikeFramedPayloadHeader buffered then fallback buffered
  else if buffered.head? = some ackMsg then
    if buffered.length < 4 then .peekAck buffered else .createData buffered.tail
  else if maxHandshakePrefetchBytes < buffered.length then fallback buffered
  else .awaitAck buffered

/-! ## The client -/

/-- A turn of `receive_handshake_message` that has read something; of a message,
`handshake_client` keeps what is in its 80 bytes only. -/
def classifyMessage (prefetched : Bytes) : Client :=
  if connectMsgSize ≤ prefetched.length then .sendAck (prefetched.take connectMsgSize)
  else if looksLikeFramedPayloadHeader prefetched then .done (some ⟨.control, prefetched⟩)
  else .awaitMessage prefetched 0

/-- A read of nothing; the fifth in a row ends the wait. -/
def zeroRead (prefetched : Bytes) (zeroReads : ℕ) : Client :=
  if 5 ≤ zeroReads + 1 then .done (some ⟨.control, prefetched⟩)
  else .awaitMessage prefetched (zeroReads + 1)

/-! ## Steps -/

/-- In a step that ends without success, `n` bytes were moved: by `begin` and `ack` into the
pipe, by the others out of it.  `serverSend` and `clientSend` are what a send puts into the pipe,
whatever it reports. -/
inductive Label where
  | begin (guid : Option Guid) (sends : Bool) (n : ℕ)
  | ackRead (n : ℕ)
  | ackTimeout (n : ℕ)
  | ackPeek (n : ℕ)
  | ackPeekNothing (n : ℕ)
  | ackPeekFailed
  | ackDeadline
  | ackFailed
  | create (created : Bool)
  | accept
  | acceptFails
  | messageRead (n : ℕ)
  | messageTimeout (n : ℕ)
  | messageDeadline
  | messageFailed
  | ack (sends : Bool) (n : ℕ)
  | connect
  | connectFails
  | serverSend (payload : Bytes)
  | clientSend (payload : Bytes)
  | serverReceive (n : ℕ)
  | clientReceive (n : ℕ)
  | serverTimeout (n : ℕ)
  | clientTimeout (n : ℕ)
  deriving DecidableEq, Repr

/-- What a side reads: out of its buffer while there is one, and then from the wire. -/
def Pipe.receive (pipe : Pipe) (n : ℕ) (incoming : Bytes) : Bytes × Pipe × Bytes :=
  if pipe.buffer ≠ [] then
    (pipe.buffer.take n, { pipe with buffer := pipe.buffer.drop n }, incoming)
  else (incoming.take n, pipe, incoming.drop n)

def step (kind : Kind) (s : State) : Label → Option State
  | .begin guid sends n =>
      match s.server with
      | .idle => some (beginHandshake kind guid sends n s)
      | _ => none
  | .ackRead n =>
      match s.server with
      | .awaitAck buffered =>
          if n = 0 then some s
          else if n ≤ 64 ∧ n ≤ s.control.toServer.length then
            some
              { s with
                server := classifyAck (buffered ++ s.control.toServer.take n)
                control := { s.control with toServer := s.control.toServer.drop n } }
          else none
      | _ => none
  | .ackTimeout n =>
      match s.server with
      | .awaitAck _ =>
          if n ≤ 64 ∧ n ≤ s.control.toServer.length then
            some { s with control := { s.control with toServer := s.control.toServer.drop n } }
          else none
      | _ => none
  | .ackPeek n =>
      match s.server with
      | .peekAck buffered =>
          if 0 < n ∧ n ≤ 64 ∧ n ≤ s.control.toServer.length then
            some
              { s with
                server := .awaitAck (buffered ++ s.control.toServer.take n)
                control := { s.control with toServer := s.control.toServer.drop n } }
          else none
      | _ => none
  | .ackPeekNothing n =>
      match s.server with
      | .peekAck buffered =>
          if n ≤ 64 ∧ n ≤ s.control.toServer.length then
            some
              { s with
                server := .createData buffered.tail
                control := { s.control with toServer := s.control.toServer.drop n } }
          else none
      | _ => none
  | .ackPeekFailed =>
      match s.server with
      | .peekAck buffered => some { s with server := ackFailed kind buffered }
      | _ => none
  | .ackDeadline =>
      match s.server with
      | .awaitAck buffered => some { s with server := fallback buffered }
      | _ => none
  | .ackFailed =>
      match s.server with
      | .awaitAck buffered => some { s with server := ackFailed kind buffered }
      | _ => none
  | .create created =>
      match s.server with
      | .createData buffered =>
          if created then some { s with server := .awaitClient buffered, dataPipe := .listening }
          else some { s with server := .done (some ⟨.control, buffered⟩) }
      | _ => none
  | .accept =>
      match s.server with
      | .awaitClient _ =>
          -- what was read behind the acknowledgement is discarded
          if s.dataPipe = .connected then some { s with server := .done (some ⟨.data, []⟩) }
          else none
      | _ => none
  | .acceptFails =>
      match s.server with
      | .awaitClient buffered =>
          some { s with server := .done (some ⟨.control, buffered⟩), dataPipe := .closed }
      | _ => none
  | .messageRead n =>
      match s.client with
      | .awaitMessage prefetched zeroReads =>
          if n = 0 then some { s with client := zeroRead prefetched zeroReads }
          else if n ≤ 256 ∧ n ≤ s.control.toClient.length then
            some
              { s with
                client := classifyMessage (prefetched ++ s.control.toClient.take n)
                control := { s.control with toClient := s.control.toClient.drop n } }
          else none
      | _ => none
  | .messageTimeout n =>
      match s.client with
      | .awaitMessage _ _ =>
          if n ≤ 256 ∧ n ≤ s.control.toClient.length then
            some { s with control := { s.control with toClient := s.control.toClient.drop n } }
          else none
      | _ => none
  | .messageDeadline =>
      match s.client with
      | .awaitMessage prefetched _ =>
          some { s with client := .done (some ⟨.control, prefetched⟩) }
      | _ => none
  | .messageFailed =>
      match s.client with
      | .awaitMessage _ _ => some { s with client := .done none }
      | _ => none
  | .ack sends n =>
      match s.client with
      | .sendAck msg =>
          if sends then
            some
              { s with
                client := .connect msg
                control := { s.control with toServer := s.control.toServer ++ [ackMsg] } }
          else
            some
              { s with
                client := .done none
                control := { s.control with toServer := s.control.toServer ++ [ackMsg].take n } }
      | _ => none
  | .connect =>
      match s.client with
      | .connect msg =>
          if s.dataPipe = .listening ∧ s.message = some msg then
            some { s with client := .done (some ⟨.data, []⟩), dataPipe := .connected }
          else none
      | _ => none
  | .connectFails =>
      match s.client with
      | .connect _ => some { s with client := .done (some ⟨.control, []⟩) }
      | _ => none
  | .serverSend payload =>
      match s.server with
      | .done (some pipe) =>
          some
            { s.setWire { s.wire pipe.channel with
                toClient := (s.wire pipe.channel).toClient ++ payload } pipe.channel with
              serverSent := s.serverSent ++ payload }
      | _ => none
  | .clientSend payload =>
      match s.client with
      | .done (some pipe) =>
          some
            { s.setWire { s.wire pipe.channel with
                toServer := (s.wire pipe.channel).toServer ++ payload } pipe.channel with
              clientSent := s.clientSent ++ payload }
      | _ => none
  | .serverReceive n =>
      match s.server with
      | .done (some pipe) =>
          let (bytes, pipe', incoming) := pipe.receive n (s.wire pipe.channel).toServer
          some
            { s.setWire { s.wire pipe.channel with toServer := incoming } pipe.channel with
              server := .done (some pipe')
              serverGot := s.serverGot ++ bytes }
      | _ => none
  | .clientReceive n =>
      match s.client with
      | .done (some pipe) =>
          let (bytes, pipe', incoming) := pipe.receive n (s.wire pipe.channel).toClient
          some
            { s.setWire { s.wire pipe.channel with toClient := incoming } pipe.channel with
              client := .done (some pipe')
              clientGot := s.clientGot ++ bytes }
      | _ => none
  | .serverTimeout n =>
      match s.server with
      | .done (some pipe) =>
          -- there is no waiting while the buffer lasts
          if pipe.buffer = [] then
            some (s.setWire { s.wire pipe.channel with
              toServer := (s.wire pipe.channel).toServer.drop n } pipe.channel)
          else none
      | _ => none
  | .clientTimeout n =>
      match s.client with
      | .done (some pipe) =>
          if pipe.buffer = [] then
            some (s.setWire { s.wire pipe.channel with
              toClient := (s.wire pipe.channel).toClient.drop n } pipe.channel)
          else none
      | _ => none

/-! ## Statements -/

/-- Both sides use one channel, and each reader gets what the other side sent, from the first
byte on and with nothing left out. -/
def Agrees (s : State) : Prop :=
  ∀ p q, s.server = .done (some p) → s.client = .done (some q) →
    p.channel = q.channel ∧
    s.serverGot ++ (p.buffer ++ (s.wire p.channel).toServer) = s.clientSent ∧
    s.clientGot ++ (q.buffer ++ (s.wire q.channel).toClient) = s.serverSent

/-- The server has come away empty-handed, or the client has. -/
def State.failed (s : State) : Prop := s.server = .done none ∨ s.client = .done none

def Client.waits : Client → Bool
  | .awaitMessage _ _ => true
  | _ => false

/-- The client's next `n` bytes end its wait for the message too early; where no message was
sent, it takes 80 bytes of something else for one. -/
def Client.settles (message : Option Bytes) (n : ℕ) : Client → Bool
  | .awaitMessage prefetched zeroReads =>
      if message = none then connectMsgSize ≤ prefetched.length + n
      else n = 0 && 5 ≤ zeroReads + 1
  | _ => false

/-- The server takes the acknowledgement in the next `n` bytes for the header of a frame. -/
def Server.misreads (toServer : Bytes) (n : ℕ) : Server → Bool
  | .awaitAck buffered => 0 < n && looksLikeFramedPayloadHeader (buffered ++ toServer.take n)
  | _ => false

/-- A step of a side that does not give up on the other: the client is still waiting when the
message is sent, and goes on until it has it; the server waits for the acknowledgement and
knows it; and its wait for the client does not end as the client connects.  A call that ends
without success has moved nothing, unless its side then has no pipe. -/
def Stays (kind : Kind) (s : State) : Label → Prop
  | .begin _ sends n =>
      (sends = true → s.client.waits = true) ∧ (sends = false → kind = .factory ∨ n = 0)
  | .ackRead n => s.server.misreads s.control.toServer n = false
  | .ackTimeout n => n = 0
  | .ackPeekNothing n => n = 0
  | .ackPeekFailed => False
  | .ackDeadline => False
  | .ackFailed => False
  | .acceptFails => s.dataPipe ≠ .connected
  | .messageRead n => s.client.settles s.message n = false
  | .messageTimeout n => n = 0
  | .messageDeadline => s.message = none
  | .serverTimeout n => n = 0
  | .clientTimeout n => n = 0
  | _ => True

/-- Once a side has come away empty-handed, the other may do what it likes. -/
def Patient (kind : Kind) (s : State) (label : Label) : Prop := s.failed ∨ Stays kind s label

instance (s : State) : Decidable s.failed := inferInstanceAs (Decidable (_ ∨ _))

instance (kind : Kind) (s : State) : ∀ label, Decidable (Stays kind s label)
  | .begin _ _ _ => inferInstanceAs (Decidable (_ ∧ _))
  | .acceptFails => inferInstanceAs (Decidable (_ ≠ _))
  | .ackRead _ | .ackTimeout _ | .ackPeekNothing _ | .messageRead _ | .messageTimeout _
  | .messageDeadline | .serverTimeout _ | .clientTimeout _ => inferInstanceAs (Decidable (_ = _))
  | .ackPeekFailed | .ackDeadline | .ackFailed => isFalse id
  | .ackPeek _ | .create _ | .accept | .messageFailed | .ack _ _ | .connect | .connectFails
  | .serverSend _ | .clientSend _ | .serverReceive _ | .clientReceive _ => isTrue trivial

instance (kind : Kind) (s : State) (label : Label) : Decidable (Patient kind s label) :=
  inferInstanceAs (Decidable (_ ∨ _))

/-! ## Where the two sides are -/

/-- A client that has acknowledged the message and is not on the data pipe. -/
inductive Acked : Client → Prop where
  | connect (m) : Acked (.connect m)
  | control (c) : Acked (.done (some ⟨.control, c⟩))

/-- The pairs of phases that patient sides go through. -/
inductive Phases : Server → Client → Option Bytes → DataPipe → Prop where
  | idleAwait (pre n) : Phases .idle (.awaitMessage pre n) none .absent
  | idleInline (c) : Phases .idle (.done (some ⟨.control, c⟩)) none .absent
  | inlineAwait (b pre n) :
      Phases (.done (some ⟨.control, b⟩)) (.awaitMessage pre n) none .absent
  | ackAwait (b pre n m) : Phases (.awaitAck b) (.awaitMessage pre n) (some m) .absent
  | ackSend (b m m') : Phases (.awaitAck b) (.sendAck m') (some m) .absent
  | ack (b m) {c} : Acked c → Phases (.awaitAck b) c (some m) .absent
  | peek (b m) {c} : Acked c → Phases (.peekAck (ackMsg :: b)) c (some m) .absent
  | create (b m) {c} : Acked c → Phases (.createData b) c (some m) .absent
  | listen (b m) {c} : Acked c → Phases (.awaitClient b) c (some m) .listening
  | connected (c m) : Phases (.awaitClient []) (.done (some ⟨.data, c⟩)) (some m) .connected
  | controlConnect (b m m' d) : d ≠ .listening →
      Phases (.done (some ⟨.control, b⟩)) (.connect m') (some m) d
  | controlControl (b c m d) :
      Phases (.done (some ⟨.control, b⟩)) (.done (some ⟨.control, c⟩)) m d
  | dataData (b c m d) : Phases (.done (some ⟨.data, b⟩)) (.done (some ⟨.data, c⟩)) m d

/-- What a side has read and not handed on. -/
def Server.held : Server → Bytes
  | .idle => []
  | .awaitAck buffered => buffered
  | .peekAck buffered => buffered
  | .createData buffered => buffered
  | .awaitClient buffered => buffered
  | .done pipe => pipe.elim [] Pipe.buffer

def Client.held : Client → Bytes
  | .awaitMessage prefetched _ => prefetched
  | .done pipe => pipe.elim [] Pipe.buffer
  | _ => []

/-- The acknowledgement that is still before the server. -/
def ackPending : Server → Client → Bytes
  | .awaitAck _, .connect _ => [ackMsg]
  | .awaitAck _, .done _ => [ackMsg]
  | .peekAck _, _ => [ackMsg]
  | _, _ => []

/-- The message that is still before the client. -/
def messagePending : Client → Option Bytes → Bytes
  | .awaitMessage _ _, message => message.getD []
  | _, _ => []

/-- The channel the client is on decides for both. -/
def Client.channel : Client → Channel
  | .done (some pipe) => pipe.channel
  | _ => .control

theorem Acked.channel {c : Client} (h : Acked c) : c.channel = .control := by
  cases h <;> rfl

theorem Acked.pending {c : Client} (h : Acked c) (b : Bytes) :
    ackPending (.awaitAck b) c = [ackMsg] := by
  cases h <;> rfl

/-- Without a data pipe such a client stays on the control pipe. -/
theorem Acked.phases_control {c : Client} (h : Acked c) (b : Bytes) (m : Bytes) {d : DataPipe}
    (hd : d ≠ .listening) : Phases (.done (some ⟨.control, b⟩)) c (some m) d := by
  cases h with
  | connect m' => exact .controlConnect b m m' d hd
  | control c => exact .controlControl b c _ d

def Server.isDone : Server → Bool
  | .done _ => true
  | _ => false

def Client.isDone : Client → Bool
  | .done _ => true
  | _ => false

/-- Each direction carries what is still due, and the payload behind it. -/
structure Good (s : State) : Prop where
  phases : Phases s.server s.client s.message s.dataPipe
  message : ∀ m, s.message = some m → ∃ guid, m = connectMsg (pipeName guid)
  toServer : s.serverGot ++ (s.server.held ++ (s.wire s.client.channel).toServer) =
    ackPending s.server s.client ++ s.clientSent
  toClient : s.clientGot ++ (s.client.held ++ (s.wire s.client.channel).toClient) =
    messagePending s.client s.message ++ s.serverSent
  serverQuiet : s.server.isDone = false → s.serverSent = [] ∧ s.serverGot = []
  clientQuiet : s.client.isDone = false → s.clientSent = [] ∧ s.clientGot = []
  dataQuiet : s.client.channel = .control → s.data = ⟨[], []⟩

theorem good_initial : Good initial := by
  constructor
  · exact .idleAwait [] 0
  · intro m hm
    cases hm
  · rfl
  · rfl
  · exact fun _ => ⟨rfl, rfl⟩
  · exact fun _ => ⟨rfl, rfl⟩
  · exact fun _ => rfl

/-! ## The message -/

theorem length_connectMsg (name : List Char) : (connectMsg name).length = connectMsgSize := by
  have hwide : ((name.take 39).flatMap wide).length = 2 * (name.take 39).length := by
    rw [List.length_flatMap]
    simp [wide, Nat.mul_comm]
  have hle : (name.take 39).length ≤ 39 := List.length_take_le 39 name
  rw [connectMsg, List.length_append, hwide, List.length_replicate, connectMsgSize]
  omega

theorem looksLike_cons (b₀ b₁ b₂ b₃ : UInt8) (rest : Bytes) :
    looksLikeFramedPayloadHeader (b₀ :: b₁ :: b₂ :: b₃ :: rest) =
      looksLikeFramedPayloadHeader [b₀, b₁, b₂, b₃] := rfl

/-- The first two characters of a name. -/
theorem connectMsg_cons (c c' : Char) (rest : List Char) :
    ∃ rest', connectMsg (c :: c' :: rest) = wide c ++ wide c' ++ rest' :=
  ⟨(rest.take 37).flatMap wide ++
      List.replicate (connectMsgSize - 2 * ((rest.take 37).length + 2)) 0, by simp [connectMsg]⟩

theorem not_framed_name : ∀ d < 16, looksLikeFramedPayloadHeader
    (wide '{' ++ wide (hexDigit d)) = false := by
  decide

/-- No part of the message is taken for the header of a frame. -/
theorem not_framed_part {guid : Option Guid} {part : Bytes}
    (h : part <+: connectMsg (pipeName guid)) : looksLikeFramedPayloadHeader part = false := by
  match part, h with
  | [], _ => rfl
  | [_], _ => rfl
  | [_, _], _ => rfl
  | [_, _, _], _ => rfl
  | b₀ :: b₁ :: b₂ :: b₃ :: rest, h =>
      obtain ⟨rest', hrest⟩ := h
      cases guid with
      | none =>
          obtain ⟨rfl, rfl, rfl, rfl, -⟩ :
              b₀ = 0 ∧ b₁ = 0 ∧ b₂ = 0 ∧ b₃ = 0 ∧ rest ++ rest' = List.replicate 76 0 := by
            simpa [connectMsg, pipeName, connectMsgSize, List.replicate_succ] using hrest
          rfl
      | some guid =>
          obtain ⟨rest'', hname⟩ := connectMsg_cons '{' (hexDigit (guid.data1.toNat / 16 ^ 7 % 16))
            (stringFromGuid2 guid).tail.tail
          rw [show pipeName (some guid) = '{' :: hexDigit (guid.data1.toNat / 16 ^ 7 % 16) ::
            (stringFromGuid2 guid).tail.tail from rfl, hname] at hrest
          have hframe := not_framed_name (guid.data1.toNat / 16 ^ 7 % 16)
            (Nat.mod_lt _ (by omega))
          simp only [wide, List.cons_append, List.nil_append, List.cons.injEq] at hrest hframe
          obtain ⟨rfl, rfl, rfl, rfl, -⟩ := hrest
          rw [looksLike_cons]
          exact hframe

/-! ## The server's steps -/

section Steps

variable {kind : Kind} {s s' : State}

theorem good_unsent (h : Good s) (hidle : s.server = .idle) (kind : Kind) :
    State.failed { s with server := unsent kind } ∨ Good { s with server := unsent kind } := by
  obtain ⟨server, client, message, dataPipe, control, data, ss, cs, sg, cg⟩ := s
  obtain ⟨hphases, hmessage, hserver, hclient, hserverQuiet, hclientQuiet, hdata⟩ := h
  obtain rfl : server = .idle := hidle
  cases kind with
  | factory => exact Or.inl (Or.inl rfl)
  | lazy =>
      cases hphases with
      | idleAwait pre k =>
          exact Or.inr ⟨.inlineAwait [] pre k, hmessage, hserver, hclient, nofun, hclientQuiet,
            hdata⟩
      | idleInline c =>
          exact Or.inr ⟨.controlControl [] c _ _, hmessage, hserver, hclient, nofun, hclientQuiet,
            hdata⟩

theorem good_begin {guid : Option Guid} {sends : Bool} {n : ℕ} (h : Good s)
    (hpatient : Stays kind s (.begin guid sends n))
    (hstep : step kind s (.begin guid sends n) = some s') : s'.failed ∨ Good s' := by
  obtain ⟨hwaits, hwritten⟩ := hpatient
  simp only [step] at hstep
  split at hstep
  · case h_1 hidle =>
      obtain rfl := Option.some.inj hstep
      rw [beginHandshake]
      split
      · exact good_unsent h hidle kind
      split
      · case isTrue hsends =>
          rcases hwritten hsends with rfl | rfl
          · exact Or.inl (Or.inl rfl)
          · rw [List.take_zero, List.append_nil]
            exact good_unsent h hidle kind
      · case isFalse hsends =>
          have hwait := hwaits (Bool.not_eq_false _ ▸ hsends)
          obtain ⟨server, client, message, dataPipe, control, data, ss, cs, sg, cg⟩ := s
          obtain ⟨hphases, hmessage, hserver, hclient, hserverQuiet, hclientQuiet, hdata⟩ := h
          obtain rfl : server = .idle := hidle
          cases hphases with
          | idleInline c => cases hwait
          | idleAwait pre k =>
              refine Or.inr ⟨.ackAwait [] pre k _, ?_, hserver, ?_, hserverQuiet, hclientQuiet,
                hdata⟩
              · rintro m ⟨⟩
                exact ⟨guid, rfl⟩
              · obtain ⟨rfl, -⟩ := hserverQuiet rfl
                obtain ⟨-, rfl⟩ := hclientQuiet rfl
                obtain ⟨rfl, htoClient⟩ : pre = [] ∧ control.toClient = [] := by
                  simpa [Client.held, State.wire, Client.channel, messagePending] using hclient
                simp [Client.held, State.wire, Client.channel, messagePending, htoClient]
  · cases hstep

/-- Nothing is there to be read. -/
theorem good_of_ackRead_nothing {n : ℕ} {s₀ : State} (h : Good s)
    (hstep : (if n = 0 then some s
      else if n ≤ 64 ∧ n ≤ ([] : Bytes).length then some s₀ else none) = some s') : Good s' := by
  split at hstep
  · rwa [← Option.some.inj hstep]
  · split at hstep
    · case isTrue hn hle =>
        have hlength : n ≤ 0 := hle.2
        omega
    · cases hstep

/-- What begins with the acknowledgement is taken for it. -/
theorem classifyAck_cons {rest : Bytes}
    (h : looksLikeFramedPayloadHeader (ackMsg :: rest) = false) :
    classifyAck (ackMsg :: rest) =
      if (ackMsg :: rest).length < 4 then .peekAck (ackMsg :: rest) else .createData rest := by
  simp [classifyAck, h]

/-- The first bytes before the server begin with the acknowledgement. -/
theorem exists_ack {b toServer sent : Bytes} {n : ℕ} (h : b ++ toServer = ackMsg :: sent)
    (hn : n ≠ 0) (hle : n ≤ toServer.length) :
    ∃ rest, b ++ toServer.take n = ackMsg :: rest ∧ rest ++ toServer.drop n = sent := by
  have hsplit : (b ++ toServer.take n) ++ toServer.drop n = ackMsg :: sent := by
    rw [List.append_assoc, List.take_append_drop, h]
  cases hread : b ++ toServer.take n with
  | nil =>
      have hlength := congrArg List.length hread
      simp only [List.length_append, List.length_take, List.length_nil] at hlength
      omega
  | cons x rest =>
      rw [hread, List.cons_append, List.cons.injEq] at hsplit
      exact ⟨rest, by rw [hsplit.1], hsplit.2⟩

theorem good_ackRead {n : ℕ} (h : Good s)
    (hpatient : Stays kind s (.ackRead n))
    (hstep : step kind s (.ackRead n) = some s') : Good s' := by
  obtain ⟨server, client, message, dataPipe, control, data, ss, cs, sg, cg⟩ := s
  have hgood := h
  obtain ⟨hphases, hmessage, hserver, hclient, hserverQuiet, hclientQuiet, hdata⟩ := h
  cases server <;> simp only [step, reduceCtorEq] at hstep
  cases hphases
  · case ackAwait b pre k m =>
      obtain ⟨rfl, -⟩ := hclientQuiet rfl
      obtain ⟨-, -, htoServer⟩ : _ ∧ b = [] ∧ control.toServer = [] := by
        simpa [ackPending, Server.held, State.wire, Client.channel] using hserver
      rw [htoServer] at hstep
      exact good_of_ackRead_nothing hgood hstep
  · case ackSend b m m' =>
      obtain ⟨rfl, -⟩ := hclientQuiet rfl
      obtain ⟨-, -, htoServer⟩ : _ ∧ b = [] ∧ control.toServer = [] := by
        simpa [ackPending, Server.held, State.wire, Client.channel] using hserver
      rw [htoServer] at hstep
      exact good_of_ackRead_nothing hgood hstep
  · case ack b m hacked =>
      split at hstep
      · rwa [← Option.some.inj hstep]
      · case isFalse hn =>
          rw [Option.ite_none_right_eq_some, Option.some.injEq] at hstep
          obtain ⟨⟨-, hle⟩, rfl⟩ := hstep
          obtain ⟨rfl, rfl⟩ := hserverQuiet rfl
          have hack : b ++ control.toServer = ackMsg :: cs := by
            rw [hacked.channel, hacked.pending] at hserver
            exact hserver
          obtain ⟨rest, hread, hrest⟩ := exists_ack hack hn hle
          have hframe : looksLikeFramedPayloadHeader (b ++ control.toServer.take n) = false := by
            simpa [Stays, Server.misreads, Nat.pos_of_ne_zero hn] using hpatient
          rw [hread] at hframe
          rw [hread, classifyAck_cons hframe]
          have hclient' := hclient
          rw [hacked.channel] at hclient'
          split
          · refine ⟨.peek rest m hacked, hmessage, ?_, ?_, fun _ => ⟨rfl, rfl⟩, hclientQuiet, hdata⟩
            · rw [hacked.channel]
              exact congrArg (ackMsg :: ·) hrest
            · rw [hacked.channel]
              exact hclient'
          · refine ⟨.create rest m hacked, hmessage, ?_, ?_, fun _ => ⟨rfl, rfl⟩, hclientQuiet,
              hdata⟩
            · rw [hacked.channel]
              exact hrest
            · rw [hacked.channel]
              exact hclient'

theorem good_ackPeek {n : ℕ} (h : Good s) (hstep : step kind s (.ackPeek n) = some s') :
    Good s' := by
  obtain ⟨server, client, message, dataPipe, control, data, ss, cs, sg, cg⟩ := s
  obtain ⟨hphases, hmessage, hserver, hclient, hserverQuiet, hclientQuiet, hdata⟩ := h
  cases server <;> simp only [step, reduceCtorEq, Option.ite_none_right_eq_some,
    Option.some.injEq] at hstep
  cases hphases
  case peek b m hacked =>
    obtain ⟨-, rfl⟩ := hstep
    rw [hacked.channel] at hserver hclient
    refine ⟨.ack _ m hacked, hmessage, ?_, ?_, hserverQuiet, hclientQuiet, hdata⟩
    · rw [hacked.channel, hacked.pending]
      simpa [Server.held, State.wire, ackPending] using hserver
    · rw [hacked.channel]
      exact hclient

theorem good_ackPeekNothing (h : Good s) (hstep : step kind s (.ackPeekNothing 0) = some s') :
    Good s' := by
  obtain ⟨server, client, message, dataPipe, control, data, ss, cs, sg, cg⟩ := s
  obtain ⟨hphases, hmessage, hserver, hclient, hserverQuiet, hclientQuiet, hdata⟩ := h
  cases server <;> simp only [step, reduceCtorEq, List.drop_zero, Option.ite_none_right_eq_some,
    Option.some.injEq] at hstep
  obtain ⟨-, hstep⟩ := hstep
  cases hphases
  case peek b m hacked =>
    subst hstep
    refine ⟨.create b m hacked, hmessage, ?_, hclient, hserverQuiet, hclientQuiet, hdata⟩
    obtain ⟨-, rfl⟩ := hserverQuiet rfl
    exact (List.cons.inj hserver).2

theorem good_create {created : Bool} (h : Good s)
    (hstep : step kind s (.create created) = some s') : Good s' := by
  obtain ⟨server, client, message, dataPipe, control, data, ss, cs, sg, cg⟩ := s
  obtain ⟨hphases, hmessage, hserver, hclient, hserverQuiet, hclientQuiet, hdata⟩ := h
  cases server <;> simp only [step, reduceCtorEq] at hstep
  cases hphases
  case create b m hacked =>
    split at hstep <;> cases hstep
    · exact ⟨.listen b m hacked, hmessage, hserver, hclient, hserverQuiet, hclientQuiet, hdata⟩
    · exact ⟨hacked.phases_control b m nofun, hmessage, hserver, hclient, nofun,
        hclientQuiet, hdata⟩

theorem good_accept (h : Good s) (hstep : step kind s .accept = some s') : Good s' := by
  obtain ⟨server, client, message, dataPipe, control, data, ss, cs, sg, cg⟩ := s
  obtain ⟨hphases, hmessage, hserver, hclient, hserverQuiet, hclientQuiet, hdata⟩ := h
  cases server <;> simp only [step, reduceCtorEq, Option.ite_none_right_eq_some,
    Option.some.injEq] at hstep
  obtain ⟨rfl, rfl⟩ := hstep
  cases hphases
  exact ⟨.dataData [] _ _ _, hmessage, hserver, hclient, nofun, hclientQuiet, hdata⟩

theorem good_acceptFails (h : Good s) (hpatient : s.dataPipe ≠ .connected)
    (hstep : step kind s .acceptFails = some s') : Good s' := by
  obtain ⟨server, client, message, dataPipe, control, data, ss, cs, sg, cg⟩ := s
  obtain ⟨hphases, hmessage, hserver, hclient, hserverQuiet, hclientQuiet, hdata⟩ := h
  cases server <;> simp only [step, reduceCtorEq, Option.some.injEq] at hstep
  cases hphases
  · case listen b m hacked =>
      subst hstep
      exact ⟨hacked.phases_control b m nofun, hmessage, hserver, hclient, nofun,
        hclientQuiet, hdata⟩
  · case connected c m => exact absurd rfl hpatient

/-! ## The client's steps -/

/-- A client that reads, and does not have 80 bytes yet, loses nothing. -/
theorem read_without_message {n : ℕ} {server : Server} {message : Option Bytes}
    {dataPipe : DataPipe} {control data : Wire} {ss cs sg cg pre : Bytes} {k : ℕ}
    (hshort : pre.length + n < connectMsgSize)
    (hstep : (if n = 0 then
        some (State.mk server (zeroRead pre k) message dataPipe control data ss cs sg cg)
      else if n ≤ 256 ∧ n ≤ control.toClient.length then
        some (State.mk server (classifyMessage (pre ++ control.toClient.take n)) message dataPipe
          { control with toClient := control.toClient.drop n } data ss cs sg cg)
      else none) = some s') :
    ∃ p toClient client, p ++ toClient = pre ++ control.toClient ∧
      s' = State.mk server client message dataPipe { control with toClient } data ss cs sg cg ∧
      ((∃ k', client = .awaitMessage p k') ∨ client = .done (some ⟨.control, p⟩)) := by
  split at hstep
  · cases hstep
    refine ⟨pre, control.toClient, _, rfl, rfl, ?_⟩
    unfold zeroRead
    split
    · exact Or.inr rfl
    · exact Or.inl ⟨k + 1, rfl⟩
  · rw [Option.ite_none_right_eq_some, Option.some.injEq] at hstep
    obtain ⟨⟨-, hle⟩, rfl⟩ := hstep
    refine ⟨pre ++ control.toClient.take n, control.toClient.drop n, _, ?_, rfl, ?_⟩
    · rw [List.append_assoc, List.take_append_drop]
    · have hlength : ¬ connectMsgSize ≤ (pre ++ control.toClient.take n).length := by
        rw [List.length_append, List.length_take]
        omega
      simp only [classifyMessage, if_neg hlength]
      split
      · exact Or.inr rfl
      · exact Or.inl ⟨0, rfl⟩

theorem good_messageRead {n : ℕ} (h : Good s)
    (hpatient : Stays kind s (.messageRead n))
    (hstep : step kind s (.messageRead n) = some s') : Good s' := by
  obtain ⟨server, client, message, dataPipe, control, data, ss, cs, sg, cg⟩ := s
  obtain ⟨hphases, hmessage, hserver, hclient, hserverQuiet, hclientQuiet, hdata⟩ := h
  cases client <;> simp only [step, reduceCtorEq] at hstep
  cases hphases
  · case idleAwait pre k =>
      have hshort : pre.length + n < connectMsgSize := by
        simpa [Stays, Client.settles] using hpatient
      obtain ⟨p, toClient, client, hkept, rfl, hnext⟩ := read_without_message hshort hstep
      have hclient' : cg ++ (p ++ toClient) = [] ++ ss := by rwa [hkept]
      rcases hnext with ⟨k', rfl⟩ | rfl
      · exact ⟨.idleAwait p k', hmessage, hserver, hclient', hserverQuiet, hclientQuiet, hdata⟩
      · exact ⟨.idleInline p, hmessage, hserver, hclient', hserverQuiet, nofun, hdata⟩
  · case inlineAwait pre k b =>
      have hshort : pre.length + n < connectMsgSize := by
        simpa [Stays, Client.settles] using hpatient
      obtain ⟨p, toClient, client, hkept, rfl, hnext⟩ := read_without_message hshort hstep
      have hclient' : cg ++ (p ++ toClient) = [] ++ ss := by rwa [hkept]
      rcases hnext with ⟨k', rfl⟩ | rfl
      · exact ⟨.inlineAwait b p k', hmessage, hserver, hclient', hserverQuiet, hclientQuiet,
          hdata⟩
      · exact ⟨.controlControl b p _ _, hmessage, hserver, hclient', hserverQuiet, nofun, hdata⟩
  · case ackAwait pre k b m =>
      split at hstep
      · case isTrue hn =>
          cases hstep
          have hfew : k < 4 := by
            simpa [Stays, Client.settles, hn] using hpatient
          rw [zeroRead, if_neg (by omega)]
          exact ⟨.ackAwait b pre (k + 1) m, hmessage, hserver, hclient, hserverQuiet,
            hclientQuiet, hdata⟩
      · rw [Option.ite_none_right_eq_some, Option.some.injEq] at hstep
        obtain ⟨⟨-, hle⟩, rfl⟩ := hstep
        obtain ⟨rfl, rfl⟩ := hserverQuiet rfl
        obtain ⟨rfl, rfl⟩ := hclientQuiet rfl
        obtain ⟨guid, rfl⟩ := hmessage m rfl
        have hsplit : (pre ++ control.toClient.take n) ++ control.toClient.drop n =
            connectMsg (pipeName guid) := by
          rw [List.append_assoc, List.take_append_drop]
          simpa [Client.held, State.wire, Client.channel, messagePending] using hclient
        rw [classifyMessage]
        split
        · case isTrue hlong =>
            have hrest : control.toClient.drop n = [] := by
              have hlength := congrArg List.length hsplit
              rw [List.length_append, length_connectMsg] at hlength
              exact List.length_eq_zero_iff.mp (by omega)
            exact ⟨.ackSend b _ _, hmessage, hserver, hrest, fun _ => ⟨rfl, rfl⟩,
              fun _ => ⟨rfl, rfl⟩, hdata⟩
        · rw [not_framed_part ⟨_, hsplit⟩, if_neg (by decide)]
          refine ⟨.ackAwait b _ 0 _, hmessage, hserver, ?_, fun _ => ⟨rfl, rfl⟩,
            fun _ => ⟨rfl, rfl⟩, hdata⟩
          simpa [Client.held, State.wire, Client.channel, messagePending] using hsplit
  all_goals contradiction

theorem good_messageDeadline (h : Good s) (hpatient : s.message = none)
    (hstep : step kind s .messageDeadline = some s') : Good s' := by
  obtain ⟨server, client, message, dataPipe, control, data, ss, cs, sg, cg⟩ := s
  obtain ⟨hphases, hmessage, hserver, hclient, hserverQuiet, hclientQuiet, hdata⟩ := h
  obtain rfl : message = none := hpatient
  cases client <;> simp only [step, reduceCtorEq, Option.some.injEq] at hstep
  subst hstep
  cases hphases
  · case idleAwait pre k =>
      exact ⟨.idleInline pre, hmessage, hserver, hclient, hserverQuiet, nofun, hdata⟩
  · case inlineAwait pre k b =>
      exact ⟨.controlControl b pre _ _, hmessage, hserver, hclient, hserverQuiet, nofun, hdata⟩

theorem good_ack {sends : Bool} {n : ℕ} (h : Good s)
    (hstep : step kind s (.ack sends n) = some s') :
    s'.failed ∨ Good s' := by
  obtain ⟨server, client, message, dataPipe, control, data, ss, cs, sg, cg⟩ := s
  obtain ⟨hphases, hmessage, hserver, hclient, hserverQuiet, hclientQuiet, hdata⟩ := h
  cases client <;> simp only [step, reduceCtorEq] at hstep
  cases hphases
  · case ackSend m' b m =>
      split at hstep <;> cases hstep
      · refine Or.inr ⟨.ack b m (.connect m'), hmessage, ?_, hclient, hserverQuiet, hclientQuiet,
          hdata⟩
        obtain ⟨-, rfl⟩ := hserverQuiet rfl
        obtain ⟨rfl, -⟩ := hclientQuiet rfl
        obtain ⟨rfl, htoServer⟩ : b = [] ∧ control.toServer = [] := by
          simpa [ackPending, Server.held, State.wire, Client.channel] using hserver
        simp [ackPending, Server.held, State.wire, Client.channel, htoServer]
      · exact Or.inl (Or.inr rfl)
  all_goals contradiction

theorem good_connect (h : Good s) (hstep : step kind s .connect = some s') : Good s' := by
  obtain ⟨server, client, message, dataPipe, control, data, ss, cs, sg, cg⟩ := s
  obtain ⟨hphases, hmessage, hserver, hclient, hserverQuiet, hclientQuiet, hdata⟩ := h
  cases client <;> simp only [step, reduceCtorEq, Option.ite_none_right_eq_some,
    Option.some.injEq] at hstep
  obtain ⟨⟨rfl, rfl⟩, rfl⟩ := hstep
  cases hphases
  · case listen m b hacked =>
      obtain ⟨rfl, rfl⟩ := hserverQuiet rfl
      obtain ⟨rfl, rfl⟩ := hclientQuiet rfl
      obtain rfl := hdata rfl
      obtain ⟨rfl, -⟩ : b = [] ∧ control.toServer = [] := by
        simpa [ackPending, Server.held, State.wire, Client.channel] using hserver
      exact ⟨.connected [] m, hmessage, rfl, rfl, fun _ => ⟨rfl, rfl⟩, nofun, nofun⟩
  · case controlConnect m b hd => exact absurd rfl hd

theorem good_connectFails (h : Good s) (hstep : step kind s .connectFails = some s') :
    Good s' := by
  obtain ⟨server, client, message, dataPipe, control, data, ss, cs, sg, cg⟩ := s
  obtain ⟨hphases, hmessage, hserver, hclient, hserverQuiet, hclientQuiet, hdata⟩ := h
  cases client <;> simp only [step, reduceCtorEq, Option.some.injEq] at hstep
  subst hstep
  cases hphases
  · case ack b m hacked =>
      exact ⟨.ack b m (.control []), hmessage, hserver, hclient, hserverQuiet, nofun, hdata⟩
  · case peek b m hacked =>
      exact ⟨.peek b m (.control []), hmessage, hserver, hclient, hserverQuiet, nofun, hdata⟩
  · case create b m hacked =>
      exact ⟨.create b m (.control []), hmessage, hserver, hclient, hserverQuiet, nofun, hdata⟩
  · case listen b m hacked =>
      exact ⟨.listen b m (.control []), hmessage, hserver, hclient, hserverQuiet, nofun, hdata⟩
  · case controlConnect m' b m hd =>
      exact ⟨.controlControl b [] _ _, hmessage, hserver, hclient, hserverQuiet, nofun, hdata⟩

/-! ## Payload -/

/-- What is sent joins the end of its direction. -/
theorem append_stream {got held wire pending sent : Bytes}
    (h : got ++ (held ++ wire) = pending ++ sent) (payload : Bytes) :
    got ++ (held ++ (wire ++ payload)) = pending ++ (sent ++ payload) := by
  rw [← List.append_assoc, ← List.append_assoc, ← List.append_assoc, List.append_assoc got, h]

/-- What is read leaves the front of it. -/
theorem receive_spec {pipe pipe' : Pipe} {n : ℕ} {incoming incoming' bytes : Bytes}
    (h : pipe.receive n incoming = (bytes, pipe', incoming')) :
    pipe'.channel = pipe.channel ∧
      ∀ got, (got ++ bytes) ++ (pipe'.buffer ++ incoming') = got ++ (pipe.buffer ++ incoming) := by
  unfold Pipe.receive at h
  split at h
  · cases h
    refine ⟨rfl, fun got => ?_⟩
    rw [List.append_assoc, ← List.append_assoc _ _ incoming, List.take_append_drop]
  · case isFalse hempty =>
      cases h
      refine ⟨rfl, fun got => ?_⟩
      rw [not_not.mp hempty, List.nil_append, List.nil_append, List.append_assoc,
        List.take_append_drop]

theorem good_serverSend {payload : Bytes} (h : Good s)
    (hstep : step kind s (.serverSend payload) = some s') : Good s' := by
  obtain ⟨server, client, message, dataPipe, control, data, ss, cs, sg, cg⟩ := s
  obtain ⟨hphases, hmessage, hserver, hclient, hserverQuiet, hclientQuiet, hdata⟩ := h
  rcases server with _ | _ | _ | _ | _ | _ | pipe <;>
    simp only [step, reduceCtorEq, Option.some.injEq] at hstep
  subst hstep
  cases hphases
  · case inlineAwait b pre k =>
      exact ⟨.inlineAwait b pre k, hmessage, hserver, append_stream hclient payload, nofun,
        hclientQuiet, hdata⟩
  · case controlConnect b m m' hd =>
      exact ⟨.controlConnect b m m' _ hd, hmessage, hserver, append_stream hclient payload, nofun,
        hclientQuiet, hdata⟩
  · case controlControl b c =>
      exact ⟨.controlControl b c _ _, hmessage, hserver, append_stream hclient payload, nofun,
        hclientQuiet, hdata⟩
  · case dataData b c =>
      exact ⟨.dataData b c _ _, hmessage, hserver, append_stream hclient payload, nofun,
        hclientQuiet, nofun⟩

theorem good_clientSend {payload : Bytes} (h : Good s)
    (hstep : step kind s (.clientSend payload) = some s') : Good s' := by
  obtain ⟨server, client, message, dataPipe, control, data, ss, cs, sg, cg⟩ := s
  obtain ⟨hphases, hmessage, hserver, hclient, hserverQuiet, hclientQuiet, hdata⟩ := h
  have hserver' := append_stream hserver payload
  rcases client with _ | _ | _ | _ | ⟨channel, c⟩ <;>
    simp only [step, reduceCtorEq, Option.some.injEq] at hstep
  subst hstep
  cases channel with
  | control => exact ⟨hphases, hmessage, hserver', hclient, hserverQuiet, nofun, hdata⟩
  | data => exact ⟨hphases, hmessage, hserver', hclient, hserverQuiet, nofun, nofun⟩

theorem good_serverReceive {n : ℕ} (h : Good s)
    (hstep : step kind s (.serverReceive n) = some s') : Good s' := by
  obtain ⟨server, client, message, dataPipe, control, data, ss, cs, sg, cg⟩ := s
  obtain ⟨hphases, hmessage, hserver, hclient, hserverQuiet, hclientQuiet, hdata⟩ := h
  rcases server with _ | _ | _ | _ | _ | _ | pipe <;>
    simp only [step, reduceCtorEq, Option.some.injEq] at hstep
  subst hstep
  cases hphases
  all_goals
    rcases hreceive : Pipe.receive _ n _ with ⟨bytes, ⟨channel, b'⟩, incoming⟩
    obtain ⟨hchannel, hkept⟩ := receive_spec hreceive
    cases hchannel
  · case inlineAwait.refl b pre k =>
      exact ⟨.inlineAwait b' pre k, hmessage, (hkept sg).trans hserver, hclient, nofun,
        hclientQuiet, hdata⟩
  · case controlConnect.refl b m m' hd =>
      exact ⟨.controlConnect b' m m' _ hd, hmessage, (hkept sg).trans hserver, hclient, nofun,
        hclientQuiet, hdata⟩
  · case controlControl.refl b c =>
      exact ⟨.controlControl b' c _ _, hmessage, (hkept sg).trans hserver, hclient, nofun,
        hclientQuiet, hdata⟩
  · case dataData.refl b c =>
      exact ⟨.dataData b' c _ _, hmessage, (hkept sg).trans hserver, hclient, nofun,
        hclientQuiet, nofun⟩

/-- What a client with a pipe has read makes no difference to where the two sides are. -/
theorem Phases.client_buffer {server : Server} {channel : Channel} {c : Bytes}
    {message : Option Bytes} {dataPipe : DataPipe}
    (h : Phases server (.done (some ⟨channel, c⟩)) message dataPipe) (c' : Bytes) :
    Phases server (.done (some ⟨channel, c'⟩)) message dataPipe := by
  cases h with
  | idleInline => exact .idleInline c'
  | ack b m hacked =>
      cases hacked
      exact .ack b m (.control c')
  | peek b m hacked =>
      cases hacked
      exact .peek b m (.control c')
  | create b m hacked =>
      cases hacked
      exact .create b m (.control c')
  | listen b m hacked =>
      cases hacked
      exact .listen b m (.control c')
  | connected _ m => exact .connected c' m
  | controlControl b => exact .controlControl b c' _ _
  | dataData b => exact .dataData b c' _ _

theorem ackPending_done (server : Server) (p q : Option Pipe) :
    ackPending server (.done p) = ackPending server (.done q) := by
  cases server <;> rfl

theorem good_clientReceive {n : ℕ} (h : Good s)
    (hstep : step kind s (.clientReceive n) = some s') : Good s' := by
  obtain ⟨server, client, message, dataPipe, control, data, ss, cs, sg, cg⟩ := s
  obtain ⟨hphases, hmessage, hserver, hclient, hserverQuiet, hclientQuiet, hdata⟩ := h
  rcases client with _ | _ | _ | _ | ⟨channel, c⟩ <;>
    simp only [step, reduceCtorEq, Option.some.injEq] at hstep
  subst hstep
  rcases hreceive : Pipe.receive _ n _ with ⟨bytes, ⟨channel', c'⟩, incoming⟩
  obtain ⟨hchannel, hkept⟩ := receive_spec hreceive
  obtain rfl : channel' = channel := hchannel
  have hclient' := (hkept cg).trans hclient
  have hphases' := hphases.client_buffer c'
  rw [ackPending_done server _ (some ⟨channel', c'⟩)] at hserver
  cases channel' with
  | control => exact ⟨hphases', hmessage, hserver, hclient', hserverQuiet, nofun, hdata⟩
  | data => exact ⟨hphases', hmessage, hserver, hclient', hserverQuiet, nofun, nofun⟩

theorem State.setWire_wire (s : State) (channel : Channel) :
    s.setWire (s.wire channel) channel = s := by
  cases channel <;> rfl

/-- A wait that takes nothing changes nothing. -/
theorem eq_of_timeout {label : Label}
    (h : label = .ackTimeout 0 ∨ label = .messageTimeout 0 ∨ label = .serverTimeout 0 ∨
      label = .clientTimeout 0) (hstep : step kind s label = some s') : s' = s := by
  rcases h with rfl | rfl | rfl | rfl <;> simp only [step, List.drop_zero] at hstep
  all_goals
    split at hstep
    · rw [Option.ite_none_right_eq_some, Option.some.injEq] at hstep
      first
        | exact hstep.2.symm
        | exact hstep.2.symm.trans (State.setWire_wire s _)
    · cases hstep

/-! ## All runs -/

theorem server_failed_step {label : Label} (h : s.server = .done none)
    (hstep : step kind s label = some s') : s'.server = .done none := by
  cases label <;> simp only [step, h, reduceCtorEq] at hstep
  all_goals
    repeat' split at hstep
    all_goals cases hstep <;> simp [h]

theorem client_failed_step {label : Label} (h : s.client = .done none)
    (hstep : step kind s label = some s') : s'.client = .done none := by
  cases label <;> simp only [step, beginHandshake, h, reduceCtorEq] at hstep
  all_goals
    repeat' split at hstep
    all_goals cases hstep <;> simp [h]

/-- A side without a pipe stays without one. -/
theorem failed_step {label : Label} (h : s.failed) (hstep : step kind s label = some s') :
    s'.failed := by
  rcases h with h | h
  · exact Or.inl (server_failed_step h hstep)
  · exact Or.inr (client_failed_step h hstep)

theorem messageFailed_failed (hstep : step kind s .messageFailed = some s') : s'.failed := by
  simp only [step] at hstep
  split at hstep <;> cases hstep
  exact Or.inr rfl

/-- **One patient step** keeps both directions. -/
theorem good_step {label : Label} (h : Good s) (hpatient : Patient kind s label)
    (hstep : step kind s label = some s') : s'.failed ∨ Good s' := by
  rcases hpatient with hfailed | hpatient
  · exact Or.inl (failed_step hfailed hstep)
  · cases label with
    | begin guid sends n => exact good_begin h hpatient hstep
    | ackRead n => exact Or.inr (good_ackRead h hpatient hstep)
    | ackTimeout n =>
        obtain rfl : n = 0 := hpatient
        exact Or.inr (eq_of_timeout (by simp) hstep ▸ h)
    | ackPeek n => exact Or.inr (good_ackPeek h hstep)
    | ackPeekNothing n =>
        obtain rfl : n = 0 := hpatient
        exact Or.inr (good_ackPeekNothing h hstep)
    | ackPeekFailed => exact hpatient.elim
    | ackDeadline => exact hpatient.elim
    | ackFailed => exact hpatient.elim
    | create created => exact Or.inr (good_create h hstep)
    | accept => exact Or.inr (good_accept h hstep)
    | acceptFails => exact Or.inr (good_acceptFails h hpatient hstep)
    | messageRead n => exact Or.inr (good_messageRead h hpatient hstep)
    | messageTimeout n =>
        obtain rfl : n = 0 := hpatient
        exact Or.inr (eq_of_timeout (by simp) hstep ▸ h)
    | messageDeadline => exact Or.inr (good_messageDeadline h hpatient hstep)
    | messageFailed => exact Or.inl (messageFailed_failed hstep)
    | ack sends n => exact good_ack h hstep
    | connect => exact Or.inr (good_connect h hstep)
    | connectFails => exact Or.inr (good_connectFails h hstep)
    | serverSend payload => exact Or.inr (good_serverSend h hstep)
    | clientSend payload => exact Or.inr (good_clientSend h hstep)
    | serverReceive n => exact Or.inr (good_serverReceive h hstep)
    | clientReceive n => exact Or.inr (good_clientReceive h hstep)
    | serverTimeout n =>
        obtain rfl : n = 0 := hpatient
        exact Or.inr (eq_of_timeout (by simp) hstep ▸ h)
    | clientTimeout n =>
        obtain rfl : n = 0 := hpatient
        exact Or.inr (eq_of_timeout (by simp) hstep ▸ h)

end Steps

theorem Good.agrees {s : State} (h : Good s) : Agrees s := by
  intro p q hp hq
  obtain ⟨server, client, message, dataPipe, control, data, ss, cs, sg, cg⟩ := s
  obtain ⟨hphases, -, hserver, hclient, -, -, -⟩ := h
  cases hp
  cases hq
  cases hphases
  · exact ⟨rfl, hserver, hclient⟩
  · exact ⟨rfl, hserver, hclient⟩

/-- **The two sides agree** in every state of a run in which neither gives up on the other. -/
theorem handshake_agrees {kind : Kind} {labels : List Label} {s : State}
    (hmeets : RunMeets (step kind) (Patient kind) initial labels)
    (hrun : run (step kind) initial labels = some s) : Agrees s := by
  have hinv : s.failed ∨ Good s := by
    refine run_invariant_of_meets (P := fun s => s.failed ∨ Good s) ?_ (Or.inr good_initial)
      hmeets hrun
    rintro s label s' (hfailed | hgood) hpatient hstep
    · exact Or.inl (failed_step hfailed hstep)
    · exact good_step hgood hpatient hstep
  rcases hinv with (hfailed | hfailed) | hgood
  · intro p q hp
    rw [hfailed] at hp
    cases hp
  · intro p q hp hq
    rw [hfailed] at hq
    cases hq
  · exact hgood.agrees

/-! ## Two runs -/

def someGuid : Guid :=
  ⟨0x2F1E60A5, 0x0C3A, 0x4C52, [0x9F, 0x43, 0x7B, 0x40, 0xC1, 0xE2, 0xD6, 0xAB]⟩

/-- The message comes in two pieces, and both sides move to the data pipe. -/
def bothMove : List Label :=
  [.begin (some someGuid) true 80, .ackTimeout 0, .messageRead 30, .messageTimeout 0,
    .messageRead 50, .ack true 1, .ackRead 1, .ackPeekNothing 0, .create true, .connect, .accept,
    .clientTimeout 0, .serverSend [7, 8], .clientReceive 1]

theorem handshake_agrees_bothMove : ∃ s, run (step .lazy) initial bothMove = some s ∧
    s.server = .done (some ⟨.data, []⟩) ∧ s.clientGot = [7] ∧ Agrees s := by
  obtain ⟨s, hrun, hs⟩ := (Option.any_eq_true _ _).mp
    (show (run (step .lazy) initial bothMove).any
      (fun s => s.server = .done (some ⟨.data, []⟩) ∧ s.clientGot = [7]) = true by rfl)
  have hmeets : RunMeets (step .lazy) (Patient .lazy) initial bothMove := by decide +kernel
  have hs := of_decide_eq_true hs
  exact ⟨s, hrun, hs.1, hs.2, handshake_agrees hmeets hrun⟩

/-- The client waits two seconds and takes the pipe to be inline; only then does the server,
at its first use of the pipe, send its message. -/
def clientGivesUp : List Label :=
  [.messageDeadline, .begin (some someGuid) true 80, .ackDeadline, .serverSend [1],
    .clientReceive 1]

/-- Its reader then gets the first byte of the message. -/
theorem handshake_disagrees : ∃ s, run (step .lazy) initial clientGivesUp = some s ∧
    s.clientGot = [0x7B] ∧ s.serverSent = [1] ∧ ¬ Agrees s := by
  obtain ⟨s, hrun, hs⟩ := (Option.any_eq_true _ _).mp
    (show (run (step .lazy) initial clientGivesUp).any
      (fun s => s.server = .done (some ⟨.control, []⟩) ∧ s.client = .done (some ⟨.control, []⟩) ∧
        s.clientGot = [0x7B] ∧ s.serverSent = [1]) = true by rfl)
  obtain ⟨hserver, hclient, hgot, hsent⟩ := of_decide_eq_true hs
  refine ⟨s, hrun, hgot, hsent, ?_⟩
  intro h
  have hfirst := (h _ _ hserver hclient).2.2
  rw [hgot, hsent] at hfirst
  cases hfirst

end LuminalShine.Pipes.Handshake
