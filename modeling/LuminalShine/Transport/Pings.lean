import LuminalShine.Lib.Assoc
import LuminalShine.Lib.Run
import Mathlib.Data.List.Infix

/-!
# The first pings of a session

A session learns from a ping where its client wants the video, and from another one where it
wants the audio.  `recv_ping` gives the thread that reads the sockets a queue under the session's
ping payload, and for a client without session identifiers under the client's address too, and
waits for what is put in there.  Behind the wait it withdraws its keys.  All of this goes
through a queue that the reading thread empties when it handles a datagram.

The thread has one endpoint for the receives on both sockets.  A receive writes it when it
completes, which may be before what came on the other socket is handled: the sender of that one is
lost then.

The layout of a ping is the client library's: `payloadSize` bytes of payload come first, and a
ping has `pingSize` bytes.

## Main definitions

* `Ask`, `Receiver` — the calls of `recv_ping`, and the reading thread with its queues.
* `Receiver.step` — what the calls and the reading thread do, in any order.
* `Receiver.effective` — the registrations as the next datagram finds them.
* `Orderly` — no receive completes while what came on the other socket is yet to be handled.
-/

namespace LuminalShine.Transport.Pings

open LuminalShine.Lib

/-! ## Registrations -/

/-- `socket_e` -/
inductive Socket where
  | video
  | audio
  deriving DecidableEq, Repr

structure Endpoint where
  address : String
  port : ℕ
  deriving DecidableEq, Repr

/-- `av_session_id_t` -/
inductive Key where
  | address (address : String)
  | payload (payload : List UInt8)
  deriving DecidableEq, Repr

/-- What a call of `recv_ping` is given. -/
structure Ask where
  socket : Socket
  /-- `config.mlFeatureFlags & ML_FF_SESSION_ID_V1` -/
  sessionIdV1 : Bool
  expectedPayload : List UInt8
  address : String

/-- The keys of the call while its peer has this address. -/
def Ask.keysAt (a : Ask) (address : String) : List Key :=
  if a.sessionIdV1 then [.payload a.expectedPayload]
  else [.address address, .payload a.expectedPayload]

/-- Under which keys the call registers its queue, in this order. -/
def Ask.keys (a : Ask) : List Key := a.keysAt a.address

/-- `"PING"` -/
def legacyPing : List UInt8 := [80, 73, 78, 71]

/-- The tests of `recv_ping` on a message. -/
def Ask.accepts (a : Ask) (msg : List UInt8) : Bool :=
  decide (a.expectedPayload <:+: msg) || (!a.sessionIdV1 && msg == legacyPing)

/-- How far a call has come: the keys it has yet to register, and when there is none it waits;
then the keys it has yet to withdraw. -/
inductive Stage where
  | before
  | asking (left : List Key)
  | leaving (left : List Key)
  deriving DecidableEq, Repr

/-- A call of `recv_ping` and its queue. -/
structure Call where
  stage : Stage := .before
  messages : List (Endpoint × List UInt8) := []
  running : Bool := true
  peer : Option Endpoint := none

/-- What a receive has done: the endpoint as it left it, the bytes, and whether it failed. -/
structure Datagram where
  socket : Socket
  peer : Endpoint
  bytes : List UInt8
  error : Bool
  deriving DecidableEq, Repr

/-- The calls by number, the registrations on their way, and the thread that reads the sockets:
its endpoint, what each socket's receive has left to be handled, and the handler that is under
way with the call it has found. -/
structure Receiver where
  call : ℕ → Call
  messageQueueQueue : List (Socket × Key × Option ℕ)
  peerToSession : Socket → AList fun _ : Key => ℕ
  peer : Endpoint
  buf : Socket → Option (List UInt8 × Bool)
  handling : Option (Socket × Option ℕ)
  /-- History: what has been received. -/
  received : List Datagram

def Receiver.start : Receiver where
  call := fun _ => {}
  messageQueueQueue := []
  peerToSession := fun _ => ∅
  peer := ⟨"0.0.0.0", 0⟩
  buf := fun _ => none
  handling := none
  received := []

/-- The bound of both kinds of queues. -/
def maxElements : ℕ := 30

/-- `raise` on a queue that is emptied when it is full. -/
def raise {α : Type} (queue : List α) (a : α) : List α :=
  if maxElements ≤ queue.length then [a] else queue ++ [a]

/-- The steps: a call begins, registers its next key, takes the next message, gives up waiting,
withdraws its next key; a receive completes; its handler looks for the call, and is done. -/
inductive Op where
  | begin (call : ℕ)
  | register (call : ℕ)
  | pop (call : ℕ)
  | timeout (call : ℕ)
  | withdraw (call : ℕ)
  | receive (d : Datagram)
  | look (socket : Socket)
  | finish

/-- One registration or withdrawal is read. -/
def applyRegistration (m : Socket → AList fun _ : Key => ℕ) (r : Socket × Key × Option ℕ) :
    Socket → AList fun _ : Key => ℕ :=
  match r.2.2 with
  | some k => Function.update m r.1 ((m r.1).insert r.2.1 k)
  | none => Function.update m r.1 ((m r.1).erase r.2.1)

namespace Receiver

def update (s : Receiver) (k : ℕ) (c : Call) : Receiver :=
  { s with call := Function.update s.call k c }

/-- The registrations as `populate_peer_to_session` would leave them. -/
def effective (s : Receiver) : Socket → AList fun _ : Key => ℕ :=
  s.messageQueueQueue.foldl applyRegistration s.peerToSession

def populatePeerToSession (s : Receiver) : Receiver :=
  { s with peerToSession := s.effective, messageQueueQueue := [] }

/-- `raise` on the queue of a call. -/
def hand (s : Receiver) (k : ℕ) (msg : Endpoint × List UInt8) : Receiver :=
  if (s.call k).running then
    s.update k { s.call k with messages := raise (s.call k).messages msg }
  else s

section Steps
variable (payloadSize pingSize : ℕ) (ask : ℕ → Ask)

/-- Under which key a datagram is looked up. -/
def keyOf (peer : Endpoint) (bytes : List UInt8) : Option Key :=
  if bytes.length = 4 then some (.address peer.address)
  else if pingSize ≤ bytes.length then some (.payload (bytes.take payloadSize))
  else none

/-- A receive completes. -/
def receive (s : Receiver) (d : Datagram) : Receiver :=
  { s with
    peer := d.peer
    buf := Function.update s.buf d.socket (some (d.bytes, d.error))
    received := s.received ++ [d] }

/-- `recv_func` up to `raise`. -/
def look (s : Receiver) (socket : Socket) (bytes : List UInt8) (error : Bool) : Receiver :=
  let s := s.populatePeerToSession
  if error || bytes.isEmpty then { s with handling := some (socket, none) }
  else
    { s with handling := some (socket,
        (keyOf payloadSize pingSize s.peer bytes).bind (s.peerToSession socket).lookup) }

/-- The rest of `recv_func`: the message is handed over with the endpoint as it is by now, and the
socket is read again. -/
def finish (s : Receiver) (socket : Socket) (found : Option ℕ) (bytes : List UInt8) : Receiver :=
  let s := { s with handling := none, buf := Function.update s.buf socket none }
  match found with
  | some k => s.hand k (s.peer, bytes)
  | none => s

/-- A call is past its wait: its queue is stopped and its keys are to be withdrawn, that of its
peer's address by now. -/
def leave (s : Receiver) (k : ℕ) (address : String) : Receiver :=
  s.update k { s.call k with stage := .leaving ((ask k).keysAt address), running := false }

def step (s : Receiver) : Op → Option Receiver
  | .begin k =>
      if (s.call k).stage = .before then
        some (s.update k { s.call k with stage := .asking (ask k).keys })
      else none
  | .register k =>
      match (s.call k).stage with
      | .asking (key :: left) =>
          some { s.update k { s.call k with stage := .asking left } with
            messageQueueQueue := raise s.messageQueueQueue ((ask k).socket, key, some k) }
      | _ => none
  | .pop k =>
      match (s.call k).stage, (s.call k).messages with
      | .asking [], (peer, msg) :: rest =>
          let s := s.update k { s.call k with messages := rest }
          if (ask k).accepts msg then
            some ((s.update k { s.call k with peer := some peer }).leave ask k peer.address)
          else some s
      | _, _ => none
  | .timeout k =>
      if (s.call k).stage = .asking [] then some (s.leave ask k (ask k).address) else none
  | .withdraw k =>
      match (s.call k).stage with
      | .leaving (key :: left) =>
          some { s.update k { s.call k with stage := .leaving left } with
            messageQueueQueue := raise s.messageQueueQueue ((ask k).socket, key, none) }
      | _ => none
  | .receive d => if s.buf d.socket = none then some (s.receive d) else none
  | .look socket =>
      match s.handling, s.buf socket with
      | none, some (bytes, error) => some (s.look payloadSize pingSize socket bytes error)
      | _, _ => none
  | .finish =>
      match s.handling with
      | some (socket, found) =>
          (s.buf socket).map fun buffer => s.finish socket found buffer.1
      | none => none

end Steps

end Receiver

/-- No receive completes while what came on the other socket is yet to be handled. -/
def Orderly (s : Receiver) : Op → Prop
  | .receive _ => ∀ socket, s.buf socket = none
  | _ => True

/-- What is read last under a key counts. -/
theorem lookup_applyRegistration {m : Socket → AList fun _ : Key => ℕ} {on socket : Socket}
    {key key' : Key} {call : Option ℕ} {j : ℕ} :
    (applyRegistration m (on, key, call) socket).lookup key' = some j ↔
      if socket = on ∧ key' = key then call = some j else (m socket).lookup key' = some j := by
  by_cases hon : socket = on
  · subst hon
    by_cases hkey : key' = key
    · subst hkey
      cases call <;> simp [applyRegistration]
    · cases call <;> simp [applyRegistration, hkey]
  · cases call <;> simp [applyRegistration, hon]

/-! ## Who a session takes for its client -/

section Credentials
variable {orderly : Prop} {payloadSize pingSize : ℕ} {ask : ℕ → Ask} {s : Receiver}

/-- The datagram is looked up under a key of the call. -/
def Reaches (payloadSize pingSize : ℕ) (a : Ask) (msg : Endpoint × List UInt8) : Prop :=
  ∃ key ∈ a.keys, Receiver.keyOf payloadSize pingSize msg.1 msg.2 = some key

/-- A ping that starts with the payload of the call, or for a client without session identifiers
four bytes from its address. -/
theorem reaches_iff {a : Ask} {msg : Endpoint × List UInt8} :
    Reaches payloadSize pingSize a msg ↔
      msg.2.length ≠ 4 ∧ pingSize ≤ msg.2.length ∧
          msg.2.take payloadSize = a.expectedPayload ∨
        a.sessionIdV1 = false ∧ msg.2.length = 4 ∧ msg.1.address = a.address := by
  simp only [Reaches, Receiver.keyOf, Ask.keys, Ask.keysAt]
  cases hv : a.sessionIdV1
  · by_cases hfour : msg.2.length = 4
    · simp [hfour]
    · by_cases hlong : pingSize ≤ msg.2.length <;> simp [hfour, hlong]
  · by_cases hfour : msg.2.length = 4
    · simp [hfour]
    · by_cases hlong : pingSize ≤ msg.2.length <;> simp [hfour, hlong]

/-- A registration belongs to the call it names. -/
def Owned (ask : ℕ → Ask) (r : Socket × Key × Option ℕ) : Prop :=
  ∀ k, r.2.2 = some k → (ask k).socket = r.1 ∧ r.2.1 ∈ (ask k).keys

/-- Whom a datagram may be taken to come from: whomever a receive has left in the endpoint, and
as long as the receives are orderly its sender. -/
structure Seen (orderly : Prop) (received : List Datagram) (socket : Socket)
    (bytes : List UInt8) (error : Bool) (p : Endpoint) : Prop where
  came : ∃ q, ⟨socket, q, bytes, error⟩ ∈ received
  left : ∃ d ∈ received, d.peer = p
  own : orderly → ⟨socket, p, bytes, error⟩ ∈ received

/-- The datagram reaches the call under the endpoint it was looked up with. -/
def Found (orderly : Prop) (payloadSize pingSize : ℕ) (received : List Datagram) (a : Ask)
    (bytes : List UInt8) : Prop :=
  ∃ e, Seen orderly received a.socket bytes false e ∧ Reaches payloadSize pingSize a (e, bytes)

/-- What the message says of itself. -/
structure Shows (orderly : Prop) (payloadSize pingSize : ℕ) (received : List Datagram) (a : Ask)
    (msg : Endpoint × List UInt8) : Prop where
  seen : Seen orderly received a.socket msg.2 false msg.1
  found : Found orderly payloadSize pingSize received a msg.2
  same : orderly → Reaches payloadSize pingSize a msg

/-- Everything on its way to a session has come for it. -/
structure Credible (orderly : Prop) (payloadSize pingSize : ℕ) (ask : ℕ → Ask) (s : Receiver) :
    Prop where
  pending : ∀ r ∈ s.messageQueueQueue, Owned ask r
  mapped : ∀ socket key k, (s.peerToSession socket).lookup key = some k →
    (ask k).socket = socket ∧ key ∈ (ask k).keys
  left : ∀ k left, (s.call k).stage = .asking left → left ⊆ (ask k).keys
  buffered : ∀ socket bytes error, s.buf socket = some (bytes, error) →
    Seen orderly s.received socket bytes error s.peer
  handling : ∀ socket k, s.handling = some (socket, some k) → (ask k).socket = socket ∧
    ∃ bytes, s.buf socket = some (bytes, false) ∧
      Found orderly payloadSize pingSize s.received (ask k) bytes ∧
      (orderly → Reaches payloadSize pingSize (ask k) (s.peer, bytes))
  messages : ∀ k, ∀ msg ∈ (s.call k).messages,
    Shows orderly payloadSize pingSize s.received (ask k) msg
  peer : ∀ k p, (s.call k).peer = some p → ∃ bytes,
    Shows orderly payloadSize pingSize s.received (ask k) (p, bytes) ∧
      (ask k).accepts bytes = true

theorem Seen.mono {received received' : List Datagram} {socket : Socket} {bytes : List UInt8}
    {error : Bool} {p : Endpoint} (h : Seen orderly received socket bytes error p)
    (hsub : received ⊆ received') : Seen orderly received' socket bytes error p := by
  obtain ⟨q, hq⟩ := h.came
  obtain ⟨d, hd, hpeer⟩ := h.left
  exact ⟨⟨q, hsub hq⟩, ⟨d, hsub hd, hpeer⟩, fun horderly => hsub (h.own horderly)⟩

theorem Found.mono {received received' : List Datagram} {a : Ask} {bytes : List UInt8}
    (h : Found orderly payloadSize pingSize received a bytes) (hsub : received ⊆ received') :
    Found orderly payloadSize pingSize received' a bytes := by
  obtain ⟨e, he, hreaches⟩ := h
  exact ⟨e, he.mono hsub, hreaches⟩

theorem Shows.mono {received received' : List Datagram} {a : Ask} {msg : Endpoint × List UInt8}
    (h : Shows orderly payloadSize pingSize received a msg) (hsub : received ⊆ received') :
    Shows orderly payloadSize pingSize received' a msg :=
  ⟨h.seen.mono hsub, h.found.mono hsub, h.same⟩

theorem mem_raise {α : Type} {queue : List α} {a b : α} (h : b ∈ raise queue a) :
    b ∈ queue ∨ b = a := by
  rw [raise] at h
  split at h
  · exact Or.inr (List.mem_singleton.mp h)
  · simpa using h

/-- What is read from the queue keeps to its owners. -/
theorem mapped_applyRegistration {m : Socket → AList fun _ : Key => ℕ}
    {r : Socket × Key × Option ℕ} (hr : Owned ask r)
    (hm : ∀ socket key k, (m socket).lookup key = some k →
      (ask k).socket = socket ∧ key ∈ (ask k).keys)
    (socket : Socket) (key : Key) (k : ℕ)
    (h : (applyRegistration m r socket).lookup key = some k) :
    (ask k).socket = socket ∧ key ∈ (ask k).keys := by
  obtain ⟨on, own, call⟩ := r
  rw [lookup_applyRegistration] at h
  split at h
  · rename_i hsame
    obtain ⟨rfl, rfl⟩ := hsame
    exact hr k h
  · exact hm socket key k h

theorem mapped_foldl {m : Socket → AList fun _ : Key => ℕ} {rs : List (Socket × Key × Option ℕ)}
    (hrs : ∀ r ∈ rs, Owned ask r)
    (hm : ∀ socket key k, (m socket).lookup key = some k →
      (ask k).socket = socket ∧ key ∈ (ask k).keys) :
    ∀ socket key k, (rs.foldl applyRegistration m socket).lookup key = some k →
      (ask k).socket = socket ∧ key ∈ (ask k).keys := by
  induction rs generalizing m with
  | nil => exact hm
  | cons r rs ih =>
      refine ih (fun r' hr' => hrs r' (List.mem_cons_of_mem _ hr')) ?_
      exact mapped_applyRegistration (hrs r List.mem_cons_self) hm

namespace Credible

/-- A call goes its way. -/
theorem update (h : Credible orderly payloadSize pingSize ask s) {k : ℕ} {c : Call}
    (hleft : ∀ left, c.stage = .asking left → left ⊆ (ask k).keys)
    (hmessages : ∀ msg ∈ c.messages,
      Shows orderly payloadSize pingSize s.received (ask k) msg)
    (hpeer : ∀ p, c.peer = some p → ∃ bytes,
      Shows orderly payloadSize pingSize s.received (ask k) (p, bytes) ∧
        (ask k).accepts bytes = true) :
    Credible orderly payloadSize pingSize ask (s.update k c) := by
  refine ⟨h.pending, h.mapped, fun j => ?_, h.buffered, h.handling, fun j => ?_, fun j => ?_⟩ <;>
    by_cases hj : j = k
  · subst hj
    simpa [Receiver.update] using hleft
  · simpa [Receiver.update, Function.update_of_ne hj] using h.left j
  · subst hj
    simpa [Receiver.update] using hmessages
  · simpa [Receiver.update, Function.update_of_ne hj] using h.messages j
  · subst hj
    simpa [Receiver.update] using hpeer
  · simpa [Receiver.update, Function.update_of_ne hj] using h.peer j

/-- A registration or a withdrawal is put into the queue. -/
theorem enqueue (h : Credible orderly payloadSize pingSize ask s) {r : Socket × Key × Option ℕ}
    (hr : Owned ask r) : Credible orderly payloadSize pingSize ask
      { s with messageQueueQueue := raise s.messageQueueQueue r } := by
  refine ⟨fun r' hr' => ?_, h.mapped, h.left, h.buffered, h.handling, h.messages, h.peer⟩
  rcases mem_raise hr' with hold | rfl
  · exact h.pending r' hold
  · exact hr

theorem leave (h : Credible orderly payloadSize pingSize ask s) (k : ℕ) (address : String) :
    Credible orderly payloadSize pingSize ask (s.leave ask k address) :=
  h.update (by simp) (h.messages k) (h.peer k)

/-- A receive completes: the sender of what is yet to be handled is lost. -/
theorem receive (h : Credible orderly payloadSize pingSize ask s) {d : Datagram}
    (hfree : s.buf d.socket = none) (horder : orderly → ∀ socket, s.buf socket = none) :
    Credible orderly payloadSize pingSize ask (s.receive d) := by
  have hsub : s.received ⊆ s.received ++ [d] := List.subset_append_left _ _
  have hnew : d ∈ s.received ++ [d] := by simp
  have hother : ∀ socket bytes error, s.buf socket = some (bytes, error) →
      Function.update s.buf d.socket (some (d.bytes, d.error)) socket = some (bytes, error) := by
    intro socket bytes error hbuf
    have hne : socket ≠ d.socket := by
      rintro rfl
      rw [hfree] at hbuf
      cases hbuf
    rw [Function.update_of_ne hne, hbuf]
  refine ⟨h.pending, h.mapped, h.left, fun socket bytes error hbuf => ?_,
    fun socket k hhandling => ?_, fun k msg hmsg => (h.messages k msg hmsg).mono hsub,
    fun k p hp => ?_⟩
  · by_cases hsocket : socket = d.socket
    · subst hsocket
      have hown : (s.receive d).buf d.socket = some (d.bytes, d.error) := Function.update_self ..
      rw [hown, Option.some.injEq, Prod.mk.injEq] at hbuf
      obtain ⟨rfl, rfl⟩ := hbuf
      exact ⟨⟨d.peer, hnew⟩, ⟨d, hnew, rfl⟩, fun _ => hnew⟩
    · have hold : s.buf socket = some (bytes, error) := by
        simpa [Receiver.receive, Function.update_of_ne hsocket] using hbuf
      obtain ⟨q, hq⟩ := (h.buffered socket bytes error hold).came
      refine ⟨⟨q, hsub hq⟩, ⟨d, hnew, rfl⟩, fun horderly => ?_⟩
      rw [horder horderly socket] at hold
      cases hold
  · obtain ⟨hsocket, bytes, hbuf, hfound, -⟩ := h.handling socket k hhandling
    refine ⟨hsocket, bytes, hother socket bytes false hbuf, hfound.mono hsub, fun horderly => ?_⟩
    rw [horder horderly socket] at hbuf
    cases hbuf
  · obtain ⟨bytes, hshows, haccepts⟩ := h.peer k p hp
    exact ⟨bytes, hshows.mono hsub, haccepts⟩

theorem populate (h : Credible orderly payloadSize pingSize ask s) :
    Credible orderly payloadSize pingSize ask s.populatePeerToSession :=
  ⟨fun _ hr => absurd hr List.not_mem_nil, mapped_foldl h.pending h.mapped, h.left, h.buffered,
    h.handling, h.messages, h.peer⟩

/-- The handler looks for the call. -/
theorem look (h : Credible orderly payloadSize pingSize ask s) {socket : Socket}
    {bytes : List UInt8} {error : Bool} (hbuf : s.buf socket = some (bytes, error)) :
    Credible orderly payloadSize pingSize ask
      (s.look payloadSize pingSize socket bytes error) := by
  have hread := h.populate
  have hset : ∀ found, (∀ k, found = some k → error = false ∧ (ask k).socket = socket ∧
      Reaches payloadSize pingSize (ask k) (s.peer, bytes)) →
      Credible orderly payloadSize pingSize ask
        { s.populatePeerToSession with handling := some (socket, found) } := by
    intro found hfound
    refine ⟨hread.pending, hread.mapped, hread.left, hread.buffered, fun on k hhandling => ?_,
      hread.messages, hread.peer⟩
    simp only [Option.some.injEq, Prod.mk.injEq] at hhandling
    obtain ⟨rfl, rfl⟩ := hhandling
    obtain ⟨rfl, hsocket, hreaches⟩ := hfound k rfl
    refine ⟨hsocket, bytes, hbuf, ⟨s.peer, ?_, hreaches⟩, fun _ => hreaches⟩
    exact hsocket.symm ▸ h.buffered socket bytes false hbuf
  rw [Receiver.look]
  split
  · exact hset none fun k hk => by cases hk
  · rename_i hgood
    refine hset _ fun k hk => ?_
    obtain ⟨key, hkey, hlookup⟩ := Option.bind_eq_some_iff.mp hk
    obtain ⟨hsocket, hmem⟩ := hread.mapped socket key k hlookup
    refine ⟨?_, hsocket, key, hmem, hkey⟩
    cases error
    · rfl
    · simp at hgood

/-- The handler hands the message over. -/
theorem finish (h : Credible orderly payloadSize pingSize ask s) {socket : Socket}
    {found : Option ℕ} {bytes : List UInt8} {error : Bool}
    (hhandling : s.handling = some (socket, found)) (hbuf : s.buf socket = some (bytes, error)) :
    Credible orderly payloadSize pingSize ask (s.finish socket found bytes) := by
  have hdone : Credible orderly payloadSize pingSize ask
      { s with handling := none, buf := Function.update s.buf socket none } := by
    refine ⟨h.pending, h.mapped, h.left, fun on bytes' error' hbuf' => ?_, by simp, h.messages,
      h.peer⟩
    dsimp only at hbuf' ⊢
    by_cases hon : on = socket
    · subst hon
      simp at hbuf'
    · rw [Function.update_of_ne hon] at hbuf'
      exact h.buffered on bytes' error' hbuf'
  cases found with
  | none => exact hdone
  | some k =>
      obtain ⟨hsocket, bytes', hbuf', hfound, hsame⟩ := h.handling socket k hhandling
      rw [hbuf, Option.some.injEq, Prod.mk.injEq] at hbuf'
      obtain ⟨rfl, rfl⟩ := hbuf'
      have hseen := h.buffered socket bytes false hbuf
      simp only [Receiver.finish, Receiver.hand]
      split
      · refine hdone.update (hdone.left k) (fun msg hmsg => ?_) (hdone.peer k)
        rcases mem_raise hmsg with hold | rfl
        · exact hdone.messages k msg hold
        · exact ⟨hsocket.symm ▸ hseen, hfound, hsame⟩
      · exact hdone

theorem step {s' : Receiver} (h : Credible orderly payloadSize pingSize ask s) {op : Op}
    (horder : orderly → Orderly s op) (hstep : s.step payloadSize pingSize ask op = some s') :
    Credible orderly payloadSize pingSize ask s' := by
  cases op with
  | begin k =>
      obtain ⟨-, rfl⟩ := guarded_eq_some.mp hstep
      refine h.update (fun left hleft => ?_) (h.messages k) (h.peer k)
      rw [Stage.asking.injEq] at hleft
      exact fun key hkey => hleft ▸ hkey
  | register k =>
      simp only [Receiver.step] at hstep
      split at hstep
      · rename_i key left hstage
        obtain rfl := Option.some.inj hstep
        have hkeys := h.left k _ hstage
        have hupdate := h.update (k := k) (c := { s.call k with stage := .asking left })
          (fun left' hleft => ?_) (h.messages k) (h.peer k)
        · refine hupdate.enqueue fun k' hk' => ?_
          obtain rfl := Option.some.inj hk'
          exact ⟨rfl, hkeys List.mem_cons_self⟩
        · rw [Stage.asking.injEq] at hleft
          exact fun key' hkey' => hkeys (List.mem_cons_of_mem _ (hleft ▸ hkey'))
      · cases hstep
  | pop k =>
      simp only [Receiver.step] at hstep
      split at hstep
      · rename_i peer msg rest hstage hmessages
        have hfront := h.messages k (peer, msg) (by rw [hmessages]; exact List.mem_cons_self)
        have hrest := h.update (k := k) (c := { s.call k with messages := rest }) (h.left k)
          (fun msg' hmsg' => h.messages k msg' (by
            rw [hmessages]
            exact List.mem_cons_of_mem _ hmsg')) (h.peer k)
        split at hstep
        · rename_i haccepts
          obtain rfl := Option.some.inj hstep
          have hadopted := hrest.update (k := k)
            (c := { (s.update k { s.call k with messages := rest }).call k with peer := some peer })
            (hrest.left k) (hrest.messages k) fun p hp => by
              rw [Option.some.injEq] at hp
              exact hp ▸ ⟨msg, hfront, haccepts⟩
          exact hadopted.leave k peer.address
        · obtain rfl := Option.some.inj hstep
          exact hrest
      · cases hstep
  | timeout k =>
      obtain ⟨-, rfl⟩ := guarded_eq_some.mp hstep
      exact h.leave k _
  | withdraw k =>
      simp only [Receiver.step] at hstep
      split at hstep
      · obtain rfl := Option.some.inj hstep
        rename_i key left _
        have hupdate := h.update (k := k) (c := { s.call k with stage := .leaving left }) (by simp)
          (h.messages k) (h.peer k)
        exact hupdate.enqueue fun k' hk' => by cases hk'
      · cases hstep
  | receive d =>
      obtain ⟨hfree, rfl⟩ := guarded_eq_some.mp hstep
      exact h.receive hfree horder
  | look socket =>
      simp only [Receiver.step] at hstep
      split at hstep
      · rename_i bytes error _ hbuf
        obtain rfl := Option.some.inj hstep
        exact h.look hbuf
      · cases hstep
  | finish =>
      simp only [Receiver.step] at hstep
      split at hstep
      · rename_i socket found hhandling
        obtain ⟨⟨bytes, error⟩, hbuf, rfl⟩ := Option.map_eq_some_iff.mp hstep
        exact h.finish hhandling hbuf
      · cases hstep

theorem start : Credible orderly payloadSize pingSize ask .start := by
  constructor <;> simp [Receiver.start]

/-- Over a run, which is orderly if that is asked for. -/
theorem of_run {ops : List Op}
    (horder : orderly → RunMeets (Receiver.step payloadSize pingSize ask) Orderly .start ops)
    (hrun : run (Receiver.step payloadSize pingSize ask) .start ops = some s) :
    Credible orderly payloadSize pingSize ask s := by
  by_cases horderly : orderly
  · exact run_invariant_of_meets (fun _ _ _ hs hop hstep => hs.step (fun _ => hop) hstep) start
      (horder horderly) hrun
  · exact run_invariant (fun _ _ _ hs hstep => hs.step (fun h => absurd h horderly) hstep) start
      hrun

end Credible

end Credentials

/-- **A session sends where its client asked.**  However the waits of the sessions interleave with
what is received: when a session takes a peer for its client, there has come, on the socket in
question, a ping that starts with the session's payload, or the client has no session identifiers,
what has come is a message of four bytes that passes for a ping, and a receive has read the
session's address.  The peer is whom a receive has left in the endpoint; as long as the receives
are orderly, it is the sender of that ping, and in the second case its address is the
session's. -/
theorem peer_shows_payload {payloadSize pingSize : ℕ} {ask : ℕ → Ask} {ops : List Op}
    {s : Receiver} (hrun : run (Receiver.step payloadSize pingSize ask) .start ops = some s)
    {k : ℕ} {p : Endpoint} (hpeer : (s.call k).peer = some p) :
    (∃ d ∈ s.received, d.peer = p) ∧
    (∃ q bytes, ⟨(ask k).socket, q, bytes, false⟩ ∈ s.received ∧
      (pingSize ≤ bytes.length ∧ bytes.take payloadSize = (ask k).expectedPayload ∨
        (ask k).sessionIdV1 = false ∧ bytes.length = 4 ∧ (ask k).accepts bytes = true ∧
          ∃ d ∈ s.received, d.peer.address = (ask k).address)) ∧
    (RunMeets (Receiver.step payloadSize pingSize ask) Orderly .start ops →
      ∃ bytes, ⟨(ask k).socket, p, bytes, false⟩ ∈ s.received ∧
        (pingSize ≤ bytes.length ∧ bytes.take payloadSize = (ask k).expectedPayload ∨
          (ask k).sessionIdV1 = false ∧ bytes.length = 4 ∧ (ask k).accepts bytes = true ∧
            p.address = (ask k).address)) := by
  have h : Credible False payloadSize pingSize ask s := .of_run False.elim hrun
  obtain ⟨bytes, hshows, haccepts⟩ := h.peer k p hpeer
  refine ⟨hshows.seen.left, ?_, fun horder => ?_⟩
  · obtain ⟨q, hcame⟩ := hshows.seen.came
    obtain ⟨e, he, hreaches⟩ := hshows.found
    obtain ⟨d, hd, rfl⟩ := he.left
    refine ⟨q, bytes, hcame, ?_⟩
    rcases reaches_iff.mp hreaches with ⟨-, hlong, htake⟩ | ⟨hv1, hfour, haddress⟩
    · exact Or.inl ⟨hlong, htake⟩
    · exact Or.inr ⟨hv1, hfour, haccepts, d, hd, haddress⟩
  · have h : Credible True payloadSize pingSize ask s := .of_run (fun _ => horder) hrun
    obtain ⟨bytes, hshows, haccepts⟩ := h.peer k p hpeer
    refine ⟨bytes, hshows.seen.own trivial, ?_⟩
    rcases reaches_iff.mp (hshows.same trivial) with ⟨-, hlong, htake⟩ | ⟨hv1, hfour, haddress⟩
    · exact Or.inl ⟨hlong, htake⟩
    · exact Or.inr ⟨hv1, hfour, haccepts, haddress⟩

/-! ## Which pings reach a session -/

/-- A key the call has registered and not withdrawn. -/
def Stage.Holds (keys : List Key) : Stage → Key → Prop
  | .before, _ => False
  | .asking left, key => key ∈ keys ∧ key ∉ left
  | .leaving left, key => key ∈ left

/-- A call that has begun and has something yet to withdraw. -/
def Stage.Active : Stage → Prop
  | .before => False
  | .asking _ => True
  | .leaving left => left ≠ []

section Routing
variable {payloadSize pingSize : ℕ} {ask : ℕ → Ask} {s : Receiver} {k : ℕ} {left : List Key}

/-- A new call shares no key with one that is under way, the reading thread keeps up with the
registrations, and a client without session identifiers is taken at the address it was expected
at. -/
def Separate (ask : ℕ → Ask) (s : Receiver) : Op → Prop
  | .begin k => ∀ j, j ≠ k → (s.call j).stage.Active → (ask j).socket = (ask k).socket →
      ∀ key ∈ (ask j).keys, key ∉ (ask k).keys
  | .register _ => s.messageQueueQueue.length < maxElements
  | .withdraw _ => s.messageQueueQueue.length < maxElements
  | .pop k => (ask k).sessionIdV1 = false → ∀ msg ∈ (s.call k).messages.head?,
      (ask k).accepts msg.2 = true → msg.1.address = (ask k).address
  | _ => True

/-- The next datagram finds exactly the keys that are held. -/
structure Routed (ask : ℕ → Ask) (s : Receiver) : Prop where
  running : ∀ k, (s.call k).running = true ∨ ∃ left, (s.call k).stage = .leaving left
  rest : ∀ k left, (s.call k).stage = .asking left ∨ (s.call k).stage = .leaving left →
    left.Nodup ∧ left ⊆ (ask k).keys
  found : ∀ socket key k, (s.effective socket).lookup key = some k ↔
    (ask k).socket = socket ∧ (s.call k).stage.Holds (ask k).keys key
  apart : ∀ j k, j ≠ k → (s.call j).stage.Active → (s.call k).stage.Active →
    (ask j).socket = (ask k).socket → ∀ key ∈ (ask j).keys, key ∉ (ask k).keys

theorem nodup_keys (a : Ask) : a.keys.Nodup := by
  rw [Ask.keys, Ask.keysAt]
  split <;> simp

/-- What is withdrawn is what was registered, while the address is the same. -/
theorem keysAt_eq {a : Ask} {address : String}
    (h : a.sessionIdV1 = false → address = a.address) : a.keysAt address = a.keys := by
  cases hv1 : a.sessionIdV1
  · rw [h hv1, Ask.keys]
  · simp [Ask.keys, Ask.keysAt, hv1]

/-- What is held is a key of the call, which is under way. -/
theorem Stage.Holds.active {keys : List Key} {stage : Stage} {key : Key}
    (h : stage.Holds keys key) : stage.Active := by
  cases stage with
  | before => exact h
  | asking left => trivial
  | leaving left =>
      rintro rfl
      exact List.not_mem_nil h

theorem Routed.holds_mem (h : Routed ask s) {key : Key}
    (hholds : (s.call k).stage.Holds (ask k).keys key) : key ∈ (ask k).keys := by
  cases hstage : (s.call k).stage with
  | before => simp [Stage.Holds, hstage] at hholds
  | asking left =>
      rw [hstage] at hholds
      exact hholds.1
  | leaving left =>
      rw [hstage] at hholds
      exact (h.rest k left (Or.inr hstage)).2 hholds

/-- Another call that is under way holds none of the keys. -/
theorem Routed.not_holds (h : Routed ask s) {j : ℕ} (hj : j ≠ k)
    (hactive : (s.call k).stage.Active) (hsocket : (ask j).socket = (ask k).socket) {key : Key}
    (hkey : key ∈ (ask k).keys) : ¬ (s.call j).stage.Holds (ask j).keys key := fun hholds =>
  h.apart j k hj hholds.active hactive hsocket key (h.holds_mem hholds) hkey

/-- What is put into the queue is read behind all that is there. -/
theorem effective_enqueue {s' : Receiver} {r : Socket × Key × Option ℕ}
    (hmap : s'.peerToSession = s.peerToSession)
    (hqueue : s'.messageQueueQueue = raise s.messageQueueQueue r)
    (hroom : s.messageQueueQueue.length < maxElements) :
    s'.effective = applyRegistration s.effective r := by
  rw [Receiver.effective]
  rw [hmap, hqueue, raise, if_neg (Nat.not_le.mpr hroom), List.foldl_append]
  rfl

namespace Routed

/-- One call changes, and what is found under the keys changes with it. -/
theorem change (h : Routed ask s) {s' : Receiver} {m : Socket → AList fun _ : Key => ℕ}
    (heffective : s'.effective = m) (hothers : ∀ j, j ≠ k → s'.call j = s.call j)
    (hrunning : (s'.call k).running = true ∨ ∃ left, (s'.call k).stage = .leaving left)
    (hrest : ∀ left, (s'.call k).stage = .asking left ∨ (s'.call k).stage = .leaving left →
      left.Nodup ∧ left ⊆ (ask k).keys)
    (hactive : ∀ j, j ≠ k → (s.call j).stage.Active → (s'.call k).stage.Active →
      (ask j).socket = (ask k).socket → ∀ key ∈ (ask j).keys, key ∉ (ask k).keys)
    (hfound : ∀ socket key j, (m socket).lookup key = some j ↔ (ask j).socket = socket ∧
      (s'.call j).stage.Holds (ask j).keys key) : Routed ask s' := by
  subst heffective
  refine ⟨fun j => ?_, fun j left hj => ?_, hfound, fun i j hij hi hj hsocket => ?_⟩
  · by_cases hjk : j = k
    · subst hjk
      exact hrunning
    · rw [hothers j hjk]
      exact h.running j
  · by_cases hjk : j = k
    · subst hjk
      exact hrest left hj
    · rw [hothers j hjk] at hj
      exact h.rest j left hj
  · by_cases hik : i = k
    · subst hik
      rw [hothers j fun hji => hij hji.symm] at hj
      intro key hkey hmem
      exact hactive j (fun hji => hij hji.symm) hj hi hsocket.symm key hmem hkey
    · rw [hothers i hik] at hi
      by_cases hjk : j = k
      · subst hjk
        exact hactive i hik hi hj hsocket
      · rw [hothers j hjk] at hj
        exact h.apart i j hij hi hj hsocket

/-- A call changes, but not in what it holds. -/
theorem keep (h : Routed ask s) {c : Call}
    (hrunning : c.running = true ∨ ∃ left, c.stage = .leaving left)
    (hrest : ∀ left, c.stage = .asking left ∨ c.stage = .leaving left →
      left.Nodup ∧ left ⊆ (ask k).keys)
    (hactive : ∀ j, j ≠ k → (s.call j).stage.Active → c.stage.Active →
      (ask j).socket = (ask k).socket → ∀ key ∈ (ask j).keys, key ∉ (ask k).keys)
    (hholds : ∀ key, c.stage.Holds (ask k).keys key ↔
      (s.call k).stage.Holds (ask k).keys key) : Routed ask (s.update k c) := by
  have hself : (s.update k c).call k = c := Function.update_self ..
  have hothers : ∀ j, j ≠ k → (s.update k c).call j = s.call j := fun j hj =>
    Function.update_of_ne hj ..
  refine h.change (k := k) rfl hothers (by rwa [hself]) (by rwa [hself]) (by rwa [hself]) ?_
  intro socket key j
  refine (h.found socket key j).trans (and_congr_right fun _ => ?_)
  by_cases hj : j = k
  · rw [hj, hself]
    exact (hholds key).symm
  · rw [hothers j hj]

/-- The messages of a call do not matter. -/
theorem same (h : Routed ask s) {c : Call} (hstage : c.stage = (s.call k).stage)
    (hrun : c.running = (s.call k).running) : Routed ask (s.update k c) := by
  refine h.keep ?_ (fun left hleft => ?_) (fun j hj hactive hk => ?_) fun key => by rw [hstage]
  · rw [hrun, hstage]
    exact h.running k
  · exact h.rest k left (hstage ▸ hleft)
  · exact h.apart j k hj hactive (hstage ▸ hk)

theorem leave (h : Routed ask s) (hstage : (s.call k).stage = .asking []) {address : String}
    (haddress : (ask k).sessionIdV1 = false → address = (ask k).address) :
    Routed ask (s.leave ask k address) := by
  rw [Receiver.leave, keysAt_eq haddress]
  refine h.keep (Or.inr ⟨_, rfl⟩) (fun left hleft => ?_)
    (fun j hj hactive _ => h.apart j k hj hactive (by rw [hstage]; trivial)) fun key => ?_
  · rcases hleft with hleft | hleft
    · cases hleft
    · rw [Stage.leaving.injEq] at hleft
      exact hleft ▸ ⟨nodup_keys _, fun _ hkey => hkey⟩
  · simp [Stage.Holds, hstage]

/-- A call registers or withdraws one of its keys. -/
theorem enqueue (h : Routed ask s) {c : Call} {key : Key} {r : Option ℕ}
    (hactive : (s.call k).stage.Active) (hkey : key ∈ (ask k).keys) (hr : ∀ j, r = some j → j = k)
    (hrunning : c.running = true ∨ ∃ left, c.stage = .leaving left)
    (hrest : ∀ left, c.stage = .asking left ∨ c.stage = .leaving left →
      left.Nodup ∧ left ⊆ (ask k).keys)
    (hholds : ∀ key', c.stage.Holds (ask k).keys key' ↔
      if key' = key then r = some k else (s.call k).stage.Holds (ask k).keys key')
    (hroom : s.messageQueueQueue.length < maxElements) :
    Routed ask { s.update k c with
      messageQueueQueue := raise s.messageQueueQueue ((ask k).socket, key, r) } := by
  have hself : Function.update s.call k c k = c := Function.update_self ..
  have hothers : ∀ j, j ≠ k → Function.update s.call k c j = s.call j := fun j hj =>
    Function.update_of_ne hj ..
  refine h.change (k := k) (effective_enqueue (s := s) rfl rfl hroom) hothers
    (by simpa [Receiver.update] using hrunning) (by simpa [Receiver.update] using hrest)
    (fun j hj hj' _ => h.apart j k hj hj' hactive) fun socket key' j => ?_
  rw [lookup_applyRegistration, h.found]
  by_cases hj : j = k
  · subst hj
    simp only [Receiver.update, hself, hholds]
    split
    · rename_i hsame
      simp [hsame.1, hsame.2]
    · rename_i hother
      refine and_congr_right fun hsocket => ?_
      rw [if_neg fun heq => hother ⟨hsocket.symm, heq⟩]
  · simp only [Receiver.update, hothers j hj]
    split
    · rename_i hsame
      -- another call holds none of the keys of this one
      refine iff_of_false (fun heq => hj (hr j heq)) fun hold => ?_
      rw [hsame.2] at hold
      exact h.not_holds hj hactive (hold.1.trans hsame.1) hkey hold.2
    · rfl

/-- The next key is registered. -/
theorem register (h : Routed ask s) {key : Key} (hstage : (s.call k).stage = .asking (key :: left))
    (hroom : s.messageQueueQueue.length < maxElements) :
    Routed ask { s.update k { s.call k with stage := .asking left } with
      messageQueueQueue := raise s.messageQueueQueue ((ask k).socket, key, some k) } := by
  obtain ⟨hnodup, hsub⟩ := h.rest k _ (Or.inl hstage)
  obtain ⟨hnew, hnodup⟩ := List.nodup_cons.mp hnodup
  have hkey := hsub List.mem_cons_self
  have hrunning := h.running k
  simp only [hstage, reduceCtorEq, exists_false, or_false] at hrunning
  refine h.enqueue (by rw [hstage]; trivial) hkey (fun j hj => (Option.some.inj hj).symm)
    (Or.inl hrunning) (fun left' hleft => ?_) (fun key' => ?_) hroom
  · simp only [Stage.asking.injEq, reduceCtorEq, or_false] at hleft
    exact hleft ▸ ⟨hnodup, fun _ hmem => hsub (List.mem_cons_of_mem _ hmem)⟩
  · by_cases hsame : key' = key
    · simp [Stage.Holds, hsame, hnew, hkey]
    · simp [hstage, Stage.Holds, hsame]

/-- The next key is withdrawn. -/
theorem withdraw (h : Routed ask s) {key : Key}
    (hstage : (s.call k).stage = .leaving (key :: left))
    (hroom : s.messageQueueQueue.length < maxElements) :
    Routed ask { s.update k { s.call k with stage := .leaving left } with
      messageQueueQueue := raise s.messageQueueQueue ((ask k).socket, key, none) } := by
  obtain ⟨hnodup, hsub⟩ := h.rest k _ (Or.inr hstage)
  obtain ⟨hnew, hnodup⟩ := List.nodup_cons.mp hnodup
  have hactive : (s.call k).stage.Active := by
    rw [hstage]
    exact List.cons_ne_nil key left
  refine h.enqueue hactive (hsub List.mem_cons_self) (fun j hj => by cases hj) (Or.inr ⟨left, rfl⟩)
    (fun left' hleft => ?_) (fun key' => ?_) hroom
  · simp only [Stage.leaving.injEq, reduceCtorEq, false_or] at hleft
    exact hleft ▸ ⟨hnodup, fun _ hmem => hsub (List.mem_cons_of_mem _ hmem)⟩
  · by_cases hsame : key' = key
    · simp [Stage.Holds, hsame, hnew]
    · simp [hstage, Stage.Holds, hsame]

/-- The endpoint, the buffers and the handler do not matter. -/
theorem of_eq (h : Routed ask s) {s' : Receiver} (hcall : s'.call = s.call)
    (heffective : s'.effective = s.effective) : Routed ask s' := by
  obtain ⟨hrunning, hrest, hfound, hapart⟩ := h
  rw [← hcall] at hrunning hrest hapart
  refine ⟨hrunning, hrest, fun socket key k => ?_, hapart⟩
  rw [heffective, hcall]
  exact hfound socket key k

theorem look (h : Routed ask s) (socket : Socket) (bytes : List UInt8) (error : Bool) :
    Routed ask (s.look payloadSize pingSize socket bytes error) := by
  rw [Receiver.look]
  split <;> exact h.of_eq rfl rfl

theorem finish (h : Routed ask s) (socket : Socket) (found : Option ℕ) (bytes : List UInt8) :
    Routed ask (s.finish socket found bytes) := by
  have hdone : Routed ask
      { s with handling := none, buf := Function.update s.buf socket none } := h.of_eq rfl rfl
  cases found with
  | none => exact hdone
  | some k =>
      simp only [Receiver.finish, Receiver.hand]
      split
      · exact hdone.same rfl rfl
      · exact hdone

theorem step {s' : Receiver} (h : Routed ask s) {op : Op} (hseparate : Separate ask s op)
    (hstep : s.step payloadSize pingSize ask op = some s') : Routed ask s' := by
  cases op with
  | begin k =>
      obtain ⟨hbefore, rfl⟩ := guarded_eq_some.mp hstep
      refine h.keep ?_ (fun left hleft => ?_)
        (fun j hj hactive _ => hseparate j hj hactive) fun key => ?_
      · have hrunning := h.running k
        simpa [hbefore] using hrunning
      · simp only [Stage.asking.injEq, reduceCtorEq, or_false] at hleft
        exact hleft ▸ ⟨nodup_keys _, fun _ hkey => hkey⟩
      · simp [Stage.Holds, hbefore]
  | register k =>
      simp only [Receiver.step] at hstep
      split at hstep
      · rename_i key left hstage
        obtain rfl := Option.some.inj hstep
        exact h.register hstage hseparate
      · cases hstep
  | pop k =>
      simp only [Receiver.step] at hstep
      split at hstep
      · rename_i peer msg rest hstage hmessages
        have hrest := h.same (k := k) (c := { s.call k with messages := rest }) rfl rfl
        split at hstep
        · rename_i haccepts
          obtain rfl := Option.some.inj hstep
          have hadopted := hrest.same (k := k)
            (c := { (s.update k { s.call k with messages := rest }).call k with peer := some peer })
            rfl rfl
          refine hadopted.leave ?_ fun hv1 => hseparate hv1 (peer, msg) ?_ haccepts
          · simp [Receiver.update, hstage]
          · simp [hmessages]
        · obtain rfl := Option.some.inj hstep
          exact hrest
      · cases hstep
  | timeout k =>
      obtain ⟨hstage, rfl⟩ := guarded_eq_some.mp hstep
      exact h.leave hstage fun _ => rfl
  | withdraw k =>
      simp only [Receiver.step] at hstep
      split at hstep
      · rename_i key left hstage
        obtain rfl := Option.some.inj hstep
        exact h.withdraw hstage hseparate
      · cases hstep
  | receive d =>
      obtain ⟨-, rfl⟩ := guarded_eq_some.mp hstep
      exact h.of_eq rfl rfl
  | look socket =>
      simp only [Receiver.step] at hstep
      split at hstep
      · obtain rfl := Option.some.inj hstep
        exact h.look _ _ _
      · cases hstep
  | finish =>
      simp only [Receiver.step] at hstep
      split at hstep
      · obtain ⟨buffer, -, rfl⟩ := Option.map_eq_some_iff.mp hstep
        exact h.finish _ _ _
      · cases hstep

end Routed

end Routing

theorem exists_raise {α : Type} (queue : List α) (a : α) :
    ∃ before, raise queue a = before ++ [a] := by
  rw [raise]
  split
  · exact ⟨[], rfl⟩
  · exact ⟨queue, rfl⟩

/-- **Pings find their session.**  As long as calls that are under way at once share no key on a
socket, the reading thread keeps up with the registrations, and no client without session
identifiers is taken at another address than the expected one: a datagram that shows a key of a
call that waits makes its handler find that call and put it last into the queue of that call and
into no other one; and no key leads to a call that has withdrawn its keys. -/
theorem pings_find_session {payloadSize pingSize : ℕ} {ask : ℕ → Ask} {ops : List Op}
    {s : Receiver}
    (hseparate : RunMeets (Receiver.step payloadSize pingSize ask) (Separate ask) .start ops)
    (hrun : run (Receiver.step payloadSize pingSize ask) .start ops = some s) :
    (∀ (k : ℕ) (bytes : List UInt8) (key : Key),
      (s.call k).stage = .asking [] → key ∈ (ask k).keys → bytes ≠ [] →
      Receiver.keyOf payloadSize pingSize s.peer bytes = some key →
      let found := s.look payloadSize pingSize (ask k).socket bytes false
      let s' := found.finish (ask k).socket (some k) bytes
      found.handling = some ((ask k).socket, some k) ∧
        (∃ before, (s'.call k).messages = before ++ [(s.peer, bytes)]) ∧
        ∀ j, j ≠ k → s'.call j = s.call j) ∧
    ∀ (k : ℕ), (s.call k).stage = .leaving [] →
      ∀ socket key, (s.effective socket).lookup key ≠ some k := by
  have hstep : ∀ (s : Receiver) (op : Op) (s' : Receiver), Routed ask s → Separate ask s op →
      s.step payloadSize pingSize ask op = some s' → Routed ask s' := fun _ _ _ hs hop h =>
    hs.step hop h
  have hstart : Routed ask .start := by
    constructor <;> simp [Receiver.start, Receiver.effective, Stage.Holds, Stage.Active]
  have h : Routed ask s := run_invariant_of_meets hstep hstart hseparate hrun
  constructor
  · intro k bytes key hstage hkey hbytes hkeyOf
    have hholds : (s.call k).stage.Holds (ask k).keys key := by
      rw [hstage]
      exact ⟨hkey, List.not_mem_nil⟩
    have hfound : (s.effective (ask k).socket).lookup key = some k :=
      (h.found _ key k).mpr ⟨rfl, hholds⟩
    have hrunning : (s.call k).running = true := by
      have hrunning := h.running k
      simpa [hstage] using hrunning
    obtain ⟨before, hbefore⟩ := exists_raise (s.call k).messages (s.peer, bytes)
    have hempty : bytes.isEmpty = false := by simpa using hbytes
    have hlook : s.look payloadSize pingSize (ask k).socket bytes false =
        { s.populatePeerToSession with handling := some ((ask k).socket, some k) } := by
      have hbind : (some key).bind (s.effective (ask k).socket).lookup = some k := hfound
      simp only [Receiver.look, hempty, Bool.or_self, Bool.false_eq_true, if_false,
        Receiver.populatePeerToSession, hkeyOf, hbind]
    simp only [hlook, Receiver.finish, Receiver.populatePeerToSession, Receiver.hand, hrunning,
      if_true, Receiver.update, Function.update_self, true_and]
    exact ⟨⟨before, hbefore⟩, fun j hj => Function.update_of_ne hj ..⟩
  · intro k hstage socket key hlookup
    obtain ⟨-, hholds⟩ := (h.found socket key k).mp hlookup
    rw [hstage] at hholds
    exact List.not_mem_nil hholds

/-- Two sessions for video at once, one of a client without session identifiers. -/
def twoAsks (k : ℕ) : Ask :=
  if k = 0 then ⟨.video, true, List.replicate 16 65, "10.0.0.9"⟩
  else ⟨.video, false, List.replicate 16 66, "10.0.0.9"⟩

def twoCalls : List Op :=
  [.begin 0, .register 0, .begin 1, .register 1, .register 1,
    .receive ⟨.video, ⟨"10.0.0.9", 4000⟩, legacyPing, false⟩, .look .video, .finish, .pop 1]

/-- What comes for audio takes the place of the sender of a ping for video. -/
def crossedPings : List Op :=
  [.begin 0, .register 0, .receive ⟨.video, ⟨"10.0.0.9", 4000⟩, List.replicate 20 65, false⟩,
    .receive ⟨.audio, ⟨"10.0.0.7", 5000⟩, [1], false⟩, .look .video, .finish, .pop 0]

theorem peer_shows_payload_twoCalls :
    (∃ s, run (Receiver.step 16 20 twoAsks) .start twoCalls = some s ∧
      ∃ bytes, ⟨.video, ⟨"10.0.0.9", 4000⟩, bytes, false⟩ ∈ s.received) ∧
    ∃ s, run (Receiver.step 16 20 twoAsks) .start crossedPings = some s ∧
      (s.call 0).peer = some ⟨"10.0.0.7", 5000⟩ ∧
      ∃ d ∈ s.received, d.peer = ⟨"10.0.0.7", 5000⟩ := by
  constructor
  · refine ⟨_, rfl, ?_⟩
    have horderly : RunMeets (Receiver.step 16 20 twoAsks) Orderly .start twoCalls := by
      refine (runMeets_cons_of_eq_some rfl).mpr ⟨trivial, ?_⟩
      refine (runMeets_cons_of_eq_some rfl).mpr ⟨trivial, ?_⟩
      refine (runMeets_cons_of_eq_some rfl).mpr ⟨trivial, ?_⟩
      refine (runMeets_cons_of_eq_some rfl).mpr ⟨trivial, ?_⟩
      refine (runMeets_cons_of_eq_some rfl).mpr ⟨trivial, ?_⟩
      refine (runMeets_cons_of_eq_some rfl).mpr ⟨fun _ => rfl, ?_⟩
      exact runMeets_of_forall_mem (by simp [Orderly]) _
    obtain ⟨bytes, hreceived, -⟩ := (peer_shows_payload (k := 1) (p := ⟨"10.0.0.9", 4000⟩)
      (rfl : run (Receiver.step 16 20 twoAsks) .start twoCalls = some _) rfl).2.2 horderly
    exact ⟨bytes, hreceived⟩
  · exact ⟨_, rfl, rfl, (peer_shows_payload (k := 0) (p := ⟨"10.0.0.7", 5000⟩)
      (rfl : run (Receiver.step 16 20 twoAsks) .start crossedPings = some _) rfl).1⟩

theorem pings_find_session_twoCalls :
    ∃ s, run (Receiver.step 16 20 twoAsks) .start twoCalls = some s ∧
      (s.look 16 20 .video (List.replicate 20 65) false).handling = some (.video, some 0) := by
  refine ⟨_, rfl, ?_⟩
  have hseparate : RunMeets (Receiver.step 16 20 twoAsks) (Separate twoAsks) .start twoCalls := by
    refine (runMeets_cons_of_eq_some rfl).mpr ⟨fun j _ hactive => absurd hactive id, ?_⟩
    refine (runMeets_cons_of_eq_some rfl).mpr ⟨(by decide : 0 < 30), ?_⟩
    refine (runMeets_cons_of_eq_some rfl).mpr ⟨fun j hj hactive _ => ?_, ?_⟩
    case refine_2 =>
      refine (runMeets_cons_of_eq_some rfl).mpr ⟨(by decide : 1 < 30), ?_⟩
      refine (runMeets_cons_of_eq_some rfl).mpr ⟨(by decide : 2 < 30), ?_⟩
      refine (runMeets_cons_of_eq_some rfl).mpr ⟨trivial, ?_⟩
      refine (runMeets_cons_of_eq_some rfl).mpr ⟨trivial, ?_⟩
      refine (runMeets_cons_of_eq_some rfl).mpr ⟨trivial, ?_⟩
      refine (runMeets_cons_of_eq_some rfl).mpr ⟨fun _ msg hmsg _ => ?_, trivial⟩
      exact Option.some.inj hmsg ▸ rfl
    by_cases hzero : j = 0
    · subst hzero
      decide
    · simp [Receiver.update, Receiver.start, Function.update_of_ne hzero, Stage.Active] at hactive
  exact ((pings_find_session hseparate rfl).1 0 (List.replicate 20 65)
    (.payload (List.replicate 16 65)) rfl (by decide) (by decide) (by decide)).1

end LuminalShine.Transport.Pings
