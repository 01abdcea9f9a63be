import Mathlib

/-!
# Framed pipes

`FramedPipe` of `src/platform/windows/ipc/pipes.cpp`.  A message is sent behind the four
bytes of its length; the receiver collects what the inner pipe hands over and cuts frames
off the front of it.

Two things decide what comes out.  A header of zero, or of more than `kMaxFrameLen`, is
taken for stray bytes and dropped one byte at a time, so that an empty message is never
delivered and its header shifts everything behind it.  And a frame the caller's buffer
does not hold stays where it is: the call reports a timeout, and no later message passes.

## Main definitions

* `send`, `tryDecodeOneFrame`, `receive` — the source's functions.
* `FramedPipe` — the residual buffer, and the reads the inner pipe has yet to give.
* `RoundTrip` — every message comes out once and in order, or is reported.

## Main results

* `receive_spec` — one call over a stream of proper frames.
* `roundTrip_iff` — the messages for which the round trip holds.
-/

namespace LuminalShine.Pipes

abbrev Bytes := List UInt8

/-! ## The length header -/

/-- The bytes of a `uint32_t` in memory; a longer value is cast down. -/
def le32 (n : ℕ) : Bytes :=
  [UInt8.ofNat n, UInt8.ofNat (n / 256), UInt8.ofNat (n / 65536), UInt8.ofNat (n / 16777216)]

/-- `std::memcpy(&len, …, 4)`. -/
def fromLe32 (b₀ b₁ b₂ b₃ : UInt8) : ℕ :=
  b₀.toNat + 256 * b₁.toNat + 65536 * b₂.toNat + 16777216 * b₃.toNat

theorem fromLe32_le32 {n : ℕ} (h : n < 2 ^ 32) :
    fromLe32 (UInt8.ofNat n) (UInt8.ofNat (n / 256)) (UInt8.ofNat (n / 65536))
      (UInt8.ofNat (n / 16777216)) = n := by
  simp only [fromLe32, UInt8.toNat_ofNat']
  omega

/-- `kMaxFrameLen` -/
def maxFrameLen : ℕ := 2 * 1024 * 1024

/-! ## The pipe -/

/-- The bytes `FramedPipe::send` hands to the inner pipe. -/
def send (message : Bytes) : Bytes := le32 message.length ++ message

/-- The whole stream of a sender. -/
def sendAll (messages : List Bytes) : Bytes := messages.flatMap send

/-- `try_decode_one_frame` into a buffer of `dst` bytes: the message, if there is one, and
the bytes that stay behind. -/
def tryDecodeOneFrame (dst : ℕ) : Bytes → Option Bytes × Bytes
  | b₀ :: b₁ :: b₂ :: b₃ :: rest =>
      let len := fromLe32 b₀ b₁ b₂ b₃
      if len = 0 ∨ maxFrameLen < len then tryDecodeOneFrame dst (b₁ :: b₂ :: b₃ :: rest)
      else if rest.length < len then (none, b₀ :: b₁ :: b₂ :: b₃ :: rest)
      else if dst < len then (none, b₀ :: b₁ :: b₂ :: b₃ :: rest)
      else (some (rest.take len), rest.drop len)
  | rxbuf => (none, rxbuf)

inductive PipeResult where
  | success
  | timeout
  | disconnected
  | brokenPipe
  | error
  deriving DecidableEq, Repr

/-- One answer of the inner pipe's `receive`. -/
inductive Read where
  | data (chunk : Bytes)
  | timeout
  | failed (result : PipeResult)
  deriving DecidableEq, Repr

/-- `inner` lists the answers to come; behind them the pipe is silent. -/
structure FramedPipe where
  rxbuf : Bytes
  inner : List Read
  deriving DecidableEq, Repr

/-- The bytes still to come. -/
def bytesOf (inner : List Read) : Bytes :=
  inner.flatMap fun
    | .data chunk => chunk
    | _ => []

/-- The last attempt of a call that times out. -/
def onTimeout (dst : ℕ) (rxbuf : Bytes) (inner : List Read) : PipeResult × Bytes × FramedPipe :=
  match tryDecodeOneFrame dst rxbuf with
  | (some message, rxbuf) => (.success, message, ⟨rxbuf, inner⟩)
  | (none, rxbuf) => (.timeout, [], ⟨rxbuf, inner⟩)

/-- The loop of `receive`. -/
def receiveLoop (dst : ℕ) (rxbuf : Bytes) : List Read → PipeResult × Bytes × FramedPipe
  | [] => onTimeout dst rxbuf []
  | .timeout :: inner => onTimeout dst rxbuf inner
  | .failed result :: inner => (result, [], ⟨rxbuf, inner⟩)
  | .data chunk :: inner =>
      if chunk.isEmpty then (.disconnected, [], ⟨rxbuf, inner⟩)
      else match tryDecodeOneFrame dst (rxbuf ++ chunk) with
        | (some message, rxbuf) => (.success, message, ⟨rxbuf, inner⟩)
        | (none, rxbuf) => receiveLoop dst rxbuf inner

/-- `FramedPipe::receive`: its result, the bytes in the caller's buffer and the pipe after
it. -/
def receive (dst : ℕ) (pipe : FramedPipe) : PipeResult × Bytes × FramedPipe :=
  match tryDecodeOneFrame dst pipe.rxbuf with
  | (some message, rxbuf) => (.success, message, ⟨rxbuf, pipe.inner⟩)
  | (none, rxbuf) => receiveLoop dst rxbuf pipe.inner

/-! ## The round trip -/

/-- What a caller learns from one call: a message, a failure, or nothing yet. -/
inductive Event where
  | message (bytes : Bytes)
  | failure
  deriving DecidableEq, Repr

def observe : PipeResult → Bytes → List Event
  | .success, bytes => [.message bytes]
  | .timeout, _ => []
  | _, _ => [.failure]

/-- What `n` calls in a row give. -/
def receives (dst : ℕ) : ℕ → FramedPipe → List Event
  | 0, _ => []
  | n + 1, pipe =>
      let (result, bytes, pipe) := receive dst pipe
      observe result bytes ++ receives dst n pipe

/-- A stream cut into reads of at least one byte, with timeouts anywhere between them. -/
structure Cuts (inner : List Read) (stream : Bytes) : Prop where
  bytes : bytesOf inner = stream
  reads : ∀ r ∈ inner, r = .timeout ∨ ∃ chunk, chunk ≠ [] ∧ r = .data chunk

/-- A message the caller's buffer holds is delivered, any other is reported. -/
def expected (dst : ℕ) (message : Bytes) : Event :=
  if message.length ≤ dst then .message message else .failure

/-- However the stream is cut, the calls give the messages in order, and enough calls give
all of them. -/
def RoundTrip (dst : ℕ) (messages : List Bytes) : Prop :=
  ∀ inner, Cuts inner (sendAll messages) →
    (∀ n, receives dst n ⟨[], inner⟩ <+: messages.map (expected dst)) ∧
      ∃ n, ∀ m ≥ n, receives dst m ⟨[], inner⟩ = messages.map (expected dst)

/-! ## Frames -/

/-- A message whose frame is taken for one, and that the caller's buffer holds. -/
structure Proper (dst : ℕ) (message : Bytes) : Prop where
  nonempty : 0 < message.length
  bounded : message.length ≤ maxFrameLen
  fits : message.length ≤ dst

instance (dst : ℕ) (message : Bytes) : Decidable (Proper dst message) :=
  decidable_of_iff
    (0 < message.length ∧ message.length ≤ maxFrameLen ∧ message.length ≤ dst)
    ⟨fun h => ⟨h.1, h.2.1, h.2.2⟩, fun h => ⟨h.nonempty, h.bounded, h.fits⟩⟩

variable {dst : ℕ} {message rest rxbuf : Bytes} {messages : List Bytes}

theorem send_length (message : Bytes) : (send message).length = message.length + 4 := by
  simp [send, le32]

/-- A frame that is there as a whole is cut off. -/
theorem tryDecodeOneFrame_send (h : Proper dst message) :
    tryDecodeOneFrame dst (send message ++ rest) = (some message, rest) := by
  obtain ⟨hpos, hmax, hfits⟩ := h
  have hlen := fromLe32_le32 (n := message.length) (by unfold maxFrameLen at hmax; omega)
  simp only [send, le32, List.cons_append, List.nil_append, tryDecodeOneFrame, hlen]
  rw [if_neg (by omega), if_neg (by simp), if_neg (by omega)]
  simp

/-- A frame of which bytes are missing stays. -/
theorem tryDecodeOneFrame_incomplete (h : Proper dst message) (hinit : rxbuf <+: send message)
    (hlen : rxbuf.length < (send message).length) :
    tryDecodeOneFrame dst rxbuf = (none, rxbuf) := by
  obtain ⟨hpos, hmax, hfits⟩ := h
  rcases rxbuf with _ | ⟨b₀, _ | ⟨b₁, _ | ⟨b₂, _ | ⟨b₃, rest⟩⟩⟩⟩
  case cons.cons.cons.cons =>
    have hheader := fromLe32_le32 (n := message.length) (by unfold maxFrameLen at hmax; omega)
    simp only [send, le32, List.cons_append, List.nil_append, List.cons_prefix_cons] at hinit
    obtain ⟨rfl, rfl, rfl, rfl, -⟩ := hinit
    simp only [tryDecodeOneFrame, hheader]
    rw [if_neg (by omega), if_pos]
    simp only [send_length, List.length_cons] at hlen
    omega
  all_goals rfl

/-! ## Over a stream of frames -/

/-- What the pipe holds and what is still to come are the frames of these messages. -/
structure Pending (pipe : FramedPipe) (messages : List Bytes) : Prop where
  stream : pipe.rxbuf ++ bytesOf pipe.inner = sendAll messages
  reads : ∀ r ∈ pipe.inner, r = .timeout ∨ ∃ chunk, chunk ≠ [] ∧ r = .data chunk

theorem sendAll_cons (message : Bytes) (messages : List Bytes) :
    sendAll (message :: messages) = send message ++ sendAll messages := rfl

/-- Cutting one frame off a buffer: the next message, or nothing and no change. -/
theorem tryDecodeOneFrame_pending {tail : Bytes} (hproper : ∀ m ∈ messages, Proper dst m)
    (hstream : rxbuf ++ tail = sendAll messages) :
    (∃ message later rest, messages = message :: later ∧
        tryDecodeOneFrame dst rxbuf = (some message, rest) ∧ rest ++ tail = sendAll later) ∨
      tryDecodeOneFrame dst rxbuf = (none, rxbuf) ∧ (tail = [] → messages = []) := by
  cases messages with
  | nil =>
      simp only [sendAll, List.flatMap_nil, List.append_eq_nil_iff] at hstream
      rw [hstream.1]
      exact Or.inr ⟨rfl, fun _ => rfl⟩
  | cons message later =>
      have hmessage := hproper message List.mem_cons_self
      rw [sendAll_cons, List.append_eq_append_iff] at hstream
      -- either the buffer ends inside the first frame, or the frame ends inside the buffer
      rcases hstream with ⟨missing, hframe, htail⟩ | ⟨rest, rfl, hrest⟩
      · by_cases hmissing : missing = []
        · subst hmissing
          rw [List.append_nil] at hframe
          refine Or.inl ⟨message, later, [], rfl, ?_, htail⟩
          have hsend : tryDecodeOneFrame dst (send message ++ []) = (some message, []) :=
            tryDecodeOneFrame_send hmessage
          rwa [List.append_nil, hframe] at hsend
        · refine Or.inr ⟨tryDecodeOneFrame_incomplete hmessage ⟨missing, hframe.symm⟩ ?_, ?_⟩
          · rw [hframe, List.length_append]
            have := List.length_pos_of_ne_nil hmissing
            omega
          · intro hnil
            simp [hnil, hmissing] at htail
      · exact Or.inl ⟨message, later, rest, rfl, tryDecodeOneFrame_send hmessage, hrest.symm⟩

/-- What one call does to a stream of proper frames: it delivers the next message, or it
times out, having used a read up unless there is nothing left to wait for. -/
def Advances (inner : List Read) (messages : List Bytes)
    (answer : PipeResult × Bytes × FramedPipe) : Prop :=
  (∃ message later, messages = message :: later ∧ answer.1 = .success ∧
      answer.2.1 = message ∧ Pending answer.2.2 later ∧
      answer.2.2.inner.length ≤ inner.length) ∨
    answer.1 = .timeout ∧ Pending answer.2.2 messages ∧
      answer.2.2.inner.length ≤ inner.length - 1 ∧ (inner = [] → messages = [])

theorem bytesOf_data (chunk : Bytes) (inner : List Read) :
    bytesOf (.data chunk :: inner) = chunk ++ bytesOf inner := rfl

theorem onTimeout_spec {inner : List Read} (hproper : ∀ m ∈ messages, Proper dst m)
    (hpending : Pending ⟨rxbuf, inner⟩ messages) {before : List Read}
    (hlength : inner.length ≤ before.length - 1) (hbefore : before = [] → bytesOf inner = []) :
    Advances before messages (onTimeout dst rxbuf inner) := by
  unfold onTimeout
  rcases tryDecodeOneFrame_pending hproper hpending.stream with
    ⟨message, later, rest, hmessages, hdecode, hrest⟩ | ⟨hdecode, hdone⟩
  · rw [hdecode]
    exact Or.inl ⟨message, later, hmessages, rfl, rfl, ⟨hrest, hpending.reads⟩, by
      dsimp only
      omega⟩
  · rw [hdecode]
    exact Or.inr ⟨rfl, hpending, hlength, fun h => hdone (hbefore h)⟩

theorem receiveLoop_spec {inner : List Read} (hproper : ∀ m ∈ messages, Proper dst m)
    (hpending : Pending ⟨rxbuf, inner⟩ messages) :
    Advances inner messages (receiveLoop dst rxbuf inner) := by
  induction inner generalizing rxbuf with
  | nil => exact onTimeout_spec hproper hpending (by simp) (fun _ => rfl)
  | cons r inner ih =>
      have hreads : ∀ r ∈ inner, r = .timeout ∨ ∃ chunk, chunk ≠ [] ∧ r = .data chunk :=
        fun r hr => hpending.reads r (List.mem_cons_of_mem _ hr)
      rcases hpending.reads r List.mem_cons_self with rfl | ⟨chunk, hchunk, rfl⟩
      · rw [receiveLoop]
        have hafter : Pending ⟨rxbuf, inner⟩ messages := ⟨hpending.stream, hreads⟩
        exact onTimeout_spec hproper hafter (by simp) (by simp)
      · have hstream : (rxbuf ++ chunk) ++ bytesOf inner = sendAll messages := by
          rw [List.append_assoc, ← bytesOf_data]
          exact hpending.stream
        rw [receiveLoop, if_neg (by simpa using hchunk)]
        rcases tryDecodeOneFrame_pending hproper hstream with
          ⟨message, later, rest, hmessages, hdecode, hrest⟩ | ⟨hdecode, -⟩
        · rw [hdecode]
          exact Or.inl ⟨message, later, hmessages, rfl, rfl, ⟨hrest, hreads⟩, by simp⟩
        · rw [hdecode]
          dsimp only
          -- the rest of the loop has one read less before it
          rcases ih ⟨hstream, hreads⟩ with
            ⟨message, later, hmessages, hresult, hbytes, hlater, hlength⟩ |
              ⟨hresult, hlater, hlength, -⟩
          · exact Or.inl ⟨message, later, hmessages, hresult, hbytes, hlater, by
              rw [List.length_cons]
              omega⟩
          · exact Or.inr ⟨hresult, hlater, by
              rw [List.length_cons]
              omega, by simp⟩

/-- **One call.** -/
theorem receive_spec {pipe : FramedPipe} (hproper : ∀ m ∈ messages, Proper dst m)
    (hpending : Pending pipe messages) : Advances pipe.inner messages (receive dst pipe) := by
  unfold receive
  rcases tryDecodeOneFrame_pending hproper hpending.stream with
    ⟨message, later, rest, hmessages, hdecode, hrest⟩ | ⟨hdecode, -⟩
  · rw [hdecode]
    exact Or.inl ⟨message, later, hmessages, rfl, rfl, ⟨hrest, hpending.reads⟩, Nat.le_refl _⟩
  · rw [hdecode]
    exact receiveLoop_spec hproper hpending

/-- Any number of calls: never more than the messages, and all of them after enough calls. -/
theorem receives_spec {pipe : FramedPipe} (hproper : ∀ m ∈ messages, Proper dst m)
    (hpending : Pending pipe messages) (n : ℕ) :
    receives dst n pipe <+: messages.map .message ∧
      (pipe.inner.length + messages.length ≤ n →
        receives dst n pipe = messages.map .message) := by
  induction n generalizing pipe messages with
  | zero =>
      refine ⟨List.nil_prefix, fun hn => ?_⟩
      have hnil : messages = [] := List.eq_nil_of_length_eq_zero (by omega)
      rw [hnil]
      rfl
  | succ n ih =>
      rw [receives]
      rcases receive_spec hproper hpending with
        ⟨message, later, rfl, hresult, hbytes, hlater, hlength⟩ |
          ⟨hresult, hlater, hlength, hdone⟩
      · have := ih (fun m hm => hproper m (List.mem_cons_of_mem _ hm)) hlater
        simp only [hresult, hbytes, observe, List.map_cons, List.singleton_append,
          List.cons_prefix_cons, List.cons.injEq, true_and, List.length_cons]
        exact ⟨this.1, fun hn => this.2 (by omega)⟩
      · have := ih hproper hlater
        simp only [hresult, observe, List.nil_append]
        refine ⟨this.1, fun hn => this.2 ?_⟩
        by_cases hinner : pipe.inner = []
        · have hnil := hdone hinner
          rw [hnil, List.length_nil]
          rw [hinner] at hlength
          simp only [List.length_nil] at hlength
          omega
        · have := List.length_pos_of_ne_nil hinner
          omega

/-! ## What is never delivered -/

/-- Whatever the buffer holds, a message that comes out has a length the header admits. -/
theorem proper_of_tryDecodeOneFrame {dst : ℕ} {rxbuf : Bytes} {message : Bytes}
    (h : (tryDecodeOneFrame dst rxbuf).1 = some message) : Proper dst message := by
  fun_induction tryDecodeOneFrame dst rxbuf with
  | case1 b₀ b₁ b₂ b₃ rest len hlen ih => exact ih h
  | case2 => simp at h
  | case3 => simp at h
  | case4 b₀ b₁ b₂ b₃ rest len hlen hcomplete hfits =>
      simp only [Option.some.injEq] at h
      subst h
      have htake : (rest.take len).length = len := by
        rw [List.length_take]
        omega
      exact ⟨by omega, by omega, by omega⟩
  | case5 => simp at h

/-- What a caller learns from an answer is such a message or nothing, and the reads left are
among those there were. -/
structure Sound (dst : ℕ) (inner : List Read) (answer : PipeResult × Bytes × FramedPipe) :
    Prop where
  events : ∀ e ∈ observe answer.1 answer.2.1, ∃ message, e = .message message ∧ Proper dst message
  reads : ∀ r ∈ answer.2.2.inner, r ∈ inner

theorem sound_success {inner before : List Read} {message rest : Bytes}
    (hdecode : tryDecodeOneFrame dst rxbuf = (some message, rest))
    (hinner : ∀ r ∈ inner, r ∈ before) :
    Sound dst before (.success, message, ⟨rest, inner⟩) := by
  refine ⟨?_, hinner⟩
  intro e he
  rw [observe, List.mem_singleton] at he
  exact ⟨message, he, @proper_of_tryDecodeOneFrame _ rxbuf _ (by rw [hdecode])⟩

theorem onTimeout_sound {inner before : List Read} (hinner : ∀ r ∈ inner, r ∈ before) :
    Sound dst before (onTimeout dst rxbuf inner) := by
  unfold onTimeout
  rcases hdecode : tryDecodeOneFrame dst rxbuf with ⟨_ | message, rest⟩
  · exact ⟨by simp [observe], hinner⟩
  · exact sound_success hdecode hinner

theorem receiveLoop_sound {inner : List Read}
    (hreads : ∀ r ∈ inner, r = .timeout ∨ ∃ chunk, chunk ≠ [] ∧ r = .data chunk) :
    Sound dst inner (receiveLoop dst rxbuf inner) := by
  induction inner generalizing rxbuf with
  | nil => exact onTimeout_sound (by simp)
  | cons r inner ih =>
      have hinner : ∀ r' ∈ inner, r' ∈ r :: inner := fun r' hr' => List.mem_cons_of_mem _ hr'
      rcases hreads r List.mem_cons_self with rfl | ⟨chunk, hchunk, rfl⟩
      · exact onTimeout_sound hinner
      · rw [receiveLoop, if_neg (by simpa using hchunk)]
        rcases hdecode : tryDecodeOneFrame dst (rxbuf ++ chunk) with ⟨_ | message, rest⟩
        · have hrest := @ih rest (fun r hr => hreads r (hinner r hr))
          exact ⟨hrest.events, fun r hr => hinner r (hrest.reads r hr)⟩
        · exact sound_success hdecode hinner

theorem receive_sound {pipe : FramedPipe}
    (hreads : ∀ r ∈ pipe.inner, r = .timeout ∨ ∃ chunk, chunk ≠ [] ∧ r = .data chunk) :
    Sound dst pipe.inner (receive dst pipe) := by
  unfold receive
  rcases hdecode : tryDecodeOneFrame dst pipe.rxbuf with ⟨_ | message, rest⟩
  · exact receiveLoop_sound hreads
  · exact sound_success hdecode (fun r hr => hr)

theorem receives_sound {pipe : FramedPipe} (n : ℕ)
    (hreads : ∀ r ∈ pipe.inner, r = .timeout ∨ ∃ chunk, chunk ≠ [] ∧ r = .data chunk) :
    ∀ e ∈ receives dst n pipe, ∃ message, e = .message message ∧ Proper dst message := by
  induction n generalizing pipe with
  | zero => simp [receives]
  | succ n ih =>
      have hsound := @receive_sound dst pipe hreads
      intro e he
      rw [receives, List.mem_append] at he
      rcases he with he | he
      · exact hsound.events e he
      · exact ih (fun r hr => hreads r (hsound.reads r hr)) e he

/-- Every stream can be cut: byte by byte. -/
theorem cuts_bytes (stream : Bytes) : Cuts (stream.map fun b => .data [b]) stream := by
  constructor
  · induction stream with
    | nil => rfl
    | cons b stream ih =>
        rw [List.map_cons, bytesOf_data, ih]
        rfl
  · intro r hr
    obtain ⟨b, -, rfl⟩ := List.mem_map.mp hr
    exact Or.inr ⟨[b], by simp, rfl⟩

theorem expected_of_proper (h : Proper dst message) : expected dst message = .message message :=
  if_pos h.fits

theorem map_expected (hproper : ∀ m ∈ messages, Proper dst m) :
    messages.map (expected dst) = messages.map .message :=
  List.map_congr_left fun m hm => expected_of_proper (hproper m hm)

/-- Only proper messages make the round trip. -/
theorem proper_of_roundTrip (h : RoundTrip dst messages) : ∀ m ∈ messages, Proper dst m := by
  intro m hm
  have hcuts := cuts_bytes (sendAll messages)
  obtain ⟨-, n, hn⟩ := h _ hcuts
  have hall := @receives_sound dst ⟨[], _⟩ n hcuts.reads
  rw [hn n (Nat.le_refl n)] at hall
  obtain ⟨message, hmessage, hproper⟩ := hall _ (List.mem_map_of_mem hm)
  by_cases hfits : m.length ≤ dst
  · rw [expected, if_pos hfits, Event.message.injEq] at hmessage
    rw [hmessage]
    exact hproper
  · rw [expected, if_neg hfits] at hmessage
    cases hmessage

/-- **The round trip.**  It holds for the messages that are not empty, not above
`kMaxFrameLen`, and not above the caller's buffer, and for no others. -/
theorem roundTrip_iff (dst : ℕ) (messages : List Bytes) :
    RoundTrip dst messages ↔
      ∀ m ∈ messages, 0 < m.length ∧ m.length ≤ maxFrameLen ∧ m.length ≤ dst := by
  constructor
  · intro h m hm
    have hproper := proper_of_roundTrip h m hm
    exact ⟨hproper.nonempty, hproper.bounded, hproper.fits⟩
  · intro h inner hcuts
    have hproper : ∀ m ∈ messages, Proper dst m :=
      fun m hm => ⟨(h m hm).1, (h m hm).2.1, (h m hm).2.2⟩
    have hpending : Pending ⟨[], inner⟩ messages := ⟨hcuts.bytes, hcuts.reads⟩
    rw [map_expected hproper]
    exact ⟨fun n => (receives_spec hproper hpending n).1, inner.length + messages.length,
      fun m hm => (receives_spec hproper hpending m).2 hm⟩

/-- An empty message between two others takes the one behind it along: what is left of its
header and the next header are read as the length `65536`.  A message that is too large
holds back the one behind it. -/
theorem roundTrip_fails :
    ¬ RoundTrip 16 [[1], [], [2]] ∧
      receives 16 4 ⟨[], [.data (sendAll [[1], [], [2]])]⟩ = [.message [1]] ∧
    ¬ RoundTrip 2 [[1, 2, 3], [4]] ∧
      receives 2 4 ⟨[], [.data (sendAll [[1, 2, 3], [4]])]⟩ = [] := by
  refine ⟨fun h => ?_, by decide, fun h => ?_, by decide⟩
  · exact absurd (proper_of_roundTrip h [] (by decide)) (by decide)
  · exact absurd (proper_of_roundTrip h [1, 2, 3] (by decide)) (by decide)

end LuminalShine.Pipes
