import LuminalShine.Lib.Run
import LuminalShine.Pipes.Framed

/-!
# The channel to the session monitor

The host queues its telemetry frames and a sender thread writes them to a pipe of the monitor
service, each behind its length.  Nothing is sent twice and nothing is buffered for long: a full
queue loses its oldest frame, a frame is lost when there is no connection or when it breaks, and
the monitor gives a connection up at the first length it does not believe.

* `Reader.read` — `handle_pipe_client`, one `ReadFile` at a time;
* `writeFrame` — `write_frame`, for any outcome of each `WriteFile`;
* `Client.step` — `init`, `enqueue`, `sender_loop` and `shutdown`;
* `Client.Sound` — the invariant: what has been and will be read, in the order it was queued;
* `ingest_in_order` — over any run, the frames read are queued frames, whole, in order and once.
-/

namespace LuminalShine.SessionMon

open LuminalShine.Lib
open LuminalShine.Pipes (Bytes le32 fromLe32 fromLe32_le32)

/-! ## The monitor's end of a connection -/

/-- The cap of `handle_pipe_client`. -/
def maxIngestFrame : ℕ := 1024 * 1024

/-- A frame that the monitor reads. -/
def Proper (frame : Bytes) : Prop := 0 < frame.length ∧ frame.length ≤ maxIngestFrame

instance (frame : Bytes) : Decidable (Proper frame) := by
  unfold Proper
  infer_instance

theorem Proper.small {frame : Bytes} (h : Proper frame) : frame.length < 2 ^ 32 := by
  have := h.2
  rw [maxIngestFrame] at this
  omega

/-- Where `handle_pipe_client` is: before a length, inside a payload of `len` bytes, or out of
its loop. -/
inductive Reader where
  | header
  | payload (len : ℕ) (buf : Bytes)
  | closed
  deriving DecidableEq, Repr

/-- One `ReadFile` that meets the message `m`.  A message longer than what was asked for makes
the call fail. -/
def Reader.read : Reader → Bytes → Reader × Option Bytes
  | .header, [b₀, b₁, b₂, b₃] =>
      let len := fromLe32 b₀ b₁ b₂ b₃
      if len = 0 ∨ maxIngestFrame < len then (.closed, none) else (.payload len [], none)
  | .header, _ => (.closed, none)
  | .payload len buf, m =>
      if m = [] ∨ len < buf.length + m.length then (.closed, none)
      else if buf.length + m.length = len then (.header, some (buf ++ m))
      else (.payload len (buf ++ m), none)
  | .closed, _ => (.closed, none)

/-- The frames read off the messages of a connection. -/
def frames : Reader → List Bytes → List Bytes
  | _, [] => []
  | r, m :: ms => (r.read m).2.toList ++ frames (r.read m).1 ms

/-- Where the reader is behind the messages. -/
def Reader.after : Reader → List Bytes → Reader
  | r, [] => r
  | r, m :: ms => (r.read m).1.after ms

theorem Reader.after_append (r : Reader) (ms ns : List Bytes) :
    r.after (ms ++ ns) = (r.after ms).after ns := by
  induction ms generalizing r with
  | nil => rfl
  | cons m ms ih => exact ih _

theorem frames_append (r : Reader) (ms ns : List Bytes) :
    frames r (ms ++ ns) = frames r ms ++ frames (r.after ms) ns := by
  induction ms generalizing r with
  | nil => rfl
  | cons m ms ih => simp only [List.cons_append, frames, Reader.after, ih, List.append_assoc]

@[simp] theorem after_closed (ms : List Bytes) : Reader.closed.after ms = .closed := by
  induction ms with
  | nil => rfl
  | cons m ms ih => exact ih

@[simp] theorem frames_closed (ms : List Bytes) : frames .closed ms = [] := by
  induction ms with
  | nil => rfl
  | cons m ms ih => exact ih

/-! ## The host's end -/

/-- What a `WriteFile` does: how much of its buffer becomes a message, and what it returns. -/
structure Write where
  bytes : ℕ
  ok : Bool
  deriving DecidableEq, Repr

/-- The loop of `write_frame` over the bytes that are left, and its answer. -/
def writeChunks : Bytes → List Write → List Bytes × Bool
  | rest, [] => ([], rest.isEmpty)
  | rest, w :: ws =>
      if rest = [] then ([], true)
      else if w.ok ∧ rest.take w.bytes ≠ [] then
        (rest.take w.bytes :: (writeChunks (rest.drop w.bytes) ws).1,
          (writeChunks (rest.drop w.bytes) ws).2)
      else ([rest.take w.bytes].filter (· ≠ []), false)

/-- `write_frame`: the messages it leaves in the pipe, and its answer.  The length is cast to
32 bits. -/
def writeFrame (payload : Bytes) (header : Write) (chunks : List Write) : List Bytes × Bool :=
  let message := (le32 payload.length).take header.bytes
  if header.ok ∧ message.length = 4 then
    let (messages, done) := writeChunks (payload.take (payload.length % 2 ^ 32)) chunks
    (message :: messages, done)
  else ([message].filter (· ≠ []), false)

/-- What a frame does to the reader that meets it: a finished one is read, or closes the
connection if it is not proper; of an unfinished one nothing is read but the whole. -/
structure Crosses (payload : Bytes) (written : List Bytes × Bool) : Prop where
  finished : written.2 = true → frames .header written.1 = [payload].filter (Proper ·) ∧
    Reader.header.after written.1 = if Proper payload then .header else .closed
  unfinished : written.2 = false → frames .header written.1 = [] ∨
    frames .header written.1 = [payload]

/-- The payload loops of the two ends meet. -/
theorem frames_writeChunks (ws : List Write) {len : ℕ} {buf rest : Bytes} (hrest : rest ≠ [])
    (hlen : buf.length + rest.length = len) :
    ((writeChunks rest ws).2 = true → frames (.payload len buf) (writeChunks rest ws).1 =
        [buf ++ rest] ∧ (Reader.payload len buf).after (writeChunks rest ws).1 = .header) ∧
      ((writeChunks rest ws).2 = false → frames (.payload len buf) (writeChunks rest ws).1 = [] ∨
        frames (.payload len buf) (writeChunks rest ws).1 = [buf ++ rest]) := by
  induction ws generalizing buf rest with
  | nil => simp [writeChunks, hrest, frames]
  | cons w ws ih =>
      have hsplit : rest.take w.bytes ++ rest.drop w.bytes = rest := List.take_append_drop _ _
      have hsum : (rest.take w.bytes).length + (rest.drop w.bytes).length = rest.length := by
        rw [← List.length_append, hsplit]
      by_cases htake : rest.take w.bytes = []
      · simp [writeChunks, hrest, htake, frames]
      · -- the message is accepted: it ends the payload or leaves some of it
        have hread : (Reader.payload len buf).read (rest.take w.bytes) =
            if rest.drop w.bytes = [] then (.header, some (buf ++ rest))
            else (.payload len (buf ++ rest.take w.bytes), none) := by
          by_cases hdrop : rest.drop w.bytes = []
          · rw [hdrop, List.append_nil] at hsplit
            simp [Reader.read, hsplit, hdrop, hrest, hlen]
          · have hpos := List.length_pos_iff.mpr hdrop
            rw [if_neg hdrop, Reader.read, if_neg (by simp only [htake, false_or]; omega),
              if_neg (by omega)]
        by_cases hok : w.ok
        · simp only [writeChunks, if_neg hrest, hok, htake, ne_eq, not_false_eq_true, and_self,
            if_true, frames, Reader.after, hread]
          by_cases hdrop : rest.drop w.bytes = []
          · have hdone : ∀ ws : List Write, writeChunks [] ws = ([], true) := by
              intro ws
              cases ws <;> rfl
            simp [hdrop, hdone, frames, Reader.after]
          · simp only [if_neg hdrop, Option.toList_none, List.nil_append]
            have hnext : (buf ++ rest.take w.bytes).length + (rest.drop w.bytes).length = len := by
              rw [List.length_append]
              omega
            have := ih hdrop hnext
            rwa [List.append_assoc, hsplit] at this
        · simp only [writeChunks, if_neg hrest, hok, false_and, if_false, Bool.false_eq_true,
            false_implies, true_and, true_implies]
          have hfilter : [rest.take w.bytes].filter (· ≠ []) = [rest.take w.bytes] := by
            simp [htake]
          rw [hfilter]
          simp only [frames, hread, List.append_nil]
          by_cases hdrop : rest.drop w.bytes = []
          · exact Or.inr (by simp [hdrop])
          · exact Or.inl (by simp [hdrop])

/-- What `write_frame` leaves in the pipe crosses it. -/
theorem crosses_writeFrame {payload : Bytes} (hsize : payload.length < 2 ^ 32) (header : Write)
    (chunks : List Write) : Crosses payload (writeFrame payload header chunks) := by
  have hheader := fromLe32_le32 hsize
  have hread : Reader.header.read (le32 payload.length) =
      if Proper payload then (.payload payload.length [], none) else (.closed, none) := by
    simp only [le32, Reader.read, hheader]
    by_cases hproper : Proper payload
    · have hbounds := hproper
      rw [Proper] at hbounds
      rw [if_neg (by omega), if_pos hproper]
    · have hbounds := hproper
      rw [Proper] at hbounds
      rw [if_pos (by omega), if_neg hproper]
  have hpart : ∀ message : Bytes, message.length < 4 → frames .header [message] = [] := by
    intro message hshort
    rcases message with _ | ⟨b₀, _ | ⟨b₁, _ | ⟨b₂, _ | ⟨b₃, rest⟩⟩⟩⟩
    case cons.cons.cons.cons => simp only [List.length_cons] at hshort; omega
    all_goals rfl
  have hfull : (le32 payload.length).length = 4 := rfl
  rw [writeFrame]
  rw [Nat.mod_eq_of_lt hsize, List.take_length]
  by_cases hwhole : header.ok ∧ ((le32 payload.length).take header.bytes).length = 4
  · have htake : (le32 payload.length).take header.bytes = le32 payload.length :=
      List.take_of_length_le (by
        rw [List.length_take] at hwhole
        omega)
    rw [if_pos hwhole, htake]
    by_cases hproper : Proper payload
    · have hnonempty : payload ≠ [] := List.length_pos_iff.mp hproper.1
      have hlen : ([] : Bytes).length + payload.length = payload.length := Nat.zero_add _
      have hmeet := frames_writeChunks chunks hnonempty hlen
      simp only [List.nil_append] at hmeet
      constructor
      · intro hdone
        simp [frames, Reader.after, hread, hproper, hmeet.1 hdone]
      · intro hdone
        simpa [frames, hread, hproper] using hmeet.2 hdone
    · constructor
      · intro _
        simp [frames, Reader.after, hread, hproper]
      · intro _
        exact Or.inl (by simp [frames, hread, hproper])
  · rw [if_neg hwhole]
    refine ⟨by simp, fun _ => Or.inl ?_⟩
    by_cases hnil : (le32 payload.length).take header.bytes = []
    · simp [hnil, frames]
    · have hone : [(le32 payload.length).take header.bytes].filter (· ≠ []) =
          [(le32 payload.length).take header.bytes] := by
        simp [hnil]
      rw [hone]
      by_cases hshort : ((le32 payload.length).take header.bytes).length < 4
      · exact hpart _ hshort
      · have htake : (le32 payload.length).take header.bytes = le32 payload.length :=
          List.take_of_length_le (by
            rw [List.length_take] at hshort
            omega)
        by_cases hproper : Proper payload <;> simp [htake, frames, hread, hproper]

/-! ## The sender -/

/-- `kQueueMaxFrames`. -/
def kQueueMaxFrames : ℕ := 256

/-- The sender thread: the messages written on its connection, when it may connect again (in
milliseconds), and the frame it took. -/
structure Sender where
  pipe : Option (List Bytes)
  nextConnectAttempt : ℕ
  frame : Option Bytes
  deriving DecidableEq, Repr

/-- `State` of the producer, with the messages of the connections that are over and, as history,
the frames given to `enqueue`. -/
structure Client where
  queue : List Bytes
  stop : Bool
  inited : Bool
  sender : Option Sender
  connections : List (List Bytes)
  enqueued : List Bytes
  deriving DecidableEq, Repr

/-- `shutdown` is two steps, the second behind the joined thread.  `later` is the clock behind
the attempt to connect or to write. -/
inductive Event where
  | init (now : ℕ)
  | enqueue (frame : Bytes)
  | take
  | handle (now later : ℕ) (connects : Bool) (header : Write) (chunks : List Write)
  | exit
  | shutdown
  | joined
  deriving DecidableEq, Repr

namespace Client

def initial : Client where
  queue := []
  stop := false
  inited := false
  sender := none
  connections := []
  enqueued := []

/-- `init`. -/
def init (s : Client) (now : ℕ) : Client :=
  if s.inited then s
  else { s with inited := true, stop := false, sender := some ⟨none, now, none⟩ }

/-- `enqueue`. -/
def enqueue (s : Client) (frame : Bytes) : Client :=
  let s := { s with enqueued := s.enqueued ++ [frame] }
  if !s.inited ∨ s.stop then s
  else
    { s with
      queue := (if kQueueMaxFrames ≤ s.queue.length then s.queue.tail else s.queue) ++ [frame] }

/-- `sender_loop` takes a frame, when it has none. -/
def take (s : Client) : Option Client :=
  match s.sender, s.queue with
  | some ⟨pipe, nextConnectAttempt, none⟩, frame :: queue =>
      some { s with sender := some ⟨pipe, nextConnectAttempt, some frame⟩, queue := queue }
  | _, _ => none

/-- `sender_loop` with a frame: it drops it before the next attempt is due or when there is no
connection, and gives up a connection that breaks. -/
def handle (s : Client) (now later : ℕ) (connects : Bool) (header : Write)
    (chunks : List Write) : Option Client :=
  match s.sender with
  | some ⟨pipe, nextConnectAttempt, some frame⟩ =>
      if pipe = none ∧ now < nextConnectAttempt then
        some { s with sender := some ⟨none, nextConnectAttempt, none⟩ }
      else if pipe = none ∧ !connects then
        some { s with sender := some ⟨none, later + 1000, none⟩ }
      else
        let (messages, done) := writeFrame frame header chunks
        if done then
          some { s with sender := some ⟨some (pipe.getD [] ++ messages), nextConnectAttempt, none⟩ }
        else
          some { s with
            sender := some ⟨none, later + 1000, none⟩
            connections := s.connections ++ [pipe.getD [] ++ messages] }
  | _ => none

/-- `sender_loop` ends once it is stopped and the queue is empty. -/
def exit (s : Client) : Option Client :=
  match s.sender with
  | some ⟨pipe, _, none⟩ =>
      if s.stop ∧ s.queue = [] then
        some { s with sender := none, connections := s.connections ++ pipe.toList }
      else none
  | _ => none

def step (s : Client) : Event → Option Client
  | .init now => some (s.init now)
  | .enqueue frame => some (s.enqueue frame)
  | .take => s.take
  | .handle now later connects header chunks => s.handle now later connects header chunks
  | .exit => s.exit
  | .shutdown => some (if s.inited then { s with stop := true } else s)
  | .joined =>
      if s.inited ∧ s.stop ∧ s.sender = none then some { s with inited := false, queue := [] }
      else none

/-! ## What is read -/

/-- The frame in the sender's hands. -/
def inHand (s : Client) : List Bytes := (s.sender.bind Sender.frame).toList

/-- The messages of the open connection. -/
def openPipe (s : Client) : Option (List Bytes) := s.sender.bind Sender.pipe

/-- The frames the monitor reads, connection after connection. -/
def received (s : Client) : List Bytes :=
  (s.connections ++ s.openPipe.toList).flatMap (frames .header)

/-- The frames the monitor has read or may still read, in the order they were queued. -/
def underway (s : Client) : List Bytes := s.received ++ s.inHand ++ s.queue

end Client

/-! ## The invariant -/

/-- The frame an event gives to `enqueue`. -/
def Event.given : Event → Option Bytes
  | .enqueue frame => some frame
  | _ => none

/-- Events whose frame has a length of 32 bits. -/
def Event.Small (e : Event) : Prop := ∀ frame ∈ e.given, frame.length < 2 ^ 32

namespace Client

variable {s s' : Client}

/-- What is underway was queued in this order; an open connection is between two frames, or the
monitor has left it. -/
structure Sound (s : Client) : Prop where
  order : s.underway.Sublist s.enqueued
  small : ∀ frame ∈ s.enqueued, frame.length < 2 ^ 32
  aligned : ∀ messages ∈ s.openPipe,
    Reader.header.after messages = .header ∨ Reader.header.after messages = .closed
  bounded : s.queue.length ≤ kQueueMaxFrames
  off : s.inited = false → s.sender = none

theorem Sound.initial : Sound initial := by
  constructor <;> simp [Client.initial, underway, received, inHand, openPipe]

/-- What a handled frame leaves behind: `got` of it is read. -/
structure Handled (s s' : Client) (frame : Bytes) (got : List Bytes) : Prop where
  before : s.inHand = [frame]
  after : s'.inHand = []
  running : s.sender ≠ none ∧ s'.sender ≠ none
  queue : s'.queue = s.queue
  enqueued : s'.enqueued = s.enqueued
  stop : s'.stop = s.stop
  inited : s'.inited = s.inited
  received : s'.received = s.received ++ got

/-- The reader behind the messages of the open connection. -/
def reader (s : Client) : Reader := Reader.header.after (s.openPipe.getD [])

theorem received_eq (s : Client) : s.received =
    s.connections.flatMap (frames .header) ++ frames .header (s.openPipe.getD []) := by
  rcases hpipe : s.openPipe with _ | messages <;> simp [Client.received, hpipe, frames]

/-- A frame that is handled is dropped, or written on a connection. -/
theorem handle_cases {now later : ℕ} {connects : Bool} {header : Write} {chunks : List Write}
    (h : s.handle now later connects header chunks = some s') :
    ∃ frame, Handled s s' frame [] ∧ s.openPipe = none ∧ s'.openPipe = none ∧
        (now < (s.sender.map Sender.nextConnectAttempt).getD 0 ∨ connects = false) ∨
      Handled s s' frame (frames s.reader (writeFrame frame header chunks).1) ∧
        s'.openPipe = if (writeFrame frame header chunks).2 then
          some (s.openPipe.getD [] ++ (writeFrame frame header chunks).1) else none := by
  rw [handle] at h
  split at h
  · case h_1 pipe nextConnectAttempt frame hsender =>
    have hpipe : s.openPipe = pipe := by simp [openPipe, hsender]
    have hbefore : s.inHand = [frame] := by simp [inHand, hsender]
    refine ⟨frame, ?_⟩
    split at h
    · case isTrue hearly =>
      rw [Option.some.injEq] at h
      subst h
      refine Or.inl ⟨⟨hbefore, rfl, by simp [hsender], rfl, rfl, rfl, rfl, ?_⟩,
        hpipe.trans hearly.1, rfl, Or.inl (by simpa [hsender] using hearly.2)⟩
      simp [received_eq, hsender, hearly.1, openPipe]
    · split at h
      · case isTrue hrefused =>
        rw [Option.some.injEq] at h
        subst h
        refine Or.inl ⟨⟨hbefore, rfl, by simp [hsender], rfl, rfl, rfl, rfl, ?_⟩,
          hpipe.trans hrefused.1, rfl, Or.inr (by simpa using hrefused.2)⟩
        simp [received_eq, hsender, hrefused.1, openPipe]
      · right
        dsimp only at h
        split at h
        · case isTrue hdone =>
          rw [Option.some.injEq] at h
          subst h
          refine ⟨⟨hbefore, rfl, by simp [hsender], rfl, rfl, rfl, rfl, ?_⟩, ?_⟩
          · simp [received_eq, reader, hsender, openPipe, frames_append]
          · simp [openPipe, hsender, hdone]
        · case isFalse hbroken =>
          rw [Option.some.injEq] at h
          subst h
          refine ⟨⟨hbefore, rfl, by simp [hsender], rfl, rfl, rfl, rfl, ?_⟩, ?_⟩
          · simp [received_eq, reader, hsender, openPipe, frames_append, frames]
          · simp [openPipe, hbroken]
  · cases h

/-- A frame that is handled is read at most once, and leaves the connection between two frames
or behind the monitor's back. -/
theorem Sound.handle (hs : Sound s) {now later : ℕ} {connects : Bool} {header : Write}
    {chunks : List Write} (h : s.handle now later connects header chunks = some s') :
    Sound s' := by
  have haligned : s.reader = .header ∨ s.reader = .closed := by
    rw [reader]
    rcases hpipe : s.openPipe with _ | messages
    · exact Or.inl rfl
    · exact hs.aligned messages hpipe
  obtain ⟨frame, hcases⟩ := handle_cases h
  -- whatever is read of the frame, it is the frame or nothing
  have hkeep : ∀ got, Handled s s' frame got → got.Sublist [frame] →
      (∀ messages ∈ s'.openPipe,
        Reader.header.after messages = .header ∨ Reader.header.after messages = .closed) →
      Sound s' := by
    intro got hh hgot halign
    constructor
    · have horder := hs.order
      rw [underway, hh.before] at horder
      rw [underway, hh.after, hh.queue, hh.enqueued, hh.received, List.append_nil]
      exact ((List.Sublist.append_left hgot _).append_right _).trans horder
    · rw [hh.enqueued]
      exact hs.small
    · exact halign
    · rw [hh.queue]
      exact hs.bounded
    · intro hoff
      rw [hh.inited] at hoff
      exact absurd (hs.off hoff) hh.running.1
  rcases hcases with ⟨hh, -, hnone, -⟩ | ⟨hh, hpipe⟩
  · exact hkeep [] hh (List.nil_sublist _) (by simp [hnone])
  · have hmem : frame ∈ s.enqueued := hs.order.subset (by simp [underway, hh.before])
    have hcross := crosses_writeFrame (hs.small frame hmem) header chunks
    refine hkeep _ hh ?_ ?_
    · rcases haligned with hr | hr
      · rw [hr]
        cases hdone : (writeFrame frame header chunks).2
        · rcases hcross.unfinished hdone with hnone | hone
          · simp [hnone]
          · simp [hone]
        · rw [(hcross.finished hdone).1]
          exact List.filter_sublist
      · simp [hr]
    · intro messages hmessages
      rw [hpipe] at hmessages
      split at hmessages
      · case isTrue hdone =>
        rw [Option.mem_some_iff] at hmessages
        subst hmessages
        rw [Reader.after_append]
        rcases haligned with hr | hr
        · rw [reader] at hr
          rw [hr, (hcross.finished hdone).2]
          split <;> simp
        · rw [reader] at hr
          rw [hr]
          simp
      · simp at hmessages

/-! ## Over a run -/

/-- One step keeps the invariant. -/
theorem Sound.step (hs : Sound s) {e : Event} (hsmall : e.Small) (h : s.step e = some s') :
    Sound s' := by
  cases e with
  | init now =>
      simp only [Client.step, Client.init, Option.some.injEq] at h
      split at h <;> subst h
      · exact hs
      · case isFalse hoff =>
        have hnone := hs.off (by simpa using hoff)
        constructor
        · have horder := hs.order
          simp only [underway, received, inHand, openPipe, hnone] at horder
          exact horder
        · exact hs.small
        · simp [openPipe]
        · exact hs.bounded
        · simp
  | enqueue frame =>
      simp only [Client.step, Client.enqueue, Option.some.injEq] at h
      have hsmall' : ∀ f ∈ s.enqueued ++ [frame], f.length < 2 ^ 32 := by
        intro f hf
        rcases List.mem_append.mp hf with hf | hf
        · exact hs.small f hf
        · exact hsmall f (by simpa [Event.given, eq_comm] using hf)
      split at h <;> subst h
      · exact ⟨hs.order.trans (List.sublist_append_left _ _), hsmall', hs.aligned, hs.bounded,
          hs.off⟩
      · refine ⟨?_, hsmall', hs.aligned, ?_, hs.off⟩
        · have hqueue : (if kQueueMaxFrames ≤ s.queue.length then s.queue.tail else
              s.queue).Sublist s.queue := by
            split
            · exact List.tail_sublist _
            · exact List.Sublist.refl _
          have horder := (List.Sublist.append_left hqueue (s.received ++ s.inHand)).trans hs.order
          have := List.Sublist.append_right horder [frame]
          rwa [List.append_assoc] at this
        · have hbounded := hs.bounded
          have hpos : 0 < kQueueMaxFrames := by decide
          simp only [List.length_append, List.length_singleton]
          split
          · rw [List.length_tail]
            omega
          · omega
  | take =>
      simp only [Client.step, Client.take] at h
      split at h
      · case h_1 pipe nextConnectAttempt frame queue hsender hqueue =>
        rw [Option.some.injEq] at h
        subst h
        refine ⟨?_, hs.small, ?_, ?_, ?_⟩
        · have horder := hs.order
          simpa [underway, received, inHand, openPipe, hsender, hqueue] using horder
        · have haligned := hs.aligned
          simpa [openPipe, hsender] using haligned
        · have hbounded := hs.bounded
          rw [hqueue, List.length_cons] at hbounded
          exact Nat.le_of_succ_le hbounded
        · intro hoff
          simp [hs.off hoff] at hsender
      · cases h
  | handle now later connects header chunks => exact hs.handle h
  | exit =>
      simp only [Client.step, Client.exit] at h
      split at h
      · case h_1 pipe nextConnectAttempt hsender =>
        split at h
        · rw [Option.some.injEq] at h
          subst h
          refine ⟨?_, hs.small, by simp [openPipe], hs.bounded, fun _ => rfl⟩
          have horder := hs.order
          simpa [underway, received, inHand, openPipe, hsender] using horder
        · cases h
      · cases h
  | shutdown =>
      simp only [Client.step, Option.some.injEq] at h
      split at h <;> subst h
      · exact ⟨hs.order, hs.small, hs.aligned, hs.bounded, hs.off⟩
      · exact hs
  | joined =>
      simp only [Client.step, guarded_eq_some] at h
      obtain ⟨⟨-, -, hnone⟩, rfl⟩ := h
      refine ⟨?_, hs.small, hs.aligned, by simp, fun _ => hnone⟩
      have horder := hs.order
      simp only [underway] at horder
      exact ((List.Sublist.append_left (List.nil_sublist _) _).trans horder)

/-- A step in which nothing is lost: `enqueue` finds the sender there and room in the queue, and
a frame the monitor reads is written on a connection that holds. -/
def Untroubled (s : Client) : Event → Prop
  | .enqueue frame =>
      s.inited ∧ s.stop = false ∧ s.queue.length < kQueueMaxFrames ∧ Proper frame
  | .handle now _ connects header chunks =>
      (s.openPipe = none →
        (s.sender.map Sender.nextConnectAttempt).getD 0 ≤ now ∧ connects = true) ∧
      ∀ frame ∈ s.inHand, (writeFrame frame header chunks).2 = true
  | _ => True

instance (s : Client) (e : Event) : Decidable (Untroubled s e) := by
  cases e <;> unfold Untroubled <;> infer_instance

/-- Nothing has been lost: everything queued is underway, and every connection is between two
frames. -/
structure Whole (s : Client) : Prop where
  all : s.underway = s.enqueued
  proper : ∀ frame ∈ s.enqueued, Proper frame
  reader : s.reader = .header
  idle : s.sender = none → s.queue = []
  running : s.inited = true → s.stop = false → s.sender ≠ none

theorem Whole.initial : Whole initial := by
  constructor <;> simp [Client.initial, underway, received, inHand, openPipe, Client.reader,
    Reader.after]

/-- A frame that is written on a connection that holds is read. -/
theorem Whole.handle (hw : Whole s) {now later : ℕ} {connects : Bool} {header : Write}
    {chunks : List Write} (hmeets : s.Untroubled (.handle now later connects header chunks))
    (h : s.handle now later connects header chunks = some s') : Whole s' := by
  obtain ⟨frame, ⟨-, hnone, -, hlost⟩ | ⟨hh, hpipe⟩⟩ := handle_cases h
  · have := hmeets.1 hnone
    rcases hlost with hlost | hlost
    · omega
    · simp [hlost] at this
  · have hdone := hmeets.2 frame (by simp [hh.before])
    have hproper := hw.proper frame (by rw [← hw.all]; simp [underway, hh.before])
    have hcross := (crosses_writeFrame hproper.small header chunks).finished hdone
    rw [if_pos hproper] at hcross
    rw [if_pos hdone] at hpipe
    have hread := hh.received
    rw [hw.reader, hcross.1] at hread
    constructor
    · have hall := hw.all
      rw [underway, hh.before] at hall
      rw [underway, hh.after, hh.queue, hh.enqueued, hread, List.append_nil, ← hall]
      simp [hproper]
    · rw [hh.enqueued]
      exact hw.proper
    · have hreader := hw.reader
      rw [Client.reader] at hreader
      rw [Client.reader, hpipe, Option.getD_some, Reader.after_append, hreader, hcross.2]
    · exact fun hoff => absurd hoff hh.running.2
    · exact fun _ _ => hh.running.2

theorem Whole.step (hw : Whole s) (hs : Sound s) {e : Event} (hmeets : s.Untroubled e)
    (h : s.step e = some s') : Whole s' := by
  cases e with
  | init now =>
      simp only [Client.step, Client.init, Option.some.injEq] at h
      split at h <;> subst h
      · exact hw
      · case isFalse hoff =>
        have hnone := hs.off (by simpa using hoff)
        refine ⟨?_, hw.proper, rfl, by simp, by simp⟩
        have hall := hw.all
        simp only [underway, received, inHand, openPipe, hnone] at hall
        exact hall
  | enqueue frame =>
      obtain ⟨hinited, hrunning, hroom, hproper⟩ := hmeets
      have hnotfull : ¬ kQueueMaxFrames ≤ s.queue.length := Nat.not_le.mpr hroom
      simp only [Client.step, Client.enqueue, hinited, hrunning, Option.some.injEq] at h
      simp only [Bool.not_true, Bool.false_eq_true, or_self, if_false, if_neg hnotfull] at h
      subst h
      refine ⟨?_, ?_, hw.reader, ?_, fun _ _ => hw.running hinited hrunning⟩
      · have hall := hw.all
        rw [underway] at hall ⊢
        rw [← List.append_assoc]
        exact congrArg (· ++ [frame]) hall
      · intro f hf
        rcases List.mem_append.mp hf with hf | hf
        · exact hw.proper f hf
        · rw [List.mem_singleton] at hf
          exact hf ▸ hproper
      · exact fun hnone => absurd hnone (hw.running hinited hrunning)
  | take =>
      simp only [Client.step, Client.take] at h
      split at h
      · case h_1 pipe nextConnectAttempt frame queue hsender hqueue =>
        rw [Option.some.injEq] at h
        subst h
        refine ⟨?_, hw.proper, ?_, by simp, by simp⟩
        · have hall := hw.all
          simpa [underway, received, inHand, openPipe, hsender, hqueue] using hall
        · have hreader := hw.reader
          simpa [Client.reader, openPipe, hsender] using hreader
      · cases h
  | handle now later connects header chunks => exact hw.handle hmeets h
  | exit =>
      simp only [Client.step, Client.exit] at h
      split at h
      · case h_1 pipe nextConnectAttempt hsender =>
        split at h
        · case isTrue hstop =>
          rw [Option.some.injEq] at h
          subst h
          refine ⟨?_, hw.proper, rfl, fun _ => hstop.2, ?_⟩
          · have hall := hw.all
            simpa [underway, received, inHand, openPipe, hsender] using hall
          · intro _ hrunning
            simp [hstop.1] at hrunning
        · cases h
      · cases h
  | shutdown =>
      simp only [Client.step, Option.some.injEq] at h
      split at h <;> subst h
      · exact ⟨hw.all, hw.proper, hw.reader, hw.idle, by simp⟩
      · exact hw
  | joined =>
      simp only [Client.step, guarded_eq_some] at h
      obtain ⟨⟨-, -, hnone⟩, rfl⟩ := h
      refine ⟨?_, hw.proper, hw.reader, fun _ => rfl, by simp⟩
      have hall := hw.all
      rw [underway, hw.idle hnone] at hall
      exact hall

theorem step_enqueued {e : Event} (h : s.step e = some s') :
    s'.enqueued = s.enqueued ++ e.given.toList := by
  cases e with
  | init now =>
      simp only [Client.step, Client.init, Option.some.injEq] at h
      split at h <;> subst h <;> simp [Event.given]
  | enqueue frame =>
      simp only [Client.step, Client.enqueue, Option.some.injEq] at h
      split at h <;> subst h <;> simp [Event.given]
  | take =>
      simp only [Client.step, Client.take] at h
      split at h
      · rw [Option.some.injEq] at h
        subst h
        simp [Event.given]
      · cases h
  | handle now later connects header chunks =>
      obtain ⟨frame, ⟨hh, -⟩ | ⟨hh, -⟩⟩ := handle_cases h <;> simp [hh.enqueued, Event.given]
  | exit =>
      simp only [Client.step, Client.exit] at h
      split at h
      · rw [guarded_eq_some] at h
        simp [← h.2, Event.given]
      · cases h
  | shutdown =>
      simp only [Client.step, Option.some.injEq] at h
      split at h <;> subst h <;> simp [Event.given]
  | joined =>
      simp only [Client.step, guarded_eq_some] at h
      simp [← h.2, Event.given]

/-- The history is what the events gave to `enqueue`. -/
theorem enqueued_eq {events : List Event} (h : run Client.step s events = some s') :
    s'.enqueued = s.enqueued ++ events.filterMap Event.given := by
  induction events generalizing s with
  | nil =>
      rw [run_nil, Option.some.injEq] at h
      simp [h]
  | cons e events ih =>
      obtain ⟨t, hstep, hrest⟩ := run_cons_eq_some.mp h
      rw [ih hrest, step_enqueued hstep, List.append_assoc, List.filterMap_cons]
      cases e.given <;> rfl

theorem Untroubled.small {e : Event} (h : s.Untroubled e) : e.Small := by
  intro frame hframe
  cases e with
  | enqueue f =>
      simp only [Event.given, Option.mem_some_iff] at hframe
      exact hframe ▸ h.2.2.2.small
  | _ => cases hframe

end Client

/-- **The monitor reads queued frames, whole, in order and once.**  Whatever breaks on the way,
the frames read off the connections, one connection behind the other, are some of those given to
`enqueue` in their order; the queue stays within its bound; and as long as nothing breaks or
overflows nothing is lost either. -/
theorem ingest_in_order {events : List Event} {s : Client}
    (hsmall : ∀ frame ∈ events.filterMap Event.given, frame.length < 2 ^ 32)
    (hrun : run Client.step Client.initial events = some s) :
    s.received.Sublist (events.filterMap Event.given) ∧ s.queue.length ≤ kQueueMaxFrames ∧
      (RunMeets Client.step Client.Untroubled Client.initial events →
        s.received ++ s.inHand ++ s.queue = events.filterMap Event.given) := by
  have hhistory := Client.enqueued_eq hrun
  rw [Client.initial, List.nil_append] at hhistory
  have hmeets : RunMeets Client.step (fun _ e => e.Small) Client.initial events :=
    runMeets_of_forall_mem (fun e he _ frame hframe =>
      hsmall frame (List.mem_filterMap.mpr ⟨e, he, hframe⟩)) _
  have hsound : s.Sound := run_invariant_of_meets
    (fun _ _ _ hs hsm hstep => Client.Sound.step hs hsm hstep) Client.Sound.initial hmeets hrun
  refine ⟨?_, hsound.bounded, ?_⟩
  · rw [← hhistory]
    have horder := hsound.order
    rw [Client.underway, List.append_assoc] at horder
    exact (List.sublist_append_left _ _).trans horder
  · intro huntroubled
    have hstep : ∀ (s : Client) (e : Event) (s' : Client), s.Sound ∧ s.Whole → s.Untroubled e →
        s.step e = some s' → s'.Sound ∧ s'.Whole :=
      fun _ _ _ hs hm h => ⟨hs.1.step hm.small h, hs.2.step hs.1 hm h⟩
    have hwhole : s.Sound ∧ s.Whole := run_invariant_of_meets hstep
      ⟨Client.Sound.initial, Client.Whole.initial⟩ huntroubled hrun
    exact hwhole.2.all.trans hhistory

/-- A run whose second frame is lost to a broken connection. -/
def brokenRun : List Event :=
  [.init 0, .enqueue [1], .take, .handle 0 0 true ⟨4, true⟩ [⟨1, true⟩], .enqueue [2],
    .enqueue [3], .take, .handle 5 5 true ⟨4, true⟩ [⟨0, false⟩], .take,
    .handle 2000 2000 true ⟨4, true⟩ [⟨1, true⟩]]

/-- A run in which nothing breaks. -/
def steadyRun : List Event :=
  [.init 0, .enqueue [1], .enqueue [2, 3], .take, .handle 0 0 true ⟨4, true⟩ [⟨1, true⟩], .take,
    .handle 5 5 true ⟨4, true⟩ [⟨1, true⟩, ⟨1, true⟩], .enqueue [4], .take]

theorem ingest_in_order_broken :
    (∃ s, run Client.step Client.initial brokenRun = some s ∧ s.received = [[1], [3]] ∧
      s.received.Sublist [[1], [2], [3]]) ∧
    ∃ s, run Client.step Client.initial steadyRun = some s ∧ s.received = [[1], [2, 3]] ∧
      s.received ++ s.inHand ++ s.queue = [[1], [2, 3], [4]] := by
  have hbroken : run Client.step Client.initial brokenRun = some
      ⟨[], false, true, some ⟨some [le32 1, [3]], 1005, none⟩, [[le32 1, [1], le32 1]],
        [[1], [2], [3]]⟩ := by decide
  have hsteady : run Client.step Client.initial steadyRun = some
      ⟨[], false, true, some ⟨some [le32 1, [1], le32 2, [2], [3]], 0, some [4]⟩, [],
        [[1], [2, 3], [4]]⟩ := by decide
  exact ⟨⟨_, hbroken, by decide, (ingest_in_order (by decide) hbroken).1⟩,
    ⟨_, hsteady, by decide, (ingest_in_order (by decide) hsteady).2.2 (by decide)⟩⟩

end LuminalShine.SessionMon
