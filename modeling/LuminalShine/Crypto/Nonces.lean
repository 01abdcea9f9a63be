import LuminalShine.Lib.Run
import LuminalShine.Control.Dispatch
import Mathlib.Data.List.Nodup

/-!
# The IVs of a session

Five senders encrypt with AES-GCM under the one key of a session: the host its video
packets, its control messages and its RTSP responses, the client its control messages and
its RTSP requests.  Each builds its 12-byte IV on its own, from a counter in the low bytes
and a tag in the high ones; host and client buffers are kept from message to message, and
the buffer of the broadcast thread is shared by all sessions.

The client is not part of this code.  Its messages carry their sequence numbers, from
which the host builds the IV; that a client does not use a number twice on one channel is
a hypothesis.

## Main definitions

* `Session`, `Label`, `step` — the senders, one message at a time.
* `Message`, `layout` — what is encrypted, and the IV it has to have.
* `ivs_nodup` — no IV is used twice.
-/

namespace LuminalShine.Crypto

open LuminalShine.Lib LuminalShine.Control

/-! ## The senders -/

/-- The bytes of an integer in memory, low byte first. -/
def leBytes : ℕ → ℕ → List UInt8
  | 0, _ => []
  | k + 1, n => UInt8.ofNat n :: leBytes k (n / 256)

/-- `std::copy_n(bytes, size, std::begin(iv))`. -/
def copyTo (bytes iv : List UInt8) : List UInt8 := bytes ++ iv.drop bytes.length

/-- What the senders of a session keep; `videoIv` belongs to the broadcast thread.  `used`
is history: the IVs of all encryptions under the key of this session. -/
structure Session where
  control : Control.Session
  seq : UInt32
  outgoingIv : List UInt8
  /-- `video.cipher`. -/
  videoEncrypted : Bool
  gcmIvCounter : UInt64
  videoIv : List UInt8
  /-- `rtsp_cipher`. -/
  rtspEncrypted : Bool
  rtspIvCounter : UInt32
  used : List (List UInt8)
  deriving DecidableEq, Repr

/-- The IV of `encode_control`. -/
def nextOutgoingIv (s : Session) : List UInt8 :=
  if s.control.encControlV2 then
    ((copyTo (leBytes 4 s.seq.toNat) (resize 12 s.outgoingIv)).set 10 72).set 11 67
  else
    (resize 16 s.outgoingIv).set 0 (UInt8.ofNat s.seq.toNat)

/-- The IV of a video packet. -/
def nextVideoIv (iv : List UInt8) (counter : UInt64) : List UInt8 :=
  (copyTo (leBytes 8 counter.toNat) iv).set 11 86

/-- The IVs of RTSP messages are built in a vector of their own. -/
def rtspIv (origin : UInt8) (seq : UInt32) : List UInt8 :=
  ((copyTo (leBytes 4 seq.toNat) (resize 12 [])).set 10 origin).set 11 82

namespace Session

def encodeControl (s : Session) : Session :=
  if s.control.controlProtocolType ≠ 13 then s
  else
    let iv := nextOutgoingIv s
    { s with seq := s.seq + 1, outgoingIv := iv, used := s.used ++ [iv] }

def encryptShard (s : Session) : Session :=
  if s.videoEncrypted then
    let iv := nextVideoIv s.videoIv s.gcmIvCounter
    { s with gcmIvCounter := s.gcmIvCounter + 1, videoIv := iv, used := s.used ++ [iv] }
  else s

/-- A packet of another session goes through the buffer of the broadcast thread. -/
def encryptShardElsewhere (s : Session) (counter : UInt64) : Session :=
  { s with videoIv := nextVideoIv s.videoIv counter }

/-- An encrypted control message of the client. -/
def receiveControl (s : Session) (seq : UInt32) : Session :=
  let iv := nextIncomingIv s.control (leBytes 4 seq.toNat)
  { s with control := { s.control with incomingIv := iv }, used := s.used ++ [iv] }

def respond (s : Session) : Session :=
  if s.rtspEncrypted then
    { s with
      rtspIvCounter := s.rtspIvCounter + 1
      used := s.used ++ [rtspIv 72 (s.rtspIvCounter + 1)] }
  else s

/-- An encrypted RTSP request of the client. -/
def receiveRtsp (s : Session) (seq : UInt32) : Session :=
  { s with used := s.used ++ [rtspIv 67 seq] }

end Session

inductive Label where
  | encodeControl
  | encryptShard
  | encryptShardElsewhere (counter : UInt64)
  | receiveControl (seq : UInt32)
  | respond
  | receiveRtsp (seq : UInt32)
  deriving DecidableEq, Repr

def next (s : Session) : Label → Session
  | .encodeControl => s.encodeControl
  | .encryptShard => s.encryptShard
  | .encryptShardElsewhere counter => s.encryptShardElsewhere counter
  | .receiveControl seq => s.receiveControl seq
  | .respond => s.respond
  | .receiveRtsp seq => s.receiveRtsp seq

def step (s : Session) (i : Label) : Option Session := some (next s i)

/-! ## What is encrypted -/

inductive Channel where
  | hostControl
  | hostVideo
  | clientControl
  | hostRtsp
  | clientRtsp
  deriving DecidableEq, Repr

/-- A message: its channel and its number there. -/
structure Message where
  channel : Channel
  number : ℕ
  deriving DecidableEq, Repr

/-- The message a step encrypts, if it does. -/
def encrypts (s : Session) : Label → Option Message
  | .encodeControl =>
      if s.control.controlProtocolType ≠ 13 then none else some ⟨.hostControl, s.seq.toNat⟩
  | .encryptShard =>
      if s.videoEncrypted then some ⟨.hostVideo, s.gcmIvCounter.toNat⟩ else none
  | .encryptShardElsewhere _ => none
  | .receiveControl seq => some ⟨.clientControl, seq.toNat⟩
  | .respond =>
      if s.rtspEncrypted then some ⟨.hostRtsp, (s.rtspIvCounter + 1).toNat⟩ else none
  | .receiveRtsp seq => some ⟨.clientRtsp, seq.toNat⟩

/-- All messages of a run. -/
def messages (s : Session) : List Label → List Message
  | [] => []
  | i :: is => (encrypts s i).toList ++ messages (next s i) is

/-- The IV of a message: its number, then zeros, then the tag of its channel. -/
def layout (m : Message) : List UInt8 :=
  match m.channel with
  | .hostControl => leBytes 4 m.number ++ List.replicate 6 0 ++ [72, 67]
  | .hostVideo => leBytes 8 m.number ++ List.replicate 3 0 ++ [86]
  | .clientControl => leBytes 4 m.number ++ List.replicate 6 0 ++ [67, 67]
  | .hostRtsp => leBytes 4 m.number ++ List.replicate 6 0 ++ [72, 82]
  | .clientRtsp => leBytes 4 m.number ++ List.replicate 6 0 ++ [67, 82]

/-- The numbers a channel has. -/
def Channel.bound : Channel → ℕ
  | .hostVideo => 2 ^ 64
  | _ => 2 ^ 32

theorem leBytes_length (k n : ℕ) : (leBytes k n).length = k := by
  induction k generalizing n with
  | zero => rfl
  | succ k ih => simp [leBytes, ih]

theorem leBytes_inj {k n m : ℕ} (h : leBytes k n = leBytes k m) :
    n % 256 ^ k = m % 256 ^ k := by
  induction k generalizing n m with
  | zero => simp [Nat.mod_one]
  | succ k ih =>
      obtain ⟨hlow, hrest⟩ := List.cons.inj h
      have hlow' : n % 256 = m % 256 := by
        have := congrArg UInt8.toNat hlow
        simpa [UInt8.toNat_ofNat'] using this
      rw [Nat.pow_succ', Nat.mod_mul, Nat.mod_mul, hlow', ih hrest]

/-- Different channels differ in the last two bytes, different numbers in the first. -/
theorem layout_inj {m m' : Message} (hm : m.number < m.channel.bound)
    (hm' : m'.number < m'.channel.bound) (h : layout m = layout m') : m = m' := by
  obtain ⟨c, n⟩ := m
  obtain ⟨c', n'⟩ := m'
  have htag : (layout ⟨c, n⟩).drop 10 = (layout ⟨c', n'⟩).drop 10 := by rw [h]
  have hc : c = c' := by
    cases c <;> cases c' <;> first | rfl | simp [layout, leBytes] at htag
  subst hc
  have hnumber : n = n' := by
    cases c <;>
    · have hbytes := List.append_inj_left (List.append_inj_left' h rfl) (by simp [leBytes_length])
      have hmod : n % _ = n' % _ := leBytes_inj hbytes
      simp only [Channel.bound] at hm hm'
      omega
  rw [hnumber]

/-! ## The buffers -/

/-- Between the number and the tag the control buffers have zeros. -/
def Blank (iv : List UInt8) : Prop := ((resize 12 iv).drop 4).take 6 = List.replicate 6 0

/-- And so has the buffer of the broadcast thread. -/
def VideoBlank (iv : List UInt8) : Prop := iv.length = 12 ∧ (iv.drop 8).take 3 = List.replicate 3 0

theorem resize_length (n : ℕ) (iv : List UInt8) : (resize n iv).length = n := by
  simp only [resize, List.length_append, List.length_take, List.length_replicate]
  omega

/-- The end of a control buffer: six zeros and two more bytes. -/
theorem drop_of_blank {iv : List UInt8} (h : Blank iv) :
    ∃ a b, (resize 12 iv).drop 4 = List.replicate 6 0 ++ [a, b] := by
  have hlen : (((resize 12 iv).drop 4).drop 6).length = 2 := by simp [resize_length]
  obtain ⟨a, b, hab⟩ := List.length_eq_two.mp hlen
  refine ⟨a, b, ?_⟩
  rw [← hab, ← h, List.take_append_drop]

theorem drop_of_videoBlank {iv : List UInt8} (h : VideoBlank iv) :
    ∃ a, iv.drop 8 = List.replicate 3 0 ++ [a] := by
  have hlen : ((iv.drop 8).drop 3).length = 1 := by simp [h.1]
  obtain ⟨a, ha⟩ := List.length_eq_one_iff.mp hlen
  refine ⟨a, ?_⟩
  rw [← ha, ← h.2, List.take_append_drop]

/-- Number and tag written into a blank control buffer. -/
theorem control_layout {iv : List UInt8} (h : Blank iv) (n : ℕ) (origin stream : UInt8) :
    ((copyTo (leBytes 4 n) (resize 12 iv)).set 10 origin).set 11 stream =
      leBytes 4 n ++ List.replicate 6 0 ++ [origin, stream] := by
  obtain ⟨a, b, hdrop⟩ := drop_of_blank h
  rw [copyTo, leBytes_length, hdrop]
  simp [leBytes]

theorem blank_layout (n : ℕ) (origin stream : UInt8) :
    Blank (leBytes 4 n ++ List.replicate 6 0 ++ [origin, stream]) := by
  simp [Blank, resize, leBytes]

theorem blank_nil : Blank [] := by
  simp [Blank, resize]

theorem nextVideoIv_eq {iv : List UInt8} (h : VideoBlank iv) (counter : UInt64) :
    nextVideoIv iv counter = layout ⟨.hostVideo, counter.toNat⟩ := by
  obtain ⟨a, hdrop⟩ := drop_of_videoBlank h
  rw [nextVideoIv, copyTo, leBytes_length, hdrop]
  simp [layout, leBytes]

theorem videoBlank_layout (n : ℕ) : VideoBlank (layout ⟨.hostVideo, n⟩) := by
  simp [VideoBlank, layout, leBytes]

theorem rtspIv_eq (origin : UInt8) (seq : UInt32) :
    rtspIv origin seq = leBytes 4 seq.toNat ++ List.replicate 6 0 ++ [origin, 82] :=
  control_layout blank_nil _ _ _

/-- The buffers under the second version of control encryption. -/
structure Buffers (s : Session) : Prop where
  v2 : s.control.encControlV2 = true
  outgoing : Blank s.outgoingIv
  incoming : Blank s.control.incomingIv
  video : VideoBlank s.videoIv

theorem nextOutgoingIv_eq {s : Session} (h : Buffers s) :
    nextOutgoingIv s = layout ⟨.hostControl, s.seq.toNat⟩ := by
  rw [nextOutgoingIv, if_pos h.v2]
  exact control_layout h.outgoing _ _ _

theorem nextIncomingIv_eq {s : Session} (h : Buffers s) (seq : UInt32) :
    nextIncomingIv s.control (leBytes 4 seq.toNat) = layout ⟨.clientControl, seq.toNat⟩ := by
  rw [nextIncomingIv, if_pos h.v2]
  have hlen : 4 = (leBytes 4 seq.toNat).length := (leBytes_length 4 _).symm
  rw [hlen]
  exact control_layout h.incoming _ _ _

/-- One step keeps the buffers blank, and the IV it uses is that of its message. -/
theorem next_spec {s : Session} (h : Buffers s) (i : Label) :
    Buffers (next s i) ∧
      (next s i).used = s.used ++ ((encrypts s i).toList.map layout) := by
  cases i with
  | encodeControl =>
      have hiv := nextOutgoingIv_eq h
      by_cases htype : s.control.controlProtocolType ≠ 13
      · simp only [next, Session.encodeControl, encrypts, if_pos htype]
        exact ⟨h, by simp⟩
      · simp only [next, Session.encodeControl, encrypts, if_neg htype, hiv]
        exact ⟨⟨h.v2, blank_layout _ _ _, h.incoming, h.video⟩, rfl⟩
  | encryptShard =>
      have hiv := nextVideoIv_eq h.video s.gcmIvCounter
      by_cases hvideo : s.videoEncrypted = true
      · simp only [next, Session.encryptShard, encrypts, if_pos hvideo, hiv]
        exact ⟨⟨h.v2, h.outgoing, h.incoming, videoBlank_layout _⟩, rfl⟩
      · simp only [next, Session.encryptShard, encrypts, if_neg hvideo]
        exact ⟨h, by simp⟩
  | encryptShardElsewhere counter =>
      have hiv := nextVideoIv_eq h.video counter
      simp only [next, Session.encryptShardElsewhere, encrypts, hiv]
      exact ⟨⟨h.v2, h.outgoing, h.incoming, videoBlank_layout _⟩, by simp⟩
  | receiveControl seq =>
      have hiv := nextIncomingIv_eq h seq
      simp only [next, Session.receiveControl, encrypts, hiv]
      exact ⟨⟨h.v2, h.outgoing, blank_layout _ _ _, h.video⟩, rfl⟩
  | respond =>
      by_cases hrtsp : s.rtspEncrypted = true
      · simp only [next, Session.respond, encrypts, if_pos hrtsp, rtspIv_eq]
        exact ⟨⟨h.v2, h.outgoing, h.incoming, h.video⟩, rfl⟩
      · simp only [next, Session.respond, encrypts, if_neg hrtsp]
        exact ⟨h, by simp⟩
  | receiveRtsp seq =>
      simp only [next, Session.receiveRtsp, encrypts, rtspIv_eq]
      exact ⟨⟨h.v2, h.outgoing, h.incoming, h.video⟩, rfl⟩

/-- The IVs of a run are those of its messages. -/
theorem used_eq {s t : Session} {is : List Label} (h : Buffers s)
    (hrun : run step s is = some t) : t.used = s.used ++ (messages s is).map layout := by
  induction is generalizing s with
  | nil =>
      cases hrun
      simp [messages]
  | cons i is ih =>
      obtain ⟨u, hu, hrest⟩ := run_cons_eq_some.mp hrun
      cases hu
      obtain ⟨hnext, hused⟩ := next_spec h i
      rw [ih hnext hrest, hused, messages, List.map_append, List.append_assoc]

/-! ## The numbers -/

/-- The number the host would use next on one of its channels; the client's are its own. -/
def nextNumber (s : Session) : Channel → Option ℕ
  | .hostControl => some s.seq.toNat
  | .hostVideo => some s.gcmIvCounter.toNat
  | .hostRtsp => some (s.rtspIvCounter + 1).toNat
  | _ => none

/-- The number the client put into the message, if it is one of the client's on this
channel. -/
def Label.clientSeq : Channel → Label → Option UInt32
  | .clientControl, .receiveControl seq => some seq
  | .clientRtsp, .receiveRtsp seq => some seq
  | _, _ => none

theorem encrypts_lt {s : Session} {i : Label} {m : Message} (h : encrypts s i = some m) :
    m.number < m.channel.bound := by
  cases i <;> simp only [encrypts] at h
  case encodeControl =>
    split at h
    · cases h
    · cases h
      exact s.seq.toNat_lt
  case encryptShard =>
    split at h
    · cases h
      exact s.gcmIvCounter.toNat_lt
    · cases h
  case encryptShardElsewhere => cases h
  case receiveControl seq => cases h; exact seq.toNat_lt
  case respond =>
    split at h
    · cases h
      exact (s.rtspIvCounter + 1).toNat_lt
    · cases h
  case receiveRtsp seq => cases h; exact seq.toNat_lt

theorem messages_lt {s : Session} {is : List Label} :
    ∀ m ∈ messages s is, m.number < m.channel.bound := by
  induction is generalizing s with
  | nil => intro m hm; cases hm
  | cons i is ih =>
      intro m hm
      rcases List.mem_append.mp hm with hm | hm
      · exact encrypts_lt (Option.mem_toList.mp hm)
      · exact ih m hm

/-- A message of the host takes the next number of its channel. -/
theorem number_of_encrypts {s : Session} {i : Label} {m : Message} {n : ℕ}
    (h : encrypts s i = some m) (hn : nextNumber s m.channel = some n) : m.number = n := by
  cases i <;> simp only [encrypts] at h
  case encodeControl => split at h <;> cases h; exact Option.some.inj hn
  case encryptShard => split at h <;> cases h; exact Option.some.inj hn
  case encryptShardElsewhere => cases h
  case receiveControl => cases h; cases hn
  case respond => split at h <;> cases h; exact Option.some.inj hn
  case receiveRtsp => cases h; cases hn

/-- A channel's next number moves on with each of its messages, and with nothing else. -/
theorem nextNumber_next {s : Session} {c : Channel} {n : ℕ} (hn : nextNumber s c = some n)
    (i : Label) :
    nextNumber (next s i) c =
      some (if (encrypts s i).any (·.channel = c) then (n + 1) % c.bound else n) := by
  cases c <;> cases hn <;> cases i <;>
    simp only [next, Session.encodeControl, Session.encryptShard, Session.encryptShardElsewhere,
      Session.receiveControl, Session.respond, Session.receiveRtsp, encrypts, nextNumber,
      Channel.bound] <;>
    first
      | rfl
      | (split <;> simp)

/-- How many messages of a list are of that channel. -/
def countOf (c : Channel) (ms : List Message) : ℕ := ms.countP (·.channel = c)

theorem countOf_messages (c : Channel) (s : Session) (i : Label) (is : List Label) :
    countOf c (messages s (i :: is)) =
      (if (encrypts s i).any (·.channel = c) then 1 else 0) + countOf c (messages (next s i) is) := by
  rw [messages, countOf, List.countP_append]
  congr 1
  cases encrypts s i with
  | none => rfl
  | some m => simp [List.countP_cons]

/-- The host's messages on a channel are numbered one after the other. -/
theorem number_of_mem {s : Session} {is : List Label} {m : Message} {n : ℕ}
    (hm : m ∈ messages s is) (hn : nextNumber s m.channel = some n) :
    ∃ j < countOf m.channel (messages s is), m.number = (n + j) % m.channel.bound := by
  induction is generalizing s n with
  | nil => cases hm
  | cons i is ih =>
      rw [countOf_messages]
      rcases List.mem_append.mp hm with hhead | htail
      · have hsent : encrypts s i = some m := Option.mem_toList.mp hhead
        have hany : (encrypts s i).any (·.channel = m.channel) = true := by simp [hsent]
        refine ⟨0, by rw [if_pos hany]; omega, ?_⟩
        rw [← number_of_encrypts hsent hn, Nat.add_zero, Nat.mod_eq_of_lt (encrypts_lt hsent)]
      · obtain ⟨j, hj, hnumber⟩ := ih htail (nextNumber_next hn i)
        by_cases hsame : (encrypts s i).any (·.channel = m.channel) = true
        · rw [if_pos hsame] at hnumber ⊢
          refine ⟨j + 1, by omega, ?_⟩
          rw [hnumber, Nat.mod_add_mod, Nat.add_assoc, Nat.add_comm 1 j]
        · rw [if_neg hsame] at hnumber ⊢
          exact ⟨j, by omega, hnumber⟩

theorem seq_of_mem {s : Session} {is : List Label} {m : Message} (hm : m ∈ messages s is)
    (hclient : nextNumber s m.channel = none) :
    ∃ seq ∈ is.filterMap (Label.clientSeq m.channel), m.number = seq.toNat := by
  induction is generalizing s with
  | nil => cases hm
  | cons i is ih =>
      rcases List.mem_append.mp hm with hhead | htail
      · have hsent : encrypts s i = some m := Option.mem_toList.mp hhead
        cases i <;> simp only [encrypts] at hsent
        case encodeControl => split at hsent <;> cases hsent; cases hclient
        case encryptShard => split at hsent <;> cases hsent; cases hclient
        case encryptShardElsewhere => cases hsent
        case receiveControl seq => cases hsent; exact ⟨seq, by simp [Label.clientSeq], rfl⟩
        case respond => split at hsent <;> cases hsent; cases hclient
        case receiveRtsp seq => cases hsent; exact ⟨seq, by simp [Label.clientSeq], rfl⟩
      · have hclient' : nextNumber (next s i) m.channel = none := by
          cases hc : m.channel <;> rw [hc] at hclient <;> first | rfl | cases hclient
        obtain ⟨seq, hseq, heq⟩ := ih htail hclient'
        refine ⟨seq, ?_, heq⟩
        rw [← List.singleton_append, List.filterMap_append]
        exact List.mem_append_right _ hseq

/-- **No message is sent twice**: the host counts, and the client does not repeat itself. -/
theorem messages_nodup {s : Session} {is : List Label}
    (hcount : ∀ c, countOf c (messages s is) < 2 ^ 32)
    (hclient : ∀ c, (is.filterMap (Label.clientSeq c)).Nodup) : (messages s is).Nodup := by
  induction is generalizing s with
  | nil => exact List.nodup_nil
  | cons i is ih =>
      have hcount' : ∀ c, countOf c (messages (next s i) is) < 2 ^ 32 := by
        intro c
        have := hcount c
        rw [countOf_messages] at this
        omega
      have hclient' : ∀ c, (is.filterMap (Label.clientSeq c)).Nodup := by
        intro c
        exact (hclient c).sublist ((List.sublist_cons_self i is).filterMap _)
      have hrest := ih hcount' hclient'
      rw [messages]
      cases hsent : encrypts s i with
      | none => exact hrest
      | some m =>
          refine List.nodup_cons.mpr ⟨?_, hrest⟩
          intro hmem
          cases hn : nextNumber s m.channel with
          | some n =>
              -- the later number is ahead of this one, by less than the channel has
              have hsame : (encrypts s i).any (·.channel = m.channel) = true := by simp [hsent]
              have hnext := nextNumber_next hn i
              rw [if_pos hsame] at hnext
              obtain ⟨j, hj, hnumber⟩ := number_of_mem hmem hnext
              have htotal := hcount m.channel
              rw [countOf_messages, if_pos hsame] at htotal
              have hlt := encrypts_lt hsent
              rw [number_of_encrypts hsent hn] at hnumber hlt
              cases hc : m.channel <;> rw [hc] at hnumber hlt <;>
                simp only [Channel.bound] at hnumber hlt <;> omega
          | none =>
              have hclientNext : nextNumber (next s i) m.channel = none := by
                cases hc : m.channel <;> rw [hc] at hn <;> first | rfl | cases hn
              obtain ⟨seq, hseq, heq⟩ := seq_of_mem hmem hclientNext
              have hdup := hclient m.channel
              cases i <;> simp only [encrypts] at hsent
              case encodeControl => split at hsent <;> cases hsent; cases hn
              case encryptShard => split at hsent <;> cases hsent; cases hn
              case encryptShardElsewhere => cases hsent
              case receiveControl seq' =>
                cases hsent
                have hsame : seq' = seq := UInt32.toNat_inj.mp heq
                exact (List.nodup_cons.mp hdup).1 (hsame ▸ hseq)
              case respond => split at hsent <;> cases hsent; cases hn
              case receiveRtsp seq' =>
                cases hsent
                have hsame : seq' = seq := UInt32.toNat_inj.mp heq
                exact (List.nodup_cons.mp hdup).1 (hsame ▸ hseq)

/-! ## The theorem -/

/-- The senders before their first message; the counters may stand anywhere. -/
structure Fresh (s : Session) : Prop where
  v2 : s.control.encControlV2 = true
  outgoing : s.outgoingIv = []
  incoming : s.control.incomingIv = []
  video : VideoBlank s.videoIv
  used : s.used = []

/-- **No IV is used twice under the key of a session**, in any order of sends, while each
channel has fewer than `2 ^ 32` messages and the client does not repeat a sequence number
on a channel. -/
theorem ivs_nodup {s t : Session} {is : List Label} (hfresh : Fresh s)
    (hrun : run step s is = some t)
    (hcount : ∀ c, countOf c (messages s is) < 2 ^ 32)
    (hclient : ∀ c, (is.filterMap (Label.clientSeq c)).Nodup) : t.used.Nodup := by
  have hbuffers : Buffers s :=
    ⟨hfresh.v2, hfresh.outgoing ▸ blank_nil, hfresh.incoming ▸ blank_nil, hfresh.video⟩
  rw [used_eq hbuffers hrun, hfresh.used, List.nil_append]
  refine List.Nodup.map_on ?_ (messages_nodup hcount hclient)
  intro m hm m' hm' heq
  exact layout_inj (messages_lt m hm) (messages_lt m' hm') heq

/-- A session of the encrypted protocol with everything encrypted. -/
def freshSession : Session where
  control := ⟨13, true, false, false, false, [], []⟩
  seq := 0
  outgoingIv := []
  videoEncrypted := true
  gcmIvCounter := 0
  videoIv := List.replicate 12 0
  rtspEncrypted := true
  rtspIvCounter := 0
  used := []

def allSenders : List Label :=
  [.receiveRtsp 1, .respond, .encodeControl, .receiveControl 0, .encryptShardElsewhere 7,
    .encryptShard, .encodeControl, .encryptShard, .receiveControl 1, .receiveRtsp 2]

theorem ivs_nodup_allSenders :
    ∃ t, run step freshSession allSenders = some t ∧ t.used.length = 9 ∧ t.used.Nodup := by
  have hrun : run step freshSession allSenders = some _ := rfl
  refine ⟨_, hrun, rfl, ivs_nodup ?_ hrun ?_ ?_⟩
  · exact ⟨rfl, rfl, rfl, by unfold VideoBlank; decide, rfl⟩
  · intro c
    cases c <;> decide
  · intro c
    cases c <;> decide

end LuminalShine.Crypto
