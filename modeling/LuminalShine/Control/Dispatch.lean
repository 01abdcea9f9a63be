import LuminalShine.Lib.Access
import Mathlib.Algebra.Group.Nat.Defs
import Mathlib.Data.Int.Notation

/-!
# The control stream

`control_server_t::iterate` and `call` of `src/stream.cpp`, and the handlers that
`controlBroadcastThread` registers.  A packet is a 16-bit type and a payload.  The handler of
an encrypted packet decrypts it and calls the dispatcher again on the plaintext.

Every read of the packet and of the plaintext goes through a view and is recorded.  OpenSSL
is a parameter; what is used of it is that GCM gives as many bytes as it is given.

## Main definitions

* `Evp`, `gcmDecrypt` — `gcm_t::decrypt` over the calls of OpenSSL.
* `handlePlain`, `handleEncrypted`, `call`, `receivePacket` — the handlers and the dispatcher.
* `InBoundsWhen` — the packets that are read within their bounds.
* `receivePacket_safe_iff` — for every packet and configuration.
-/

namespace LuminalShine.Control

open LuminalShine.Lib

/-! ## Integers on the wire -/

def little (bytes : List UInt8) : ℕ := bytes.foldr (fun b acc => b.toNat + 256 * acc) 0

def big (bytes : List UInt8) : ℕ := bytes.foldl (fun acc b => 256 * acc + b.toNat) 0

/-- Two's complement in 32 bits. -/
def int32 (n : ℕ) : ℤ := Int.bmod n (2 ^ 32)

/-! ## Packet types -/

/-- The entries of `packetTypes` that have a handler. -/
def startA : ℕ := 0x0305
def startB : ℕ := 0x0307
def invalidateRefFrames : ℕ := 0x0301
def lossStats : ℕ := 0x0201
def inputData : ℕ := 0x0206
def termination : ℕ := 0x0109
def periodicPing : ℕ := 0x0200
def requestIdrFrame : ℕ := 0x0302
def encrypted : ℕ := 0x0001

/-- `LEGACY_TERMINATION_PACKET_TYPE`. -/
def legacyTermination : ℕ := 0x0100

/-- `kPyrowaveFrameFecStatusPtype`. -/
def pyrowaveFrameFecStatus : ℕ := 0x5502

/-! ## PyroWave frame status -/

/-- `frame_fec_status_t`. -/
structure FrameFecStatus where
  frameIndex : ℕ
  highestReceivedSequence : ℕ
  nextContiguousSequence : ℕ
  missingBeforeHighest : ℕ
  totalDataPackets : ℕ
  totalParityPackets : ℕ
  receivedDataPackets : ℕ
  receivedParityPackets : ℕ
  fecPercentage : ℕ
  blockIndex : ℕ
  blockCount : ℕ
  deriving DecidableEq, Repr

def FrameFecStatus.hasLoss (status : FrameFecStatus) : Bool :=
  status.missingBeforeHighest != 0 ||
    decide (status.receivedDataPackets + status.receivedParityPackets <
      status.totalDataPackets + status.totalParityPackets)

/-- `kFrameFecStatusWireSize`. -/
def frameFecStatusWireSize : ℕ := 21

/-- The consistency checks of `parse_frame_fec_status`. -/
def FrameFecStatus.accepted (status : FrameFecStatus) : Bool :=
  !(status.totalDataPackets == 0 ||
    decide (status.receivedDataPackets > status.totalDataPackets) ||
    decide (status.receivedParityPackets > status.totalParityPackets) ||
    decide (status.blockCount < 1) || decide (status.blockCount > 4) ||
    decide (status.blockIndex ≥ status.blockCount))

def parseFrameFecStatus (payload : View) : Traced (Option FrameFecStatus) :=
  if payload.size ≠ frameFecStatusWireSize then pure none
  else do
    let frameIndex ← payload.read 0 4
    let highestReceivedSequence ← payload.read 4 2
    let nextContiguousSequence ← payload.read 6 2
    let missingBeforeHighest ← payload.read 8 2
    let totalDataPackets ← payload.read 10 2
    let totalParityPackets ← payload.read 12 2
    let receivedDataPackets ← payload.read 14 2
    let receivedParityPackets ← payload.read 16 2
    let fecPercentage ← payload.read 18 1
    let blockIndex ← payload.read 19 1
    let blockCount ← payload.read 20 1
    let status : FrameFecStatus :=
      { frameIndex := big frameIndex
        highestReceivedSequence := big highestReceivedSequence
        nextContiguousSequence := big nextContiguousSequence
        missingBeforeHighest := big missingBeforeHighest
        totalDataPackets := big totalDataPackets
        totalParityPackets := big totalParityPackets
        receivedDataPackets := big receivedDataPackets
        receivedParityPackets := big receivedParityPackets
        fecPercentage := big fecPercentage
        blockIndex := big blockIndex
        blockCount := big blockCount }
    pure (if status.accepted then some status else none)

/-! ## Decryption -/

/-- The calls of OpenSSL in `gcm_t::decrypt`: whether the context exists or could be made,
whether `EVP_DecryptInit_ex` takes the IV, and what the update and the final call give for a
tag and a ciphertext. -/
structure Evp where
  ctxReady : List UInt8 → Bool
  ivAccepted : List UInt8 → Bool
  openGcm : List UInt8 → List UInt8 → List UInt8 → Option (List UInt8)

/-- GCM is a stream mode: the plaintext is as long as the ciphertext. -/
def Evp.KeepsLength (evp : Evp) : Prop :=
  ∀ iv tag cipher plaintext, evp.openGcm iv tag cipher = some plaintext →
    plaintext.length = cipher.length

/-- What `decrypt` leaves behind: a nonzero result, an exception, or zero and a plaintext. -/
inductive Decrypted where
  | failed
  | outOfRange
  | plain (plaintext : List UInt8)
  deriving DecidableEq, Repr

/-- `crypto::cipher::tag_size`. -/
def tagSize : ℕ := 16

/-- `gcm_t::decrypt`.  A refused IV returns `false`, which is zero, with no plaintext; the
first `substr` throws when there is no whole tag. -/
def gcmDecrypt (evp : Evp) (taggedCipher : View) (iv : List UInt8) : Traced Decrypted :=
  if !evp.ctxReady iv then pure .failed
  else if !evp.ivAccepted iv then pure (.plain [])
  else if taggedCipher.size < tagSize then pure .outOfRange
  else do
    let cipher ← taggedCipher.read tagSize (taggedCipher.size - tagSize)
    let tag ← taggedCipher.read 0 tagSize
    match evp.openGcm iv tag cipher with
    | none => pure .failed
    | some plaintext => pure (.plain plaintext)

/-! ## Handlers -/

/-- What the handlers read of a session. -/
structure Session where
  controlProtocolType : ℤ
  /-- `encryptionFlagsEnabled & SS_ENC_CONTROL_V2`. -/
  encControlV2 : Bool
  /-- `monitor.videoFormat == pyrowave::kCodec`. -/
  pyrowave : Bool
  frameTransmitted : Bool
  /-- `config::stream.session_monitor`. -/
  sessionMonitor : Bool
  incomingIv : List UInt8
  legacyInputEncIv : List UInt8
  deriving DecidableEq, Repr

/-- What a handler does besides logging. -/
inductive Effect where
  | stop
  | addClientLosses (count : ℕ)
  | idrRequest
  | frameFecLoss (status : FrameFecStatus)
  | invalidateRefFrames (firstFrame lastFrame : ℤ)
  | setIncomingIv (iv : List UInt8)
  | setLegacyInputEncIv (iv : List UInt8)
  | passthrough (plaintext : List UInt8)
  | uncaught
  deriving DecidableEq, Repr

/-- `handle_client_termination`; the code is only logged. -/
def handleClientTermination (payload : View) : Traced (List Effect) :=
  if payload.size ≥ 4 then do
    let _ ← payload.read 0 4
    pure [.stop]
  else if payload.size ≥ 2 then do
    let _ ← payload.read 0 2
    pure [.stop]
  else pure [.stop]

/-- Three of four 32-bit integers are read, with no check of the size. -/
def handleLossStats (session : Session) (payload : View) : Traced (List Effect) := do
  let count ← payload.read 0 4
  let _ ← payload.read 4 4
  let _ ← payload.read 12 4
  pure (if session.sessionMonitor ∧ int32 (little count) > 0 then
    [.addClientLosses (little count)] else [])

def handleRequestIdrFrame (_payload : View) : Traced (List Effect) :=
  pure [.idrRequest]

/-- The handler of `kPyrowaveFrameFecStatusPtype`; what it does with a loss is one effect. -/
def handleFrameFecStatus (session : Session) (payload : View) : Traced (List Effect) :=
  if !session.pyrowave then pure []
  else do
    match ← parseFrameFecStatus payload with
    | none => pure []
    | some status =>
        pure (if session.frameTransmitted && status.hasLoss then [.frameFecLoss status] else [])

def handleInvalidateRefFrames (payload : View) : Traced (List Effect) :=
  if payload.size < 2 * 8 then pure []
  else do
    let firstFrame ← payload.read 0 8
    let lastFrame ← payload.read 8 8
    pure [.invalidateRefFrames (Int.bmod (little firstFrame) (2 ^ 64))
      (Int.bmod (little lastFrame) (2 ^ 64))]

/-- The legacy input handler.  The length prefix is checked against the payload before the
view of the ciphertext is made. -/
def handleInputData (evp : Evp) (session : Session) (payload : View) : Traced (List Effect) :=
  if payload.size < 4 then pure []
  else do
    let taggedCipherLength := int32 (big (← payload.read 0 4))
    if taggedCipherLength < 0 ∨ taggedCipherLength.toNat > payload.size - 4 then pure []
    else do
      let taggedCipher := payload.sub 4 taggedCipherLength.toNat
      let iv := session.legacyInputEncIv
      match ← gcmDecrypt evp taggedCipher iv with
      | .failed => pure [.stop]
      | .outOfRange => pure [.uncaught]
      | .plain plaintext =>
          if taggedCipherLength.toNat ≥ 16 + iv.length then do
            let next ← payload.read (payload.size - 16) 16
            pure [.setLegacyInputEncIv (next ++ iv.drop 16), .passthrough plaintext]
          else pure [.passthrough plaintext]

/-- A packet of no registered type is written to the debug log. -/
def handleUnknown (payload : View) : Traced (List Effect) := do
  let _ ← payload.read 0 payload.size
  pure []

/-- The registered handlers but the one of an encrypted packet. -/
def handlePlain (evp : Evp) (session : Session) (type : ℕ) (payload : View) :
    Traced (List Effect) :=
  if type = periodicPing then pure []
  else if type = startA then pure []
  else if type = startB then pure []
  else if type = termination then handleClientTermination payload
  else if type = legacyTermination then handleClientTermination payload
  else if type = lossStats then handleLossStats session payload
  else if type = requestIdrFrame then handleRequestIdrFrame payload
  else if type = pyrowaveFrameFecStatus then handleFrameFecStatus session payload
  else if type = invalidateRefFrames then handleInvalidateRefFrames payload
  else if type = inputData then handleInputData evp session payload
  else handleUnknown payload

/-- `iv.resize(n)`. -/
def resize (n : ℕ) (iv : List UInt8) : List UInt8 :=
  iv.take n ++ List.replicate (n - iv.length) 0

/-- The IV of an encrypted packet: the deterministic construction of the second version, or
the sequence number in the first of sixteen bytes. -/
def nextIncomingIv (session : Session) (seq : List UInt8) : List UInt8 :=
  if session.encControlV2 then
    (((seq ++ (resize 12 session.incomingIv).drop 4).set 10 67).set 11 67)
  else
    (resize 16 session.incomingIv).set 0 (seq.headD 0)

/-- `plaintext.size() - 4` in 64 bits. -/
def nextPayloadSize (size : ℕ) : ℕ := (size + 2 ^ 64 - 4) % 2 ^ 64

/-- What the handler of an encrypted packet does with the plaintext.  The dispatcher it calls
again does not come back to it: an inner encrypted packet stops the session. -/
def callInner (evp : Evp) (session : Session) (plaintext : List UInt8) :
    Traced (List Effect) := do
  let view := View.whole plaintext
  let type := little (← view.read 0 2)
  if type = encrypted then pure [.stop]
  else if type = inputData then do
    let rest ← view.read 4 (plaintext.length - 4)
    pure [.passthrough rest]
  else handlePlain evp session type (view.sub 4 (nextPayloadSize plaintext.length))

/-- The handler of an encrypted packet.  The header is read at two bytes before the payload;
its declared length is checked to be no runt, and not against the payload. -/
def handleEncrypted (evp : Evp) (session : Session) (payload : View) : Traced (List Effect) := do
  let length := little (← payload.read 0 2)
  let seq ← payload.read 2 4
  if length < 16 + 4 + 4 then pure []
  else do
    let taggedCipher := payload.sub 6 (length - 4)
    let iv := nextIncomingIv session seq
    match ← gcmDecrypt evp taggedCipher iv with
    | .failed => pure [.setIncomingIv iv, .stop]
    | .outOfRange => pure [.setIncomingIv iv, .uncaught]
    | .plain plaintext => do
        let effects ← callInner evp { session with incomingIv := iv } plaintext
        pure (.setIncomingIv iv :: effects)

/-- `control_server_t::call` for a message off the wire.  With the encrypted protocol every
other message is dropped. -/
def call (evp : Evp) (session : Session) (type : ℕ) (payload : View) : Traced (List Effect) :=
  if session.controlProtocolType = 13 ∧ type ≠ encrypted then pure []
  else if type = encrypted then handleEncrypted evp session payload
  else handlePlain evp session type payload

/-- The receive branch of `control_server_t::iterate`. -/
def receivePacket (evp : Evp) (session : Session) (packet : List UInt8) :
    Traced (List Effect) :=
  if packet.length < 2 then pure []
  else do
    let view := View.whole packet
    let type := little (← view.read 0 2)
    call evp session type (view.sub 2 (packet.length - 2))

/-! ## Which packets are read within their bounds -/

/-- The length an encrypted packet declares. -/
def declaredLength (packet : List UInt8) : ℕ := little ((packet.drop 2).take 2)

/-- The plaintext of an encrypted packet, if it is opened. -/
def opened (evp : Evp) (session : Session) (packet : List UInt8) : Option (List UInt8) :=
  let iv := nextIncomingIv session ((packet.drop 4).take 4)
  let cipher := (packet.drop 24).take (declaredLength packet - 4 - tagSize)
  evp.openGcm iv ((packet.drop 8).take tagSize) cipher

/-- An encrypted packet has the whole header; if it is no runt and is decrypted, the IV is
taken, the whole ciphertext is there, and loss statistics within are whole. -/
def EncryptedInBounds (evp : Evp) (session : Session) (packet : List UInt8) : Prop :=
  let iv := nextIncomingIv session ((packet.drop 4).take 4)
  8 ≤ packet.length ∧
    (24 ≤ declaredLength packet → evp.ctxReady iv = true →
      evp.ivAccepted iv = true ∧ declaredLength packet + 4 ≤ packet.length ∧
        ∀ plaintext, opened evp session packet = some plaintext →
          little (plaintext.take 2) = lossStats → 20 ≤ plaintext.length)

/-- The packets the dispatcher and the handlers read within their bounds: unless the encrypted
protocol drops them, loss statistics are whole, and encrypted packets are as above. -/
def InBoundsWhen (evp : Evp) (session : Session) (packet : List UInt8) : Prop :=
  let type := little (packet.take 2)
  (type = lossStats → session.controlProtocolType = 13 ∨ 18 ≤ packet.length) ∧
    (type = encrypted → EncryptedInBounds evp session packet)

section Bounds

variable {evp : Evp} {session : Session} {payload : View}

theorem safe_handleClientTermination (h : payload.ToEnd) :
    (handleClientTermination payload).Safe := by
  rw [handleClientTermination]
  split
  · exact (Traced.safe_bind _ _).mpr ⟨h.safe_read_of_le (by omega), Traced.safe_pure _⟩
  · split
    · exact (Traced.safe_bind _ _).mpr ⟨h.safe_read_of_le (by omega), Traced.safe_pure _⟩
    · exact Traced.safe_pure _

/-- Loss statistics need sixteen bytes. -/
theorem safe_handleLossStats_iff (h : payload.ToEnd) :
    (handleLossStats session payload).Safe ↔ 16 ≤ payload.size := by
  simp only [handleLossStats, Traced.safe_bind, Traced.safe_pure, and_true,
    h.safe_read (by decide : 0 < 4)]
  omega

theorem safe_parseFrameFecStatus (h : payload.ToEnd) : (parseFrameFecStatus payload).Safe := by
  rw [parseFrameFecStatus]
  split
  · exact Traced.safe_pure _
  · rename_i hsize
    have hwire : payload.size = 21 := not_not.mp hsize
    have hread : ∀ offset len, offset + len ≤ 21 → (payload.read offset len).Safe :=
      fun offset len hle => h.safe_read_of_le (hwire ▸ hle)
    simp only [Traced.safe_bind, Traced.safe_pure, and_true]
    refine ⟨?_, ?_, ?_, ?_, ?_, ?_, ?_, ?_, ?_, ?_, ?_⟩ <;> exact hread _ _ (by decide)

theorem safe_handleFrameFecStatus (h : payload.ToEnd) :
    (handleFrameFecStatus session payload).Safe := by
  rw [handleFrameFecStatus]
  split
  · exact Traced.safe_pure _
  · rw [Traced.safe_bind]
    refine ⟨safe_parseFrameFecStatus h, ?_⟩
    split <;> exact Traced.safe_pure _

theorem safe_handleInvalidateRefFrames (h : payload.ToEnd) :
    (handleInvalidateRefFrames payload).Safe := by
  rw [handleInvalidateRefFrames]
  split
  · exact Traced.safe_pure _
  · simp only [Traced.safe_bind, Traced.safe_pure, and_true]
    exact ⟨h.safe_read_of_le (by omega), h.safe_read_of_le (by omega)⟩

/-- A ciphertext with more than a tag is read if the context is set up. -/
theorem safe_gcmDecrypt_iff {taggedCipher : View} {iv : List UInt8}
    (hsize : tagSize < taggedCipher.size) :
    (gcmDecrypt evp taggedCipher iv).Safe ↔
      (evp.ctxReady iv = true → evp.ivAccepted iv = true →
        taggedCipher.start + taggedCipher.size ≤ taggedCipher.buffer.length) := by
  rw [gcmDecrypt]
  by_cases hctx : evp.ctxReady iv = true
  · by_cases hiv : evp.ivAccepted iv = true
    · simp only [hctx, hiv, Bool.not_true, Bool.false_eq_true, if_false, Nat.not_lt_of_lt hsize,
        Traced.safe_bind, forall_const]
      rw [View.safe_read (Nat.sub_pos_of_lt hsize), View.safe_read (by decide : 0 < tagSize)]
      constructor
      · intro h
        have hcipher := h.1
        omega
      · intro h
        refine ⟨by omega, by omega, ?_⟩
        split <;> exact Traced.safe_pure _
    · simp [hctx, hiv]
  · simp [hctx]

/-- A ciphertext within the buffer is read within it. -/
theorem safe_gcmDecrypt {taggedCipher : View} {iv : List UInt8}
    (hinside : taggedCipher.start + taggedCipher.size ≤ taggedCipher.buffer.length) :
    (gcmDecrypt evp taggedCipher iv).Safe := by
  rw [gcmDecrypt]
  split
  · exact Traced.safe_pure _
  · split
    · exact Traced.safe_pure _
    · split
      · exact Traced.safe_pure _
      · simp only [Traced.safe_bind]
        refine ⟨View.safe_read_of_le (by omega), View.safe_read_of_le (by omega), ?_⟩
        split <;> exact Traced.safe_pure _

theorem safe_handleInputData (h : payload.ToEnd) : (handleInputData evp session payload).Safe := by
  have hend : payload.start + payload.size = payload.buffer.length := h
  rw [handleInputData]
  split
  · exact Traced.safe_pure _
  · rw [Traced.safe_bind]
    refine ⟨h.safe_read_of_le (by omega), ?_⟩
    dsimp only
    split
    · exact Traced.safe_pure _
    · rename_i hlength
      obtain ⟨-, hfits⟩ := not_or.mp hlength
      rw [Traced.safe_bind]
      refine ⟨safe_gcmDecrypt ?_, ?_⟩
      · simp only [View.sub]
        omega
      · split
        · exact Traced.safe_pure _
        · exact Traced.safe_pure _
        · split
          · exact (Traced.safe_bind _ _).mpr ⟨h.safe_read_of_le (by omega), Traced.safe_pure _⟩
          · exact Traced.safe_pure _

theorem safe_handleUnknown (h : payload.ToEnd) : (handleUnknown payload).Safe := by
  rw [handleUnknown, Traced.safe_bind]
  exact ⟨h.safe_read_of_le (by omega), Traced.safe_pure _⟩

/-- **Of the plain handlers, only the one of loss statistics may leave its payload.** -/
theorem safe_handlePlain_iff (h : payload.ToEnd) (type : ℕ) :
    (handlePlain evp session type payload).Safe ↔ (type = lossStats → 16 ≤ payload.size) := by
  by_cases hloss : type = lossStats
  · subst hloss
    have hbranch : handlePlain evp session lossStats payload = handleLossStats session payload :=
      rfl
    rw [hbranch, safe_handleLossStats_iff h]
    exact ⟨fun hs _ => hs, fun hs => hs rfl⟩
  · refine ⟨fun _ hl => absurd hl hloss, fun _ => ?_⟩
    rw [handlePlain]
    refine Traced.safe_ite (fun _ => Traced.safe_pure _) fun _ => ?_
    refine Traced.safe_ite (fun _ => Traced.safe_pure _) fun _ => ?_
    refine Traced.safe_ite (fun _ => Traced.safe_pure _) fun _ => ?_
    refine Traced.safe_ite (fun _ => safe_handleClientTermination h) fun _ => ?_
    refine Traced.safe_ite (fun _ => safe_handleClientTermination h) fun _ => ?_
    refine Traced.safe_ite (fun hl => absurd hl hloss) fun _ => ?_
    refine Traced.safe_ite (fun _ => Traced.safe_pure _) fun _ => ?_
    refine Traced.safe_ite (fun _ => safe_handleFrameFecStatus h) fun _ => ?_
    refine Traced.safe_ite (fun _ => safe_handleInvalidateRefFrames h) fun _ => ?_
    exact Traced.safe_ite (fun _ => safe_handleInputData h) fun _ => safe_handleUnknown h

/-- Within a plaintext of at least four bytes, only loss statistics may be short. -/
theorem safe_callInner_iff {plaintext : List UInt8} (hsize : 4 ≤ plaintext.length)
    (hsmall : plaintext.length < 2 ^ 64) :
    (callInner evp session plaintext).Safe ↔
      (little (plaintext.take 2) = lossStats → 20 ≤ plaintext.length) := by
  have hend := View.toEnd_whole plaintext
  have hnext : nextPayloadSize plaintext.length = (View.whole plaintext).size - 4 := by
    change (plaintext.length + 2 ^ 64 - 4) % 2 ^ 64 = plaintext.length - 4
    omega
  have htype : ((View.whole plaintext).read 0 2).val = plaintext.take 2 := rfl
  have hread : ((View.whole plaintext).read 0 2).Safe :=
    hend.safe_read_of_le (Nat.le_trans (by decide) hsize)
  simp only [callInner, Traced.safe_bind, hread, true_and, htype]
  by_cases hencrypted : little (plaintext.take 2) = encrypted
  · rw [if_pos hencrypted, hencrypted]
    exact ⟨fun _ hl => absurd hl (by decide), fun _ => Traced.safe_pure _⟩
  · rw [if_neg hencrypted]
    by_cases hinput : little (plaintext.take 2) = inputData
    · rw [if_pos hinput, hinput, Traced.safe_bind]
      refine ⟨fun _ hl => absurd hl (by decide), fun _ => ⟨?_, Traced.safe_pure _⟩⟩
      refine hend.safe_read_of_le ?_
      change 4 + (plaintext.length - 4) ≤ plaintext.length
      omega
    · rw [if_neg hinput, hnext, safe_handlePlain_iff (hend.sub hsize)]
      have hrest : 16 ≤ (View.whole plaintext).size - 4 ↔ 20 ≤ plaintext.length := by
        change 16 ≤ plaintext.length - 4 ↔ 20 ≤ plaintext.length
        omega
      exact imp_congr_right fun _ => hrest

/-- The type of an empty plaintext is read outside of it. -/
theorem not_safe_callInner_nil : ¬ (callInner evp session []).Safe := by
  rw [callInner, Traced.safe_bind]
  intro h
  exact absurd h.1 (by decide)

/-- `decrypt` of a ciphertext with a whole tag, once the context is set up. -/
theorem val_gcmDecrypt {taggedCipher : View} {iv : List UInt8}
    (hsize : tagSize ≤ taggedCipher.size) (hctx : evp.ctxReady iv = true)
    (hiv : evp.ivAccepted iv = true) :
    (gcmDecrypt evp taggedCipher iv).val =
      match evp.openGcm iv (taggedCipher.read 0 tagSize).val
          (taggedCipher.read tagSize (taggedCipher.size - tagSize)).val with
      | none => .failed
      | some plaintext => .plain plaintext := by
  simp only [gcmDecrypt, hctx, hiv, Bool.not_true, Bool.false_eq_true, if_false,
    Nat.not_lt_of_le hsize, Traced.val_bind]
  split <;> simp [*]

theorem little_two_lt (bytes : List UInt8) : little (bytes.take 2) < 2 ^ 16 := by
  match bytes with
  | [] => exact (by decide : (0 : ℕ) < 2 ^ 16)
  | [a] =>
      change a.toNat + 256 * 0 < 2 ^ 16
      have := a.toNat_lt
      omega
  | a :: b :: _ =>
      change a.toNat + 256 * (b.toNat + 256 * 0) < 2 ^ 16
      have := a.toNat_lt
      have := b.toNat_lt
      omega

/-- The ciphertext of a packet that has all it declares. -/
theorem length_of_opened (hlaw : evp.KeepsLength) {packet plaintext : List UInt8}
    (hwhole : declaredLength packet + 4 ≤ packet.length)
    (hopened : opened evp session packet = some plaintext) :
    plaintext.length = declaredLength packet - 4 - tagSize := by
  rw [hlaw _ _ _ _ hopened, List.length_take, List.length_drop]
  simp only [tagSize]
  omega

/-- **The encrypted handler stays in bounds exactly under `EncryptedInBounds`.** -/
theorem safe_handleEncrypted_iff (hlaw : evp.KeepsLength) {packet : List UInt8}
    (htype : 2 ≤ packet.length) :
    (handleEncrypted evp session ((View.whole packet).sub 2 (packet.length - 2))).Safe ↔
      EncryptedInBounds evp session packet := by
  have hend : ((View.whole packet).sub 2 (packet.length - 2)).ToEnd :=
    (View.toEnd_whole packet).sub htype
  set payload := (View.whole packet).sub 2 (packet.length - 2) with hpayload
  have hsize : payload.size = packet.length - 2 := rfl
  have hlength : little (payload.read 0 2).val = declaredLength packet := rfl
  have hseq : (payload.read 2 4).val = (packet.drop 4).take 4 := rfl
  simp only [handleEncrypted, EncryptedInBounds, Traced.safe_bind, hlength, hseq,
    hend.safe_read (by decide : 0 < 2), hend.safe_read (by decide : 0 < 4)]
  set iv := nextIncomingIv session ((packet.drop 4).take 4) with hiv_def
  have hheader : (0 + 2 ≤ payload.size ∧ 2 + 4 ≤ payload.size) ↔ 8 ≤ packet.length := by omega
  rw [← and_assoc, hheader]
  refine and_congr_right fun _ => ?_
  by_cases hrunt : declaredLength packet < 16 + 4 + 4
  · rw [if_pos hrunt]
    exact ⟨fun _ h => absurd hrunt (by omega), fun _ => Traced.safe_pure _⟩
  · have hnot : 24 ≤ declaredLength packet := by omega
    rw [if_neg hrunt, Traced.safe_bind]
    have htagged : tagSize < (payload.sub 6 (declaredLength packet - 4)).size := by
      change 16 < declaredLength packet - 4
      omega
    have hinside : (payload.sub 6 (declaredLength packet - 4)).start +
        (payload.sub 6 (declaredLength packet - 4)).size ≤
          (payload.sub 6 (declaredLength packet - 4)).buffer.length ↔
        declaredLength packet + 4 ≤ packet.length := by
      change 0 + 2 + 6 + (declaredLength packet - 4) ≤ packet.length ↔ _
      omega
    rw [safe_gcmDecrypt_iff htagged, hinside]
    simp only [hnot, forall_const]
    by_cases hctx : evp.ctxReady iv = true
    · by_cases hiv : evp.ivAccepted iv = true
      · simp only [hctx, hiv, forall_const, true_and]
        refine and_congr_right fun hwhole => ?_
        have hval : (gcmDecrypt evp (payload.sub 6 (declaredLength packet - 4)) iv).val =
            match opened evp session packet with
            | none => .failed
            | some plaintext => .plain plaintext := by
          rw [val_gcmDecrypt (Nat.le_of_lt htagged) hctx hiv]
          rfl
        rw [hval]
        cases hopened : opened evp session packet with
        | none => simp
        | some plaintext =>
            have hplain := length_of_opened hlaw hwhole hopened
            have hbound := little_two_lt (packet.drop 2)
            have hdeclared : declaredLength packet < 2 ^ 16 := hbound
            simp only [tagSize] at hplain
            simp only [Traced.safe_bind, Traced.safe_pure, and_true, Option.some.injEq,
              forall_eq']
            exact safe_callInner_iff (by omega) (by omega)
      -- A refused IV: the empty plaintext is taken for a packet.
      · have hval : (gcmDecrypt evp (payload.sub 6 (declaredLength packet - 4)) iv).val =
            .plain [] := by
          simp [gcmDecrypt, hctx, hiv]
        rw [hval]
        constructor
        · intro h
          exact absurd ((Traced.safe_bind _ _).mp h.2).1 not_safe_callInner_nil
        · intro h
          exact absurd (h hctx).1 hiv
    · have hval : (gcmDecrypt evp (payload.sub 6 (declaredLength packet - 4)) iv).val =
          .failed := by
        simp [gcmDecrypt, hctx]
      rw [hval]
      exact ⟨fun _ h => absurd h hctx, fun _ => ⟨fun h => absurd h hctx, Traced.safe_pure _⟩⟩

/-- **Bounds of the control stream.**  For every packet of at least two bytes and every
configuration, every byte that the dispatcher and the handlers read lies inside the packet,
or inside its plaintext, if and only if the packet is one of `InBoundsWhen`. -/
theorem receivePacket_safe_iff (hlaw : evp.KeepsLength) (packet : List UInt8)
    (htype : 2 ≤ packet.length) :
    (receivePacket evp session packet).Safe ↔ InBoundsWhen evp session packet := by
  have hwhole := View.toEnd_whole packet
  have hend : ((View.whole packet).sub 2 (packet.length - 2)).ToEnd := hwhole.sub htype
  have hread : ((View.whole packet).read 0 2).Safe := hwhole.safe_read_of_le htype
  have hval : ((View.whole packet).read 0 2).val = packet.take 2 := rfl
  simp only [receivePacket, Nat.not_lt_of_le htype, if_false, Traced.safe_bind, hread, true_and,
    hval, call, InBoundsWhen]
  by_cases hencrypted : little (packet.take 2) = encrypted
  · simp only [hencrypted, ne_eq, not_true_eq_false, and_false, if_false, if_true, forall_const]
    rw [safe_handleEncrypted_iff hlaw htype]
    exact ⟨fun h => ⟨fun hl => absurd hl (by decide), h⟩, fun h => h.2⟩
  · simp only [hencrypted, ne_eq, not_false_eq_true, and_true, if_false, false_implies]
    by_cases hdropped : session.controlProtocolType = 13
    · simp [hdropped]
    · rw [if_neg hdropped, safe_handlePlain_iff hend]
      have hsize : 16 ≤ ((View.whole packet).sub 2 (packet.length - 2)).size ↔
          18 ≤ packet.length := by
        change 16 ≤ packet.length - 2 ↔ 18 ≤ packet.length
        omega
      simp only [hdropped, false_or]
      exact imp_congr_right fun _ => hsize

end Bounds

/-- A session of the plain protocol. -/
def plainSession : Session :=
  { controlProtocolType := 1, encControlV2 := false, pyrowave := false, frameTransmitted := false,
    sessionMonitor := false, incomingIv := [], legacyInputEncIv := [] }

/-- A cipher that finds no tag to be right. -/
def refusingEvp : Evp := ⟨fun _ => true, fun _ => true, fun _ _ _ => none⟩

theorem refusingEvp_keepsLength : refusingEvp.KeepsLength := by
  intro iv tag cipher plaintext h
  cases h

/-- Loss statistics of sixteen bytes. -/
theorem receivePacket_loss_stats :
    (receivePacket refusingEvp plainSession ([1, 2] ++ List.replicate 16 0)).Safe :=
  (receivePacket_safe_iff refusingEvp_keepsLength ([1, 2] ++ List.replicate 16 0) (by decide)).mpr
    ⟨fun _ => .inr (by decide), fun h => absurd h (by decide)⟩

/-- Loss statistics without a payload: four bytes are read behind a packet of two. -/
theorem receivePacket_empty_loss_stats :
    2 ≤ [(1 : UInt8), 2].length ∧
      (⟨2, 4, 2⟩ : Access) ∈ (receivePacket refusingEvp plainSession [1, 2]).accesses ∧
      ¬ (receivePacket refusingEvp plainSession [1, 2]).Safe := by
  decide

end LuminalShine.Control
