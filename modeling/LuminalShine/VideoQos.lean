import LuminalShine.Lib.Segments
import Mathlib.Algebra.Order.Ring.Int

/-!
# Decoder-safe admission of encoded video packets

`src/video_packet_qos.h` is a gate in front of the video socket: a predictive
frame may be sent only when the frame before it was sent, and after a loss the
gate withholds everything until a fresh IDR frame went out.  The broadcast loop
of `src/stream.cpp` asks the gate (`evaluate`), sends the shards, and then tells
the gate what became of them (`submitted`, `submissionFailed`).

Time points are nanosecond counts of the steady clock; `0` is the
default-constructed time point the source uses as "not set".  The pacing
arithmetic of the same header is floating point and is not modelled.

## Main definitions

* `evaluate`, `submitted`, `submissionFailed` — the three calls of the gate.
* `broadcast` — one iteration of the broadcast loop, as far as the gate sees it.
* `recordedIn` — the frames the gate records as submitted while a list of packets
  goes through the loop.
-/

namespace LuminalShine.VideoQos

open LuminalShine.Lib

/-- Why a predictive frame was withheld. -/
inductive Reason
  | none
  | waitingForIdr
  | frameDiscontinuity
  | staleFrame
  deriving DecidableEq, Repr

/-- The gate's answer for one packet. -/
structure Decision where
  submit : Bool := false
  requestIdr : Bool := false
  reason : Reason := .none
  deriving DecidableEq, Repr

/-- What an IDR frame that ends a recovery reports. -/
structure Recovery where
  withheldFrames : ℕ := 0
  duration : ℤ := 0
  deriving DecidableEq, Repr

/-- The gate, `state_t` of the source. -/
structure State where
  awaitingIdr : Bool := true
  recoveryRequested : Bool := false
  lastSubmittedFrame : Option ℤ := Option.none
  recoveryStarted : ℤ := 0
  lastRecoveryRequest : ℤ := 0
  withheldFrames : ℕ := 0
  deriving DecidableEq, Repr

/-- Two seconds, in the nanosecond ticks of the steady clock. -/
def kRecoveryRequestRetry : ℤ := 2000000000

/-- Which of the gate's reasons, if any, withholds a predictive frame. -/
def reasonFor (state : State) (frameIndex : ℤ) (stale : Bool) : Reason :=
  match state.lastSubmittedFrame with
  | Option.none => .waitingForIdr
  | some last =>
      if state.awaitingIdr then .waitingForIdr
      else if frameIndex ≠ last + 1 then .frameDiscontinuity
      else if stale then .staleFrame
      else .none

/-- Withholding a frame enters (or stays in) recovery; the IDR request is
repeated only after `kRecoveryRequestRetry`. -/
def withhold (state : State) (reason : Reason) (now : ℤ) : Decision × State :=
  let requestIdr := !state.recoveryRequested || state.lastRecoveryRequest == 0 ||
    decide (now - state.lastRecoveryRequest ≥ kRecoveryRequestRetry)
  ({ submit := false, requestIdr := requestIdr, reason := reason },
    { state with
      recoveryStarted :=
        if !state.awaitingIdr || state.recoveryStarted == 0 then now else state.recoveryStarted
      awaitingIdr := true
      withheldFrames := state.withheldFrames + 1
      recoveryRequested := true
      lastRecoveryRequest := if requestIdr then now else state.lastRecoveryRequest })

/-- Decide whether an encoded packet may enter the transport. -/
def evaluate (state : State) (frameIndex : ℤ) (isIdr stale : Bool) (now : ℤ) :
    Decision × State :=
  if isIdr then ({ submit := true }, state)
  else
    match reasonFor state frameIndex stale with
    | .none => ({ submit := true }, state)
    | reason => withhold state reason now

/-- Record a packet only after all of its UDP shards have been submitted. -/
def submitted (state : State) (frameIndex : ℤ) (isIdr : Bool) (now : ℤ) :
    Option Recovery × State :=
  let state := { state with lastSubmittedFrame := some frameIndex }
  if !isIdr then (Option.none, state)
  else
    let recovery :=
      if state.awaitingIdr then
        some
          { withheldFrames := state.withheldFrames
            duration := if state.recoveryStarted = 0 then 0 else now - state.recoveryStarted }
      else Option.none
    (recovery,
      { state with
        awaitingIdr := false
        recoveryRequested := false
        recoveryStarted := 0
        lastRecoveryRequest := 0
        withheldFrames := 0 })

/-- Re-arm recovery when an admitted IDR fails before transport submission. -/
def submissionFailed (state : State) (isIdr : Bool) : State :=
  if isIdr then
    { state with awaitingIdr := true, recoveryRequested := false, lastRecoveryRequest := 0 }
  else state

/-! ## The broadcast loop -/

/-- What the body of the loop's `try` block does with an admitted packet. -/
inductive Outcome
  /-- Every shard was accepted by the socket. -/
  | sent
  /-- The socket rejected one or more shards. -/
  | rejected
  /-- An exception left the block before the gate heard of the packet. -/
  | exception
  /-- An exception left the block after `submitted` had been called. -/
  | sentThenException
  deriving DecidableEq, Repr

/-- One packet handed to the loop, with everything the environment decides about
it: its own data, the time of admission, the fate of its shards, and the time at
which the loop reports that fate. -/
structure Packet where
  frameIndex : ℤ
  isIdr : Bool
  stale : Bool := false
  now : ℤ := 0
  outcome : Outcome := .sent
  reportedAt : ℤ := 0
  deriving DecidableEq, Repr

/-- What became of a packet. -/
inductive Verdict
  | withheld
  | recorded
  | failed
  | recordedThenFailed
  deriving DecidableEq, Repr

/-- The gate admits the packet. -/
def admits (s : State) (p : Packet) : Bool :=
  (evaluate s p.frameIndex p.isIdr p.stale p.now).1.submit

/-- One iteration of `videoBroadcastThread`, from the admission decision to the
report of the submission result. -/
def broadcast (s : State) (p : Packet) : Verdict × State :=
  let admission := evaluate s p.frameIndex p.isIdr p.stale p.now
  if !admission.1.submit then (.withheld, admission.2)
  else
    let sent := (submitted admission.2 p.frameIndex p.isIdr p.reportedAt).2
    match p.outcome with
    | .sent => (.recorded, sent)
    | .rejected => (.failed, submissionFailed admission.2 p.isIdr)
    | .exception => (.failed, submissionFailed admission.2 p.isIdr)
    | .sentThenException => (.recordedThenFailed, submissionFailed sent p.isIdr)

/-- The gate after a list of packets. -/
def broadcastAll (s : State) (ps : List Packet) : State :=
  ps.foldl (fun s p => (broadcast s p).2) s

/-- A frame as the gate records it. -/
structure Frame where
  index : ℤ
  isIdr : Bool
  deriving DecidableEq, Repr

/-- The frame, if any, that the gate records as submitted for one packet. -/
def recordedBy (s : State) (p : Packet) : List Frame :=
  match (broadcast s p).1 with
  | .recorded | .recordedThenFailed => [⟨p.frameIndex, p.isIdr⟩]
  | .withheld | .failed => []

/-- The frames the gate records as submitted while the packets go through. -/
def recordedIn : State → List Packet → List Frame
  | _, [] => []
  | s, p :: ps => recordedBy s p ++ recordedIn (broadcast s p).2 ps

/-- The frame can open a decodable run. -/
def Frame.Opens (f : Frame) : Prop := f.isIdr = true

/-- The second frame has the index after the first one's. -/
def Frame.Follows (f g : Frame) : Prop := g.index = f.index + 1

/-! ## What one iteration does -/

theorem admits_of_isIdr {s : State} {p : Packet} (h : p.isIdr = true) : admits s p = true := by
  simp [admits, evaluate, h]

theorem evaluate_of_admits {s : State} {p : Packet} (h : admits s p = true) :
    (evaluate s p.frameIndex p.isIdr p.stale p.now).2 = s := by
  revert h
  simp only [admits, evaluate]
  split
  · simp
  · split <;> simp [withhold]

/-- A predictive frame is admitted exactly when it is fresh and continues the last
recorded frame outside recovery. -/
theorem admits_predictive_iff {s : State} {p : Packet} (h : p.isIdr = false) :
    admits s p = true ↔ s.awaitingIdr = false ∧
      s.lastSubmittedFrame = some (p.frameIndex - 1) ∧ p.stale = false := by
  simp only [admits, evaluate, h, Bool.false_eq_true, if_false]
  cases hlast : s.lastSubmittedFrame with
  | none => simp [reasonFor, hlast, withhold]
  | some last =>
      have hidx : last = p.frameIndex - 1 ↔ p.frameIndex = last + 1 := by omega
      by_cases hawait : s.awaitingIdr = true
      · simp [reasonFor, hlast, hawait, withhold]
      · by_cases hgap : p.frameIndex = last + 1
        · by_cases hstale : p.stale = true
          · simp [reasonFor, hlast, hawait, hgap, hstale, withhold]
          · simp [reasonFor, hlast, hawait, hgap, hstale]
        · simp [reasonFor, hlast, hawait, hgap, hidx, withhold]

/-- Everything an iteration can do to the gate, one case for each verdict. -/
theorem broadcast_cases (s : State) (p : Packet) :
    ((broadcast s p).1 = .withheld ∧ admits s p = false ∧ p.isIdr = false ∧
      (broadcast s p).2.awaitingIdr = true ∧
      (broadcast s p).2.lastSubmittedFrame = s.lastSubmittedFrame) ∨
    ((broadcast s p).1 = .failed ∧ admits s p = true ∧
      (broadcast s p).2.awaitingIdr = (p.isIdr || s.awaitingIdr) ∧
      (broadcast s p).2.lastSubmittedFrame = s.lastSubmittedFrame) ∨
    ((broadcast s p).1 = .recorded ∧ admits s p = true ∧
      (broadcast s p).2.awaitingIdr = (!p.isIdr && s.awaitingIdr) ∧
      (broadcast s p).2.lastSubmittedFrame = some p.frameIndex) ∨
    ((broadcast s p).1 = .recordedThenFailed ∧ admits s p = true ∧
      (broadcast s p).2.awaitingIdr = (p.isIdr || s.awaitingIdr) ∧
      (broadcast s p).2.lastSubmittedFrame = some p.frameIndex) := by
  by_cases hadm : admits s p = true
  · have heval := evaluate_of_admits hadm
    have hsub : (evaluate s p.frameIndex p.isIdr p.stale p.now).1.submit = true := hadm
    cases hout : p.outcome <;> cases hidr : p.isIdr <;>
      simp_all [broadcast, submitted, submissionFailed]
  · have hidr : p.isIdr = false := by
      by_contra h
      exact hadm (admits_of_isIdr (by simpa using h))
    have hsub : (evaluate s p.frameIndex p.isIdr p.stale p.now).1.submit = false := by
      simpa [admits] using hadm
    left
    refine ⟨by simp [broadcast, hsub], by simpa using hadm, hidr, ?_, ?_⟩
    all_goals
      simp only [broadcast, hsub, Bool.not_false, if_true]
      revert hsub
      simp only [evaluate, hidr, Bool.false_eq_true, if_false]
      split <;> simp [withhold]

/-- The gate remembers the last frame it recorded. -/
def Tracks (s : State) (fs : List Frame) : Prop :=
  s.lastSubmittedFrame = fs.getLast?.map Frame.index

theorem tracks_init : Tracks {} [] := rfl

theorem tracks_broadcast {s : State} {fs : List Frame} (h : Tracks s fs) (p : Packet) :
    Tracks (broadcast s p).2 (fs ++ recordedBy s p) := by
  simp only [Tracks] at h ⊢
  rcases broadcast_cases s p with ⟨hv, -, -, -, hl⟩ | ⟨hv, -, -, hl⟩ | ⟨hv, -, -, hl⟩ | ⟨hv, -, -, hl⟩
  all_goals simp [recordedBy, hv, hl, h]

/-- One iteration keeps the recorded history a concatenation of decodable runs. -/
theorem segmented_broadcast {s : State} {fs : List Frame} (htrack : Tracks s fs)
    (hseg : Segmented Frame.Opens Frame.Follows fs) (p : Packet) :
    Segmented Frame.Opens Frame.Follows (fs ++ recordedBy s p) := by
  have hadd : admits s p = true →
      Segmented Frame.Opens Frame.Follows (fs ++ [⟨p.frameIndex, p.isIdr⟩]) := by
    intro hadm
    by_cases hidr : p.isIdr = true
    · exact hseg.snoc_start hidr
    · obtain ⟨-, hlast, -⟩ := (admits_predictive_iff (by simpa using hidr)).mp hadm
      rw [htrack, Option.map_eq_some_iff] at hlast
      obtain ⟨f, hf, hidx⟩ := hlast
      refine hseg.snoc_next hf ?_
      simp only [Frame.Follows, hidx]
      omega
  rcases broadcast_cases s p with ⟨hv, -⟩ | ⟨hv, -⟩ | ⟨hv, hadm, -⟩ | ⟨hv, hadm, -⟩
  · simpa [recordedBy, hv] using hseg
  · simpa [recordedBy, hv] using hseg
  · simpa [recordedBy, hv] using hadd hadm
  · simpa [recordedBy, hv] using hadd hadm

/-- Over a whole run: the history stays tracked and decodable. -/
theorem tracks_segmented_recordedIn {s : State} {fs : List Frame} (htrack : Tracks s fs)
    (hseg : Segmented Frame.Opens Frame.Follows fs) (ps : List Packet) :
    Tracks (broadcastAll s ps) (fs ++ recordedIn s ps) ∧
      Segmented Frame.Opens Frame.Follows (fs ++ recordedIn s ps) := by
  induction ps generalizing s fs with
  | nil => simpa [recordedIn, broadcastAll] using And.intro htrack hseg
  | cons p ps ih =>
      have h := ih (tracks_broadcast htrack p) (segmented_broadcast htrack hseg p)
      simpa [recordedIn, broadcastAll, List.append_assoc] using h

/-! ## Recovery -/

/-- Recovery outlives every packet that does not record an IDR frame. -/
theorem awaitingIdr_broadcast {s : State} {p : Packet} (h : s.awaitingIdr = true)
    (hrec : ∀ f ∈ recordedBy s p, f.isIdr = false) : (broadcast s p).2.awaitingIdr = true := by
  rcases broadcast_cases s p with ⟨-, -, -, ha, -⟩ | ⟨-, -, ha, -⟩ | ⟨hv, -, ha, -⟩ | ⟨-, -, ha, -⟩
  · exact ha
  · simp [ha, h]
  · have hidr : p.isIdr = false := by simpa [recordedBy, hv] using hrec
    simp [ha, h, hidr]
  · simp [ha, h]

theorem awaitingIdr_broadcastAll {s : State} (h : s.awaitingIdr = true) {ps : List Packet}
    (hrec : ∀ f ∈ recordedIn s ps, f.isIdr = false) : (broadcastAll s ps).awaitingIdr = true := by
  induction ps generalizing s with
  | nil => exact h
  | cons p ps ih =>
      simp only [recordedIn, List.mem_append] at hrec
      exact ih (awaitingIdr_broadcast h fun f hf => hrec f (.inl hf))
        fun f hf => hrec f (.inr hf)

/-- While nothing is recorded, the gate remembers the same frame. -/
theorem lastSubmittedFrame_broadcastAll {s : State} {ps : List Packet}
    (hrec : recordedIn s ps = []) :
    (broadcastAll s ps).lastSubmittedFrame = s.lastSubmittedFrame := by
  induction ps generalizing s with
  | nil => rfl
  | cons p ps ih =>
      simp only [recordedIn, List.append_eq_nil_iff] at hrec
      have hstep : (broadcast s p).2.lastSubmittedFrame = s.lastSubmittedFrame := by
        rcases broadcast_cases s p with ⟨-, -, -, -, hl⟩ | ⟨-, -, -, hl⟩ | ⟨hv, -⟩ | ⟨hv, -⟩
        · exact hl
        · exact hl
        · simp [recordedBy, hv] at hrec
        · simp [recordedBy, hv] at hrec
      rw [← hstep]
      exact ih hrec.2

/-- After a packet that `lost` selects, no predictive packet is admitted until an
IDR frame has been recorded.  The packets stand at arbitrary places of `ps`. -/
def BlocksUntilIdr (lost : State → Packet → Prop) (ps : List Packet) : Prop :=
  ∀ before p between q after, ps = before ++ p :: (between ++ q :: after) →
    let s := broadcastAll {} before
    let s' := (broadcast s p).2
    lost s p → (∀ f ∈ recordedIn s' between, f.isIdr = false) → q.isIdr = false →
      admits (broadcastAll s' between) q = false

/-- The packet was withheld or its submission failed. -/
def Lost (s : State) (p : Packet) : Prop :=
  (broadcast s p).1 = .withheld ∨ (broadcast s p).1 = .failed

/-- The packet was withheld, or it was an IDR frame whose submission did not go
through to the end. -/
def LostForRecovery (s : State) (p : Packet) : Prop :=
  (broadcast s p).1 = .withheld ∨ (p.isIdr = true ∧ (broadcast s p).1 ≠ .recorded)

/-- After a predictive frame failed, and until something is recorded, only a
packet with the failed frame's own index is admitted among predictive packets. -/
def OnlyResendAfterFailure (ps : List Packet) : Prop :=
  ∀ before p between q after, ps = before ++ p :: (between ++ q :: after) →
    let s := broadcastAll {} before
    let s' := (broadcast s p).2
    (broadcast s p).1 = .failed → p.isIdr = false → recordedIn s' between = [] →
      q.isIdr = false → admits (broadcastAll s' between) q = true → q.frameIndex = p.frameIndex

/-- A predictive packet is admitted only directly after the last recorded frame;
any other index is a gap and is withheld. -/
def NoGapAdmitted (ps : List Packet) : Prop :=
  ∀ before q after, ps = before ++ q :: after → q.isIdr = false →
    admits (broadcastAll {} before) q = true →
      ∃ f, (recordedIn {} before).getLast? = some f ∧ q.frameIndex = f.index + 1

theorem blocksUntilIdr (ps : List Packet) : BlocksUntilIdr LostForRecovery ps := by
  intro before p between q after _ s s' hlost hrec hq
  have hawait : s'.awaitingIdr = true := by
    rcases broadcast_cases s p with ⟨-, -, -, ha, -⟩ | ⟨hv, -, ha, -⟩ | ⟨hv, -⟩ | ⟨hv, -, ha, -⟩
    · exact ha
    · rcases hlost with h | ⟨hidr, -⟩
      · simp [hv] at h
      · simp [s', ha, hidr]
    · rcases hlost with h | ⟨-, h⟩ <;> simp [hv] at h
    · rcases hlost with h | ⟨hidr, -⟩
      · simp [hv] at h
      · simp [s', ha, hidr]
  have hstill := awaitingIdr_broadcastAll hawait hrec
  by_contra hadm
  have := (admits_predictive_iff hq).mp (by simpa using hadm)
  simp [hstill] at this

theorem onlyResendAfterFailure (ps : List Packet) : OnlyResendAfterFailure ps := by
  intro before p between q after _ s s' hfail hp hrec hq hadm
  have hkeep : s'.lastSubmittedFrame = s.lastSubmittedFrame ∧ admits s p = true := by
    rcases broadcast_cases s p with ⟨hv, -⟩ | ⟨-, hadm, -, hl⟩ | ⟨hv, -⟩ | ⟨hv, -⟩
    · simp [hv] at hfail
    · exact ⟨hl, hadm⟩
    · simp [hv] at hfail
    · simp [hv] at hfail
  obtain ⟨-, hlast_p, -⟩ := (admits_predictive_iff hp).mp hkeep.2
  obtain ⟨-, hlast_q, -⟩ := (admits_predictive_iff hq).mp hadm
  rw [lastSubmittedFrame_broadcastAll hrec, hkeep.1, hlast_p, Option.some.injEq] at hlast_q
  omega

theorem noGapAdmitted (ps : List Packet) : NoGapAdmitted ps := by
  intro before q after _ hq hadm
  obtain ⟨-, hlast, -⟩ := (admits_predictive_iff hq).mp hadm
  have htrack := (tracks_segmented_recordedIn tracks_init segmented_nil before).1
  rw [List.nil_append, Tracks, hlast, eq_comm, Option.map_eq_some_iff] at htrack
  obtain ⟨f, hf, hidx⟩ := htrack
  exact ⟨f, hf, by omega⟩

/-- **The gate is decoder safe on every packet history.**  What it records is a
concatenation of runs of consecutive frames, each opened by an IDR frame; a
withheld packet, an index gap or a failed IDR frame closes the gate for predictive
frames until an IDR frame is recorded; and after a failed predictive frame only a
resend of that frame can still pass. -/
theorem broadcast_decoder_safe (ps : List Packet) :
    Segmented Frame.Opens Frame.Follows (recordedIn {} ps) ∧
      BlocksUntilIdr LostForRecovery ps ∧ OnlyResendAfterFailure ps ∧ NoGapAdmitted ps := by
  refine ⟨?_, blocksUntilIdr ps, onlyResendAfterFailure ps, noGapAdmitted ps⟩
  simpa using (tracks_segmented_recordedIn tracks_init segmented_nil ps).2

/-- A predictive frame whose shards were rejected does not close the gate: the
same index, handed in again, is admitted although no IDR frame came in between. -/
theorem resend_after_failed_predictive :
    ¬ BlocksUntilIdr Lost
      [{ frameIndex := 1, isIdr := true },
        { frameIndex := 2, isIdr := false, outcome := .rejected },
        { frameIndex := 2, isIdr := false }] := by
  intro h
  have := h [{ frameIndex := 1, isIdr := true }]
    { frameIndex := 2, isIdr := false, outcome := .rejected } []
    { frameIndex := 2, isIdr := false } [] rfl (.inr (by decide)) (by simp [recordedIn]) rfl
  exact absurd this (by decide)

end LuminalShine.VideoQos
