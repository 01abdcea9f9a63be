import LuminalShine.Lib.Run
import LuminalShine.WebRtc.Pacing

/-!
# Video egress of a session

What `submit_video_packet` and the media loop of `src/webrtc_stream.cpp` do with the frames
of one session.  An iteration of the loop selects frames under the session lock, sorts what
it selected by the time it is to be sent, and pushes it to libwebrtc without the lock, which
it takes again after each push.

The loop treats its sessions one by one; the list it sorts holds the frames of all of them,
and the frames of the others do no more to this session than take time.  `std::sort` leaves
the order of equal keys open, so that the sorted list is part of the label.

## Main definitions

* `State`, `Phase`, `Label`, `step` — the session, with where the iteration is.
* `handleFrame` — the schedule of one frame.
* `State.accepted`, `State.owed`, `State.stray` — the history the decoder's safety is about.
-/

namespace LuminalShine.WebRtc

/-! ## The session -/

/-- `EncodedVideoWork` -/
structure Work where
  frame : Frame
  targetSend : ℤ
  clearKeyframeOnSuccess : Bool
  deriving DecidableEq, Repr

/-- Where the media loop is.  The session lock is held from `aging` to `sorting`; `now` is the
time the iteration began, and `waiting` the flag `waiting_for_keyframe`. -/
inductive Phase where
  | idle
  | aging (now : ℤ) (waiting : Bool)
  | falling (now : ℤ) (waiting : Bool)
  | taking (now : ℤ) (waiting preferLatest : Bool)
  | sorting
  | pushing
  | acknowledging (work : Work) (pushed : Bool)
  deriving DecidableEq, Repr

/-- The fields of `Session` that decide about frames.  The last five are history: the number
of submissions, what libwebrtc accepted, whether a keyframe is owed to the decoder, the
predictive frames it was handed meanwhile, and whether `needs_keyframe` was set since the
iteration sampled it. -/
structure State where
  pacing : Pacing
  fps : ℤ
  frames : List Frame
  needsKeyframe : Bool
  consecutiveDrops : ℕ
  startupKeyframeUntil : Option ℤ
  startupKeyframeDeadline : Option ℤ
  lastKeyframeSent : Option ℤ
  lastVideoPush : Option ℤ
  anchorCapture : Option ℤ
  anchorSend : Option ℤ
  lastDriftReset : Option ℤ
  recoveryPreferLatestUntil : Option ℤ
  inflight : ℕ
  phase : Phase
  works : List Work
  submitted : ℕ
  accepted : List ℕ
  owed : Bool
  stray : List ℕ
  raised : Bool
  deriving DecidableEq, Repr

def millisecond : ℤ := 1000000
def kWebrtcStartupKeyframeHold : ℤ := 3000 * millisecond
def kWebrtcStartupKeyframeDeadline : ℤ := 8000 * millisecond
def kWebrtcStartupExitKeyframeFreshness : ℤ := 250 * millisecond
def kKeyframeConsecutiveDrops : ℕ := 3
def kVideoInflightFramesMin : ℕ := 2
def kVideoInflightFramesMax : ℕ := 6
def kVideoInflightKeyframeExtra : ℕ := 2

/-- The session as `attach_media_tracks` leaves it at `now`: in the startup window, in need of a
keyframe and without the frames queued before the track; `queued` says whether there were any. -/
def State.attached (options : Options) (queued : Bool) (now : ℤ) : State where
  pacing := buildVideoPacingConfig options
  fps := options.fps.getD kDefaultFps
  frames := []
  needsKeyframe := true
  consecutiveDrops := 0
  startupKeyframeUntil := some (now + kWebrtcStartupKeyframeHold)
  startupKeyframeDeadline := some (now + kWebrtcStartupKeyframeDeadline)
  lastKeyframeSent := none
  lastVideoPush := none
  anchorCapture := none
  anchorSend := none
  lastDriftReset := if queued then some now else none
  recoveryPreferLatestUntil := none
  inflight := 0
  phase := .idle
  works := []
  submitted := 0
  accepted := []
  owed := true
  stray := []
  raised := false

def State.frameInterval (s : State) : ℤ := second / max 1 s.fps

def State.maxFrameAge (s : State) : ℤ :=
  if s.pacing.maxFrameAgeOverride then s.pacing.maxFrameAge
  else s.frameInterval * max 1 s.pacing.maxAgeFrames

def State.startupActive (s : State) : Bool :=
  s.startupKeyframeUntil.isSome || s.startupKeyframeDeadline.isSome

def State.recoveryActive (s : State) (now : ℤ) : Bool :=
  s.recoveryPreferLatestUntil.any (now < ·)

/-- The flag is set, and from now on a keyframe is owed. -/
def State.needKeyframe (s : State) : State :=
  { s with needsKeyframe := true, owed := true, raised := true }

/-- The queue changes; a keyframe is owed if one is missing afterwards. -/
def State.setFrames (s : State) (frames : List Frame) : State :=
  { s with frames, owed := s.owed || losesIdr s.frames frames }

/-! ## Submission -/

def preferLatestEnqueue (s : State) (now : ℤ) : Bool :=
  !s.needsKeyframe &&
    match s.pacing.mode with
    | .latency => true
    | .balanced | .smoothness => s.recoveryActive now

/-- What is left of the queue when a frame comes in. -/
def makeRoom (s : State) (now : ℤ) : List Frame :=
  pushRoom s.needsKeyframe (if preferLatestEnqueue s now then [] else s.frames)

/-- `submit_video_packet` -/
def submit (s : State) (now : ℤ) (idr hasData : Bool) (timestamp : Option ℤ) : State :=
  let frame : Frame := ⟨s.submitted, idr, hasData, timestamp⟩
  { s.setFrames (makeRoom s now) with
    frames := makeRoom s now ++ [frame]
    submitted := s.submitted + 1 }

/-! ## Selection -/

def deadlineElapsed (s : State) (now : ℤ) : Bool := s.startupKeyframeDeadline.any (· ≤ now)

def keyframeFresh (s : State) (now : ℤ) : Bool :=
  s.lastKeyframeSent.any fun sent => now - sent ≤ kWebrtcStartupExitKeyframeFreshness

/-- The beginning of an iteration: the startup window may end, and the waiting flag is
sampled.  A deadline that has elapsed lets the decoder go without its keyframe. -/
def beginIteration (s : State) (now : ℤ) : State :=
  if s.startupActive && (keyframeFresh s now || deadlineElapsed s now) then
    { s with
      startupKeyframeUntil := none
      startupKeyframeDeadline := none
      needsKeyframe := false
      owed := s.owed && !deadlineElapsed s now
      raised := false
      phase := .aging now false }
  else { s with raised := false, phase := .aging now (s.needsKeyframe || s.startupActive) }

/-- `oldest_queued_age`, for the frame at the front. -/
def frameAge (s : State) (now : ℤ) (frame : Frame) : Option ℤ :=
  match frame.timestamp, s.anchorCapture, s.anchorSend with
  | some timestamp, some capture, some send => some (now - (send + (timestamp - capture)))
  | _, _, _ => none

def isStale (s : State) (now : ℤ) (frame : Frame) : Bool :=
  (frameAge s now frame).any (s.maxFrameAge < ·)

/-- The loop over `drop_oldest_frame`; there is nothing left to drop after as many rounds as
there are frames. -/
def dropStale (stale : Frame → Bool) (keepKeyframes : Bool) : ℕ → List Frame → List Frame
  | 0, frames => frames
  | rounds + 1, frames =>
      if (frames.head?.any stale) then
        dropStale stale keepKeyframes rounds (dropOldest keepKeyframes frames)
      else frames

/-- Frames that are too old are dropped, and the loop catches up for one frame age. -/
def dropAged (s : State) (now : ℤ) (waiting : Bool) : State :=
  { s.setFrames (dropStale (isStale s now) waiting s.frames.length s.frames) with
    recoveryPreferLatestUntil :=
      if s.frames.head?.any (isStale s now) then some (now + s.maxFrameAge)
      else s.recoveryPreferLatestUntil.filter (now < ·)
    phase := .falling now waiting }

def isBehind (s : State) (now : ℤ) : Bool :=
  kMaxVideoFrames ≤ s.frames.length || s.frames.head?.any (isStale s now) ||
    s.lastDriftReset.any fun reset => now - reset ≤ s.maxFrameAge

/-- `drop_oldest_frame` until one frame is left. -/
def dropToLast (keepKeyframes : Bool) : ℕ → List Frame → List Frame
  | 0, frames => frames
  | rounds + 1, frames =>
      if 1 < frames.length then dropToLast keepKeyframes rounds (dropOldest keepKeyframes frames)
      else frames

/-- In balanced mode a loop that is behind keeps one frame; then it is decided whether only
the latest one is taken. -/
def dropBehind (s : State) (now : ℤ) (waiting : Bool) : State :=
  let behind := isBehind s now
  let falls := decide (s.pacing.mode = .balanced) && behind
  let recovery := if falls then some (now + s.maxFrameAge) else s.recoveryPreferLatestUntil
  let preferLatest := !waiting &&
    match s.pacing.mode with
    | .latency => true
    | .balanced => behind || recovery.any (now < ·)
    | .smoothness => recovery.any (now < ·)
  { s.setFrames (if falls then dropToLast waiting s.frames.length s.frames else s.frames) with
    recoveryPreferLatestUntil := recovery
    phase := .taking now waiting preferLatest }

/-! ## The schedule of a frame -/

def State.resetPacing (s : State) (now : ℤ) : State :=
  { s with anchorCapture := none, anchorSend := none, lastDriftReset := some now,
           lastVideoPush := none }

def captureInFuture (s : State) (now : ℤ) (frame : Frame) : Bool :=
  frame.timestamp.any (now + s.maxFrameAge < ·)

/-- The send target by the capture time: the session, the target and whether the frame is
paced. -/
def mapTarget (s : State) (now : ℤ) (frame : Frame) : State × ℤ × Bool :=
  if captureInFuture s now frame then (s.resetPacing now, now, false)
  else
    match s.pacing.pace, frame.timestamp with
    | true, some capture =>
        match s.anchorCapture, s.anchorSend with
        | some anchorCapture, some anchorSend =>
            if capture < anchorCapture then
              ({ s with anchorCapture := some capture, anchorSend := some now }, now, true)
            else (s, anchorSend + (capture - anchorCapture), true)
        | _, _ => ({ s with anchorCapture := some capture, anchorSend := some now }, now, true)
    | pace, _ => (s, now, pace)

def targetTooOld (s : State) (now target : ℤ) : Bool := target + s.maxFrameAge < now

/-- A paced frame keeps its distance to the last one. -/
def spaceTarget (s : State) (target : ℤ) (pace : Bool) : ℤ :=
  match pace, s.lastVideoPush with
  | true, some last => max target (last + s.frameInterval)
  | _, _ => target

/-- The rest of the schedule, for a frame that is sent. -/
def placeFrame (s : State) (now : ℤ) (frame : Frame) (target : ℤ) (pace : Bool) : State × ℤ :=
  if targetTooOld s now target then (s.resetPacing now, now)
  else
    let target := spaceTarget s target pace
    if now + s.maxFrameAge < target then (s.resetPacing now, now)
    else if s.pacing.dropOldFrames ∧ pace ∧ target < now ∧ s.frameInterval < now - target then
      ({ s with
          anchorCapture := some (frame.timestamp.getD now)
          anchorSend := some now
          lastDriftReset := some now
          lastVideoPush := none }, now)
    else (s, target)

/-- A dropped frame asks for a keyframe if it is one, or the third in a row. -/
def dropNeedsKeyframe (s : State) (idr : Bool) : Bool :=
  idr || (s.pacing.mode ≠ .latency && kKeyframeConsecutiveDrops ≤ s.consecutiveDrops + 1)

def countDrop (s : State) (idr : Bool) : State :=
  if dropNeedsKeyframe s idr then { s.needKeyframe with consecutiveDrops := 0 }
  else if s.pacing.mode ≠ .latency then { s with consecutiveDrops := s.consecutiveDrops + 1 }
  else { s with consecutiveDrops := 0 }

/-- The frame is dropped for its age; the last one of the queue never is. -/
def dropsFrame (s : State) (now target : ℤ) : Bool :=
  s.pacing.dropOldFrames && targetTooOld s now target && !s.frames.isEmpty

/-- `handle_frame`, for a frame that is no longer in the queue. -/
def handleFrame (s : State) (now : ℤ) (waiting : Bool) (frame : Frame) : State :=
  if waiting && !frame.idr then s
  else
    match mapTarget s now frame with
    | (s, target, pace) =>
        if dropsFrame s now target then countDrop s frame.idr
        else
          match placeFrame s now frame target pace with
          | (s, target) => { s with
              lastVideoPush := some target
              works := s.works ++
                [⟨frame, target, waiting && frame.idr && !s.startupActive⟩] }

/-! ## Pushing -/

def maxInflightFrames (s : State) : ℕ :=
  max kVideoInflightFramesMin
    (min ((max 1 s.pacing.maxAgeFrames).toNat * 2) kVideoInflightFramesMax)

def maxAllowed (s : State) (idr : Bool) : ℕ :=
  if idr then maxInflightFrames s + kVideoInflightKeyframeExtra else maxInflightFrames s

/-- The sender is behind with what it has. -/
def backlogged (s : State) (work : Work) : Bool := maxAllowed s work.frame.idr ≤ s.inflight

/-- `lwrtc_encoded_video_source_push_shared`; history records what it was handed. -/
def pushWork (s : State) (work : Work) (accepted : Bool) : State :=
  { s with
    inflight := s.inflight + 1
    accepted := if accepted then s.accepted ++ [work.frame.seq] else s.accepted
    stray := if s.owed && !work.frame.idr then s.stray ++ [work.frame.seq] else s.stray
    owed := s.owed && !(accepted && work.frame.idr)
    phase := .acknowledging work accepted }

/-- What the loop does under the lock after a push. -/
def acknowledge (s : State) (now : ℤ) (work : Work) (pushed : Bool) : State :=
  let clears := pushed && work.clearKeyframeOnSuccess
  { s with
    consecutiveDrops := if pushed then 0 else s.consecutiveDrops
    lastKeyframeSent := if pushed && work.frame.idr then some now else s.lastKeyframeSent
    needsKeyframe := s.needsKeyframe && !clears
    anchorCapture := if clears then none else s.anchorCapture
    anchorSend := if clears then none else s.anchorSend
    lastVideoPush := if clears then none else s.lastVideoPush
    phase := .pushing }

/-! ## The system -/

/-- `keyframeCallback` is the receiver's request, `released` the release of a payload by
libwebrtc; the others are the control thread and the parts of the loop. -/
inductive Label where
  | submit (now : ℤ) (idr hasData : Bool) (timestamp : Option ℤ)
  | keyframeCallback
  | released
  | beginIteration (now : ℤ)
  | dropAged
  | dropBehind
  | take
  | sort (works : List Work)
  | push (now : ℤ) (accepted : Bool)
  | acknowledge (now : ℤ)
  | finish
  deriving DecidableEq, Repr

/-- The session lock is free. -/
def Phase.unlocked : Phase → Bool
  | .idle | .pushing | .acknowledging _ _ => true
  | _ => false

/-- The frames that are left in the queue when one is taken. -/
def State.leave (s : State) (frames : List Frame) : State := { s with frames }

/-- Nothing is left to take. -/
def State.selected (s : State) : Bool :=
  match s.phase with
  | .sorting => true
  | .taking _ _ _ => s.frames.isEmpty
  | _ => false

def step (s : State) : Label → Option State
  | .submit now idr hasData timestamp =>
      if s.phase.unlocked then some (submit s now idr hasData timestamp) else none
  | .keyframeCallback => if s.phase.unlocked then some s.needKeyframe else none
  | .released => if 0 < s.inflight then some { s with inflight := s.inflight - 1 } else none
  | .beginIteration now => if s.phase = .idle then some (beginIteration s now) else none
  | .dropAged =>
      match s.phase with
      | .aging now waiting => some (dropAged s now waiting)
      | _ => none
  | .dropBehind =>
      match s.phase with
      | .falling now waiting => some (dropBehind s now waiting)
      | _ => none
  | .take =>
      match s.phase with
      | .taking now waiting true =>
          match s.frames.getLast? with
          | none => none
          | some latest =>
              let popped := { s with owed := s.owed || s.frames.dropLast.any (·.idr) }
              some { handleFrame (popped.leave []) now waiting latest with phase := .sorting }
      | .taking now waiting false =>
          match s.frames with
          | [] => none
          | frame :: frames =>
              some { handleFrame (s.leave frames) now waiting frame with
                phase := if waiting then .sorting else .taking now false false }
      | _ => none
  | .sort works =>
      if s.selected ∧ works.Perm s.works ∧
          works.Pairwise (fun first second => first.targetSend ≤ second.targetSend) then
        some { s with works, phase := .pushing }
      else none
  | .push now accepted =>
      match s.phase, s.works with
      | .pushing, work :: works =>
          let s := { s with works }
          if !work.frame.hasData then some { s with owed := s.owed || work.frame.idr }
          else if backlogged s work then
            some ((countDrop s work.frame.idr).resetPacing now)
          else some (pushWork s work accepted)
      | _, _ => none
  | .acknowledge now =>
      match s.phase with
      | .acknowledging work pushed => some (acknowledge s now work pushed)
      | _ => none
  | .finish => if s.phase = .pushing ∧ s.works = [] then some { s with phase := .idle } else none

end LuminalShine.WebRtc
