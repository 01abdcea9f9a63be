import Mathlib.Algebra.Order.Group.Int
import Mathlib.Data.List.Basic
import Mathlib.Order.Lattice

/-!
# Queue and pacing of a session's video

The frame queue of a WebRTC session and its pacing configuration
(`src/webrtc_stream.cpp`).  Times and durations are nanoseconds.

## Main definitions

* `Frame`, `dropOldest`, `pushRoom` — `EncodedVideoFrame` and `ring_buffer_t`.
* `Pacing`, `buildVideoPacingConfig` — the three modes and what the client may override.
-/

namespace LuminalShine.WebRtc

/-! ## Frames -/

/-- `seq` numbers the submissions to a session; of the payload only matters whether it is
empty. -/
structure Frame where
  seq : ℕ
  idr : Bool
  hasData : Bool
  timestamp : Option ℤ
  deriving DecidableEq, Repr

def kMaxVideoFrames : ℕ := 4

/-- `ring_buffer_t::drop_oldest` -/
def dropOldest (keepKeyframes : Bool) (frames : List Frame) : List Frame :=
  if keepKeyframes && frames.any (!·.idr) then frames.eraseP (!·.idr) else frames.tail

/-- The queue that `ring_buffer_t::push` appends to; when full, it drops like `drop_oldest`. -/
def pushRoom (keepKeyframes : Bool) (frames : List Frame) : List Frame :=
  if kMaxVideoFrames ≤ frames.length then dropOldest keepKeyframes frames else frames

theorem dropOldest_sublist (keepKeyframes : Bool) (frames : List Frame) :
    (dropOldest keepKeyframes frames).Sublist frames := by
  unfold dropOldest
  split
  · exact List.eraseP_sublist
  · exact List.tail_sublist frames

theorem pushRoom_sublist (keepKeyframes : Bool) (frames : List Frame) :
    (pushRoom keepKeyframes frames).Sublist frames := by
  unfold pushRoom
  split
  · exact dropOldest_sublist keepKeyframes frames
  · exact List.Sublist.refl frames

/-- Whether a frame that the decoder can start from is missing afterwards. -/
def losesIdr (before after : List Frame) : Bool :=
  after.countP (·.idr) < before.countP (·.idr)

/-! ## Pacing -/

inductive Mode where
  | latency
  | balanced
  | smoothness
  deriving DecidableEq, Repr

def videoPacingModeFromString : Option String → Mode
  | none => .balanced
  | some mode =>
      if mode.toLower = "latency" then .latency
      else if mode.toLower = "smooth" ∨ mode.toLower = "smoothness" then .smoothness
      else .balanced

def maxAgeFramesForMode : Mode → ℤ
  | .latency => 2
  | .balanced => 2
  | .smoothness => 3

def kDefaultFps : ℤ := 60

/-- `std::chrono::seconds(1)` -/
def second : ℤ := 1000000000

/-- `VideoPacingConfig` -/
structure Pacing where
  mode : Mode
  maxFrameAge : ℤ
  maxAgeFrames : ℤ
  maxFrameAgeOverride : Bool
  pace : Bool
  dropOldFrames : Bool
  deriving DecidableEq, Repr

/-- The fields of `SessionOptions` that pacing reads. -/
structure Options where
  fps : Option ℤ
  videoPacingMode : Option String
  videoMaxFrameAgeMs : Option ℤ
  deriving DecidableEq, Repr

def kVideoMaxFrameAgeMin : ℤ := 5
def kVideoMaxFrameAgeMax : ℤ := 100

def buildVideoPacingConfig (options : Options) : Pacing :=
  let mode := videoPacingModeFromString options.videoPacingMode
  let fps := options.fps.getD kDefaultFps
  let safeFps := if 0 < fps then fps else kDefaultFps
  let frameInterval := second / safeFps
  let config : Pacing := {
    mode
    maxFrameAge := frameInterval * max 1 (maxAgeFramesForMode mode)
    maxAgeFrames := maxAgeFramesForMode mode
    maxFrameAgeOverride := false
    pace := mode ≠ .latency
    dropOldFrames := mode ≠ .smoothness }
  match options.videoMaxFrameAgeMs with
  | none => config
  | some ms =>
      let maxFrameAge := max kVideoMaxFrameAgeMin (min ms kVideoMaxFrameAgeMax) * 1000000
      { config with
        maxFrameAge
        maxFrameAgeOverride := true
        maxAgeFrames :=
          if 0 < frameInterval then
            max 1 ((maxFrameAge + frameInterval / 2) / frameInterval)
          else config.maxAgeFrames }

theorem pace_buildVideoPacingConfig (options : Options) :
    (buildVideoPacingConfig options).pace =
      decide ((buildVideoPacingConfig options).mode ≠ .latency) := by
  unfold buildVideoPacingConfig
  dsimp only
  split <;> rfl

theorem maxFrameAge_nonneg (options : Options)
    (h : (buildVideoPacingConfig options).maxFrameAgeOverride = true) :
    0 ≤ (buildVideoPacingConfig options).maxFrameAge := by
  unfold buildVideoPacingConfig at h ⊢
  dsimp only at h ⊢
  split at h
  · cases h
  · case h_2 ms _ =>
      have hmin : kVideoMaxFrameAgeMin ≤ max kVideoMaxFrameAgeMin (min ms kVideoMaxFrameAgeMax) :=
        le_max_left _ _
      simp only [kVideoMaxFrameAgeMin] at hmin ⊢
      omega

end LuminalShine.WebRtc
