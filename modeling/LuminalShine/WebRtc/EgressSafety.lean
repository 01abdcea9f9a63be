import LuminalShine.Lib.Simulation
import LuminalShine.WebRtc.Egress
import Mathlib.Data.List.Nodup

/-!
# Safety of the decoder

When the frames that libwebrtc accepts are in order, and when none that needs a predecessor
is handed to it while a keyframe is owed.  The queue drops keyframes without setting
`needs_keyframe`, the flag is read once an iteration, a fresh keyframe ends the startup window
even if the flag was set after it, and a frame that is moved up to the present is sorted in
front of those selected before it.  `Meets` says, step by step, that none of these happens.

## Main definitions

* `Meets` — the condition on the steps.
* `Inv` — what such a run keeps.

## Main results

* `egress_safe` — order and keyframes in every run that meets the condition.
-/

namespace LuminalShine.WebRtc

open LuminalShine.Lib

/-! ## The condition -/

/-- No predictive frame is on its way to libwebrtc. -/
def State.Clear (s : State) : Prop := ∀ work ∈ s.works, work.frame.idr = true

instance (s : State) : Decidable s.Clear :=
  inferInstanceAs (Decidable (∀ work ∈ s.works, work.frame.idr = true))

/-- The frame is scheduled for the present, whatever was scheduled before it. -/
def movesUp (s : State) (now : ℤ) (frame : Frame) : Bool :=
  match mapTarget s now frame with
  | (mapped, target, pace) =>
      captureInFuture s now frame || targetTooOld s now target ||
        now + s.maxFrameAge < spaceTarget mapped target pace

/-- The frames that were selected before it are due before the present. -/
def State.DueBefore (s : State) (now : ℤ) : Prop := ∀ work ∈ s.works, work.targetSend < now

instance (s : State) (now : ℤ) : Decidable (s.DueBefore now) :=
  inferInstanceAs (Decidable (∀ work ∈ s.works, work.targetSend < now))

/-- The frame that is taken is let go; or it is dropped for its age and asks for no keyframe
behind a predictive frame; or it is selected, not predictive if the flag was set since the
iteration sampled it, and behind what was selected before it. -/
def HandleMeets (s : State) (now : ℤ) (waiting : Bool) (frame : Frame) : Prop :=
  (waiting && !frame.idr) = true ∨
    match mapTarget s now frame with
    | (mapped, target, _) =>
        if dropsFrame mapped now target then
          dropNeedsKeyframe mapped frame.idr = true → s.Clear
        else (s.raised = true → frame.idr = true) ∧
          (s.works = [] ∨ 0 < s.frameInterval ∧ (movesUp s now frame = true → s.DueBefore now))

instance (s : State) (now : ℤ) (waiting : Bool) (frame : Frame) :
    Decidable (HandleMeets s now waiting frame) := by
  unfold HandleMeets
  infer_instance

/-- No keyframe is dropped without `needs_keyframe`, the flag is not set while predictive
frames are on their way, and it is not cleared by a keyframe older than its setting. -/
def Meets (s : State) : Label → Prop
  | .submit now _ _ _ => s.needsKeyframe = true ∨
      if preferLatestEnqueue s now then ∀ frame ∈ s.frames, frame.idr = false
      else s.frames.length < kMaxVideoFrames ∨ ∀ frame ∈ s.frames.head?, frame.idr = false
  | .keyframeCallback => s.Clear
  | .beginIteration now => s.owed = true → s.startupActive = true → keyframeFresh s now = true →
      deadlineElapsed s now = true
  | .dropAged => s.needsKeyframe = true ∨
      match s.phase with
      | .aging now _ => ∀ frame ∈ s.frames.takeWhile (isStale s now), frame.idr = false
      | _ => True
  | .dropBehind => s.needsKeyframe = true ∨
      match s.phase with
      | .falling now _ => s.pacing.mode = .balanced → isBehind s now = true →
          ∀ frame ∈ s.frames.dropLast, frame.idr = false
      | _ => True
  | .take =>
      match s.phase with
      | .taking now waiting true =>
          (∀ frame ∈ s.frames.dropLast, frame.idr = false) ∧
            ∀ latest ∈ s.frames.getLast?, HandleMeets (s.leave []) now waiting latest
      | .taking now waiting false =>
          ∀ frame ∈ s.frames.head?, HandleMeets (s.leave s.frames.tail) now waiting frame
      | _ => True
  | .push _ _ =>
      match s.works with
      | [] => True
      | work :: works =>
          if !work.frame.hasData then work.frame.idr = true → s.needsKeyframe = true
          else backlogged s work = true → dropNeedsKeyframe s work.frame.idr = true →
            ∀ other ∈ works, other.frame.idr = true
  | .acknowledge _ =>
      match s.phase with
      | .acknowledging work pushed =>
          s.owed = true → pushed = true → work.clearKeyframeOnSuccess = false
      | _ => True
  | _ => True

instance (s : State) : ∀ label, Decidable (Meets s label)
  | .submit now _ _ _ => inferInstanceAs (Decidable (s.needsKeyframe = true ∨
      if preferLatestEnqueue s now then ∀ frame ∈ s.frames, frame.idr = false
      else s.frames.length < kMaxVideoFrames ∨ ∀ frame ∈ s.frames.head?, frame.idr = false))
  | .keyframeCallback => inferInstanceAs (Decidable s.Clear)
  | .beginIteration now => inferInstanceAs (Decidable (s.owed = true → s.startupActive = true →
      keyframeFresh s now = true → deadlineElapsed s now = true))
  | .dropAged => by
      unfold Meets
      cases s.phase <;> infer_instance
  | .dropBehind => by
      unfold Meets
      cases s.phase <;> infer_instance
  | .take => by
      unfold Meets
      cases s.phase with
      | taking _ _ preferLatest => cases preferLatest <;> infer_instance
      | _ => infer_instance
  | .push _ _ => by
      unfold Meets
      cases s.works <;> infer_instance
  | .acknowledge _ => by
      unfold Meets
      cases s.phase <;> infer_instance
  | .released | .sort _ | .finish => isTrue trivial

/-! ## Dropping from the queue -/

theorem dropOldest_cons {frame : Frame} (h : frame.idr = false) (keepKeyframes : Bool)
    (frames : List Frame) : dropOldest keepKeyframes (frame :: frames) = frames := by
  rw [dropOldest]
  split
  · simp [h]
  · rfl

theorem losesIdr_eq_false {before after : List Frame}
    (h : after.countP (·.idr) = before.countP (·.idr)) : losesIdr before after = false := by
  simp [losesIdr, h]

/-- Stale frames in front are dropped one by one. -/
theorem countP_dropStale {stale : Frame → Bool} (keepKeyframes : Bool) (rounds : ℕ)
    {frames : List Frame} (h : ∀ frame ∈ frames.takeWhile stale, frame.idr = false) :
    (dropStale stale keepKeyframes rounds frames).countP (·.idr) = frames.countP (·.idr) := by
  induction rounds generalizing frames with
  | zero => rfl
  | succ rounds ih =>
      cases frames with
      | nil => rfl
      | cons frame frames =>
          rw [dropStale, List.head?_cons, Option.any_some]
          cases hstale : stale frame with
          | false => rfl
          | true =>
              rw [List.takeWhile_cons_of_pos hstale, List.forall_mem_cons] at h
              rw [if_pos rfl, dropOldest_cons h.1, ih h.2, List.countP_cons_of_neg (by simp [h.1])]

theorem countP_dropToLast (keepKeyframes : Bool) (rounds : ℕ) {frames : List Frame}
    (h : ∀ frame ∈ frames.dropLast, frame.idr = false) :
    (dropToLast keepKeyframes rounds frames).countP (·.idr) = frames.countP (·.idr) := by
  induction rounds generalizing frames with
  | zero => rfl
  | succ rounds ih =>
      rw [dropToLast]
      split
      · case isTrue hlength =>
          match frames, hlength with
          | frame :: next :: frames, _ =>
              rw [List.dropLast_cons_cons, List.forall_mem_cons] at h
              have hcount : (frame :: next :: frames).countP (·.idr) =
                  (next :: frames).countP (·.idr) := List.countP_cons_of_neg (by simp [h.1])
              rw [dropOldest_cons h.1, ih h.2, hcount]
      · rfl

theorem dropStale_sublist (stale : Frame → Bool) (keepKeyframes : Bool) (rounds : ℕ)
    (frames : List Frame) : (dropStale stale keepKeyframes rounds frames).Sublist frames := by
  induction rounds generalizing frames with
  | zero => exact List.Sublist.refl _
  | succ rounds ih =>
      rw [dropStale]
      split
      · exact (ih _).trans (dropOldest_sublist _ _)
      · exact List.Sublist.refl _

theorem dropToLast_sublist (keepKeyframes : Bool) (rounds : ℕ) (frames : List Frame) :
    (dropToLast keepKeyframes rounds frames).Sublist frames := by
  induction rounds generalizing frames with
  | zero => exact List.Sublist.refl _
  | succ rounds ih =>
      rw [dropToLast]
      split
      · exact (ih _).trans (dropOldest_sublist _ _)
      · exact List.Sublist.refl _

/-! ## The schedule -/

variable {s s' : State} {now : ℤ} {frame : Frame}

/-- Only the pacing state differs. -/
def Paced (s s' : State) : Prop :=
  ∃ anchorCapture anchorSend lastDriftReset lastVideoPush,
    s' = { s with anchorCapture, anchorSend, lastDriftReset, lastVideoPush }

theorem paced_refl (s : State) : Paced s s := ⟨_, _, _, _, rfl⟩

theorem paced_resetPacing (s : State) (now : ℤ) : Paced s (s.resetPacing now) := ⟨_, _, _, _, rfl⟩

theorem paced_mapTarget (s : State) (now : ℤ) (frame : Frame) :
    Paced s (mapTarget s now frame).1 := by
  rw [mapTarget]
  split
  · exact paced_resetPacing s now
  split
  · split
    · split
      · exact ⟨_, _, _, _, rfl⟩
      · exact paced_refl s
    · exact ⟨_, _, _, _, rfl⟩
  · exact paced_refl s

theorem paced_placeFrame (s : State) (now : ℤ) (frame : Frame) (target : ℤ) (pace : Bool) :
    Paced s (placeFrame s now frame target pace).1 := by
  rw [placeFrame]
  dsimp only
  split
  · exact paced_resetPacing s now
  split
  · exact paced_resetPacing s now
  split
  · exact ⟨_, _, _, _, rfl⟩
  · exact paced_refl s

theorem Paced.trans {s'' : State} (h : Paced s s') (h' : Paced s' s'') : Paced s s'' := by
  obtain ⟨_, _, _, _, rfl⟩ := h
  obtain ⟨_, _, _, _, rfl⟩ := h'
  exact ⟨_, _, _, _, rfl⟩

/-- Unless the capture lies in the future, the map keeps the last push and paces if the mode
does. -/
theorem mapTarget_of_not_future (h : captureInFuture s now frame = false) :
    (mapTarget s now frame).1.lastVideoPush = s.lastVideoPush ∧
      (mapTarget s now frame).2.2 = s.pacing.pace := by
  rw [mapTarget]
  rw [h, if_neg Bool.false_ne_true]
  split
  · case h_1 hpace _ =>
      split
      · split <;> exact ⟨rfl, hpace.symm⟩
      · exact ⟨rfl, hpace.symm⟩
  · exact ⟨rfl, rfl⟩

theorem Paced.maxFrameAge (h : Paced s s') : s'.maxFrameAge = s.maxFrameAge := by
  obtain ⟨_, _, _, _, rfl⟩ := h
  rfl

theorem Paced.frameInterval (h : Paced s s') : s'.frameInterval = s.frameInterval := by
  obtain ⟨_, _, _, _, rfl⟩ := h
  rfl

theorem Paced.targetTooOld (h : Paced s s') (now target : ℤ) :
    targetTooOld s' now target = targetTooOld s now target := by
  simp only [WebRtc.targetTooOld]
  rw [h.maxFrameAge]

/-- Where `placeFrame` puts a frame, without the session. -/
theorem placeFrame_target (s : State) (now : ℤ) (frame : Frame) (target : ℤ) (pace : Bool) :
    (placeFrame s now frame target pace).2 =
      if targetTooOld s now target ∨ now + s.maxFrameAge < spaceTarget s target pace ∨
          (s.pacing.dropOldFrames ∧ pace ∧ spaceTarget s target pace < now ∧
            s.frameInterval < now - spaceTarget s target pace) then now
      else spaceTarget s target pace := by
  rw [placeFrame]
  dsimp only
  split_ifs <;> grind

/-- A frame that is moved up is sent at once. -/
theorem target_of_movesUp (h : movesUp s now frame = true) :
    (placeFrame (mapTarget s now frame).1 now frame (mapTarget s now frame).2.1
      (mapTarget s now frame).2.2).2 = now := by
  have hpaced := paced_mapTarget s now frame
  rw [placeFrame_target, hpaced.targetTooOld, hpaced.maxFrameAge]
  cases hfuture : captureInFuture s now frame with
  | true => simp [mapTarget, hfuture, spaceTarget]
  | false =>
      rw [movesUp] at h
      simp only [hfuture, Bool.false_or, Bool.or_eq_true, decide_eq_true_eq] at h
      rw [if_pos]
      rcases h with h | h
      · exact Or.inl h
      · exact Or.inr (Or.inl h)

theorem le_spaceTarget {last : ℤ} (h : s.lastVideoPush = some last) (target : ℤ) :
    last + s.frameInterval ≤ spaceTarget s target true := by
  simp [spaceTarget, h]

/-- A paced frame that is not moved up keeps its distance. -/
theorem target_of_not_movesUp (hpace : s.pacing.pace = true) (h : movesUp s now frame = false)
    {last : ℤ} (hlast : s.lastVideoPush = some last) :
    last + s.frameInterval ≤ (placeFrame (mapTarget s now frame).1 now frame
      (mapTarget s now frame).2.1 (mapTarget s now frame).2.2).2 := by
  have hpaced := paced_mapTarget s now frame
  rw [movesUp] at h
  simp only [Bool.or_eq_false_iff, decide_eq_false_iff_not] at h
  obtain ⟨⟨hfuture, hold⟩, hlate⟩ := h
  obtain ⟨hpush, hpace'⟩ := mapTarget_of_not_future hfuture
  rw [hpace', hpace] at hlate ⊢
  have hspace := le_spaceTarget (hpush.trans hlast) (mapTarget s now frame).2.1
  rw [hpaced.frameInterval] at hspace
  rw [placeFrame_target, hpaced.targetTooOld, hpaced.maxFrameAge, hold]
  split
  · case isTrue hcase =>
      rcases hcase with hcase | hcase | ⟨-, -, hbefore, -⟩
      · cases hcase
      · exact absurd hcase hlate
      · omega
  · exact hspace

/-! ## One frame -/

/-- What `handleFrame` makes of a frame: it lets it go, drops it for its age, or selects it
for some target. -/
inductive Handled (s : State) (now : ℤ) (waiting : Bool) (frame : Frame) : State → Prop
  | skipped (h : (waiting && !frame.idr) = true) : Handled s now waiting frame s
  | dropped {mapped : State} (hpaced : Paced s mapped)
      (hmeets : HandleMeets s now waiting frame →
        dropNeedsKeyframe mapped frame.idr = true → s.Clear)
      (hkept : mapped.lastVideoPush = s.lastVideoPush) :
      Handled s now waiting frame (countDrop mapped frame.idr)
  | selected {placed : State} {target : ℤ} (hpaced : Paced s placed) (clear : Bool)
      (hidr : waiting = true → frame.idr = true)
      (hmeets : HandleMeets s now waiting frame →
        (s.raised = true → frame.idr = true) ∧
          (s.works = [] ∨ 0 < s.frameInterval ∧ (movesUp s now frame = true → s.DueBefore now)))
      (hup : movesUp s now frame = true → target = now)
      (hspaced : movesUp s now frame = false → s.pacing.pace = true →
        ∀ last, s.lastVideoPush = some last → last + s.frameInterval ≤ target) :
      Handled s now waiting frame { placed with
        lastVideoPush := some target
        works := s.works ++ [⟨frame, target, clear⟩] }

theorem handled_handleFrame (hage : 0 ≤ s.maxFrameAge) (now : ℤ) (waiting : Bool)
    (frame : Frame) :
    Handled s now waiting frame (handleFrame s now waiting frame) := by
  rw [handleFrame]
  split
  · case isTrue h => exact .skipped h
  case isFalse hnot =>
  have hpaced := paced_mapTarget s now frame
  dsimp only
  split
  · case isTrue hdrop =>
      have hfuture : captureInFuture s now frame = false := by
        cases hfuture : captureInFuture s now frame with
        | false => rfl
        | true =>
            simp only [dropsFrame, hpaced.targetTooOld, Bool.and_eq_true] at hdrop
            have hold := hdrop.1.2
            simp only [mapTarget, hfuture, if_true, targetTooOld, decide_eq_true_eq] at hold
            omega
      refine .dropped hpaced ?_ (mapTarget_of_not_future hfuture).1
      intro hmeets
      rcases hmeets with hskip | hmeets
      · exact absurd hskip hnot
      · simpa [hdrop] using hmeets
  · case isFalse hkeep =>
      have hplaced := hpaced.trans (paced_placeFrame (mapTarget s now frame).1 now frame
        (mapTarget s now frame).2.1 (mapTarget s now frame).2.2)
      have hworks : (placeFrame (mapTarget s now frame).1 now frame (mapTarget s now frame).2.1
          (mapTarget s now frame).2.2).1.works = s.works := by
        obtain ⟨_, _, _, _, heq⟩ := hplaced
        rw [heq]
      rw [hworks]
      refine .selected hplaced _ ?_ ?_ target_of_movesUp fun hup hpace last hlast =>
        target_of_not_movesUp hpace hup hlast
      · intro hwaiting
        simpa [hwaiting] using hnot
      · intro hmeets
        rcases hmeets with hskip | hmeets
        · exact absurd hskip hnot
        · simpa [hkeep] using hmeets

/-! ## The invariant -/

/-- The submissions that are in libwebrtc, on their way to it or in the queue. -/
def State.order (s : State) : List ℕ :=
  s.accepted ++ s.works.map (·.frame.seq) ++ s.frames.map (·.seq)

/-- They stand in the order of submission. -/
structure Ordered (s : State) : Prop where
  increasing : s.order.Pairwise (· < ·)
  submitted : ∀ seq ∈ s.order, seq < s.submitted

theorem Ordered.of_sublist (h : Ordered s) (hsublist : s'.order.Sublist s.order)
    (hsubmitted : s'.submitted = s.submitted) : Ordered s' :=
  ⟨h.increasing.sublist hsublist,
    fun seq hseq => hsubmitted ▸ h.submitted seq (hsublist.subset hseq)⟩

/-- What holds where the iteration is. -/
def State.PhaseInv (s : State) : Prop :=
  match s.phase with
  | .idle => s.works = []
  | .aging _ waiting | .falling _ waiting =>
      s.works = [] ∧ (s.needsKeyframe = true → waiting = true)
  | .taking _ waiting preferLatest =>
      ((waiting || preferLatest) = true → s.works = []) ∧
        ((waiting || preferLatest) = false → s.pacing.mode ≠ .latency) ∧
        (s.needsKeyframe = true → waiting = true ∨ s.raised = true) ∧
        ∀ work ∈ s.works, ∃ last, s.lastVideoPush = some last ∧ work.targetSend ≤ last
  | _ => True

structure Inv (options : Options) (s : State) : Prop where
  pacing : s.pacing = buildVideoPacingConfig options
  owed : s.owed = true → s.needsKeyframe = true
  clear : s.needsKeyframe = true → s.Clear
  targets : s.works.Pairwise (·.targetSend < ·.targetSend)
  phase : s.PhaseInv
  order : Ordered s
  stray : s.stray = []

variable {options : Options}

theorem inv_attached (options : Options) (queued : Bool) (now : ℤ) :
    Inv options (.attached options queued now) :=
  ⟨rfl, fun _ => rfl, nofun, .nil, rfl, ⟨.nil, nofun⟩, rfl⟩

theorem frameInterval_nonneg (s : State) : 0 ≤ s.frameInterval :=
  Int.ediv_nonneg (by decide) (by omega)

theorem Inv.maxFrameAge_nonneg (h : Inv options s) : 0 ≤ s.maxFrameAge := by
  rw [State.maxFrameAge]
  split
  · case isTrue hoverride =>
      rw [h.pacing] at hoverride ⊢
      exact WebRtc.maxFrameAge_nonneg options hoverride
  · exact Int.mul_nonneg (frameInterval_nonneg s) (by omega)

theorem Inv.pace (h : Inv options s) : s.pacing.pace = true ↔ s.pacing.mode ≠ .latency := by
  rw [h.pacing, pace_buildVideoPacingConfig, decide_eq_true_eq]

/-! ## Steps -/

theorem makeRoom_sublist (s : State) (now : ℤ) : (makeRoom s now).Sublist s.frames := by
  rw [makeRoom]
  split
  · exact (pushRoom_sublist _ _).trans (List.nil_sublist _)
  · exact pushRoom_sublist _ _

/-- What makes room for a submission is no keyframe, or one is awaited anyway. -/
theorem makeRoom_loses {idr hasData : Bool} {timestamp : Option ℤ}
    (hmeets : Meets s (.submit now idr hasData timestamp)) :
    s.needsKeyframe = true ∨ losesIdr s.frames (makeRoom s now) = false := by
  cases hneeds : s.needsKeyframe with
  | true => exact Or.inl rfl
  | false =>
      right
      simp only [Meets, hneeds, Bool.false_eq_true, false_or] at hmeets
      apply losesIdr_eq_false
      rw [makeRoom]
      split at hmeets
      · case isTrue hprefer =>
          rw [if_pos hprefer]
          have hnone : s.frames.countP (·.idr) = 0 := by
            simpa [List.countP_eq_zero] using hmeets
          rw [hnone]
          rfl
      · case isFalse hprefer =>
          rw [if_neg hprefer, pushRoom]
          split
          · case isTrue hfull =>
              cases hframes : s.frames with
              | nil => simp [dropOldest]
              | cons frame frames =>
                  rw [hframes] at hmeets hfull
                  have hidr : frame.idr = false := by
                    rcases hmeets with hroom | hhead
                    · omega
                    · exact hhead frame rfl
                  rw [dropOldest_cons hidr, List.countP_cons_of_neg (by simp [hidr])]
          · rfl

theorem Inv.submit (h : Inv options s) {idr hasData : Bool} {timestamp : Option ℤ}
    (hmeets : Meets s (.submit now idr hasData timestamp))
    (hstep : step s (.submit now idr hasData timestamp) = some s') : Inv options s' := by
  simp only [step] at hstep
  obtain ⟨hphase, rfl⟩ := guarded_eq_some.mp hstep
  refine ⟨h.pacing, ?_, h.clear, h.targets, ?_, ?_, h.stray⟩
  · intro howed
    rcases makeRoom_loses hmeets with hneeds | hloses
    · exact hneeds
    · simp only [WebRtc.submit, State.setFrames, hloses, Bool.or_false] at howed
      exact h.owed howed
  · have hold := h.phase
    rw [State.PhaseInv] at hold ⊢
    simp only [WebRtc.submit, State.setFrames]
    cases hp : s.phase <;> simp_all [Phase.unlocked]
  · have hsub : (s.accepted ++ s.works.map (·.frame.seq) ++ (makeRoom s now).map (·.seq)).Sublist
        s.order := List.Sublist.append_left ((makeRoom_sublist s now).map _) _
    have horder : (WebRtc.submit s now idr hasData timestamp).order =
        (s.accepted ++ s.works.map (·.frame.seq) ++ (makeRoom s now).map (·.seq)) ++
          [s.submitted] := by
      simp [State.order, WebRtc.submit, State.setFrames]
    have hbelow : ∀ seq ∈ s.accepted ++ s.works.map (·.frame.seq) ++ (makeRoom s now).map (·.seq),
        seq < s.submitted := fun seq hseq => h.order.submitted seq (hsub.subset hseq)
    constructor
    · rw [horder, List.pairwise_append]
      refine ⟨h.order.increasing.sublist hsub, List.pairwise_singleton _ _, ?_⟩
      intro seq hseq last hlast
      rw [List.mem_singleton.mp hlast]
      exact hbelow seq hseq
    · rw [horder]
      intro seq hseq
      rcases List.mem_append.mp hseq with hseq | hseq
      · exact Nat.lt_succ_of_lt (hbelow seq hseq)
      · rw [List.mem_singleton.mp hseq]
        exact Nat.lt_succ_self _

theorem Inv.keyframeCallback (h : Inv options s) (hmeets : Meets s .keyframeCallback)
    (hstep : step s .keyframeCallback = some s') : Inv options s' := by
  simp only [step] at hstep
  obtain ⟨hphase, rfl⟩ := guarded_eq_some.mp hstep
  refine ⟨h.pacing, fun _ => rfl, fun _ => hmeets, h.targets, ?_, ?_, h.stray⟩
  · have hold := h.phase
    rw [State.PhaseInv] at hold ⊢
    simp only [State.needKeyframe]
    cases hp : s.phase <;> simp_all [Phase.unlocked]
  · exact h.order.of_sublist (List.Sublist.refl _) rfl

theorem Inv.beginIteration (h : Inv options s) (hmeets : Meets s (.beginIteration now))
    (hstep : step s (.beginIteration now) = some s') : Inv options s' := by
  simp only [step] at hstep
  obtain ⟨hphase, rfl⟩ := guarded_eq_some.mp hstep
  have hworks : s.works = [] := by
    have hold := h.phase
    rw [State.PhaseInv] at hold
    rwa [hphase] at hold
  rw [WebRtc.beginIteration]
  split
  · case isTrue hends =>
      simp only [Bool.and_eq_true, Bool.or_eq_true] at hends
      refine ⟨h.pacing, ?_, nofun, h.targets, ⟨hworks, nofun⟩, ?_, h.stray⟩
      · intro howed
        simp only [Bool.and_eq_true, Bool.not_eq_true'] at howed
        obtain ⟨howed, hdeadline⟩ := howed
        rw [hdeadline] at hends
        have hfresh : keyframeFresh s now = true := by simpa using hends.2
        rw [hmeets howed hends.1 hfresh] at hdeadline
        cases hdeadline
      · exact h.order.of_sublist (List.Sublist.refl _) rfl
  · refine ⟨h.pacing, h.owed, h.clear, h.targets, ⟨hworks, ?_⟩, ?_, h.stray⟩
    · intro hneeds
      dsimp only at hneeds
      simp [hneeds]
    · exact h.order.of_sublist (List.Sublist.refl _) rfl

/-- Frames are dropped while nothing is on its way. -/
theorem Ordered.of_frames (h : Ordered s) (haccepted : s'.accepted = s.accepted)
    (hworks : s'.works = s.works) (hframes : s'.frames.Sublist s.frames)
    (hsubmitted : s'.submitted = s.submitted) : Ordered s' := by
  apply h.of_sublist _ hsubmitted
  rw [State.order]
  rw [haccepted, hworks]
  exact List.Sublist.append_left (hframes.map _) _

theorem Inv.dropAged (h : Inv options s) (hmeets : Meets s .dropAged)
    (hstep : step s .dropAged = some s') : Inv options s' := by
  simp only [step] at hstep
  split at hstep
  · case h_1 now waiting hphase =>
      rw [← Option.some.inj hstep]
      have hold := h.phase
      rw [State.PhaseInv] at hold
      rw [hphase] at hold
      refine ⟨h.pacing, ?_, h.clear, h.targets, hold, ?_, h.stray⟩
      · intro howed
        rcases hmeets with hneeds | hmeets
        · exact hneeds
        · rw [hphase] at hmeets
          have hcount := countP_dropStale waiting s.frames.length hmeets
          simp only [WebRtc.dropAged, State.setFrames, losesIdr_eq_false hcount, Bool.or_false]
            at howed
          exact h.owed howed
      · exact h.order.of_frames rfl rfl (dropStale_sublist _ _ _ _) rfl
  · cases hstep

theorem Inv.dropBehind (h : Inv options s) (hmeets : Meets s .dropBehind)
    (hstep : step s .dropBehind = some s') : Inv options s' := by
  simp only [step] at hstep
  split at hstep
  · case h_1 now waiting hphase =>
      rw [← Option.some.inj hstep]
      have hold := h.phase
      rw [State.PhaseInv] at hold
      rw [hphase] at hold
      obtain ⟨hworks, hwaiting⟩ := hold
      refine ⟨h.pacing, ?_, h.clear, h.targets, ?_, ?_, h.stray⟩
      · intro howed
        rcases hmeets with hneeds | hmeets
        · exact hneeds
        · rw [hphase] at hmeets
          have hcount : (if decide (s.pacing.mode = .balanced) && isBehind s now then
              dropToLast waiting s.frames.length s.frames else s.frames).countP (·.idr) =
              s.frames.countP (·.idr) := by
            split
            · case isTrue hfalls =>
                simp only [Bool.and_eq_true, decide_eq_true_eq] at hfalls
                exact countP_dropToLast waiting _ (hmeets hfalls.1 hfalls.2)
            · rfl
          simp only [WebRtc.dropBehind, State.setFrames, losesIdr_eq_false hcount, Bool.or_false]
            at howed
          exact h.owed howed
      · refine ⟨fun _ => hworks, ?_, fun hneeds => Or.inl (hwaiting hneeds), ?_⟩
        · intro hmany hlatency
          have hmode : s.pacing.mode = .latency := hlatency
          simp [hmode] at hmany
        · intro work hwork
          change work ∈ s.works at hwork
          rw [hworks] at hwork
          cases hwork
      · refine h.order.of_frames rfl rfl ?_ rfl
        simp only [WebRtc.dropBehind, State.setFrames]
        split
        · exact dropToLast_sublist _ _ _
        · exact List.Sublist.refl _
  · cases hstep

/-- What holds between the frames that are taken. -/
structure Selecting (options : Options) (waiting : Bool) (s : State) : Prop where
  pacing : s.pacing = buildVideoPacingConfig options
  owed : s.owed = true → s.needsKeyframe = true
  clear : s.needsKeyframe = true → s.Clear
  targets : s.works.Pairwise (·.targetSend < ·.targetSend)
  sampled : s.needsKeyframe = true → waiting = true ∨ s.raised = true
  last : ∀ work ∈ s.works, ∃ last, s.lastVideoPush = some last ∧ work.targetSend ≤ last
  stray : s.stray = []

theorem Selecting.countDrop {waiting idr : Bool} {mapped : State} (h : Selecting options waiting s)
    (hpaced : Paced s mapped) (hkept : mapped.lastVideoPush = s.lastVideoPush)
    (hclear : dropNeedsKeyframe mapped idr = true → s.Clear) :
    Selecting options waiting (countDrop mapped idr) := by
  obtain ⟨_, _, _, _, rfl⟩ := hpaced
  have hlast := h.last
  rw [← hkept] at hlast
  rw [WebRtc.countDrop]
  split
  · case isTrue hneeds =>
      exact ⟨h.pacing, fun _ => rfl, fun _ => hclear hneeds, h.targets, fun _ => Or.inr rfl, hlast,
        h.stray⟩
  · split
    · exact ⟨h.pacing, h.owed, h.clear, h.targets, h.sampled, hlast, h.stray⟩
    · exact ⟨h.pacing, h.owed, h.clear, h.targets, h.sampled, hlast, h.stray⟩

theorem order_countDrop (s : State) (idr : Bool) :
    (countDrop s idr).order = s.order ∧ (countDrop s idr).submitted = s.submitted := by
  rw [countDrop]
  split
  · exact ⟨rfl, rfl⟩
  · split <;> exact ⟨rfl, rfl⟩

/-- A frame taken from a queue in order leaves everything in order. -/
theorem Handled.ordered {waiting : Bool} (h : Handled s now waiting frame s')
    (hpairwise : (s.accepted ++ s.works.map (·.frame.seq) ++
      (frame.seq :: s.frames.map (·.seq))).Pairwise (· < ·))
    (hbelow : ∀ seq ∈ s.accepted ++ s.works.map (·.frame.seq) ++
      (frame.seq :: s.frames.map (·.seq)), seq < s.submitted) : Ordered s' := by
  have hskip : s.order.Sublist (s.accepted ++ s.works.map (·.frame.seq) ++
      (frame.seq :: s.frames.map (·.seq))) :=
    List.Sublist.append_left (List.sublist_cons_self _ _) _
  have hordered : Ordered s :=
    ⟨hpairwise.sublist hskip, fun seq hseq => hbelow seq (hskip.subset hseq)⟩
  cases h with
  | skipped => exact hordered
  | dropped hpaced =>
      obtain ⟨_, _, _, _, rfl⟩ := hpaced
      obtain ⟨horder, hsubmitted⟩ := order_countDrop _ frame.idr
      exact hordered.of_sublist (by rw [horder]; exact List.Sublist.refl _) hsubmitted
  | selected hpaced =>
      obtain ⟨_, _, _, _, rfl⟩ := hpaced
      constructor
      · simpa [State.order] using hpairwise
      · simpa [State.order] using hbelow

theorem Handled.selecting {waiting : Bool} (h : Handled s now waiting frame s')
    (hmeets : HandleMeets s now waiting frame) (hs : Selecting options waiting s)
    (hpace : s.works ≠ [] → s.pacing.pace = true) : Selecting options waiting s' := by
  cases h with
  | skipped => exact hs
  | dropped hpaced hclear hkept => exact hs.countDrop hpaced hkept (hclear hmeets)
  | @selected placed target hpaced clear hidr hguard hup hspaced =>
      obtain ⟨_, _, _, _, rfl⟩ := hpaced
      obtain ⟨hraised, hposition⟩ := hguard hmeets
      -- what was selected before is due before the frame
      have hbefore : ∀ work ∈ s.works, work.targetSend < target := by
        intro work hwork
        rcases hposition with hnone | ⟨hinterval, hdue⟩
        · rw [hnone] at hwork
          cases hwork
        · cases hmoves : movesUp s now frame with
          | true =>
              rw [hup hmoves]
              exact hdue hmoves work hwork
          | false =>
              obtain ⟨last, hlast, hle⟩ := hs.last work hwork
              have hnonempty : s.works ≠ [] := List.ne_nil_of_mem hwork
              have hdistance := hspaced hmoves (hpace hnonempty) last hlast
              omega
      refine ⟨hs.pacing, hs.owed, ?_, ?_, hs.sampled, ?_, hs.stray⟩
      · intro hneeds work hwork
        rcases List.mem_append.mp hwork with hwork | hwork
        · exact hs.clear hneeds work hwork
        · rw [List.mem_singleton.mp hwork]
          rcases hs.sampled hneeds with hwaiting | hset
          · exact hidr hwaiting
          · exact hraised hset
      · rw [List.pairwise_append]
        refine ⟨hs.targets, List.pairwise_singleton _ _, ?_⟩
        intro work hwork other hother
        rw [List.mem_singleton.mp hother]
        exact hbefore work hwork
      · intro work hwork
        refine ⟨target, rfl, ?_⟩
        rcases List.mem_append.mp hwork with hwork | hwork
        · exact (hbefore work hwork).le
        · rw [List.mem_singleton.mp hwork]

/-- A frame is taken, and the iteration goes on somewhere. -/
theorem Inv.handleFrame {waiting : Bool} {phase : Phase} {frames : List Frame}
    (h : Inv options s) (hs : Selecting options waiting (s.leave frames))
    (hframes : (frame :: frames).Sublist s.frames)
    (hmeets : HandleMeets (s.leave frames) now waiting frame)
    (hpace : s.works ≠ [] → s.pacing.pace = true)
    (hphase : ∀ s', Selecting options waiting s' → State.PhaseInv { s' with phase }) :
    Inv options { handleFrame (s.leave frames) now waiting frame with phase } := by
  have hage : 0 ≤ (s.leave frames).maxFrameAge := h.maxFrameAge_nonneg
  have hhandled := handled_handleFrame hage now waiting frame
  have hsub : (s.accepted ++ s.works.map (·.frame.seq) ++
      (frame.seq :: frames.map (·.seq))).Sublist s.order :=
    List.Sublist.append_left (hframes.map (·.seq)) _
  have hselecting := hhandled.selecting hmeets hs hpace
  have hordered := hhandled.ordered (h.order.increasing.sublist hsub)
    fun seq hseq => h.order.submitted seq (hsub.subset hseq)
  exact ⟨hselecting.pacing, hselecting.owed, hselecting.clear, hselecting.targets,
    hphase _ hselecting, ⟨hordered.increasing, hordered.submitted⟩, hselecting.stray⟩

theorem Inv.take (h : Inv options s) (hmeets : Meets s .take) (hstep : step s .take = some s') :
    Inv options s' := by
  have hold := h.phase
  rw [State.PhaseInv] at hold
  simp only [Meets] at hmeets
  simp only [step] at hstep
  split at hstep
  · case h_1 now waiting hphase =>
      rw [hphase] at hold hmeets
      obtain ⟨hempty, -, hsampled, hlast⟩ := hold
      obtain ⟨hlost, hmeets⟩ := hmeets
      have hworks : s.works = [] := hempty (by simp)
      split at hstep
      · cases hstep
      · case h_2 latest hlatest =>
          have hnone : s.frames.dropLast.any (·.idr) = false := by
            simpa [List.any_eq_false] using hlost
          rw [hnone, Bool.or_false] at hstep
          rw [← Option.some.inj hstep]
          refine h.handleFrame ⟨h.pacing, h.owed, h.clear, h.targets, hsampled, hlast, h.stray⟩ ?_
            (hmeets latest hlatest) (fun hne => absurd hworks hne) fun _ _ => trivial
          exact List.singleton_sublist.mpr (List.mem_of_getLast? hlatest)
  · case h_2 now waiting hphase =>
      rw [hphase] at hold hmeets
      obtain ⟨hempty, hmode, hsampled, hlast⟩ := hold
      split at hstep
      · cases hstep
      · case h_2 frame frames hframes =>
          rw [← Option.some.inj hstep]
          have hmeets := hmeets frame (by rw [hframes]; rfl)
          rw [hframes, List.tail_cons] at hmeets
          refine h.handleFrame ⟨h.pacing, h.owed, h.clear, h.targets, hsampled, hlast, h.stray⟩
            (by rw [hframes]) hmeets ?_ ?_
          · intro hne
            apply h.pace.mpr
            apply hmode
            cases hwaiting : waiting with
            | false => rfl
            | true => exact absurd (hempty (by simp [hwaiting])) hne
          · intro t ht
            cases waiting with
            | true => trivial
            | false =>
                refine ⟨(fun hfalse => by cases hfalse), fun _ => ?_, ht.sampled, ht.last⟩
                have hlatency := hmode rfl
                rw [h.pacing] at hlatency
                change t.pacing.mode ≠ .latency
                rw [ht.pacing]
                exact hlatency
  · cases hstep

/-- What is sorted already stays as it is. -/
theorem eq_of_sorted {works sorted : List Work}
    (hworks : works.Pairwise (·.targetSend < ·.targetSend)) (hperm : sorted.Perm works)
    (hsorted : sorted.Pairwise fun first second => first.targetSend ≤ second.targetSend) :
    sorted = works := by
  have hnodup : (works.map (·.targetSend)).Nodup := by
    rw [List.Nodup, List.pairwise_map]
    exact hworks.imp fun hlt => hlt.ne
  refine hperm.eq_of_pairwise ?_ hsorted (hworks.imp fun hlt => hlt.le)
  intro first second hfirst hsecond hle hge
  exact List.inj_on_of_nodup_map hnodup (hperm.subset hfirst) hsecond (le_antisymm hle hge)

theorem Inv.sort (h : Inv options s) {works : List Work} (hstep : step s (.sort works) = some s') :
    Inv options s' := by
  simp only [step] at hstep
  obtain ⟨⟨-, hperm, hsorted⟩, rfl⟩ := guarded_eq_some.mp hstep
  rw [eq_of_sorted h.targets hperm hsorted]
  exact ⟨h.pacing, h.owed, h.clear, h.targets, trivial,
    h.order.of_sublist (List.Sublist.refl _) rfl, h.stray⟩

/-- The list without its head is behind libwebrtc or gone. -/
theorem Ordered.tail {work : Work} {works : List Work} (h : Ordered s)
    (hworks : s.works = work :: works) (hs' : s'.works = works)
    (haccepted : s'.accepted = s.accepted ∨ s'.accepted = s.accepted ++ [work.frame.seq])
    (hframes : s'.frames = s.frames) (hsubmitted : s'.submitted = s.submitted) : Ordered s' := by
  apply h.of_sublist _ hsubmitted
  simp only [State.order]
  rw [hworks, hs', hframes, List.map_cons]
  rcases haccepted with haccepted | haccepted
  · rw [haccepted]
    exact List.Sublist.append_right
      (List.Sublist.append_left (List.sublist_cons_self _ _) _) _
  · rw [haccepted, List.append_assoc s.accepted]
    exact List.Sublist.refl _

theorem Inv.push (h : Inv options s) {accepted : Bool} (hmeets : Meets s (.push now accepted))
    (hstep : step s (.push now accepted) = some s') : Inv options s' := by
  simp only [Meets] at hmeets
  simp only [step] at hstep
  split at hstep
  · case h_1 work works hphase hworks =>
      rw [hworks] at hmeets
      dsimp only at hmeets
      have hclear : s.needsKeyframe = true →
          work.frame.idr = true ∧ ∀ other ∈ works, other.frame.idr = true := by
        intro hneeds
        have hall := h.clear hneeds
        rw [State.Clear, hworks, List.forall_mem_cons] at hall
        exact hall
      have htargets := h.targets
      rw [hworks, List.pairwise_cons] at htargets
      split at hstep
      · case isTrue hdata =>
          rw [if_pos hdata] at hmeets
          rw [← Option.some.inj hstep]
          refine ⟨h.pacing, ?_, fun hneeds => (hclear hneeds).2, htargets.2, ?_,
            h.order.tail hworks rfl (Or.inl rfl) rfl rfl, h.stray⟩
          · intro howed
            rcases Bool.or_eq_true_iff.mp howed with howed | hidr
            · exact h.owed howed
            · exact hmeets hidr
          · rw [State.PhaseInv]
            simp only [hphase]
      · case isFalse hdata =>
          rw [if_neg hdata] at hmeets
          split at hstep
          · case isTrue hbacklog =>
              rw [← Option.some.inj hstep]
              rw [countDrop]
              split
              · case isTrue hneeds =>
                  refine ⟨h.pacing, fun _ => rfl, fun _ => hmeets hbacklog hneeds, htargets.2, ?_,
                    h.order.tail hworks rfl (Or.inl rfl) rfl rfl, h.stray⟩
                  simp [State.PhaseInv, State.resetPacing, State.needKeyframe, hphase]
              · split <;>
                  · refine ⟨h.pacing, h.owed, fun hneeds => (hclear hneeds).2, htargets.2, ?_,
                      h.order.tail hworks rfl (Or.inl rfl) rfl rfl, h.stray⟩
                    simp [State.PhaseInv, State.resetPacing, hphase]
          · rw [← Option.some.inj hstep]
            refine ⟨h.pacing, ?_, fun hneeds => (hclear hneeds).2, htargets.2, trivial, ?_, ?_⟩
            · intro howed
              simp only [pushWork, Bool.and_eq_true] at howed
              exact h.owed howed.1
            · refine h.order.tail hworks rfl ?_ rfl rfl
              cases accepted with
              | true => exact Or.inr rfl
              | false => exact Or.inl rfl
            · simp only [pushWork]
              cases howed : s.owed with
              | false => simpa using h.stray
              | true => simpa [(hclear (h.owed howed)).1] using h.stray
  · cases hstep

theorem Inv.acknowledge (h : Inv options s) (hmeets : Meets s (.acknowledge now))
    (hstep : step s (.acknowledge now) = some s') : Inv options s' := by
  simp only [Meets] at hmeets
  simp only [step] at hstep
  split at hstep
  · case h_1 work pushed hphase =>
      rw [hphase] at hmeets
      rw [← Option.some.inj hstep]
      refine ⟨h.pacing, ?_, ?_, h.targets, trivial,
        h.order.of_sublist (List.Sublist.refl _) rfl, h.stray⟩
      · intro howed
        have hneeds := h.owed howed
        cases pushed with
        | true => simp [WebRtc.acknowledge, hneeds, hmeets howed rfl]
        | false => simp [WebRtc.acknowledge, hneeds]
      · intro hneeds
        simp only [WebRtc.acknowledge, Bool.and_eq_true] at hneeds
        exact h.clear hneeds.1
  · cases hstep

theorem Inv.step (h : Inv options s) {label : Label} (hmeets : Meets s label)
    (hstep : step s label = some s') : Inv options s' := by
  cases label with
  | submit now idr hasData timestamp => exact h.submit hmeets hstep
  | keyframeCallback => exact h.keyframeCallback hmeets hstep
  | released =>
      simp only [WebRtc.step] at hstep
      obtain ⟨-, rfl⟩ := guarded_eq_some.mp hstep
      exact ⟨h.pacing, h.owed, h.clear, h.targets, h.phase,
        h.order.of_sublist (List.Sublist.refl _) rfl, h.stray⟩
  | beginIteration now => exact h.beginIteration hmeets hstep
  | dropAged => exact h.dropAged hmeets hstep
  | dropBehind => exact h.dropBehind hmeets hstep
  | take => exact h.take hmeets hstep
  | sort works => exact h.sort hstep
  | push now accepted => exact h.push hmeets hstep
  | acknowledge now => exact h.acknowledge hmeets hstep
  | finish =>
      simp only [WebRtc.step] at hstep
      obtain ⟨⟨-, hworks⟩, rfl⟩ := guarded_eq_some.mp hstep
      exact ⟨h.pacing, h.owed, h.clear, h.targets, hworks,
        h.order.of_sublist (List.Sublist.refl _) rfl, h.stray⟩

/-- **The decoder is safe.**  In a run whose steps meet the condition, libwebrtc accepts the
frames of the session in the order of their submission, and while a keyframe is owed it is
handed no predictive frame. -/
theorem egress_safe {queued : Bool} {start : ℤ} {labels : List Label}
    (hrun : run step (.attached options queued start) labels = some s)
    (hmeets : RunMeets step Meets (.attached options queued start) labels) :
    s.accepted.Pairwise (· < ·) ∧ s.stray = [] := by
  have hinv : Inv options s := run_invariant_of_meets
    (fun _ _ _ h hmeets hstep => Inv.step h hmeets hstep) (inv_attached options queued start)
    hmeets hrun
  have haccepted : s.accepted.Sublist s.order :=
    (List.sublist_append_left _ _).trans (List.sublist_append_left _ _)
  exact ⟨hinv.order.increasing.sublist haccepted, hinv.stray⟩

/-- A submitted frame with data and without a time stamp. -/
def plainFrame (seq : ℕ) (idr : Bool) : Frame := ⟨seq, idr, true, none⟩

/-- One iteration over a queue of `takes` frames. -/
def iteration (now : ℤ) (takes : ℕ) : List Label :=
  ([.beginIteration now, .dropAged, .dropBehind] : List Label) ++ List.replicate takes .take

/-- The first keyframe is delivered, and the next iteration ends the startup window. -/
def startup : List Label :=
  ([.submit 1000000 true true none] : List Label) ++ iteration 2000000 1 ++
    ([.sort [⟨plainFrame 0 true, 2000000, false⟩], .push 2000000 true, .acknowledge 3000000,
      .finish] : List Label) ++
    iteration 4000000 0 ++ ([.sort [], .finish, .submit 5000000 false true none] : List Label) ++
    iteration 6000000 1 ++
    ([.sort [⟨plainFrame 1 false, 18666666, false⟩], .push 19000000 true, .acknowledge 19000000,
      .finish] : List Label)

def smoothness : Options := ⟨some 60, some "smoothness", none⟩

theorem egress_safe_startup :
    ∃ s, run step (.attached smoothness false 0) startup = some s ∧ s.accepted = [0, 1] ∧
      s.accepted.Pairwise (· < ·) ∧ s.stray = [] := by
  obtain ⟨s, hrun, hs⟩ := (Option.any_eq_true _ _).mp
    (show (run step (.attached smoothness false 0) startup).any (fun s => decide
      (s.accepted = [0, 1])) = true by decide +kernel)
  exact ⟨s, hrun, of_decide_eq_true hs, egress_safe hrun (by decide +kernel)⟩

/-- A keyframe and a predictive frame come in between two iterations in latency mode. -/
def replaced : List Label :=
  ([.submit 1000000 true true none] : List Label) ++ iteration 2000000 1 ++
    ([.sort [⟨plainFrame 0 true, 2000000, false⟩], .push 2000000 true, .acknowledge 3000000,
      .finish] : List Label) ++
    iteration 4000000 0 ++
    ([.sort [], .finish, .submit 20000000 true true none, .submit 21000000 false true none] :
      List Label) ++
    iteration 22000000 1 ++
    ([.sort [⟨plainFrame 2 false, 22000000, false⟩], .push 22000000 true] : List Label)

/-- Four frames have come in while the loop slept in smoothness mode. -/
def crowded : List Label :=
  startup ++ List.replicate 4 (Label.submit 19000000 false true none) ++ iteration 20000000 4 ++
    ([.sort [⟨plainFrame 5 false, 20000000, false⟩, ⟨plainFrame 2 false, 35333332, false⟩,
        ⟨plainFrame 3 false, 51999998, false⟩, ⟨plainFrame 4 false, 68666664, false⟩],
      .push 20000000 true, .acknowledge 20000000, .push 35333332 true] : List Label)

/-- The predictive frame replaces the keyframe in the queue and goes out without it; the last
of the four frames is too far ahead, is moved up to the present and sorted in front. -/
theorem egress_unsafe :
    (∃ s, run step (.attached ⟨some 60, some "latency", none⟩ false 0) replaced = some s ∧
      s.stray = [2]) ∧
    ∃ s, run step (.attached smoothness false 0) crowded = some s ∧ s.accepted = [0, 1, 5, 2] ∧
      ¬ s.accepted.Pairwise (· < ·) := by
  constructor
  · obtain ⟨s, hrun, hs⟩ := (Option.any_eq_true _ _).mp
      (show (run step (.attached ⟨some 60, some "latency", none⟩ false 0) replaced).any
        (fun s => decide (s.stray = [2])) = true by decide +kernel)
    exact ⟨s, hrun, of_decide_eq_true hs⟩
  · obtain ⟨s, hrun, hs⟩ := (Option.any_eq_true _ _).mp
      (show (run step (.attached smoothness false 0) crowded).any (fun s => decide
        (s.accepted = [0, 1, 5, 2])) = true by decide +kernel)
    have haccepted := of_decide_eq_true hs
    exact ⟨s, hrun, haccepted, by rw [haccepted]; decide⟩

end LuminalShine.WebRtc
