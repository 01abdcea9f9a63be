import LuminalShine.Lib.Run
import Mathlib.Data.Nat.Notation

/-!
# Reference-frame invalidation

`nvenc_base::invalidate_ref_frames` of `src/nvenc/nvenc_base.cpp`, and what `encode_frame` keeps
for it.  A request is widened to the last encoded frame and remembered, whatever comes of it;
a later request inside the remembered range is taken to be done.

Frames that were encoded after the remembered request are not looked at: the encoder has made
them without the frames that were invalidated.

The loop of the source ends while its last frame is not the largest number there is.

## Main definitions

* `invalidateRefFrames` — the source's function.
* `Session`, `step` — one encoder, its frames and its requests.
* `Handled` — a request that came to be remembered.

## Main results

* `invalidated_of_true` — what an answer of `true` says.
-/

namespace LuminalShine.Nvenc.RefFrames

open LuminalShine.Lib

/-! ## The encoder -/

/-- What `encoder_params` and `encoder_state` have for the requests; `opened` is `encoder`. -/
structure Encoder where
  opened : Bool
  rfi : Bool
  refFramesInDpb : UInt32
  lastEncodedFrameIndex : UInt64
  rfiNeedsConfirmation : Bool
  lastRfiRange : UInt64 × UInt64

/-- The frames the loop goes through. -/
def frames (first last : UInt64) : List UInt64 :=
  (List.range' first.toNat (last.toNat + 1 - first.toNat)).map UInt64.ofNat

/-- The loop over `nvEncInvalidateRefFrames`: whether it ends, and the frames it has
invalidated. -/
def invalidateEach (driver : UInt64 → Bool) : List UInt64 → Bool × List UInt64
  | [] => (true, [])
  | i :: rest =>
      if !driver i then (false, [])
      else ((invalidateEach driver rest).1, i :: (invalidateEach driver rest).2)

/-- The request lies in the range that is remembered. -/
def Encoder.alreadyDone (e : Encoder) (first last : UInt64) : Bool :=
  decide (e.lastRfiRange.1 ≤ first) && decide (last ≤ e.lastRfiRange.2)

/-- `invalidate_ref_frames`: its answer, the frames it has invalidated, and the encoder. -/
def invalidateRefFrames (first last : UInt64) (driver : UInt64 → Bool) (e : Encoder) :
    Bool × List UInt64 × Encoder :=
  if !e.opened || !e.rfi then (false, [], e)
  else if e.alreadyDone first last then (true, [], e)
  else
    let e := { e with rfiNeedsConfirmation := true }
    if last < first then (false, [], e)
    else
      let last := e.lastEncodedFrameIndex
      let e := { e with lastRfiRange := (first, last) }
      -- The difference wraps when the request is ahead of the encoder.
      if e.refFramesInDpb.toUInt64 ≤ last - first + 1 then (false, [], e)
      else
        let (done, invalidated) := invalidateEach driver (frames first last)
        (done, invalidated, e)

/-- The end of `encode_frame` when it succeeds. -/
def encodeFrame (index : UInt64) (e : Encoder) : Encoder :=
  { e with rfiNeedsConfirmation := false, lastEncodedFrameIndex := index }

/-! ## Sessions -/

/-- A request that came to be remembered, with the last frame encoded by then. -/
structure Handled where
  first : UInt64
  upTo : UInt64
  result : Bool
  invalidated : List UInt64
  deriving DecidableEq

/-- `encoded` are the frames since the last IDR frame, the newest first. -/
structure Session where
  encoder : Encoder
  encoded : List UInt64
  handled : List Handled

def fresh (rfi : Bool) (refFramesInDpb : UInt32) : Session where
  encoder := ⟨true, rfi, refFramesInDpb, 0, false, (0, 0)⟩
  encoded := []
  handled := []

inductive Label
  | encode (index : UInt64) (idr : Bool)
  | fail
  | invalidate (first last : UInt64) (driver : UInt64 → Bool)

/-- The request comes to be remembered. -/
def Encoder.remembers (e : Encoder) (first last : UInt64) : Bool :=
  e.opened && e.rfi && !e.alreadyDone first last && decide (first ≤ last)

def step (s : Session) : Label → Option Session
  | .encode index idr =>
      some { s with
        encoder := encodeFrame index s.encoder
        encoded := if idr then [index] else index :: s.encoded }
  | .fail => some s
  | .invalidate first last driver =>
      let out := invalidateRefFrames first last driver s.encoder
      some { s with
        encoder := out.2.2
        handled :=
          if s.encoder.remembers first last then
            ⟨first, s.encoder.lastEncodedFrameIndex, out.1, out.2.1⟩ :: s.handled
          else s.handled }

/-- The request was refused, or has invalidated all its frames. -/
def Handled.Done (h : Handled) : Prop :=
  h.result = false ∨ ∀ frame, h.first ≤ frame → frame ≤ h.upTo → frame ∈ h.invalidated

/-- The frames the next one may refer to. -/
def Session.usable (s : Session) : List UInt64 := s.encoded.take s.encoder.refFramesInDpb.toNat

/-! ## One request -/

theorem mem_frames {first last frame : UInt64} :
    frame ∈ frames first last ↔ first ≤ frame ∧ frame ≤ last := by
  simp only [frames, List.mem_map, List.mem_range'_1, UInt64.le_iff_toNat_le]
  constructor
  · rintro ⟨n, ⟨hfirst, hlast⟩, rfl⟩
    have hsize := last.toNat_lt
    have hsmall : n < UInt64.size := by
      simp only [UInt64.size]
      omega
    have hn : (UInt64.ofNat n).toNat = n := UInt64.toNat_ofNat_of_lt' hsmall
    omega
  · rintro ⟨hfirst, hlast⟩
    exact ⟨frame.toNat, by omega, by simp⟩

theorem invalidateEach_of_true {driver : UInt64 → Bool} {is : List UInt64}
    (h : (invalidateEach driver is).1 = true) : (invalidateEach driver is).2 = is := by
  induction is with
  | nil => rfl
  | cons i is ih =>
      simp only [invalidateEach] at h ⊢
      split at h
      · cases h
      · case isFalse hdriver =>
          rw [if_neg hdriver]
          simp [ih h]

/-- A request that is remembered is refused, or goes through its frames. -/
theorem invalidateRefFrames_of_remembers {e : Encoder} {first last : UInt64}
    (driver : UInt64 → Bool) (h : e.remembers first last = true) :
    (invalidateRefFrames first last driver e).2.2.lastRfiRange =
        (first, e.lastEncodedFrameIndex) ∧
      ((invalidateRefFrames first last driver e).1 = true →
        (invalidateRefFrames first last driver e).2.1 =
          frames first e.lastEncodedFrameIndex) := by
  simp only [Encoder.remembers, Bool.and_eq_true, Bool.not_eq_true', decide_eq_true_eq] at h
  rcases h with ⟨⟨⟨hopened, hrfi⟩, hnew⟩, hle⟩
  have hordered : ¬ last < first := UInt64.not_lt.mpr hle
  rw [invalidateRefFrames, if_neg (by simp [hopened, hrfi]), if_neg (by simp [hnew])]
  dsimp only
  rw [if_neg hordered]
  split
  · simp
  · exact ⟨rfl, invalidateEach_of_true⟩

/-- Any other leaves the range, and is answered with `true` only inside it. -/
theorem invalidateRefFrames_of_not_remembers {e : Encoder} {first last : UInt64}
    (driver : UInt64 → Bool) (h : e.remembers first last = false) :
    (invalidateRefFrames first last driver e).2.2.lastRfiRange = e.lastRfiRange ∧
      ((invalidateRefFrames first last driver e).1 = true →
        e.alreadyDone first last = true) := by
  unfold invalidateRefFrames
  split
  · simp
  · case isFalse hencoder =>
      split
      · case isTrue hdone => exact ⟨rfl, fun _ => hdone⟩
      · case isFalse hnew =>
          have hordered : last < first := by
            simp only [Bool.or_eq_true, Bool.not_eq_true', not_or, Bool.not_eq_false] at hencoder
            simpa [Encoder.remembers, hencoder, hnew] using h
          simp [hordered]

/-! ## Runs -/

/-- What is remembered is the range of a request that was handled. -/
structure Inv (s : Session) : Prop where
  fresh : s.handled = [] → s.encoder.lastRfiRange = (0, 0)
  remembered : s.handled ≠ [] →
    ∃ h ∈ s.handled, s.encoder.lastRfiRange = (h.first, h.upTo) ∧ h.Done

theorem inv_fresh (rfi : Bool) (refFramesInDpb : UInt32) : Inv (fresh rfi refFramesInDpb) where
  fresh _ := rfl
  remembered h := absurd rfl h

theorem Inv.step {s s' : Session} {label : Label} (h : Inv s)
    (hs : RefFrames.step s label = some s') : Inv s' := by
  cases label with
  | encode index idr =>
      cases hs
      exact ⟨h.fresh, h.remembered⟩
  | fail =>
      cases hs
      exact h
  | invalidate first last driver =>
      simp only [RefFrames.step, Option.some.injEq] at hs
      subst hs
      cases hremembers : s.encoder.remembers first last with
      | true =>
          rcases invalidateRefFrames_of_remembers driver hremembers with ⟨hrange, hdone⟩
          refine ⟨fun hnil => by simp at hnil, fun _ => ⟨_, List.mem_cons_self, hrange, ?_⟩⟩
          cases hresult : (invalidateRefFrames first last driver s.encoder).1 with
          | false => exact Or.inl rfl
          | true =>
              refine Or.inr ?_
              intro frame hfirst hlast
              rw [hdone hresult]
              exact mem_frames.mpr ⟨hfirst, hlast⟩
      | false =>
          have hrange := (invalidateRefFrames_of_not_remembers driver hremembers).1
          simp only [Bool.false_eq_true, if_false]
          refine ⟨fun hnil => hrange.trans (h.fresh hnil), ?_⟩
          intro hne
          rcases h.remembered hne with ⟨handled, hmem, hbefore, hcovered⟩
          exact ⟨handled, hmem, hrange.trans hbefore, hcovered⟩

/-- **What an answer of `true` says.**  After any frames and requests, the request has just
invalidated every frame from its first to the last that was encoded, and that one at least; or
an earlier request covers it, which was refused, or has invalidated every frame from its own
first to the last that was encoded by then. -/
theorem invalidated_of_true {rfi : Bool} {refFramesInDpb : UInt32} {labels : List Label}
    {s : Session} {first last : UInt64} {driver : UInt64 → Bool}
    (hrun : run step (fresh rfi refFramesInDpb) labels = some s)
    (hresult : (invalidateRefFrames first last driver s.encoder).1 = true)
    (hlast : s.handled = [] → last ≠ 0)
    (hahead : first ≤ last → first ≤ s.encoder.lastEncodedFrameIndex) :
    (first ≤ s.encoder.lastEncodedFrameIndex ∧
        ∀ frame, first ≤ frame → frame ≤ s.encoder.lastEncodedFrameIndex →
          frame ∈ (invalidateRefFrames first last driver s.encoder).2.1) ∨
      ∃ h ∈ s.handled, h.first ≤ first ∧ last ≤ h.upTo ∧ h.Done := by
  have hinv : Inv s := run_invariant (fun _ _ _ h hs => Inv.step h hs)
    (inv_fresh rfi refFramesInDpb) hrun
  cases hremembers : s.encoder.remembers first last with
  | true =>
      refine Or.inl ⟨hahead ?_, ?_⟩
      · simp only [Encoder.remembers, Bool.and_eq_true, decide_eq_true_eq] at hremembers
        exact hremembers.2
      · intro frame hfirst hupTo
        rw [(invalidateRefFrames_of_remembers driver hremembers).2 hresult]
        exact mem_frames.mpr ⟨hfirst, hupTo⟩
  | false =>
      have hdone := (invalidateRefFrames_of_not_remembers driver hremembers).2 hresult
      simp only [Encoder.alreadyDone, Bool.and_eq_true, decide_eq_true_eq] at hdone
      refine Or.inr ?_
      have hne : s.handled ≠ [] := by
        intro hnil
        rw [hinv.fresh hnil] at hdone
        exact hlast hnil (UInt64.le_antisymm hdone.2 (UInt64.zero_le))
      rcases hinv.remembered hne with ⟨h, hmem, hrange, hcovered⟩
      rw [hrange] at hdone
      exact ⟨h, hmem, hdone.1, hdone.2, hcovered⟩

/-- Three frames. -/
def threeFrames : List Label := [.encode 1 true, .encode 2 false, .encode 3 false]

theorem invalidated_of_true_threeFrames :
    ((2 : UInt64) ≤ 3 ∧ ∀ frame, (2 : UInt64) ≤ frame → frame ≤ (3 : UInt64) →
        frame ∈ (invalidateRefFrames 2 2 (fun _ => true)
          ⟨true, true, 5, 3, false, (0, 0)⟩).2.1) ∨
      ∃ h ∈ ([] : List Handled), h.first ≤ 2 ∧ 2 ≤ h.upTo ∧ h.Done := by
  have hrun : run step (fresh true 5) threeFrames =
      some ⟨⟨true, true, 5, 3, false, (0, 0)⟩, [3, 2, 1], []⟩ := rfl
  exact invalidated_of_true hrun (by decide) (fun _ => by decide) (fun _ => by decide)

/-- The same request before and after a fourth frame: the answer is `true` both times, no
request was refused, and the fourth frame, to which the next may refer, is invalidated by
neither. -/
theorem repeated_leaves_newer :
    ∃ s, run step (fresh true 5)
        (threeFrames ++ [.invalidate 2 2 fun _ => true, .encode 4 false]) = some s ∧
      (invalidateRefFrames 2 2 (fun _ => true) s.encoder).1 = true ∧
      (4 : UInt64) ∈ s.usable ∧ (4 : UInt64) ≤ s.encoder.lastEncodedFrameIndex ∧
      4 ∉ (invalidateRefFrames 2 2 (fun _ => true) s.encoder).2.1 ∧
      ∀ h ∈ s.handled, h.result = true ∧ 4 ∉ h.invalidated :=
  ⟨_, rfl, by decide, by decide, by decide, by decide, by decide⟩

end LuminalShine.Nvenc.RefFrames
