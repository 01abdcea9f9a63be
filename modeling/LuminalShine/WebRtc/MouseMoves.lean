import LuminalShine.Lib.Serial
import Mathlib

/-!
# Mouse moves over the unordered channel

The browser sends its mouse moves as seven bytes with a 16-bit number, on a data channel that
neither orders nor repeats.  The host passes a move on when its number is ahead of the last one
it passed on; after a second without one it takes any number and counts on from there, and a new
channel starts afresh.

* `encodeMouseMove` — the browser's message;
* `SessionDataChannelContext.handleInputMessageBinary` — the host's end;
* `kept` — the same decisions on the moves' true positions in the stream;
* `mouse_moves_in_order` — over any arrivals that stay within half the range of the numbers, the
  moves passed on are the kept ones; within a second of each other, each is ahead of all before it.
-/

namespace LuminalShine.WebRtc

open LuminalShine.Lib

/-- A move: how many the browser had sent before, and the position on the screen. -/
structure MouseMove where
  index : ℕ
  x : BitVec 16
  y : BitVec 16
  deriving DecidableEq, Repr

/-- `setUint16` in little-endian order. -/
def u16Bytes (v : BitVec 16) : List UInt8 :=
  [UInt8.ofNat v.toNat, UInt8.ofNat (v.toNat / 256)]

/-- `encodeMouseMove` of the browser: `mouseMoveSeq` counts the moves modulo 65536. -/
def encodeMouseMove (m : MouseMove) : List UInt8 :=
  1 :: (u16Bytes (BitVec.ofNat 16 m.index) ++ u16Bytes m.x ++ u16Bytes m.y)

def kInputBinaryMouseMove : UInt8 := 1

/-- `kMouseMoveSeqResetIdle`, in milliseconds. -/
def kMouseMoveSeqResetIdle : ℤ := 1000

/-- `seq_newer_u16`. -/
def seqNewerU16 (seq last : BitVec 16) : Bool := 0 < (seq - last).toInt

/-- The two bytes of a number. -/
def u16OfBytes (lo hi : UInt8) : BitVec 16 := BitVec.ofNat 16 (lo.toNat + 256 * hi.toNat)

structure SessionDataChannelContext where
  mouseMoveSeqInitialized : Bool
  lastMouseMoveSeq : BitVec 16
  lastMouseMoveAtMs : ℤ
  deriving DecidableEq, Repr

namespace SessionDataChannelContext

/-- What `on_data_channel` stores when a channel opens. -/
def opened : SessionDataChannelContext where
  mouseMoveSeqInitialized := false
  lastMouseMoveSeq := 0
  lastMouseMoveAtMs := 0

/-- The number is not ahead, and the last one passed on is less than a second old. -/
def Stale (ctx : SessionDataChannelContext) (seq : BitVec 16) (now : ℤ) : Prop :=
  ctx.mouseMoveSeqInitialized = true ∧ seqNewerU16 seq ctx.lastMouseMoveSeq = false ∧
    0 < ctx.lastMouseMoveAtMs ∧ 0 ≤ now - ctx.lastMouseMoveAtMs ∧
    now - ctx.lastMouseMoveAtMs < kMouseMoveSeqResetIdle

instance (ctx : SessionDataChannelContext) (seq : BitVec 16) (now : ℤ) :
    Decidable (ctx.Stale seq now) := by
  unfold Stale
  infer_instance

/-- `handle_input_message_binary`: the context behind it, and the position that is passed on. -/
def handleInputMessageBinary (ctx : SessionDataChannelContext) (now : ℤ) :
    List UInt8 → SessionDataChannelContext × Option (BitVec 16 × BitVec 16)
  | type :: b₁ :: b₂ :: b₃ :: b₄ :: b₅ :: b₆ :: _ =>
      if type ≠ kInputBinaryMouseMove then (ctx, none)
      else
        let seq := u16OfBytes b₁ b₂
        if ctx.Stale seq now then (ctx, none)
        else (⟨true, seq, now⟩, some (u16OfBytes b₃ b₄, u16OfBytes b₅ b₆))
  | _ => (ctx, none)

end SessionDataChannelContext

/-- What reaches the host: a new channel, or a move at some time. -/
inductive Arrival where
  | opened
  | move (m : MouseMove) (now : ℤ)
  deriving DecidableEq, Repr

/-- The positions that are passed on. -/
def passedOn (ctx : SessionDataChannelContext) : List Arrival → List (BitVec 16 × BitVec 16)
  | [] => []
  | .opened :: arrivals => passedOn .opened arrivals
  | .move m now :: arrivals =>
      let (ctx, position) := ctx.handleInputMessageBinary now (encodeMouseMove m)
      position.toList ++ passedOn ctx arrivals

/-! ## On true indices -/

/-- The last move that was passed on, with its time. -/
abbrev Newest := Option (MouseMove × ℤ)

/-- The move is not ahead of the last one, which is less than a second old. -/
def Outdated (newest : Newest) (m : MouseMove) (now : ℤ) : Prop :=
  ∃ last ∈ newest, m.index ≤ last.1.index ∧
    0 < last.2 ∧ 0 ≤ now - last.2 ∧ now - last.2 < kMouseMoveSeqResetIdle

instance (newest : Newest) (m : MouseMove) (now : ℤ) : Decidable (Outdated newest m now) := by
  unfold Outdated
  infer_instance

/-- The moves that are not outdated when they arrive. -/
def kept (newest : Newest) : List Arrival → List MouseMove
  | [] => []
  | .opened :: arrivals => kept none arrivals
  | .move m now :: arrivals =>
      if Outdated newest m now then kept newest arrivals else m :: kept (some (m, now)) arrivals

/-- Every move arrives within half the range of the numbers around the last one passed on. -/
def InWindow (newest : Newest) : List Arrival → Prop
  | [] => True
  | .opened :: arrivals => InWindow none arrivals
  | .move m now :: arrivals =>
      (∀ last ∈ newest, m.index < last.1.index + 2 ^ 15 ∧ last.1.index ≤ m.index + 2 ^ 15) ∧
        InWindow (if Outdated newest m now then newest else some (m, now)) arrivals

/-- No move that is behind the last one arrives a second after it. -/
def Prompt (newest : Newest) : List Arrival → Prop
  | [] => True
  | .opened :: _ => False
  | .move m now :: arrivals =>
      (∀ last ∈ newest, m.index ≤ last.1.index → Outdated newest m now) ∧
        Prompt (if Outdated newest m now then newest else some (m, now)) arrivals

/-! ## The bytes -/

theorem u16OfBytes_u16Bytes (v : BitVec 16) :
    u16OfBytes (UInt8.ofNat v.toNat) (UInt8.ofNat (v.toNat / 256)) = v := by
  have hv := v.isLt
  apply BitVec.eq_of_toNat_eq
  simp only [u16OfBytes, UInt8.toNat_ofNat', BitVec.toNat_ofNat]
  omega

/-- The context that stands for the last move. -/
def contextOf : Newest → SessionDataChannelContext
  | none => .opened
  | some (m, now) => ⟨true, BitVec.ofNat 16 m.index, now⟩

/-- **One arrival.**  Within the window the 16 bits decide as the true indices do. -/
theorem handleInputMessageBinary_encode {newest : Newest} {m : MouseMove} (now : ℤ)
    (hwindow : ∀ last ∈ newest,
      m.index < last.1.index + 2 ^ 15 ∧ last.1.index ≤ m.index + 2 ^ 15) :
    (contextOf newest).handleInputMessageBinary now (encodeMouseMove m) =
      if Outdated newest m now then (contextOf newest, none)
      else (contextOf (some (m, now)), some (m.x, m.y)) := by
  have hstale : (contextOf newest).Stale (BitVec.ofNat 16 m.index) now ↔
      Outdated newest m now := by
    rcases newest with _ | ⟨last, at_⟩
    · simp [contextOf, SessionDataChannelContext.opened, SessionDataChannelContext.Stale, Outdated]
    · obtain ⟨hup, hdown⟩ := hwindow _ rfl
      have hnewer := serial_newer_iff hup hdown
      simp only [contextOf, SessionDataChannelContext.Stale, seqNewerU16, Outdated, true_and,
        decide_eq_false_iff_not, hnewer, not_lt, Option.mem_some_iff, exists_eq_left']
  simp only [encodeMouseMove, u16Bytes, List.cons_append, List.nil_append,
    SessionDataChannelContext.handleInputMessageBinary, u16OfBytes_u16Bytes, hstale]
  rfl

/-- The last move passed on is the furthest one, as long as none is taken for its lateness. -/
theorem kept_increasing {arrivals : List Arrival} {newest : Newest}
    (hprompt : Prompt newest arrivals) :
    (kept newest arrivals).Pairwise (fun a b => a.index < b.index) ∧
      ∀ m ∈ kept newest arrivals, ∀ last ∈ newest, last.1.index < m.index := by
  induction arrivals generalizing newest with
  | nil => simp [kept]
  | cons arrival arrivals ih =>
      cases arrival with
      | opened => cases hprompt
      | move m now =>
          obtain ⟨hbehind, hrest⟩ := hprompt
          by_cases hout : Outdated newest m now
          · rw [if_pos hout] at hrest
            simpa only [kept, if_pos hout] using ih hrest
          · rw [if_neg hout] at hrest
            obtain ⟨hpairs, hahead⟩ := ih hrest
            have hm : ∀ last ∈ newest, last.1.index < m.index := fun last hlast => by
              by_contra hle
              exact hout (hbehind last hlast (Nat.le_of_not_lt hle))
            simp only [kept, if_neg hout, List.pairwise_cons, List.mem_cons]
            refine ⟨⟨fun b hb => hahead b hb _ rfl, hpairs⟩, ?_⟩
            rintro b (rfl | hb) last hlast
            · exact hm last hlast
            · exact Nat.lt_trans (hm last hlast) (hahead b hb _ rfl)

/-- No move is ahead of all that were passed on. -/
theorem exists_kept_of_mem {arrivals : List Arrival} {newest : Newest}
    (hprompt : Prompt newest arrivals) {m : MouseMove} {now : ℤ}
    (hm : .move m now ∈ arrivals) :
    (∃ last ∈ newest, m.index ≤ last.1.index) ∨
      ∃ k ∈ kept newest arrivals, m.index ≤ k.index := by
  induction arrivals generalizing newest with
  | nil => cases hm
  | cons arrival arrivals ih =>
      cases arrival with
      | opened => cases hprompt
      | move first at_ =>
          obtain ⟨-, hrest⟩ := hprompt
          by_cases hout : Outdated newest first at_
          · rw [if_pos hout] at hrest
            rw [kept, if_pos hout]
            rcases List.mem_cons.mp hm with heq | hm
            · obtain ⟨rfl, rfl⟩ := Arrival.move.inj heq
              obtain ⟨last, hlast, hle, -⟩ := hout
              exact Or.inl ⟨last, hlast, hle⟩
            · exact ih hrest hm
          · rw [if_neg hout] at hrest
            rw [kept, if_neg hout]
            right
            rcases List.mem_cons.mp hm with heq | hm
            · obtain ⟨rfl, rfl⟩ := Arrival.move.inj heq
              exact ⟨m, List.mem_cons_self, Nat.le_refl _⟩
            · rcases ih hrest hm with ⟨last, hlast, hle⟩ | ⟨k, hk, hle⟩
              · obtain rfl := Option.mem_some_iff.mp hlast
                exact ⟨first, List.mem_cons_self, hle⟩
              · exact ⟨k, List.mem_cons_of_mem _ hk, hle⟩

theorem passedOn_eq {arrivals : List Arrival} {newest : Newest}
    (hwindow : InWindow newest arrivals) :
    passedOn (contextOf newest) arrivals = (kept newest arrivals).map fun m => (m.x, m.y) := by
  induction arrivals generalizing newest with
  | nil => rfl
  | cons arrival arrivals ih =>
      cases arrival with
      | opened => exact ih hwindow
      | move m now =>
          obtain ⟨hhere, hrest⟩ := hwindow
          rw [passedOn, handleInputMessageBinary_encode now hhere, kept]
          by_cases hout : Outdated newest m now
          · rw [if_pos hout] at hrest
            rw [if_pos hout, if_pos hout]
            exact ih hrest
          · rw [if_neg hout] at hrest
            rw [if_neg hout, if_neg hout, List.map_cons, ← ih hrest]
            rfl

/-- **The host follows the pointer.**  Whatever the channel loses, repeats or reorders, as long as
every move arrives within half the range of the 16-bit numbers, the host passes on the positions
of exactly those moves that are ahead of the last one or come a second after it.  If no move
comes that late, each move passed on is ahead of all before it, and none that has arrived is
ahead of them all. -/
theorem mouse_moves_in_order {arrivals : List Arrival} (hwindow : InWindow none arrivals) :
    passedOn .opened arrivals = ((kept none arrivals).map fun m => (m.x, m.y)) ∧
      (Prompt none arrivals →
        (kept none arrivals).Pairwise (fun a b => a.index < b.index) ∧
          ∀ m now, .move m now ∈ arrivals → ∃ k ∈ kept none arrivals, m.index ≤ k.index) := by
  refine ⟨passedOn_eq hwindow, fun hprompt => ⟨(kept_increasing hprompt).1, ?_⟩⟩
  intro m now hm
  rcases exists_kept_of_mem hprompt hm with ⟨last, hlast, -⟩ | hkept
  · cases hlast
  · exact hkept

/-- A late move at the turn of the numbers. -/
def lateMove : List Arrival :=
  [.move ⟨65535, 1, 1⟩ 10, .move ⟨65537, 3, 3⟩ 20, .move ⟨65536, 2, 2⟩ 25,
    .move ⟨65538, 4, 4⟩ 30]

theorem mouse_moves_in_order_late :
    passedOn .opened lateMove = [(1, 1), (3, 3), (4, 4)] := by
  have hwindow : InWindow none lateMove := by
    simp [lateMove, InWindow, Outdated, kMouseMoveSeqResetIdle]
  have hkept : kept none lateMove = [⟨65535, 1, 1⟩, ⟨65537, 3, 3⟩, ⟨65538, 4, 4⟩] := by
    simp [lateMove, kept, Outdated, kMouseMoveSeqResetIdle]
  rw [(mouse_moves_in_order hwindow).1, hkept]
  rfl

end LuminalShine.WebRtc
