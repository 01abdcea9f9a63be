import LuminalShine.Lib.Run
import Mathlib

/-!
# Conditional replenishment

`encode_frame` of `src/pyrowave/pyrowave_encode.cpp`, from the finished GPU output on.  A
full frame carries every coded block; any other one only the blocks that differ from what
the client is believed to hold, and a slice of the others in turn.

The encoder's belief is a table of hashes.  It is replaced together with the emission of
the frame it describes, after the last check that may drop the frame.

The decoder is what the wire format says: a full frame clears the blocks it does not carry,
and a block packet replaces its block.  Logging cannot fail, the rate control behind the
emission is left out, and the frame counter never wraps.

## Main definitions

* `hashBlockPacket`, `appendRecord`, `encodeFrame` — the source's code.
* `applyFrame` — the decoder.
* `Stream`, `step` — both ends, with frames lost on the way.

## Main results

* `replenishment_exact` — what the decoder holds along every run.
-/

namespace LuminalShine.Pyrowave.Replenish

open LuminalShine.Lib

/-! ## Block hashes -/

/-- A block packet as it stands in the bitstream. -/
abbrev Packet := List UInt8

/-- `kHashNever` -/
def hashNever : UInt64 := 0

/-- `kHashEmpty` -/
def hashEmpty : UInt64 := 1

/-- The packet without its three sequence bits: what it says about the block. -/
def coefficients (packet : Packet) : Packet :=
  packet.mapIdx fun i b => if i = 3 then b &&& 0x8F else b

/-- `hash_block_packet`: FNV-1a, with the high bit forced. -/
def hashBlockPacket (packet : Packet) : UInt64 :=
  (coefficients packet).foldl (fun h b => (h ^^^ b.toUInt64) * 1099511628211)
    1469598103934665603 ||| 0x8000000000000000

/-- `hdr.sequence` -/
def sequenceOf (packet : Packet) : ℕ := (packet.getD 3 0).toNat / 16 % 8

/-! ## The bitstream -/

structure Config where
  refreshInterval : ℕ
  shardPayloadSize : ℕ
  maxOutputBytes : ℕ
  interval_le : refreshInterval ≤ 255
  shard_ok : shardPayloadSize = 0 ∨ 64 ≤ shardPayloadSize ∧ shardPayloadSize % 4 = 0

inductive Record (n : ℕ) where
  | padding (len : ℕ)
  | sequenceHeader (full : Bool) (sequence totalBlocks : ℕ)
  | block (index : Fin n) (packet : Packet)
  | zeroBlock (index : Fin n) (sequence : ℕ)
  deriving DecidableEq, Repr

variable {n : ℕ}

def Record.size : Record n → ℕ
  | .padding len => len
  | .sequenceHeader _ _ _ => 8
  | .block _ packet => packet.length
  | .zeroBlock _ _ => 8

/-- `out.data` and `next_boundary`. -/
structure Output (n : ℕ) where
  data : List (Record n)
  nextBoundary : ℕ
  deriving DecidableEq, Repr

def dataSize (data : List (Record n)) : ℕ := (data.map Record.size).sum

/-- The turns of the loop that move over a boundary less than eight bytes away. -/
def skipSlivers (shard pos : ℕ) : ℕ → ℕ → ℕ
  | 0, boundary => boundary
  | fuel + 1, boundary =>
      if boundary < pos + 8 then skipSlivers shard pos fuel (boundary + shard) else boundary

/-- `append_record`: with an alignment, at most one padding record goes in front. -/
def appendRecord (shard : ℕ) (out : Output n) (record : Record n) : Output n :=
  if shard = 0 then { out with data := out.data ++ [record] }
  else
    let len := record.size
    let pos := dataSize out.data
    let boundary := skipSlivers shard pos (pos + 8) out.nextBoundary
    let rem := boundary - pos
    let (data, boundary) :=
      if shard < len ∨ len ≤ rem ∧ rem - len ≠ 4 then (out.data, boundary)
      else (out.data ++ [.padding rem],
        skipSlivers shard (pos + rem) (pos + rem + 8) (boundary + shard))
    let data := data ++ [record]
    ⟨data, if dataSize data = boundary then boundary + shard else boundary⟩

/-! ## The encoder -/

structure Encoder (n : ℕ) where
  blockHashes : Fin n → UInt64
  frameCounter : ℕ
  fullRefresh : Bool

/-- What one call of `encode_frame` meets: whether the GPU work goes through, the sequence
number the CPU expects, the blocks of the frame, and whether the packing throws. -/
structure Attempt (n : ℕ) where
  gpu : Bool
  seqMirror : ℕ
  blocks : Fin n → Option Packet
  throws : Bool

structure EncodedFrame (n : ℕ) where
  idr : Bool
  data : List (Record n)
  deriving DecidableEq, Repr

/-- The hash of a block as the table keeps it. -/
def currentHash (block : Option Packet) : UInt64 :=
  match block with
  | some packet => hashBlockPacket packet
  | none => hashEmpty

/-- What is sent of a block: nothing, its packet, or an explicit zero. -/
inductive Action where
  | skip
  | send (packet : Packet)
  | zero
  deriving DecidableEq, Repr

def due (interval counter : ℕ) (i : Fin n) : Bool := i.1 % interval = counter % interval

def blockAction (cfg : Config) (full : Bool) (enc : Encoder n) (blocks : Fin n → Option Packet)
    (i : Fin n) : Action :=
  match full, blocks i with
  | true, some packet => .send packet
  | true, none => .skip
  | false, block =>
      if due cfg.refreshInterval enc.frameCounter i ||
          currentHash block != enc.blockHashes i then
        match block with
        | some packet => .send packet
        | none => .zero
      else .skip

/-- The record of a block that is not skipped. -/
def Action.record (seq : ℕ) (i : Fin n) : Action → Option (Record n)
  | .skip => none
  | .send packet => some (.block i packet)
  | .zero => some (.zeroBlock i seq)

/-- `blocks[i].num_words` of a coded block is in range. -/
def wordsInRange (block : Option Packet) : Bool :=
  block.all fun packet => decide (2 ≤ packet.length / 4 ∧ packet.length / 4 < 4096)

/-- The sequence number of the first coded block, or the mirror. -/
def frameSequence (a : Attempt n) : ℕ :=
  (((List.finRange n).findSome? a.blocks).map sequenceOf).getD a.seqMirror

def isFull (cfg : Config) (enc : Encoder n) : Bool :=
  cfg.refreshInterval = 0 || enc.fullRefresh

/-- The records of a frame behind its header. -/
def frameRecords (cfg : Config) (enc : Encoder n) (a : Attempt n) : List (Record n) :=
  (List.finRange n).filterMap fun i =>
    (blockAction cfg (isFull cfg enc) enc a.blocks i).record (frameSequence a) i

/-- The bitstream of a frame. -/
def frameData (cfg : Config) (enc : Encoder n) (a : Attempt n) : List (Record n) :=
  let records := frameRecords cfg enc a
  let header := .sequenceHeader (isFull cfg enc) (frameSequence a) records.length
  ((header :: records).foldl (appendRecord cfg.shardPayloadSize)
    ⟨[], cfg.shardPayloadSize - 8⟩).data

/-- `encode_frame`: the frame, unless none is emitted, and the encoder after it. -/
def encodeFrame (cfg : Config) (enc : Encoder n) (a : Attempt n) :
    Option (EncodedFrame n) × Encoder n :=
  if !a.gpu || !(List.finRange n).all (fun i => wordsInRange (a.blocks i)) then (none, enc)
  else
    let consumedRefresh := enc.fullRefresh
    let data := frameData cfg enc a
    let after := { enc with fullRefresh := false }
    if a.throws || decide (cfg.maxOutputBytes < dataSize data) then
      (none, if consumedRefresh then { after with fullRefresh := true } else after)
    else
      (some ⟨isFull cfg enc, data⟩, { after with
        blockHashes := fun i => currentHash (a.blocks i)
        frameCounter := enc.frameCounter + 1 })

/-- `request_full_refresh` -/
def requestFullRefresh (enc : Encoder n) : Encoder n := { enc with fullRefresh := true }

/-! ## The decoder -/

/-- The coefficients of every block; an absent one is zero. -/
abbrev Picture (n : ℕ) := Fin n → Option Packet

def applyRecord (picture : Picture n) : Record n → Picture n
  | .padding _ => picture
  | .sequenceHeader full _ _ => if full then fun _ => none else picture
  | .block i packet => Function.update picture i (some (coefficients packet))
  | .zeroBlock i _ => Function.update picture i none

def applyFrame (picture : Picture n) (data : List (Record n)) : Picture n :=
  data.foldl applyRecord picture

/-- The coefficients of a frame's complete block set. -/
def complete (blocks : Fin n → Option Packet) : Picture n := fun i => (blocks i).map coefficients

/-! ## Both ends -/

/-- `shown` is the picture of the last frame emitted, `streak` the number of frames received
since the last one that was lost. -/
structure Stream (n : ℕ) where
  encoder : Encoder n
  picture : Picture n
  shown : Option (Picture n)
  streak : ℕ
  lossless : Bool

/-- A new encoder, and a decoder that holds anything. -/
def Stream.initial (picture : Picture n) : Stream n where
  encoder := ⟨fun _ => hashNever, 0, true⟩
  picture := picture
  shown := none
  streak := 0
  lossless := true

inductive Label (n : ℕ) where
  | requestFullRefresh
  | encode (attempt : Attempt n) (received : Bool)

def step (cfg : Config) (s : Stream n) : Label n → Option (Stream n)
  | .requestFullRefresh => some { s with encoder := requestFullRefresh s.encoder }
  | .encode a received =>
      match encodeFrame cfg s.encoder a with
      | (none, encoder) => some { s with encoder }
      | (some frame, encoder) => some {
          encoder
          picture := if received then applyFrame s.picture frame.data else s.picture
          shown := some (complete a.blocks)
          streak := if received then s.streak + 1 else 0
          lossless := s.lossless && received }

/-- The packets of a label. -/
def Label.packets : Label n → List Packet
  | .requestFullRefresh => []
  | .encode a _ => (List.finRange n).filterMap a.blocks

/-- No two packets of the run that say different things have the same hash. -/
def CollisionFree (labels : List (Label n)) : Prop :=
  ∀ p ∈ labels.flatMap Label.packets, ∀ q ∈ labels.flatMap Label.packets,
    hashBlockPacket p = hashBlockPacket q → coefficients p = coefficients q

/-! ## Hashes and sentinels -/

theorem hashBlockPacket_ne_empty (packet : Packet) : hashBlockPacket packet ≠ hashEmpty := by
  intro h
  have := congrArg (fun x => x.toNat.testBit 63) h
  have hhigh : Nat.testBit 9223372036854775808 63 = true := by decide
  have hlow : Nat.testBit 1 63 = false := by decide
  simp [hashBlockPacket, hashEmpty, UInt64.toNat_or, Nat.testBit_or, hhigh, hlow] at this

/-! ## What a frame does to the decoder -/

theorem applyFrame_append (picture : Picture n) (data more : List (Record n)) :
    applyFrame picture (data ++ more) = applyFrame (applyFrame picture data) more :=
  List.foldl_append

/-- Padding is skipped, so the alignment does not matter. -/
theorem applyFrame_appendRecord (shard : ℕ) (picture : Picture n) (out : Output n)
    (record : Record n) :
    applyFrame picture (appendRecord shard out record).data =
      applyRecord (applyFrame picture out.data) record := by
  unfold appendRecord
  split
  · rw [applyFrame_append]
    rfl
  · dsimp only
    split <;> simp [applyFrame, applyRecord]

theorem applyFrame_foldl (shard : ℕ) (picture : Picture n) (records : List (Record n))
    (out : Output n) :
    applyFrame picture (records.foldl (appendRecord shard) out).data =
      applyFrame (applyFrame picture out.data) records := by
  induction records generalizing out with
  | nil => rfl
  | cons record records ih =>
      rw [List.foldl_cons, ih, applyFrame_appendRecord]
      rfl

/-- What an action makes of its block. -/
def Action.apply (held : Option Packet) : Action → Option Packet
  | .skip => held
  | .send packet => some (coefficients packet)
  | .zero => none

/-- Every block meets its own action only. -/
theorem applyFrame_actions (seq : ℕ) (act : Fin n → Action) {indices : List (Fin n)}
    (hnodup : indices.Nodup) (picture : Picture n) (i : Fin n) :
    applyFrame picture (indices.filterMap fun i => (act i).record seq i) i =
      if i ∈ indices then (act i).apply (picture i) else picture i := by
  induction indices generalizing picture with
  | nil => simp [applyFrame]
  | cons j indices ih =>
      obtain ⟨hj, hnodup⟩ := List.nodup_cons.mp hnodup
      cases hact : act j with
      | skip =>
          rw [List.filterMap_cons_none (by rw [hact]; rfl), ih hnodup]
          by_cases hij : i = j
          · subst hij
            simp [hj, hact, Action.apply]
          · simp [hij]
      | send packet =>
          rw [List.filterMap_cons_some (by rw [hact]; rfl)]
          change applyFrame (Function.update picture j (some (coefficients packet))) _ i = _
          rw [ih hnodup]
          by_cases hij : i = j
          · subst hij
            simp [hj, hact, Action.apply]
          · simp [hij]
      | zero =>
          rw [List.filterMap_cons_some (by rw [hact]; rfl)]
          change applyFrame (Function.update picture j none) _ i = _
          rw [ih hnodup]
          by_cases hij : i = j
          · subst hij
            simp [hj, hact, Action.apply]
          · simp [hij]

/-- **One frame at the decoder.** -/
theorem applyFrame_frameData (cfg : Config) (enc : Encoder n) (a : Attempt n)
    (picture : Picture n) (i : Fin n) :
    applyFrame picture (frameData cfg enc a) i =
      (blockAction cfg (isFull cfg enc) enc a.blocks i).apply
        (if isFull cfg enc then none else picture i) := by
  unfold frameData
  dsimp only
  rw [applyFrame_foldl]
  change applyFrame (applyRecord picture (.sequenceHeader _ _ _)) _ i = _
  unfold frameRecords
  rw [applyFrame_actions _ (fun i => blockAction cfg (isFull cfg enc) enc a.blocks i)
    (List.nodup_finRange n), if_pos (List.mem_finRange i)]
  simp only [applyRecord]
  cases isFull cfg enc <;> rfl

/-- A full frame gives every block. -/
theorem applyFrame_full {cfg : Config} {enc : Encoder n} (hfull : isFull cfg enc = true)
    (a : Attempt n) (picture : Picture n) (i : Fin n) :
    applyFrame picture (frameData cfg enc a) i = complete a.blocks i := by
  rw [applyFrame_frameData, hfull]
  cases hblock : a.blocks i <;> simp [blockAction, hblock, Action.apply, complete]

/-- Any other frame gives the blocks that are due or have changed. -/
theorem applyFrame_keep {cfg : Config} {enc : Encoder n} (hkeep : isFull cfg enc = false)
    (a : Attempt n) (picture : Picture n) (i : Fin n) :
    applyFrame picture (frameData cfg enc a) i =
      if due cfg.refreshInterval enc.frameCounter i ||
          currentHash (a.blocks i) != enc.blockHashes i then complete a.blocks i
      else picture i := by
  rw [applyFrame_frameData, hkeep]
  cases hblock : a.blocks i <;>
    cases hsent : due cfg.refreshInterval enc.frameCounter i ||
      currentHash (a.blocks i) != enc.blockHashes i <;>
    rw [hblock] at hsent <;>
    simp [blockAction, hblock, hsent, Action.apply, complete]

/-! ## What a call does to the encoder -/

/-- A frame that is not emitted leaves the encoder as it was; one that is replaces the table
and counts. -/
theorem encodeFrame_cases (cfg : Config) (enc : Encoder n) (a : Attempt n) :
    encodeFrame cfg enc a = (none, enc) ∨
      encodeFrame cfg enc a =
        (some ⟨isFull cfg enc, frameData cfg enc a⟩,
          ⟨fun i => currentHash (a.blocks i), enc.frameCounter + 1, false⟩) := by
  unfold encodeFrame
  split
  · exact Or.inl rfl
  · dsimp only
    split
    · refine Or.inl ?_
      obtain ⟨hashes, counter, refresh⟩ := enc
      cases refresh <;> rfl
    · exact Or.inr rfl

/-! ## The invariant -/

/-- The packets in use have no collisions. -/
def Distinct (known : Packet → Prop) : Prop :=
  ∀ p q, known p → known q → hashBlockPacket p = hashBlockPacket q →
    coefficients p = coefficients q

/-- A hash of the table, and the block it stands for. -/
def Describes (known : Packet → Prop) (hash : UInt64) (block : Option Packet) : Prop :=
  hash = hashEmpty ∧ block = none ∨
    ∃ packet, known packet ∧ hash = hashBlockPacket packet ∧ block = some (coefficients packet)

theorem describes_current {known : Packet → Prop} {block : Option Packet}
    (hknown : ∀ packet, block = some packet → known packet) :
    Describes known (currentHash block) (block.map coefficients) := by
  cases block with
  | none => exact Or.inl ⟨rfl, rfl⟩
  | some packet => exact Or.inr ⟨packet, hknown packet rfl, rfl, rfl⟩

/-- A hash that is found unchanged stands for the same block. -/
theorem Describes.unique {known : Packet → Prop} (hdistinct : Distinct known) {hash : UInt64}
    {block block' : Option Packet} (h : Describes known hash block)
    (h' : Describes known hash block') : block = block' := by
  rcases h with ⟨rfl, rfl⟩ | ⟨p, hp, rfl, rfl⟩ <;> rcases h' with ⟨hh, rfl⟩ | ⟨q, hq, hh, rfl⟩
  · rfl
  · exact absurd hh.symm (hashBlockPacket_ne_empty q)
  · exact absurd hh (hashBlockPacket_ne_empty p)
  · rw [hdistinct p q hp hq hh]

/-- The table describes the last frame emitted; the blocks whose turn has come since the
last loss are right. -/
structure Inv (cfg : Config) (known : Packet → Prop) (s : Stream n) : Prop where
  first : s.shown = none → s.encoder.fullRefresh = true
  table : ∀ shown, s.shown = some shown → ∀ i, Describes known (s.encoder.blockHashes i) (shown i)
  exact : ∀ shown, s.shown = some shown → s.lossless = true → s.picture = shown
  streak : s.streak ≤ s.encoder.frameCounter
  none : s.shown = none → s.encoder.frameCounter = 0
  fresh : ∀ shown, s.shown = some shown → ∀ (i : Fin n) j,
    s.encoder.frameCounter ≤ j + s.streak → j < s.encoder.frameCounter →
    cfg.refreshInterval = 0 ∨ i.1 % cfg.refreshInterval = j % cfg.refreshInterval →
    s.picture i = shown i

theorem inv_initial (cfg : Config) (known : Packet → Prop) (picture : Picture n) :
    Inv cfg known (Stream.initial picture) where
  first _ := rfl
  table shown h := by simp [Stream.initial] at h
  exact shown h := by simp [Stream.initial] at h
  streak := Nat.le_refl _
  none _ := rfl
  fresh shown h := by simp [Stream.initial] at h

variable {cfg : Config} {known : Packet → Prop} {s s' : Stream n}

theorem Inv.requestFullRefresh (h : Inv cfg known s) :
    Inv cfg known { s with encoder := requestFullRefresh s.encoder } where
  first _ := rfl
  table := h.table
  exact := h.exact
  streak := h.streak
  none := h.none
  fresh := h.fresh

/-- A block the decoder held rightly is right after a frame that is received. -/
theorem Inv.received (h : Inv cfg known s) (hdistinct : Distinct known) {a : Attempt n}
    (hknown : ∀ i packet, a.blocks i = some packet → known packet) {shown : Picture n}
    (hshown : s.shown = some shown) {i : Fin n} (hi : s.picture i = shown i) :
    applyFrame s.picture (frameData cfg s.encoder a) i = complete a.blocks i := by
  cases hfull : isFull cfg s.encoder with
  | true => exact applyFrame_full hfull a s.picture i
  | false =>
      rw [applyFrame_keep hfull]
      split
      · rfl
      · case isFalse hsent =>
          have hsame : currentHash (a.blocks i) = s.encoder.blockHashes i := by
            by_contra hne
            exact hsent (by simp [hne])
          rw [hi]
          refine (h.table shown hshown i).unique hdistinct ?_
          rw [← hsame]
          exact describes_current (hknown i)

/-- A block whose turn it is, or any block of a full frame, is right after it. -/
theorem applyFrame_due {enc : Encoder n} (a : Attempt n) (picture : Picture n) {i : Fin n}
    (hdue : isFull cfg enc = true ∨ due cfg.refreshInterval enc.frameCounter i = true) :
    applyFrame picture (frameData cfg enc a) i = complete a.blocks i := by
  cases hfull : isFull cfg enc with
  | true => exact applyFrame_full hfull a picture i
  | false =>
      rw [applyFrame_keep hfull]
      rcases hdue with h | h
      · simp [hfull] at h
      · rw [h, Bool.true_or, if_pos rfl]

theorem Inv.emitted (h : Inv cfg known s) (hdistinct : Distinct known) {a : Attempt n}
    (hknown : ∀ i packet, a.blocks i = some packet → known packet) (received : Bool) :
    Inv cfg known {
      encoder := ⟨fun i => currentHash (a.blocks i), s.encoder.frameCounter + 1, false⟩
      picture := if received then applyFrame s.picture (frameData cfg s.encoder a) else s.picture
      shown := some (complete a.blocks)
      streak := if received then s.streak + 1 else 0
      lossless := s.lossless && received } where
  first hnone := by simp at hnone
  none hnone := by simp at hnone
  table shown hshown i := by
    rw [← Option.some.inj hshown]
    exact describes_current (hknown i)
  streak := by
    have := h.streak
    cases received <;> simp
    omega
  exact shown hshown hlossless := by
    rw [← Option.some.inj hshown]
    rw [Bool.and_eq_true] at hlossless
    obtain ⟨hlossless, hreceived⟩ := hlossless
    rw [if_pos hreceived]
    funext i
    cases hbefore : s.shown with
    | none =>
        -- the first frame is full
        exact applyFrame_full (by simp [isFull, h.first hbefore]) a s.picture i
    | some before =>
        exact h.received hdistinct hknown hbefore (by rw [h.exact before hbefore hlossless])
  fresh shown hshown i j hwindow hj hturn := by
    rw [← Option.some.inj hshown]
    dsimp only at hwindow hj
    cases received with
    | false =>
        rw [if_neg (by decide)] at hwindow
        omega
    | true =>
        rw [if_pos rfl] at hwindow ⊢
        by_cases hnow : j = s.encoder.frameCounter
        · -- its turn is this frame
          subst hnow
          refine applyFrame_due a s.picture ?_
          rcases hturn with hzero | hturn
          · exact Or.inl (by simp [isFull, hzero])
          · exact Or.inr (by simp [due, hturn])
        · cases hbefore : s.shown with
          | none =>
              have := h.none hbefore
              omega
          | some before =>
              exact h.received hdistinct hknown hbefore
                (h.fresh before hbefore i j (by omega) (by omega) hturn)

theorem Inv.step (h : Inv cfg known s) (hdistinct : Distinct known) {label : Label n}
    (hknown : ∀ packet ∈ label.packets, known packet) (hstep : step cfg s label = some s') :
    Inv cfg known s' := by
  cases label with
  | requestFullRefresh =>
      rw [← Option.some.inj hstep]
      exact h.requestFullRefresh
  | encode a received =>
      have hblocks : ∀ i packet, a.blocks i = some packet → known packet := fun i packet hp =>
        hknown packet (List.mem_filterMap.mpr ⟨i, List.mem_finRange i, hp⟩)
      simp only [Replenish.step] at hstep
      rcases encodeFrame_cases cfg s.encoder a with hcase | hcase
      · rw [hcase] at hstep
        rw [← Option.some.inj hstep]
        exact h
      · rw [hcase] at hstep
        rw [← Option.some.inj hstep]
        exact h.emitted hdistinct hblocks received

/-- Every residue has its turn in a full round. -/
theorem exists_turn (interval start i : ℕ) (hpos : 0 < interval) :
    ∃ j, start ≤ j ∧ j < start + interval ∧ i % interval = j % interval := by
  refine ⟨start + (i + (interval - 1) * start) % interval, by omega, ?_, ?_⟩
  · have := Nat.mod_lt (i + (interval - 1) * start) hpos
    omega
  · obtain ⟨k, rfl⟩ : ∃ k, interval = k + 1 := ⟨interval - 1, by omega⟩
    rw [Nat.add_mod_mod, Nat.add_sub_cancel]
    have : start + (i + k * start) = i + (k + 1) * start := by
      rw [Nat.add_mul, Nat.one_mul]
      omega
    rw [this, Nat.add_mul_mod_self_left]

/-- **Replenishment is exact.**  Along every run whose packets have no collisions: while no
frame has been lost the decoder holds the last frame; it holds it again after as many
received frames in a row as the refresh interval (after one, when every frame is full); and
a frame that is not emitted leaves the table and the refresh request as they were. -/
theorem replenishment_exact (cfg : Config) (picture : Picture n) {labels : List (Label n)}
    (hfree : CollisionFree labels) (hrun : run (step cfg) (.initial picture) labels = some s) :
    (∀ shown, s.shown = some shown → s.lossless = true → s.picture = shown) ∧
      (∀ shown, s.shown = some shown → max 1 cfg.refreshInterval ≤ s.streak →
        s.picture = shown) ∧
      ∀ a, (encodeFrame cfg s.encoder a).1 = none →
        (encodeFrame cfg s.encoder a).2.blockHashes = s.encoder.blockHashes ∧
          (encodeFrame cfg s.encoder a).2.fullRefresh = s.encoder.fullRefresh := by
  have hinv : Inv cfg (· ∈ labels.flatMap Label.packets) s := by
    have hmeets : RunMeets (step cfg)
        (fun _ label => ∀ packet ∈ label.packets, packet ∈ labels.flatMap Label.packets)
        (.initial picture) labels := by
      refine runMeets_of_forall_mem ?_ _
      intro label hlabel _ packet hpacket
      exact List.mem_flatMap.mpr ⟨label, hlabel, hpacket⟩
    exact run_invariant_of_meets
      (fun s label s' h hknown hstep => h.step (fun p q hp hq => hfree p hp q hq) hknown hstep)
      (inv_initial cfg _ picture) hmeets hrun
  refine ⟨hinv.exact, ?_, ?_⟩
  · intro shown hshown hstreak
    have hcounter := hinv.streak
    funext i
    by_cases hzero : cfg.refreshInterval = 0
    · exact hinv.fresh shown hshown i (s.encoder.frameCounter - 1) (by omega) (by omega)
        (Or.inl hzero)
    · obtain ⟨j, hstart, hend, hturn⟩ := exists_turn cfg.refreshInterval
        (s.encoder.frameCounter - cfg.refreshInterval) i.1 (Nat.pos_of_ne_zero hzero)
      exact hinv.fresh shown hshown i j (by omega) (by omega) (Or.inr hturn)
  · intro a hnone
    rcases encodeFrame_cases cfg s.encoder a with hcase | hcase
    · rw [hcase]
      exact ⟨rfl, rfl⟩
    · rw [hcase] at hnone
      cases hnone

/-- Two blocks, one of them coded; every second frame is the turn of each. -/
def twoBlocks : Config := ⟨2, 0, 1000, by decide, Or.inl rfl⟩

def oneCoded (packet : Packet) : Attempt 2 :=
  ⟨true, 0, fun i => if i = 0 then some packet else none, false⟩

/-- The second frame is lost; two more that change nothing bring the decoder back. -/
def lossyLabels : List (Label 2) :=
  [.encode (oneCoded [1, 0, 2, 16, 0, 0, 0, 0]) true,
    .encode (oneCoded [2, 0, 2, 32, 0, 0, 0, 0]) false,
    .encode (oneCoded [2, 0, 2, 48, 0, 0, 0, 0]) true,
    .encode (oneCoded [2, 0, 2, 64, 0, 0, 0, 0]) true]

theorem replenishment_exact_lossyLabels :
    CollisionFree lossyLabels ∧
      ∃ s, run (step twoBlocks) (.initial fun _ => none) lossyLabels = some s ∧
        s.streak = 2 ∧ s.lossless = false ∧ s.shown = some s.picture := by
  have hfree : CollisionFree lossyLabels := by
    unfold CollisionFree
    decide
  obtain ⟨s, hrun, hs⟩ := (Option.any_eq_true _ _).mp
    (show (run (step twoBlocks) (.initial fun _ => none) lossyLabels).any
      (fun s => s.streak == 2 && !s.lossless && s.shown.isSome) = true by rfl)
  simp only [Bool.and_eq_true, beq_iff_eq, Bool.not_eq_true'] at hs
  obtain ⟨⟨hstreak, hlossless⟩, hshown⟩ := hs
  obtain ⟨shown, hshown⟩ := Option.isSome_iff_exists.mp hshown
  have hexact := (replenishment_exact twoBlocks _ hfree hrun).2.1 shown hshown
    (by rw [hstreak]; decide)
  exact ⟨hfree, s, hrun, hstreak, hlossless, by rw [hexact, hshown]⟩

end LuminalShine.Pyrowave.Replenish
