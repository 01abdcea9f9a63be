import LuminalShine.Transport.Packetize
import LuminalShine.Lib.Chunks
import Mathlib.Algebra.Group.Nat.Defs
import Mathlib.Algebra.Group.Int.Defs

/-!
# Forward error correction blocks

The packet buffer of a frame is cut into at most four blocks, and `fec::encode`
turns each block into data and parity shards of equal size.  What the receiver
learns about a block is one 32-bit word per packet, from which it recomputes the
number of parity shards.

* `planFec`, `splitFec` — the split of `videoBroadcastThread`, `substr` included;
* `fecEncode` — the shard counts and the effective percentage of `fec::encode`;
* `fecInfo` with `fecIndexOf`, `dataShardsOf`, `percentageOf` — the packed word
  and the receiver's view of it.

Sizes are natural numbers where the source computes with values far below the
word size; the arithmetic that a client-supplied minimum can drive out of range
is taken modulo `2 ^ 64` as the source's `size_t` is.
-/

namespace LuminalShine.Transport

open LuminalShine.Lib

/-! ## The split -/

/-- The packet size check of `cmd_announce`. -/
def announceAdmits (packetsize : ℤ) : Bool :=
  let kMinPacketSize : ℤ := 64
  let kMaxPacketSize : ℤ := 65535
  !(packetsize < kMinPacketSize || packetsize > kMaxPacketSize)

/-- `DATA_SHARDS_MAX` of the Reed-Solomon code. -/
def dataShardsMax : ℕ := 255

/-- There are two bits for the block count. -/
def maxFecBlocks : ℕ := 4

def maxDataShardsPerFecBlock (fecPercentage : ℕ) : ℕ := dataShardsMax * 100 / (100 + fecPercentage)

/-- What the loop decides about a frame before it cuts the buffer.  `tooLarge` is
the logged error. -/
structure FecPlan where
  fecPercentage : ℕ
  fecBlocksNeeded : ℕ
  alignedSize : ℕ
  tooLarge : Bool
  deriving DecidableEq, Repr

def fecBlocksFor (blocksize fecPercentage payloadSize : ℕ) : ℕ :=
  let maxDataPerFecBlock := maxDataShardsPerFecBlock fecPercentage * blocksize
  (payloadSize + (maxDataPerFecBlock - 1)) / maxDataPerFecBlock

def alignedSizeFor (blocksize payloadSize fecBlocksNeeded : ℕ) : ℕ :=
  (payloadSize / fecBlocksNeeded + (blocksize - 1)) / blocksize * blocksize

/-- A frame that needs more than four blocks is sent without FEC in four. -/
def planFec (blocksize fecPercentage payloadSize : ℕ) : FecPlan :=
  let needed := fecBlocksFor blocksize fecPercentage payloadSize
  let off := maxFecBlocks < needed
  let blocks := if off then maxFecBlocks else needed
  let aligned := alignedSizeFor blocksize payloadSize blocks
  { fecPercentage := if off then 0 else fecPercentage
    fecBlocksNeeded := blocks
    alignedSize := aligned
    tooLarge := 1024 ≤ aligned / blocksize }

/-- `std::string_view::substr`: out of range past the end, clamped in length. -/
def substr (xs : List UInt8) (pos : ℕ) (count : Option ℕ) : Option (List UInt8) :=
  if xs.length < pos then none
  else some (match count with
    | none => xs.drop pos
    | some n => (xs.drop pos).take n)

/-- The splitting loop; `none` is the exception `substr` raises. -/
def splitFec (plan : FecPlan) (payload : List UInt8) : Option (List (List UInt8)) :=
  (List.range plan.fecBlocksNeeded).mapM fun x =>
    if x = plan.fecBlocksNeeded - 1 then substr payload (x * plan.alignedSize) none
    else substr payload (x * plan.alignedSize) (some plan.alignedSize)

/-! ## `fec::encode` -/

/-- Conversion of an `int` to `size_t`. -/
def sizeT (x : ℤ) : ℕ := (x % (2 ^ 64 : ℤ)).toNat

/-- The counts of a `fec_t`. -/
structure FecShards where
  dataShards : ℕ
  parityShards : ℕ
  percentage : ℕ
  deriving DecidableEq, Repr

def dataShards (blocksize payloadSize : ℕ) : ℕ :=
  payloadSize / blocksize + if payloadSize % blocksize ≠ 0 then 1 else 0

def parityShards (dataShards fecpercentage : ℕ) : ℕ := (dataShards * fecpercentage + 99) / 100

/-- The percentage is raised when it does not give the requested minimum. -/
def fecEncode (payloadSize blocksize fecpercentage minparityshards : ℕ) : FecShards :=
  let data := dataShards blocksize payloadSize
  let parity := parityShards data fecpercentage
  if parity < minparityshards ∧ fecpercentage ≠ 0 then
    { dataShards := data
      parityShards := minparityshards
      percentage := 100 * minparityshards % 2 ^ 64 / data }
  else { dataShards := data, parityShards := parity, percentage := fecpercentage }

/-- The word the loop stores in the packet of shard `x`. -/
def fecInfo (x : ℕ) (shards : FecShards) : ℕ :=
  (x <<< 12 ||| shards.dataShards <<< 22 ||| shards.percentage <<< 4) % 2 ^ 32

def fecIndexOf (word : ℕ) : ℕ := (word >>> 12) % 2 ^ 10

def dataShardsOf (word : ℕ) : ℕ := (word >>> 22) % 2 ^ 10

def percentageOf (word : ℕ) : ℕ := (word >>> 4) % 2 ^ 8

/-! ## The split puts the buffer back together -/

theorem substr_of_le {xs : List UInt8} {pos : ℕ} (h : pos ≤ xs.length) (count : Option ℕ) :
    substr xs pos count = some (match count with
      | none => xs.drop pos
      | some n => (xs.drop pos).take n) := by
  simp only [substr, if_neg (Nat.not_lt.mpr h)]

/-- When the last block starts inside the buffer the loop computes `cut`. -/
theorem splitFec_eq_cut {plan : FecPlan} {payload : List UInt8} {k : ℕ}
    (hk : plan.fecBlocksNeeded = k + 1) (h : k * plan.alignedSize ≤ payload.length) :
    splitFec plan payload = some (cut payload plan.alignedSize k) := by
  have hinner : ∀ x ∈ List.range k, x * plan.alignedSize ≤ payload.length := by
    intro x hx
    exact Nat.le_trans (Nat.mul_le_mul_right _ (Nat.le_of_lt (List.mem_range.mp hx))) h
  have hfirst : (List.range k).mapM (fun x =>
      if x = k then substr payload (x * plan.alignedSize) none
      else substr payload (x * plan.alignedSize) (some plan.alignedSize))
        = some ((List.range k).map (window payload plan.alignedSize)) := by
    refine mapM_eq_some_map _ fun x hx => ?_
    rw [if_neg (Nat.ne_of_lt (List.mem_range.mp hx)), substr_of_le (hinner x hx)]
    rfl
  simp only [splitFec, hk, Nat.add_sub_cancel]
  rw [List.range_succ, List.mapM_append, hfirst]
  simp [substr_of_le h, cut]

theorem dataShards_le_iff {blocksize payloadSize k : ℕ} (hb : 0 < blocksize) :
    dataShards blocksize payloadSize ≤ k ↔ payloadSize ≤ k * blocksize := by
  have hdiv := Nat.div_add_mod payloadSize blocksize
  have hmod := Nat.mod_lt payloadSize hb
  have hceil : dataShards blocksize payloadSize = (payloadSize + (blocksize - 1)) / blocksize := by
    simp only [dataShards]
    symm
    split
    · rw [Nat.div_eq_iff hb, Nat.add_mul, Nat.mul_comm]
      omega
    · rw [Nat.div_eq_iff hb, Nat.add_zero, Nat.mul_comm]
      omega
  rw [hceil, ceil_le_iff hb]

/-! ## Sizes of the blocks -/

/-- The buffer is whole blocks followed by one that holds more than a header. -/
def EndsInPacket (blocksize payloadSize : ℕ) : Prop :=
  ∃ q t, payloadSize = q * blocksize + t ∧ sizeofVideoPacketRaw < t ∧ t ≤ blocksize

/-- The last of at most four blocks is no longer than the others: rounding the
quotient down loses at most three bytes, fewer than any packet has. -/
theorem le_mul_alignedSizeFor {blocksize payloadSize n : ℕ} (hn : 0 < n) (hn4 : n ≤ maxFecBlocks)
    (hend : EndsInPacket blocksize payloadSize) :
    payloadSize ≤ n * alignedSizeFor blocksize payloadSize n := by
  obtain ⟨q, t, hsize, hlow, hhigh⟩ := hend
  simp only [sizeofVideoPacketRaw, maxRtpHeaderSize, sizeofNvVideoPacket] at hlow
  have hb : 0 < blocksize := by omega
  set a := (payloadSize / n + (blocksize - 1)) / blocksize with ha
  have hround : payloadSize / n ≤ a * blocksize := (ceil_le_iff hb).mp (Nat.le_of_eq ha.symm)
  have hdiv := Nat.div_add_mod payloadSize n
  have hmod := Nat.mod_lt payloadSize hn
  have hlost : payloadSize ≤ n * a * blocksize + 3 := by
    have hmul := Nat.mul_le_mul_left n hround
    rw [← Nat.mul_assoc] at hmul
    simp only [maxFecBlocks] at hn4
    omega
  have hq : q < n * a := by
    by_contra hge
    have := Nat.mul_le_mul_right blocksize (Nat.le_of_not_lt hge)
    omega
  have hnext := Nat.mul_le_mul_right blocksize (Nat.succ_le_of_lt hq)
  rw [Nat.succ_mul] at hnext
  rw [alignedSizeFor, ← ha, ← Nat.mul_assoc]
  omega

/-- What the split needs to know about a plan. -/
structure Balanced (blocksize payloadSize : ℕ) (plan : FecPlan) : Prop where
  blocks_pos : 0 < plan.fecBlocksNeeded
  blocks_le : plan.fecBlocksNeeded ≤ maxFecBlocks
  aligned_eq : plan.alignedSize = alignedSizeFor blocksize payloadSize plan.fecBlocksNeeded
  last_nonempty : (plan.fecBlocksNeeded - 1) * plan.alignedSize < payloadSize

theorem maxDataShardsPerFecBlock_pos {fecPercentage : ℕ} (h : fecPercentage ≤ 255) :
    71 ≤ maxDataShardsPerFecBlock fecPercentage := by
  rw [maxDataShardsPerFecBlock, dataShardsMax, Nat.le_div_iff_mul_le (by omega)]
  omega

/-- With FEC on, the aligned size stays within the limit of a block. -/
theorem alignedSizeFor_le {blocksize payloadSize limit n : ℕ} (hb : 0 < blocksize) (hn : 0 < n)
    (h : payloadSize ≤ n * (limit * blocksize)) :
    alignedSizeFor blocksize payloadSize n ≤ limit * blocksize := by
  have hdiv : payloadSize / n ≤ limit * blocksize := by
    rw [Nat.div_le_iff_le_mul_add_pred hn]
    omega
  exact Nat.mul_le_mul_right _ ((ceil_le_iff hb).mpr hdiv)

theorem planFec_balanced {blocksize fecPercentage payloadSize : ℕ} (hpct : fecPercentage ≤ 255)
    (hend : EndsInPacket blocksize payloadSize) :
    Balanced blocksize payloadSize (planFec blocksize fecPercentage payloadSize) := by
  obtain ⟨q, t, hsize, hlow, hhigh⟩ := hend
  simp only [sizeofVideoPacketRaw, maxRtpHeaderSize, sizeofNvVideoPacket] at hlow
  have hb : 0 < blocksize := by omega
  have hlimit := maxDataShardsPerFecBlock_pos hpct
  set limit := maxDataShardsPerFecBlock fecPercentage with hl
  have hblock : 0 < limit * blocksize := Nat.mul_pos (by omega) hb
  have hneeded : ∀ k, fecBlocksFor blocksize fecPercentage payloadSize ≤ k
      ↔ payloadSize ≤ k * (limit * blocksize) := fun k => ceil_le_iff hblock
  by_cases hoff : maxFecBlocks < fecBlocksFor blocksize fecPercentage payloadSize
  · -- Without FEC: four blocks of a frame of more than 284 packets.
    have hbig : 4 * (limit * blocksize) < payloadSize :=
      Nat.lt_of_not_le fun hle => absurd ((hneeded 4).mpr hle) (Nat.not_le.mpr hoff)
    have hpackets : 284 * blocksize ≤ 4 * (limit * blocksize) := by
      rw [← Nat.mul_assoc]
      exact Nat.mul_le_mul_right _ (by omega)
    have haligned : alignedSizeFor blocksize payloadSize 4 ≤ payloadSize / 4 + (blocksize - 1) :=
      Nat.div_mul_le_self _ _
    simp only [planFec, if_pos hoff]
    exact ⟨Nat.succ_pos 3, Nat.le_refl _, rfl, by simp only [maxFecBlocks]; omega⟩
  · have hle : fecBlocksFor blocksize fecPercentage payloadSize ≤ maxFecBlocks :=
      Nat.le_of_not_lt hoff
    set n := fecBlocksFor blocksize fecPercentage payloadSize with hn
    have hpos : 0 < n := by
      by_contra hzero
      have := (hneeded 0).mp (by omega)
      omega
    have hover : (n - 1) * (limit * blocksize) < payloadSize := by
      by_contra hge
      have := (hneeded (n - 1)).mpr (Nat.le_of_not_lt hge)
      omega
    have haligned : alignedSizeFor blocksize payloadSize n ≤ limit * blocksize :=
      alignedSizeFor_le hb hpos ((hneeded n).mp (Nat.le_refl n))
    simp only [planFec, if_neg hoff, ← hn]
    exact ⟨hpos, hle, rfl, Nat.lt_of_le_of_lt (Nat.mul_le_mul_left _ haligned) hover⟩

/-- While FEC stays on, a block keeps to the shards its parity leaves room for. -/
theorem planFec_alignedSize_le {blocksize fecPercentage payloadSize : ℕ} (hb : 0 < blocksize)
    (hpct : fecPercentage ≤ 255) (hpos : 0 < payloadSize)
    (hon : (planFec blocksize fecPercentage payloadSize).fecPercentage ≠ 0) :
    (planFec blocksize fecPercentage payloadSize).alignedSize
      ≤ maxDataShardsPerFecBlock fecPercentage * blocksize := by
  have hlimit := maxDataShardsPerFecBlock_pos hpct
  have hneeded : ∀ k, fecBlocksFor blocksize fecPercentage payloadSize ≤ k
      ↔ payloadSize ≤ k * (maxDataShardsPerFecBlock fecPercentage * blocksize) :=
    fun k => ceil_le_iff (Nat.mul_pos (by omega) hb)
  by_cases hoff : maxFecBlocks < fecBlocksFor blocksize fecPercentage payloadSize
  · simp [planFec, hoff] at hon
  · simp only [planFec, if_neg hoff]
    refine alignedSizeFor_le hb ?_ ((hneeded _).mp (Nat.le_refl _))
    by_contra hzero
    have := (hneeded 0).mp (by omega)
    omega

/-- A balanced plan never takes the loop past the end of the buffer. -/
theorem Balanced.splitFec_eq {blocksize : ℕ} {payload : List UInt8} {plan : FecPlan}
    (h : Balanced blocksize payload.length plan) :
    ∃ k, plan.fecBlocksNeeded = k + 1 ∧ k * plan.alignedSize < payload.length ∧
      splitFec plan payload = some (cut payload plan.alignedSize k) := by
  obtain ⟨k, hk⟩ : ∃ k, plan.fecBlocksNeeded = k + 1 := Nat.exists_eq_add_one.mpr h.blocks_pos
  have hlast := h.last_nonempty
  rw [hk, Nat.add_sub_cancel] at hlast
  exact ⟨k, hk, hlast, splitFec_eq_cut hk (Nat.le_of_lt hlast)⟩

/-- Every block of a balanced plan is non-empty and within the aligned size. -/
theorem Balanced.length_block {blocksize : ℕ} {payload : List UInt8} {plan : FecPlan}
    (h : Balanced blocksize payload.length plan) (hend : EndsInPacket blocksize payload.length)
    {blocks : List (List UInt8)} (hsplit : splitFec plan payload = some blocks)
    {block : List UInt8} (hmem : block ∈ blocks) :
    0 < block.length ∧ block.length ≤ plan.alignedSize := by
  obtain ⟨k, hk, hlast, hcut⟩ := h.splitFec_eq
  obtain rfl : cut payload plan.alignedSize k = blocks := Option.some.inj (hcut.symm.trans hsplit)
  have hcover : payload.length ≤ (k + 1) * plan.alignedSize := by
    rw [h.aligned_eq, hk]
    exact le_mul_alignedSizeFor (Nat.succ_pos k) (hk ▸ h.blocks_le) hend
  rw [Nat.succ_mul] at hcover
  rcases mem_cut hmem with ⟨x, hx, rfl⟩ | rfl
  · have hin : (x + 1) * plan.alignedSize ≤ k * plan.alignedSize := Nat.mul_le_mul_right _ hx
    rw [length_window (by omega)]
    omega
  · rw [List.length_drop]
    omega

section Frame

variable {packetsize fecPercentage : ℕ} {isIdr rfi : Bool} {latency : UInt16}
  {payload : List UInt8}

theorem endsInPacket_videoPayload (hp : announceAdmits packetsize = true) :
    EndsInPacket (packetsize + maxRtpHeaderSize)
      (videoPayload packetsize isIdr rfi latency payload).length := by
  have hmin : 64 ≤ packetsize := by
    simp only [announceAdmits, Bool.not_eq_true', Bool.or_eq_false_iff, decide_eq_false_iff_not]
      at hp
    omega
  exact length_videoPayload hmin isIdr rfi latency payload

variable {buffer : List UInt8} {blocksize : ℕ} {blocks : List (List UInt8)} {block : List UInt8}

/-- While FEC is on, a block leaves room for its parity shards. -/
theorem dataShards_le_of_on (hb : 0 < blocksize) (hpct : fecPercentage ≤ 255)
    (hend : EndsInPacket blocksize buffer.length)
    (hsplit : splitFec (planFec blocksize fecPercentage buffer.length) buffer = some blocks)
    (hon : (planFec blocksize fecPercentage buffer.length).fecPercentage ≠ 0)
    (hmem : block ∈ blocks) :
    dataShards blocksize block.length ≤ 25500 / (100 + fecPercentage) := by
  have hbal := planFec_balanced hpct hend
  have hpos : 0 < buffer.length := Nat.zero_lt_of_lt hbal.last_nonempty
  rw [dataShards_le_iff hb]
  exact Nat.le_trans (hbal.length_block hend hsplit hmem).2
    (planFec_alignedSize_le hb hpct hpos hon)

/-- A frame that is not too large has fewer than 1024 data shards in every block. -/
theorem dataShards_lt_of_not_tooLarge (hb : 0 < blocksize) (hpct : fecPercentage ≤ 255)
    (hend : EndsInPacket blocksize buffer.length)
    (hsplit : splitFec (planFec blocksize fecPercentage buffer.length) buffer = some blocks)
    (hsmall : (planFec blocksize fecPercentage buffer.length).tooLarge = false)
    (hmem : block ∈ blocks) :
    dataShards blocksize block.length < 1024 := by
  have hbal := planFec_balanced hpct hend
  set plan := planFec blocksize fecPercentage buffer.length with hplan
  have hshards : plan.alignedSize / blocksize < 1024 := by
    simpa [hplan, planFec] using hsmall
  have haligned : plan.alignedSize = plan.alignedSize / blocksize * blocksize := by
    rw [hbal.aligned_eq, alignedSizeFor, Nat.mul_div_cancel _ hb]
  refine Nat.lt_of_le_of_lt ((dataShards_le_iff hb).mpr ?_) hshards
  rw [← haligned]
  exact (hbal.length_block hend hsplit hmem).2

theorem planFec_fecPercentage (payloadSize : ℕ)
    (hon : (planFec blocksize fecPercentage payloadSize).fecPercentage ≠ 0) :
    (planFec blocksize fecPercentage payloadSize).fecPercentage = fecPercentage := by
  simp only [planFec] at hon ⊢
  split at hon
  · exact absurd rfl hon
  · exact if_neg (by assumption)

end Frame

/-- **The block split of a frame.**  For every frame, admitted packet size and
configured percentage the loop cuts the packet buffer into one to four non-empty
blocks whose concatenation is the buffer and whose boundaries are multiples of the
block size.  While FEC is on, each block leaves room for its parity shards; a frame
that is not reported as too large has fewer than 1024 data shards in every block. -/
theorem splitFec_sound {packetsize fecPercentage : ℕ} (hp : announceAdmits packetsize = true)
    (hhigh : fecPercentage ≤ 255) (isIdr rfi : Bool) (latency : UInt16) (payload : List UInt8) :
    let blocksize := packetsize + maxRtpHeaderSize
    let buffer := videoPayload packetsize isIdr rfi latency payload
    let plan := planFec blocksize fecPercentage buffer.length
    ∃ blocks, splitFec plan buffer = some blocks ∧
      (1 ≤ blocks.length ∧ blocks.length ≤ 4) ∧
      blocks.flatten = buffer ∧
      (∀ j < blocks.length, blocksize ∣ (blocks.take j).flatten.length) ∧
      (∀ block ∈ blocks, block ≠ []) ∧
      (plan.fecPercentage ≠ 0 → plan.fecPercentage = fecPercentage ∧
        ∀ block ∈ blocks, dataShards blocksize block.length ≤ 25500 / (100 + fecPercentage)) ∧
      (plan.tooLarge = false → ∀ block ∈ blocks, dataShards blocksize block.length < 1024) := by
  intro blocksize buffer plan
  have hend : EndsInPacket blocksize buffer.length := endsInPacket_videoPayload hp
  have hb : 0 < blocksize := Nat.succ_pos _
  have hbal : Balanced blocksize buffer.length plan := planFec_balanced hhigh hend
  obtain ⟨k, hk, hlast, hsplit⟩ := hbal.splitFec_eq
  refine ⟨cut buffer plan.alignedSize k, hsplit, ?_, flatten_cut _ _ _, ?_, ?_, ?_, ?_⟩
  · have := hbal.blocks_le
    rw [hk, maxFecBlocks] at this
    rw [length_cut]
    omega
  · intro j hj
    rw [length_cut] at hj
    have hjk : j ≤ k := Nat.lt_succ_iff.mp hj
    rw [flatten_take_cut hjk, List.length_take, Nat.min_eq_left
      (Nat.le_trans (Nat.mul_le_mul_right _ hjk) (Nat.le_of_lt hlast)), hbal.aligned_eq]
    exact Nat.dvd_mul_left_of_dvd (Nat.dvd_mul_left _ _) _
  · intro block hmem
    exact List.ne_nil_of_length_pos (hbal.length_block hend hsplit hmem).1
  · intro hon
    exact ⟨planFec_fecPercentage _ hon,
      fun block hmem => dataShards_le_of_on hb hhigh hend hsplit hon hmem⟩
  · intro hsmall block hmem
    exact dataShards_lt_of_not_tooLarge hb hhigh hend hsplit hsmall hmem

/-- A frame of 496 packets is cut into three blocks. -/
theorem splitFec_sound_at_defaults :
    let buffer := videoPayload 1024 true false 0 (List.replicate 499960 0)
    announceAdmits (1024 : ℕ) = true ∧ 20 ≤ 255 ∧
      ∃ blocks, splitFec (planFec 1040 20 buffer.length) buffer = some blocks ∧
        blocks.length = 3 ∧ blocks.flatten = buffer ∧
        ∀ block ∈ blocks, dataShards 1040 block.length ≤ 212 := by
  intro buffer
  have hlength : buffer.length = 515840 := by
    simp only [buffer, videoPayload]
    rw [length_concatAndInsert (by decide) (by rw [ShortFrameHeader.length_bytes]; omega),
      ShortFrameHeader.length_bytes, List.length_replicate]
    decide
  have hplan : planFec 1040 20 buffer.length = ⟨20, 3, 172640, false⟩ := by
    rw [hlength]
    decide
  obtain ⟨blocks, hsplit, -, hflat, -, -, hon, -⟩ := @splitFec_sound 1024 20 (by decide)
    (by decide) true false 0 (List.replicate 499960 0)
  have hcut : splitFec (planFec 1040 20 buffer.length) buffer = some (cut buffer 172640 2) := by
    rw [hplan]
    exact splitFec_eq_cut rfl (by rw [hlength]; decide)
  have hblocks : blocks.length = 3 := by
    rw [← Option.some.inj (hcut.symm.trans hsplit), length_cut]
  exact ⟨by decide, by decide, blocks, hsplit, hblocks, hflat,
    (hon (by change (planFec 1040 20 buffer.length).fecPercentage ≠ 0; rw [hplan]; decide)).2⟩

/-! ## What the receiver learns -/

/-- The parity shards a receiver expects, from the word of one packet. -/
def receivedParityShards (word : ℕ) : ℕ := parityShards (dataShardsOf word) (percentageOf word)

/-- Every shard's word decodes to what was encoded, and the receiver expects the
parity shards that were sent. -/
structure MetadataAgrees (shards : FecShards) : Prop where
  percentage_lt : shards.percentage < 2 ^ 8
  index_eq : ∀ x < shards.dataShards + shards.parityShards, fecIndexOf (fecInfo x shards) = x
  dataShards_eq : ∀ x < shards.dataShards + shards.parityShards,
    dataShardsOf (fecInfo x shards) = shards.dataShards
  percentage_eq : ∀ x < shards.dataShards + shards.parityShards,
    percentageOf (fecInfo x shards) = shards.percentage
  parity_eq : ∀ x < shards.dataShards + shards.parityShards,
    receivedParityShards (fecInfo x shards) = shards.parityShards

/-- Fields that fit are added, not mixed. -/
theorem fecInfo_eq {x : ℕ} {shards : FecShards} (hx : x < 2 ^ 10)
    (hdata : shards.dataShards < 2 ^ 10) (hpct : shards.percentage < 2 ^ 8) :
    fecInfo x shards = shards.dataShards * 2 ^ 22 + (x * 2 ^ 12 + shards.percentage * 2 ^ 4) := by
  have hlow : x <<< 12 ||| shards.percentage <<< 4 = x * 2 ^ 12 + shards.percentage * 2 ^ 4 := by
    rw [← Nat.shiftLeft_add_eq_or_of_lt (by rw [Nat.shiftLeft_eq]; omega), Nat.shiftLeft_eq,
      Nat.shiftLeft_eq]
  have hword : x <<< 12 ||| shards.dataShards <<< 22 ||| shards.percentage <<< 4
      = shards.dataShards * 2 ^ 22 + (x * 2 ^ 12 + shards.percentage * 2 ^ 4) := by
    rw [Nat.or_comm (x <<< 12), Nat.or_assoc, hlow,
      ← Nat.shiftLeft_add_eq_or_of_lt (by omega), Nat.shiftLeft_eq]
  rw [fecInfo, hword]
  omega

/-- Counts that fit the fields and a percentage that gives the parity are enough. -/
theorem metadataAgrees_of_fits {shards : FecShards} (hpct : shards.percentage < 2 ^ 8)
    (htotal : shards.dataShards + shards.parityShards < 2 ^ 10)
    (hparity : parityShards shards.dataShards shards.percentage = shards.parityShards) :
    MetadataAgrees shards := by
  have hword : ∀ x < shards.dataShards + shards.parityShards, fecInfo x shards
      = shards.dataShards * 2 ^ 22 + (x * 2 ^ 12 + shards.percentage * 2 ^ 4) :=
    fun x hx => fecInfo_eq (by omega) (by omega) hpct
  have hdata : ∀ x < shards.dataShards + shards.parityShards,
      dataShardsOf (fecInfo x shards) = shards.dataShards := by
    intro x hx
    rw [hword x hx, dataShardsOf, Nat.shiftRight_eq_div_pow]
    omega
  have hpercentage : ∀ x < shards.dataShards + shards.parityShards,
      percentageOf (fecInfo x shards) = shards.percentage := by
    intro x hx
    rw [hword x hx, percentageOf, Nat.shiftRight_eq_div_pow]
    omega
  refine ⟨hpct, fun x hx => ?_, hdata, hpercentage, fun x hx => ?_⟩
  · rw [hword x hx, fecIndexOf, Nat.shiftRight_eq_div_pow]
    omega
  · rw [receivedParityShards, hdata x hx, hpercentage x hx, hparity]

/-- A client minimum the metadata can carry: the percentage meets it already, or
raising the percentage to it fits the code and loses nothing to rounding. -/
def MinimumCarried (dataShards fecPercentage minparityshards : ℕ) : Prop :=
  minparityshards ≤ parityShards dataShards fecPercentage ∨
    (dataShards + minparityshards ≤ 255 ∧ 100 * minparityshards < 256 * dataShards ∧
      100 * minparityshards % dataShards < 100)

theorem fecEncode_agrees_of_on {payloadSize blocksize fecPercentage minparityshards : ℕ}
    (hpct : fecPercentage ≤ 255)
    (hdata : dataShards blocksize payloadSize ≤ 25500 / (100 + fecPercentage))
    (hmin : MinimumCarried (dataShards blocksize payloadSize) fecPercentage minparityshards) :
    let shards := fecEncode payloadSize blocksize fecPercentage minparityshards
    shards.dataShards + shards.parityShards ≤ 255 ∧ MetadataAgrees shards := by
  intro shards
  rw [Nat.le_div_iff_mul_le (by omega), Nat.mul_add] at hdata
  set data := dataShards blocksize payloadSize with hd
  by_cases hraise : parityShards data fecPercentage < minparityshards ∧ fecPercentage ≠ 0
  · obtain ⟨hsum, hfits, hround⟩ := hmin.resolve_left (Nat.not_le.mpr hraise.1)
    have hwrap : 100 * minparityshards % 2 ^ 64 = 100 * minparityshards :=
      Nat.mod_eq_of_lt (by omega)
    have hshards : shards = ⟨data, minparityshards, 100 * minparityshards / data⟩ := by
      simp only [shards, fecEncode, ← hd, if_pos hraise, hwrap]
    have hdiv := Nat.div_add_mod (100 * minparityshards) data
    rw [hshards]
    refine ⟨hsum, metadataAgrees_of_fits ?_ (by dsimp only; omega) ?_⟩
    · exact Nat.div_lt_of_lt_mul (by omega)
    · dsimp only [parityShards]
      omega
  · have hshards : shards = ⟨data, parityShards data fecPercentage, fecPercentage⟩ := by
      simp only [shards, fecEncode, ← hd, if_neg hraise]
    have hsum : data + parityShards data fecPercentage ≤ 255 := by
      rw [parityShards]
      omega
    rw [hshards]
    exact ⟨hsum, metadataAgrees_of_fits (by dsimp only; omega) (by dsimp only; omega) rfl⟩

/-- Without FEC no parity is sent whatever the client asks for. -/
theorem fecEncode_agrees_of_off {payloadSize blocksize minparityshards : ℕ}
    (hdata : dataShards blocksize payloadSize < 1024) :
    let shards := fecEncode payloadSize blocksize 0 minparityshards
    (shards.parityShards = 0 ∧ shards.percentage = 0) ∧ MetadataAgrees shards := by
  intro shards
  have hshards : shards = ⟨dataShards blocksize payloadSize, 0, 0⟩ := by
    simp [shards, fecEncode, parityShards]
  rw [hshards]
  exact ⟨⟨rfl, rfl⟩, metadataAgrees_of_fits (Nat.two_pow_pos 8) (by simpa using hdata)
    (by simp [parityShards])⟩

/-- **Metadata agreement.**  For every admitted session, every block of every frame
and every minimum the client sends: with FEC on and a minimum the metadata can
carry, the block has at most 255 shards and the receiver decodes what was sent and
expects the parity that was sent; a frame sent without FEC that is not too large
has no parity, and the receiver decodes that. -/
theorem fecInfo_agrees {packetsize fecPercentage : ℕ} (hp : announceAdmits packetsize = true)
    (hhigh : fecPercentage ≤ 255) (minRequiredFecPackets : ℤ) (isIdr rfi : Bool)
    (latency : UInt16) (payload : List UInt8) :
    let blocksize := packetsize + maxRtpHeaderSize
    let buffer := videoPayload packetsize isIdr rfi latency payload
    let plan := planFec blocksize fecPercentage buffer.length
    ∀ blocks, splitFec plan buffer = some blocks → ∀ block ∈ blocks,
      let shards := fecEncode block.length blocksize plan.fecPercentage
        (sizeT minRequiredFecPackets)
      (plan.fecPercentage ≠ 0 →
        MinimumCarried (dataShards blocksize block.length) fecPercentage
          (sizeT minRequiredFecPackets) →
        shards.dataShards + shards.parityShards ≤ 255 ∧ MetadataAgrees shards) ∧
      (plan.fecPercentage = 0 → plan.tooLarge = false →
        (shards.parityShards = 0 ∧ shards.percentage = 0) ∧ MetadataAgrees shards) := by
  intro blocksize buffer plan blocks hsplit block hmem shards
  have hend : EndsInPacket blocksize buffer.length := endsInPacket_videoPayload hp
  have hb : 0 < blocksize := Nat.succ_pos _
  constructor
  · intro hon hmin
    have hpct : plan.fecPercentage = fecPercentage := planFec_fecPercentage _ hon
    simp only [shards, hpct]
    exact fecEncode_agrees_of_on hhigh (dataShards_le_of_on hb hhigh hend hsplit hon hmem) hmin
  · intro hoff hsmall
    simp only [shards, hoff]
    exact fecEncode_agrees_of_off
      (dataShards_lt_of_not_tooLarge hb hhigh hend hsplit hsmall hmem)

/-- A one-packet frame whose client asks for two parity packets at 20 percent: the
percentage is raised to 200. -/
theorem fecInfo_agrees_raised :
    announceAdmits (1024 : ℕ) = true ∧ 20 ≤ 255 ∧
      splitFec (planFec 1040 20 43) (videoPayload 1024 true false 0 [1, 2, 3])
        = some [videoPayload 1024 true false 0 [1, 2, 3]] ∧
      MinimumCarried 1 20 (sizeT 2) ∧
      MetadataAgrees (fecEncode 43 1040 20 (sizeT 2)) ∧
      fecEncode 43 1040 20 (sizeT 2) = ⟨1, 2, 200⟩ := by
  have hmin : MinimumCarried 1 20 (sizeT 2) := .inr (by decide)
  have hsplit : splitFec (planFec 1040 20 43) (videoPayload 1024 true false 0 [1, 2, 3])
      = some [videoPayload 1024 true false 0 [1, 2, 3]] := by decide
  have hlength : (videoPayload 1024 true false 0 [1, 2, 3]).length = 43 := by decide
  have h := @fecInfo_agrees 1024 20 (by decide) (by decide) 2 true false 0 [1, 2, 3]
  simp only [maxRtpHeaderSize, hlength, Nat.reduceAdd] at h
  have hagrees := (h _ hsplit _ List.mem_cons_self).1 (by decide)
  rw [hlength] at hagrees
  exact ⟨by decide, by decide, hsplit, hmin, (hagrees hmin).2, by decide⟩

/-- A frame of 1100 packets at 20 percent is sent without FEC, and its blocks have
more than 255 data shards. -/
theorem fecShards_exceed_code :
    let payload := List.replicate 52792 (0 : UInt8)
    let buffer := videoPayload 64 true false 0 payload
    let plan := planFec 80 20 buffer.length
    announceAdmits (64 : ℕ) = true ∧ plan.tooLarge = false ∧
      ∃ blocks, splitFec plan buffer = some blocks ∧
        ∃ block ∈ blocks, ¬ (fecEncode block.length 80 plan.fecPercentage (sizeT 0)).dataShards
          + (fecEncode block.length 80 plan.fecPercentage (sizeT 0)).parityShards ≤ 255 := by
  intro payload buffer plan
  have hlength : buffer.length = 88000 := by
    simp only [buffer, videoPayload]
    rw [length_concatAndInsert (by decide) (by rw [ShortFrameHeader.length_bytes]; omega),
      ShortFrameHeader.length_bytes,
      List.length_replicate]
    decide
  have hplan : plan = ⟨0, 4, 22000, false⟩ := by
    simp only [plan, hlength]
    decide
  have hsplit : splitFec plan buffer = some (cut buffer 22000 3) := by
    rw [hplan]
    exact splitFec_eq_cut rfl (by rw [hlength]; decide)
  refine ⟨by decide, by rw [hplan], _, hsplit, window buffer 22000 0, ?_, ?_⟩
  · exact List.mem_append_left _ (List.mem_map_of_mem (by decide))
  · rw [length_window (by rw [hlength]; decide), hplan]
    decide

end LuminalShine.Transport
