import LuminalShine.Transport.Fec
import LuminalShine.Pyrowave.AdaptiveFec

/-!
# The largest frame of a session

`max_frame_bytes` of `src/pyrowave/contract.h` bounds what `encode_frame` hands out, so that
`videoBroadcastThread` can send it: the broadcast loop adds a header to each packet, cuts the
buffer into at most four blocks, and has ten bits for the index of a packet in its block.

## Main definitions

* `maxFrameBytes`, `validSession` — the source's functions.
* `Exact` — no step of the bound leaves its type.

## Main results

* `length_videoPayload_le` — the buffer of a frame within the bound.
* `planFec_not_tooLarge` — its plan, at any percentage.
-/

namespace LuminalShine.Pyrowave

open LuminalShine.Lib LuminalShine.Transport

/-! ## The contract -/

/-- `max_frame_bytes` -/
def maxFrameBytes (packetSize : ℤ) : UInt64 :=
  if packetSize < 256 ∨ 2048 < packetSize then 0
  else UInt64.ofNat (packetSize - 128).toNat * (4 * 1023) - 1024

/-- `max_target_bytes` -/
def maxTargetBytes (packetSize : ℤ) : UInt64 :=
  maxFrameBytes packetSize - maxFrameBytes packetSize / 4

/-- `frame_budget_bytes` -/
def frameBudgetBytes (kbps fps : ℤ) : UInt64 :=
  if kbps ≤ 0 ∨ fps ≤ 0 then 0
  else UInt64.ofNat kbps.toNat * 1000 / (UInt64.ofNat fps.toNat * 8)

/-- `valid_session` -/
def validSession (width height fps kbps packetSize : ℤ) : Bool :=
  decide (128 ≤ width) && decide (width ≤ 8192) && decide (128 ≤ height) &&
    decide (height ≤ 8192) && decide (width % 2 = 0) && decide (height % 2 = 0) &&
    decide (1 ≤ fps) && decide (fps ≤ 240) && decide (1 ≤ kbps) && decide (kbps ≤ 10000000) &&
    decide (maxTargetBytes packetSize > 0) &&
    decide (frameBudgetBytes kbps fps ≤ maxTargetBytes packetSize)

/-- The end of `encode_frame`: a frame over the bound is not handed out. -/
def boundOutput (maxOutputBytes : UInt64) (data : List UInt8) : List UInt8 :=
  if data.length > maxOutputBytes.toNat then [] else data

/-- The steps of `max_frame_bytes`: the difference as an `int`, the product as a 64-bit number,
and the last difference, with the value they come to. -/
structure Exact (packetSize : ℤ) : Prop where
  difference : 0 ≤ packetSize - 128 ∧ packetSize - 128 < 2 ^ 31
  product : (packetSize - 128) * (4 * 1023) < 2 ^ 64
  rest : 1024 ≤ (packetSize - 128) * (4 * 1023)
  value : ((maxFrameBytes packetSize).toNat : ℤ) = (packetSize - 128) * (4 * 1023) - 1024

/-- A valid session has a packet size the bound is made for. -/
theorem packetSize_of_validSession {width height fps kbps packetSize : ℤ}
    (h : validSession width height fps kbps packetSize = true) :
    256 ≤ packetSize ∧ packetSize ≤ 2048 := by
  simp only [validSession, Bool.and_eq_true, decide_eq_true_eq] at h
  have htarget := h.1.2
  by_contra hout
  have hnone : maxFrameBytes packetSize = 0 := if_pos (by omega)
  rw [maxTargetBytes, hnone] at htarget
  exact absurd htarget (by decide)

theorem exact_of_range {packetSize : ℤ} (h : 256 ≤ packetSize ∧ packetSize ≤ 2048) :
    Exact packetSize := by
  refine ⟨by omega, by omega, by omega, ?_⟩
  have hsize : (packetSize - 128).toNat < 2 ^ 64 := by omega
  have hproduct : (UInt64.ofNat (packetSize - 128).toNat * (4 * 1023)).toNat =
      (packetSize - 128).toNat * 4092 := by
    rw [UInt64.toNat_mul, UInt64.toNat_ofNat_of_lt' hsize,
      show (4 * 1023 : UInt64).toNat = 4092 from rfl, Nat.mod_eq_of_lt (by omega)]
  have hle : (1024 : UInt64) ≤ UInt64.ofNat (packetSize - 128).toNat * (4 * 1023) := by
    rw [UInt64.le_iff_toNat_le, hproduct, show (1024 : UInt64).toNat = 1024 from rfl]
    omega
  rw [maxFrameBytes, if_neg (by omega), UInt64.toNat_sub_of_le _ _ hle, hproduct,
    show (1024 : UInt64).toNat = 1024 from rfl]
  omega

/-! ## The broadcast loop -/

variable {packetsize : ℕ} {frame : List UInt8}

/-- **The buffer.**  A frame within the bound fills no more packets than four blocks hold. -/
theorem length_videoPayload_le (hsize : 256 ≤ packetsize)
    (hframe : frame.length ≤ (packetsize - 128) * (4 * 1023) - 1024) (isIdr rfi : Bool)
    (latency : UInt16) :
    (videoPayload packetsize isIdr rfi latency frame).length ≤
      4 * (1023 * (packetsize + maxRtpHeaderSize)) := by
  simp only [videoPayload, sizeofVideoPacketRaw, maxRtpHeaderSize, sizeofNvVideoPacket]
  set header := (frameHeader packetsize frame.length isIdr rfi latency).bytes
  have hheader : header.length = 8 := ShortFrameHeader.length_bytes _
  set slice := packetsize + 16 - (16 + 16) with hslice
  have hfill : Fills slice (sliceCount (header.length + frame.length) slice)
      (header.length + frame.length) := fills_sliceCount (by omega) (by omega)
  rw [length_concatAndInsert (by omega) (by omega)]
  set count := sliceCount (header.length + frame.length) slice
  have hcount : count ≤ 4 * 1023 := by
    have hlow : (count - 1) * slice < 4 * 1023 * slice := by
      refine Nat.lt_of_lt_of_le hfill.1 ?_
      rw [Nat.mul_comm _ slice]
      omega
    have := Nat.lt_of_mul_lt_mul_right hlow
    omega
  have hpackets : count * (packetsize + 16) ≤ 4 * 1023 * (packetsize + 16) :=
    Nat.mul_le_mul_right _ hcount
  have hblock : count * (packetsize + 16) = count * slice + count * (16 + 16) := by
    rw [← Nat.mul_add]
    congr 1
    omega
  have hhigh := hfill.2
  omega

/-- **The plan.**  A buffer of no more packets than four blocks hold is not too large, with FEC
as with FEC turned off. -/
theorem planFec_not_tooLarge {blocksize fecPercentage payloadSize : ℕ} (hb : 0 < blocksize)
    (hpos : 0 < payloadSize) (hpct : fecPercentage ≤ 255)
    (hsize : payloadSize ≤ 4 * (1023 * blocksize)) :
    (planFec blocksize fecPercentage payloadSize).tooLarge = false := by
  have hlimit := maxDataShardsPerFecBlock_pos hpct
  have hshards : maxDataShardsPerFecBlock fecPercentage ≤ 1023 := by
    rw [maxDataShardsPerFecBlock, dataShardsMax]
    exact Nat.le_trans (Nat.div_le_div_left (show 100 ≤ 100 + fecPercentage by omega) (by omega))
      (by decide)
  have hneeded : ∀ k, fecBlocksFor blocksize fecPercentage payloadSize ≤ k
      ↔ payloadSize ≤ k * (maxDataShardsPerFecBlock fecPercentage * blocksize) :=
    fun k => ceil_le_iff (Nat.mul_pos (by omega) hb)
  have hplan : ∀ n, 0 < n → payloadSize ≤ n * (1023 * blocksize) →
      ¬1024 ≤ alignedSizeFor blocksize payloadSize n / blocksize := by
    intro n hn hn'
    have haligned := alignedSizeFor_le hb hn hn'
    have hdiv : alignedSizeFor blocksize payloadSize n / blocksize ≤ 1023 :=
      Nat.div_le_of_le_mul (by rw [Nat.mul_comm]; exact haligned)
    omega
  by_cases hoff : maxFecBlocks < fecBlocksFor blocksize fecPercentage payloadSize
  · simpa [planFec, hoff] using hplan maxFecBlocks (by decide) hsize
  · have hle := (hneeded _).mp (Nat.le_refl (fecBlocksFor blocksize fecPercentage payloadSize))
    have hblocks : 0 < fecBlocksFor blocksize fecPercentage payloadSize := by
      by_contra hzero
      have := (hneeded 0).mp (by omega)
      omega
    have hroom : payloadSize ≤ fecBlocksFor blocksize fecPercentage payloadSize *
        (1023 * blocksize) :=
      Nat.le_trans hle (Nat.mul_le_mul_left _ (Nat.mul_le_mul_right _ hshards))
    simpa [planFec, hoff] using hplan _ hblocks hroom

/-- **The transport bound.**  In a valid session, a frame within the bound is cut into at most
four blocks of fewer than 1024 data shards, whatever the percentage; and the bound is computed
without leaving its types. -/
theorem maxFrameBytes_fits {width height fps kbps : ℤ} {packetsize fecPercentage : ℕ}
    (hvalid : validSession width height fps kbps packetsize = true) (hpct : fecPercentage ≤ 255)
    (isIdr rfi : Bool) (latency : UInt16) {frame : List UInt8}
    (hframe : frame.length ≤ (maxFrameBytes packetsize).toNat) :
    Exact packetsize ∧
      (planFec (packetsize + maxRtpHeaderSize) fecPercentage
        (videoPayload packetsize isIdr rfi latency frame).length).tooLarge = false ∧
      ∃ blocks, splitFec (planFec (packetsize + maxRtpHeaderSize) fecPercentage
          (videoPayload packetsize isIdr rfi latency frame).length)
          (videoPayload packetsize isIdr rfi latency frame) = some blocks ∧
        (1 ≤ blocks.length ∧ blocks.length ≤ 4) ∧
        ∀ block ∈ blocks, dataShards (packetsize + maxRtpHeaderSize) block.length < 1024 := by
  have hrange := packetSize_of_validSession hvalid
  have hexact := exact_of_range hrange
  have hvalue := hexact.value
  have hb : 0 < packetsize + maxRtpHeaderSize := Nat.succ_pos _
  have hadmits : announceAdmits packetsize = true := by
    simp only [announceAdmits, Bool.not_eq_true', Bool.or_eq_false_iff, decide_eq_false_iff_not]
    omega
  have hend : EndsInPacket (packetsize + maxRtpHeaderSize)
      (videoPayload packetsize isIdr rfi latency frame).length := endsInPacket_videoPayload hadmits
  have hbal := planFec_balanced hpct hend
  have hsmall := planFec_not_tooLarge hb (Nat.zero_lt_of_lt hbal.last_nonempty) hpct
    (length_videoPayload_le (by omega) (by omega) isIdr rfi latency)
  rcases hbal.splitFec_eq with ⟨k, hk, -, hsplit⟩
  refine ⟨hexact, hsmall, _, hsplit, ?_, fun block hmem =>
    dataShards_lt_of_not_tooLarge hb hpct hend hsplit hsmall hmem⟩
  have hblocks := hbal.blocks_le
  rw [hk, maxFecBlocks] at hblocks
  rw [length_cut]
  omega

/-- A small frame of a session at the usual packet size. -/
theorem maxFrameBytes_fits_small :
    Exact (1024 : ℕ) ∧
      (planFec 1040 20 (videoPayload 1024 true false 0 [1, 2, 3]).length).tooLarge = false ∧
      ∃ blocks, splitFec (planFec 1040 20 (videoPayload 1024 true false 0 [1, 2, 3]).length)
          (videoPayload 1024 true false 0 [1, 2, 3]) = some blocks ∧
        (1 ≤ blocks.length ∧ blocks.length ≤ 4) ∧
        ∀ block ∈ blocks, dataShards 1040 block.length < 1024 :=
  maxFrameBytes_fits (show validSession 1920 1080 60 65000 (1024 : ℕ) = true by decide)
    (show 20 ≤ 255 by decide) true false 0 (show [1, 2, 3].length ≤ _ by decide)

end LuminalShine.Pyrowave
