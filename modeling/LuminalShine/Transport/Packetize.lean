import Mathlib.Data.List.Basic

/-!
# From an encoded frame to one packet buffer

The broadcast loop of `src/stream.cpp` puts a short frame header in front of an
encoded frame and leaves room for an RTP and a video packet header before every
slice of it.  `concatAndInsert` is the function that builds this buffer in one
pass over the two inputs; `slices` is what it is for, and `concatAndInsert_eq`
says that the pass computes it.

The sizes of the wire structures are those of moonlight-common-c's `Video.h`.
-/

namespace LuminalShine.Transport

/-- `sizeof(NV_VIDEO_PACKET)`. -/
def sizeofNvVideoPacket : ℕ := 16

/-- `MAX_RTP_HEADER_SIZE`: the RTP header and its four reserved bytes. -/
def maxRtpHeaderSize : ℕ := 16

/-- `sizeof(video_packet_raw_t)`. -/
def sizeofVideoPacketRaw : ℕ := maxRtpHeaderSize + sizeofNvVideoPacket

/-- `video_short_frame_header_t`; the two `unknown` bytes stay zero. -/
structure ShortFrameHeader where
  headerType : UInt8
  frameProcessingLatency : UInt16
  frameType : UInt8
  lastPayloadLen : UInt16
  deriving DecidableEq, Repr

/-- The eight bytes on the wire; both 16-bit fields are little endian. -/
def ShortFrameHeader.bytes (h : ShortFrameHeader) : List UInt8 :=
  [h.headerType, h.frameProcessingLatency.toUInt8, (h.frameProcessingLatency >>> 8).toUInt8,
    h.frameType, h.lastPayloadLen.toUInt8, (h.lastPayloadLen >>> 8).toUInt8, 0, 0]

@[simp] theorem ShortFrameHeader.length_bytes (h : ShortFrameHeader) : h.bytes.length = 8 := rfl

/-- The length of the last packet's payload, a full packet when it comes out even.  The
field is 16 bits wide, and it is the field that is compared with zero. -/
def lastPayloadLen (packetsize headerSize payloadSize : ℕ) : UInt16 :=
  let rest := UInt16.ofNat ((payloadSize + headerSize) % (packetsize - sizeofNvVideoPacket))
  if rest = 0 then UInt16.ofNat (packetsize - sizeofNvVideoPacket) else rest

/-- The header the loop builds for a frame of `payloadSize` bytes. -/
def frameHeader (packetsize payloadSize : ℕ) (isIdr afterRefFrameInvalidation : Bool)
    (latency : UInt16) : ShortFrameHeader where
  headerType := 1
  frameProcessingLatency := latency
  frameType := if isIdr then 2 else if afterRefFrameInvalidation then 5 else 1
  lastPayloadLen := lastPayloadLen packetsize 8 payloadSize

/-! ## `concat_and_insert` -/

/-- Copy `n` bytes from the current buffer, going over to the start of `data2` when
the current buffer is too short.  Returns the bytes and what is left to read. -/
def copySlice (data2 : List UInt8) (n : ℕ) (next : List UInt8) : List UInt8 × List UInt8 :=
  if n > next.length then
    (next ++ data2.take (n - next.length), data2.drop (n - next.length))
  else (next.take n, next.drop n)

/-- The number of slices of `dataSize` bytes, the last one possibly short. -/
def sliceCount (dataSize sliceSize : ℕ) : ℕ :=
  dataSize / sliceSize + if dataSize % sliceSize ≠ 0 then 1 else 0

/-- The copying loop with `k` of `elements` iterations left; `next` is the unread
part of the current buffer.  The result vector is zero initialised, so the
inserted bytes are zeros. -/
def insertLoop (insertSize sliceSize dataSize elements : ℕ) (data2 : List UInt8) :
    ℕ → List UInt8 → List UInt8
  | 0, _ => []
  | k + 1, next =>
      let x := elements - (k + 1)
      let n := if x = elements - 1 then dataSize - x * sliceSize else sliceSize
      List.replicate insertSize 0 ++ (copySlice data2 n next).1 ++
        insertLoop insertSize sliceSize dataSize elements data2 k (copySlice data2 n next).2

/-- Combine two buffers and insert `insertSize` bytes before every slice of
`sliceSize` bytes of the result. -/
def concatAndInsert (insertSize sliceSize : ℕ) (data1 data2 : List UInt8) : List UInt8 :=
  let dataSize := data1.length + data2.length
  let elements := sliceCount dataSize sliceSize
  insertLoop insertSize sliceSize dataSize elements data2 elements data1

/-- `k` slices of the bytes, each preceded by `insertSize` zeros; the last one
takes whatever is left. -/
def slices (insertSize sliceSize : ℕ) : ℕ → List UInt8 → List UInt8
  | 0, _ => []
  | 1, xs => List.replicate insertSize 0 ++ xs
  | k + 2, xs =>
      List.replicate insertSize 0 ++ xs.take sliceSize ++
        slices insertSize sliceSize (k + 1) (xs.drop sliceSize)

/-- The buffer that is cut into packets for one frame. -/
def videoPayload (packetsize : ℕ) (isIdr afterRefFrameInvalidation : Bool) (latency : UInt16)
    (payload : List UInt8) : List UInt8 :=
  concatAndInsert sizeofVideoPacketRaw (packetsize + maxRtpHeaderSize - sizeofVideoPacketRaw)
    (frameHeader packetsize payload.length isIdr afterRefFrameInvalidation latency).bytes payload

/-! ## The pass computes the slices -/

theorem copySlice_of_le {data2 next : List UInt8} {n : ℕ} (h : n ≤ next.length) :
    copySlice data2 n next = (next.take n, next.drop n) := by
  simp [copySlice, Nat.not_lt.mpr h]

/-- Going over to the second buffer reads the concatenation. -/
theorem copySlice_of_gt {data2 next : List UInt8} {n : ℕ} (h : next.length < n) :
    copySlice data2 n next = ((next ++ data2).take n, (next ++ data2).drop n) := by
  have htake : next.take n = next := List.take_of_length_le (Nat.le_of_lt h)
  have hdrop : next.drop n = [] := List.drop_of_length_le (Nat.le_of_lt h)
  simp [copySlice, h, List.take_append, List.drop_append, htake, hdrop]

/-- The bytes still unread with `k` iterations left fill `k` slices exactly. -/
def Fills (sliceSize k : ℕ) (n : ℕ) : Prop := (k - 1) * sliceSize < n ∧ n ≤ k * sliceSize

/-- A slice that is not the last one is full, and the rest fills the others. -/
theorem Fills.next {sliceSize k n : ℕ} (h : Fills sliceSize (k + 2) n) :
    sliceSize ≤ n ∧ Fills sliceSize (k + 1) (n - sliceSize) := by
  obtain ⟨hlow, hhigh⟩ := h
  have hone : (k + 1) * sliceSize = k * sliceSize + sliceSize := Nat.succ_mul k sliceSize
  have htwo : (k + 2) * sliceSize = (k + 1) * sliceSize + sliceSize := Nat.succ_mul (k + 1) sliceSize
  simp only [Nat.add_one_sub_one] at hlow
  refine ⟨by omega, ?_, by omega⟩
  rw [Nat.add_sub_cancel]
  omega

section Loop

variable {insertSize sliceSize dataSize elements : ℕ} {data2 : List UInt8}

/-- The last iteration copies what is left. -/
theorem insertLoop_one (next : List UInt8) :
    insertLoop insertSize sliceSize dataSize elements data2 1 next =
      List.replicate insertSize 0 ++
        (copySlice data2 (dataSize - (elements - 1) * sliceSize) next).1 := by
  simp [insertLoop]

/-- The others copy one slice. -/
theorem insertLoop_add_two {k : ℕ} (hk : k + 2 ≤ elements) (next : List UInt8) :
    insertLoop insertSize sliceSize dataSize elements data2 (k + 2) next =
      List.replicate insertSize 0 ++ (copySlice data2 sliceSize next).1 ++
        insertLoop insertSize sliceSize dataSize elements data2 (k + 1)
          (copySlice data2 sliceSize next).2 := by
  have hne : elements - (k + 2) ≠ elements - 1 := by omega
  rw [insertLoop]
  simp only [if_neg hne]

variable (sliceSize) in
theorem offset_succ {k : ℕ} (hk : k + 1 + 1 ≤ elements) :
    (elements - (k + 1)) * sliceSize = (elements - (k + 1 + 1)) * sliceSize + sliceSize := by
  rw [show elements - (k + 1) = elements - (k + 1 + 1) + 1 by omega, Nat.succ_mul]

/-- After the switch the loop reads the second buffer alone. -/
theorem insertLoop_second (k : ℕ) (hk : k + 1 ≤ elements) (next : List UInt8)
    (hfill : Fills sliceSize (k + 1) next.length)
    (hsize : next.length + (elements - (k + 1)) * sliceSize = dataSize) :
    insertLoop insertSize sliceSize dataSize elements data2 (k + 1) next =
      slices insertSize sliceSize (k + 1) next := by
  induction k generalizing next with
  | zero =>
      have hlast : dataSize - (elements - 1) * sliceSize = next.length := by
        rw [Nat.zero_add] at hsize
        omega
      rw [insertLoop_one, hlast, copySlice_of_le (Nat.le_refl _), List.take_length, slices]
  | succ k ih =>
      obtain ⟨hfull, hrest⟩ := hfill.next
      have hoffset := offset_succ sliceSize hk
      rw [insertLoop_add_two hk, copySlice_of_le hfull, slices, ih (by omega)]
      · rw [List.length_drop]
        exact hrest
      · rw [List.length_drop]
        omega

/-- **The pass over two buffers cuts their concatenation into slices.** -/
theorem insertLoop_first (k : ℕ) (hk : k + 1 ≤ elements) (next : List UInt8)
    (hfill : Fills sliceSize (k + 1) (next.length + data2.length))
    (hsize : next.length + data2.length + (elements - (k + 1)) * sliceSize = dataSize) :
    insertLoop insertSize sliceSize dataSize elements data2 (k + 1) next =
      slices insertSize sliceSize (k + 1) (next ++ data2) := by
  induction k generalizing next with
  | zero =>
      have hlast : dataSize - (elements - 1) * sliceSize = next.length + data2.length := by
        rw [Nat.zero_add] at hsize
        omega
      have hall : (copySlice data2 (next.length + data2.length) next).1 = next ++ data2 := by
        by_cases hd : data2 = []
        · subst hd
          simp [copySlice]
        · have hpos := List.length_pos_iff.mpr hd
          rw [copySlice_of_gt (by omega)]
          exact List.take_of_length_le (by simp)
      rw [insertLoop_one, hlast, hall, slices]
  | succ k ih =>
      obtain ⟨hfull, hrest⟩ := hfill.next
      have hoffset := offset_succ sliceSize hk
      rw [insertLoop_add_two hk, slices]
      -- The slice either stays inside the first buffer or goes over to the second.
      by_cases hover : next.length < sliceSize
      · rw [copySlice_of_gt hover, insertLoop_second k (by omega)]
        · rw [List.length_drop, List.length_append]
          exact hrest
        · rw [List.length_drop, List.length_append]
          omega
      · have hle : sliceSize ≤ next.length := Nat.le_of_not_lt hover
        rw [copySlice_of_le hle, ih (by omega)]
        · rw [List.take_append_of_le_length hle, List.drop_append_of_le_length hle]
        · rw [List.length_drop, ← Nat.sub_add_comm hle]
          exact hrest
        · rw [List.length_drop]
          omega

end Loop

/-- `sliceCount` slices are filled, none of them empty. -/
theorem fills_sliceCount {dataSize sliceSize : ℕ} (hd : 0 < dataSize) (hs : 0 < sliceSize) :
    Fills sliceSize (sliceCount dataSize sliceSize) dataSize := by
  have hdiv := Nat.div_add_mod dataSize sliceSize
  have hmod := Nat.mod_lt dataSize hs
  have hcomm := Nat.mul_comm sliceSize (dataSize / sliceSize)
  simp only [Fills, sliceCount]
  by_cases hz : dataSize % sliceSize = 0
  · simp only [hz, ne_eq, not_true_eq_false, if_false, Nat.add_zero]
    have hq : 0 < dataSize / sliceSize := by
      rcases Nat.eq_zero_or_pos (dataSize / sliceSize) with h | h
      · rw [h] at hdiv
        omega
      · exact h
    have hpred : (dataSize / sliceSize - 1) * sliceSize + sliceSize
        = dataSize / sliceSize * sliceSize := by
      conv_rhs => rw [show dataSize / sliceSize = dataSize / sliceSize - 1 + 1 by omega]
      rw [Nat.succ_mul]
    omega
  · simp only [hz, ne_eq, not_false_eq_true, if_true, Nat.add_sub_cancel]
    have hsucc := Nat.succ_mul (dataSize / sliceSize) sliceSize
    simp only [Nat.succ_eq_add_one] at hsucc
    omega

theorem sliceCount_pos {dataSize sliceSize : ℕ} (hd : 0 < dataSize) (hs : 0 < sliceSize) :
    0 < sliceCount dataSize sliceSize := by
  have hhigh := (fills_sliceCount hd hs).2
  by_contra hzero
  rw [Nat.le_zero.mp (Nat.le_of_not_lt hzero), Nat.zero_mul] at hhigh
  omega

/-- `concatAndInsert` cuts the concatenation of its inputs into slices. -/
theorem concatAndInsert_eq {insertSize sliceSize : ℕ} (hs : 0 < sliceSize)
    {data1 data2 : List UInt8} (hd : 0 < data1.length + data2.length) :
    concatAndInsert insertSize sliceSize data1 data2 =
      slices insertSize sliceSize (sliceCount (data1.length + data2.length) sliceSize)
        (data1 ++ data2) := by
  have hfill := fills_sliceCount hd hs
  obtain ⟨k, hk⟩ := Nat.exists_eq_add_one.mpr (sliceCount_pos hd hs)
  simp only [concatAndInsert]
  rw [hk] at hfill ⊢
  exact insertLoop_first k (Nat.le_refl _) data1 hfill (by simp)

theorem length_slices {insertSize sliceSize : ℕ} (k : ℕ) (xs : List UInt8) :
    (slices insertSize sliceSize (k + 1) xs).length = (k + 1) * insertSize + xs.length := by
  induction k generalizing xs with
  | zero => simp [slices]
  | succ k ih =>
      rw [slices, List.length_append, List.length_append, ih, List.length_replicate,
        List.length_take, List.length_drop, Nat.succ_mul (k + 1)]
      omega

/-- The buffer holds the data and one header per slice. -/
theorem length_concatAndInsert {insertSize sliceSize : ℕ} (hs : 0 < sliceSize)
    {data1 data2 : List UInt8} (hd : 0 < data1.length + data2.length) :
    (concatAndInsert insertSize sliceSize data1 data2).length =
      sliceCount (data1.length + data2.length) sliceSize * insertSize
        + (data1.length + data2.length) := by
  obtain ⟨k, hk⟩ := Nat.exists_eq_add_one.mpr (sliceCount_pos hd hs)
  rw [concatAndInsert_eq hs hd, hk, length_slices, List.length_append]

/-- **The shape of the packet buffer.**  It is a whole number of blocks followed by
a last one that holds a full header and at least one payload byte. -/
theorem length_videoPayload {packetsize : ℕ} (hp : 64 ≤ packetsize) (isIdr rfi : Bool)
    (latency : UInt16) (payload : List UInt8) :
    ∃ q t, (videoPayload packetsize isIdr rfi latency payload).length
        = q * (packetsize + maxRtpHeaderSize) + t ∧
      sizeofVideoPacketRaw < t ∧ t ≤ packetsize + maxRtpHeaderSize := by
  simp only [videoPayload, sizeofVideoPacketRaw, maxRtpHeaderSize, sizeofNvVideoPacket]
  set header := (frameHeader packetsize payload.length isIdr rfi latency).bytes
  have hheader : header.length = 8 := ShortFrameHeader.length_bytes _
  set slice := packetsize + 16 - (16 + 16) with hslice
  have hfill : Fills slice (sliceCount (header.length + payload.length) slice)
      (header.length + payload.length) := fills_sliceCount (by omega) (by omega)
  rw [length_concatAndInsert (by omega) (by omega)]
  have hpos : 0 < sliceCount (header.length + payload.length) slice :=
    sliceCount_pos (by omega) (by omega)
  set count := sliceCount (header.length + payload.length) slice
  set total := header.length + payload.length with htotal
  obtain ⟨hlow, hhigh⟩ := hfill
  obtain ⟨k, hk⟩ : ∃ k, count = k + 1 := Nat.exists_eq_add_one.mpr hpos
  rw [hk] at hlow hhigh ⊢
  rw [Nat.add_sub_cancel] at hlow
  have hblock : packetsize + 16 = slice + 32 := by omega
  have hsucc := Nat.succ_mul k slice
  have hsucc' := Nat.succ_mul k 32
  simp only [Nat.succ_eq_add_one] at hsucc hsucc'
  have hmul := Nat.mul_add k slice 32
  refine ⟨k, total - k * slice + 32, ?_, by omega, by omega⟩
  rw [hblock, hmul]
  omega

end LuminalShine.Transport
