import LuminalShine.Lib.Chunks
import LuminalShine.Transport.Fec
import LuminalShine.Transport.Packetize

/-!
# From the packet buffer back to the frame

The buffer of `concat_and_insert` travels in blocks: each is an inserted packet header and
a slice of the frame, and the Reed-Solomon encoder pads the last one.  A client drops the
headers, cuts the last block to the length the frame header advertises, and puts the rest
together.

`lastPayloadLen` is computed apart from the slicing.  It advertises the last slice as long
as a slice fits in its sixteen bits, which the packet size check of ANNOUNCE sees to.

## Main definitions

* `blocks` — the blocks a buffer is cut into.
* `depacketize` — the client's side.
* `packetize_depacketize` — the round trip.
-/

namespace LuminalShine.Transport

open LuminalShine.Lib

/-- The blocks of `blocksize` bytes, the last one possibly short. -/
def blocks (blocksize : ℕ) (buffer : List UInt8) : List (List UInt8) :=
  (List.range (sliceCount buffer.length blocksize)).map (window buffer blocksize)

/-- Drop the inserted header of every block and cut the last one. -/
def depacketize (insertSize lastPayloadLen : ℕ) : List (List UInt8) → List UInt8
  | [] => []
  | [block] => (block.drop insertSize).take lastPayloadLen
  | block :: next :: rest =>
      block.drop insertSize ++ depacketize insertSize lastPayloadLen (next :: rest)

/-! ## Counting slices -/

/-- As many slices as the bytes fill. -/
theorem sliceCount_of_fills {sliceSize k n : ℕ} (hs : 0 < sliceSize)
    (h : Fills sliceSize (k + 1) n) : sliceCount n sliceSize = k + 1 := by
  obtain ⟨hlow, hhigh⟩ := h
  rw [Nat.add_sub_cancel] at hlow
  have hsucc := Nat.succ_mul k sliceSize
  simp only [Nat.succ_eq_add_one] at hsucc
  simp only [sliceCount]
  by_cases hfull : n = (k + 1) * sliceSize
  · rw [hfull, Nat.mul_div_cancel _ hs, Nat.mul_mod_left]
    rfl
  · have hdiv : n / sliceSize = k :=
      Nat.div_eq_of_lt_le (Nat.le_of_lt hlow) (by omega)
    have hmod : n % sliceSize ≠ 0 := by
      have hrest := Nat.div_add_mod n sliceSize
      rw [hdiv, Nat.mul_comm] at hrest
      omega
    rw [hdiv, if_pos hmod]

/-- The slices with their headers fill as many blocks. -/
theorem fills_slices {insertSize sliceSize k : ℕ} {xs : List UInt8}
    (h : Fills sliceSize (k + 1) xs.length) :
    Fills (insertSize + sliceSize) (k + 1)
      (slices insertSize sliceSize (k + 1) xs).length := by
  obtain ⟨hlow, hhigh⟩ := h
  rw [Nat.add_sub_cancel] at hlow
  rw [length_slices]
  have hk := Nat.mul_add k insertSize sliceSize
  have hsucc := Nat.mul_add (k + 1) insertSize sliceSize
  have hinsert := Nat.succ_mul k insertSize
  simp only [Nat.succ_eq_add_one] at hinsert
  refine ⟨?_, ?_⟩
  · rw [Nat.add_sub_cancel]
    omega
  · omega

/-- What follows the last slice stays within the last block. -/
theorem Fills.append {width k n p : ℕ} (h : Fills width k n) (hp : n + p ≤ k * width) :
    Fills width k (n + p) :=
  ⟨Nat.lt_of_lt_of_le h.1 (Nat.le_add_right n p), hp⟩

/-! ## Cutting the buffer -/

section Cut

variable {insertSize sliceSize : ℕ}

/-- A slice that is not the last one is a block of its own. -/
theorem take_slices (insertSize k : ℕ) {xs : List UInt8} (padding : List UInt8)
    (hfull : sliceSize ≤ xs.length) :
    (slices insertSize sliceSize (k + 2) xs ++ padding).take (insertSize + sliceSize) =
        List.replicate insertSize 0 ++ xs.take sliceSize ∧
      (slices insertSize sliceSize (k + 2) xs ++ padding).drop (insertSize + sliceSize) =
        slices insertSize sliceSize (k + 1) (xs.drop sliceSize) ++ padding := by
  have hlength : (List.replicate insertSize (0 : UInt8) ++ xs.take sliceSize).length =
      insertSize + sliceSize := by
    rw [List.length_append, List.length_replicate, List.length_take, Nat.min_eq_left hfull]
  rw [slices, List.append_assoc, ← hlength]
  exact ⟨List.take_left' rfl, List.drop_left' rfl⟩

/-- The blocks of the buffer are the slices, each behind its header. -/
theorem windows_slices (k : ℕ) {xs : List UInt8} (h : Fills sliceSize (k + 1) xs.length) :
    (List.range (k + 1)).map
        (window (slices insertSize sliceSize (k + 1) xs) (insertSize + sliceSize)) =
      ((List.range (k + 1)).map (window xs sliceSize)).map
        (List.replicate insertSize 0 ++ ·) := by
  induction k generalizing xs with
  | zero =>
      have hlast : xs.length ≤ sliceSize := by
        have hhigh := h.2
        omega
      have hblock : (slices insertSize sliceSize 1 xs).length ≤ insertSize + sliceSize := by
        rw [length_slices]
        omega
      simp only [windows_succ, List.range_zero, List.map_nil, List.map_cons]
      rw [List.take_of_length_le hblock, List.take_of_length_le hlast, slices]
  | succ k ih =>
      obtain ⟨hfull, hrest⟩ := h.next
      obtain ⟨htake, hdrop⟩ := take_slices insertSize k [] hfull
      simp only [List.append_nil] at htake hdrop
      rw [windows_succ, htake, hdrop, ih (by rwa [List.length_drop]), windows_succ xs,
        List.map_cons]

/-- **The client's side undoes the slicing**, whatever the last block is padded with. -/
theorem depacketize_slices (k : ℕ) {xs padding : List UInt8}
    (h : Fills sliceSize (k + 1) xs.length) {lastLen : ℕ}
    (hlast : lastLen + k * sliceSize = xs.length)
    (hpadding : (slices insertSize sliceSize (k + 1) xs ++ padding).length ≤
      (k + 1) * (insertSize + sliceSize)) :
    depacketize insertSize lastLen ((List.range (k + 1)).map
        (window (slices insertSize sliceSize (k + 1) xs ++ padding) (insertSize + sliceSize))) =
      xs := by
  induction k generalizing xs with
  | zero =>
      rw [Nat.zero_mul, Nat.add_zero] at hlast
      rw [windows_succ, List.range_zero, List.map_nil,
        List.take_of_length_le (by omega), depacketize, slices, List.append_assoc,
        List.drop_left' (List.length_replicate ..), hlast, List.take_left' rfl]
  | succ k ih =>
      obtain ⟨hfull, hrest⟩ := h.next
      obtain ⟨htake, hdrop⟩ := take_slices insertSize k padding hfull
      have hlength := congrArg List.length hdrop
      rw [List.length_drop] at hlength
      have hblocks : (slices insertSize sliceSize (k + 2) xs ++ padding).length ≤
          (k + 1) * (insertSize + sliceSize) + (insertSize + sliceSize) := by
        rw [← Nat.succ_mul]
        exact hpadding
      have hslice : (k + 1) * sliceSize = k * sliceSize + sliceSize := Nat.succ_mul k sliceSize
      have hrestLast : lastLen + k * sliceSize = (xs.drop sliceSize).length := by
        rw [List.length_drop]
        omega
      have hih := ih (by rwa [List.length_drop]) hrestLast (by omega)
      rw [windows_succ, htake, hdrop]
      rw [windows_succ] at hih ⊢
      rw [depacketize, hih, List.drop_left' (List.length_replicate ..), List.take_append_drop]

end Cut

/-! ## The advertised length -/

/-- What a slice count says about the last slice. -/
theorem mod_of_fills {sliceSize k n lastLen : ℕ} (h : Fills sliceSize (k + 1) n)
    (hlast : lastLen + k * sliceSize = n) :
    lastLen = if n % sliceSize = 0 then sliceSize else n % sliceSize := by
  obtain ⟨hlow, hhigh⟩ := h
  rw [Nat.add_sub_cancel] at hlow
  have hsucc : (k + 1) * sliceSize = k * sliceSize + sliceSize := Nat.succ_mul k sliceSize
  have hmod : n % sliceSize = lastLen % sliceSize := by
    rw [← hlast, Nat.add_mul_mod_self_right]
  rw [hmod]
  by_cases hfull : lastLen = sliceSize
  · rw [hfull, Nat.mod_self, if_pos rfl]
  · rw [Nat.mod_eq_of_lt (by omega), if_neg (by omega)]

/-- While a slice fits in sixteen bits, the field holds the length of the last one. -/
theorem toNat_lastPayloadLen {packetsize headerSize payloadSize k lastLen : ℕ}
    (hwidth : packetsize - sizeofNvVideoPacket < 65536)
    (h : Fills (packetsize - sizeofNvVideoPacket) (k + 1) (payloadSize + headerSize))
    (hlast : lastLen + k * (packetsize - sizeofNvVideoPacket) = payloadSize + headerSize) :
    (lastPayloadLen packetsize headerSize payloadSize).toNat = lastLen := by
  rw [mod_of_fills h hlast]
  set slice := packetsize - sizeofNvVideoPacket
  have hpos : 0 < slice := by
    rcases Nat.eq_zero_or_pos slice with hzero | hpos
    · have hhigh := h.2
      have hlow := h.1
      rw [hzero, Nat.mul_zero] at hhigh hlow
      omega
    · exact hpos
  have hrest : (payloadSize + headerSize) % slice < 65536 :=
    Nat.lt_trans (Nat.mod_lt _ hpos) hwidth
  have hzero : UInt16.ofNat ((payloadSize + headerSize) % slice) = 0 ↔
      (payloadSize + headerSize) % slice = 0 := by
    rw [← UInt16.toNat_inj, UInt16.toNat_ofNat_of_lt' hrest]
    rfl
  simp only [lastPayloadLen]
  by_cases heven : (payloadSize + headerSize) % slice = 0
  · rw [if_pos (hzero.mpr heven), if_pos heven, UInt16.toNat_ofNat_of_lt' hwidth]
  · rw [if_neg (mt hzero.mp heven), if_neg heven, UInt16.toNat_ofNat_of_lt' hrest]

/-! ## The round trip -/

theorem concatAndInsert_nil (insertSize sliceSize : ℕ) :
    concatAndInsert insertSize sliceSize [] [] = [] := by
  simp [concatAndInsert, sliceCount, insertLoop]

@[simp] theorem blocks_nil (blocksize : ℕ) : blocks blocksize [] = [] := by
  simp [blocks, sliceCount]

/-- The blocks put the buffer back together. -/
theorem flatten_blocks {blocksize : ℕ} (hb : 0 < blocksize) (buffer : List UInt8) :
    (blocks blocksize buffer).flatten = buffer := by
  rw [blocks, flatten_windows]
  rcases Nat.eq_zero_or_pos buffer.length with hzero | hpos
  · rw [List.length_eq_zero_iff.mp hzero, List.take_nil]
  · exact List.take_of_length_le (fills_sliceCount hpos hb).2

/-- The blocks of the buffer of `concat_and_insert`. -/
theorem blocks_concatAndInsert (insertSize : ℕ) {sliceSize : ℕ} (hs : 0 < sliceSize)
    (data1 data2 : List UInt8) :
    blocks (insertSize + sliceSize) (concatAndInsert insertSize sliceSize data1 data2) =
      (blocks sliceSize (data1 ++ data2)).map (List.replicate insertSize 0 ++ ·) := by
  rcases Nat.eq_zero_or_pos (data1.length + data2.length) with hzero | hpos
  · obtain ⟨h1, h2⟩ := Nat.add_eq_zero_iff.mp hzero
    rw [List.length_eq_zero_iff.mp h1, List.length_eq_zero_iff.mp h2, concatAndInsert_nil]
    simp
  · obtain ⟨k, hk⟩ := Nat.exists_eq_add_one.mpr (sliceCount_pos hpos hs)
    have hfill := fills_sliceCount hpos hs
    rw [hk, ← List.length_append] at hfill
    have hblocks : Fills (insertSize + sliceSize) (k + 1)
        (slices insertSize sliceSize (k + 1) (data1 ++ data2)).length := fills_slices hfill
    have hcount := sliceCount_of_fills (by omega) hblocks
    rw [concatAndInsert_eq hs hpos, hk, blocks, blocks, hcount, List.length_append, hk,
      windows_slices k hfill]

/-- What the padding of the last block may hold: it stays within the blocks of the buffer. -/
def PadsLast (blocksize : ℕ) (buffer padding : List UInt8) : Prop :=
  (buffer ++ padding).length ≤ (blocks blocksize buffer).length * blocksize

/-- A buffer lies within its blocks. -/
theorem padsLast_nil {blocksize : ℕ} (hb : 0 < blocksize) (buffer : List UInt8) :
    PadsLast blocksize buffer [] := by
  rw [PadsLast, List.append_nil, blocks, List.length_map, List.length_range]
  rcases Nat.eq_zero_or_pos buffer.length with hzero | hpos
  · rw [hzero]
    exact Nat.zero_le _
  · exact (fills_sliceCount hpos hb).2

/-- The client's side of a frame, for any header and any padding of the last block. -/
theorem depacketize_concatAndInsert {packetsize : ℕ} (hmin : 64 ≤ packetsize)
    (hmax : packetsize ≤ 65535) (header payload padding : List UInt8)
    (hpadding : PadsLast (packetsize + maxRtpHeaderSize) (concatAndInsert sizeofVideoPacketRaw
      (packetsize + maxRtpHeaderSize - sizeofVideoPacketRaw) header payload) padding) :
    depacketize sizeofVideoPacketRaw
        (lastPayloadLen packetsize header.length payload.length).toNat
        (blocks (packetsize + maxRtpHeaderSize)
          (concatAndInsert sizeofVideoPacketRaw
            (packetsize + maxRtpHeaderSize - sizeofVideoPacketRaw) header payload ++ padding)) =
      header ++ payload := by
  have hslice : packetsize + maxRtpHeaderSize - sizeofVideoPacketRaw =
      packetsize - sizeofNvVideoPacket := by
    simp only [sizeofVideoPacketRaw, maxRtpHeaderSize, sizeofNvVideoPacket]
    omega
  have hblock : packetsize + maxRtpHeaderSize =
      sizeofVideoPacketRaw + (packetsize - sizeofNvVideoPacket) := by
    simp only [sizeofVideoPacketRaw, maxRtpHeaderSize, sizeofNvVideoPacket]
    omega
  have hs : 0 < packetsize - sizeofNvVideoPacket := by
    simp only [sizeofNvVideoPacket]
    omega
  rw [PadsLast, hslice, hblock] at hpadding
  rw [hslice, hblock]
  rw [blocks_concatAndInsert _ hs, List.length_map] at hpadding
  set slice := packetsize - sizeofNvVideoPacket with hslice_def
  rcases Nat.eq_zero_or_pos (header.length + payload.length) with hzero | hpos
  · obtain ⟨hheader, hpayload⟩ := Nat.add_eq_zero_iff.mp hzero
    rw [List.length_eq_zero_iff.mp hheader, List.length_eq_zero_iff.mp hpayload,
      concatAndInsert_nil] at hpadding ⊢
    simp only [List.nil_append, blocks_nil, List.length_nil, Nat.zero_mul, Nat.le_zero_eq,
      List.length_eq_zero_iff] at hpadding
    rw [hpadding, List.nil_append, blocks_nil]
    rfl
  · obtain ⟨k, hk⟩ := Nat.exists_eq_add_one.mpr (sliceCount_pos hpos hs)
    have hfill := fills_sliceCount hpos hs
    have hlast : header.length + payload.length - k * slice + k * slice =
        header.length + payload.length := by
      have hlow := hfill.1
      rw [hk, Nat.add_sub_cancel] at hlow
      omega
    have hcount : (blocks slice (header ++ payload)).length = k + 1 := by
      rw [blocks, List.length_map, List.length_range, List.length_append, hk]
    rw [hcount, concatAndInsert_eq hs hpos, hk] at hpadding
    rw [hk] at hfill
    have hlen : (lastPayloadLen packetsize header.length payload.length).toNat =
        header.length + payload.length - k * slice := by
      have hswap : Fills slice (k + 1) (payload.length + header.length) := by
        rwa [Nat.add_comm payload.length]
      exact toNat_lastPayloadLen (by omega) hswap (by rwa [Nat.add_comm payload.length])
    rw [← List.length_append] at hfill hlast
    have hslices : Fills (sizeofVideoPacketRaw + slice) (k + 1)
        (slices sizeofVideoPacketRaw slice (k + 1) (header ++ payload) ++ padding).length := by
      rw [List.length_append] at hpadding ⊢
      exact (fills_slices hfill).append hpadding
    rw [concatAndInsert_eq hs hpos, hk, hlen, blocks, sliceCount_of_fills (by omega) hslices,
      ← List.length_append]
    exact depacketize_slices k hfill hlast hpadding

/-- **Round trip of a frame, and of `concat_and_insert`.**  For every packet size that
ANNOUNCE admits, every frame header and payload, the blocks give the header and the payload
back; for every insert size and every slice size, the buffer is the slices of both inputs
with one insert before each. -/
theorem packetize_depacketize :
    (∀ (packetsize : ℕ), announceAdmits packetsize = true →
      ∀ header payload : List UInt8,
        let blocksize := packetsize + maxRtpHeaderSize
        let buffer := concatAndInsert sizeofVideoPacketRaw (blocksize - sizeofVideoPacketRaw)
          header payload
        let lastLen := (lastPayloadLen packetsize header.length payload.length).toNat
        depacketize sizeofVideoPacketRaw lastLen (blocks blocksize buffer) = header ++ payload ∧
          ∀ padding, PadsLast blocksize buffer padding →
            depacketize sizeofVideoPacketRaw lastLen (blocks blocksize (buffer ++ padding)) =
              header ++ payload) ∧
      ∀ (insertSize sliceSize : ℕ), 0 < sliceSize → ∀ a b : List UInt8,
        let buffer := concatAndInsert insertSize sliceSize a b
        buffer = ((blocks sliceSize (a ++ b)).map (List.replicate insertSize 0 ++ ·)).flatten ∧
          (blocks sliceSize (a ++ b)).flatten = a ++ b ∧
          ((blocks (insertSize + sliceSize) buffer).map (List.drop insertSize)).flatten =
            a ++ b := by
  constructor
  · intro packetsize hadmits header payload blocksize buffer lastLen
    simp only [announceAdmits, Bool.not_eq_true', Bool.or_eq_false_iff, decide_eq_false_iff_not]
      at hadmits
    have hround : ∀ padding, PadsLast blocksize buffer padding →
        depacketize sizeofVideoPacketRaw lastLen (blocks blocksize (buffer ++ padding)) =
          header ++ payload := by
      intro padding hpadding
      exact depacketize_concatAndInsert (by omega) (by omega) header payload padding hpadding
    have hplain := hround [] (padsLast_nil (Nat.lt_of_lt_of_le (by omega) (Nat.le_add_right _ _))
      buffer)
    rw [List.append_nil] at hplain
    exact ⟨hplain, hround⟩
  · intro insertSize sliceSize hs a b buffer
    have hblocks := blocks_concatAndInsert insertSize hs a b
    refine ⟨?_, flatten_blocks hs (a ++ b), ?_⟩
    · rw [← hblocks, flatten_blocks (by omega)]
    · rw [hblocks, List.map_map]
      have hdrop : (List.drop insertSize ∘ fun x : List UInt8 =>
          List.replicate insertSize 0 ++ x) = id := by
        funext x
        exact List.drop_left' (List.length_replicate ..)
      rw [hdrop, List.map_id, flatten_blocks hs]

/-- A frame of three bytes in one packet, and two inputs that meet within a slice. -/
theorem packetize_depacketize_short :
    announceAdmits (64 : ℕ) = true ∧
      depacketize sizeofVideoPacketRaw (lastPayloadLen 64 2 1).toNat
          (blocks (64 + maxRtpHeaderSize) (concatAndInsert sizeofVideoPacketRaw
            (64 + maxRtpHeaderSize - sizeofVideoPacketRaw) [1, 2] [3])) = [1, 2, 3] ∧
      ((blocks 3 (concatAndInsert 1 2 [1, 2, 3] [4, 5])).map (List.drop 1)).flatten =
        [1, 2, 3, 4, 5] := by
  refine ⟨by decide, ?_, ?_⟩
  · exact (packetize_depacketize.1 64 (by decide) [1, 2] [3]).1
  · exact (packetize_depacketize.2 1 2 (by decide) [1, 2, 3] [4, 5]).2.2

/-- Of a single block, no more bytes than advertised. -/
theorem length_depacketize_one (insertSize lastLen : ℕ) (block : List UInt8) :
    (depacketize insertSize lastLen [block]).length ≤ lastLen := by
  rw [depacketize, List.length_take]
  exact Nat.min_le_left _ _

/-- Above the sixteen bits the length is not advertised: with a slice of 65537 bytes, a frame
of 65536 bytes is one short block, and the field says one byte. -/
theorem depacketize_large_packet :
    64 ≤ 65553 ∧ announceAdmits (65553 : ℕ) = false ∧
      (lastPayloadLen 65553 8 65528).toNat = 1 ∧
      depacketize sizeofVideoPacketRaw (lastPayloadLen 65553 8 65528).toNat
          (blocks (65553 + maxRtpHeaderSize) (concatAndInsert sizeofVideoPacketRaw
            (65553 + maxRtpHeaderSize - sizeofVideoPacketRaw)
            (List.replicate 8 0) (List.replicate 65528 0))) ≠
        List.replicate 8 0 ++ List.replicate 65528 0 := by
  have hfield : (lastPayloadLen 65553 8 65528).toNat = 1 := by decide
  refine ⟨by decide, by decide, hfield, ?_⟩
  intro hround
  have hcut : 65553 + maxRtpHeaderSize =
      sizeofVideoPacketRaw + (65553 + maxRtpHeaderSize - sizeofVideoPacketRaw) := by decide
  have hone : ∃ block, blocks (65553 + maxRtpHeaderSize) (concatAndInsert sizeofVideoPacketRaw
      (65553 + maxRtpHeaderSize - sizeofVideoPacketRaw)
      (List.replicate 8 0) (List.replicate 65528 0)) = [block] := by
    rw [hcut, Nat.add_sub_cancel_left, blocks_concatAndInsert _ (by decide), blocks,
      List.length_append, List.length_replicate, List.length_replicate,
      show sliceCount (8 + 65528) (65553 + maxRtpHeaderSize - sizeofVideoPacketRaw) = 1 by decide]
    exact ⟨_, rfl⟩
  obtain ⟨block, hblock⟩ := hone
  have hlength := length_depacketize_one sizeofVideoPacketRaw 1 block
  rw [hfield, hblock] at hround
  rw [hround, List.length_append, List.length_replicate, List.length_replicate] at hlength
  omega

end LuminalShine.Transport
