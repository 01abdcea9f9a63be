import Mathlib.Data.List.Basic
import Mathlib.Data.List.TakeWhile
import Mathlib.Data.Nat.ModEq
import Mathlib.Logic.Function.Basic

/-!
# The audio broadcast

`audioBroadcastThread` takes the encoded audio of all sessions from one queue.  It numbers the
packets of each session, encrypts them into a shard of the session, sends them, and at the end
of a block sends parity over the shards.  Its state is spread over the sessions and written in
place, and every send may throw.

* `handle`, `broadcast` — the loop as written, over the sessions' buffers and counters;
* `describe`, `described` — the same wire from positions alone: a session is the list of its
  packets so far, and packet `n` has a fixed number, time stamp and block;
* `Keeps` — what ties a session to its packets;
* `block_eq` — in a stream of packets of one size a block's parity covers exactly its packets;
* `broadcast_eq_described` — the loop puts exactly the described packets on the wire, however
  the sessions interleave and whichever sends throw.
-/

namespace LuminalShine.Transport.AudioFec

/-- The Reed-Solomon code and its two shard counts come from the protocol headers.  The thread
replaces the code's matrix by a table of eight entries, one for each pair of a parity and a
data shard. -/
structure ShardCode where
  dataShards : ℕ
  fecShards : ℕ
  table : dataShards * fecShards = 8
  /-- Parity number `x` over the first `bytes` bytes of the data shards. -/
  encode : (bytes : ℕ) → List (List UInt8) → (x : ℕ) → List UInt8
  encode_length : ∀ bytes shards x, (encode bytes shards x).length = bytes

/-- What a session fixes for its audio.  `cipher` encrypts under the session's key, given the
first word of the initialisation vector. -/
structure Config where
  encrypted : Bool
  avRiKeyId : ℕ
  packetDuration : ℕ
  cipher : (iv : ℕ) → List UInt8 → Option (List UInt8)

/-- `max_block_size` of a shard. -/
def maxBlockSize : ℕ := 2048

/-- The audio state of a session. -/
structure Session where
  sequenceNumber : ℕ
  timestamp : ℕ
  shards : ℕ → List UInt8
  baseSequenceNumber : ℕ
  baseTimestamp : ℕ

/-- A new session, its shards zeroed by the allocation. -/
def Session.start : Session :=
  { sequenceNumber := 0
    timestamp := 0
    shards := fun _ => List.replicate maxBlockSize 0
    baseSequenceNumber := 0
    baseTimestamp := 0 }

/-- One element of the audio queue, with what the thread meets while it handles it: whether the
shutdown was raised, and which of the packet's sends throws, if any. -/
structure Packet (ι : Type) where
  shutdown : Bool
  session : Option ι
  data : List UInt8
  throwsAt : Option ℕ

/-- What goes out to a session's peer. -/
inductive Wire
  | audio (sequenceNumber timestamp : ℕ) (payload : List UInt8)
  | fec (sequenceNumber fecShardIndex baseSequenceNumber baseTimestamp : ℕ)
      (payload : List UInt8)
  deriving DecidableEq, Repr

/-- Bytes written at the start of a buffer. -/
def overlay (buffer bytes : List UInt8) : List UInt8 := bytes ++ buffer.drop bytes.length

/-- `encode_audio`; `none` is the negative result. -/
def encodeAudio (cfg : Config) (iv : ℕ) (plaintext : List UInt8) : Option (List UInt8) :=
  if cfg.encrypted then cfg.cipher iv plaintext else some plaintext

/-- The sends of the parity packets, up to the one that throws. -/
def sendFec (fecShards : ℕ) (throwsAt : Option ℕ) (packet : ℕ → Wire) : List Wire :=
  ((List.range fecShards).takeWhile fun x => decide (throwsAt ≠ some (x + 1))).map packet

variable (code : ShardCode)

/-- `reed_solomon_encode` over the session's shards, in place. -/
def encodeShards (shards : ℕ → List UInt8) (bytes : ℕ) : ℕ → List UInt8 := fun k =>
  if code.dataShards ≤ k ∧ k < code.dataShards + code.fecShards then
    overlay (shards k) (code.encode bytes
      ((List.range code.dataShards).map fun i => (shards i).take bytes) (k - code.dataShards))
  else shards k

/-- The encoded packet goes into its shard, and the session counts it. -/
def Session.store (s : Session) (cfg : Config) (payload : List UInt8) : Session :=
  let k := s.sequenceNumber % code.dataShards
  { s with
    shards := Function.update s.shards k (overlay (s.shards k) payload)
    sequenceNumber := (s.sequenceNumber + 1) % 2 ^ 16
    timestamp := (s.timestamp + cfg.packetDuration) % 2 ^ 32 }

/-- The parity header is written at the beginning of a block. -/
def Session.openBlock (s : Session) (sequenceNumber timestamp : ℕ) : Session :=
  if sequenceNumber % code.dataShards = 0 then
    { s with baseSequenceNumber := sequenceNumber, baseTimestamp := timestamp }
  else s

/-- The body of the loop for a packet of a session; `none` leaves the loop.  The session has
counted the packet before the first send can throw. -/
def handle (cfg : Config) (s : Session) (data : List UInt8) (throwsAt : Option ℕ) :
    Option (Session × List Wire) :=
  let sequenceNumber := s.sequenceNumber
  let timestamp := s.timestamp
  let iv := (cfg.avRiKeyId + sequenceNumber) % 2 ^ 32
  (encodeAudio cfg iv data).map fun payload =>
    let s := s.store code cfg payload
    if throwsAt = some 0 then (s, []) else
    let s := s.openBlock code sequenceNumber timestamp
    if (sequenceNumber + 1) % code.dataShards = 0 then
      let shards := encodeShards code s.shards payload.length
      ({ s with shards := shards },
        .audio sequenceNumber timestamp payload ::
          sendFec code.fecShards throwsAt fun x =>
            .fec ((sequenceNumber + x + 1) % 2 ^ 16) x s.baseSequenceNumber s.baseTimestamp
              ((shards (code.dataShards + x)).take payload.length))
    else (s, [.audio sequenceNumber timestamp payload])

section Broadcast
variable {ι : Type} [DecidableEq ι] (config : ι → Config)

/-- The loop of `audioBroadcastThread`: every packet sent, with the session it is for. -/
def broadcast (sessions : ι → Session) : List (Packet ι) → List (ι × Wire)
  | [] => []
  | p :: ps =>
    if p.shutdown then [] else
    match p.session with
    | none => broadcast sessions ps
    | some i =>
      match handle code (config i) (sessions i) p.data p.throwsAt with
      | none => []
      | some (s, wire) => wire.map (Prod.mk i) ++ broadcast (Function.update sessions i s) ps

end Broadcast

/-! ## The wire from positions alone -/

/-- A packet a session has handled: its encoded bytes, and whether the send of its data went
through. -/
structure Handled where
  payload : List UInt8
  sent : Bool

/-- The bytes a shard holds after the packets `h`, newest first: those numbered `k`, `k + d`,
`k + 2 d`, … laid over each other. -/
def shardAfter (d : ℕ) : List Handled → ℕ → List UInt8
  | [], _ => List.replicate maxBlockSize 0
  | p :: h, k =>
    if h.length % d = k then overlay (shardAfter d h k) p.payload else shardAfter d h k

/-- The newest packet that starts a block and whose data went through. -/
def lastBase (d : ℕ) : List Handled → ℕ
  | [] => 0
  | p :: h => if h.length % d = 0 ∧ p.sent then h.length else lastBase d h

/-- Packet `n` of a session, after the packets `h`: its number, time stamp and initialisation
vector follow from `n`, its parity from the packets of its block. -/
def describe (cfg : Config) (h : List Handled) (data : List UInt8) (throwsAt : Option ℕ) :
    Option (List Handled × List Wire) :=
  let n := h.length
  (encodeAudio cfg ((cfg.avRiKeyId + n % 2 ^ 16) % 2 ^ 32) data).map fun payload =>
    let h := ⟨payload, decide (throwsAt ≠ some 0)⟩ :: h
    let base := lastBase code.dataShards h
    let block := (List.range code.dataShards).map fun k =>
      (shardAfter code.dataShards h k).take payload.length
    (h, if throwsAt = some 0 then [] else
      .audio (n % 2 ^ 16) (n * cfg.packetDuration % 2 ^ 32) payload ::
        if (n + 1) % code.dataShards = 0 then
          sendFec code.fecShards throwsAt fun x =>
            .fec ((n + 1 + x) % 2 ^ 16) x (base % 2 ^ 16) (base * cfg.packetDuration % 2 ^ 32)
              (code.encode payload.length block x)
        else [])

section Described
variable {ι : Type} [DecidableEq ι] (config : ι → Config)

/-- The whole wire from the packets each session has handled. -/
def described (handled : ι → List Handled) : List (Packet ι) → List (ι × Wire)
  | [] => []
  | p :: ps =>
    if p.shutdown then [] else
    match p.session with
    | none => described handled ps
    | some i =>
      match describe code (config i) (handled i) p.data p.throwsAt with
      | none => []
      | some (h, wire) => wire.map (Prod.mk i) ++ described (Function.update handled i h) ps

end Described

/-! ## The block of a parity packet -/

/-- The shard of each of the newest `d` packets holds that packet over older ones. -/
theorem shardAfter_recent (d : ℕ) : ∀ (h : List Handled) (j : ℕ) (hj : j < h.length), j < d →
    ∃ older, shardAfter d h ((h.length - 1 - j) % d) = overlay older h[j].payload
  | p :: h, 0, _, _ => ⟨shardAfter d h (h.length % d), by simp [shardAfter]⟩
  | p :: h, j + 1, hj, hd => by
      have hj' : j < h.length := by simpa using hj
      obtain ⟨older, holder⟩ := shardAfter_recent d h j hj' (by omega)
      refine ⟨older, ?_⟩
      have hother : h.length % d ≠ (h.length - 1 - j) % d := by
        intro heq
        have hdvd : d ∣ h.length - (h.length - 1 - j) := (Nat.modEq_iff_dvd' (by omega)).mp heq.symm
        have hle := Nat.le_of_dvd (by omega) hdvd
        omega
      rw [show (p :: h).length - 1 - (j + 1) = h.length - 1 - j by simp; omega, shardAfter,
        if_neg hother, holder, List.getElem_cons_succ]

/-- **A block protects its own packets.**  In a stream of packets of one size, the shards at the
end of a block are the payloads of its packets, oldest first. -/
theorem block_eq {d size : ℕ} {h : List Handled} (hend : h.length % d = 0) (hd : d ≤ h.length)
    (hsize : ∀ p ∈ h, p.payload.length = size) :
    ((List.range d).map fun k => (shardAfter d h k).take size) =
      ((h.take d).map Handled.payload).reverse := by
  apply List.ext_getElem
  · simp [hd]
  intro k hk _
  have hkd : k < d := by simpa using hk
  have hj : d - 1 - k < h.length := by omega
  obtain ⟨older, holder⟩ := shardAfter_recent d h (d - 1 - k) hj (by omega)
  have hplace : (h.length - 1 - (d - 1 - k)) % d = k := by
    rw [show h.length - 1 - (d - 1 - k) = h.length - d + k by omega, Nat.add_mod,
      Nat.mod_eq_sub_mod hd |>.symm.trans hend, Nat.zero_add, Nat.mod_mod, Nat.mod_eq_of_lt hkd]
  have hlen := hsize _ (List.getElem_mem hj)
  rw [hplace] at holder
  simp only [List.getElem_map, List.getElem_range, holder, overlay, List.getElem_reverse,
    List.getElem_take, List.length_map, List.length_take, Nat.min_eq_left hd]
  rw [List.take_append_of_le_length hlen.ge, List.take_of_length_le hlen.le]

/-! ## The loop sends what is described -/

theorem ShardCode.dataShards_dvd (c : ShardCode) : c.dataShards ∣ 2 ^ 16 :=
  Nat.dvd_trans (b := 8) ⟨_, c.table.symm⟩ (by decide)

/-- The place of a packet in its block does not depend on the wrap of its number. -/
theorem mod_dataShards (n : ℕ) : n % 2 ^ 16 % code.dataShards = n % code.dataShards :=
  Nat.mod_mod_of_dvd n code.dataShards_dvd

theorem succ_mod_dataShards (n : ℕ) :
    (n % 2 ^ 16 + 1) % code.dataShards = (n + 1) % code.dataShards := by
  rw [Nat.add_mod, mod_dataShards, ← Nat.add_mod]

theorem take_overlay_encode (buffer : List UInt8) (bytes x : ℕ) (shards : List (List UInt8)) :
    (overlay buffer (code.encode bytes shards x)).take bytes = code.encode bytes shards x := by
  rw [overlay, List.take_append_of_le_length (code.encode_length bytes shards x).ge,
    List.take_of_length_le (code.encode_length bytes shards x).le]

/-- The session `s` is what the packets `h`, newest first, make of a new session. -/
structure Keeps (cfg : Config) (h : List Handled) (s : Session) : Prop where
  sequenceNumber : s.sequenceNumber = h.length % 2 ^ 16
  timestamp : s.timestamp = h.length * cfg.packetDuration % 2 ^ 32
  shards : ∀ k < code.dataShards, s.shards k = shardAfter code.dataShards h k
  baseSequenceNumber : s.baseSequenceNumber = lastBase code.dataShards h % 2 ^ 16
  baseTimestamp : s.baseTimestamp = lastBase code.dataShards h * cfg.packetDuration % 2 ^ 32

theorem Keeps.start (cfg : Config) : Keeps code cfg [] Session.start :=
  ⟨rfl, by simp [Session.start], fun _ _ => rfl, rfl, by simp [Session.start, lastBase]⟩

variable {code}
variable {cfg : Config} {h : List Handled} {s : Session}

/-- Writing packet `n` into its shard keeps every shard what its packets made it. -/
theorem Keeps.store_shards (hk : Keeps code cfg h s) (p : Handled) (k : ℕ)
    (hlt : k < code.dataShards) :
    (s.store code cfg p.payload).shards k = shardAfter code.dataShards (p :: h) k := by
  simp only [Session.store, hk.sequenceNumber, mod_dataShards, shardAfter]
  by_cases heq : h.length % code.dataShards = k
  · subst heq
    rw [Function.update_self, if_pos rfl, hk.shards _ hlt]
  · rw [Function.update_of_ne (Ne.symm heq), if_neg heq, hk.shards _ hlt]

theorem Keeps.store_sequenceNumber (hk : Keeps code cfg h s) (payload : List UInt8) :
    (s.store code cfg payload).sequenceNumber = (h.length + 1) % 2 ^ 16 := by
  rw [Session.store, hk.sequenceNumber, Nat.mod_add_mod]

theorem Keeps.store_timestamp (hk : Keeps code cfg h s) (payload : List UInt8) :
    (s.store code cfg payload).timestamp = (h.length + 1) * cfg.packetDuration % 2 ^ 32 := by
  rw [Session.store, hk.timestamp, Nat.mod_add_mod, Nat.succ_mul]

@[simp] theorem store_baseSequenceNumber (payload : List UInt8) :
    (s.store code cfg payload).baseSequenceNumber = s.baseSequenceNumber := rfl

@[simp] theorem store_baseTimestamp (payload : List UInt8) :
    (s.store code cfg payload).baseTimestamp = s.baseTimestamp := rfl

/-- A packet whose data send throws is counted, but opens no block. -/
theorem Keeps.store (hk : Keeps code cfg h s) (payload : List UInt8) :
    Keeps code cfg (⟨payload, false⟩ :: h) (s.store code cfg payload) where
  sequenceNumber := hk.store_sequenceNumber payload
  timestamp := hk.store_timestamp payload
  shards := hk.store_shards ⟨payload, false⟩
  baseSequenceNumber := by simpa [lastBase] using hk.baseSequenceNumber
  baseTimestamp := by simpa [lastBase] using hk.baseTimestamp

/-- A packet whose data went through is counted, and opens a block when it is the first. -/
theorem Keeps.openBlock (hk : Keeps code cfg h s) (payload : List UInt8) :
    Keeps code cfg (⟨payload, true⟩ :: h)
      ((s.store code cfg payload).openBlock code s.sequenceNumber s.timestamp) := by
  have hfirst : s.sequenceNumber % code.dataShards = h.length % code.dataShards := by
    rw [hk.sequenceNumber, mod_dataShards]
  rw [Session.openBlock, hfirst]
  by_cases hopen : h.length % code.dataShards = 0
  · rw [if_pos hopen]
    exact
      { sequenceNumber := hk.store_sequenceNumber payload
        timestamp := hk.store_timestamp payload
        shards := hk.store_shards ⟨payload, true⟩
        baseSequenceNumber := by simp [lastBase, hopen, hk.sequenceNumber]
        baseTimestamp := by simp [lastBase, hopen, hk.timestamp] }
  · rw [if_neg hopen]
    exact
      { sequenceNumber := hk.store_sequenceNumber payload
        timestamp := hk.store_timestamp payload
        shards := hk.store_shards ⟨payload, true⟩
        baseSequenceNumber := by simpa [lastBase, hopen] using hk.baseSequenceNumber
        baseTimestamp := by simpa [lastBase, hopen] using hk.baseTimestamp }

/-- The parity of shards that agree up to the data shards is the same. -/
theorem encodeShards_parity {shards shards' : ℕ → List UInt8} (bytes : ℕ)
    (hs : ∀ k < code.dataShards, shards k = shards' k) {x : ℕ} (hx : x < code.fecShards) :
    (encodeShards code shards bytes (code.dataShards + x)).take bytes =
      code.encode bytes ((List.range code.dataShards).map fun k => (shards' k).take bytes) x := by
  have hblock : ((List.range code.dataShards).map fun k => (shards k).take bytes) =
      (List.range code.dataShards).map fun k => (shards' k).take bytes := by
    apply List.map_congr_left
    intro k hk
    rw [hs k (List.mem_range.mp hk)]
  rw [encodeShards, if_pos (by omega), take_overlay_encode, hblock, Nat.add_sub_cancel_left]

/-- The data shards are read, not written, by the encoder. -/
theorem encodeShards_data (shards : ℕ → List UInt8) (bytes : ℕ) {k : ℕ}
    (hk : k < code.dataShards) : encodeShards code shards bytes k = shards k := by
  rw [encodeShards, if_neg (by omega)]

/-- Parity written over its own shards loses nothing of the block. -/
theorem Keeps.encodeShards (hk : Keeps code cfg h s) (bytes : ℕ) :
    Keeps code cfg h { s with shards := encodeShards code s.shards bytes } :=
  { hk with shards := fun k hlt => (encodeShards_data s.shards bytes hlt).trans (hk.shards k hlt) }

theorem sendFec_congr {fecShards : ℕ} (throwsAt : Option ℕ) {f g : ℕ → Wire}
    (hfg : ∀ x < fecShards, f x = g x) :
    sendFec fecShards throwsAt f = sendFec fecShards throwsAt g := by
  apply List.map_congr_left
  intro x hx
  exact hfg x (List.mem_range.mp (List.takeWhile_subset _ hx))

/-- What a step of the loop and its description have to do with each other. -/
def Agree (code : ShardCode) (cfg : Config) :
    Option (Session × List Wire) → Option (List Handled × List Wire) → Prop
  | none, none => True
  | some (s, wire), some (h, wire') => wire = wire' ∧ Keeps code cfg h s
  | _, _ => False

/-- **The step.**  One packet goes out as described and leaves the session as described. -/
theorem handle_agree (hk : Keeps code cfg h s) (data : List UInt8) (throwsAt : Option ℕ) :
    Agree code cfg (handle code cfg s data throwsAt) (describe code cfg h data throwsAt) := by
  have hlast : (s.sequenceNumber + 1) % code.dataShards = (h.length + 1) % code.dataShards := by
    rw [hk.sequenceNumber, succ_mod_dataShards]
  simp only [handle, describe, ← hk.sequenceNumber, hlast]
  cases encodeAudio cfg ((cfg.avRiKeyId + s.sequenceNumber) % 2 ^ 32) data with
  | none => trivial
  | some payload =>
      by_cases hthrow : throwsAt = some 0
      · simp only [Option.map_some, hthrow]
        exact ⟨rfl, hk.store payload⟩
      · have hopen := hk.openBlock payload
        by_cases hend : (h.length + 1) % code.dataShards = 0
        · simp only [Option.map_some, if_neg hthrow, if_pos hend, decide_eq_true hthrow]
          refine ⟨?_, hopen.encodeShards payload.length⟩
          rw [← hk.timestamp]
          congr 1
          apply sendFec_congr
          intro x hx
          rw [hopen.baseSequenceNumber, hopen.baseTimestamp,
            encodeShards_parity payload.length hopen.shards hx, hk.sequenceNumber]
          congr 1
          omega
        · simp only [Option.map_some, if_neg hthrow, if_neg hend, decide_eq_true hthrow]
          exact ⟨by rw [← hk.timestamp], hopen⟩

section Broadcast
variable {ι : Type} [DecidableEq ι] (config : ι → Config)

/-- From any sessions that keep their packets, the loop sends what is described. -/
theorem broadcast_eq (sessions : ι → Session) (handled : ι → List Handled)
    (hk : ∀ i, Keeps code (config i) (handled i) (sessions i)) (ps : List (Packet ι)) :
    broadcast code config sessions ps = described code config handled ps := by
  induction ps generalizing sessions handled with
  | nil => rfl
  | cons p ps ih =>
      rw [broadcast, described]
      by_cases hstop : p.shutdown
      · rw [if_pos hstop, if_pos hstop]
      rw [if_neg hstop, if_neg hstop]
      cases hi : p.session with
      | none => exact ih sessions handled hk
      | some i =>
          have hstep := handle_agree (hk i) p.data p.throwsAt
          rcases hc : handle code (config i) (sessions i) p.data p.throwsAt with _ | ⟨s, wire⟩ <;>
            rcases ha : describe code (config i) (handled i) p.data p.throwsAt with
              _ | ⟨h, wire'⟩ <;>
            rw [hc, ha] at hstep
          · simp only [hc, ha]
          · exact hstep.elim
          · exact hstep.elim
          · obtain ⟨hwire, hkeeps⟩ := hstep
            simp only [hc, ha, hwire]
            congr 1
            apply ih
            intro j
            by_cases hj : j = i
            · subst hj
              simpa only [Function.update_self] using hkeeps
            · simpa only [Function.update_of_ne hj] using hk j

/-- **The audio wire.**  For any interleaving of the sessions' packets, any sends that throw and
any end of the loop, what goes out is exactly what the positions of the packets in their own
sessions say. -/
theorem broadcast_eq_described (ps : List (Packet ι)) :
    broadcast code config (fun _ => Session.start) ps = described code config (fun _ => []) ps :=
  broadcast_eq config _ _ (fun i => Keeps.start code (config i)) ps

end Broadcast

/-! ## The table of the thread -/

/-- `a · b` among the bytes as polynomials modulo `x⁸ + x⁴ + x³ + x² + 1`, over the lowest bits
of `b`. -/
def gfMul : (bits : ℕ) → (a b : UInt8) → UInt8
  | 0, _, _ => 0
  | bits + 1, a, b =>
    (if b % 2 = 1 then a else 0) ^^^
      gfMul bits (if a < 128 then a <<< 1 else (a <<< 1) ^^^ 0x1D) (b >>> 1)

/-- `parity` of `audioBroadcastThread`. -/
def parity : List UInt8 := [0x77, 0x40, 0x38, 0x0E, 0xC7, 0xA7, 0x0D, 0x6C]

/-- Four data shards and two parity shards; a row of the table has the factors of one parity
shard. -/
def tableCode : ShardCode where
  dataShards := 4
  fecShards := 2
  table := rfl
  encode bytes shards x := (List.range bytes).map fun i =>
    (List.zipWith (fun factor shard => gfMul 8 factor (shard.getD i 0)) (parity.drop (4 * x))
      shards).foldl (· ^^^ ·) 0
  encode_length := by simp

/-- Audio in the clear, in packets of five milliseconds. -/
def plain : Config := ⟨false, 0, 5, fun _ _ => none⟩

/-- Five packets of one session, the third of which is not sent, and one of another. -/
def oneBlock : List (Packet Bool) :=
  [⟨false, some true, [1, 2], none⟩, ⟨false, some true, [3, 4], none⟩,
    ⟨false, some false, [9], none⟩, ⟨false, some true, [5, 6], some 0⟩,
    ⟨false, some true, [7, 8], none⟩, ⟨false, some true, [1, 1], none⟩]

/-- The parity of the finished block covers the packet that was not sent. -/
theorem broadcast_eq_described_oneBlock :
    broadcast tableCode (fun _ => plain) (fun _ => .start) oneBlock =
        described tableCode (fun _ => plain) (fun _ => []) oneBlock ∧
      described tableCode (fun _ => plain) (fun _ => []) oneBlock =
        [(true, .audio 0 0 [1, 2]), (true, .audio 1 5 [3, 4]), (false, .audio 0 0 [9]),
          (true, .audio 3 15 [7, 8]), (true, .fec 4 0 0 0 [69, 19]),
          (true, .fec 5 1 0 0 [19, 92]), (true, .audio 4 20 [1, 1])] :=
  ⟨broadcast_eq_described _ oneBlock, by decide +kernel⟩

end LuminalShine.Transport.AudioFec
