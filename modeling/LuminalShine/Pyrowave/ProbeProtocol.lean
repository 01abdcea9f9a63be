import LuminalShine.Lib.HexText
import Mathlib.Data.List.Basic

/-!
# The arguments of a profile probe

`src/pyrowave/probe_protocol.h`, and the two ends of it in `src/pyrowave/backend.cpp`: the
service encodes the selection of a probe as three command-line tokens, and the probe process
decodes them.

The loops over eight digits fill the 32 bits of a number exactly, so no shift drops a digit.

## Main definitions

* `encodeSelection`, `decodeSelection` — a name, as its length and its bytes.
* `encodeOptionalLuid`, `decodeOptionalLuid` — an adapter, or that there is none.
* `encodeProbe`, `decodeProbe` — `run_probe_process` and `run_profile_probe_child`.

## Main results

* `selection_exact`, `luid_exact` — each token is an exact codec.
* `probe_exact` — and so are the three.
-/

namespace LuminalShine.Pyrowave.ProbeProtocol

open LuminalShine.Lib.Hex

abbrev Bytes := List UInt8

/-- `kMaxSelectionBytes` -/
def maxSelectionBytes : ℕ := 4096

/-- `kLengthDigits` -/
def lengthDigits : ℕ := 8

/-- `kEncodedLuidSize` -/
def encodedLuidSize : ℕ := 17

/-! ## Names -/

/-- `encode_selection` -/
def encodeSelection (name : Bytes) : Option Bytes :=
  if maxSelectionBytes < name.length ∨ 0 ∈ name then none
  else some (digits lengthDigits name.length ++ byteDigits name)

/-- `decode_selection` -/
def decodeSelection (encoded : Bytes) : Option Bytes :=
  if encoded.length < lengthDigits then none
  else (value (encoded.take lengthDigits)).bind fun length =>
    if maxSelectionBytes < length ∨ encoded.length ≠ lengthDigits + length * 2 then none
    else bytesOf (encoded.drop lengthDigits)

/-- What is not encoded: a name that is too long, or one with a NUL in it. -/
theorem encodeSelection_eq_none {name : Bytes} :
    encodeSelection name = none ↔ maxSelectionBytes < name.length ∨ 0 ∈ name := by
  rw [encodeSelection]
  split_ifs with h <;> simp [h]

theorem decodeSelection_append {name : Bytes} (hlong : name.length ≤ maxSelectionBytes)
    (hnul : 0 ∉ name) :
    decodeSelection (digits lengthDigits name.length ++ byteDigits name) = some name := by
  have hlt : name.length < 16 ^ lengthDigits := by
    simp only [maxSelectionBytes, lengthDigits] at *
    omega
  have htake : (digits lengthDigits name.length ++ byteDigits name).take lengthDigits =
      digits lengthDigits name.length := List.take_left' (length_digits _ _)
  have hdrop : (digits lengthDigits name.length ++ byteDigits name).drop lengthDigits =
      byteDigits name := List.drop_left' (length_digits _ _)
  simp only [decodeSelection, htake, hdrop, value_digits hlt, Option.bind_some, List.length_append,
    length_digits, length_byteDigits]
  rw [if_neg (by omega), if_neg (by omega)]
  exact bytesOf_byteDigits hnul

/-- **A name's token.**  It reads back, and nothing else is read. -/
theorem selection_exact : ExactCodec encodeSelection decodeSelection (List.map upper) where
  reads := by
    intro name encoded h
    simp only [encodeSelection, Option.ite_none_left_eq_some, not_or, Nat.not_lt,
      Option.some.injEq] at h
    rcases h with ⟨⟨hlong, hnul⟩, rfl⟩
    exact decodeSelection_append hlong hnul
  image := by
    intro encoded name h
    simp only [decodeSelection, Option.ite_none_left_eq_some, Option.bind_eq_some_iff, not_or,
      Nat.not_lt, not_not] at h
    rcases h with ⟨hlong, length, hlength, ⟨hmax, hsize⟩, hbytes⟩
    rcases digits_of_value hlength with ⟨-, hdigits⟩
    have hdrop : (encoded.drop lengthDigits).length = length * 2 := by
      rw [List.length_drop]
      omega
    rcases byteDigits_of_bytesOf (by omega) hbytes with ⟨hname, hnul, hcount⟩
    have hlen : name.length = length := by omega
    rw [List.length_take_of_le hlong] at hdigits
    rw [encodeSelection, if_neg (by rw [hlen]; simp [hnul]; omega), hlen, hdigits, hname,
      ← List.map_append, List.take_append_drop]

/-! ## Adapters -/

/-- `optional_luid_t` -/
structure OptionalLuid where
  present : Bool
  high : UInt32
  low : UInt32
  deriving DecidableEq, Repr

/-- The `LUID` of Windows. -/
structure Luid where
  highPart : Int32
  lowPart : UInt32

/-- `encode_optional_luid` -/
def encodeOptionalLuid (luid : OptionalLuid) : Bytes :=
  if luid.present then 49 :: (digits 8 luid.high.toNat ++ digits 8 luid.low.toNat)
  else List.replicate encodedLuidSize 48

/-- The end of `decode_optional_luid`: absence has one representation. -/
def canonical (luid : OptionalLuid) : Option OptionalLuid :=
  if luid.present = false ∧ (luid.high ≠ 0 ∨ luid.low ≠ 0) then none else some luid

/-- `decode_optional_luid` -/
def decodeOptionalLuid (encoded : Bytes) : Option OptionalLuid :=
  if encoded.length ≠ encodedLuidSize ∨
      (encoded.head? ≠ some 48 ∧ encoded.head? ≠ some 49) then none
  else do
    let high ← value ((encoded.drop 1).take 8)
    let low ← value ((encoded.drop 9).take 8)
    canonical { present := encoded.head? = some 49, high := .ofNat high, low := .ofNat low }

/-- The `wire_luid` of `run_probe_process`. -/
def wireLuid : Option Luid → OptionalLuid
  | none => { present := false, high := 0, low := 0 }
  | some luid => { present := true, high := luid.highPart.toUInt32, low := luid.lowPart }

/-- What `run_profile_probe_child` makes of it. -/
def luidOf (wire : OptionalLuid) : Option Luid :=
  if wire.present then some { highPart := wire.high.toInt32, lowPart := wire.low } else none

theorem luidOf_wireLuid (luid : Option Luid) : luidOf (wireLuid luid) = luid := by
  cases luid with
  | none => rfl
  | some luid => simp [luidOf, wireLuid]

/-- A canonical value comes from an adapter, or from none. -/
theorem wireLuid_luidOf {wire luid : OptionalLuid} (h : canonical wire = some luid) :
    wire = luid ∧ wireLuid (luidOf luid) = luid := by
  simp only [canonical, Option.ite_none_left_eq_some, Option.some.injEq] at h
  rcases h with ⟨hcanonical, rfl⟩
  refine ⟨rfl, ?_⟩
  rcases wire with ⟨_ | _, high, low⟩
  · simp only [true_and, not_or, not_not] at hcanonical
    simp [luidOf, wireLuid, hcanonical]
  · simp [luidOf, wireLuid]

/-- The digits of none are those of zeros. -/
theorem encodeOptionalLuid_wireLuid (luid : Option Luid) :
    encodeOptionalLuid (wireLuid luid) =
      (if (wireLuid luid).present then 49 else 48) ::
        (digits 8 (wireLuid luid).high.toNat ++ digits 8 (wireLuid luid).low.toNat) := by
  cases luid <;> rfl

theorem decodeOptionalLuid_cons {luid : OptionalLuid} (h : canonical luid = some luid) :
    decodeOptionalLuid ((if luid.present then 49 else 48) ::
      (digits 8 luid.high.toNat ++ digits 8 luid.low.toNat)) = some luid := by
  have hhigh : value (digits 8 luid.high.toNat) = some luid.high.toNat :=
    value_digits luid.high.toNat_lt
  have hlow : value (digits 8 luid.low.toNat) = some luid.low.toNat :=
    value_digits luid.low.toNat_lt
  have hfirst : (digits 8 luid.high.toNat ++ digits 8 luid.low.toNat).take 8 =
      digits 8 luid.high.toNat := List.take_left' (length_digits _ _)
  have hsecond : (digits 8 luid.high.toNat ++ digits 8 luid.low.toNat).drop 8 =
      digits 8 luid.low.toNat := List.drop_left' (length_digits _ _)
  have hall : (digits 8 luid.low.toNat).take 8 = digits 8 luid.low.toNat :=
    List.take_of_length_le (by simp)
  have hsize : ((if luid.present then 49 else 48) ::
      (digits 8 luid.high.toNat ++ digits 8 luid.low.toNat)).length = encodedLuidSize := by
    simp [encodedLuidSize]
  have hpresent :
      decide ((if luid.present = true then (49 : UInt8) else 48) = 49) = luid.present := by
    cases luid.present <;> rfl
  rw [decodeOptionalLuid, if_neg (by rw [hsize]; cases luid.present <;> simp)]
  simp only [List.drop_succ_cons, List.drop_zero, hfirst, hsecond, hall, hhigh, hlow,
    Option.bind_eq_bind, Option.bind_some, List.head?_cons, Option.some.injEq, hpresent,
    UInt32.ofNat_toNat, h]

/-- **An adapter's token.**  It reads back, and nothing else is read. -/
theorem luid_exact :
    ExactCodec (fun luid => some (encodeOptionalLuid (wireLuid luid)))
      (fun encoded => (decodeOptionalLuid encoded).map luidOf) (List.map upper) where
  reads := by
    intro luid encoded h
    rw [Option.some.injEq] at h
    have hcanonical : canonical (wireLuid luid) = some (wireLuid luid) := by
      cases luid <;> simp [canonical, wireLuid]
    rw [← h, encodeOptionalLuid_wireLuid, decodeOptionalLuid_cons hcanonical, Option.map_some,
      luidOf_wireLuid]
  image := by
    intro encoded luid h
    rw [Option.map_eq_some_iff] at h
    rcases h with ⟨wire, hwire, rfl⟩
    simp only [decodeOptionalLuid, Option.ite_none_left_eq_some, not_or, not_not,
      Option.bind_eq_bind, Option.bind_eq_some_iff] at hwire
    rcases hwire with ⟨⟨hsize, hhead⟩, high, hhigh, low, hlow, hwire⟩
    rcases wireLuid_luidOf hwire with ⟨rfl, hroundtrip⟩
    rcases encoded with _ | ⟨c, rest⟩
    · cases hsize
    · have hrest : rest.length = 16 := by simpa [encodedLuidSize] using hsize
      simp only [List.drop_succ_cons, List.drop_zero] at hhigh hlow
      rcases digits_of_value hhigh with ⟨hhigh32, hhighDigits⟩
      rcases digits_of_value hlow with ⟨hlow32, hlowDigits⟩
      have hfirst : (rest.take 8).length = 8 := by simp [hrest]
      have hsecond : ((rest.drop 8).take 8).length = 8 := by simp [hrest]
      have hall : (rest.drop 8).take 8 = rest.drop 8 := List.take_of_length_le (by simp [hrest])
      rw [hfirst] at hhigh32 hhighDigits
      rw [hsecond] at hlow32 hlowDigits
      have hhighNat : (UInt32.ofNat high).toNat = high :=
        Nat.mod_eq_of_lt (by simpa using hhigh32)
      have hlowNat : (UInt32.ofNat low).toNat = low := Nat.mod_eq_of_lt (by simpa using hlow32)
      rw [encodeOptionalLuid_wireLuid, hroundtrip]
      simp only [List.head?_cons, Option.some.injEq, hhighNat, hlowNat, hhighDigits, hlowDigits,
        hall, ← List.map_append, List.take_append_drop, List.map_cons, List.cons.injEq, and_true]
      by_cases hpresent : c = 49
      · simp [hpresent, upper]
      · have habsent : c = 48 := by
          by_contra hne
          exact hhead ⟨by simpa using hne, by simpa using hpresent⟩
        simp [habsent, upper]

theorem upper_eq_zero {c : UInt8} (h : upper c = 48) : c = 48 := by
  simp only [upper] at h
  split_ifs at h with hlower
  · have hc := congrArg UInt8.toNat h
    have hle : 32 ≤ c := by
      simp only [UInt8.le_iff_toNat_le, UInt8.reduceToNat] at hlower ⊢
      omega
    rw [UInt8.toNat_sub_of_le _ _ hle] at hc
    simp only [UInt8.le_iff_toNat_le, UInt8.reduceToNat] at hlower hc
    omega
  · exact h

/-- No adapter has one token. -/
theorem decodeOptionalLuid_absent {encoded : Bytes} :
    decodeOptionalLuid encoded = some (wireLuid none) ↔
      encoded = List.replicate encodedLuidSize 48 := by
  constructor
  · intro h
    have himage := luid_exact.image encoded none (by rw [h]; rfl)
    rw [Option.some.injEq] at himage
    refine List.eq_replicate_iff.mpr ⟨?_, fun c hc => upper_eq_zero ?_⟩
    · have hlength := congrArg List.length himage
      rw [List.length_map] at hlength
      exact hlength.symm
    · have hmem := List.mem_map_of_mem (f := upper) hc
      rw [← himage] at hmem
      exact List.eq_of_mem_replicate hmem
  · rintro rfl
    rfl

/-! ## The probe -/

/-- `probe_selection_t` -/
structure ProbeSelection where
  adapterName : Bytes
  outputName : Bytes
  adapterLuidOverride : Option Luid

/-- The three tokens that `run_probe_process` puts on the command line. -/
def encodeProbe (selection : ProbeSelection) : Option (Bytes × Bytes × Bytes) := do
  let adapter ← encodeSelection selection.adapterName
  let output ← encodeSelection selection.outputName
  pure (adapter, output, encodeOptionalLuid (wireLuid selection.adapterLuidOverride))

/-- What `run_profile_probe_child` makes of three tokens. -/
def decodeProbe (tokens : Bytes × Bytes × Bytes) : Option ProbeSelection := do
  let adapterName ← decodeSelection tokens.1
  let outputName ← decodeSelection tokens.2.1
  let wire ← decodeOptionalLuid tokens.2.2
  pure { adapterName, outputName, adapterLuidOverride := luidOf wire }

/-- The normal form of three tokens. -/
def upperTokens (tokens : Bytes × Bytes × Bytes) : Bytes × Bytes × Bytes :=
  (tokens.1.map upper, tokens.2.1.map upper, tokens.2.2.map upper)

theorem probe_exact : ExactCodec encodeProbe decodeProbe upperTokens where
  reads := by
    rintro ⟨adapterName, outputName, luid⟩ tokens h
    simp only [encodeProbe, Option.bind_eq_bind, Option.bind_eq_some_iff, Option.pure_def,
      Option.some.injEq] at h
    rcases h with ⟨adapter, hadapter, output, houtput, rfl⟩
    have hluid := luid_exact.reads luid _ rfl
    rw [Option.map_eq_some_iff] at hluid
    rcases hluid with ⟨wire, hwire, rfl⟩
    simp only [decodeProbe, selection_exact.reads _ _ hadapter, selection_exact.reads _ _ houtput,
      hwire, Option.bind_eq_bind, Option.bind_some, Option.pure_def]
  image := by
    rintro ⟨adapter, output, encoded⟩ selection h
    simp only [decodeProbe, Option.bind_eq_bind, Option.bind_eq_some_iff, Option.pure_def,
      Option.some.injEq] at h
    rcases h with ⟨adapterName, hadapter, outputName, houtput, wire, hwire, rfl⟩
    have hluid := luid_exact.image encoded (luidOf wire) (by rw [hwire, Option.map_some])
    rw [Option.some.injEq] at hluid
    simp only [encodeProbe, selection_exact.image _ _ hadapter, selection_exact.image _ _ houtput,
      hluid, Option.bind_eq_bind, Option.bind_some, Option.pure_def, upperTokens]

/-- What the two ends of the protocol owe each other. -/
structure Sound : Prop where
  names : ExactCodec encodeSelection decodeSelection (List.map upper)
  encodable : ∀ name, encodeSelection name = none ↔ maxSelectionBytes < name.length ∨ 0 ∈ name
  adapters : ExactCodec (fun luid => some (encodeOptionalLuid (wireLuid luid)))
    (fun encoded => (decodeOptionalLuid encoded).map luidOf) (List.map upper)
  absent : ∀ encoded, decodeOptionalLuid encoded = some (wireLuid none) ↔
    encoded = List.replicate encodedLuidSize 48
  probes : ExactCodec encodeProbe decodeProbe upperTokens
  distinct : ∀ selection selection' tokens, encodeProbe selection = some tokens →
    encodeProbe selection' = some tokens → selection = selection'

/-- **The probe's arguments.**  Every selection that is encoded reads back as it was, and what
is accepted is, in upper case, the encoding of what it reads as. -/
theorem probe_sound : Sound where
  names := selection_exact
  encodable := fun _ => encodeSelection_eq_none
  adapters := luid_exact
  absent := fun _ => decodeOptionalLuid_absent
  probes := probe_exact
  distinct := fun _ _ _ h h' => probe_exact.injective h h'

end LuminalShine.Pyrowave.ProbeProtocol
