import Mathlib
import LuminalShine.Config.Text

/-!
# Display modes of a session

`parse_configuration` works out which mode a session's display is put into: from the client, from
the settings, or from the first entry of a remapping list that fits.  Refresh rates are written
as decimals and compared as fractions.

* `parseResolution`, `parseRefreshRate` — the two string parsers;
* `remapDisplayModeIfNeeded`, `parseConfiguration` — the decision;
* `refreshRateOverrideActive` — the separate answer to whether a refresh rate is overridden;
* `parseRefreshRate_faithful` — two spellings are the same fraction exactly when they are the
  same number;
* `override_active_of_remapped` — the separate answer never misses a remapped refresh rate, and
  in the mapping of refresh rates alone it is exact.
-/

namespace LuminalShine.DisplayDevice

open LuminalShine.Config (trim dropTrailing)

abbrev Text := List Char

structure Resolution where
  width : ℕ
  height : ℕ
  deriving DecidableEq, Repr

/-- A `Rational`; the other alternative of `FloatingPoint` is never built here. -/
structure Rational where
  numerator : ℕ
  denominator : ℕ
  deriving DecidableEq, Repr

/-! ## Strings -/

/-- The number a text of digits stands for. -/
def digitsValue (digits : Text) : ℕ :=
  digits.foldl (fun value ch => 10 * value + (ch.toNat - '0'.toNat)) 0

/-- `stou` of a text of digits; `none` is out of range. -/
def stou (digits : Text) : Option ℕ :=
  if digitsValue digits < 2 ^ 32 then some (digitsValue digits) else none

/-- `(\d+)x(\d+)`. -/
def matchResolution (text : Text) : Option (Text × Text) :=
  let width := text.takeWhile Char.isDigit
  match text.dropWhile Char.isDigit with
  | 'x' :: height =>
    if width ≠ [] ∧ height ≠ [] ∧ height.all Char.isDigit then some (width, height) else none
  | _ => none

/-- `parse_resolution_string`: `none` is a failure, `some none` an empty text. -/
def parseResolution (input : Text) : Option (Option Resolution) :=
  let text := (trim input).map fun ch => if ch = '×' then 'x' else ch
  match matchResolution text with
  | some (width, height) =>
    (stou width).bind fun width => (stou height).map fun height => some ⟨width, height⟩
  | none => if text = [] then some none else none

/-- `(\d+)(?:\.(\d+))?`, or `(\d+)` alone. -/
def matchDecimal (allowDecimalPoint : Bool) (text : Text) : Option (Text × Text) :=
  let whole := text.takeWhile Char.isDigit
  match text.dropWhile Char.isDigit with
  | [] => if whole ≠ [] then some (whole, []) else none
  | ch :: fraction =>
    if allowDecimalPoint ∧ ch = '.' ∧ whole ≠ [] ∧ fraction ≠ [] ∧ fraction.all Char.isDigit then
      some (whole, fraction)
    else none

def isZero (ch : Char) : Bool := ch = '0'

/-- `10 ^ places` as an `unsigned int`; beyond nine places the conversion is out of range and
gives what the compiler makes of it. -/
def denominatorOf (outOfRange : ℕ → ℕ) (places : ℕ) : ℕ :=
  if places ≤ 9 then 10 ^ places else outOfRange places

/-- `parse_refresh_rate_string`. -/
def parseRefreshRate (outOfRange : ℕ → ℕ) (allowDecimalPoint : Bool) (input : Text) :
    Option (Option Rational) :=
  let text := trim input
  match matchDecimal allowDecimalPoint text with
  | some (whole, fraction) =>
    let whole := if whole.dropWhile isZero = [] then ['0'] else whole.dropWhile isZero
    let fraction := dropTrailing isZero fraction
    if fraction ≠ [] then
      (stou (whole ++ fraction)).map fun numerator =>
        some ⟨numerator, denominatorOf outOfRange fraction.length⟩
    else (stou whole).map fun numerator => some ⟨numerator, 1⟩
  | none => if text = [] then some none else none

/-! ## The settings and the session -/

inductive ConfigOption
  | disabled | verifyOnly | ensureActive | ensurePrimary | ensureOnlyDisplay
  deriving DecidableEq, Repr

inductive ResolutionOption
  | disabled | automatic | manual
  deriving DecidableEq, Repr

inductive RefreshRateOption
  | disabled | automatic | manual | preferHighest
  deriving DecidableEq, Repr

inductive HdrOption
  | disabled | automatic
  deriving DecidableEq, Repr

inductive DevicePreparation
  | verifyOnly | ensureActive | ensurePrimary | ensureOnlyDisplay
  deriving DecidableEq, Repr

inductive HdrState
  | disabled | enabled
  deriving DecidableEq, Repr

/-- `mode_remapping_entry_t`. -/
structure RemappingEntry where
  requestedResolution : Text
  requestedFps : Text
  finalResolution : Text
  finalRefreshRate : Text

/-- What of `config::video_t` the decision reads. -/
structure VideoConfig where
  outputName : Text
  configurationOption : ConfigOption
  resolutionOption : ResolutionOption
  manualResolution : Text
  refreshRateOption : RefreshRateOption
  manualRefreshRate : Text
  hdrOption : HdrOption
  dummyPlugHdr10 : Bool
  mixed : List RemappingEntry
  resolutionOnly : List RemappingEntry
  refreshRateOnly : List RemappingEntry

/-- What of `launch_session_t` it reads. -/
structure LaunchSession where
  clientDisplayModeOverride : Bool
  width : ℤ
  height : ℤ
  fps : ℤ
  virtualDisplay : Bool
  framegenRefreshRate : Option ℤ
  enableHdr : Bool

/-- `SingleDisplayConfiguration`. -/
structure DisplayConfiguration where
  deviceId : Text
  devicePrep : DevicePreparation
  resolution : Option Resolution
  refreshRate : Option Rational
  hdrState : Option HdrState
  deriving DecidableEq, Repr

inductive Parsed
  | failedToParse
  | configurationDisabled
  | configuration (config : DisplayConfiguration)
  deriving DecidableEq, Repr

/-! ## The decision -/

def parseDevicePrepOption (cfg : VideoConfig) : Option DevicePreparation :=
  match cfg.configurationOption with
  | .verifyOnly => some .verifyOnly
  | .ensureActive => some .ensureActive
  | .ensurePrimary => some .ensurePrimary
  | .ensureOnlyDisplay => some .ensureOnlyDisplay
  | .disabled => none

def parseHdrOption (cfg : VideoConfig) (session : LaunchSession) : Option HdrState :=
  if cfg.dummyPlugHdr10 then some .enabled
  else match cfg.hdrOption with
    | .automatic => some (if session.enableHdr then .enabled else .disabled)
    | .disabled => none

/-- The resolution of the client. -/
def clientResolution (session : LaunchSession) : Option (Option Resolution) :=
  if 0 ≤ session.width ∧ 0 ≤ session.height then
    some (some ⟨session.width.toNat, session.height.toNat⟩)
  else none

/-- `parse_resolution_option`: the resolution that is set, if any; `none` is a failure. -/
def parseResolutionOption (cfg : VideoConfig) (session : LaunchSession) :
    Option (Option Resolution) :=
  if session.clientDisplayModeOverride then clientResolution session
  else match cfg.resolutionOption with
    | .automatic => clientResolution session
    | .manual => (parseResolution cfg.manualResolution).bind fun r => r.map some
    | .disabled => some none

def targetFps (session : LaunchSession) : ℤ :=
  if session.virtualDisplay then session.fps
  else match session.framegenRefreshRate with
    | some rate => if 0 < rate then rate else session.fps
    | none => session.fps

/-- The refresh rate of the client. -/
def clientRefreshRate (session : LaunchSession) : Option (Option Rational) :=
  if 0 ≤ targetFps session then some (some ⟨(targetFps session).toNat, 1⟩) else none

section Decision
variable (outOfRange : ℕ → ℕ)

/-- `parse_refresh_rate_option`. -/
def parseRefreshRateOption (cfg : VideoConfig) (session : LaunchSession) :
    Option (Option Rational) :=
  if session.clientDisplayModeOverride then clientRefreshRate session
  else match cfg.refreshRateOption with
    | .automatic => clientRefreshRate session
    | .manual => (parseRefreshRate outOfRange true cfg.manualRefreshRate).bind fun r => r.map some
    | .preferHighest => some (some ⟨10000, 1⟩)
    | .disabled => some none

inductive RemappingType
  | mixed | resolutionOnly | refreshRateOnly
  deriving DecidableEq, Repr

def determineRemappingType (cfg : VideoConfig) : Option RemappingType :=
  let autoResolution := cfg.resolutionOption = .automatic
  let autoRefreshRate := cfg.refreshRateOption = .automatic
  if autoResolution ∧ autoRefreshRate then some .mixed
  else if autoResolution then some .resolutionOnly
  else if autoRefreshRate then some .refreshRateOnly
  else none

def isResolutionMapped (type : RemappingType) : Bool := type = .resolutionOnly || type = .mixed

def isFpsMapped (type : RemappingType) : Bool := type = .refreshRateOnly || type = .mixed

def remappingList (cfg : VideoConfig) : RemappingType → List RemappingEntry
  | .resolutionOnly => cfg.resolutionOnly
  | .refreshRateOnly => cfg.refreshRateOnly
  | .mixed => cfg.mixed

/-- `parsed_remapping_entry_t`. -/
structure ParsedEntry where
  requestedResolution : Option Resolution
  requestedFps : Option Rational
  finalResolution : Option Resolution
  finalRefreshRate : Option Rational
  deriving DecidableEq, Repr

/-- A field of an entry is parsed when its kind is mapped. -/
def parseIf {α : Type} (mapped : Bool) (parsed : Option (Option α)) : Option (Option α) :=
  if mapped then parsed else some none

/-- `parse_remapping_entry`. -/
def parseRemappingEntry (entry : RemappingEntry) (type : RemappingType) : Option ParsedEntry :=
  (parseIf (isResolutionMapped type) (parseResolution entry.requestedResolution)).bind fun rr =>
  (parseIf (isResolutionMapped type) (parseResolution entry.finalResolution)).bind fun fr =>
  (parseIf (isFpsMapped type) (parseRefreshRate outOfRange false entry.requestedFps)).bind fun rf =>
  (parseIf (isFpsMapped type) (parseRefreshRate outOfRange true entry.finalRefreshRate)).map
    fun ff => ⟨rr, rf, fr, ff⟩

/-- A requested value that is given is the one at hand. -/
def matchesRequest {α : Type} [DecidableEq α] (requested actual : Option α) : Bool :=
  requested = none || requested = actual

/-- The loop of `remap_display_mode_if_needed`: `none` is an entry that cannot be used, before
any that fits. -/
def remapLoop (type : RemappingType) (resolution : Option Resolution)
    (refreshRate : Option Rational) :
    List RemappingEntry → Option (Option Resolution × Option Rational)
  | [] => some (resolution, refreshRate)
  | entry :: entries =>
    match parseRemappingEntry outOfRange entry type with
    | none => none
    | some parsed =>
      if parsed.finalResolution = none ∧ parsed.finalRefreshRate = none then none
      else if matchesRequest parsed.requestedResolution resolution ∧
          matchesRequest parsed.requestedFps refreshRate then
        some (parsed.finalResolution.or resolution, parsed.finalRefreshRate.or refreshRate)
      else remapLoop type resolution refreshRate entries

/-- `remap_display_mode_if_needed`. -/
def remapDisplayModeIfNeeded (cfg : VideoConfig) (session : LaunchSession)
    (resolution : Option Resolution) (refreshRate : Option Rational) :
    Option (Option Resolution × Option Rational) :=
  if session.clientDisplayModeOverride then some (resolution, refreshRate)
  else match determineRemappingType cfg with
    | none => some (resolution, refreshRate)
    | some type => remapLoop outOfRange type resolution refreshRate (remappingList cfg type)

/-- `parse_configuration`. -/
def parseConfiguration (cfg : VideoConfig) (session : LaunchSession) : Parsed :=
  match parseDevicePrepOption cfg with
  | none => .configurationDisabled
  | some prep =>
    match parseResolutionOption cfg session, parseRefreshRateOption outOfRange cfg session with
    | some resolution, some refreshRate =>
      match remapDisplayModeIfNeeded outOfRange cfg session resolution refreshRate with
      | some (resolution, refreshRate) =>
        .configuration ⟨cfg.outputName, prep, resolution, refreshRate, parseHdrOption cfg session⟩
      | none => .failedToParse
    | _, _ => .failedToParse

/-- The loop of `refresh_rate_override_active`. -/
def overrideLoop (type : RemappingType) (requested : Rational) : List RemappingEntry → Bool
  | [] => false
  | entry :: entries =>
    match parseRemappingEntry outOfRange entry type with
    | none => false
    | some parsed =>
      if parsed.finalRefreshRate = none then overrideLoop type requested entries
      else if matchesRequest parsed.requestedFps (some requested) then true
      else overrideLoop type requested entries

/-- `refresh_rate_override_active`. -/
def refreshRateOverrideActive (cfg : VideoConfig) (session : LaunchSession) : Bool :=
  if cfg.refreshRateOption = .manual then true
  else if session.clientDisplayModeOverride then false
  else match determineRemappingType cfg with
    | none => false
    | some type =>
      if isFpsMapped type ∧ 0 ≤ targetFps session then
        overrideLoop outOfRange type ⟨(targetFps session).toNat, 1⟩ (remappingList cfg type)
      else false

end Decision

/-! ## Decimals -/

section Decimals
variable {outOfRange : ℕ → ℕ} {point : Bool} {input whole fraction : Text}

theorem foldl_digits (digits : Text) (value : ℕ) :
    digits.foldl (fun value ch => 10 * value + (ch.toNat - '0'.toNat)) value =
      value * 10 ^ digits.length + digitsValue digits := by
  induction digits generalizing value with
  | nil => simp [digitsValue]
  | cons ch digits ih =>
      have hone := ih (ch.toNat - '0'.toNat)
      simp only [digitsValue, List.foldl_cons, List.length_cons, Nat.mul_zero, Nat.zero_add]
        at hone ⊢
      rw [ih, hone, digitsValue]
      ring

/-- Digits in front weigh what the digits behind them are. -/
theorem digitsValue_append (a b : Text) :
    digitsValue (a ++ b) = digitsValue a * 10 ^ b.length + digitsValue b := by
  rw [digitsValue, List.foldl_append, foldl_digits]
  rfl

theorem digitsValue_zeros (zeros : Text) (hzeros : ∀ ch ∈ zeros, isZero ch = true) :
    digitsValue zeros = 0 := by
  induction zeros with
  | nil => rfl
  | cons ch zeros ih =>
      have hch : ch = '0' := by simpa [isZero] using hzeros ch List.mem_cons_self
      rw [← List.singleton_append, digitsValue_append, ih fun c hc =>
        hzeros c (List.mem_cons_of_mem _ hc), hch]
      simp [digitsValue]

/-- Leading zeros do not count. -/
theorem digitsValue_dropWhile (digits : Text) :
    digitsValue (digits.dropWhile isZero) = digitsValue digits := by
  conv_rhs => rw [← List.takeWhile_append_dropWhile (p := isZero) (l := digits),
    digitsValue_append, digitsValue_zeros _ fun ch hch => List.mem_takeWhile_imp hch]
  simp

/-- The whole part as it is kept. -/
theorem digitsValue_whole (whole : Text) :
    digitsValue (if whole.dropWhile isZero = [] then ['0'] else whole.dropWhile isZero) =
      digitsValue whole := by
  rw [← digitsValue_dropWhile whole]
  split
  · rename_i hnil
    rw [hnil]
    rfl
  · rfl

/-- What `dropTrailing` removes are zeros at the end. -/
theorem exists_zeros (fraction : Text) : ∃ zeros : Text,
    (∀ ch ∈ zeros, isZero ch = true) ∧ fraction = dropTrailing isZero fraction ++ zeros := by
  refine ⟨(fraction.reverse.takeWhile isZero).reverse, ?_, ?_⟩
  · intro ch hch
    exact List.mem_takeWhile_imp (List.mem_reverse.mp hch)
  · rw [dropTrailing, ← List.reverse_append, List.takeWhile_append_dropWhile,
      List.reverse_reverse]

/-- Trailing zeros of a fraction scale the number. -/
theorem digitsValue_dropTrailing (whole fraction : Text) :
    digitsValue (whole ++ dropTrailing isZero fraction) * 10 ^ fraction.length =
      digitsValue (whole ++ fraction) * 10 ^ (dropTrailing isZero fraction).length := by
  obtain ⟨zeros, hzeros, heq⟩ := exists_zeros fraction
  generalize dropTrailing isZero fraction = kept at heq
  subst heq
  rw [← List.append_assoc, digitsValue_append (whole ++ kept), digitsValue_zeros zeros hzeros,
    List.length_append, pow_add]
  ring

theorem digit_pos {ch : Char} (hdigit : ch.isDigit = true) (hzero : ¬ isZero ch = true) :
    0 < ch.toNat - '0'.toNat ∧ ch.toNat - '0'.toNat < 10 := by
  simp only [Char.isDigit, Bool.and_eq_true, decide_eq_true_eq, ge_iff_le, UInt32.le_iff_toNat_le]
    at hdigit
  have hne : ch.toNat ≠ '0'.toNat := by
    intro heq
    exact hzero (by simpa [isZero] using Char.toNat_inj.mp heq)
  have hlow : '0'.toNat ≤ ch.toNat := hdigit.1
  have hhigh : ch.toNat ≤ '9'.toNat := hdigit.2
  have h9 : '9'.toNat = '0'.toNat + 9 := rfl
  omega

/-- A fraction that is kept ends in a digit that is not zero. -/
theorem mod_ten_ne_zero (hdigits : fraction.all Char.isDigit = true)
    (hne : dropTrailing isZero fraction ≠ []) :
    digitsValue (whole ++ dropTrailing isZero fraction) % 10 ≠ 0 := by
  have hlast : ¬ isZero ((dropTrailing isZero fraction).getLast hne) = true :=
    List.rdropWhile_last_not isZero fraction hne
  have hmem : (dropTrailing isZero fraction).getLast hne ∈ fraction :=
    (List.rdropWhile_prefix isZero fraction).subset (List.getLast_mem hne)
  have hdigit : ((dropTrailing isZero fraction).getLast hne).isDigit = true :=
    List.all_eq_true.mp hdigits _ hmem
  rw [← List.dropLast_append_getLast hne]
  generalize (dropTrailing isZero fraction).getLast hne = ch at hlast hdigit
  rw [← List.append_assoc, digitsValue_append]
  simp only [List.length_singleton, pow_one, Nat.mul_add_mod_self_right, digitsValue,
    List.foldl_cons, List.foldl_nil, Nat.mul_zero, Nat.zero_add]
  obtain ⟨hpos, hlt⟩ := digit_pos hdigit hlast
  rw [Nat.mod_eq_of_lt hlt]
  omega

/-- Of two spellings of one number that end in no zero, the shorter is no shorter. -/
theorem exponent_le {m n j k : ℕ} (heq : m * 10 ^ k = n * 10 ^ j) (hn : k ≠ 0 → n % 10 ≠ 0) :
    k ≤ j := by
  by_contra hlt
  obtain ⟨d, rfl⟩ := Nat.exists_eq_add_of_lt (Nat.lt_of_not_le hlt)
  have hpos : 0 < 10 ^ j := by positivity
  have hmul : m * 10 ^ (d + 1) * 10 ^ j = n * 10 ^ j := by
    rw [← heq]
    ring
  have hn' : n = m * 10 ^ (d + 1) := (Nat.eq_of_mul_eq_mul_right hpos hmul).symm
  apply hn (by omega)
  rw [hn', pow_succ, ← Nat.mul_assoc, Nat.mul_mod_left]

/-- A number has one spelling as a decimal that does not end in a zero. -/
theorem decimal_unique {m n j k : ℕ} (hm : j ≠ 0 → m % 10 ≠ 0) (hn : k ≠ 0 → n % 10 ≠ 0)
    (heq : m * 10 ^ k = n * 10 ^ j) : m = n ∧ j = k := by
  have hjk : j = k := Nat.le_antisymm (exponent_le heq.symm hm) (exponent_le heq hn)
  subst hjk
  exact ⟨Nat.eq_of_mul_eq_mul_right (by positivity) heq, rfl⟩

/-- What a text that has the shape of a decimal is read as. -/
theorem parseRefreshRate_of_match {input : Text}
    (hmatch : matchDecimal point (trim input) = some (whole, fraction))
    (hplaces : (dropTrailing isZero fraction).length ≤ 9) :
    parseRefreshRate outOfRange point input =
      if digitsValue (whole ++ dropTrailing isZero fraction) < 2 ^ 32 then
        some (some ⟨digitsValue (whole ++ dropTrailing isZero fraction),
          10 ^ (dropTrailing isZero fraction).length⟩)
      else none := by
  have hwhole : ∀ kept : Text, digitsValue
      ((if whole.dropWhile isZero = [] then ['0'] else whole.dropWhile isZero) ++ kept) =
      digitsValue (whole ++ kept) := by
    intro kept
    rw [digitsValue_append, digitsValue_whole, ← digitsValue_append]
  simp only [parseRefreshRate, hmatch]
  by_cases hnil : dropTrailing isZero fraction = []
  · have hnone := hwhole []
    rw [List.append_nil, List.append_nil] at hnone
    simp only [hnil, ne_eq, not_true_eq_false, if_false, stou, hnone, List.append_nil]
    split <;> rfl
  · simp only [ne_eq, hnil, not_false_eq_true, if_true, stou, hwhole, denominatorOf, hplaces]
    split <;> rfl

theorem matchDecimal_digits (hmatch : matchDecimal point input = some (whole, fraction)) :
    fraction.all Char.isDigit = true := by
  rw [matchDecimal] at hmatch
  split at hmatch
  · split at hmatch
    · rw [Option.some.injEq, Prod.mk.injEq] at hmatch
      rw [← hmatch.2]
      rfl
    · cases hmatch
  · split at hmatch
    · rename_i hall
      rw [Option.some.injEq, Prod.mk.injEq] at hmatch
      rw [← hmatch.2]
      exact hall.2.2.2.2
    · cases hmatch

/-- A decimal that is read has the digits of its text, without the zeros that do not count. -/
theorem parseRefreshRate_eq_some {rate : Rational}
    (hmatch : matchDecimal point (trim input) = some (whole, fraction))
    (hplaces : (dropTrailing isZero fraction).length ≤ 9)
    (hparse : parseRefreshRate outOfRange point input = some (some rate)) :
    rate.numerator = digitsValue (whole ++ dropTrailing isZero fraction) ∧
      rate.denominator = 10 ^ (dropTrailing isZero fraction).length := by
  rw [parseRefreshRate_of_match hmatch hplaces, Option.ite_none_right_eq_some,
    Option.some.injEq, Option.some.injEq] at hparse
  rw [← hparse.2]
  exact ⟨rfl, rfl⟩

end Decimals

/-- **Refresh rates are read faithfully.**  Two texts with at most nine decimal places that count,
which both are read, are read as the number they spell, and as the same fraction exactly when
they spell the same number. -/
theorem parseRefreshRate_faithful {outOfRange : ℕ → ℕ} {pointA pointB : Bool}
    {a wholeA fractionA b wholeB fractionB : Text} {rateA rateB : Rational}
    (hmatchA : matchDecimal pointA (trim a) = some (wholeA, fractionA))
    (hmatchB : matchDecimal pointB (trim b) = some (wholeB, fractionB))
    (hplacesA : (dropTrailing isZero fractionA).length ≤ 9)
    (hplacesB : (dropTrailing isZero fractionB).length ≤ 9)
    (hparseA : parseRefreshRate outOfRange pointA a = some (some rateA))
    (hparseB : parseRefreshRate outOfRange pointB b = some (some rateB)) :
    rateA.numerator * 10 ^ fractionA.length =
      digitsValue (wholeA ++ fractionA) * rateA.denominator ∧
    (rateA = rateB ↔ digitsValue (wholeA ++ fractionA) * 10 ^ fractionB.length =
      digitsValue (wholeB ++ fractionB) * 10 ^ fractionA.length) := by
  obtain ⟨hnumA, hdenA⟩ := parseRefreshRate_eq_some hmatchA hplacesA hparseA
  obtain ⟨hnumB, hdenB⟩ := parseRefreshRate_eq_some hmatchB hplacesB hparseB
  have hexactA := digitsValue_dropTrailing wholeA fractionA
  have hexactB := digitsValue_dropTrailing wholeB fractionB
  rw [← hnumA, ← hdenA] at hexactA
  rw [← hnumB, ← hdenB] at hexactB
  have hdenA_pos : 0 < rateA.denominator := by
    rw [hdenA]
    positivity
  refine ⟨hexactA, ?_, ?_⟩
  · rintro rfl
    apply Nat.eq_of_mul_eq_mul_right hdenA_pos
    calc digitsValue (wholeA ++ fractionA) * 10 ^ fractionB.length * rateA.denominator
        = rateA.numerator * 10 ^ fractionA.length * 10 ^ fractionB.length := by
          rw [hexactA]
          ring
      _ = digitsValue (wholeB ++ fractionB) * 10 ^ fractionA.length * rateA.denominator := by
          rw [Nat.mul_right_comm, hexactB]
          ring
  · intro hsame
    have hpow : 0 < 10 ^ fractionA.length * 10 ^ fractionB.length := by positivity
    have hcross : rateA.numerator * rateB.denominator = rateB.numerator * rateA.denominator := by
      apply Nat.eq_of_mul_eq_mul_right hpow
      calc rateA.numerator * rateB.denominator * (10 ^ fractionA.length * 10 ^ fractionB.length)
          = rateA.numerator * 10 ^ fractionA.length * rateB.denominator *
              10 ^ fractionB.length := by ring
        _ = digitsValue (wholeA ++ fractionA) * 10 ^ fractionB.length * rateA.denominator *
              rateB.denominator := by
            rw [hexactA]
            ring
        _ = digitsValue (wholeB ++ fractionB) * rateB.denominator * 10 ^ fractionA.length *
              rateA.denominator := by
            rw [hsame]
            ring
        _ = rateB.numerator * rateA.denominator *
              (10 ^ fractionA.length * 10 ^ fractionB.length) := by
            rw [← hexactB]
            ring
    have hkept : ∀ {whole fraction : Text}, fraction.all Char.isDigit = true →
        (dropTrailing isZero fraction).length ≠ 0 →
        digitsValue (whole ++ dropTrailing isZero fraction) % 10 ≠ 0 := by
      intro whole fraction hdigits hlen
      exact mod_ten_ne_zero hdigits (List.ne_nil_of_length_pos (Nat.pos_of_ne_zero hlen))
    rw [hnumA, hnumB, hdenA, hdenB] at hcross
    obtain ⟨hnum, hlen⟩ := decimal_unique (hkept (matchDecimal_digits hmatchA))
      (hkept (matchDecimal_digits hmatchB)) hcross
    rw [hnum, ← hnumB] at hnumA
    rw [hlen, ← hdenB] at hdenA
    cases rateA
    cases rateB
    rw [Rational.mk.injEq]
    exact ⟨hnumA, hdenA⟩

/-- Two spellings of one refresh rate. -/
theorem parseRefreshRate_faithful_spellings :
    (⟨5995, 100⟩ : Rational).numerator * 10 ^ 3 = digitsValue "059950".toList * 100 :=
  have hmatchA : matchDecimal true (trim " 059.950".toList) =
      some ("059".toList, "950".toList) := by decide
  have hmatchB : matchDecimal true (trim "59.95".toList) =
      some ("59".toList, "95".toList) := by decide
  have hparseA : parseRefreshRate id true " 059.950".toList = some (some ⟨5995, 100⟩) := by decide
  have hparseB : parseRefreshRate id true "59.95".toList = some (some ⟨5995, 100⟩) := by decide
  (parseRefreshRate_faithful hmatchA hmatchB (by decide) (by decide) hparseA hparseB).1

/-! ## The separate answer about the refresh rate -/

section Override
variable {outOfRange : ℕ → ℕ} {type : RemappingType} {entry : RemappingEntry}
  {entries : List RemappingEntry} {parsed : ParsedEntry}

/-- An entry of a mapping of resolutions alone says nothing about refresh rates. -/
theorem finalRefreshRate_of_not_mapped (htype : isFpsMapped type = false)
    (hparse : parseRemappingEntry outOfRange entry type = some parsed) :
    parsed.finalRefreshRate = none := by
  simp only [parseRemappingEntry, parseIf, htype, Option.bind_eq_some_iff,
    Option.map_eq_some_iff] at hparse
  obtain ⟨_, -, _, -, _, -, ff, hff, rfl⟩ := hparse
  simpa [eq_comm] using hff

theorem resolutions_of_not_mapped (htype : isResolutionMapped type = false)
    (hparse : parseRemappingEntry outOfRange entry type = some parsed) :
    parsed.requestedResolution = none ∧ parsed.finalResolution = none := by
  simp only [parseRemappingEntry, parseIf, htype, Option.bind_eq_some_iff,
    Option.map_eq_some_iff] at hparse
  obtain ⟨rr, hrr, fr, hfr, _, -, _, -, rfl⟩ := hparse
  simp only [Bool.false_eq_true, if_false, Option.some.injEq] at hrr hfr
  exact ⟨hrr.symm, hfr.symm⟩

/-- Where refresh rates are not mapped the loop leaves them alone. -/
theorem remapLoop_of_not_mapped (htype : isFpsMapped type = false)
    {resolution res : Option Resolution} {refreshRate rate : Option Rational}
    (hloop : remapLoop outOfRange type resolution refreshRate entries = some (res, rate)) :
    rate = refreshRate := by
  induction entries with
  | nil =>
      rw [remapLoop, Option.some.injEq, Prod.mk.injEq] at hloop
      exact hloop.2.symm
  | cons entry entries ih =>
      rw [remapLoop] at hloop
      cases hparse : parseRemappingEntry outOfRange entry type with
      | none => simp [hparse] at hloop
      | some parsed =>
          have hfinal := finalRefreshRate_of_not_mapped htype hparse
          simp only [hparse] at hloop
          split at hloop
          · cases hloop
          · split at hloop
            · rw [Option.some.injEq, Prod.mk.injEq, hfinal] at hloop
              exact hloop.2.symm
            · exact ih hloop

/-- A refresh rate that the loop has changed is one the separate loop finds. -/
theorem overrideLoop_of_remapped {resolution res : Option Resolution} {requested : Rational}
    {rate : Option Rational}
    (hloop : remapLoop outOfRange type resolution (some requested) entries = some (res, rate))
    (hne : rate ≠ some requested) : overrideLoop outOfRange type requested entries = true := by
  induction entries with
  | nil =>
      rw [remapLoop, Option.some.injEq, Prod.mk.injEq] at hloop
      exact absurd hloop.2.symm hne
  | cons entry entries ih =>
      rw [remapLoop] at hloop
      rw [overrideLoop]
      cases hparse : parseRemappingEntry outOfRange entry type with
      | none => simp [hparse] at hloop
      | some parsed =>
          simp only [hparse] at hloop ⊢
          split at hloop
          · cases hloop
          · by_cases hfinal : parsed.finalRefreshRate = none
            · rw [if_pos hfinal]
              split at hloop
              · rw [Option.some.injEq, Prod.mk.injEq, hfinal] at hloop
                exact absurd hloop.2.symm hne
              · exact ih hloop
            · rw [if_neg hfinal]
              by_cases hfps : matchesRequest parsed.requestedFps (some requested) = true
              · rw [if_pos hfps]
              · rw [if_neg hfps]
                rw [if_neg (fun hboth => hfps hboth.2)] at hloop
                exact ih hloop

/-- In the mapping of refresh rates alone the separate loop finds exactly the entries that fit. -/
theorem overrideLoop_refreshRateOnly {resolution res : Option Resolution} {requested : Rational}
    {rate : Option Rational}
    (hloop : remapLoop outOfRange .refreshRateOnly resolution (some requested) entries =
      some (res, rate)) :
    overrideLoop outOfRange .refreshRateOnly requested entries = true ↔
      ∃ entry ∈ entries, ∃ parsed, parseRemappingEntry outOfRange entry .refreshRateOnly =
        some parsed ∧ matchesRequest parsed.requestedFps (some requested) = true := by
  induction entries with
  | nil => simp [overrideLoop]
  | cons entry entries ih =>
      rw [remapLoop] at hloop
      rw [overrideLoop]
      cases hparse : parseRemappingEntry outOfRange entry .refreshRateOnly with
      | none => simp [hparse] at hloop
      | some parsed =>
          obtain ⟨hreq, hres⟩ := resolutions_of_not_mapped rfl hparse
          simp only [hparse, hreq, hres] at hloop ⊢
          split at hloop
          · cases hloop
          · rename_i hgiven
            have hfinal : parsed.finalRefreshRate ≠ none := by
              intro hnone
              exact hgiven (by simp [hnone])
            rw [if_neg hfinal]
            by_cases hfps : matchesRequest parsed.requestedFps (some requested) = true
            · rw [if_pos hfps]
              simp [hparse, hfps]
            · rw [if_neg hfps]
              rw [if_neg (fun hboth => hfps hboth.2)] at hloop
              rw [ih hloop]
              simp [hparse, hfps]

/-- A configuration that is worked out comes from the options through the remapping. -/
theorem parseConfiguration_eq {cfg : VideoConfig} {session : LaunchSession}
    {config : DisplayConfiguration}
    (hparsed : parseConfiguration outOfRange cfg session = .configuration config) :
    ∃ resolution refreshRate, parseRefreshRateOption outOfRange cfg session = some refreshRate ∧
      remapDisplayModeIfNeeded outOfRange cfg session resolution refreshRate =
        some (config.resolution, config.refreshRate) := by
  rw [parseConfiguration] at hparsed
  cases hprep : parseDevicePrepOption cfg with
  | none => simp [hprep] at hparsed
  | some prep =>
      cases hres : parseResolutionOption cfg session with
      | none => simp [hprep, hres] at hparsed
      | some resolution =>
          cases hrate : parseRefreshRateOption outOfRange cfg session with
          | none => simp [hprep, hres, hrate] at hparsed
          | some refreshRate =>
              refine ⟨resolution, refreshRate, rfl, ?_⟩
              cases hremap : remapDisplayModeIfNeeded outOfRange cfg session resolution
                refreshRate with
              | none => simp [hprep, hres, hrate, hremap] at hparsed
              | some modes =>
                  simp only [hprep, hres, hrate, hremap, Parsed.configuration.injEq] at hparsed
                  rw [← hparsed]

/-- The refresh rate of a client is what the separate answer compares with. -/
theorem clientRefreshRate_eq_some {session : LaunchSession} {rate : Option Rational}
    (hrate : clientRefreshRate session = some rate) :
    0 ≤ targetFps session ∧ rate = some ⟨(targetFps session).toNat, 1⟩ := by
  rw [clientRefreshRate, Option.ite_none_right_eq_some, Option.some.injEq] at hrate
  exact ⟨hrate.1, hrate.2.symm⟩

theorem remappingType_of_automatic {cfg : VideoConfig}
    (hrate : cfg.refreshRateOption = .automatic) :
    determineRemappingType cfg =
      some (if cfg.resolutionOption = .automatic then .mixed else .refreshRateOnly) := by
  rw [determineRemappingType]
  by_cases hres : cfg.resolutionOption = .automatic <;> simp [hres, hrate]

/-- Without an automatic refresh rate none is mapped. -/
theorem isFpsMapped_of_not_automatic {cfg : VideoConfig}
    (hrate : cfg.refreshRateOption ≠ .automatic)
    (htype : determineRemappingType cfg = some type) : isFpsMapped type = false := by
  rw [determineRemappingType] at htype
  by_cases hres : cfg.resolutionOption = .automatic
  · simp only [hres, hrate, and_false, if_false, if_true, Option.some.injEq] at htype
    rw [← htype]
    rfl
  · simp [hres, hrate] at htype

end Override

/-- **The separate answer misses no override.**  Whenever a configuration is worked out and the
refresh rate is said not to be overridden, it is the one of the options, not of a remapping.  In
the mapping of refresh rates alone it is said to be overridden exactly when an entry fits. -/
theorem override_active_of_remapped {outOfRange : ℕ → ℕ} {cfg : VideoConfig}
    {session : LaunchSession} {config : DisplayConfiguration}
    (hparsed : parseConfiguration outOfRange cfg session = .configuration config) :
    (refreshRateOverrideActive outOfRange cfg session = false →
      parseRefreshRateOption outOfRange cfg session = some config.refreshRate) ∧
    (session.clientDisplayModeOverride = false → cfg.refreshRateOption = .automatic →
      cfg.resolutionOption ≠ .automatic →
      (refreshRateOverrideActive outOfRange cfg session = true ↔
        ∃ entry ∈ cfg.refreshRateOnly, ∃ parsed,
          parseRemappingEntry outOfRange entry .refreshRateOnly = some parsed ∧
          matchesRequest parsed.requestedFps (some ⟨(targetFps session).toNat, 1⟩) = true)) := by
  obtain ⟨resolution, refreshRate, hrate, hremap⟩ := parseConfiguration_eq hparsed
  refine ⟨?_, ?_⟩
  · intro hinactive
    rw [hrate]
    rw [remapDisplayModeIfNeeded] at hremap
    by_cases hclient : session.clientDisplayModeOverride = true
    · rw [if_pos hclient, Option.some.injEq, Prod.mk.injEq] at hremap
      rw [hremap.2]
    rw [if_neg hclient] at hremap
    cases htype : determineRemappingType cfg with
    | none =>
        simp only [htype, Option.some.injEq, Prod.mk.injEq] at hremap
        rw [hremap.2]
    | some type =>
        simp only [htype] at hremap
        by_cases hauto : cfg.refreshRateOption = .automatic
        · by_contra hne
          have hclientRate : clientRefreshRate session = some refreshRate := by
            simpa [parseRefreshRateOption, hclient, hauto] using hrate
          obtain ⟨hfps, rfl⟩ := clientRefreshRate_eq_some hclientRate
          have hmapped : isFpsMapped type = true := by
            rw [remappingType_of_automatic hauto, Option.some.injEq] at htype
            rw [← htype]
            split <;> rfl
          have hactive := overrideLoop_of_remapped hremap (fun heq => hne (by rw [heq]))
          simp [refreshRateOverrideActive, hauto, hclient, htype, hmapped, hfps, hactive]
            at hinactive
        · rw [remapLoop_of_not_mapped (isFpsMapped_of_not_automatic hauto htype) hremap]
  · intro hclient hauto hres
    have htype : determineRemappingType cfg = some .refreshRateOnly := by
      rw [remappingType_of_automatic hauto, if_neg hres]
    have hclientRate : clientRefreshRate session = some refreshRate := by
      simpa [parseRefreshRateOption, hclient, hauto] using hrate
    obtain ⟨hfps, rfl⟩ := clientRefreshRate_eq_some hclientRate
    have hloop : remapLoop outOfRange .refreshRateOnly resolution
        (some ⟨(targetFps session).toNat, 1⟩) cfg.refreshRateOnly =
        some (config.resolution, config.refreshRate) := by
      simpa [remapDisplayModeIfNeeded, hclient, htype, remappingList] using hremap
    rw [← overrideLoop_refreshRateOnly hloop]
    simp [refreshRateOverrideActive, hauto, hclient, htype, hfps, isFpsMapped, remappingList]

/-- A client at 60 whose rate is mapped to 120. -/
def remappedConfig : VideoConfig :=
  { outputName := []
    configurationOption := .verifyOnly
    resolutionOption := .disabled
    manualResolution := []
    refreshRateOption := .automatic
    manualRefreshRate := []
    hdrOption := .automatic
    dummyPlugHdr10 := false
    mixed := []
    resolutionOnly := []
    refreshRateOnly := [⟨[], "60".toList, [], "119.88".toList⟩] }

theorem override_active_of_remapped_sixty :
    refreshRateOverrideActive id remappedConfig
      ⟨false, 1920, 1080, 60, false, none, false⟩ = true :=
  have hparsed : parseConfiguration id remappedConfig
      ⟨false, 1920, 1080, 60, false, none, false⟩ =
      .configuration ⟨[], .verifyOnly, none, some ⟨11988, 100⟩, some .disabled⟩ := by decide
  ((override_active_of_remapped hparsed).2 rfl rfl (by decide)).mpr
    ⟨⟨[], "60".toList, [], "119.88".toList⟩, by simp [remappedConfig],
      ⟨none, some ⟨60, 1⟩, none, some ⟨11988, 100⟩⟩, by decide, by decide⟩

end LuminalShine.DisplayDevice
