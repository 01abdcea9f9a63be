import LuminalShine.ClientStore.Format
import LuminalShine.Config.Settings
import LuminalShine.Lib.Command

/-!
# The readers of settings

Each reader of `src/config.cpp` takes the option of one name out of the map and assigns a
setting, or leaves it.  A reader is a statement on the record it assigns to, with the reference
it is given as a `Ref`; the three that may throw are commands on the map and the record.

The tables that turn a text into an enumerator or a number (`…_from_view`) stand before the
statements, and beside each reader what it makes of a text and of the value there was.

## Main definitions

* `Statement`, `block` — statements that do not throw, and several of them as a command.
* `stringF`, `boolF`, `intF`, `intBetweenF`, `genericF`, … — the readers.
* `pathF`, `listPrepCmdF`, `modeRemappingF` — the readers that may throw.
* `applyFlags` — the letters of a flag text.
-/

namespace LuminalShine.Config

open LuminalShine.Lib
open LuminalShine.ClientStore (readText parseBool)

/-! ## Numbers -/

/-- A byte as the signed `char` it is. -/
def charValue (c : Char) : ℤ := if c.toNat < 128 then c.toNat else c.toNat - 256

/-- `util::from_chars`. -/
def fromChars : List Char → ℤ
  | [] => 0
  | c :: rest =>
      let res := rest.foldl (fun res d => res * 10 + (charValue d - 48)) 0
      if c = '-' then -res else res + (charValue c - 48) * 10 ^ rest.length

/-- The conversion to `int`. -/
def toInt (n : ℤ) : ℤ := n.bmod 4294967296

/-- The nested `convert` of `util::from_hex`; a letter beyond `f` has a value too. -/
def convert (c : Char) : ℕ := if c.isDigit then c.toNat - 48 else (c.toNat ||| 32) - 97 + 10

/-- The bytes of `util::from_hex`, from the last pair of digits on. -/
def fromHexBytes : List Char → ℕ
  | right :: left :: rest =>
      (convert left <<< 4 ||| convert right) % 256 + 256 * fromHexBytes rest
  | _ => 0

/-- `util::from_hex<int>`: an odd digit at the front is dropped.  Four bytes are kept; the
buffer of the source has no room for more. -/
def fromHex (hex : List Char) : ℤ :=
  toInt (fromHexBytes ((hex.filter Char.isAlphanum).reverse.take 8))

/-- The text of a number in `int_f` and `list_int_f`, quoted or not. -/
def intValue (text : String) : ℤ :=
  let val := text.toList
  let val :=
    if 2 ≤ val.length ∧ val.head? = some '"' then (val.drop 1).take (val.length - 2) else val
  if val.take 2 = ['0', 'x'] then fromHex (val.drop 2) else toInt (fromChars val)

/-- `to_bool`; its lower-casing changes nothing. -/
def toBool (boolean : String) : Bool :=
  boolean = "true" || boolean = "yes" || boolean = "enable" || boolean = "enabled" ||
    boolean = "on" || boolean.toList.contains '1'

/-! ## Encoder tables -/

def twopassFromView : String → NvencTwoPass
  | "disabled" => .disabled
  | "quarter_res" => .quarterResolution
  | "full_res" => .fullResolution
  | _ => .quarterResolution

def splitEncodeModeFromView : String → SplitEncodeMode
  | "auto" => .autoMode
  | "enabled" => .enabled
  | "disabled" => .disabled
  | _ => .autoMode

/-- `quality_from_view<T>`, at the values of the enumeration `T`. -/
def qualityFromView (speed quality balanced : ℤ) (original : Option ℤ) : String → Option ℤ
  | "balanced" => some balanced
  | "quality" => some quality
  | "speed" => some speed
  | _ => original

/-- `rc_from_view<T>`. -/
def rcFromView (cbr cqp vbrLatency vbrPeak : ℤ) (original : Option ℤ) : String → Option ℤ
  | "cbr" => some cbr
  | "cqp" => some cqp
  | "vbr_latency" => some vbrLatency
  | "vbr_peak" => some vbrPeak
  | _ => original

/-- `usage_from_view<T>`. -/
def usageFromView (transcoding webcam lowlatencyHighQuality lowlatency ultralowlatency : ℤ)
    (original : Option ℤ) : String → Option ℤ
  | "lowlatency" => some lowlatency
  | "lowlatency_high_quality" => some lowlatencyHighQuality
  | "transcoding" => some transcoding
  | "ultralowlatency" => some ultralowlatency
  | "webcam" => some webcam
  | _ => original

/-- `amd::coder_from_view`. -/
def amdCoderFromView : String → ℤ
  | "auto" => 0
  | "cabac" | "ac" => 1
  | "cavlc" | "vlc" => 2
  | _ => 0

/-- `qsv::preset_from_view`. -/
def qsvPresetFromView : String → Option ℤ
  | "veryslow" => some 1
  | "slower" => some 2
  | "slow" => some 3
  | "medium" => some 4
  | "fast" => some 5
  | "faster" => some 6
  | "veryfast" => some 7
  | _ => none

/-- `qsv::coder_from_view`. -/
def qsvCoderFromView : String → Option ℤ
  | "auto" => some 0
  | "cabac" | "ac" => some 0
  | "cavlc" | "vlc" => some 1
  | _ => none

/-- `vt::coder_from_view`. -/
def vtCoderFromView : String → ℤ
  | "auto" => 0
  | "cabac" | "ac" => 1
  | "cavlc" | "vlc" => 2
  | _ => -1

def allowSoftwareFromView (software : String) : ℤ :=
  if software = "allowed" ∨ software = "forced" then 1 else 0

def forceSoftwareFromView (software : String) : ℤ := if software = "forced" then 1 else 0

def rtFromView (rt : String) : ℤ := if rt = "disabled" ∨ rt = "off" ∨ rt = "0" then 0 else 1

def svtav1PresetFromView : String → ℤ
  | "veryslow" => 1
  | "slower" => 2
  | "slow" => 4
  | "medium" => 5
  | "fast" => 7
  | "faster" => 9
  | "veryfast" => 10
  | "superfast" => 11
  | "ultrafast" => 12
  | _ => 11

/-! ## Display tables -/

def configOptionFromView : String → ConfigOption
  | "disabled" => .disabled
  | "verify_only" => .verifyOnly
  | "ensure_active" => .ensureActive
  | "ensure_primary" => .ensurePrimary
  | "ensure_only_display" => .ensureOnlyDisplay
  | _ => .disabled

def resolutionOptionFromView : String → ResolutionOption
  | "disabled" => .disabled
  | "auto" => .automatic
  | "manual" => .manual
  | _ => .disabled

def refreshRateOptionFromView : String → RefreshRateOption
  | "disabled" => .disabled
  | "auto" => .automatic
  | "manual" => .manual
  | "prefer_highest" => .preferHighest
  | _ => .disabled

def hdrOptionFromView : String → HdrOption
  | "disabled" => .disabled
  | "auto" => .automatic
  | _ => .disabled

def hdrRequestOverrideFromView : String → HdrRequestOverride
  | "auto" => .automatic
  | "force_on" => .forceOn
  | "force_off" => .forceOff
  | _ => .automatic

def virtualDisplayModeFromView : String → VirtualDisplayMode
  | "disabled" => .disabled
  | "per_client" => .perClient
  | "shared" => .shared
  | _ => .perClient

/-- An unknown value is not the default `exclusive`, which turns every monitor off. -/
def virtualDisplayLayoutFromView : String → VirtualDisplayLayout
  | "exclusive" => .exclusive
  | "extended" => .extended
  | "extended_primary" => .extendedPrimary
  | "extended_isolated" => .extendedIsolated
  | "extended_primary_isolated" => .extendedPrimaryIsolated
  | _ => .extended

/-- The nested `parse_entry_list` of `mode_remapping_from_view`. -/
def parseEntryList (entries : Ptree) : List ModeRemappingEntry :=
  entries.children.map fun entry =>
    { requestedResolution := readText entry.2 "requested_resolution"
      requestedFps := readText entry.2 "requested_fps"
      finalResolution := readText entry.2 "final_resolution"
      finalRefreshRate := readText entry.2 "final_refresh_rate" }

/-- `mode_remapping_from_view`; malformed text and a missing list throw. -/
def modeRemappingFromView (host : Host) (value : String) : Option ModeRemapping := do
  let tree ← host.readJson ("\x7b\"dd_mode_remapping\":" ++ value ++ "\x7d")
  let remapping ← tree.find? "dd_mode_remapping"
  let mixed ← remapping.find? "mixed"
  let resolutionOnly ← remapping.find? "resolution_only"
  let refreshRateOnly ← remapping.find? "refresh_rate_only"
  return {
    mixed := parseEntryList mixed
    resolutionOnly := parseEntryList resolutionOnly
    refreshRateOnly := parseEntryList refreshRateOnly }

/-- The nested `add_id` of `snapshot_exclude_devices_from_view`. -/
def deviceId (id : List Char) : Option String :=
  let id := trim id
  let id :=
    if 2 ≤ id.length ∧ id.head? = some '"' ∧ id.getLast? = some '"' then
      (id.drop 1).take (id.length - 2)
    else id
  if id = [] then none else some (String.ofList id)

/-- One element of the array in `snapshot_exclude_devices_from_view`. -/
def excludedDevice : Json → Option String
  | .string id => deviceId id.toList
  | .object fields =>
      match fields.lookup "device_id", fields.lookup "id" with
      | some (.string id), _ => deviceId id.toList
      | _, some (.string id) => deviceId id.toList
      | _, _ => none
  | _ => none

/-- `snapshot_exclude_devices_from_view`: a JSON array, an object that holds one, or, where
the text is not JSON, a list with commas. -/
def snapshotExcludeDevicesFromView (host : Host) (value : String) : List String :=
  match host.parseJson value with
  | some j =>
      let devices :=
        match j with
        | .object fields =>
            ((fields.lookup "exclude_devices").or (fields.lookup "devices")).getD j
        | _ => j
      match devices with
      | .array items => items.filterMap excludedDevice
      | _ => []
  | none => (value.toList.splitOn ',').filterMap deviceId

/-- `snapshot_restore_hotkey_from_view`. -/
def snapshotRestoreHotkeyFromView (value : String) : ℤ :=
  let raw := trim value.toList
  let lower := raw.map Char.toLower
  if raw = [] ∨ lower ∈ ["disabled".toList, "none".toList, "off".toList] then 0
  else
    let lower := if "vk_".toList <+: lower then lower.drop 3 else lower
    let keyCode (v : ℤ) : ℤ := if 0 < v ∧ v ≤ 0xFF then v else 0
    let fkey := toInt (fromChars (lower.drop 1))
    if "0x".toList <+: lower ∧ 2 < lower.length then keyCode (fromHex (lower.drop 2))
    else if 2 ≤ lower.length ∧ lower.head? = some 'f' ∧ 1 ≤ fkey ∧ fkey ≤ 24 then
      0x70 + (fkey - 1)
    else
      match lower with
      | [ch] =>
          if 'a' ≤ ch ∧ ch ≤ 'z' then ch.toUpper.toNat
          else if '0' ≤ ch ∧ ch ≤ '9' then ch.toNat
          else keyCode (toInt (fromChars lower))
      | _ => keyCode (toInt (fromChars lower))

/-- The bit of one word in `snapshot_restore_hotkey_modifiers_from_view`. -/
def hotkeyModifier (token : List Char) : ℕ :=
  match String.ofList token with
  | "ctrl" | "control" => 2
  | "alt" => 1
  | "shift" => 4
  | "win" | "windows" | "meta" => 8
  | _ => 0

/-- `snapshot_restore_hotkey_modifiers_from_view`. -/
def snapshotRestoreHotkeyModifiersFromView (value : String) : ℕ :=
  let lower := (trim value.toList).map Char.toLower
  if lower = "default".toList then 2 ||| 1 ||| 4
  else if lower ∈ ["disabled".toList, "none".toList, "off".toList] then 0
  else
    let words := lower.map fun ch => if ch ∈ ['+', '|', ',', ';'] then ' ' else ch
    (words.splitOnP isSpace).foldl (fun modifiers token => modifiers ||| hotkeyModifier token) 0

/-! ## Statements -/

/-- A statement that does not throw: it assigns with the text of the option it takes out of the
map, if it reads one. -/
structure Statement (σ : Type) where
  option : Option String
  assign : Option String → σ → σ

variable {σ τ : Type}

namespace Statement

def exec (st : Statement σ) (s : Vars × σ) : Vars × σ :=
  match st.option with
  | some name => (s.1.erase name, st.assign (s.1.lookup name) s.2)
  | none => (s.1, st.assign none s.2)

/-- The statement on a part. -/
def on (r : Ref σ τ) (st : Statement τ) : Statement σ :=
  ⟨st.option, fun text s => r.set (st.assign text (r.get s)) s⟩

end Statement

/-- A statement that reads no option. -/
def compute (f : σ → σ) : Statement σ := ⟨none, fun _ => f⟩

/-- Read the option and assign with `f`, whatever it is. -/
def readAssign (name : String) (f : Option String → σ → σ) : Statement σ := ⟨some name, f⟩

/-- Read the option over the setting. -/
def readInto (name : String) (input : Ref σ τ) (value : Option String → τ → τ) : Statement σ :=
  readAssign name fun text s => input.set (value text (input.get s)) s

/-- What `f` makes of a text, when there is one. -/
def nonempty (f : String → τ → τ) (text : Option String) (x : τ) : τ :=
  if text.getD "" = "" then x else f (text.getD "") x

/-- Read the option and assign with `f` when it has a text. -/
def readNonempty (name : String) (f : String → σ → σ) : Statement σ := readAssign name (nonempty f)

/-- The value `string_f` leaves in a variable. -/
def stringValue (text : Option String) (input : String) : String := text.getD input

def stringF (name : String) (input : Ref σ String) : Statement σ := readInto name input stringValue

/-- The value `generic_f` leaves in a variable. -/
def genericValue (f : String → τ) : Option String → τ → τ := nonempty fun text _ => f text

def genericF (name : String) (input : Ref σ τ) (f : String → τ) : Statement σ :=
  readInto name input (genericValue f)

/-- The value `string_restricted_f` leaves in a variable. -/
def restrictedValue (allowedVals : List String) (text : Option String) (input : String) :
    String :=
  if text.getD "" ∈ allowedVals then text.getD "" else input

def stringRestrictedF (name : String) (input : Ref σ String) (allowedVals : List String) :
    Statement σ :=
  readInto name input (restrictedValue allowedVals)

/-- What `f` makes of a text, an empty one too. -/
def assigned (f : String → τ) (text : Option String) (input : τ) : τ := (text.map f).getD input

/-- The value `int_f` leaves in a variable. -/
def numberValue : Option String → ℤ → ℤ := assigned intValue

def intF (name : String) (input : Ref σ ℤ) : Statement σ := readInto name input numberValue

/-- The value `int_between_f` leaves in a variable. -/
def intBetween (lower upper : ℤ) (text : Option String) (input : ℤ) : ℤ :=
  let temp := numberValue text input
  if lower ≤ temp ∧ temp ≤ upper then temp else input

def intBetweenF (name : String) (input : Ref σ ℤ) (lower upper : ℤ) : Statement σ :=
  readInto name input (intBetween lower upper)

/-- `int_between_f` on a local variable, and the statement that uses it. -/
def localIntBetweenF (name : String) (init lower upper : ℤ) (use : ℤ → σ → σ) : Statement σ :=
  readAssign name fun text => use (intBetween lower upper text init)

/-- The value `bool_f` leaves in a variable. -/
def boolValue : Option String → Bool → Bool := genericValue toBool

def boolF (name : String) (input : Ref σ Bool) : Statement σ := readInto name input boolValue

/-- The value `bool_f` leaves in an optional number. -/
def boolByte : Option String → Option ℤ → Option ℤ :=
  genericValue fun text => some (toBool text).toNat

/-- `bool_f` on an optional number, through the first byte of its storage. -/
def boolByteF (name : String) (input : Ref σ (Option ℤ)) : Statement σ :=
  readInto name input boolByte

/-- The value `double_between_f` leaves in a variable. -/
def doubleBetween (host : Host) (lower upper : Float) (text : Option String) (input : Float) :
    Float :=
  let temp := (host.strtod (text.getD "")).getD input
  if lower ≤ temp ∧ temp ≤ upper then temp else input

def doubleBetweenF (host : Host) (name : String) (input : Ref σ Float) (lower upper : Float) :
    Statement σ :=
  readInto name input (nonempty fun text => doubleBetween host lower upper (some text))

/-- The loop of `map_int_int_f` over a list of even length. -/
def emplacePairs (map : AList fun _ : ℤ => ℤ) : List ℤ → AList fun _ : ℤ => ℤ
  | key :: val :: list => emplacePairs (emplace map key val) list
  | _ => map

def mapIntIntF (name : String) (input : Ref σ (AList fun _ : ℤ => ℤ)) : Statement σ :=
  readInto name input (nonempty fun text map =>
    let list := (splitList text).map intValue
    if list.length % 2 = 1 then map else emplacePairs map list)

/-! ## Commands -/

/-- What is thrown: a text of which no path can be made, a directory or file that cannot be made,
a text that is not JSON. -/
inductive ApplyError where
  | conversion (text : String)
  | filesystem (path : String)
  | json (name : String)
  deriving DecidableEq, Repr

/-- How the file system answers during one apply. -/
structure World where
  /-- The directory exists or can be created. -/
  directoryReady : String → Bool
  /-- The apps file exists or can be copied from the assets. -/
  appsReady : String → Bool

/-- A command on the map and on a record; what it has changed stays when it throws. -/
abbrev Apply (σ : Type) := EStateM ApplyError (Vars × σ)

def block (statements : List (Statement σ)) : Apply σ Unit := fun s =>
  .ok ⟨⟩ (statements.foldl (fun s st => st.exec s) s)

/-- Take the option of that name out of the map, and do `f` with its text. -/
def readKey (name : String) (f : Option String → σ → Except ApplyError σ) : Apply σ Unit := fun s =>
  match f (s.1.lookup name) s.2 with
  | .ok x => .ok ⟨⟩ (s.1.erase name, x)
  | .error e => .error e (s.1.erase name, s.2)

/-- A statement that throws unless `ready` says otherwise. -/
def require (path : σ → String) (ready : String → Bool) : Apply σ Unit := fun s =>
  if ready (path s.2) then .ok ⟨⟩ s else .error (.filesystem (path s.2)) s

/-- What `path_f` makes of a text and of the setting. -/
def resolvePath (host : Host) (text : Option String) (input : String) : String :=
  let path := if text.getD "" = "" then input else text.getD ""
  String.ofList (WindowsPath.resolve host.appdata.toList path.toList)

/-- The directory that `path_f` wants to exist. -/
def pathDirectory (host : Host) (text : Option String) (input : String) : String :=
  String.ofList (WindowsPath.removeFilename (resolvePath host text input).toList)

/-- `path_f`: the setting is made a path first, then the text of the option if it is not empty. -/
def pathF (host : Host) (world : World) (name : String) (input : Ref σ String) : Apply σ Unit :=
  fun s =>
    if host.isPath (input.get s.2) then
      readKey name (fun text s =>
        if text.getD "" = "" ∨ host.isPath (text.getD "") = true then
          let dir := pathDirectory host text (input.get s)
          if world.directoryReady dir then .ok (input.set (resolvePath host text (input.get s)) s)
          else .error (.filesystem dir)
        else .error (.conversion (text.getD ""))) s
    else .error (.conversion (input.get s.2)) s

/-- The commands of the array in `list_prep_cmd_f`. -/
def prepCmds (list : Ptree) : List PrepCmd :=
  list.children.map fun entry =>
    { doCmd := readText entry.2 "do"
      undoCmd := readText entry.2 "undo"
      elevated := ((entry.2.find? "elevated").bind fun n => parseBool n.data).getD false }

/-- The list that `list_prep_cmd_f` finds in a text. -/
def readPrepCmds (host : Host) (text : String) : Option (List PrepCmd) :=
  ((host.readJson ("\x7b\"prep_cmd\":" ++ text ++ "\x7d")).bind
    fun tree => tree.find? "prep_cmd").map prepCmds

/-- Read an option whose text `parse` may refuse. -/
def parseF {ν : Type} (name : String) (parse : String → Option ν) (f : ν → σ → σ) :
    Apply σ Unit :=
  readKey name fun text s =>
    if text.getD "" = "" then .ok s
    else
      match parse (text.getD "") with
      | none => .error (.json name)
      | some x => .ok (f x s)

def listPrepCmdF (host : Host) (name : String) (input : Ref σ (List PrepCmd)) : Apply σ Unit :=
  parseF name (readPrepCmds host) fun list s => input.set (input.get s ++ list) s

/-- `generic_f` with `mode_remapping_from_view`, the only one of the tables that throws. -/
def modeRemappingF (host : Host) (name : String) (input : Ref σ ModeRemapping) : Apply σ Unit :=
  parseF name (modeRemappingFromView host) input.set

/-! ## Flags -/

/-- The flag of a letter. -/
def flagOfChar : Char → Option Flag
  | '0' => some .pinStdin
  | '1' => some .freshState
  | '2' => some .forceVideoHeaderReplace
  | 'p' => some .upnp
  | _ => none

/-- The flags that `apply_flags` leaves after the letters of a text. -/
def flipAll (flags : Flags) (line : List Char) : Flags :=
  line.foldl (fun flags ch => ((flagOfChar ch).map flags.flip).getD flags) flags

/-- `apply_flags`, which also says whether it knew every letter. -/
def applyFlags (line : String) (flags : Flags) : Flags × Bool :=
  let line := line.toList.takeWhile (· ≠ '\x00')
  (flipAll flags line, line.all fun ch => (flagOfChar ch).isSome)

end LuminalShine.Config
