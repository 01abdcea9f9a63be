import LuminalShine.Config.Outcome

/-!
# What the reset keeps

`reset_runtime_config_to_defaults` restores all groups but two: the network settings and the
Steam settings keep what they have, and `apply_config` then reads them over the old values.
Nothing else in an apply depends on what was applied before.

## Main definitions

* `Kept` — the ten settings; `Kind.read` — what the reader of one makes of a text.
* `mapFlags`, `flips` — the flags that a map switches on.

## Main results

* `Kind.read_read` — reading the same text twice is reading it once.
* `applyConfig_value`, `applyConfig_flags` — the kept settings and the flags after an apply.
* `applyConfig_eq` — two applies of one map that read the kept settings alike agree.
-/

namespace LuminalShine.Config

open LuminalShine.Lib

/-! ## The kept settings -/

/-- The settings of `nvhttp` and `steam`, in the order they are read. -/
inductive Kept where
  | pkey
  | cert
  | sunshineName
  | fileState
  | luminalshineFileState
  | steamAutoSync
  | steamIncludeFamilyShared
  | nonsteamShortcutsAutoSync
  | externalIp
  | originWebUiAllowed
  deriving DecidableEq, Repr

/-- How a kept setting is read. -/
inductive Kind where
  | path
  | text
  | origin
  | toggle
  deriving DecidableEq, Repr

inductive Value where
  | text (s : String)
  | toggle (b : Bool)
  deriving DecidableEq, Repr

namespace Kept

def key : Kept → String
  | pkey => "pkey"
  | cert => "cert"
  | sunshineName => "sunshine_name"
  | fileState => "file_state"
  | luminalshineFileState => "luminalshine_file_state"
  | steamAutoSync => "steam_auto_sync"
  | steamIncludeFamilyShared => "steam_include_family_shared"
  | nonsteamShortcutsAutoSync => "nonsteam_shortcuts_auto_sync"
  | externalIp => "external_ip"
  | originWebUiAllowed => "origin_web_ui_allowed"

def kind : Kept → Kind
  | pkey | cert | fileState | luminalshineFileState => .path
  | sunshineName | externalIp => .text
  | originWebUiAllowed => .origin
  | steamAutoSync | steamIncludeFamilyShared | nonsteamShortcutsAutoSync => .toggle

def value (s : Settings) : Kept → Value
  | pkey => .text s.nvhttp.pkey
  | cert => .text s.nvhttp.cert
  | sunshineName => .text s.nvhttp.sunshineName
  | fileState => .text s.nvhttp.fileState
  | luminalshineFileState => .text s.nvhttp.luminalshineFileState
  | steamAutoSync => .toggle s.steam.autoSync
  | steamIncludeFamilyShared => .toggle s.steam.includeFamilyShared
  | nonsteamShortcutsAutoSync => .toggle s.steam.nonsteamShortcutsAutoSync
  | externalIp => .text s.nvhttp.externalIp
  | originWebUiAllowed => .text s.nvhttp.originWebUiAllowed

end Kept

/-! ## Their readers -/

/-- The texts a reader accepts. -/
def Kind.accepts (kind : Kind) (text : Option String) : Bool :=
  match kind with
  | .path | .toggle => text.getD "" ≠ ""
  | .text => text.isSome
  | .origin => text.getD "" ∈ ["pc", "lan", "wan"]

/-- The setting an accepted text gives. -/
def Kind.parse (host : Host) (kind : Kind) (text : String) : Value :=
  match kind with
  | .path => .text (resolvePath host none text)
  | .text | .origin => .text text
  | .toggle => .toggle (toBool text)

/-- What a reader does to the setting when there is no such text: a path is resolved. -/
def Kind.settle (host : Host) : Kind → Value → Value
  | .path, .text p => .text (resolvePath host none p)
  | _, value => value

def Kind.read (host : Host) (kind : Kind) (text : Option String) (value : Value) : Value :=
  if kind.accepts text then kind.parse host (text.getD "") else kind.settle host value

theorem resolvePath_resolvePath (host : Host) (path : String) :
    resolvePath host none (resolvePath host none path) = resolvePath host none path := by
  simp only [resolvePath, Option.getD_none, if_true, String.toList_ofList]
  rw [WindowsPath.resolve_resolve host.appdata_absolute]

theorem Kind.settle_settle (host : Host) (kind : Kind) (value : Value) :
    kind.settle host (kind.settle host value) = kind.settle host value := by
  cases kind <;> cases value <;> simp [Kind.settle, resolvePath_resolvePath]

/-- Reading the same text twice is reading it once. -/
theorem Kind.read_read (host : Host) (kind : Kind) (text : Option String) (value : Value) :
    kind.read host text (kind.read host text value) = kind.read host text value := by
  simp only [Kind.read]
  split
  · rfl
  · exact kind.settle_settle host value

/-- Two values are read alike when the text is accepted or they settle alike. -/
theorem Kind.read_eq_read_iff (host : Host) (kind : Kind) (text : Option String)
    (v w : Value) :
    kind.read host text v = kind.read host text w ↔
      kind.accepts text = true ∨ kind.settle host v = kind.settle host w := by
  simp only [Kind.read]
  split <;> simp [*]

/-- The options of the kept settings and of the flags, in the order they are read. -/
def watched : List String :=
  ["pkey", "cert", "sunshine_name", "file_state", "luminalshine_file_state", "steam_auto_sync",
    "steam_include_family_shared", "nonsteam_shortcuts_auto_sync", "external_ip",
    "origin_web_ui_allowed", "upnp", "flags"]

theorem Kept.key_mem_watched (k : Kept) : k.key ∈ watched := by
  cases k <;> decide

theorem Kept.key_injective {j k : Kept} (h : j.key = k.key) : j = k := by
  revert h
  cases j <;> cases k <;> simp [Kept.key]

/-! ## The readers of `apply_config` -/

section Readers
variable {host : Host}

theorem read_resolvePath (text : Option String) (x : String) :
    Value.text (resolvePath host text x) = Kind.path.read host text (.text x) := by
  by_cases htext : text.getD "" = "" <;>
    simp [Kind.read, Kind.accepts, Kind.parse, Kind.settle, resolvePath, htext]

theorem read_stringValue (text : Option String) (x : String) :
    Value.text (stringValue text x) = Kind.text.read host text (.text x) := by
  cases text <;> rfl

theorem read_restrictedValue (text : Option String) (x : String) :
    Value.text (restrictedValue ["pc", "lan", "wan"] text x) =
      Kind.origin.read host text (.text x) := by
  by_cases htext : text.getD "" ∈ ["pc", "lan", "wan"] <;>
    simp only [restrictedValue, Kind.read, Kind.accepts, Kind.parse, Kind.settle, htext,
      decide_true, decide_false, if_true, if_false, Bool.false_eq_true]

theorem read_boolValue (text : Option String) (x : Bool) :
    Value.toggle (boolValue text x) = Kind.toggle.read host text (.toggle x) := by
  by_cases htext : text.getD "" = "" <;>
    simp [boolValue, genericValue, nonempty, Kind.read, Kind.accepts, Kind.parse, Kind.settle,
      htext]

/-- A kept setting at the end of an apply. -/
theorem value_final (o : Options) (a : Settings) (k : Kept) :
    k.value (final host o a) = k.kind.read host (o k.key) (k.value a) := by
  cases k
  case pkey => exact read_resolvePath _ _
  case cert => exact read_resolvePath _ _
  case sunshineName => exact read_stringValue _ _
  case fileState => exact read_resolvePath _ _
  case luminalshineFileState => exact read_resolvePath _ _
  case steamAutoSync => exact read_boolValue _ _
  case steamIncludeFamilyShared => exact read_boolValue _ _
  case nonsteamShortcutsAutoSync => exact read_boolValue _ _
  case externalIp => exact read_stringValue _ _
  case originWebUiAllowed => exact read_restrictedValue _ _

/-- The other settings depend on the old ones through the path of the state file. -/
theorem final_congr {o : Options} {a b : Settings}
    (h : ∀ k : Kept, k.value (final host o a) = k.value (final host o b)) :
    final host o a = final host o b := by
  have hnetwork : networkOf host o 11 a.nvhttp = networkOf host o 11 b.nvhttp := by
    have h₁ := Value.text.inj (h .pkey)
    have h₂ := Value.text.inj (h .cert)
    have h₃ := Value.text.inj (h .sunshineName)
    have h₄ := Value.text.inj (h .fileState)
    have h₅ := Value.text.inj (h .luminalshineFileState)
    have h₆ := Value.text.inj (h .externalIp)
    have h₇ := Value.text.inj (h .originWebUiAllowed)
    change (final host o a).nvhttp = (final host o b).nvhttp
    generalize (final host o a).nvhttp = n at *
    generalize (final host o b).nvhttp = m at *
    cases n
    cases m
    simp_all
  have hsteam : steamOf o a.steam = steamOf o b.steam := by
    have h₁ := Value.toggle.inj (h .steamAutoSync)
    have h₂ := Value.toggle.inj (h .steamIncludeFamilyShared)
    have h₃ := Value.toggle.inj (h .nonsteamShortcutsAutoSync)
    change (final host o a).steam = (final host o b).steam
    generalize (final host o a).steam = n at *
    generalize (final host o b).steam = m at *
    cases n
    cases m
    simp_all
  have hasked : asked host o a 11 = asked host o b 11 := by
    simp only [asked, Nat.reduceLT, if_false, hnetwork, hsteam]
  rw [final, hasked, final]

end Readers

/-! ## The whole apply -/

/-- The flags an apply of the map switches on. -/
def mapFlags (vars : Vars) : Flags :=
  letterFlags (vars.lookup "flags") (upnpFlags (vars.lookup "upnp") fun _ => false)

section Whole
variable {host : Host} {vars : Vars} {a b : Settings} {x y : Vars × Settings}

/-- An apply that ends without an exception leaves what all options ask for. -/
theorem applyConfig_final {world : World} (h : applyConfig host world (vars, a) = .ok ⟨⟩ x) :
    x.2 = final host (aliased vars.lookup) a := by
  have hall := outcome_applyConfig host world vars a
  simp only [outcome, ending, h] at hall
  exact eq_final_of_ended hall.symm

/-- The alias of `nvenc_split_encode` is no watched option. -/
theorem aliased_watched {key : String} (hkey : key ∈ watched) :
    aliased vars.lookup key = vars.lookup key := by
  refine aliased_of_ne ?_ ?_ <;>
    · rintro rfl
      simp [watched] at hkey

/-- A kept setting after an apply is its option read over the value before. -/
theorem applyConfig_value {world : World} (h : applyConfig host world (vars, a) = .ok ⟨⟩ x)
    (k : Kept) : k.value x.2 = k.kind.read host (vars.lookup k.key) (k.value a) := by
  rw [applyConfig_final h, value_final, aliased_watched k.key_mem_watched]

/-- The flags after an apply are those of the map. -/
theorem applyConfig_flags {world : World} (h : applyConfig host world (vars, a) = .ok ⟨⟩ x) :
    x.2.flags = mapFlags vars := by
  have hflags : "flags" ∈ watched := by decide
  have hupnp : "upnp" ∈ watched := by decide
  rw [applyConfig_final h, mapFlags, ← aliased_watched hflags, ← aliased_watched hupnp]
  rfl

/-- **What an apply depends on.**  Two applies of one map give the same settings when they read
the kept settings alike. -/
theorem applyConfig_eq {w₁ w₂ : World} (h₁ : applyConfig host w₁ (vars, a) = .ok ⟨⟩ x)
    (h₂ : applyConfig host w₂ (vars, b) = .ok ⟨⟩ y)
    (hread : ∀ k : Kept, k.kind.read host (vars.lookup k.key) (k.value a) =
      k.kind.read host (vars.lookup k.key) (k.value b)) : x.2 = y.2 := by
  rw [applyConfig_final h₁, applyConfig_final h₂]
  refine final_congr fun k => ?_
  rw [value_final, value_final, aliased_watched k.key_mem_watched]
  exact hread k

end Whole

/-! ## The flags of a map -/

/-- How often the options of a map flip a flag. -/
def flips (vars : Vars) (flag : Flag) : ℕ :=
  (if flag = .upnp ∧ toBool ((vars.lookup "upnp").getD "") then 1 else 0) +
    (((vars.lookup "flags").getD "").toList.takeWhile (· ≠ '\x00')).countP
      fun ch => flagOfChar ch = some flag

theorem xor_decide_odd (b : Bool) (m n : ℕ) :
    ((b ^^ decide (m % 2 = 1)) ^^ decide (n % 2 = 1)) = (b ^^ decide ((m + n) % 2 = 1)) := by
  rcases Nat.mod_two_eq_zero_or_one m with hm | hm <;>
    rcases Nat.mod_two_eq_zero_or_one n with hn | hn <;>
    simp [Nat.add_mod, hm, hn]

theorem flipAll_apply (flags : Flags) (line : List Char) (flag : Flag) :
    flipAll flags line flag =
      (flags flag ^^ decide (line.countP (fun ch => flagOfChar ch = some flag) % 2 = 1)) := by
  induction line generalizing flags with
  | nil => simp [flipAll]
  | cons ch line ih =>
      have hhead : ((flagOfChar ch).map flags.flip).getD flags flag =
          (flags flag ^^ decide ((if flagOfChar ch = some flag then 1 else 0) % 2 = 1)) := by
        cases flagOfChar ch with
        | none => simp
        | some f =>
            by_cases h : f = flag
            · simp [Flags.flip, h]
            · simp [Flags.flip, h, Ne.symm h]
      calc flipAll flags (ch :: line) flag
        _ = flipAll (((flagOfChar ch).map flags.flip).getD flags) line flag := rfl
        _ = _ := by rw [ih, hhead, xor_decide_odd, List.countP_cons, Nat.add_comm]; simp

/-- A flag is on after an apply when the options flip it an odd number of times. -/
theorem mapFlags_apply (vars : Vars) (flag : Flag) :
    mapFlags vars flag = decide (flips vars flag % 2 = 1) := by
  have hupnp : upnpFlags (vars.lookup "upnp") (fun _ => false) flag =
      (false ^^ decide ((if flag = .upnp ∧ toBool ((vars.lookup "upnp").getD "") then 1 else 0) %
        2 = 1)) := by
    unfold upnpFlags nonempty
    generalize (vars.lookup "upnp").getD "" = text
    by_cases htext : text = ""
    · subst htext
      have hempty : toBool "" = false := by decide
      simp [hempty]
    · by_cases hon : toBool text = true <;> by_cases hflag : flag = .upnp <;>
        simp [htext, hon, hflag, Flags.flip]
  have hletters : ∀ flags : Flags, letterFlags (vars.lookup "flags") flags =
      flipAll flags (((vars.lookup "flags").getD "").toList.takeWhile (· ≠ '\x00')) := by
    intro flags
    cases vars.lookup "flags" <;> rfl
  rw [mapFlags, hletters, flipAll_apply, hupnp, xor_decide_odd, Bool.false_xor, flips]

end LuminalShine.Config
