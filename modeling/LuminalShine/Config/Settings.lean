import LuminalShine.Config.Text
import LuminalShine.Lib.PropertyTree
import LuminalShine.Lib.WindowsPath

/-!
# The settings

The groups of `src/config.h`, with the defaults `src/config.cpp` initialises them to, in the
Windows build.  Fields that `apply_config` never assigns are left out, and so are the admin
credentials, `config_file` and `cmd` of `sunshine_t`, which an apply preserves.  The flags of
`sunshine_t` stand beside its group.

What the host provides is a parameter: its directories and name, the number, JSON and path
readers of its libraries.

## Main definitions

* `Host` — what the process asks the host once.
* `Settings` — the groups; `Settings.initial` — their static initialisation.
-/

namespace LuminalShine.Config

open LuminalShine.Lib

/-- A value of `nlohmann::json`, as far as the readers look into it. -/
inductive Json where
  | string (s : String)
  | array (items : List Json)
  | object (fields : List (String × Json))
  | other

/-- What is asked of the host and of its libraries; `platf::appdata()` is the known folder or
the directory of the executable. -/
structure Host where
  appdata : String
  logDir : String
  hostName : String
  /-- `PROJECT_VERSION_PRERELEASE` is not empty. -/
  prerelease : Bool
  /-- `std::strtod`, with `none` where it converts nothing. -/
  strtod : String → Option Float
  /-- `boost::property_tree::read_json`. -/
  readJson : String → Option Ptree
  /-- `nlohmann::json::parse`. -/
  parseJson : String → Option Json
  /-- `std::filesystem::path` can be made of the text. -/
  isPath : String → Bool
  appdata_absolute : WindowsPath.isAbsolute appdata.toList = true

/-! ## Video -/

/-- The software encoder's part. -/
structure Sw where
  swPreset : String := "superfast"
  swTune : String := "zerolatency"
  svtav1Preset : Option ℤ := some 11

inductive NvencTwoPass where
  | disabled
  | quarterResolution
  | fullResolution
  deriving DecidableEq, Repr

inductive SplitEncodeMode where
  | autoMode
  | enabled
  | disabled
  deriving DecidableEq, Repr

structure NvencConfig where
  qualityPreset : ℤ := 1
  twoPass : NvencTwoPass := .quarterResolution
  vbvPercentageIncrease : ℤ := 0
  adaptiveQuantization : Bool := false
  h264Cavlc : Bool := false
  splitEncodeMode : SplitEncodeMode := .autoMode

structure NvLegacy where
  preset : ℤ := 0
  multipass : ℤ := 0
  h264Coder : ℤ := 0
  aq : ℤ := 0
  vbvPercentageIncrease : ℤ := 0

structure Qsv where
  qsvPreset : Option ℤ := some 4
  qsvCavlc : Option ℤ := some 0
  qsvSlowHevc : Bool := false

structure Amd where
  amdUsageH264 : Option ℤ := some 1
  amdUsageHevc : Option ℤ := some 1
  amdUsageAv1 : Option ℤ := some 2
  amdRcH264 : Option ℤ := some 3
  amdRcHevc : Option ℤ := some 1
  amdRcAv1 : Option ℤ := some 1
  amdEnforceHrd : Option ℤ := some 0
  amdQualityH264 : Option ℤ := some 0
  amdQualityHevc : Option ℤ := some 5
  amdQualityAv1 : Option ℤ := some 70
  amdPreanalysis : Option ℤ := some 0
  amdVbaq : Option ℤ := some 1
  amdCoder : ℤ := 0
  amdSplitEncode : String := "auto"

structure Vt where
  vtAllowSw : ℤ := 0
  vtRequireSw : ℤ := 0
  vtRealtime : ℤ := 1
  vtCoder : ℤ := -1

structure Vaapi where
  strictRcBuffer : Bool := false

inductive VirtualDisplayMode where
  | disabled
  | perClient
  | shared
  deriving DecidableEq, Repr

inductive VirtualDisplayLayout where
  | exclusive
  | extended
  | extendedPrimary
  | extendedIsolated
  | extendedPrimaryIsolated
  deriving DecidableEq, Repr

inductive ConfigOption where
  | disabled
  | verifyOnly
  | ensureActive
  | ensurePrimary
  | ensureOnlyDisplay
  deriving DecidableEq, Repr

inductive ResolutionOption where
  | disabled
  | automatic
  | manual
  deriving DecidableEq, Repr

inductive RefreshRateOption where
  | disabled
  | automatic
  | manual
  | preferHighest
  deriving DecidableEq, Repr

inductive HdrOption where
  | disabled
  | automatic
  deriving DecidableEq, Repr

inductive HdrRequestOverride where
  | automatic
  | forceOn
  | forceOff
  deriving DecidableEq, Repr

structure ModeRemappingEntry where
  requestedResolution : String
  requestedFps : String
  finalResolution : String
  finalRefreshRate : String
  deriving DecidableEq, Repr

structure ModeRemapping where
  mixed : List ModeRemappingEntry := []
  resolutionOnly : List ModeRemappingEntry := []
  refreshRateOnly : List ModeRemappingEntry := []
  deriving DecidableEq, Repr

structure Workarounds where
  dummyPlugHdr10 : Bool := false
  virtualDoubleRefresh : Bool := true

/-- The display device part; times in milliseconds unless the name says otherwise. -/
structure Dd where
  configurationOption : ConfigOption := .verifyOnly
  resolutionOption : ResolutionOption := .automatic
  manualResolution : String := ""
  refreshRateOption : RefreshRateOption := .automatic
  manualRefreshRate : String := ""
  hdrOption : HdrOption := .automatic
  hdrRequestOverride : HdrRequestOverride := .automatic
  configRevertDelay : ℤ := 3000
  configRevertOnDisconnect : Bool := true
  pausedVirtualDisplayTimeoutSecs : ℤ := 0
  alwaysRestoreFromGolden : Bool := false
  darkRecoveryAnchor : Bool := true
  snapshotRestoreHotkey : ℤ := 0
  /-- `MOD_CONTROL | MOD_ALT | MOD_SHIFT`. -/
  snapshotRestoreHotkeyModifiers : ℕ := 2 ||| 1 ||| 4
  activateVirtualDisplay : Bool := true
  snapshotExcludeDevices : List String := []
  modeRemapping : ModeRemapping := {}
  wa : Workarounds := {}

structure Video where
  qp : ℤ := 28
  hevcMode : ℤ := 0
  av1Mode : ℤ := 0
  prefer10bitSdr : Bool := false
  yuv444Streaming : Bool := true
  minThreads : ℤ := 2
  sw : Sw := {}
  nv : NvencConfig := {}
  nvRealtimeHags : Bool := true
  nvOpenglVulkanOnDxgi : Bool := true
  nvSunshineHighPowerMode : Bool := true
  nvLegacy : NvLegacy := {}
  qsv : Qsv := {}
  amd : Amd := {}
  vt : Vt := {}
  vaapi : Vaapi := {}
  capture : String := ""
  encoder : String := ""
  adapterName : String := ""
  outputName : String := ""
  virtualDisplayMode : VirtualDisplayMode := .perClient
  virtualDisplayLayout : VirtualDisplayLayout := .exclusive
  virtualDisplayBackend : String := "auto"
  vgdHdrPeakNits : ℤ := 800
  dd : Dd := {}
  maxBitrate : ℤ := 0
  minimumFpsTarget : Float := 20

/-! ## The other groups -/

structure Pyrowave where
  enabled : Bool := false
  bitrateMbps : ℤ := 700
  qualityBias : ℤ := 0
  refreshInterval : ℤ := 0

structure Audio where
  sink : String := ""
  virtualSink : String := ""
  stream : Bool := true
  installSteamDrivers : Bool := true

structure Stream where
  pingTimeout : ℤ := 10000
  fileApps : String
  fecPercentage : ℤ := 20
  videoMaxBatchSizeKb : ℤ := 64
  lanEncryptionMode : ℤ := 0
  wanEncryptionMode : ℤ := 1
  sessionMonitor : Bool := true

structure Nvhttp where
  originWebUiAllowed : String := "lan"
  pkey : String := "credentials/cakey.pem"
  cert : String := "credentials/cacert.pem"
  sunshineName : String
  fileState : String := "sunshine_state.json"
  luminalshineFileState : String := "luminalshine_state.json"
  externalIp : String := ""

/-- The names of `platf::supported_gamepads(nullptr)`. -/
def supportedGamepads : List String :=
  ["auto", "xbox_series", "xbox_one", "ds4", "dualsense", "switch_pro", "x360"]

structure Input where
  keybindings : AList fun _ : ℤ => ℤ :=
    ((∅ : AList fun _ : ℤ => ℤ).insert 0x10 0xA0 |>.insert 0x11 0xA2).insert 0x12 0xA4
  backButtonTimeout : ℤ := -1
  gamepadGuideButtonCombo : String := "disabled"
  keyRepeatDelay : ℤ := 500
  /-- In seconds. -/
  keyRepeatPeriod : Float := 1 / 24.9
  gamepad : String := "auto"
  ds4BackAsTouchpadClick : Bool := true
  motionAsDs4 : Bool := true
  touchpadAsDs4 : Bool := true
  keyboard : Bool := true
  mouse : Bool := true
  controller : Bool := true
  alwaysSendScancodes : Bool := true
  highResolutionScrolling : Bool := true
  nativePenTouch : Bool := true

structure FrameLimiter where
  enable : Bool := false
  provider : String := "auto"
  fpsLimit : ℤ := 0
  disableVsync : Bool := false

structure Rtss where
  installPath : String := ""
  frameLimitType : String := "async"

structure LosslessScaling where
  exePath : String := ""
  legacyAutoDetect : Bool := false

structure Steam where
  autoSync : Bool := false
  includeFamilyShared : Bool := true
  nonsteamShortcutsAutoSync : Bool := false

structure PrepCmd where
  doCmd : String
  undoCmd : String
  elevated : Bool
  deriving DecidableEq, Repr

/-- `sunshine_t`; times in seconds. -/
structure Sunshine where
  locale : String := "en"
  minLogLevel : ℤ
  credentialsFile : String := ""
  tpmBinding : Bool := true
  port : ℤ := 47989
  addressFamily : String := "ipv4"
  bindAddress : String := ""
  logFile : String
  notifyPreReleases : Bool := true
  systemTray : Bool := true
  prepCmds : List PrepCmd := []
  sessionTokenTtl : ℤ := 2 * 3600
  rememberMeRefreshTokenTtl : ℤ := 24 * 7 * 3600
  updateCheckIntervalSeconds : ℤ := 86400

/-! ## Flags -/

/-- `flag_e`. -/
inductive Flag where
  | pinStdin
  | freshState
  | forceVideoHeaderReplace
  | upnp
  | constPin
  deriving DecidableEq, Repr

/-- `std::bitset<flag::FLAG_SIZE>`. -/
abbrev Flags := Flag → Bool

/-- `flags[flag].flip()`. -/
def Flags.flip (flags : Flags) (flag : Flag) : Flags := fun f => flags f ^^ decide (f = flag)

/-! ## All groups -/

structure Settings where
  video : Video
  pyrowave : Pyrowave
  audio : Audio
  stream : Stream
  nvhttp : Nvhttp
  input : Input
  frameLimiter : FrameLimiter
  rtss : Rtss
  losslessScaling : LosslessScaling
  steam : Steam
  sunshine : Sunshine
  flags : Flags

/-- `default_min_log_level`. -/
def Host.defaultMinLogLevel (host : Host) : ℤ := if host.prerelease then 1 else 2

/-- The static initialisation of the globals, copied to the `default_…` constants. -/
def Settings.initial (host : Host) : Settings where
  video := {}
  pyrowave := {}
  audio := {}
  stream := { fileApps := host.appdata ++ "/apps.json" }
  nvhttp := { sunshineName := host.hostName }
  input := {}
  frameLimiter := {}
  rtss := {}
  losslessScaling := {}
  steam := {}
  sunshine :=
    { minLogLevel := host.defaultMinLogLevel, logFile := host.logDir ++ "/sunshine.log" }
  flags := fun _ => false

/-- `reset_runtime_config_to_defaults`. -/
def Settings.resetRuntimeConfigToDefaults (host : Host) (s : Settings) : Settings :=
  { s with
    video := (Settings.initial host).video
    pyrowave := (Settings.initial host).pyrowave
    audio := (Settings.initial host).audio
    stream := (Settings.initial host).stream
    input := (Settings.initial host).input
    frameLimiter := (Settings.initial host).frameLimiter
    rtss := (Settings.initial host).rtss
    losslessScaling := (Settings.initial host).losslessScaling
    sunshine := (Settings.initial host).sunshine
    flags := (Settings.initial host).flags }

end LuminalShine.Config
