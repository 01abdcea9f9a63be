import LuminalShine.Config.Readers

/-!
# Applying options

`apply_config` of `src/config.cpp`, statement by statement: the statements on one group that do
not throw are a list, and `applyConfig` runs the lists and the statements that may throw in the
order of the source.

## Main definitions

* `applyEncoders`, `applyAudio`, `applyInput`, … — the statements on a group.
* `applyConfig` — the reset to defaults, and all statements.
-/

namespace LuminalShine.Config

open LuminalShine.Lib

/-- `std::numeric_limits<int>::max()` and `min()`. -/
def intMax : ℤ := 2147483647
def intMin : ℤ := -2147483648

variable {σ : Type}

/-- An option that is only taken out of the map. -/
def discard (name : String) : Statement σ := readAssign name fun _ s => s

/-- `nv::normalize_split_encode_alias`. -/
def normalizeSplitEncodeAlias (vars : Vars) : Vars :=
  match vars.lookup "nvenc_force_split_encode" with
  | none => vars
  | some legacy => (emplace vars "nvenc_split_encode" legacy).erase "nvenc_force_split_encode"

def normalizeAlias : Apply σ Unit := fun s => .ok ⟨⟩ (normalizeSplitEncodeAlias s.1, s.2)

/-! ## Encoders -/

def applySw : List (Statement Sw) :=
  [stringF "sw_preset" ⟨(·.swPreset), fun x s => { s with swPreset := x }⟩,
    compute fun s =>
      if s.swPreset = "" then s
      else { s with svtav1Preset := some (svtav1PresetFromView s.swPreset) },
    stringF "sw_tune" ⟨(·.swTune), fun x s => { s with swTune := x }⟩]

def applyNv : List (Statement NvencConfig) :=
  [intBetweenF "nvenc_preset" ⟨(·.qualityPreset), fun x s => { s with qualityPreset := x }⟩ 1 7,
    intBetweenF "nvenc_vbv_increase"
      ⟨(·.vbvPercentageIncrease), fun x s => { s with vbvPercentageIncrease := x }⟩ 0 400,
    boolF "nvenc_spatial_aq"
      ⟨(·.adaptiveQuantization), fun x s => { s with adaptiveQuantization := x }⟩,
    genericF "nvenc_split_encode"
      ⟨(·.splitEncodeMode), fun x s => { s with splitEncodeMode := x }⟩ splitEncodeModeFromView,
    genericF "nvenc_twopass" ⟨(·.twoPass), fun x s => { s with twoPass := x }⟩ twopassFromView,
    boolF "nvenc_h264_cavlc" ⟨(·.h264Cavlc), fun x s => { s with h264Cavlc := x }⟩]

/-- The settings that are derived for the old interface. -/
def nvLegacy (nv : NvencConfig) : NvLegacy where
  preset := nv.qualityPreset + 11
  multipass :=
    match nv.twoPass with
    | .quarterResolution => 1
    | .fullResolution => 2
    | .disabled => 0
  h264Coder := if nv.h264Cavlc then 2 else 1
  aq := nv.adaptiveQuantization.toNat
  vbvPercentageIncrease := nv.vbvPercentageIncrease

def applyQsv : List (Statement Qsv) :=
  [genericF "qsv_preset" ⟨(·.qsvPreset), fun x s => { s with qsvPreset := x }⟩ qsvPresetFromView,
    genericF "qsv_coder" ⟨(·.qsvCavlc), fun x s => { s with qsvCavlc := x }⟩ qsvCoderFromView,
    boolF "qsv_slow_hevc" ⟨(·.qsvSlowHevc), fun x s => { s with qsvSlowHevc := x }⟩]

/-- Unknown values of `amd_split_encode` are `disabled`. -/
def normalizeSplitEncode (value : String) : String :=
  if value = "auto" ∨ value = "enabled" ∨ value = "disabled" then value else "disabled"

/-- The source reads `amd_coder` between `amd_rc` and the assignments from it. -/
def applyAmd : List (Statement Amd) :=
  [readNonempty "amd_quality" fun quality s =>
      { s with
        amdQualityH264 := qualityFromView 1 2 0 s.amdQualityH264 quality
        amdQualityHevc := qualityFromView 10 0 5 s.amdQualityHevc quality
        amdQualityAv1 := qualityFromView 100 30 70 s.amdQualityAv1 quality },
    readNonempty "amd_rc" fun rc s =>
      { s with
        amdRcH264 := rcFromView 1 0 3 2 s.amdRcH264 rc
        amdRcHevc := rcFromView 3 0 1 2 s.amdRcHevc rc
        amdRcAv1 := rcFromView 3 0 1 2 s.amdRcAv1 rc },
    genericF "amd_coder" ⟨(·.amdCoder), fun x s => { s with amdCoder := x }⟩ amdCoderFromView,
    readNonempty "amd_usage" fun usage s =>
      { s with
        amdUsageH264 := usageFromView 0 3 5 2 1 s.amdUsageH264 usage
        amdUsageHevc := usageFromView 0 3 5 2 1 s.amdUsageHevc usage
        amdUsageAv1 := usageFromView 0 3 5 1 2 s.amdUsageAv1 usage },
    boolByteF "amd_preanalysis" ⟨(·.amdPreanalysis), fun x s => { s with amdPreanalysis := x }⟩,
    boolByteF "amd_vbaq" ⟨(·.amdVbaq), fun x s => { s with amdVbaq := x }⟩,
    boolByteF "amd_enforce_hrd" ⟨(·.amdEnforceHrd), fun x s => { s with amdEnforceHrd := x }⟩,
    stringF "amd_split_encode" ⟨(·.amdSplitEncode), fun x s => { s with amdSplitEncode := x }⟩,
    compute fun s => { s with amdSplitEncode := normalizeSplitEncode s.amdSplitEncode }]

/-- The second reader of `vt_software` never finds the option. -/
def applyVt : List (Statement Vt) :=
  [genericF "vt_coder" ⟨(·.vtCoder), fun x s => { s with vtCoder := x }⟩ vtCoderFromView,
    genericF "vt_software" ⟨(·.vtAllowSw), fun x s => { s with vtAllowSw := x }⟩
      allowSoftwareFromView,
    genericF "vt_software" ⟨(·.vtRequireSw), fun x s => { s with vtRequireSw := x }⟩
      forceSoftwareFromView,
    genericF "vt_realtime" ⟨(·.vtRealtime), fun x s => { s with vtRealtime := x }⟩ rtFromView]

def swRef : Ref Video Sw := ⟨(·.sw), fun x s => { s with sw := x }⟩
def nvRef : Ref Video NvencConfig := ⟨(·.nv), fun x s => { s with nv := x }⟩
def qsvRef : Ref Video Qsv := ⟨(·.qsv), fun x s => { s with qsv := x }⟩
def amdRef : Ref Video Amd := ⟨(·.amd), fun x s => { s with amd := x }⟩
def vtRef : Ref Video Vt := ⟨(·.vt), fun x s => { s with vt := x }⟩
def ddRef : Ref Video Dd := ⟨(·.dd), fun x s => { s with dd := x }⟩

def applyEncoders : List (Statement Video) :=
  List.flatten
    [[intF "qp" ⟨(·.qp), fun x s => { s with qp := x }⟩,
        intBetweenF "hevc_mode" ⟨(·.hevcMode), fun x s => { s with hevcMode := x }⟩ 0 3,
        intBetweenF "av1_mode" ⟨(·.av1Mode), fun x s => { s with av1Mode := x }⟩ 0 3,
        boolF "prefer_10bit_sdr" ⟨(·.prefer10bitSdr), fun x s => { s with prefer10bitSdr := x }⟩,
        boolF "yuv444_streaming" ⟨(·.yuv444Streaming), fun x s => { s with yuv444Streaming := x }⟩,
        intF "min_threads" ⟨(·.minThreads), fun x s => { s with minThreads := x }⟩],
      applySw.map (.on swRef),
      applyNv.map (.on nvRef),
      [boolF "nvenc_realtime_hags" ⟨(·.nvRealtimeHags), fun x s => { s with nvRealtimeHags := x }⟩,
        boolF "nvenc_opengl_vulkan_on_dxgi"
          ⟨(·.nvOpenglVulkanOnDxgi), fun x s => { s with nvOpenglVulkanOnDxgi := x }⟩,
        boolF "nvenc_latency_over_power"
          ⟨(·.nvSunshineHighPowerMode), fun x s => { s with nvSunshineHighPowerMode := x }⟩,
        compute fun s => { s with nvLegacy := nvLegacy s.nv }],
      applyQsv.map (.on qsvRef),
      applyAmd.map (.on amdRef),
      applyVt.map (.on vtRef),
      [boolF "vaapi_strict_rc_buffer"
          ⟨(·.vaapi.strictRcBuffer), fun x s => { s with vaapi.strictRcBuffer := x }⟩]]

/-! ## Displays -/

/-- The statements before `dd_mode_remapping`. -/
def applyDd (host : Host) : List (Statement Dd) :=
  [genericF "dd_configuration_option"
      ⟨(·.configurationOption), fun x s => { s with configurationOption := x }⟩
      configOptionFromView,
    genericF "dd_resolution_option"
      ⟨(·.resolutionOption), fun x s => { s with resolutionOption := x }⟩ resolutionOptionFromView,
    stringF "dd_manual_resolution"
      ⟨(·.manualResolution), fun x s => { s with manualResolution := x }⟩,
    genericF "dd_refresh_rate_option"
      ⟨(·.refreshRateOption), fun x s => { s with refreshRateOption := x }⟩
      refreshRateOptionFromView,
    stringF "dd_manual_refresh_rate"
      ⟨(·.manualRefreshRate), fun x s => { s with manualRefreshRate := x }⟩,
    genericF "dd_hdr_option" ⟨(·.hdrOption), fun x s => { s with hdrOption := x }⟩
      hdrOptionFromView,
    genericF "dd_hdr_request_override"
      ⟨(·.hdrRequestOverride), fun x s => { s with hdrRequestOverride := x }⟩
      hdrRequestOverrideFromView,
    localIntBetweenF "dd_config_revert_delay" (-1) 0 intMax fun value s =>
      if 0 ≤ value then { s with configRevertDelay := value } else s,
    boolF "dd_config_revert_on_disconnect"
      ⟨(·.configRevertOnDisconnect), fun x s => { s with configRevertOnDisconnect := x }⟩,
    localIntBetweenF "dd_paused_virtual_display_timeout_secs" 0 0 intMax fun value s =>
      { s with pausedVirtualDisplayTimeoutSecs := max 0 value },
    boolF "dd_always_restore_from_golden"
      ⟨(·.alwaysRestoreFromGolden), fun x s => { s with alwaysRestoreFromGolden := x }⟩,
    boolF "dd_dark_recovery_anchor"
      ⟨(·.darkRecoveryAnchor), fun x s => { s with darkRecoveryAnchor := x }⟩,
    boolF "dd_activate_virtual_display"
      ⟨(·.activateVirtualDisplay), fun x s => { s with activateVirtualDisplay := x }⟩,
    genericF "dd_snapshot_exclude_devices"
      ⟨(·.snapshotExcludeDevices), fun x s => { s with snapshotExcludeDevices := x }⟩
      (snapshotExcludeDevicesFromView host),
    -- these two also take an empty text
    readInto "dd_snapshot_restore_hotkey"
      ⟨(·.snapshotRestoreHotkey), fun x s => { s with snapshotRestoreHotkey := x }⟩
      (assigned snapshotRestoreHotkeyFromView),
    readInto "dd_snapshot_restore_hotkey_modifiers"
      ⟨(·.snapshotRestoreHotkeyModifiers),
        fun x s => { s with snapshotRestoreHotkeyModifiers := x }⟩
      (assigned snapshotRestoreHotkeyModifiersFromView)]

/-- Those behind it. -/
def applyWorkarounds : List (Statement Dd) :=
  [discard "dd_wa_hdr_toggle",
    discard "dd_wa_hdr_toggle_delay",
    boolF "dd_wa_dummy_plug_hdr10"
      ⟨(·.wa.dummyPlugHdr10), fun x s => { s with wa.dummyPlugHdr10 := x }⟩,
    boolF "dd_wa_virtual_double_refresh"
      ⟨(·.wa.virtualDoubleRefresh), fun x s => { s with wa.virtualDoubleRefresh := x }⟩]

def applyDisplay (host : Host) : List (Statement Video) :=
  List.flatten
    [[stringF "capture" ⟨(·.capture), fun x s => { s with capture := x }⟩,
        stringF "encoder" ⟨(·.encoder), fun x s => { s with encoder := x }⟩,
        stringF "adapter_name" ⟨(·.adapterName), fun x s => { s with adapterName := x }⟩,
        stringF "output_name" ⟨(·.outputName), fun x s => { s with outputName := x }⟩,
        genericF "virtual_display_mode"
          ⟨(·.virtualDisplayMode), fun x s => { s with virtualDisplayMode := x }⟩
          virtualDisplayModeFromView,
        genericF "virtual_display_layout"
          ⟨(·.virtualDisplayLayout), fun x s => { s with virtualDisplayLayout := x }⟩
          virtualDisplayLayoutFromView,
        stringF "virtual_display_backend"
          ⟨(·.virtualDisplayBackend), fun x s => { s with virtualDisplayBackend := x }⟩,
        intBetweenF "vgd_hdr_peak_nits"
          ⟨(·.vgdHdrPeakNits), fun x s => { s with vgdHdrPeakNits := x }⟩ 0 1000],
      (applyDd host).map (.on ddRef)]

def applyPyrowave : List (Statement Pyrowave) :=
  [boolF "pyrowave_enabled" ⟨(·.enabled), fun x s => { s with enabled := x }⟩,
    intBetweenF "pyrowave_bitrate_mbps"
      ⟨(·.bitrateMbps), fun x s => { s with bitrateMbps := x }⟩ 0 10000,
    intBetweenF "pyrowave_quality_bias"
      ⟨(·.qualityBias), fun x s => { s with qualityBias := x }⟩ 0 3,
    intBetweenF "pyrowave_refresh_interval"
      ⟨(·.refreshInterval), fun x s => { s with refreshInterval := x }⟩ 0 255]

def applyRates (host : Host) : List (Statement Video) :=
  [intF "max_bitrate" ⟨(·.maxBitrate), fun x s => { s with maxBitrate := x }⟩,
    doubleBetweenF host "minimum_fps_target"
      ⟨(·.minimumFpsTarget), fun x s => { s with minimumFpsTarget := x }⟩ 0 1000]

def applyFrameLimiter : List (Statement FrameLimiter) :=
  [boolF "frame_limiter_enable" ⟨(·.enable), fun x s => { s with enable := x }⟩,
    stringF "frame_limiter_provider" ⟨(·.provider), fun x s => { s with provider := x }⟩,
    compute fun s => if s.provider = "" then { s with provider := "auto" } else s,
    intBetweenF "frame_limiter_fps_limit" ⟨(·.fpsLimit), fun x s => { s with fpsLimit := x }⟩
      0 1000,
    boolF "frame_limiter_disable_vsync" ⟨(·.disableVsync), fun x s => { s with disableVsync := x }⟩,
    boolF "rtss_disable_vsync_ullm" ⟨(·.disableVsync), fun x s => { s with disableVsync := x }⟩]

def applyRtss : List (Statement Rtss) :=
  [stringF "rtss_install_path" ⟨(·.installPath), fun x s => { s with installPath := x }⟩,
    stringF "rtss_frame_limit_type" ⟨(·.frameLimitType), fun x s => { s with frameLimitType := x }⟩]

def applyLosslessScaling : List (Statement LosslessScaling) :=
  [stringF "lossless_scaling_path" ⟨(·.exePath), fun x s => { s with exePath := x }⟩,
    boolF "lossless_scaling_legacy_auto_detect"
      ⟨(·.legacyAutoDetect), fun x s => { s with legacyAutoDetect := x }⟩]

/-! ## Audio, stream and input -/

def applyAudio : List (Statement Audio) :=
  [stringF "audio_sink" ⟨(·.sink), fun x s => { s with sink := x }⟩,
    stringF "virtual_sink" ⟨(·.virtualSink), fun x s => { s with virtualSink := x }⟩,
    boolF "stream_audio" ⟨(·.stream), fun x s => { s with stream := x }⟩,
    boolF "install_steam_audio_drivers"
      ⟨(·.installSteamDrivers), fun x s => { s with installSteamDrivers := x }⟩]

def applySession : List (Statement Stream) :=
  [localIntBetweenF "ping_timeout" (-1) (-1) intMax fun timeout s =>
      if timeout = -1 then s else { s with pingTimeout := timeout },
    intBetweenF "lan_encryption_mode"
      ⟨(·.lanEncryptionMode), fun x s => { s with lanEncryptionMode := x }⟩ 0 2,
    intBetweenF "wan_encryption_mode"
      ⟨(·.wanEncryptionMode), fun x s => { s with wanEncryptionMode := x }⟩ 0 2,
    boolF "session_monitor" ⟨(·.sessionMonitor), fun x s => { s with sessionMonitor := x }⟩]

/-- Batch sizes other than 16, 32 and 64 are 64. -/
def normalizeBatchSize (kb : ℤ) : ℤ := if kb = 16 ∨ kb = 32 then kb else 64

def applyBatches : List (Statement Stream) :=
  [intBetweenF "fec_percentage" ⟨(·.fecPercentage), fun x s => { s with fecPercentage := x }⟩
      1 255,
    intBetweenF "video_max_batch_size_kb"
      ⟨(·.videoMaxBatchSizeKb), fun x s => { s with videoMaxBatchSizeKb := x }⟩ 0 64,
    compute fun s => { s with videoMaxBatchSizeKb := normalizeBatchSize s.videoMaxBatchSizeKb }]

def allowedGuideCombos : List String :=
  ["disabled", "start_back", "back_x", "back_y", "dpad_right_x", "dpad_left_y"]

def applyInput (host : Host) : List (Statement Input) :=
  [mapIntIntF "keybindings" ⟨(·.keybindings), fun x s => { s with keybindings := x }⟩,
    readNonempty "key_rightalt_to_key_win" fun text s =>
      if toBool text then { s with keybindings := emplace s.keybindings 0xA5 0x5B } else s,
    readAssign "back_button_timeout" fun text s =>
      let timeout := (text.map intValue).getD intMin
      if intMin < timeout then { s with backButtonTimeout := timeout } else s,
    stringF "gamepad_guide_button_combo"
      ⟨(·.gamepadGuideButtonCombo), fun x s => { s with gamepadGuideButtonCombo := x }⟩,
    compute fun s =>
      if s.gamepadGuideButtonCombo ∈ allowedGuideCombos then s
      else { s with gamepadGuideButtonCombo := "disabled" },
    readNonempty "key_repeat_frequency" fun text s =>
      let repeatFrequency := doubleBetween host 0 1.7976931348623157e308 (some text) 0
      if 0 < repeatFrequency then { s with keyRepeatPeriod := 1 / repeatFrequency } else s,
    readAssign "key_repeat_delay" fun text s =>
      let delay := (text.map intValue).getD (-1)
      if 0 ≤ delay then { s with keyRepeatDelay := delay } else s,
    stringRestrictedF "gamepad" ⟨(·.gamepad), fun x s => { s with gamepad := x }⟩
      supportedGamepads,
    boolF "ds4_back_as_touchpad_click"
      ⟨(·.ds4BackAsTouchpadClick), fun x s => { s with ds4BackAsTouchpadClick := x }⟩,
    boolF "motion_as_ds4" ⟨(·.motionAsDs4), fun x s => { s with motionAsDs4 := x }⟩,
    boolF "touchpad_as_ds4" ⟨(·.touchpadAsDs4), fun x s => { s with touchpadAsDs4 := x }⟩,
    boolF "mouse" ⟨(·.mouse), fun x s => { s with mouse := x }⟩,
    boolF "keyboard" ⟨(·.keyboard), fun x s => { s with keyboard := x }⟩,
    boolF "controller" ⟨(·.controller), fun x s => { s with controller := x }⟩,
    boolF "always_send_scancodes"
      ⟨(·.alwaysSendScancodes), fun x s => { s with alwaysSendScancodes := x }⟩,
    boolF "high_resolution_scrolling"
      ⟨(·.highResolutionScrolling), fun x s => { s with highResolutionScrolling := x }⟩,
    boolF "native_pen_touch" ⟨(·.nativePenTouch), fun x s => { s with nativePenTouch := x }⟩]

/-! ## General settings -/

def applyGeneral : List (Statement Sunshine) :=
  [boolF "notify_pre_releases"
      ⟨(·.notifyPreReleases), fun x s => { s with notifyPreReleases := x }⟩,
    boolF "system_tray" ⟨(·.systemTray), fun x s => { s with systemTray := x }⟩,
    -- from `1024 + nvhttp::PORT_HTTPS` to `65535 - rtsp_stream::RTSP_SETUP_PORT`
    intBetweenF "port" ⟨(·.port), fun x s => { s with port := x }⟩ (1024 - 5) (65535 - 21),
    stringRestrictedF "address_family" ⟨(·.addressFamily), fun x s => { s with addressFamily := x }⟩
      ["ipv4", "both"],
    stringF "bind_address" ⟨(·.bindAddress), fun x s => { s with bindAddress := x }⟩]

def locales : List String :=
  ["bg", "cs", "de", "en", "en_GB", "en_US", "es", "fr", "hu", "it", "ja", "ko", "pl", "pt",
    "pt_BR", "ru", "sv", "tr", "uk", "vi", "zh", "zh_TW"]

/-- The level a text names, by a word or by its first digit. -/
def minLogLevel (current : ℤ) (text : String) : ℤ :=
  match text with
  | "verbose" => 0
  | "debug" => 1
  | "info" => 2
  | "warning" => 3
  | "error" => 4
  | "fatal" => 5
  | "none" => 6
  | text =>
      let val := (text.toList.head?.map charValue).getD 0
      if 48 ≤ val ∧ val < 55 then val - 48 else current

def applyLanguage : List (Statement Sunshine) :=
  [stringRestrictedF "locale" ⟨(·.locale), fun x s => { s with locale := x }⟩ locales,
    readNonempty "min_log_level" fun text s =>
      { s with minLogLevel := minLogLevel s.minLogLevel text }]

/-- The options of `apply_playnite`, whose group is reset there. -/
def applyPlaynite : List (Statement Sunshine) :=
  [discard "playnite_auto_sync",
    discard "playnite_sync_all_installed",
    discard "playnite_autosync_require_replacement",
    discard "playnite_autosync_remove_uninstalled",
    discard "playnite_recent_games",
    discard "playnite_recent_max_age_days",
    discard "playnite_autosync_delete_after_days",
    discard "playnite_focus_attempts",
    discard "playnite_focus_timeout_secs",
    discard "playnite_focus_exit_on_first",
    discard "playnite_fullscreen_entry_enabled",
    discard "playnite_sync_categories",
    discard "playnite_exclude_categories",
    discard "playnite_sync_plugins",
    discard "playnite_exclude_plugins",
    discard "playnite_exclude_games"]

def applyTokenTtl : List (Statement Sunshine) :=
  [localIntBetweenF "session_token_ttl_seconds" (-1) 1 intMax fun ttlSecs s =>
      if 0 < ttlSecs then { s with sessionTokenTtl := ttlSecs } else s,
    localIntBetweenF "remember_me_refresh_token_ttl_seconds" (-1) 1 intMax fun ttlSecs s =>
      if 0 < ttlSecs then { s with rememberMeRefreshTokenTtl := ttlSecs } else s]

/-! ## References to the groups -/

def videoRef : Ref Settings Video := ⟨(·.video), fun x s => { s with video := x }⟩
def pyrowaveRef : Ref Settings Pyrowave := ⟨(·.pyrowave), fun x s => { s with pyrowave := x }⟩
def audioRef : Ref Settings Audio := ⟨(·.audio), fun x s => { s with audio := x }⟩
def streamRef : Ref Settings Stream := ⟨(·.stream), fun x s => { s with stream := x }⟩
def nvhttpRef : Ref Settings Nvhttp := ⟨(·.nvhttp), fun x s => { s with nvhttp := x }⟩
def inputRef : Ref Settings Input := ⟨(·.input), fun x s => { s with input := x }⟩
def frameLimiterRef : Ref Settings FrameLimiter :=
  ⟨(·.frameLimiter), fun x s => { s with frameLimiter := x }⟩
def rtssRef : Ref Settings Rtss := ⟨(·.rtss), fun x s => { s with rtss := x }⟩
def losslessScalingRef : Ref Settings LosslessScaling :=
  ⟨(·.losslessScaling), fun x s => { s with losslessScaling := x }⟩
def steamRef : Ref Settings Steam := ⟨(·.steam), fun x s => { s with steam := x }⟩
def sunshineRef : Ref Settings Sunshine := ⟨(·.sunshine), fun x s => { s with sunshine := x }⟩
def flagsRef : Ref Settings Flags := ⟨(·.flags), fun x s => { s with flags := x }⟩

/-! ## The whole apply -/

/-- The statement on the `upnp` option. -/
def upnpFlags : Option String → Flags → Flags :=
  nonempty fun text flags => if toBool text then flags.flip .upnp else flags

/-- The statement on the `flags` option. -/
def letterFlags (text : Option String) (flags : Flags) : Flags :=
  match text with
  | none => flags
  | some text => (applyFlags text flags).1

/-- The dummy plug workaround needs the VSYNC override. -/
def dummyPlugWorkaround (s : Settings) : Settings :=
  if s.video.dd.wa.dummyPlugHdr10 then
    frameLimiterRef.set { s.frameLimiter with disableVsync := true } s
  else s

/-- The default of `credentials_file`, next to the state file. -/
def credsDefault (fileState : String) : String :=
  String.ofList (WindowsPath.join (WindowsPath.parentPath fileState.toList)
    "luminalshine_credentials.json".toList)

def defaultCredentialsFile (s : Settings) : Settings :=
  sunshineRef.set { s.sunshine with credentialsFile := credsDefault s.nvhttp.fileState } s

/-- `apply_config`. -/
def applyConfig (host : Host) (world : World) : Apply Settings Unit := do
  block [compute fun s => s.resetRuntimeConfigToDefaults host]
  require (·.stream.fileApps) world.appsReady
  normalizeAlias
  on videoRef (block (applyEncoders ++ applyDisplay host))
  on videoRef (on ddRef (modeRemappingF host "dd_mode_remapping"
    ⟨(·.modeRemapping), fun x s => { s with modeRemapping := x }⟩))
  on videoRef (on ddRef (block applyWorkarounds))
  on pyrowaveRef (block applyPyrowave)
  on videoRef (block (applyRates host))
  on frameLimiterRef (block applyFrameLimiter)
  on rtssRef (block applyRtss)
  block [compute dummyPlugWorkaround]
  on losslessScalingRef (block applyLosslessScaling)
  on nvhttpRef (pathF host world "pkey" ⟨(·.pkey), fun x s => { s with pkey := x }⟩)
  on nvhttpRef (pathF host world "cert" ⟨(·.cert), fun x s => { s with cert := x }⟩)
  on nvhttpRef (block [stringF "sunshine_name"
    ⟨(·.sunshineName), fun x s => { s with sunshineName := x }⟩])
  on sunshineRef (pathF host world "log_path" ⟨(·.logFile), fun x s => { s with logFile := x }⟩)
  on nvhttpRef (pathF host world "file_state"
    ⟨(·.fileState), fun x s => { s with fileState := x }⟩)
  on nvhttpRef (pathF host world "luminalshine_file_state"
    ⟨(·.luminalshineFileState), fun x s => { s with luminalshineFileState := x }⟩)
  block [compute defaultCredentialsFile]
  on sunshineRef (pathF host world "credentials_file"
    ⟨(·.credentialsFile), fun x s => { s with credentialsFile := x }⟩)
  on sunshineRef (block [boolF "tpm_binding"
    ⟨(·.tpmBinding), fun x s => { s with tpmBinding := x }⟩])
  on steamRef (block [boolF "steam_auto_sync"
    ⟨(·.autoSync), fun x s => { s with autoSync := x }⟩])
  on steamRef (block [boolF "steam_include_family_shared"
    ⟨(·.includeFamilyShared), fun x s => { s with includeFamilyShared := x }⟩])
  on steamRef (block [boolF "nonsteam_shortcuts_auto_sync"
    ⟨(·.nonsteamShortcutsAutoSync), fun x s => { s with nonsteamShortcutsAutoSync := x }⟩])
  on nvhttpRef (block [stringF "external_ip"
    ⟨(·.externalIp), fun x s => { s with externalIp := x }⟩])
  on sunshineRef (listPrepCmdF host "global_prep_cmd"
    ⟨(·.prepCmds), fun x s => { s with prepCmds := x }⟩)
  on sunshineRef (block [intF "update_check_interval"
    ⟨(·.updateCheckIntervalSeconds), fun x s => { s with updateCheckIntervalSeconds := x }⟩])
  on audioRef (block applyAudio)
  on nvhttpRef (block [stringRestrictedF "origin_web_ui_allowed"
    ⟨(·.originWebUiAllowed), fun x s => { s with originWebUiAllowed := x }⟩
    ["pc", "lan", "wan"]])
  on streamRef (block applySession)
  on streamRef (pathF host world "file_apps" ⟨(·.fileApps), fun x s => { s with fileApps := x }⟩)
  require (·.stream.fileApps) world.appsReady
  on streamRef (block applyBatches)
  on inputRef (block (applyInput host))
  on sunshineRef (block applyGeneral)
  on flagsRef (block [readAssign "upnp" upnpFlags])
  on sunshineRef (block applyLanguage)
  on sunshineRef (block applyPlaynite)
  on flagsRef (block [readAssign "flags" letterFlags])
  on sunshineRef (block applyTokenTtl)

end LuminalShine.Config
