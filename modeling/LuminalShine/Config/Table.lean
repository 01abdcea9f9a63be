import LuminalShine.Config.Apply

/-!
# What the options say

A block of statements takes its options out of the map and assigns with them.  As long as they are
still there its effect is a function of the options, and that function is a table: every setting
has what its own option says, over the value that it had.

The table ends where `apply_config` can no longer throw; the settings read behind that have no
entry.

## Main definitions

* `Options`, `Waiting` — the texts of all options, and a map that still has some of them.
* `effect` — what statements assign.
* `videoOf`, `networkOf`, … — the table.

## Main results

* `block_waiting` — a block on a map that still has its options.
* `effect_encoders`, `effect_workarounds`, … — blocks are their lines of the table.
-/

namespace LuminalShine.Config

open LuminalShine.Lib

variable {σ τ : Type}

/-! ## Effects -/

/-- The texts of the options. -/
abbrev Options := String → Option String

def optionsOf (statements : List (Statement σ)) : List String := statements.filterMap (·.option)

/-- What the statements assign. -/
def effect (o : Options) (statements : List (Statement σ)) (s : σ) : σ :=
  statements.foldl (fun s st => st.assign (st.option.bind o) s) s

theorem effect_append (o : Options) (l l' : List (Statement σ)) (s : σ) :
    effect o (l ++ l') s = effect o l' (effect o l s) := List.foldl_append

/-- The options of these names are still in the map. -/
def Waiting (o : Options) (names : List String) (vars : Vars) : Prop :=
  names.Nodup ∧ ∀ name ∈ names, vars.lookup name = o name

theorem Waiting.erase {o : Options} {name : String} {names : List String} {vars : Vars}
    (h : Waiting o (name :: names) vars) : Waiting o names (vars.erase name) := by
  obtain ⟨hfresh, hnodup⟩ := List.nodup_cons.mp h.1
  refine ⟨hnodup, fun key hkey => ?_⟩
  have hne : key ≠ name := fun heq => hfresh (heq ▸ hkey)
  rw [AList.lookup_erase_ne hne]
  exact h.2 key (List.mem_cons_of_mem _ hkey)

/-- A block on a map that still has its options. -/
theorem block_waiting {o : Options} {statements : List (Statement σ)} {names : List String}
    {vars : Vars} {s : σ} (h : Waiting o (optionsOf statements ++ names) vars) :
    ∃ vars', block statements (vars, s) = .ok ⟨⟩ (vars', effect o statements s) ∧
      Waiting o names vars' := by
  induction statements generalizing vars s with
  | nil => exact ⟨vars, rfl, h⟩
  | cons st statements ih =>
      cases hoption : st.option with
      | none =>
          have hsame : optionsOf (st :: statements) = optionsOf statements := by
            simp [optionsOf, hoption]
          rw [hsame] at h
          obtain ⟨vars', hrun, hwait⟩ := ih (s := st.assign none s) h
          refine ⟨vars', ?_, hwait⟩
          simpa [block, effect, Statement.exec, hoption] using hrun
      | some name =>
          have hcons : optionsOf (st :: statements) = name :: optionsOf statements := by
            simp [optionsOf, hoption]
          rw [hcons, List.cons_append] at h
          have hlookup : vars.lookup name = o name := h.2 name List.mem_cons_self
          obtain ⟨vars', hrun, hwait⟩ := ih (s := st.assign (o name) s) h.erase
          refine ⟨vars', ?_, hwait⟩
          simpa [block, effect, Statement.exec, hoption, hlookup] using hrun

theorem lookup_exec_none {st : Statement σ} {x : Vars × σ} {name : String}
    (h : x.1.lookup name = none) : (st.exec x).1.lookup name = none := by
  rw [Statement.exec]
  cases st.option with
  | none => exact h
  | some key =>
      by_cases hkey : name = key
      · subst hkey
        exact AList.lookup_erase _ _
      · exact (AList.lookup_erase_ne hkey).trans h

/-- An option that has been read is gone. -/
theorem lookup_foldl_exec {name : String} {statements : List (Statement σ)} {x : Vars × σ}
    (h : name ∈ optionsOf statements ∨ x.1.lookup name = none) :
    (statements.foldl (fun s st => st.exec s) x).1.lookup name = none := by
  induction statements generalizing x with
  | nil => exact h.resolve_left List.not_mem_nil
  | cons st statements ih =>
      refine ih ?_
      rcases h with hread | hgone
      · rw [optionsOf, List.filterMap_cons] at hread
        cases hoption : st.option with
        | none =>
            rw [hoption] at hread
            exact .inl hread
        | some key =>
            rw [hoption] at hread
            rcases List.mem_cons.mp hread with rfl | hlater
            · refine .inr ?_
              change (st.exec x).1.lookup name = none
              rw [Statement.exec, hoption]
              exact AList.lookup_erase _ _
            · exact .inl hlater
      · exact .inr (lookup_exec_none hgone)

/-- A block that reads an option a second time. -/
theorem block_waiting_again {o : Options} {l l' : List (Statement σ)} (again : Statement σ)
    {name : String} {names : List String} {vars : Vars} {s : σ}
    (h : Waiting o (optionsOf (l ++ l') ++ names) vars) (hname : again.option = some name)
    (hread : name ∈ optionsOf l) (hskip : ∀ s, again.assign none s = s) :
    ∃ vars', block (l ++ again :: l') (vars, s) = .ok ⟨⟩ (vars', effect o (l ++ l') s) ∧
      Waiting o names vars' := by
  have happend : optionsOf (l ++ l') ++ names = optionsOf l ++ (optionsOf l' ++ names) := by
    rw [optionsOf, List.filterMap_append, List.append_assoc]
    rfl
  rw [happend] at h
  obtain ⟨vars₁, hrun₁, hwait₁⟩ := block_waiting (s := s) h
  simp only [block, EStateM.Result.ok.injEq, true_and] at hrun₁
  have hgone : vars₁.lookup name = none := by
    have := lookup_foldl_exec (x := (vars, s)) (.inl hread)
    rwa [hrun₁] at this
  have hlater : name ∉ optionsOf l' ++ names := fun hmem =>
    List.disjoint_of_nodup_append h.1 hread hmem
  have hwait₂ : Waiting o (optionsOf l' ++ names) (vars₁.erase name) := by
    refine ⟨hwait₁.1, fun key hkey => ?_⟩
    have hne : key ≠ name := fun heq => hlater (heq ▸ hkey)
    rw [AList.lookup_erase_ne hne]
    exact hwait₁.2 key hkey
  obtain ⟨vars', hrun', hwait'⟩ := block_waiting (s := effect o l s) hwait₂
  refine ⟨vars', ?_, hwait'⟩
  simp only [block, EStateM.Result.ok.injEq, true_and] at hrun' ⊢
  rw [List.foldl_append, hrun₁, List.foldl_cons, Statement.exec, hname]
  dsimp only
  rw [hgone, hskip, hrun', effect_append]

/-! ## The table -/

section Table
variable (host : Host) (o : Options)

def swOf (d : Sw) : Sw :=
  let preset := stringValue (o "sw_preset") d.swPreset
  { swPreset := preset
    svtav1Preset := if preset = "" then d.svtav1Preset else some (svtav1PresetFromView preset)
    swTune := stringValue (o "sw_tune") d.swTune }

def nvOf (d : NvencConfig) : NvencConfig where
  qualityPreset := intBetween 1 7 (o "nvenc_preset") d.qualityPreset
  vbvPercentageIncrease := intBetween 0 400 (o "nvenc_vbv_increase") d.vbvPercentageIncrease
  adaptiveQuantization := boolValue (o "nvenc_spatial_aq") d.adaptiveQuantization
  splitEncodeMode :=
    genericValue splitEncodeModeFromView (o "nvenc_split_encode") d.splitEncodeMode
  twoPass := genericValue twopassFromView (o "nvenc_twopass") d.twoPass
  h264Cavlc := boolValue (o "nvenc_h264_cavlc") d.h264Cavlc

def qsvOf (d : Qsv) : Qsv where
  qsvPreset := genericValue qsvPresetFromView (o "qsv_preset") d.qsvPreset
  qsvCavlc := genericValue qsvCoderFromView (o "qsv_coder") d.qsvCavlc
  qsvSlowHevc := boolValue (o "qsv_slow_hevc") d.qsvSlowHevc

/-- No text of `amd_quality`, `amd_rc` and `amd_usage` is an unknown one. -/
def amdOf (d : Amd) : Amd :=
  let quality := (o "amd_quality").getD ""
  let rc := (o "amd_rc").getD ""
  let usage := (o "amd_usage").getD ""
  { amdQualityH264 := qualityFromView 1 2 0 d.amdQualityH264 quality
    amdQualityHevc := qualityFromView 10 0 5 d.amdQualityHevc quality
    amdQualityAv1 := qualityFromView 100 30 70 d.amdQualityAv1 quality
    amdRcH264 := rcFromView 1 0 3 2 d.amdRcH264 rc
    amdRcHevc := rcFromView 3 0 1 2 d.amdRcHevc rc
    amdRcAv1 := rcFromView 3 0 1 2 d.amdRcAv1 rc
    amdCoder := genericValue amdCoderFromView (o "amd_coder") d.amdCoder
    amdUsageH264 := usageFromView 0 3 5 2 1 d.amdUsageH264 usage
    amdUsageHevc := usageFromView 0 3 5 2 1 d.amdUsageHevc usage
    amdUsageAv1 := usageFromView 0 3 5 1 2 d.amdUsageAv1 usage
    amdPreanalysis := boolByte (o "amd_preanalysis") d.amdPreanalysis
    amdVbaq := boolByte (o "amd_vbaq") d.amdVbaq
    amdEnforceHrd := boolByte (o "amd_enforce_hrd") d.amdEnforceHrd
    amdSplitEncode := normalizeSplitEncode (stringValue (o "amd_split_encode") d.amdSplitEncode) }

def vtOf (d : Vt) : Vt where
  vtCoder := genericValue vtCoderFromView (o "vt_coder") d.vtCoder
  vtAllowSw := genericValue allowSoftwareFromView (o "vt_software") d.vtAllowSw
  vtRequireSw := d.vtRequireSw
  vtRealtime := genericValue rtFromView (o "vt_realtime") d.vtRealtime

/-- The options from `dd_mode_remapping` on are those of `late`. -/
def ddOf (late : Options) (d : Dd) : Dd where
  configurationOption :=
    genericValue configOptionFromView (o "dd_configuration_option") d.configurationOption
  resolutionOption :=
    genericValue resolutionOptionFromView (o "dd_resolution_option") d.resolutionOption
  manualResolution := stringValue (o "dd_manual_resolution") d.manualResolution
  refreshRateOption :=
    genericValue refreshRateOptionFromView (o "dd_refresh_rate_option") d.refreshRateOption
  manualRefreshRate := stringValue (o "dd_manual_refresh_rate") d.manualRefreshRate
  hdrOption := genericValue hdrOptionFromView (o "dd_hdr_option") d.hdrOption
  hdrRequestOverride :=
    genericValue hdrRequestOverrideFromView (o "dd_hdr_request_override") d.hdrRequestOverride
  configRevertDelay :=
    let value := intBetween 0 intMax (o "dd_config_revert_delay") (-1)
    if 0 ≤ value then value else d.configRevertDelay
  configRevertOnDisconnect :=
    boolValue (o "dd_config_revert_on_disconnect") d.configRevertOnDisconnect
  pausedVirtualDisplayTimeoutSecs :=
    max 0 (intBetween 0 intMax (o "dd_paused_virtual_display_timeout_secs") 0)
  alwaysRestoreFromGolden :=
    boolValue (o "dd_always_restore_from_golden") d.alwaysRestoreFromGolden
  darkRecoveryAnchor := boolValue (o "dd_dark_recovery_anchor") d.darkRecoveryAnchor
  activateVirtualDisplay := boolValue (o "dd_activate_virtual_display") d.activateVirtualDisplay
  snapshotExcludeDevices :=
    genericValue (snapshotExcludeDevicesFromView host) (o "dd_snapshot_exclude_devices")
      d.snapshotExcludeDevices
  snapshotRestoreHotkey :=
    assigned snapshotRestoreHotkeyFromView (o "dd_snapshot_restore_hotkey")
      d.snapshotRestoreHotkey
  snapshotRestoreHotkeyModifiers :=
    assigned snapshotRestoreHotkeyModifiersFromView (o "dd_snapshot_restore_hotkey_modifiers")
      d.snapshotRestoreHotkeyModifiers
  modeRemapping :=
    nonempty (fun text x => (modeRemappingFromView host text).getD x) (late "dd_mode_remapping")
      d.modeRemapping
  wa :=
    { dummyPlugHdr10 := boolValue (late "dd_wa_dummy_plug_hdr10") d.wa.dummyPlugHdr10
      virtualDoubleRefresh :=
        boolValue (late "dd_wa_virtual_double_refresh") d.wa.virtualDoubleRefresh }

def videoOf (late : Options) (d : Video) : Video where
  qp := numberValue (o "qp") d.qp
  hevcMode := intBetween 0 3 (o "hevc_mode") d.hevcMode
  av1Mode := intBetween 0 3 (o "av1_mode") d.av1Mode
  prefer10bitSdr := boolValue (o "prefer_10bit_sdr") d.prefer10bitSdr
  yuv444Streaming := boolValue (o "yuv444_streaming") d.yuv444Streaming
  minThreads := numberValue (o "min_threads") d.minThreads
  sw := swOf o d.sw
  nv := nvOf o d.nv
  nvRealtimeHags := boolValue (o "nvenc_realtime_hags") d.nvRealtimeHags
  nvOpenglVulkanOnDxgi := boolValue (o "nvenc_opengl_vulkan_on_dxgi") d.nvOpenglVulkanOnDxgi
  nvSunshineHighPowerMode := boolValue (o "nvenc_latency_over_power") d.nvSunshineHighPowerMode
  nvLegacy := nvLegacy (nvOf o d.nv)
  qsv := qsvOf o d.qsv
  amd := amdOf o d.amd
  vt := vtOf o d.vt
  vaapi := { strictRcBuffer := boolValue (o "vaapi_strict_rc_buffer") d.vaapi.strictRcBuffer }
  capture := stringValue (o "capture") d.capture
  encoder := stringValue (o "encoder") d.encoder
  adapterName := stringValue (o "adapter_name") d.adapterName
  outputName := stringValue (o "output_name") d.outputName
  virtualDisplayMode :=
    genericValue virtualDisplayModeFromView (o "virtual_display_mode") d.virtualDisplayMode
  virtualDisplayLayout :=
    genericValue virtualDisplayLayoutFromView (o "virtual_display_layout") d.virtualDisplayLayout
  virtualDisplayBackend := stringValue (o "virtual_display_backend") d.virtualDisplayBackend
  vgdHdrPeakNits := intBetween 0 1000 (o "vgd_hdr_peak_nits") d.vgdHdrPeakNits
  dd := ddOf host o late d.dd
  maxBitrate := numberValue (late "max_bitrate") d.maxBitrate
  minimumFpsTarget :=
    nonempty (fun text => doubleBetween host 0 1000 (some text)) (late "minimum_fps_target")
      d.minimumFpsTarget

def pyrowaveOf (d : Pyrowave) : Pyrowave where
  enabled := boolValue (o "pyrowave_enabled") d.enabled
  bitrateMbps := intBetween 0 10000 (o "pyrowave_bitrate_mbps") d.bitrateMbps
  qualityBias := intBetween 0 3 (o "pyrowave_quality_bias") d.qualityBias
  refreshInterval := intBetween 0 255 (o "pyrowave_refresh_interval") d.refreshInterval

/-- The dummy plug workaround comes last. -/
def frameLimiterOf (d : FrameLimiter) (dummyPlugHdr10 : Bool) : FrameLimiter where
  enable := boolValue (o "frame_limiter_enable") d.enable
  provider :=
    let provider := stringValue (o "frame_limiter_provider") d.provider
    if provider = "" then "auto" else provider
  fpsLimit := intBetween 0 1000 (o "frame_limiter_fps_limit") d.fpsLimit
  disableVsync := dummyPlugHdr10 ||
    boolValue (o "rtss_disable_vsync_ullm")
      (boolValue (o "frame_limiter_disable_vsync") d.disableVsync)

def rtssOf (d : Rtss) : Rtss where
  installPath := stringValue (o "rtss_install_path") d.installPath
  frameLimitType := stringValue (o "rtss_frame_limit_type") d.frameLimitType

def losslessScalingOf (d : LosslessScaling) : LosslessScaling where
  exePath := stringValue (o "lossless_scaling_path") d.exePath
  legacyAutoDetect := boolValue (o "lossless_scaling_legacy_auto_detect") d.legacyAutoDetect

def audioOf (d : Audio) : Audio where
  sink := stringValue (o "audio_sink") d.sink
  virtualSink := stringValue (o "virtual_sink") d.virtualSink
  stream := boolValue (o "stream_audio") d.stream
  installSteamDrivers := boolValue (o "install_steam_audio_drivers") d.installSteamDrivers

def sessionOf (d : Stream) : Stream :=
  let timeout := intBetween (-1) intMax (o "ping_timeout") (-1)
  { d with
    pingTimeout := if timeout = -1 then d.pingTimeout else timeout
    lanEncryptionMode := intBetween 0 2 (o "lan_encryption_mode") d.lanEncryptionMode
    wanEncryptionMode := intBetween 0 2 (o "wan_encryption_mode") d.wanEncryptionMode
    sessionMonitor := boolValue (o "session_monitor") d.sessionMonitor }

/-- What the network options say that are read before the `n`-th of the statements that may
throw. -/
def networkOf (n : ℕ) (d : Nvhttp) : Nvhttp where
  pkey := if n < 3 then d.pkey else resolvePath host (o "pkey") d.pkey
  cert := if n < 4 then d.cert else resolvePath host (o "cert") d.cert
  sunshineName :=
    if n < 4 then d.sunshineName else stringValue (o "sunshine_name") d.sunshineName
  fileState := if n < 6 then d.fileState else resolvePath host (o "file_state") d.fileState
  luminalshineFileState :=
    if n < 7 then d.luminalshineFileState
    else resolvePath host (o "luminalshine_file_state") d.luminalshineFileState
  externalIp := if n < 8 then d.externalIp else stringValue (o "external_ip") d.externalIp
  originWebUiAllowed :=
    if n < 9 then d.originWebUiAllowed
    else restrictedValue ["pc", "lan", "wan"] (o "origin_web_ui_allowed") d.originWebUiAllowed

def steamOf (d : Steam) : Steam where
  autoSync := boolValue (o "steam_auto_sync") d.autoSync
  includeFamilyShared := boolValue (o "steam_include_family_shared") d.includeFamilyShared
  nonsteamShortcutsAutoSync :=
    boolValue (o "nonsteam_shortcuts_auto_sync") d.nonsteamShortcutsAutoSync

/-- The general settings, with the path of the state file. -/
def generalOf (n : ℕ) (fileState : String) (d : Sunshine) : Sunshine :=
  { d with
    logFile := if n < 5 then d.logFile else resolvePath host (o "log_path") d.logFile
    credentialsFile :=
      if n < 7 then d.credentialsFile
      else if n < 8 then credsDefault fileState
      else resolvePath host (o "credentials_file") (credsDefault fileState)
    tpmBinding := if n < 8 then d.tpmBinding else boolValue (o "tpm_binding") d.tpmBinding
    prepCmds :=
      if n < 9 then d.prepCmds
      else nonempty (fun text x => x ++ (readPrepCmds host text).getD []) (o "global_prep_cmd")
        d.prepCmds
    updateCheckIntervalSeconds :=
      if n < 9 then d.updateCheckIntervalSeconds
      else numberValue (o "update_check_interval") d.updateCheckIntervalSeconds }

end Table

/-! ## Blocks are their lines of the table -/

section Lines
variable (host : Host) (o : Options)

/-- Statements on a part, which is put back each time. -/
theorem effect_map_on {r : Ref σ τ} (hget : ∀ x s, r.get (r.set x s) = x)
    (hset : ∀ x y s, r.set y (r.set x s) = r.set y s) (hself : ∀ s, r.set (r.get s) s = s)
    (l : List (Statement τ)) (s : σ) :
    effect o (l.map (.on r)) s = r.set (effect o l (r.get s)) s := by
  induction l generalizing s with
  | nil => exact (hself s).symm
  | cons st l ih =>
      calc effect o ((st :: l).map (.on r)) s
        _ = effect o (l.map (.on r)) (r.set (st.assign (st.option.bind o) (r.get s)) s) := rfl
        _ = _ := by rw [ih, hget, hset]; rfl

theorem effect_sw (d : Sw) : effect o applySw d = swOf o d := by
  simp only [effect, applySw, List.foldl, stringF, readInto, readAssign, compute, swOf,
    Option.bind]
  split <;> simp [*]

/-- An empty text that would change nothing need not be told apart. -/
theorem nonempty_eq {f : String → σ → σ} (hf : ∀ s, f "" s = s) (text : Option String) (s : σ) :
    nonempty f text s = f (text.getD "") s := by
  rw [nonempty]
  split
  · next hempty => rw [hempty, hf]
  · rfl

theorem effect_amd (d : Amd) : effect o applyAmd d = amdOf o d := by
  simp only [effect, applyAmd, List.foldl, readNonempty, readAssign, Option.bind]
  rw [nonempty_eq (fun _ => rfl), nonempty_eq (fun _ => rfl), nonempty_eq (fun _ => rfl)]
  rfl

theorem effect_dd (d : Dd) : effect o (applyDd host) d = ddOf host o (fun _ => none) d := by
  simp only [effect, applyDd, List.foldl, localIntBetweenF, readAssign, ddOf, Option.bind]
  by_cases hdelay : 0 ≤ intBetween 0 intMax (o "dd_config_revert_delay") (-1) <;>
    simp only [hdelay, if_true, if_false] <;> rfl

/-- The statements on encoders and displays, but for the second reader of `vt_software`. -/
theorem effect_encoders (d : Video) :
    effect o ((applyEncoders ++ applyDisplay host).eraseIdx 33) d =
      videoOf host o (fun _ => none) d := by
  have hsplit : (applyEncoders ++ applyDisplay host).eraseIdx 33 =
      applyEncoders.take 6 ++ (applySw.map (.on swRef) ++ ((applyEncoders.drop 9).take 13 ++
        (applyAmd.map (.on amdRef) ++ (applyEncoders.drop 31).eraseIdx 2 ++
          ((applyDisplay host).take 8 ++ (applyDd host).map (.on ddRef))))) := rfl
  simp only [hsplit, effect_append,
    effect_map_on o (r := swRef) (fun _ _ => rfl) (fun _ _ _ => rfl) (fun _ => rfl),
    effect_map_on o (r := amdRef) (fun _ _ => rfl) (fun _ _ _ => rfl) (fun _ => rfl),
    effect_map_on o (r := ddRef) (fun _ _ => rfl) (fun _ _ _ => rfl) (fun _ => rfl),
    effect_sw, effect_amd, effect_dd]
  rfl

theorem effect_frameLimiter (d : FrameLimiter) :
    effect o applyFrameLimiter d = frameLimiterOf o d false := by
  simp only [effect, applyFrameLimiter, List.foldl, stringF, boolF, intBetweenF, readInto,
    readAssign, compute, frameLimiterOf, Option.bind_some]
  by_cases hprovider : stringValue (o "frame_limiter_provider") d.provider = "" <;>
    simp only [hprovider, if_true, if_false, Bool.false_or]

theorem effect_session (d : Stream) : effect o applySession d = sessionOf o d := by
  simp only [effect, applySession, List.foldl, localIntBetweenF, readAssign, sessionOf,
    Option.bind]
  by_cases htimeout : intBetween (-1) intMax (o "ping_timeout") (-1) = -1 <;>
    simp only [htimeout, if_true, if_false] <;> rfl

end Lines

end LuminalShine.Config
