import LuminalShine.Config.Kept
import LuminalShine.Lib.Run

/-!
# Histories of applies

A process reads its command line, applies the config file at start-up and applies it again,
with the overrides of the running app, as often as `apply_config_now` is called.  The settings
after the last apply should be those of a fresh process with the same command line, file and
overrides.

They are when the kept settings had their defaults before it, or are set by the file or the
command line; a flag of the command line stays when the options of the map set it as well,
since the reset in `apply_config` clears the flags that `parse` has set before.

## Main definitions

* `parseArguments`, `launch` — the argument loop of `parse`.
* `setRuntimeConfigOverrides` — the overrides that may be applied.
* `Load`, `applyConfigNow`, `step` — the applies of a process.
* `Independent` — the settings do not depend on the history.
* `Restored` — the condition on the last apply.

## Main results

* `settings_independent_iff` — the settings are independent of the history exactly when the
  last apply met the condition.
-/

namespace LuminalShine.Config

open LuminalShine.Lib

/-! ## The command line -/

/-- What the argument loop of `parse` leaves behind. -/
structure CommandLine where
  flags : Flags := fun _ => false
  cmdVars : Vars := ∅
  configFile : Option String := none
  /-- The subcommand and its arguments. -/
  cmd : Option (String × List String) := none
  shortcutLaunch : Bool := false
  serviceAdminLaunch : Bool := false

/-- The argument loop of `parse`; `none` where it prints the help and returns. -/
def parseArguments (c : CommandLine) : List String → Option CommandLine
  | [] => some c
  | line :: args =>
      if line = "--help" then none
      else if line = "--shortcut" then parseArguments { c with shortcutLaunch := true } args
      else if line = "--shortcut-admin" then
        parseArguments { c with serviceAdminLaunch := true } args
      else
        match line.toList with
        | '-' :: '-' :: name => some { c with cmd := some (String.ofList name, args) }
        | '-' :: letters =>
            let (flags, known) := applyFlags (String.ofList letters) c.flags
            if known then parseArguments { c with flags := flags } args else none
        | chars =>
            if '=' ∈ chars then
              match (parseOption chars).2 with
              | none => none
              | some (name, value) =>
                  parseArguments { c with cmdVars := c.cmdVars.insert name value } args
            else parseArguments { c with configFile := some line } args

/-! ## Overrides -/

/-- `nv::normalize_split_encode_key`. -/
def normalizeSplitEncodeKey (key : String) : String :=
  if key = "nvenc_force_split_encode" then "nvenc_split_encode" else key

def isValidOverrideKey (key : String) : Bool :=
  key ≠ "" && decide (key.toList.length ≤ 128) &&
    key.toList.all fun c => c.isAlphanum || c = '_'

/-- `kAllowed` of `is_allowed_override_key`. -/
def allowedOverrideKeys : List String :=
  -- input behavior
  ["controller", "gamepad", "ds4_back_as_touchpad_click", "motion_as_ds4", "touchpad_as_ds4",
    "back_button_timeout", "gamepad_guide_button_combo", "keyboard", "key_repeat_delay",
    "key_repeat_frequency", "always_send_scancodes", "key_rightalt_to_key_win", "mouse",
    "high_resolution_scrolling", "native_pen_touch", "keybindings",
    "ds5_inputtino_randomize_mac",
    -- stream audio and video, display automation
    "audio_sink", "virtual_sink", "stream_audio", "adapter_name", "virtual_display_backend",
    "dd_configuration_option", "dd_resolution_option", "dd_manual_resolution",
    "dd_refresh_rate_option", "dd_manual_refresh_rate", "dd_hdr_option",
    "dd_hdr_request_override", "dd_config_revert_delay", "dd_config_revert_on_disconnect",
    "dd_paused_virtual_display_timeout_secs", "dd_always_restore_from_golden",
    "dd_dark_recovery_anchor", "dd_snapshot_exclude_devices", "dd_snapshot_restore_hotkey",
    "dd_snapshot_restore_hotkey_modifiers", "dd_activate_virtual_display", "dd_mode_remapping",
    "dd_wa_virtual_double_refresh", "dd_wa_dummy_plug_hdr10", "pyrowave_enabled",
    "pyrowave_bitrate_mbps", "pyrowave_quality_bias", "pyrowave_refresh_interval",
    "max_bitrate", "minimum_fps_target",
    -- codec and capture negotiation
    "fec_percentage", "video_max_batch_size_kb", "qp", "min_threads", "hevc_mode", "av1_mode",
    "prefer_10bit_sdr", "yuv444_streaming", "capture", "encoder",
    -- frame limiter behavior
    "frame_limiter_enable", "frame_limiter_provider", "frame_limiter_fps_limit",
    "rtss_frame_limit_type", "frame_limiter_disable_vsync",
    -- encoder tuning
    "nvenc_preset", "nvenc_twopass", "nvenc_spatial_aq", "nvenc_split_encode",
    "nvenc_vbv_increase", "nvenc_realtime_hags", "nvenc_latency_over_power",
    "nvenc_opengl_vulkan_on_dxgi", "nvenc_h264_cavlc", "qsv_preset", "qsv_coder",
    "qsv_slow_hevc", "amd_usage", "amd_rc", "amd_enforce_hrd", "amd_quality",
    "amd_preanalysis", "amd_vbaq", "amd_coder", "vt_coder", "vt_software", "vt_realtime",
    "vaapi_strict_rc_buffer", "sw_preset", "sw_tune"]

/-- `set_runtime_config_overrides`: the entries that stay. -/
def setRuntimeConfigOverrides (overrides : Vars) : Vars :=
  overrides.entries.foldl
    (fun filtered entry =>
      let key := normalizeSplitEncodeKey entry.1
      if isValidOverrideKey key && key ∈ allowedOverrideKeys then emplace filtered key entry.2
      else filtered) ∅

theorem mem_foldl_emplace {name : String} {entries : List (Sigma fun _ : String => String)}
    {filtered : Vars} (hfiltered : name ∈ filtered → name ∈ allowedOverrideKeys)
    (h : name ∈ entries.foldl
      (fun filtered entry =>
        let key := normalizeSplitEncodeKey entry.1
        if isValidOverrideKey key && key ∈ allowedOverrideKeys then emplace filtered key entry.2
        else filtered) filtered) : name ∈ allowedOverrideKeys := by
  induction entries generalizing filtered with
  | nil => exact hfiltered h
  | cons entry entries ih =>
      refine ih ?_ h
      intro hname
      dsimp only at hname
      split at hname
      · rename_i hkey
        unfold emplace at hname
        split at hname
        · exact hfiltered hname
        · rcases (AList.mem_insert _).mp hname with heq | hmem
          · subst heq
            simpa using (Bool.and_eq_true_iff.mp hkey).2
          · exact hfiltered hmem
      · exact hfiltered hname

/-- An override is of an allowed key. -/
theorem mem_setRuntimeConfigOverrides {overrides : Vars} {name : String}
    (h : name ∈ setRuntimeConfigOverrides overrides) : name ∈ allowedOverrideKeys := by
  refine mem_foldl_emplace ?_ h
  intro hempty
  exact absurd hempty (AList.notMem_empty name)

theorem notMem_setRuntimeConfigOverrides (overrides : Vars) {key : String}
    (hkey : key ∈ watched) : key ∉ setRuntimeConfigOverrides overrides := by
  intro hmem
  have hdisjoint : ∀ key ∈ watched, key ∉ allowedOverrideKeys := by
    decide +kernel
  exact hdisjoint key hkey (mem_setRuntimeConfigOverrides hmem)

/-! ## The process -/

/-- The process: its settings, and the options of its command line. -/
structure Process where
  settings : Settings
  /-- `command_line_overrides`. -/
  commandLineOverrides : Vars
  /-- `parse` has applied the config file. -/
  loaded : Bool

/-- The process after the argument loop of `parse`. -/
def launch (host : Host) (args : List String) : Option Process :=
  (parseArguments {} args).map fun c =>
    { settings := { Settings.initial host with flags := c.flags }
      commandLineOverrides := c.cmdVars
      loaded := false }

/-- An apply, with the content of the config file and the answers of the file system: by
`parse` at start-up, or by `apply_config_now` after the overrides of an app are set. -/
inductive Load where
  | start (content : String) (world : World)
  | now (content : String) (overrides : Vars) (world : World)

namespace Load

def content : Load → String
  | start content _ => content
  | now content _ _ => content

def overrides : Load → Vars
  | start _ _ => ∅
  | now _ overrides _ => overrides

def world : Load → World
  | start _ world => world
  | now _ _ world => world

def isStart : Load → Bool
  | start _ _ => true
  | now _ _ _ => false

/-- The options that are applied: those of the file, of the command line over them and of the
overrides over both. -/
def vars (commandLineOverrides : Vars) : Load → Vars
  | start content _ => insertOrAssignAll (parseConfig content) commandLineOverrides
  | now content overrides _ =>
      insertOrAssignAll (insertOrAssignAll (parseConfig content) commandLineOverrides)
        (setRuntimeConfigOverrides overrides)

/-- The same options applied once more. -/
def again (load : Load) (world : World) : Load := now load.content load.overrides world

theorem vars_again (load : Load) (world : World) (cmd : Vars) :
    (load.again world).vars cmd = load.vars cmd := by
  cases load <;> rfl

/-- Overrides have no watched option. -/
theorem lookup_vars (load : Load) (cmd : Vars) {key : String} (hkey : key ∈ watched) :
    (load.vars cmd).lookup key =
      (insertOrAssignAll (parseConfig load.content) cmd).lookup key := by
  cases load with
  | start content world => rfl
  | now content overrides world =>
      exact lookup_insertOrAssignAll (notMem_setRuntimeConfigOverrides overrides hkey)

end Load

/-- An apply, and the exception it ends with.  `apply_config_now` logs it and goes on with the
settings as they are. -/
def apply (host : Host) (p : Process) (load : Load) : Process × Option ApplyError :=
  match applyConfig host load.world (load.vars p.commandLineOverrides, p.settings) with
  | .ok _ s => ({ p with settings := s.2, loaded := true }, none)
  | .error e s => ({ p with settings := s.2 }, some e)

/-- The applies that end without an exception: one by `parse`, then those by
`apply_config_now`. -/
def step (host : Host) (p : Process) (load : Load) : Option Process :=
  if p.loaded = load.isStart then none
  else
    match apply host p load with
    | (p', none) => some p'
    | (_, some _) => none

theorem step_eq_some {host : Host} {p p' : Process} {load : Load}
    (h : step host p load = some p') :
    p'.commandLineOverrides = p.commandLineOverrides ∧
      ∃ x, applyConfig host load.world (load.vars p.commandLineOverrides, p.settings) =
        .ok ⟨⟩ x ∧ p'.settings = x.2 := by
  unfold step at h
  split at h
  · cases h
  unfold apply at h
  generalize happly :
    applyConfig host load.world (load.vars p.commandLineOverrides, p.settings) = result at h
  cases result with
  | ok a x =>
      cases h
      exact ⟨rfl, x, rfl, rfl⟩
  | error e x => cases h

/-! ## Independence -/

/-- The settings after the last apply do not depend on what was applied before. -/
structure Independent (host : Host) (start : Process) (last : Load) (after fresh : Process) :
    Prop where
  /-- They are those of a fresh start with the same inputs. -/
  asFresh : after.settings = fresh.settings
  /-- Applying the same inputs again changes nothing. -/
  again : ∀ world p, step host after (last.again world) = some p → p.settings = after.settings
  /-- A setting whose option is gone has its default. -/
  removed : ∀ k : Kept, k.key ∉ last.vars start.commandLineOverrides →
    k.value after.settings = k.kind.settle host (k.value (Settings.initial host))
  /-- A flag of the command line is in effect. -/
  flags : ∀ flag, start.settings.flags flag = true → after.settings.flags flag = true

/-- The condition on the last apply: a network or Steam setting that neither the file nor the
command line gives an accepted text had its default before, and the options flip every flag of
the command line themselves. -/
structure Restored (host : Host) (start before : Process) (last : Load) : Prop where
  kept : ∀ k : Kept,
    k.kind.accepts ((last.vars start.commandLineOverrides).lookup k.key) = true ∨
      k.kind.settle host (k.value before.settings) =
        k.kind.settle host (k.value (Settings.initial host))
  flags : ∀ flag, start.settings.flags flag = true →
    flips (last.vars start.commandLineOverrides) flag % 2 = 1

section Runs

variable {host : Host} {start before after fresh : Process} {last : Load}

theorem run_commandLineOverrides {history : List Load}
    (h : run (step host) start history = some before) :
    before.commandLineOverrides = start.commandLineOverrides :=
  run_invariant (P := fun p => p.commandLineOverrides = start.commandLineOverrides)
    (fun _ _ _ hp hstep => (step_eq_some hstep).1.trans hp) rfl h

theorem launch_value {args : List String} (h : launch host args = some start) (k : Kept) :
    k.value start.settings = k.value (Settings.initial host) := by
  obtain ⟨c, -, rfl⟩ := Option.map_eq_some_iff.mp h
  cases k <;> rfl

theorem step_value {p p' : Process} {load : Load} (h : step host p load = some p') (k : Kept) :
    k.value p'.settings = k.kind.read host
      ((load.vars p.commandLineOverrides).lookup k.key) (k.value p.settings) := by
  obtain ⟨-, x, happly, hsettings⟩ := step_eq_some h
  rw [hsettings]
  exact applyConfig_value happly k

theorem step_flags {p p' : Process} {load : Load} (h : step host p load = some p') :
    p'.settings.flags = mapFlags (load.vars p.commandLineOverrides) := by
  obtain ⟨-, x, happly, hsettings⟩ := step_eq_some h
  rw [hsettings]
  exact applyConfig_flags happly

/-- Two applies of the same options that read the kept settings alike agree. -/
theorem step_settings_eq {p p' q q' : Process} {load load' : Load}
    (hp : step host p load = some p') (hq : step host q load' = some q')
    (hvars : load.vars p.commandLineOverrides = load'.vars q.commandLineOverrides)
    (hread : ∀ k : Kept,
      k.kind.read host ((load.vars p.commandLineOverrides).lookup k.key) (k.value p.settings) =
        k.kind.read host ((load.vars p.commandLineOverrides).lookup k.key)
          (k.value q.settings)) :
    p'.settings = q'.settings := by
  obtain ⟨-, x, hx, hpx⟩ := step_eq_some hp
  obtain ⟨-, y, hy, hqy⟩ := step_eq_some hq
  rw [← hvars] at hy
  rw [hpx, hqy]
  exact applyConfig_eq hx hy hread

/-- After start-up a kept setting is its option read over the default. -/
theorem start_value {args : List String} {world : World} {p : Process}
    (hlaunch : launch host args = some start)
    (hstart : step host start (.start last.content world) = some p) (k : Kept) :
    k.value p.settings = k.kind.read host
      ((last.vars start.commandLineOverrides).lookup k.key) (k.value (Settings.initial host)) := by
  have hlookup : ((Load.start last.content world).vars start.commandLineOverrides).lookup k.key =
      (last.vars start.commandLineOverrides).lookup k.key := by
    rw [last.lookup_vars _ k.key_mem_watched]
    rfl
  rw [step_value hstart k, hlookup, launch_value hlaunch k]

/-- The applies of a fresh process. -/
theorem fresh_steps {w₀ w₁ : World}
    (hfresh : run (step host) start [.start last.content w₀, last.again w₁] = some fresh) :
    ∃ p, step host start (.start last.content w₀) = some p ∧
      step host p (last.again w₁) = some fresh := by
  obtain ⟨p, hstart, hrest⟩ := run_cons_eq_some.mp hfresh
  obtain ⟨q, hagain, hnil⟩ := run_cons_eq_some.mp hrest
  rw [run_nil, Option.some.injEq] at hnil
  exact ⟨p, hstart, hnil ▸ hagain⟩

/-- Applying the same inputs again changes nothing. -/
theorem step_again {world : World} {p : Process} (hlast : step host before last = some after)
    (hagain : step host after (last.again world) = some p) : p.settings = after.settings := by
  have hcmd := (step_eq_some hlast).1
  refine (step_settings_eq hlast hagain ?_ ?_).symm
  · rw [hcmd, last.vars_again]
  · intro k
    rw [step_value hlast k, Kind.read_read]

/-- **History independence.**  For every command line and every history of applies, the
settings after the last one are those of a fresh start with the same inputs exactly when the
last apply restored what the reset keeps. -/
theorem settings_independent_iff {args : List String} {history : List Load} {w₀ w₁ : World}
    (hlaunch : launch host args = some start)
    (hhistory : run (step host) start history = some before)
    (hlast : step host before last = some after)
    (hfresh : run (step host) start [.start last.content w₀, last.again w₁] = some fresh) :
    Independent host start last after fresh ↔ Restored host start before last := by
  have hcmd := run_commandLineOverrides hhistory
  obtain ⟨p, hstart, hagain⟩ := fresh_steps hfresh
  have hcmd' := (step_eq_some hstart).1
  have hafter : ∀ k : Kept, k.value after.settings = k.kind.read host
      ((last.vars start.commandLineOverrides).lookup k.key) (k.value before.settings) := by
    intro k
    rw [step_value hlast k, hcmd]
  have hflags : ∀ flag, after.settings.flags flag =
      decide (flips (last.vars start.commandLineOverrides) flag % 2 = 1) := by
    intro flag
    rw [step_flags hlast, hcmd, mapFlags_apply]
  constructor
  · intro h
    refine ⟨fun k => ?_, fun flag hflag => ?_⟩
    · have hvalue : k.value after.settings = k.value fresh.settings := by rw [h.asFresh]
      rw [hafter, step_value hagain k, hcmd', last.vars_again, start_value hlaunch hstart k,
        Kind.read_read] at hvalue
      exact (Kind.read_eq_read_iff host _ _ _ _).mp hvalue
    · have hset := h.flags flag hflag
      rwa [hflags, decide_eq_true_eq] at hset
  · intro h
    have hread := fun k : Kept => (Kind.read_eq_read_iff host k.kind _ _ _).mpr (h.kept k)
    refine ⟨?_, fun world q hq => step_again hlast hq, ?_, ?_⟩
    · refine step_settings_eq hlast hagain ?_ ?_
      · rw [hcmd, hcmd', last.vars_again]
      · intro k
        rw [hcmd, start_value hlaunch hstart k, Kind.read_read]
        exact hread k
    · intro k hk
      have hnone := AList.lookup_eq_none.mpr hk
      have hrefused : k.kind.accepts none = false := by cases k <;> rfl
      rw [hafter, hread, hnone, Kind.read, hrefused]
      rfl
    · intro flag hflag
      rw [hflags, h.flags flag hflag]
      rfl

end Runs

/-! ### Two histories -/

/-- A file system on which everything can be created. -/
def exampleWorld : World := ⟨fun _ => true, fun _ => true⟩

/-- The file opens the web interface to the internet. -/
def openedFile : Load := .start "origin_web_ui_allowed = wan\n" exampleWorld

/-- The file says `lan` again, and asks for port mapping as the command line does. -/
def closedFile : Load :=
  .now "origin_web_ui_allowed = lan\nupnp = on\n" ((∅ : Vars).insert "qp" "20") exampleWorld

/-- The option is removed from the file. -/
def emptiedFile : Load := .now "# nothing\n" ∅ exampleWorld

/-- The process that was started with `-p`. -/
def exampleStart : Process where
  settings := { Settings.initial exampleHost with flags := (applyFlags "p" fun _ => false).1 }
  commandLineOverrides := ∅
  loaded := false

theorem openedFile_vars :
    openedFile.vars ∅ = (∅ : Vars).insert "origin_web_ui_allowed" "wan" := by
  apply AList.ext
  rfl

theorem closedFile_vars :
    closedFile.vars ∅ =
      (((∅ : Vars).insert "origin_web_ui_allowed" "lan").insert "upnp" "on").insert "qp" "20" := by
  apply AList.ext
  decide +kernel

/-- The first file sets one kept setting, which the second sets again. -/
theorem restored_closedFile {before : Process}
    (hbefore : step exampleHost exampleStart openedFile = some before) :
    Restored exampleHost exampleStart before closedFile := by
  have hcmd : exampleStart.commandLineOverrides = ∅ := rfl
  refine ⟨?_, ?_⟩
  · intro k
    rw [hcmd, closedFile_vars]
    by_cases hk : k = .originWebUiAllowed
    · subst hk
      exact .inl (by decide)
    · have hunset : (openedFile.vars ∅).lookup k.key = none := by
        have hkey : k.key ≠ "origin_web_ui_allowed" :=
          fun h => hk (Kept.key_injective (k := .originWebUiAllowed) h)
        rw [openedFile_vars, AList.lookup_insert_ne hkey]
        rfl
      have hrefused : k.kind.accepts none = false := by cases k <;> rfl
      have hvalue := step_value hbefore k
      rw [hcmd, hunset, Kind.read, hrefused] at hvalue
      rw [hvalue]
      exact .inr (Kind.settle_settle exampleHost k.kind _)
  · intro flag hflag
    rw [hcmd, closedFile_vars]
    cases flag <;> first | decide | exact absurd hflag (by decide)

theorem settings_independent_iff_closedFile :
    ∃ before after fresh, run (step exampleHost) exampleStart [openedFile] = some before ∧
      step exampleHost before closedFile = some after ∧
      run (step exampleHost) exampleStart
        [.start closedFile.content exampleWorld, closedFile.again exampleWorld] = some fresh ∧
      Independent exampleHost exampleStart closedFile after fresh := by
  have hcheck : (step exampleHost exampleStart openedFile).any (fun before =>
      (step exampleHost before closedFile).isSome) = true := by
    decide +kernel
  have hfresh : (run (step exampleHost) exampleStart
      [.start closedFile.content exampleWorld, closedFile.again exampleWorld]).isSome = true := by
    decide +kernel
  obtain ⟨before, hbefore, hlast⟩ := (Option.any_eq_true _ _).mp hcheck
  obtain ⟨after, hafter⟩ := Option.isSome_iff_exists.mp hlast
  obtain ⟨fresh, hfresh⟩ := Option.isSome_iff_exists.mp hfresh
  have hrun : run (step exampleHost) exampleStart [openedFile] = some before := by
    rw [run_cons, hbefore]
    rfl
  have hlaunch : launch exampleHost ["-p"] = some exampleStart := rfl
  exact ⟨before, after, fresh, hrun, hafter, hfresh,
    (settings_independent_iff hlaunch hrun hafter hfresh).mpr (restored_closedFile hbefore)⟩

/-- With the option gone the interface stays open, and the flag of the command line is lost. -/
theorem removed_option_stays :
    ∃ start before after fresh, launch exampleHost ["-p"] = some start ∧
      run (step exampleHost) start [openedFile] = some before ∧
      step exampleHost before emptiedFile = some after ∧
      run (step exampleHost) start
        [.start emptiedFile.content exampleWorld, emptiedFile.again exampleWorld] = some fresh ∧
      after.settings.nvhttp.originWebUiAllowed = "wan" ∧
      fresh.settings.nvhttp.originWebUiAllowed = "lan" ∧
      start.settings.flags .upnp = true ∧ after.settings.flags .upnp = false ∧
      ¬ Independent exampleHost start emptiedFile after fresh := by
  have hcheck : (launch exampleHost ["-p"]).any (fun start =>
      (run (step exampleHost) start [openedFile]).any (fun before =>
        (step exampleHost before emptiedFile).any fun after =>
          decide (after.settings.nvhttp.originWebUiAllowed = "wan" ∧
            start.settings.flags .upnp = true ∧ after.settings.flags .upnp = false)) &&
      (run (step exampleHost) start
        [.start emptiedFile.content exampleWorld, emptiedFile.again exampleWorld]).any fun fresh =>
          decide (fresh.settings.nvhttp.originWebUiAllowed = "lan")) = true := by
    decide +kernel
  obtain ⟨start, hlaunch, hstart⟩ := (Option.any_eq_true _ _).mp hcheck
  obtain ⟨hhistory, hfresh⟩ := Bool.and_eq_true_iff.mp hstart
  obtain ⟨before, hbefore, hlast⟩ := (Option.any_eq_true _ _).mp hhistory
  obtain ⟨after, hafter, hsettings⟩ := (Option.any_eq_true _ _).mp hlast
  obtain ⟨fresh, hfresh, horigin⟩ := (Option.any_eq_true _ _).mp hfresh
  obtain ⟨hwan, hgiven, hlost⟩ := of_decide_eq_true hsettings
  refine ⟨start, before, after, fresh, hlaunch, hbefore, hafter, hfresh, hwan,
    of_decide_eq_true horigin, hgiven, hlost, ?_⟩
  intro h
  have hset := h.flags .upnp hgiven
  rw [hlost] at hset
  cases hset

end LuminalShine.Config
