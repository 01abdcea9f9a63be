import LuminalShine.Config.Table

/-!
# What an apply leaves

`apply_config` resets the settings and assigns them one by one.  Eleven of its statements may
raise, and what it has assigned up to the one that does stands in the table; when none does, the
settings are a function of the options and of what the network and Steam settings were.

## Main definitions

* `Risk` — the statements that may raise, and when they do.
* `asked` — the settings that the options, the defaults and the old network and Steam settings ask
  for, as far as they have been read.
* `final` — the settings that all options ask for.
* `Does` — what a command on a map that still has its options does.

## Main results

* `outcome_applyConfig` — what an apply leaves, whether it raises or not.
-/

namespace LuminalShine.Config

open LuminalShine.Lib

variable {σ τ : Type} {o : Options}

/-! ## The statements that may raise -/

/-- The settings that `path_f` reads. -/
inductive PathSetting where
  | pkey
  | cert
  | logFile
  | fileState
  | luminalshineFileState
  | credentialsFile
  | fileApps
  deriving DecidableEq, Repr

namespace PathSetting

def name : PathSetting → String
  | pkey => "pkey"
  | cert => "cert"
  | logFile => "log_path"
  | fileState => "file_state"
  | luminalshineFileState => "luminalshine_file_state"
  | credentialsFile => "credentials_file"
  | fileApps => "file_apps"

/-- What the setting is before it is read. -/
def before (host : Host) (o : Options) (old : Settings) : PathSetting → String
  | pkey => old.nvhttp.pkey
  | cert => old.nvhttp.cert
  | logFile => (Settings.initial host).sunshine.logFile
  | fileState => old.nvhttp.fileState
  | luminalshineFileState => old.nvhttp.luminalshineFileState
  | credentialsFile => credsDefault (resolvePath host (o "file_state") old.nvhttp.fileState)
  | fileApps => (Settings.initial host).stream.fileApps

end PathSetting

/-- The statements of `apply_config` that may raise: `apps` stands behind the reset and `newApps`
behind the reading of `file_apps`. -/
inductive Risk where
  | apps
  | modeRemapping
  | path (setting : PathSetting)
  | globalPrepCmd
  | newApps
  deriving DecidableEq, Repr

/-- The text is refused. -/
def refused {ν : Type} (parse : String → Option ν) (text : Option String) : Bool :=
  text.getD "" ≠ "" && (parse (text.getD "")).isNone

/-- The setting or the text is not a path, or its directory is not there. -/
def refusedPath (host : Host) (world : World) (text : Option String) (input : String) : Bool :=
  !host.isPath input || text.getD "" ≠ "" && !host.isPath (text.getD "") ||
    !world.directoryReady (pathDirectory host text input)

namespace Risk

/-- When the statement raises. -/
def raises (host : Host) (world : World) (o : Options) (old : Settings) : Risk → Bool
  | apps => !world.appsReady (Settings.initial host).stream.fileApps
  | modeRemapping => refused (modeRemappingFromView host) (o "dd_mode_remapping")
  | path setting =>
      refusedPath host world (o setting.name) (setting.before host o old)
  | globalPrepCmd => refused (readPrepCmds host) (o "global_prep_cmd")
  | newApps =>
      !world.appsReady (resolvePath host (o "file_apps") (Settings.initial host).stream.fileApps)

/-- In the order of the source. -/
def all : List Risk :=
  [apps, modeRemapping, path .pkey, path .cert, path .logFile, path .fileState,
    path .luminalshineFileState, path .credentialsFile, globalPrepCmd, path .fileApps, newApps]

end Risk

/-! ## What is asked for -/

/-- The settings that the options ask for which are read before the `n`-th of the risks: over the
defaults, and those of `nvhttp` and `steam` over what they were. -/
def asked (host : Host) (o : Options) (old : Settings) (n : ℕ) : Settings :=
  let d := Settings.initial host
  let network := networkOf host o n old.nvhttp
  { video :=
      if n < 1 then d.video else videoOf host o (if n < 2 then fun _ => none else o) d.video
    pyrowave := if n < 2 then d.pyrowave else pyrowaveOf o d.pyrowave
    audio := if n < 9 then d.audio else audioOf o d.audio
    stream :=
      { (if n < 9 then d.stream else sessionOf o d.stream) with
        fileApps :=
          if n < 10 then d.stream.fileApps
          else resolvePath host (o "file_apps") d.stream.fileApps }
    nvhttp := network
    input := d.input
    frameLimiter :=
      if n < 2 then d.frameLimiter
      else frameLimiterOf o d.frameLimiter
        (boolValue (o "dd_wa_dummy_plug_hdr10") d.video.dd.wa.dummyPlugHdr10)
    rtss := if n < 2 then d.rtss else rtssOf o d.rtss
    losslessScaling := if n < 2 then d.losslessScaling else losslessScalingOf o d.losslessScaling
    steam := if n < 8 then old.steam else steamOf o old.steam
    sunshine := generalOf host o n network.fileState d.sunshine
    flags := fun _ => false }

/-- The settings that all options ask for. -/
def final (host : Host) (o : Options) (old : Settings) : Settings :=
  let s := asked host o old 11
  { s with
    stream := effect o applyBatches s.stream
    input := effect o (applyInput host) s.input
    sunshine := effect o applyTokenTtl (effect o applyPlaynite (effect o applyLanguage
      (effect o applyGeneral s.sunshine)))
    flags := letterFlags (o "flags") (upnpFlags (o "upnp") fun _ => false) }

/-- The settings at the end, and whether one of the risks, counted from `n`, has raised. -/
def ended (host : Host) (world : World) (o : Options) (old : Settings) :
    ℕ → List Risk → Settings × Bool
  | _, [] => (final host o old, false)
  | n, risk :: risks =>
      if risk.raises host world o old = true then (asked host o old n, true)
      else ended host world o old (n + 1) risks

/-- When nothing raises, the settings are those that all options ask for. -/
theorem eq_final_of_ended {host : Host} {world : World} {old t : Settings} {n : ℕ}
    {risks : List Risk} (h : ended host world o old n risks = (t, false)) :
    t = final host o old := by
  induction risks generalizing n with
  | nil => exact (congrArg Prod.fst h).symm
  | cons risk risks ih =>
      rw [ended] at h
      split at h
      · cases congrArg Prod.snd h
      · exact ih h

/-- The options, with the old name of `nvenc_split_encode`. -/
def aliased (o : Options) : Options := fun name =>
  match o "nvenc_force_split_encode" with
  | none => o name
  | some legacy =>
      if name = "nvenc_force_split_encode" then none
      else if name = "nvenc_split_encode" then some ((o name).getD legacy)
      else o name

theorem aliased_of_ne {name : String} (hnew : name ≠ "nvenc_split_encode")
    (hold : name ≠ "nvenc_force_split_encode") : aliased o name = o name := by
  rw [aliased]
  cases o "nvenc_force_split_encode" <;> simp [hnew, hold]

/-! ## What the commands do -/

/-- The command takes the options `names` out of a map that still has them and does `f`, or it
raises where `raises` tells and leaves the settings. -/
def Does (o : Options) (names : List String) (raises : σ → Bool) (f : σ → σ) (m : Apply σ Unit) :
    Prop :=
  ∀ rest vars s, Waiting o (names ++ rest) vars →
    if raises s = true then ∃ e vars', m (vars, s) = .error e (vars', s)
    else ∃ vars', m (vars, s) = .ok ⟨⟩ (vars', f s) ∧ Waiting o rest vars'

/-- A command that does not raise. -/
abbrev Plain (o : Options) (names : List String) (f : σ → σ) (m : Apply σ Unit) : Prop :=
  Does o names (fun _ => false) f m

theorem does_block (statements : List (Statement σ)) :
    Plain o (optionsOf statements) (effect o statements) (block statements) :=
  fun _ _ _ h => block_waiting h

theorem Does.on {names : List String} {raises : τ → Bool} {f : τ → τ} {m : Apply τ Unit}
    (h : Does o names raises f m) (r : Ref σ τ) (hself : ∀ s, r.set (r.get s) s = s) :
    Does o names (fun s => raises (r.get s)) (fun s => r.set (f (r.get s)) s) (Lib.on r m) := by
  intro rest vars s hwait
  have hdo := h rest vars (r.get s) hwait
  split at hdo
  · next hraise =>
    obtain ⟨e, vars', he⟩ := hdo
    rw [if_pos hraise]
    exact ⟨e, vars', by simp only [Lib.on, he, hself]⟩
  · next hquiet =>
    obtain ⟨vars', hok, hwait'⟩ := hdo
    rw [if_neg hquiet]
    exact ⟨vars', by simp only [Lib.on, hok], hwait'⟩

theorem does_pathF (host : Host) (world : World) (name : String) (input : Ref σ String) :
    Does o [name] (fun s => refusedPath host world (o name) (input.get s))
      (fun s => input.set (resolvePath host (o name) (input.get s)) s)
      (pathF host world name input) := by
  intro rest vars s hwait
  have hlookup : vars.lookup name = o name := hwait.2 name List.mem_cons_self
  simp only [pathF, readKey, hlookup, refusedPath]
  by_cases hinput : host.isPath (input.get s) = true
  · by_cases htext : (o name).getD "" = "" ∨ host.isPath ((o name).getD "") = true
    · have his : ¬ (o name).getD "" = "" → host.isPath ((o name).getD "") = true :=
        htext.resolve_left
      cases hdir : world.directoryReady (pathDirectory host (o name) (input.get s)) with
      | true => simpa [hinput, htext, hdir] using ⟨his, hwait.erase⟩
      | false => simp [hinput, htext]
    · obtain ⟨hempty, his⟩ := not_or.mp htext
      simp [hinput, hempty, his]
  · simp [hinput]

theorem does_parseF {ν : Type} {name : String} {parse : String → Option ν} {f : ν → σ → σ}
    {g : Option String → σ → σ} (hempty : ∀ text s, text.getD "" = "" → g text s = s)
    (hsome : ∀ text x s, text.getD "" ≠ "" → parse (text.getD "") = some x → g text s = f x s) :
    Does o [name] (fun _ => refused parse (o name)) (g (o name)) (parseF name parse f) := by
  intro rest vars s hwait
  have hlookup : vars.lookup name = o name := hwait.2 name List.mem_cons_self
  simp only [parseF, readKey, hlookup, refused]
  by_cases htext : (o name).getD "" = ""
  · simpa [htext, hempty _ s htext] using hwait.erase
  · cases hparse : parse ((o name).getD "") with
    | none => simp [htext]
    | some x => simpa [htext, hsome _ x s htext hparse] using hwait.erase

theorem does_modeRemappingF (host : Host) (name : String) (input : Ref σ ModeRemapping)
    (hself : ∀ s, input.set (input.get s) s = s) :
    Does o [name] (fun _ => refused (modeRemappingFromView host) (o name))
      (fun s => input.set (nonempty (fun text x => (modeRemappingFromView host text).getD x)
        (o name) (input.get s)) s)
      (modeRemappingF host name input) := by
  refine does_parseF (g := fun text s => input.set (nonempty
    (fun text x => (modeRemappingFromView host text).getD x) text (input.get s)) s) ?_ ?_
  · intro text s htext
    simp [nonempty, htext, hself]
  · intro text x s htext hparse
    simp [nonempty, htext, hparse]

theorem does_listPrepCmdF (host : Host) (name : String) (input : Ref σ (List PrepCmd))
    (hself : ∀ s, input.set (input.get s) s = s) :
    Does o [name] (fun _ => refused (readPrepCmds host) (o name))
      (fun s => input.set (nonempty (fun text x => x ++ (readPrepCmds host text).getD [])
        (o name) (input.get s)) s)
      (listPrepCmdF host name input) := by
  refine does_parseF (g := fun text s => input.set (nonempty
    (fun text x => x ++ (readPrepCmds host text).getD []) text (input.get s)) s) ?_ ?_
  · intro text s htext
    simp [nonempty, htext, hself]
  · intro text x s htext hparse
    simp [nonempty, htext, hparse]

/-- The second reader of `vt_software` does nothing. -/
theorem does_encoders (host : Host) :
    Plain o (optionsOf ((applyEncoders ++ applyDisplay host).eraseIdx 33))
      (videoOf host o fun _ => none) (block (applyEncoders ++ applyDisplay host)) := by
  intro rest vars s hwait
  have htake : (applyEncoders ++ applyDisplay host).eraseIdx 33 =
      applyEncoders.take 33 ++ (applyEncoders.drop 34 ++ applyDisplay host) := rfl
  have hrun := block_waiting_again (.on vtRef (genericF "vt_software"
    ⟨(·.vtRequireSw), fun x s => { s with vtRequireSw := x }⟩ forceSoftwareFromView))
    (s := s) (htake ▸ hwait) rfl (by decide) fun _ => rfl
  rw [← htake, effect_encoders] at hrun
  exact hrun

/-! ## Commands one after the other -/

/-- The settings that a command leaves, and whether it has raised. -/
def outcome (m : Apply σ Unit) (x : Vars × σ) : σ × Bool :=
  ((ending m x).1.2, (ending m x).2)

section Sequence
variable {names rest : List String} {f : σ → σ} {m k : Apply σ Unit} {vars : Vars} {s : σ}
  {R : σ × Bool}

theorem outcome_bind_ok {x t : Vars × σ} (h : m x = .ok ⟨⟩ t) :
    outcome (m >>= fun _ => k) x = outcome k t := by
  rw [outcome, ending_bind_ok h, outcome]

theorem outcome_bind_error {x t : Vars × σ} {e : ApplyError} (h : m x = .error e t) :
    outcome (m >>= fun _ => k) x = (t.2, true) := by
  rw [outcome, ending_bind_error h]

/-- At a command that may raise: what has been assigned before it stays. -/
theorem outcome_risk {raises : σ → Bool} (hm : Does o names raises f m)
    (hwait : Waiting o (names ++ rest) vars)
    (hk : ∀ vars', Waiting o rest vars' → outcome k (vars', f s) = R) :
    outcome (m >>= fun _ => k) (vars, s) = if raises s = true then (s, true) else R := by
  have hdo := hm rest vars s hwait
  split at hdo
  · next hraise =>
    obtain ⟨e, vars', he⟩ := hdo
    rw [if_pos hraise, outcome_bind_error he]
  · next hquiet =>
    obtain ⟨vars', hok, hwait'⟩ := hdo
    rw [if_neg hquiet, outcome_bind_ok hok]
    exact hk vars' hwait'

/-- Behind a command that does not raise. -/
theorem outcome_plain (hm : Plain o names f m) (hwait : Waiting o (names ++ rest) vars)
    (hk : ∀ vars', Waiting o rest vars' → outcome k (vars', f s) = R) :
    outcome (m >>= fun _ => k) (vars, s) = R := by
  simpa using outcome_risk hm hwait hk

theorem outcome_last (hm : Plain o names f m) (hwait : Waiting o (names ++ rest) vars) :
    outcome m (vars, s) = (f s, false) := by
  obtain ⟨vars', hok, -⟩ := hm rest vars s hwait
  simp only [outcome, ending, hok]

theorem outcome_compute {f : σ → σ} :
    outcome (block [compute f] >>= fun _ => k) (vars, s) = outcome k (vars, f s) :=
  outcome_bind_ok rfl

theorem outcome_require {path : σ → String} {ready : String → Bool}
    (hk : outcome k (vars, s) = R) :
    outcome (require path ready >>= fun _ => k) (vars, s) =
      if (!ready (path s)) = true then (s, true) else R := by
  cases hready : ready (path s) with
  | true =>
      rw [outcome_bind_ok (t := (vars, s)) (by simp [require, hready])]
      simpa using hk
  | false =>
      rw [outcome_bind_error (t := (vars, s)) (e := .filesystem (path s))
        (by simp [require, hready])]
      simp

end Sequence

/-! ## The options -/

/-- The options in the order they are read. -/
def pending (host : Host) : List String :=
  optionsOf ((applyEncoders ++ applyDisplay host).eraseIdx 33) ++ (["dd_mode_remapping"] ++
    (optionsOf applyWorkarounds ++ (optionsOf applyPyrowave ++
    (["max_bitrate", "minimum_fps_target"] ++ (optionsOf applyFrameLimiter ++
    (optionsOf applyRtss ++ (optionsOf applyLosslessScaling ++ (["pkey"] ++ (["cert"] ++
    (["sunshine_name"] ++ (["log_path"] ++ (["file_state"] ++ (["luminalshine_file_state"] ++
    (["credentials_file"] ++ (["tpm_binding"] ++ (["steam_auto_sync"] ++
    (["steam_include_family_shared"] ++ (["nonsteam_shortcuts_auto_sync"] ++ (["external_ip"] ++
    (["global_prep_cmd"] ++ (["update_check_interval"] ++ (optionsOf applyAudio ++
    (["origin_web_ui_allowed"] ++ (optionsOf applySession ++ (["file_apps"] ++
    (optionsOf applyBatches ++ (optionsOf (applyInput host) ++ (optionsOf applyGeneral ++
    (["upnp"] ++ (optionsOf applyLanguage ++ (optionsOf applyPlaynite ++ (["flags"] ++
    (optionsOf applyTokenTtl ++ [])))))))))))))))))))))))))))))))))

/-- A host on which no number and no JSON text is read. -/
def exampleHost : Host where
  appdata := "C:\\ProgramData\\LuminalShine\\config"
  logDir := "C:\\ProgramData\\LuminalShine\\logs"
  hostName := "den"
  prerelease := false
  strtod := fun _ => none
  readJson := fun _ => none
  parseJson := fun _ => none
  isPath := fun _ => true
  appdata_absolute := by decide

theorem optionsOf_append (l l' : List (Statement σ)) :
    optionsOf (l ++ l') = optionsOf l ++ optionsOf l' := List.filterMap_append

theorem optionsOf_map_on (r : Ref σ τ) (l : List (Statement τ)) :
    optionsOf (l.map (.on r)) = optionsOf l := List.filterMap_map

theorem optionsOf_dd (host : Host) :
    optionsOf (applyDd host) = optionsOf (applyDd exampleHost) := by
  simp only [optionsOf, applyDd, List.filterMap_cons, genericF, readInto, readAssign]

theorem optionsOf_input (host : Host) :
    optionsOf (applyInput host) = optionsOf (applyInput exampleHost) := by
  simp only [optionsOf, applyInput, List.filterMap_cons, mapIntIntF, readInto, readNonempty,
    readAssign]

theorem optionsOf_encoders (host : Host) :
    optionsOf ((applyEncoders ++ applyDisplay host).eraseIdx 33) =
      optionsOf ((applyEncoders ++ applyDisplay exampleHost).eraseIdx 33) := by
  have hsplit (host : Host) : (applyEncoders ++ applyDisplay host).eraseIdx 33 =
      applyEncoders.eraseIdx 33 ++
        ((applyDisplay host).take 8 ++ (applyDd host).map (.on ddRef)) := rfl
  simp only [hsplit, optionsOf_append, optionsOf_map_on, optionsOf_dd host]
  rfl

theorem nodup_pending (host : Host) : (pending host).Nodup := by
  rw [pending, optionsOf_encoders, optionsOf_input]
  -- numbers are compared faster than texts
  exact List.Nodup.of_map
    (fun name => name.toByteArray.data.toList.foldl (fun n c => 256 * n + c.toNat) 0)
    (by decide +kernel)

theorem waiting_aliased (host : Host) (vars : Vars) :
    Waiting (aliased vars.lookup) (pending host) (normalizeSplitEncodeAlias vars) := by
  refine ⟨nodup_pending host, fun name _ => ?_⟩
  simp only [normalizeSplitEncodeAlias, aliased]
  cases vars.lookup "nvenc_force_split_encode" with
  | none => rfl
  | some legacy =>
      dsimp only
      by_cases hname : name = "nvenc_force_split_encode"
      · subst hname
        simp [AList.lookup_erase]
      · rw [AList.lookup_erase_ne hname, lookup_emplace, if_neg hname]
        by_cases hnew : name = "nvenc_split_encode"
        · subst hnew
          cases vars.lookup "nvenc_split_encode" <;> rfl
        · simp [hnew]

/-! ## The whole apply -/

section Run
variable {host : Host} {world : World} {old : Settings} {n : ℕ} {risk : Risk} {risks : List Risk}

/-- At a statement that may raise, with what is asked for before it. -/
theorem outcome_asked {names rest : List String} {f : Settings → Settings}
    {m k : Apply Settings Unit} {vars : Vars} {s : Settings} {raises : Settings → Bool}
    (hm : Does o names raises f m) (hwait : Waiting o (names ++ rest) vars)
    (hstate : s = asked host o old n)
    (hraises : raises (asked host o old n) = risk.raises host world o old)
    (hk : ∀ vars', Waiting o rest vars' →
      outcome k (vars', f (asked host o old n)) = ended host world o old (n + 1) risks) :
    outcome (m >>= fun _ => k) (vars, s) = ended host world o old n (risk :: risks) := by
  subst hstate
  rw [ended, ← hraises]
  exact outcome_risk hm hwait hk

theorem dummyPlugWorkaround_eq {s : Settings} {d : FrameLimiter}
    (h : s.frameLimiter = frameLimiterOf o d false) :
    dummyPlugWorkaround s =
      { s with frameLimiter := frameLimiterOf o d s.video.dd.wa.dummyPlugHdr10 } := by
  rw [dummyPlugWorkaround]
  cases s.video.dd.wa.dummyPlugHdr10 with
  | false =>
      simp only [Bool.false_eq_true, if_false]
      rw [← h]
  | true =>
      simp only [if_true]
      rw [h]
      rfl

/-- **What an apply leaves**, from any settings and any map. -/
theorem outcome_applyConfig (host : Host) (world : World) (vars : Vars) (old : Settings) :
    outcome (applyConfig host world) (vars, old) =
      ended host world (aliased vars.lookup) old 0 Risk.all := by
  have hwait := waiting_aliased host vars
  generalize aliased vars.lookup = o at hwait ⊢
  rw [applyConfig, outcome_compute]
  refine outcome_require ?_
  rw [outcome_bind_ok (m := normalizeAlias) rfl]
  -- encoders and displays
  refine outcome_plain ((does_encoders host).on videoRef fun _ => rfl) hwait fun vars hwait => ?_
  refine outcome_asked ((does_modeRemappingF host _ _ fun _ => rfl).on ddRef (fun _ => rfl)
    |>.on videoRef fun _ => rfl) hwait rfl rfl fun vars hwait => ?_
  refine outcome_plain ((does_block _).on ddRef (fun _ => rfl) |>.on videoRef fun _ => rfl) hwait
    fun vars hwait => ?_
  refine outcome_plain ((does_block _).on pyrowaveRef fun _ => rfl) hwait fun vars hwait => ?_
  refine outcome_plain ((does_block _).on videoRef fun _ => rfl) hwait fun vars hwait => ?_
  refine outcome_plain ((does_block _).on frameLimiterRef fun _ => rfl) hwait fun vars hwait => ?_
  refine outcome_plain ((does_block _).on rtssRef fun _ => rfl) hwait fun vars hwait => ?_
  rw [outcome_compute, dummyPlugWorkaround_eq (effect_frameLimiter o _)]
  refine outcome_plain ((does_block _).on losslessScalingRef fun _ => rfl) hwait
    fun vars hwait => ?_
  -- paths of the network and of the log
  refine outcome_asked ((does_pathF host world _ _).on nvhttpRef fun _ => rfl) hwait rfl rfl
    fun vars hwait => ?_
  refine outcome_asked ((does_pathF host world _ _).on nvhttpRef fun _ => rfl) hwait rfl rfl
    fun vars hwait => ?_
  refine outcome_plain ((does_block _).on nvhttpRef fun _ => rfl) hwait fun vars hwait => ?_
  refine outcome_asked ((does_pathF host world _ _).on sunshineRef fun _ => rfl) hwait rfl rfl
    fun vars hwait => ?_
  refine outcome_asked ((does_pathF host world _ _).on nvhttpRef fun _ => rfl) hwait rfl rfl
    fun vars hwait => ?_
  refine outcome_asked ((does_pathF host world _ _).on nvhttpRef fun _ => rfl) hwait rfl rfl
    fun vars hwait => ?_
  rw [outcome_compute]
  refine outcome_asked ((does_pathF host world _ _).on sunshineRef fun _ => rfl) hwait rfl rfl
    fun vars hwait => ?_
  refine outcome_plain ((does_block _).on sunshineRef fun _ => rfl) hwait fun vars hwait => ?_
  refine outcome_plain ((does_block _).on steamRef fun _ => rfl) hwait fun vars hwait => ?_
  refine outcome_plain ((does_block _).on steamRef fun _ => rfl) hwait fun vars hwait => ?_
  refine outcome_plain ((does_block _).on steamRef fun _ => rfl) hwait fun vars hwait => ?_
  refine outcome_plain ((does_block _).on nvhttpRef fun _ => rfl) hwait fun vars hwait => ?_
  refine outcome_asked ((does_listPrepCmdF host _ _ fun _ => rfl).on sunshineRef fun _ => rfl)
    hwait rfl rfl fun vars hwait => ?_
  refine outcome_plain ((does_block _).on sunshineRef fun _ => rfl) hwait fun vars hwait => ?_
  refine outcome_plain ((does_block _).on audioRef fun _ => rfl) hwait fun vars hwait => ?_
  refine outcome_plain ((does_block _).on nvhttpRef fun _ => rfl) hwait fun vars hwait => ?_
  refine outcome_plain ((does_block _).on streamRef fun _ => rfl) hwait fun vars hwait => ?_
  refine outcome_asked ((does_pathF host world _ _).on streamRef fun _ => rfl) hwait
    (by simp only [effect_session]; rfl) rfl fun vars hwait => ?_
  refine outcome_require ?_
  -- nothing raises behind the apps
  refine outcome_plain ((does_block _).on streamRef fun _ => rfl) hwait fun vars hwait => ?_
  refine outcome_plain ((does_block _).on inputRef fun _ => rfl) hwait fun vars hwait => ?_
  refine outcome_plain ((does_block _).on sunshineRef fun _ => rfl) hwait fun vars hwait => ?_
  refine outcome_plain ((does_block _).on flagsRef fun _ => rfl) hwait fun vars hwait => ?_
  refine outcome_plain ((does_block _).on sunshineRef fun _ => rfl) hwait fun vars hwait => ?_
  refine outcome_plain ((does_block _).on sunshineRef fun _ => rfl) hwait fun vars hwait => ?_
  refine outcome_plain ((does_block _).on flagsRef fun _ => rfl) hwait fun vars hwait => ?_
  exact outcome_last ((does_block _).on sunshineRef fun _ => rfl) hwait

end Run

end LuminalShine.Config
