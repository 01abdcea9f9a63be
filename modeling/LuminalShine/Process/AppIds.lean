import LuminalShine.Process.AppFiles

/-!
# Identifiers of apps

`calculate_app_id` makes two identifiers of an app, one from its name and its image and one
from these and its index.  An app gets the second if the first is taken; nothing looks whether
the second is taken too.  It is when an earlier app has the name with the index behind it.

The identifiers of the merged list are distinct exactly when that never happens, and they are
texts of non-negative integers unless a checksum is `2 ^ 31`, whose negative `abs` cannot hold.

## Main definitions

* `UniqueIds` — what the client relies on.
* `Settles`, `Sources.Settled` — the condition on one entry, and on the three files.
-/

namespace LuminalShine.Process.AppFiles

open LuminalShine.Lib

/-! ## Texts of identifiers -/

/-- The text of a non-negative integer of 32 bits. -/
def IsId (id : String) : Prop := ∃ n : ℕ, n < 2 ^ 31 ∧ id = toString n

/-- What `abs` makes of the least integer. -/
def leastId : String := "-2147483648"

theorem toString_intCast_injective {a b : ℤ} (h : toString a = toString b) : a = b := by
  have h' : (a.repr).toInt? = (b.repr).toInt? := congrArg String.toInt? h
  simpa using h'

theorem isId_toString_iff (n : ℤ) : IsId (toString n) ↔ 0 ≤ n ∧ n < 2 ^ 31 := by
  constructor
  · rintro ⟨m, hm, h⟩
    have : n = m := toString_intCast_injective h
    omega
  · rintro ⟨h0, hlt⟩
    exact ⟨n.toNat, by omega, by rw [show n = (n.toNat : ℤ) by omega]; rfl⟩

/-- Only the least integer keeps its sign. -/
theorem toInt_abs_cases (n : Int32) :
    n.abs.toInt = -2 ^ 31 ∨ (0 ≤ n.abs.toInt ∧ n.abs.toInt < 2 ^ 31) := by
  have habs : n.abs.toInt = n.toBitVec.abs.toInt := rfl
  rw [habs, BitVec.toInt_abs_eq_natAbs]
  split
  · exact .inl (by decide)
  · right
    rename_i hne
    have hlt : n.toBitVec.toInt < 2 ^ 31 := BitVec.toInt_lt
    have hge : -2 ^ 31 ≤ n.toBitVec.toInt := BitVec.le_toInt _
    have hmin : n.toBitVec.toInt ≠ -2 ^ 31 := fun h =>
      hne (BitVec.eq_of_toInt_eq (h.trans (by decide)))
    omega

theorem isId_idText_iff (crc : UInt32) : IsId (idText crc) ↔ idText crc ≠ leastId := by
  have hleast : leastId = toString (-2 ^ 31 : ℤ) := by decide
  rw [idText, isId_toString_iff, hleast]
  rcases toInt_abs_cases crc.toInt32 with h | h
  · simp [h]
  · refine iff_of_true h fun heq => ?_
    have := toString_intCast_injective heq
    omega

/-- Every identifier is distinct and a client can send it; starting it starts that app. -/
structure UniqueIds (apps : List Ctx) : Prop where
  nodup : (apps.map (·.id)).Nodup
  isId : ∀ app ∈ apps, IsId app.id
  starts : ∀ app ∈ apps, ∀ appId : ℤ, app.id = toString appId →
    ∀ (p : Proc) (noSession : Bool) (outcomes : Outcomes),
      (execute { p with apps := apps.map (·.toApp) } appId noSession outcomes).2.app = app.toApp

/-! ## One entry -/

section

variable (images : Images)

/-- The two identifiers of an entry of `apps.json`. -/
def appIds (globalPrep : List (String × String)) (s : Loading) (node : Ptree) :
    Option (String × String) := do
  let (ctx, _) ← (readApp globalPrep node).run s.env
  calculateAppId images ctx.name ctx.imagePath s.index

/-- The two identifiers of an entry of a catalogue, if it has a name. -/
def autoIds (idPrefix : String) (s : Loading) (node : Ptree) : Option (String × String) :=
  match optionalText node "name" with
  | none | some "" => none
  | some nameText => do
      let (ctx, _) ← (readAutoApp nameText node).run s.env
      calculateAppId images (idPrefix ++ ctx.name) ctx.imagePath s.index

end

/-- **When an entry gets an identifier of its own.**  If the one without the index is taken, the
one with it is not; and the checksum is not the least integer. -/
def Settles (possibleIds : Loading → Ptree → Option (String × String)) (s : Loading)
    (node : Ptree) : Prop :=
  ∀ possible ∈ possibleIds s node, (possible.1 ∈ s.ids → possible.2 ∉ s.ids) ∧
    chooseId s.ids possible ≠ leastId

/-- Both are texts of checksums. -/
def FromChecksums (possible : String × String) : Prop :=
  (∃ crc, possible.1 = idText crc) ∧ ∃ crc, possible.2 = idText crc

theorem fromChecksums {images : Images} {appName imagePath : String} {index : ℕ}
    {possible : String × String}
    (h : calculateAppId images appName imagePath index = some possible) :
    FromChecksums possible := by
  obtain ⟨path, -, h⟩ := Option.bind_eq_some_iff.mp h
  obtain rfl := Option.some.inj h
  exact ⟨⟨_, rfl⟩, ⟨_, rfl⟩⟩

/-- What a step of the loops does: an app joins with its identifier, or nothing does. -/
def Adds (possibleIds : Loading → Ptree → Option (String × String)) (s : Loading) (node : Ptree)
    (s' : Loading) : Prop :=
  (∃ ctx env possible, possibleIds s node = some possible ∧ FromChecksums possible ∧
    s' = s.add ctx possible env) ∨
  (possibleIds s node = none ∧ s'.ids = s.ids ∧ s'.apps = s.apps)

theorem addApp_adds {images : Images} {globalPrep : List (String × String)} {s s' : Loading}
    {node : Ptree} (h : addApp images globalPrep s node = some s') :
    Adds (appIds images globalPrep) s node s' := by
  obtain ⟨⟨ctx, env⟩, hread, h⟩ := Option.bind_eq_some_iff.mp h
  obtain ⟨possible, hpossible, h⟩ := Option.bind_eq_some_iff.mp h
  obtain rfl := Option.some.inj h
  refine .inl ⟨ctx, env, possible, ?_, fromChecksums hpossible, rfl⟩
  simp only [appIds, hread]
  exact hpossible

theorem addAutoApp_adds {images : Images} {idPrefix : String} {s s' : Loading} {node : Ptree}
    (h : addAutoApp images idPrefix s node = some s') :
    Adds (autoIds images idPrefix) s node s' := by
  simp only [addAutoApp] at h
  split at h
  · rename_i hname
    obtain rfl := Option.some.inj h
    exact .inr ⟨by simp [autoIds, hname], rfl, rfl⟩
  · rename_i hname
    obtain rfl := Option.some.inj h
    exact .inr ⟨by simp [autoIds, hname], rfl, rfl⟩
  · rename_i nameText hne hname
    obtain ⟨⟨ctx, env⟩, hread, h⟩ := Option.bind_eq_some_iff.mp h
    obtain ⟨possible, hpossible, h⟩ := Option.bind_eq_some_iff.mp h
    obtain rfl := Option.some.inj h
    refine .inl ⟨ctx, env, possible, ?_, fromChecksums hpossible, rfl⟩
    simp only [autoIds, hname, hread]
    exact hpossible

/-! ## Runs -/

/-- The identifiers given out are distinct, and texts of non-negative integers. -/
def Own (ids : List String) : Prop := ids.Nodup ∧ ∀ id ∈ ids, IsId id

section

variable {possibleIds : Loading → Ptree → Option (String × String)} {s s' : Loading}
  {node : Ptree}

theorem chooseId_notMem_iff (ids : List String) (possible : String × String) :
    chooseId ids possible ∉ ids ↔ (possible.1 ∈ ids → possible.2 ∉ ids) := by
  simp only [chooseId]
  split
  · rename_i h
    simp [h]
  · rename_i h
    simp [h]

theorem isId_chooseId_iff {possible : String × String} (h : FromChecksums possible)
    (ids : List String) : IsId (chooseId ids possible) ↔ chooseId ids possible ≠ leastId := by
  obtain ⟨⟨crc, h₁⟩, ⟨crc', h₂⟩⟩ := h
  simp only [chooseId]
  split
  · rw [h₂]
    exact isId_idText_iff crc'
  · rw [h₁]
    exact isId_idText_iff crc

theorem own_add_iff {ctx : Ctx} {env : Env} {possible : String × String}
    (h : FromChecksums possible) :
    Own (s.add ctx possible env).ids ↔
      Own s.ids ∧ (possible.1 ∈ s.ids → possible.2 ∉ s.ids) ∧
        chooseId s.ids possible ≠ leastId := by
  simp only [Own, Loading.add, List.nodup_cons, List.forall_mem_cons, chooseId_notMem_iff,
    isId_chooseId_iff h]
  tauto

/-- A step keeps them so exactly when its entry gets one of its own. -/
theorem own_step_iff (h : Adds possibleIds s node s') :
    Own s'.ids ↔ Own s.ids ∧ Settles possibleIds s node := by
  rcases h with ⟨ctx, env, possible, hpossible, htexts, rfl⟩ | ⟨hnone, hids, -⟩
  · rw [own_add_iff htexts]
    simp [Settles, hpossible]
  · rw [hids]
    simp [Settles, hnone]

/-- The apps that joined have the identifiers that were given out. -/
def Joined (start t : Loading) : Prop :=
  ∃ new : List Ctx, t.apps = start.apps ++ new ∧ t.ids = (new.map (·.id)).reverse ++ start.ids

theorem joined_step {start : Loading} (hs : Joined start s) (h : Adds possibleIds s node s') :
    Joined start s' := by
  obtain ⟨new, happs, hids⟩ := hs
  rcases h with ⟨ctx, env, possible, -, -, rfl⟩ | ⟨-, hids', happs'⟩
  · refine ⟨new ++ [{ ctx with id := chooseId s.ids possible }], ?_, ?_⟩
    · simp [Loading.add, happs]
    · simp [Loading.add, hids]
  · exact ⟨new, happs'.trans happs, hids'.trans hids⟩

variable {step : Loading → Ptree → Option Loading} {nodes : List Ptree} {t : Loading}

theorem own_run_iff (hstep : ∀ s node s', step s node = some s' → Adds possibleIds s node s')
    (hrun : run step s nodes = some t) :
    Own t.ids ↔ Own s.ids ∧ RunMeets step (Settles possibleIds) s nodes :=
  run_iff_of_step (P := fun s => Own s.ids) (fun s node s' h => own_step_iff (hstep s node s' h))
    hrun

theorem joined_run (hstep : ∀ s node s', step s node = some s' → Adds possibleIds s node s')
    (hrun : run step s nodes = some t) : Joined s t :=
  run_invariant (P := Joined s) (fun _ _ _ hs h => joined_step hs (hstep _ _ _ h))
    ⟨[], by simp, by simp⟩ hrun

end

/-! ## The merged list -/

theorem takeNamed_perm (name : String) (apps : List Ctx) :
    ((takeNamed name apps).1 ++ (takeNamed name apps).2).Perm apps := by
  induction apps with
  | nil => simp [takeNamed]
  | cons app apps ih =>
      by_cases happ : iequals app.name name = true
      · simp [takeNamed, happ]
      · cases hfind : apps.find? fun app => iequals app.name name with
        | none => simp [takeNamed, happ, hfind]
        | some found =>
            simp only [takeNamed, hfind] at ih
            have happ' : iequals app.name name = false := by simpa using happ
            simp only [takeNamed, List.find?_cons, happ', hfind, List.eraseP_cons]
            exact (List.Perm.swap app found _).trans (ih.cons app)

theorem mergeAppLists_perm (apps steam nonsg : List Ctx) :
    (mergeAppLists apps steam nonsg).Perm (apps ++ steam ++ nonsg) := by
  have hdesktop := takeNamed_perm "Desktop" apps
  have hsteam := takeNamed_perm "Steam" (takeNamed "Desktop" apps).2
  simp only [mergeAppLists]
  refine (((?_ : List.Perm _ _).append_right steam).append_right nonsg)
  rw [List.append_assoc]
  exact (hsteam.append_left _).trans hdesktop

theorem launchAppCommands_app (p : Proc) (outcomes : Outcomes) :
    (launchAppCommands p outcomes).2.2.app = p.app := by
  have hstart : ∀ (p started : Proc), startApp p outcomes = some started →
      started.app = p.app := by
    intro p started h
    simp only [startApp] at h
    repeat' split at h
    all_goals cases h
    all_goals rfl
  simp only [launchAppCommands]
  split
  · rename_i started h
    split at h
    · exact (hstart _ _ h).trans rfl
    · cases h
  · rfl

/-- The app that is found is the one that runs. -/
theorem execute_app {p : Proc} {appId : ℤ} {app : App}
    (h : p.apps.find? (·.id = toString appId) = some app) (noSession : Bool)
    (outcomes : Outcomes) : (execute p appId noSession outcomes).2.app = app := by
  have hfind : (terminate p).2.apps.find? (·.id = toString appId) = some app := h
  simp only [execute, hfind]
  split
  · rfl
  · have happ := launchAppCommands_app (enter (terminate p).2 appId app) outcomes
    split <;> rename_i heq <;> rw [heq] at happ <;> exact happ

theorem find?_of_nodup {apps : List Ctx} (h : (apps.map (·.id)).Nodup) {app : Ctx}
    (happ : app ∈ apps) : apps.find? (·.id = app.id) = some app := by
  induction apps with
  | nil => cases happ
  | cons head apps ih =>
      obtain ⟨hnew, hnodup⟩ := List.nodup_cons.mp h
      rcases List.mem_cons.mp happ with rfl | happ
      · simp
      · have hne : head.id ≠ app.id := fun heq => hnew (List.mem_map.mpr ⟨app, happ, heq.symm⟩)
        rw [List.find?_cons_of_neg (by simpa using hne)]
        exact ih hnodup happ

theorem uniqueIds_iff (apps : List Ctx) : UniqueIds apps ↔ Own (apps.map (·.id)) := by
  constructor
  · intro h
    exact ⟨h.nodup, fun id hid => by
      obtain ⟨app, happ, rfl⟩ := List.mem_map.mp hid
      exact h.isId app happ⟩
  · intro h
    refine ⟨h.1, fun app happ => h.2 _ (List.mem_map_of_mem happ), ?_⟩
    intro app happ appId hid p noSession outcomes
    refine execute_app ?_ noSession outcomes
    rw [← hid]
    rw [List.find?_map]
    exact congrArg (Option.map (·.toApp)) (find?_of_nodup h.1 happ)

/-! ## The three files -/

section

variable (src : Sources)

/-- **The condition.**  Every entry of the three files gets an identifier of its own. -/
def Sources.Settled : Prop :=
  ∀ start nodes, src.appEntries = some (start, nodes) →
    RunMeets (addApp src.images src.globalPrep)
      (Settles (appIds src.images src.globalPrep)) start nodes ∧
    ∀ user, run (addApp src.images src.globalPrep) start nodes = some user →
      RunMeets (addAutoApp src.images "steam:") (Settles (autoIds src.images "steam:"))
        { env := user.env, ids := user.ids } (Sources.autoNodes src.steamApps) ∧
      ∀ steam, src.parseAutoApps "steam:" src.steamApps user.env user.ids = some steam →
        RunMeets (addAutoApp src.images "nonsg:") (Settles (autoIds src.images "nonsg:"))
          { env := steam.env, ids := steam.ids } (Sources.autoNodes src.nonsgApps)

variable {src}

theorem own_parseAutoApps_iff {idPrefix : String} {catalogue : Option Ptree} {env : Env}
    {ids : List String} {t : Loading}
    (h : src.parseAutoApps idPrefix catalogue env ids = some t) :
    Own t.ids ↔ Own ids ∧ RunMeets (addAutoApp src.images idPrefix)
      (Settles (autoIds src.images idPrefix)) { env, ids } (Sources.autoNodes catalogue) :=
  own_run_iff (fun _ _ _ hstep => addAutoApp_adds hstep) h

theorem joined_parseAutoApps {idPrefix : String} {catalogue : Option Ptree} {env : Env}
    {ids : List String} {t : Loading}
    (h : src.parseAutoApps idPrefix catalogue env ids = some t) :
    t.ids = (t.apps.map (·.id)).reverse ++ ids := by
  obtain ⟨new, happs, hids⟩ := joined_run (fun _ _ _ hstep => addAutoApp_adds hstep) h
  obtain rfl : t.apps = new := by simpa using happs
  exact hids

theorem appEntries_start {start : Loading} {nodes : List Ptree}
    (h : src.appEntries = some (start, nodes)) : start.ids = [] ∧ start.apps = [] := by
  obtain ⟨tree, -, h⟩ := Option.bind_eq_some_iff.mp h
  obtain ⟨apps, -, h⟩ := Option.bind_eq_some_iff.mp h
  obtain ⟨vars, -, h⟩ := Option.bind_eq_some_iff.mp h
  obtain ⟨env, -, h⟩ := Option.bind_eq_some_iff.mp h
  obtain ⟨rfl, -⟩ := Prod.mk.inj (Option.some.inj h)
  exact ⟨rfl, rfl⟩

/-- **Unique identifiers.**  In the list that the three files make, the identifiers are
distinct texts of non-negative integers, each starting its app, exactly when every entry gets
one of its own. -/
theorem mergedIds_unique_iff {user : Loading} {merged : List Ctx} {env : Env}
    (huser : src.parseApps = some user) (hmerged : src.merged user = some (merged, env)) :
    UniqueIds merged ↔ src.Settled := by
  obtain ⟨⟨start, nodes⟩, hentries, hrun⟩ := Option.bind_eq_some_iff.mp huser
  obtain ⟨⟨steam, nonsg⟩, hcatalogues, heq⟩ := Option.bind_eq_some_iff.mp hmerged
  obtain ⟨rfl, -⟩ := Prod.mk.inj (Option.some.inj heq)
  obtain ⟨steam', hsteam, hcatalogues⟩ := Option.bind_eq_some_iff.mp hcatalogues
  obtain ⟨nonsg', hnonsg, heq⟩ := Option.bind_eq_some_iff.mp hcatalogues
  obtain ⟨rfl, rfl⟩ := Prod.mk.inj (Option.some.inj heq)
  obtain ⟨hids, happs⟩ := appEntries_start hentries
  -- the identifiers of the merged list are those that were given out
  have huserIds : user.ids = (user.apps.map (·.id)).reverse := by
    obtain ⟨new, hnew, hnewIds⟩ := joined_run (fun _ _ _ hstep => addApp_adds hstep) hrun
    rw [hnewIds, hids, hnew, happs, List.nil_append, List.append_nil]
  have hperm : ((mergeAppLists user.apps steam'.apps nonsg'.apps).map (·.id)).Perm
      nonsg'.ids := by
    rw [joined_parseAutoApps hnonsg, joined_parseAutoApps hsteam, huserIds]
    refine ((mergeAppLists_perm _ _ _).map _).trans ?_
    rw [← List.reverse_append, ← List.reverse_append, ← List.map_append, ← List.map_append]
    exact (List.reverse_perm _).symm
  have howns : Own ((mergeAppLists user.apps steam'.apps nonsg'.apps).map (·.id)) ↔
      Own nonsg'.ids := by
    simp only [Own, hperm.nodup_iff, hperm.mem_iff]
  have hstart : Own start.ids := by
    rw [hids]
    exact ⟨List.nodup_nil, by simp⟩
  rw [uniqueIds_iff, howns, own_parseAutoApps_iff hnonsg, own_parseAutoApps_iff hsteam,
    own_run_iff (fun _ _ _ hstep => addApp_adds hstep) hrun]
  constructor
  · rintro ⟨⟨⟨-, hmeets⟩, hmeets'⟩, hmeets''⟩ start₁ nodes₁ hentries₁
    obtain ⟨rfl, rfl⟩ := Prod.mk.inj (Option.some.inj (hentries.symm.trans hentries₁))
    refine ⟨hmeets, fun user₁ hrun₁ => ?_⟩
    obtain rfl := Option.some.inj (hrun.symm.trans hrun₁)
    refine ⟨hmeets', fun steam₁ hsteam₁ => ?_⟩
    obtain rfl := Option.some.inj (hsteam.symm.trans hsteam₁)
    exact hmeets''
  · intro h
    obtain ⟨hmeets, h⟩ := h start nodes hentries
    obtain ⟨hmeets', h⟩ := h user hrun
    exact ⟨⟨⟨hstart, hmeets⟩, hmeets'⟩, h steam' hsteam⟩

end

/-! ### Games without settings -/

theorem spanDollar_of_notMem {cs : List Char} (h : '$' ∉ cs) : spanDollar cs = (cs, []) := by
  have hall : ∀ c ∈ cs, decide (c ≠ '$') = true := fun c hc => by
    simpa using fun heq : c = '$' => h (heq ▸ hc)
  rw [spanDollar, List.span_eq_takeWhile_dropWhile, List.takeWhile_eq_self_iff.mpr hall,
    List.dropWhile_eq_nil_iff.mpr hall]

/-- A text without a dollar sign is itself. -/
theorem parseEnvVal_of_notMem {text : String} (h : '$' ∉ text.toList) :
    parseEnvVal text = pure text := by
  rw [parseEnvVal, spanDollar_of_notMem h, parseEnvLoop]
  simp

/-- An entry with nothing but a name. -/
def gameNode (name : String) : Ptree := .node "" [("name", .leaf name)]

/-- A machine whose `apps.json` lists such games. -/
def gamesOnly (names : List String) : Sources where
  images := ⟨"assets", fun _ => some "", ("assets/" ++ ·), fun _ => some false, fun _ => false,
    fun _ => false, fun _ => none⟩
  processEnv := []
  globalPrep := []
  appsJson := some (.node "" [("apps", .node "" (names.map fun name => ("", gameNode name))),
    ("env", .empty)])
  steamApps := none
  nonsgApps := none

theorem find?_gameNode_name (name : String) :
    (gameNode name).find? "name" = some (.leaf name) := rfl

theorem find?_gameNode_ne (name : String) {key : String} (h : key ≠ "name") :
    (gameNode name).find? key = none := Ptree.lookup_cons_ne _ [] h

/-- Such a game joins. -/
def addGame (s : Loading) (name : String) : Loading :=
  s.add { name, autoDetach := true, waitAll := true } (idText (calculateCrc32 name),
    idText (calculateCrc32 (name ++ toString s.index))) s.env

theorem addApp_gameNode (images : Images) {name : String} (h : '$' ∉ name.toList)
    (s : Loading) : addApp images [] s (gameNode name) = some (addGame s name) := by
  have hread : (readApp [] (gameNode name)).run s.env =
      some (({ name, autoDetach := true, waitAll := true } : Ctx), s.env) := by
    simp (disch := decide) [readApp, optionalText, optionalBool, expandOptional, children,
      prepTexts, expandCmds, expandAll, find?_gameNode_name, find?_gameNode_ne,
      parseEnvVal_of_notMem h, eraseQuotes]
  have hid : calculateAppId images name "" s.index =
      some (idText (calculateCrc32 name), idText (calculateCrc32 (name ++ toString s.index))) := by
    simp [calculateAppId, Images.validateAppImagePath]
  simp [addApp, hread, hid, addGame]

theorem run_gameNodes (images : Images) {names : List String}
    (h : ∀ name ∈ names, '$' ∉ name.toList) (s : Loading) :
    run (addApp images []) s (names.map gameNode) = some (names.foldl addGame s) := by
  induction names generalizing s with
  | nil => rfl
  | cons name names ih =>
      rw [List.map_cons, run_cons, addApp_gameNode images (h name List.mem_cons_self)]
      exact ih (fun other hother => h other (List.mem_cons_of_mem _ hother)) _

theorem parseApps_gamesOnly {names : List String} (h : ∀ name ∈ names, '$' ∉ name.toList) :
    (gamesOnly names).parseApps = some (names.foldl addGame { env := [], ids := [] }) := by
  have hentries : (gamesOnly names).appEntries =
      some ({ env := [], ids := [] }, names.map gameNode) := by
    have hvars : List.lookup "env" [("apps", Ptree.node ""
        (names.map fun name => ("", gameNode name))), ("env", Ptree.empty)] = some .empty := rfl
    simp [Sources.appEntries, gamesOnly, Ptree.find?, hvars]
    rfl
  simp only [Sources.parseApps, hentries]
  exact run_gameNodes _ h _

theorem merged_gamesOnly (names : List String) (user : Loading) :
    (gamesOnly names).merged user = some (mergeAppLists user.apps [] [], user.env) := rfl

theorem mergedIds_unique_one_game :
    ∃ user merged env, (gamesOnly ["Game"]).parseApps = some user ∧
      (gamesOnly ["Game"]).merged user = some (merged, env) ∧
      (UniqueIds merged ↔ (gamesOnly ["Game"]).Settled) :=
  ⟨_, _, _, parseApps_gamesOnly (by simp), merged_gamesOnly _ _,
    mergedIds_unique_iff (parseApps_gamesOnly (by simp)) (merged_gamesOnly _ _)⟩

/-- The third game has the name of the second; with its index it has that of the first. -/
theorem mergedIds_not_unique :
    ∃ user merged env, (gamesOnly ["Game2", "Game", "Game"]).parseApps = some user ∧
      (gamesOnly ["Game2", "Game", "Game"]).merged user = some (merged, env) ∧
      ¬UniqueIds merged := by
  refine ⟨_, _, _, parseApps_gamesOnly (by simp), merged_gamesOnly _ _, fun h => ?_⟩
  have hnodup := (((mergeAppLists_perm _ [] []).map (·.id)).nodup_iff).mp h.nodup
  have hindex : "Game" ++ Nat.repr 2 = "Game2" := by decide
  generalize hfirst : idText (calculateCrc32 "Game2") = first at hnodup
  generalize hsecond : idText (calculateCrc32 "Game") = second at hnodup
  by_cases hsame : second = first <;>
    simp [addGame, Loading.add, chooseId, hindex, hfirst, hsecond, hsame] at hnodup

end LuminalShine.Process.AppFiles
