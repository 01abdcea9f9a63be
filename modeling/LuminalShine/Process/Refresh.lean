import LuminalShine.Lib.Steady
import LuminalShine.Process.AppIds

/-!
# Refreshing the app list

`refresh` loads `apps.json`, where every exception is caught, and then the two catalogues, where
none is.  An entry of a catalogue raises if one of its texts has an open `$(`, or if the file
system raises at its image.

Expansion looks variables up; a look-up of an unset variable adds it with the empty value, which
no later look-up can tell.  So whether an entry raises is a matter of its texts, and of its image
in the environment of the first entry.

## Main definitions

* `closed` — every `$(` the scan reaches has its closing bracket.
* `Sources.Harmless` — the condition on the catalogues.
* `AllOrNothing` — the property of a call.
-/

namespace LuminalShine.Process.AppFiles

open LuminalShine.Lib

/-! ## Environments with the same values -/

/-- Every variable has the same value. -/
def sameValues : Setoid Env where
  r env env' := ∀ name, env.value name = env'.value name
  iseqv := ⟨fun _ _ => rfl, fun h name => (h name).symm,
    fun h h' name => (h name).trans (h' name)⟩

theorem iequals_iff (a b : String) :
    iequals a b = true ↔ a.toList.map Char.toUpper = b.toList.map Char.toUpper := by
  simp [iequals]

/-- Equal names find the same entry. -/
theorem findEntry_congr (env : Env) {name name' : String} (h : iequals name name' = true) :
    env.findEntry name = env.findEntry name' := by
  rw [iequals_iff] at h
  simp only [Env.findEntry, iequals, h]

/-- A name found is looked up under its own spelling. -/
theorem value_spelled (env : Env) (name : String) :
    env.value (((env.findEntry name).map Prod.fst).getD name) = env.value name := by
  cases h : env.findEntry name with
  | none => rfl
  | some entry =>
      have hname : iequals entry.1 name = true := by
        simpa using List.find?_some h
      rw [Option.map_some, Option.getD_some, Env.value, findEntry_congr env hname, Env.value]

theorem value_touch (env : Env) (name other : String) :
    (env.touch name).value other = env.value other := by
  simp only [Env.touch]
  split
  · rfl
  · simp only [Env.value, Env.findEntry, List.find?_append]
    cases env.find? fun entry => iequals entry.1 other with
    | some entry => rfl
    | none =>
        simp only [List.find?_cons, List.find?_nil, Option.none_or]
        split <;> rfl

theorem steady_readVariable (name : String) :
    Steady sameValues (readVariable name) True fun env => env.value name where
  returns _ env := by
    have hrun : (readVariable name).run env =
        some (env.value (((env.findEntry name).map Prod.fst).getD name),
          env.touch (((env.findEntry name).map Prod.fst).getD name)) := rfl
    rw [value_spelled] at hrun
    exact ⟨_, hrun, fun other => (value_touch env _ other).symm⟩
  raises h := absurd trivial h
  congr _ _ h := h name

/-! ## Texts that expand -/

/-- Every `$(` that the scan reaches has its closing bracket. -/
def closed : List Char → Bool
  | [] => true
  | '$' :: '(' :: body =>
      match _h : findMatch 1 body with
      | none => false
      | some (_, rest) => closed rest
  | '$' :: '$' :: rest => closed rest
  | _ :: cs => closed cs
  termination_by cs => cs.length
  decreasing_by
    · have := length_findMatch _h
      simp only [List.length_cons]
      omega
    · simp only [List.length_cons]
      omega
    · simp only [List.length_cons]
      omega

theorem closed_of_findMatch_eq_none {body : List Char} (h : findMatch 1 body = none) :
    closed ('$' :: '(' :: body) = false := by
  rw [closed]
  split
  · rfl
  · simp_all

theorem closed_of_findMatch {body name rest : List Char}
    (h : findMatch 1 body = some (name, rest)) :
    closed ('$' :: '(' :: body) = closed rest := by
  rw [closed]
  split <;> simp_all

theorem closed_dollar (rest : List Char) : closed ('$' :: '$' :: rest) = closed rest := by
  rw [closed]

/-- Other characters stand for themselves. -/
theorem closed_cons {c : Char} {cs : List Char} (hopen : c = '$' → cs.head? ≠ some '(')
    (hdollar : c = '$' → cs.head? ≠ some '$') : closed (c :: cs) = closed cs := by
  rw [closed]
  · rintro body rfl rfl
    exact hopen rfl rfl
  · rintro rest rfl rfl
    exact hdollar rfl rfl

/-- What stands before the next dollar sign does not matter. -/
theorem closed_spanDollar (cs : List Char) : closed (spanDollar cs).2 = closed cs := by
  induction cs with
  | nil => rfl
  | cons c cs ih =>
      by_cases hc : c = '$'
      · simp [spanDollar, hc, List.span_eq_takeWhile_dropWhile]
      · rw [closed_cons (fun h => absurd h hc) (fun h => absurd h hc), ← ih]
        simp [spanDollar, hc, List.span_eq_takeWhile_dropWhile]

/-- What the loop gets behind the text before a dollar sign. -/
def AtDollar (rest : List Char) : Prop := ∀ c ∈ rest.head?, c = '$'

theorem atDollar_spanDollar (cs : List Char) : AtDollar (spanDollar cs).2 := by
  intro c hc
  rw [spanDollar, List.span_eq_takeWhile_dropWhile] at hc
  have := List.head?_dropWhile_not (fun c => decide (c ≠ '$')) cs
  simp_all

/-- The loop raises on the open brackets that the scan reaches. -/
theorem steady_parseEnvLoop (pending : List Char) {rest : List Char} (h : AtDollar rest) :
    ∃ value, Steady sameValues (parseEnvLoop pending rest) (closed rest = true) value := by
  induction hn : rest.length using Nat.strong_induction_on generalizing pending rest with
  | _ n ih =>
    have hspan : ∀ (pending cs : List Char), cs.length < n →
        ∃ value, Steady sameValues (parseEnvLoop (pending ++ (spanDollar cs).1) (spanDollar cs).2)
          (closed cs = true) value := by
      intro pending cs hlt
      rw [← closed_spanDollar cs]
      exact ih _ (lt_of_le_of_lt (length_spanDollar cs) hlt) _ (atDollar_spanDollar cs) rfl
    rcases rest with _ | ⟨dollar, _ | ⟨c, cs⟩⟩
    · rw [parseEnvLoop]
      exact ⟨_, (Steady.pure pending).congr_prop (by simp [closed])⟩
    · rw [parseEnvLoop]
      exact ⟨_, (Steady.pure _).congr_prop (by simp [closed])⟩
    · obtain rfl : dollar = '$' := h _ (by simp)
      have hlt : cs.length < n := by
        simp only [List.length_cons] at hn
        omega
      by_cases hopen : c = '('
      · subst hopen
        rw [parseEnvLoop]
        split
        · rename_i hfound
          rw [closed_of_findMatch_eq_none hfound]
          exact ⟨fun _ => [], (Steady.failure _).congr_prop (by simp)⟩
        · rename_i name rest hfound
          have hrest : rest.length < n := (length_findMatch hfound).trans hlt
          obtain ⟨value, hvalue⟩ := hspan [] rest hrest
          rw [closed_of_findMatch hfound]
          exact ⟨_, ((steady_readVariable _).bind fun text =>
            hvalue.bind fun expanded => Steady.pure _).congr_prop (by simp)⟩
      · by_cases hdollar : c = '$'
        · subst hdollar
          rw [parseEnvLoop, closed_dollar]
          obtain ⟨value, hvalue⟩ := hspan [] cs hlt
          exact ⟨_, (hvalue.bind fun expanded => Steady.pure _).congr_prop (by simp)⟩
        · obtain ⟨value, hvalue⟩ := hspan (pending ++ ['$']) (c :: cs) (by
            simp only [List.length_cons] at hn ⊢
            omega)
          rw [parseEnvLoop, closed_cons (by simpa using hopen) (by simpa using hdollar)]
          · exact ⟨value, by simpa using hvalue⟩
          · simp
          · intro body heq
            exact hopen (List.cons.inj heq).1
          · intro rest heq
            exact hdollar (List.cons.inj heq).1

/-- Every `$(` that is reached in the text is closed. -/
def Expandable (text : String) : Prop := closed text.toList = true

instance (text : String) : Decidable (Expandable text) := inferInstanceAs (Decidable (_ = true))

/-- The text in an environment; empty if it raises. -/
def expandIn (env : Env) (text : String) : String :=
  (((parseEnvVal text).run env).map Prod.fst).getD ""

theorem steady_parseEnvVal (text : String) :
    Steady sameValues (parseEnvVal text) (Expandable text) fun env => expandIn env text := by
  obtain ⟨value, hvalue⟩ :=
    steady_parseEnvLoop (spanDollar text.toList).1 (atDollar_spanDollar text.toList)
  have hsteady := hvalue.bind fun expanded => Steady.pure (String.ofList expanded)
  rw [closed_spanDollar] at hsteady
  exact (hsteady.congr_prop (q := Expandable text) (by simp [Expandable])).of_run ""

/-! ## One entry -/

/-- The text of a field, empty if there is none. -/
def textOf (node : Ptree) (key : String) : String := (optionalText node key).getD ""

theorem parseEnvVal_empty : parseEnvVal "" = pure "" := by
  rw [parseEnvVal]
  simp [spanDollar, List.span_eq_takeWhile_dropWhile, parseEnvLoop]

theorem expandOptional_eq (node : Ptree) (key : String) :
    expandOptional node key = parseEnvVal (textOf node key) := by
  rw [expandOptional, textOf]
  split
  · rename_i h
    rw [h, Option.getD_some]
  · rename_i h
    rw [h, Option.getD_none, parseEnvVal_empty]

theorem steady_expandAll (texts : List String) :
    ∃ value, Steady sameValues (expandAll texts) (∀ text ∈ texts, Expandable text) value := by
  induction texts with
  | nil => exact ⟨_, (Steady.pure []).congr_prop (by simp)⟩
  | cons text texts ih =>
      obtain ⟨value, hvalue⟩ := ih
      exact ⟨_, ((steady_parseEnvVal text).bind fun expanded =>
        hvalue.bind fun rest => Steady.pure _).congr_prop (by simp)⟩

/-- The texts of an entry that are expanded. -/
def autoTexts (nameText : String) (node : Ptree) : List String :=
  nameText :: ["cmd", "working-dir", "image-path", "output"].map (textOf node) ++
    (children node "detached").map Ptree.data

theorem steady_readAutoApp (nameText : String) (node : Ptree) :
    ∃ value, Steady sameValues (readAutoApp nameText node)
      (∀ text ∈ autoTexts nameText node, Expandable text) value ∧
      ∀ env, (value env).imagePath = expandIn env (textOf node "image-path") := by
  obtain ⟨detached, hdetached⟩ := steady_expandAll ((children node "detached").map Ptree.data)
  simp only [readAutoApp, expandOptional_eq]
  refine ⟨_, ((steady_parseEnvVal nameText).bind fun name =>
    (steady_parseEnvVal _).bind fun cmd => (steady_parseEnvVal _).bind fun workingDir =>
    (steady_parseEnvVal _).bind fun imagePath => (steady_parseEnvVal _).bind fun output =>
    hdetached.bind fun detached => Steady.pure _).congr_prop ?_, fun env => rfl⟩
  simp [autoTexts]

/-- **When an entry is harmless.**  Its texts expand, and the file system answers about its
image. -/
def HarmlessEntry (images : Images) (env : Env) (node : Ptree) : Prop :=
  ∀ nameText ∈ optionalText node "name", nameText ≠ "" →
    (∀ text ∈ autoTexts nameText node, Expandable text) ∧
      (images.validateAppImagePath (expandIn env (textOf node "image-path"))).isSome = true

theorem harmlessEntry_congr {images : Images} {env env' : Env} (h : sameValues env env')
    (node : Ptree) : HarmlessEntry images env node ↔ HarmlessEntry images env' node := by
  rw [HarmlessEntry, (steady_parseEnvVal (textOf node "image-path")).congr env env' h,
    HarmlessEntry]

section

variable {images : Images} {idPrefix : String} {s : Loading} {node : Ptree}

theorem calculateAppId_isSome_iff (appName imagePath : String) (index : ℕ) :
    (calculateAppId images appName imagePath index).isSome = true ↔
      (images.validateAppImagePath imagePath).isSome = true := by
  simp [calculateAppId, Option.isSome_bind]

variable (images idPrefix s node) in
theorem addAutoApp_isSome_iff :
    (addAutoApp images idPrefix s node).isSome = true ↔ HarmlessEntry images s.env node := by
  simp only [addAutoApp, HarmlessEntry]
  split
  · rename_i hname
    simp [hname]
  · rename_i hname
    simp [hname]
  · rename_i nameText hne hname
    obtain ⟨value, hsteady, himage⟩ := steady_readAutoApp nameText node
    have hnonempty : nameText ≠ "" := fun h => hne h
    simp only [hname, Option.mem_some_iff, forall_eq', ne_eq, hnonempty, not_false_eq_true,
      forall_const, ← hsteady.isSome_iff s.env, ← himage]
    cases hread : (readAutoApp nameText node).run s.env with
    | none => simp
    | some result =>
        obtain ⟨hvalue, -⟩ := hsteady.eq_of_run hread
        simp [Option.isSome_bind, ← hvalue, ← calculateAppId_isSome_iff (idPrefix ++ result.1.name)
          _ s.index]

theorem addAutoApp_env {s' : Loading} (h : addAutoApp images idPrefix s node = some s') :
    sameValues s.env s'.env := by
  simp only [addAutoApp] at h
  split at h
  · obtain rfl := Option.some.inj h
    exact sameValues.refl s.env
  · obtain rfl := Option.some.inj h
    exact sameValues.refl s.env
  · rename_i nameText _ _
    obtain ⟨value, hsteady, -⟩ := steady_readAutoApp nameText node
    obtain ⟨⟨ctx, env⟩, hread, h⟩ := Option.bind_eq_some_iff.mp h
    obtain ⟨possible, -, h⟩ := Option.bind_eq_some_iff.mp h
    obtain rfl := Option.some.inj h
    exact (hsteady.eq_of_run hread).2

variable (images idPrefix) in
/-- A catalogue is loaded exactly when all its entries are harmless in the environment it
starts with. -/
theorem run_addAutoApp (nodes : List Ptree) (s : Loading) :
    ((run (addAutoApp images idPrefix) s nodes).isSome = true ↔
      ∀ node ∈ nodes, HarmlessEntry images s.env node) ∧
    ∀ t, run (addAutoApp images idPrefix) s nodes = some t → sameValues s.env t.env := by
  induction nodes generalizing s with
  | nil =>
      refine ⟨by simp, fun t ht => ?_⟩
      obtain rfl := Option.some.inj ht
      exact sameValues.refl s.env
  | cons node nodes ih =>
      have hnode := addAutoApp_isSome_iff images idPrefix s node
      cases hstep : addAutoApp images idPrefix s node with
      | none =>
          rw [hstep] at hnode
          simp [run_cons, hstep, ← hnode]
      | some s' =>
          have henv := addAutoApp_env hstep
          obtain ⟨hiff, hsame⟩ := ih s'
          rw [hstep] at hnode
          refine ⟨?_, fun t ht => ?_⟩
          · rw [run_cons, hstep, Option.bind_some, hiff, List.forall_mem_cons]
            simp only [← hnode, Option.isSome_some, true_and, harmlessEntry_congr henv]
          · rw [run_cons, hstep, Option.bind_some] at ht
            exact sameValues.trans henv (hsame t ht)

end

/-! ## A refresh -/

/-- **The condition.**  Whenever `apps.json` is loaded, every entry of the two catalogues is
harmless. -/
def Sources.Harmless (src : Sources) : Prop :=
  ∀ user ∈ src.parseApps, ∀ node ∈ Sources.autoNodes src.steamApps ++
    Sources.autoNodes src.nonsgApps, HarmlessEntry src.images user.env node

/-- The list and the environment of the three files. -/
def Sources.mergedResult (src : Sources) : Option (List Ctx × Env) := do
  let user ← src.parseApps
  src.merged user

/-- **All or nothing.**  The call returns, and the list and the environment of the next launch
are those of the three files, or everything is as it was. -/
def AllOrNothing (src : Sources) (active : Bool) (s : Store) : Prop :=
  ∃ s', refresh src active s = .returned s' ∧
    (s' = s ∨ src.mergedResult = some (s'.apps, s'.nextEnv))

theorem merged_isSome_iff {src : Sources} {user : Loading} :
    (src.merged user).isSome = true ↔
      ∀ node ∈ Sources.autoNodes src.steamApps ++ Sources.autoNodes src.nonsgApps,
        HarmlessEntry src.images user.env node := by
  obtain ⟨hsteam, hsame⟩ := run_addAutoApp src.images "steam:"
    (Sources.autoNodes src.steamApps) { env := user.env, ids := user.ids }
  rw [List.forall_mem_append, ← hsteam]
  cases hrun : run (addAutoApp src.images "steam:") { env := user.env, ids := user.ids }
      (Sources.autoNodes src.steamApps) with
  | none => simp [Sources.merged, Sources.parseCatalogues, Sources.parseAutoApps, hrun]
  | some steam =>
      have hnonsg := (run_addAutoApp src.images "nonsg:"
        (Sources.autoNodes src.nonsgApps) { env := steam.env, ids := steam.ids }).1
      simp only [← harmlessEntry_congr (hsame steam hrun)] at hnonsg
      rw [← hnonsg]
      simp [Sources.merged, Sources.parseCatalogues, Sources.parseAutoApps, hrun,
        Option.isSome_bind]

theorem refresh_allOrNothing_iff (src : Sources) (active : Bool) (s : Store) :
    AllOrNothing src active s ↔ src.Harmless := by
  simp only [AllOrNothing, Sources.Harmless, ← merged_isSome_iff, refresh,
    Sources.mergedResult]
  cases huser : src.parseApps with
  | none => simp
  | some user =>
      cases hmerged : src.merged user with
      | none => simp [hmerged]
      | some result =>
          refine iff_of_true ⟨s.replace active result.1 result.2, ?_, .inr ?_⟩ (by simp [hmerged])
          · simp only [hmerged]
          · cases active <;> simp [hmerged, Store.replace, Store.nextEnv]

/-- A machine with one synchronised game, and no other app. -/
def oneSteamGame (name : String) : Sources :=
  { gamesOnly [] with
    steamApps := some (.node "" [("apps", .node "" [("", gameNode name)])]) }

/-- The name of a game is enough to make a refresh raise. -/
theorem refresh_raises_on_name :
    ¬AllOrNothing (oneSteamGame "Cash $(Grab") false ⟨[], [], none⟩ := by
  have huser : (oneSteamGame "Cash $(Grab").parseApps = some { env := [], ids := [] } :=
    parseApps_gamesOnly (by simp)
  have hopen : ¬Expandable "Cash $(Grab" := by
    simp [Expandable, closed, findMatch, openBrackets]
  have hmerged : (oneSteamGame "Cash $(Grab").merged { env := [], ids := [] } = none := by
    rw [← Option.not_isSome_iff_eq_none, merged_isSome_iff]
    intro h
    have hentry := h (gameNode "Cash $(Grab") (by simp [oneSteamGame, Sources.autoNodes, children,
      Ptree.find?]) "Cash $(Grab" rfl (by decide)
    exact hopen (hentry.1 _ (by simp [autoTexts]))
  rintro ⟨s', hreturned, -⟩
  simp [refresh, huser, hmerged] at hreturned

end LuminalShine.Process.AppFiles
