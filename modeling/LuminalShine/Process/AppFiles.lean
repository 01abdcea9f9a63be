import LuminalShine.ClientStore.Format
import LuminalShine.Lib.Run
import LuminalShine.Process.Launch

/-!
# The app list and its files

`parse_env_val`, `calculate_app_id`, `parse_document`, `parse_auto_apps`, `merge_app_lists` and
`refresh` of `src/process.cpp`, in the Windows build.  A file is the property tree its text
parses to; the images, and what the file system says about them, are an argument.

`none` is an exception.  `parse_document` catches every one, `parse_auto_apps` none.

Per-app settings that no identifier and no expansion depends on are left out.

## Main definitions

* `Env`, `parseEnvVal` — the environment and the expansion of variables.
* `calculateAppId` — the two identifiers an app may get.
* `addApp`, `parseDocument` — `apps.json`.
* `addAutoApp`, `parseAutoApps` — the catalogues that are synchronised.
* `mergeAppLists`, `refresh` — the merged list, and where it goes.
-/

namespace LuminalShine.Process.AppFiles

open LuminalShine.Lib
open LuminalShine.ClientStore (parseBool)

/-! ## The environment -/

/-- `boost::iequals`. -/
def iequals (a b : String) : Bool := a.toList.map Char.toUpper == b.toList.map Char.toUpper

/-- Names and values, in order.  Names are equal up to case. -/
abbrev Env := List (String × String)

namespace Env

def findEntry (env : Env) (name : String) : Option (String × String) :=
  env.find? fun entry => iequals entry.1 name

def value (env : Env) (name : String) : String := ((env.findEntry name).map Prod.snd).getD ""

/-- `find_or_create`: a name that is looked up is there afterwards. -/
def touch (env : Env) (name : String) : Env :=
  if (env.findEntry name).isSome then env else env ++ [(name, "")]

/-- `env[name] = value`. -/
def assign (env : Env) (name value : String) : Env :=
  match env.findIdx? fun entry => iequals entry.1 name with
  | some i => env.modify i fun entry => (entry.1, value)
  | none => env ++ [(name, value)]

end Env

/-- What reads and extends the environment, and may raise. -/
abbrev Expand := StateT Env Option

/-- The look-up of `parse_env_val`, which prefers the name as it is spelled there. -/
def readVariable (name : String) : Expand String := do
  let env ← get
  let spelled := ((env.findEntry name).map Prod.fst).getD name
  set (env.touch spelled)
  return env.value spelled

/-! ## Expansion -/

/-- How many brackets are open behind a character. -/
def openBrackets (stack : ℕ) (c : Char) : ℕ :=
  if c = '(' then stack + 1 else if c = ')' then stack - 1 else stack

/-- `find_match`: the text up to the bracket that closes the open ones, and the text behind
it. -/
def findMatch : ℕ → List Char → Option (List Char × List Char)
  | _, [] => none
  | stack, c :: cs =>
      if openBrackets stack c = 0 then some ([], cs)
      else (findMatch (openBrackets stack c) cs).map fun found => (c :: found.1, found.2)

theorem length_findMatch {stack : ℕ} {cs name rest : List Char}
    (h : findMatch stack cs = some (name, rest)) : rest.length < cs.length := by
  induction cs generalizing stack name rest with
  | nil => simp [findMatch] at h
  | cons c cs ih =>
      simp only [findMatch] at h
      split at h
      · obtain ⟨rfl, rfl⟩ := Prod.mk.inj (Option.some.inj h)
        simp
      · obtain ⟨found, hfound, heq⟩ := Option.map_eq_some_iff.mp h
        obtain ⟨rfl, rfl⟩ := Prod.mk.inj heq
        have := ih hfound
        simp only [List.length_cons]
        omega

/-- The text before the next dollar sign, and the text from it on. -/
def spanDollar (cs : List Char) : List Char × List Char := cs.span (· ≠ '$')

theorem length_spanDollar (cs : List Char) : (spanDollar cs).2.length ≤ cs.length := by
  rw [spanDollar, List.span_eq_takeWhile_dropWhile]
  exact (List.dropWhile_sublist _).length_le

/-- The loop of `parse_env_val`: `pending` stands between `pos` and `dollar`, the last argument
from `dollar` on. -/
def parseEnvLoop (pending : List Char) : List Char → Expand (List Char)
  | [] => return pending
  | [dollar] => return pending ++ [dollar]
  | _ :: '(' :: body =>
      match _h : findMatch 1 body with
      | none => failure
      | some (name, rest) => do
          let value ← readVariable (String.ofList name)
          let text ← parseEnvLoop (spanDollar rest).1 (spanDollar rest).2
          return pending ++ value.toList ++ text
  | _ :: '$' :: rest => do
      let text ← parseEnvLoop (spanDollar rest).1 (spanDollar rest).2
      return pending ++ '$' :: text
  | dollar :: next =>
      parseEnvLoop (pending ++ dollar :: (spanDollar next).1) (spanDollar next).2
  termination_by rest => rest.length
  decreasing_by
    · have := length_findMatch _h
      have := length_spanDollar rest
      simp only [List.length_cons]
      omega
    · have := length_spanDollar rest
      simp only [List.length_cons]
      omega
    · have := length_spanDollar next
      simp only [List.length_cons]
      omega

/-- `parse_env_val`. -/
def parseEnvVal (text : String) : Expand String := do
  let expanded ← parseEnvLoop (spanDollar text.toList).1 (spanDollar text.toList).2
  return String.ofList expanded

/-! ## Identifiers -/

/-- What the file system says about images; `none` is an exception. -/
structure Images where
  assetsDir : String
  lowerExtension : String → Option String
  /-- The path behind the assets directory, which an absolute one replaces. -/
  joinAssets : String → String
  inAssets : String → Option Bool
  pathExists : String → Bool
  checkValidPng : String → Bool
  calculateSha256 : String → Option String

namespace Images

def defaultImage (images : Images) : String := images.assetsDir ++ "/box.png"

/-- `validate_app_image_path`. -/
def validateAppImagePath (images : Images) (path : String) : Option String := do
  if path = "" then return images.defaultImage
  if (← images.lowerExtension path) ≠ ".png" then return images.defaultImage
  if ← images.inAssets path then
    let full := images.joinAssets path
    return if images.checkValidPng full then full else images.defaultImage
  if path = "./assets/steam.png" then return images.assetsDir ++ "/steam.png"
  if images.pathExists path && images.checkValidPng path then return path
  return images.defaultImage

end Images

def crcBit (crc : UInt32) : UInt32 :=
  if crc &&& 1 = 1 then (crc >>> 1) ^^^ 0xEDB88320 else crc >>> 1

def crcByte (crc : UInt32) (byte : UInt8) : UInt32 := Nat.repeat crcBit 8 (crc ^^^ byte.toUInt32)

/-- `calculate_crc32`. -/
def calculateCrc32 (input : String) : UInt32 :=
  input.toUTF8.toList.foldl crcByte 0xFFFFFFFF ^^^ 0xFFFFFFFF

/-- The text of an identifier: `abs` leaves the least integer as it is. -/
def idText (crc : UInt32) : String := toString crc.toInt32.abs.toInt

/-- `calculate_app_id`: without the index, and with it. -/
def calculateAppId (images : Images) (appName imagePath : String) (index : ℕ) :
    Option (String × String) := do
  let path ← images.validateAppImagePath imagePath
  let hashed := if path = images.defaultImage then appName
    else appName ++ (images.calculateSha256 path).getD path
  return (idText (calculateCrc32 hashed), idText (calculateCrc32 (hashed ++ toString index)))

/-! ## Reading an app -/

/-- `ctx_t`. -/
structure Ctx extends App where
  name : String := ""
  workingDir : String := ""
  output : String := ""
  imagePath : String := ""
  deriving DecidableEq, Repr

/-- `get_optional<std::string>`. -/
def optionalText (node : Ptree) (key : String) : Option String := (node.find? key).map Ptree.data

/-- `get_optional<bool>`. -/
def optionalBool (node : Ptree) (key : String) : Option Bool :=
  (optionalText node key).bind parseBool

def expandOptional (node : Ptree) (key : String) : Expand String :=
  match optionalText node key with
  | some text => parseEnvVal text
  | none => return ""

/-- Quotes do not belong into a directory. -/
def eraseQuotes (text : String) : String := String.ofList (text.toList.filter (· ≠ '"'))

/-- Expand the texts of a list in order. -/
def expandAll : List String → Expand (List String)
  | [] => return []
  | text :: texts => do
      let expanded ← parseEnvVal text
      let rest ← expandAll texts
      return expanded :: rest

def children (node : Ptree) (key : String) : List Ptree :=
  ((node.find? key).map fun list => list.children.map Prod.snd).getD []

/-- The two commands of each entry, one after the other. -/
def expandCmds : List (String × String) → Expand (List Cmd)
  | [] => return []
  | (doCmd, undoCmd) :: cmds => do
      let doCmd ← parseEnvVal doCmd
      let undoCmd ← parseEnvVal undoCmd
      let rest ← expandCmds cmds
      return ⟨doCmd, undoCmd⟩ :: rest

def prepTexts (node : Ptree) : List (String × String) :=
  (children node "prep-cmd").map fun prep =>
    ((optionalText prep "do").getD "", (optionalText prep "undo").getD "")

/-- An entry of `apps.json`, up to its identifier.  A missing name raises. -/
def readApp (globalPrep : List (String × String)) (node : Ptree) : Expand Ctx := do
  let text ← (optionalText node "name" : Option String)
  let name ← parseEnvVal text
  let globalCmds ← expandCmds
    (if (optionalBool node "exclude-global-prep-cmd").getD false then [] else globalPrep)
  let appCmds ← expandCmds (prepTexts node)
  let detached ← expandAll ((children node "detached").map Ptree.data)
  let output ← expandOptional node "output"
  let cmd ← expandOptional node "cmd"
  let workingDir ← expandOptional node "working-dir"
  let imagePath ← expandOptional node "image-path"
  let playniteId ← expandOptional node "playnite-id"
  return {
    name, output, cmd, imagePath, detached, playniteId
    workingDir := eraseQuotes workingDir
    prepCmds := globalCmds ++ appCmds
    playniteFullscreen := (optionalBool node "playnite-fullscreen").getD false
    autoDetach := (optionalBool node "auto-detach").getD true
    waitAll := (optionalBool node "wait-all").getD true }

/-- An entry of a catalogue, up to its identifier. -/
def readAutoApp (nameText : String) (node : Ptree) : Expand Ctx := do
  let name ← parseEnvVal nameText
  let cmd ← expandOptional node "cmd"
  let workingDir ← expandOptional node "working-dir"
  let imagePath ← expandOptional node "image-path"
  let output ← expandOptional node "output"
  let detached ← expandAll ((children node "detached").map Ptree.data)
  return {
    name, cmd, imagePath, output, detached
    workingDir := eraseQuotes workingDir
    autoDetach := (optionalBool node "auto-detach").getD true
    waitAll := (optionalBool node "wait-all").getD true }

/-! ## Reading the files -/

/-- The loop over the entries of a file.  `ids` are those that were given out, the last one
first. -/
structure Loading where
  env : Env
  ids : List String
  index : ℕ := 0
  apps : List Ctx := []

/-- The identifier an app gets. -/
def chooseId (ids : List String) (possible : String × String) : String :=
  if possible.1 ∈ ids then possible.2 else possible.1

/-- The app gets an identifier and joins the list. -/
def Loading.add (s : Loading) (ctx : Ctx) (possible : String × String) (env : Env) : Loading where
  env := env
  ids := chooseId s.ids possible :: s.ids
  index := s.index + 1
  apps := s.apps ++ [{ ctx with id := chooseId s.ids possible }]

section

variable (images : Images)

/-- One entry of `apps.json`. -/
def addApp (globalPrep : List (String × String)) (s : Loading) (node : Ptree) :
    Option Loading := do
  let (ctx, env) ← (readApp globalPrep node).run s.env
  let possible ← calculateAppId images ctx.name ctx.imagePath s.index
  return s.add ctx possible env

/-- One entry of a catalogue; it is skipped if it has no name. -/
def addAutoApp (idPrefix : String) (s : Loading) (node : Ptree) : Option Loading :=
  match optionalText node "name" with
  | none | some "" => some { s with index := s.index + 1 }
  | some nameText => do
      let (ctx, env) ← (readAutoApp nameText node).run s.env
      let possible ← calculateAppId images (idPrefix ++ ctx.name) ctx.imagePath s.index
      return s.add ctx possible env

end

def isValidEnvKey (name : String) : Bool := name ≠ "" && '=' ∉ name.toList

/-- The variables of `apps.json`, in order. -/
def expandEnv : List (String × Ptree) → Env → Option Env
  | [], env => some env
  | (name, val) :: vars, env =>
      if isValidEnvKey name then do
        let (text, env) ← (parseEnvVal val.data).run env
        expandEnv vars (env.assign name text)
      else expandEnv vars env

/-- What the files and the process give a load.  `appsJson` is what `apps.json` parses to,
after the settings of old versions are migrated; it is absent when the file fails its
integrity check, cannot be opened or is no JSON.  A catalogue is absent when it is switched off,
empty, missing or no JSON. -/
structure Sources where
  images : Images
  processEnv : Env
  globalPrep : List (String × String)
  appsJson : Option Ptree
  steamApps : Option Ptree
  nonsgApps : Option Ptree

namespace Sources

variable (src : Sources)

/-- What the loop of `parse_document` starts with, and its entries. -/
def appEntries : Option (Loading × List Ptree) := do
  let tree ← src.appsJson
  let apps ← tree.find? "apps"
  let vars ← tree.find? "env"
  let env ← expandEnv vars.children src.processEnv
  return ({ env, ids := [] }, apps.children.map Prod.snd)

/-- The body of `parse_document`. -/
def parseApps : Option Loading := do
  let (start, nodes) ← src.appEntries
  run (addApp src.images src.globalPrep) start nodes

/-- The entries of a catalogue. -/
def autoNodes (catalogue : Option Ptree) : List Ptree :=
  (catalogue.map fun tree => children tree "apps").getD []

/-- `parse_auto_apps`. -/
def parseAutoApps (idPrefix : String) (catalogue : Option Ptree) (env : Env)
    (ids : List String) : Option Loading :=
  run (addAutoApp src.images idPrefix) { env, ids } (autoNodes catalogue)

/-- The three lists, each read with the environment and the identifiers of the one before. -/
def parseCatalogues (user : Loading) : Option (Loading × Loading) := do
  let steam ← src.parseAutoApps "steam:" src.steamApps user.env user.ids
  let nonsg ← src.parseAutoApps "nonsg:" src.nonsgApps steam.env steam.ids
  return (steam, nonsg)

end Sources

/-! ## The merged list -/

/-- The first app of that name, and the others. -/
def takeNamed (name : String) (apps : List Ctx) : List Ctx × List Ctx :=
  match apps.find? fun app => iequals app.name name with
  | some app => ([app], apps.eraseP fun app => iequals app.name name)
  | none => ([], apps)

/-- `merge_app_lists`: the desktop, Steam, and the others in their order. -/
def mergeAppLists (apps steam nonsg : List Ctx) : List Ctx :=
  let desktop := takeNamed "Desktop" apps
  let steamApp := takeNamed "Steam" desktop.2
  desktop.1 ++ steamApp.1 ++ steamApp.2 ++ steam ++ nonsg

/-- The list and the environment that the three files make; `none` if a catalogue raises. -/
def Sources.merged (src : Sources) (user : Loading) : Option (List Ctx × Env) := do
  let (steam, nonsg) ← src.parseCatalogues user
  return (mergeAppLists user.apps steam.apps nonsg.apps, nonsg.env)

/-- The fields of `proc_t` that `refresh` is about. -/
structure Store where
  apps : List Ctx
  env : Env
  pendingEnv : Option Env
  deriving DecidableEq

/-- The environment of the next launch. -/
def Store.nextEnv (s : Store) : Env := s.pendingEnv.getD s.env

/-- The end of a refresh: while an app runs, its environment stays. -/
def Store.replace (s : Store) (active : Bool) (apps : List Ctx) (env : Env) : Store :=
  if active then { s with apps, pendingEnv := some env } else ⟨apps, env, none⟩

/-- How a call ends; both carry what is there afterwards. -/
inductive Ended where
  | returned (s : Store)
  | raised (s : Store)
  deriving DecidableEq

def Ended.store : Ended → Store
  | .returned s | .raised s => s

/-- `refresh`; `active` says that an app is running. -/
def refresh (src : Sources) (active : Bool) (s : Store) : Ended :=
  match src.parseApps with
  | none => .returned s
  | some user =>
      match src.merged user with
      | none => .raised s
      | some (apps, env) => .returned (s.replace active apps env)

end LuminalShine.Process.AppFiles
