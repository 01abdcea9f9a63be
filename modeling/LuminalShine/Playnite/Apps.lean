import LuminalShine.Playnite.Games

/-!
# Reconciling the apps

The second half of `autosync_reconcile` of `src/platform/windows/playnite_sync.cpp`.  It goes
over the list of apps five times: uuids, duplicates, matching, purge, and the games no app
matched.

An app is a JSON object; the members the code touches are fields, the others are kept as they
are.  An element of the list that is `null` becomes an object with its first member and is
taken as the object without members; any other element passes through.  Random uuids, the
clock and the covers on disk are parameters.

## Main definitions

* `App`, `Entry` — the list's elements.
* `ensureAll`, `dedupe`, `updateAll`, `purge`, `addMissing` — the five passes.
* `autosyncReconcile` — their composition.
-/

namespace LuminalShine.Playnite

open LuminalShine.Lib

/-! ## Apps -/

inductive Value where
  | null
  | string (s : String)
  | other (dump : String)
  deriving DecidableEq, Repr

/-- `get<std::string>()` of a member that is a string. -/
def asString : Option Value → Option String
  | some (.string s) => some s
  | _ => none

structure App where
  uuid : Option Value
  name : Option Value
  cmd : Option Value
  workingDir : Option Value
  imagePath : Option Value
  playniteId : Option Value
  pluginId : Option Value
  pluginName : Option Value
  source : Option Value
  managed : Option Value
  addedAt : Option Value
  exitTimeout : Option Value
  rest : List (String × Value)
  deriving DecidableEq, Repr

/-- `nlohmann::json::object()` -/
def App.empty : App :=
  ⟨none, none, none, none, none, none, none, none, none, none, none, none, []⟩

inductive Entry where
  | object (app : App)
  | other (dump : String)
  deriving DecidableEq, Repr

/-- The clock, the covers and the uuids; `generate n` is what the `n`-th place of the list
would be given. -/
structure Host where
  clock : Clock
  cover : Game → Option String
  generate : ℕ → String
  generate_ne : ∀ n, generate n ≠ ""

/-- `app["playnite-managed"] == "auto"` -/
def Entry.isAuto : Entry → Bool
  | .object app => asString app.managed = some "auto"
  | .other _ => false

/-- The id of an app, empty when there is none. -/
def App.pid (app : App) : String := (asString app.playniteId).getD ""

/-- The key under which an auto-managed app with an id counts. -/
def Entry.autoKey : Entry → Option String
  | .object app =>
      if asString app.managed = some "auto" ∧ app.pid ≠ "" then some (playniteIdKey app.pid)
      else none
  | .other _ => none

/-! ## Uuids -/

/-- No uuid, a null one or an empty one. -/
def missingUuid : Option Value → Bool
  | none => true
  | some .null => true
  | some (.string s) => s = ""
  | some (.other _) => false

/-- `ensure_app_uuid`, with its flag. -/
def ensureAppUuid (fresh : String) (app : App) : App × Bool :=
  if app.pid ≠ "" then
    if app.uuid = some (.string (canonicalPlayniteAppUuid app.pid)) then (app, false)
    else ({ app with uuid := some (.string (canonicalPlayniteAppUuid app.pid)) }, true)
  else if missingUuid app.uuid then ({ app with uuid := some (.string fresh) }, true)
  else (app, false)

def ensureEntry (fresh : String) : Entry → Entry × Bool
  | .object app => (.object (ensureAppUuid fresh app).1, (ensureAppUuid fresh app).2)
  | .other dump => (.other dump, false)

/-- The loop over the apps, from place `n` on. -/
def ensureAll (generate : ℕ → String) : ℕ → List Entry → List Entry
  | _, [] => []
  | n, entry :: entries => (ensureEntry (generate n) entry).1 :: ensureAll generate (n + 1) entries

def ensureAllChanges (generate : ℕ → String) : ℕ → List Entry → Bool
  | _, [] => false
  | n, entry :: entries =>
      (ensureEntry (generate n) entry).2 || ensureAllChanges generate (n + 1) entries

/-! ## Duplicates -/

/-- `dedupe_auto_apps_by_playnite_id`; `seen` is `seen_auto_ids`. -/
def dedupe (seen : List String) : List Entry → List Entry
  | [] => []
  | entry :: entries =>
      match entry.autoKey with
      | none => entry :: dedupe seen entries
      | some key =>
          if seen.contains key then dedupe seen entries
          else entry :: dedupe (key :: seen) entries

/-! ## Matching -/

/-- `match_app_against_indexes` -/
def matchAppAgainstIndexes (idx : GameIndexes) (app : App) : Option Game :=
  ((asString app.playniteId).bind fun s => idx.byId.lookup (playniteIdKey s)).or
    (((asString app.cmd).bind fun s => idx.byExe.lookup (extractCmdExecutableForMatch s)).or
      (((asString app.workingDir).bind fun s => idx.byDir.lookup (normalizePathForMatch s)).or
        ((asString app.name).bind fun s => idx.byUniqueName.lookup (normalizeNameForMatch s))))

def matchEntry (idx : GameIndexes) : Entry → Option Game
  | .object app => matchAppAgainstIndexes idx app
  | .other _ => none

/-- A text that is not empty. -/
def nonempty (s : String) : Option Value := if s = "" then none else some (.string s)

/-- `apply_game_metadata_to_app`; `cover` is the converted box art, if there is one. -/
def applyGameMetadataToApp (cover : Game → Option String) (g : Game) (app : App) : App :=
  { app with
    name := (nonempty g.name).or app.name
    imagePath :=
      ((if g.boxArtPath = "" then none else cover g).map Value.string).or app.imagePath
    playniteId := some (.string g.id)
    cmd := none
    workingDir := none
    pluginId := nonempty g.pluginId
    pluginName := nonempty g.pluginName }

/-- `mark_app_as_playnite_auto` -/
def markAppAsPlayniteAuto (flags : SourceFlags) (app : App) : App :=
  { app with
    source := some (.string (composeSourceLabel flags))
    managed := some (.string "auto") }

/-- What an app becomes that matches `g`. -/
def updateApp (host : Host) (sel : Selections) (g : Game) (app : App) : App :=
  markAppAsPlayniteAuto (sourceFlags sel g.key) (applyGameMetadataToApp host.cover g app)

def updateEntry (host : Host) (sel : Selections) (idx : GameIndexes) : Entry → Entry
  | .object app =>
      match matchAppAgainstIndexes idx app with
      | none => .object app
      | some g => .object (updateApp host sel g app)
  | .other dump => .other dump

/-- `iterate_existing_apps`; an app is matched after its uuid is ensured once more. -/
def updateAll (host : Host) (sel : Selections) (idx : GameIndexes) (entries : List Entry) :
    List Entry :=
  (ensureAll host.generate 0 entries).map (updateEntry host sel idx)

def matchedGames (host : Host) (idx : GameIndexes) (entries : List Entry) : List Game :=
  (ensureAll host.generate 0 entries).filterMap (matchEntry idx)

/-! ## Purging -/

/-- `build_last_played_map` -/
def buildLastPlayedMap (clock : Clock) (installed : List Game) : AList fun _ : String => ℤ :=
  installed.foldl (fun map g =>
    if g.id ≠ "" then
      match parseIso8601Utc clock.mkgmtime g.lastPlayed with
      | some t => map.insert g.key t
      | none => map
    else map) ∅

/-- `should_ttl_delete` -/
def shouldTtlDelete (clock : Clock) (opts : Options) (lastPlayed : AList fun _ : String => ℤ)
    (app : App) : Bool :=
  if opts.deleteAfterDays ≤ 0 then false
  else
    let added := ((asString app.addedAt).bind (parseIso8601Utc clock.mkgmtime)).getD clock.now
    let played := (lastPlayed.lookup (playniteIdKey app.pid)).any (added ≤ ·)
    decide (added + opts.deleteAfterDays * 86400 ≤ clock.now) && !played

/-- The rules of uninstalled games and of the time to live. -/
def expires (clock : Clock) (opts : Options) (games : List Game) (app : App) : Bool :=
  (opts.removeUninstalled && (uninstalledLower games).contains (playniteIdKey app.pid)) ||
    shouldTtlDelete clock opts (buildLastPlayedMap clock (installedGames games)) app

/-- `current_auto_ids`, `count_replacements_available` -/
def countReplacementsAvailable (entries : List Entry) (selected : List Game) : ℕ :=
  selected.countP fun g => !(entries.filterMap Entry.autoKey).contains g.key

/-- The rule of an app that is no longer selected. -/
def installedOnly (opts : Options) (app : App) : Bool :=
  !opts.syncAllInstalled && asString app.source = some "installed"

/-- The loop of `purge_uninstalled_and_ttl`; `repl` counts the replacements left. -/
def purgeLoop (clock : Clock) (opts : Options) (games selected : List Game) :
    ℕ → List Entry → List Entry
  | _, [] => []
  | repl, .other dump :: entries => .other dump :: purgeLoop clock opts games selected repl entries
  | repl, .object app :: entries =>
      match (Entry.object app).autoKey with
      | none => .object app :: purgeLoop clock opts games selected repl entries
      | some key =>
          if expires clock opts games app then purgeLoop clock opts games selected repl entries
          else if selected.any (·.key = key) then
            .object app :: purgeLoop clock opts games selected repl entries
          else if installedOnly opts app then purgeLoop clock opts games selected repl entries
          else if 0 < opts.recentN ∧ opts.requireRepl ∧ 0 < repl then
            purgeLoop clock opts games selected (repl - 1) entries
          else .object app :: purgeLoop clock opts games selected repl entries

/-- `purge_uninstalled_and_ttl` -/
def purge (clock : Clock) (opts : Options) (games selected : List Game) (entries : List Entry) :
    List Entry :=
  purgeLoop clock opts games selected (countReplacementsAvailable entries selected) entries

/-! ## Adding -/

/-- The app of a game that none matches. -/
def newApp (host : Host) (sel : Selections) (g : Game) : App :=
  { markAppAsPlayniteAuto (sourceFlags sel g.key)
      (ensureAppUuid (host.generate 0) (applyGameMetadataToApp host.cover g .empty)).1 with
    addedAt := some (.string host.clock.nowIso8601Utc)
    exitTimeout := some (.other "10") }

/-- `add_missing_auto_entries` -/
def addMissing (host : Host) (sel : Selections) (selected matched : List Game) : List Entry :=
  (selected.filter fun g => !matched.any (·.key = g.key)).map fun g => .object (newApp host sel g)

/-! ## All of it -/

/-- The apps after the run, the old ones first, and the two outputs beside them. -/
structure Reconciled where
  kept : List Entry
  added : List Entry
  changed : Bool
  matched : ℕ

def Reconciled.apps (r : Reconciled) : List Entry := r.kept ++ r.added

/-- The apps that are matched: with their uuids, and without duplicates. -/
def dedupedApps (host : Host) (apps : List Entry) : List Entry :=
  dedupe [] (ensureAll host.generate 0 apps)

/-- `autosync_reconcile` on `root["apps"]`. -/
def autosyncReconcile (host : Host) (orders : Orders) (opts : Options) (games : List Game)
    (apps : List Entry) : Reconciled :=
  let ensured := ensureAll host.generate 0 apps
  let deduped := dedupe [] ensured
  let sel := selections host.clock orders opts games
  let selected := selectedGames host.clock orders opts games
  let idx := buildGameIndexes selected
  let matched := matchedGames host idx deduped
  let updated := updateAll host sel idx deduped
  let kept := purge host.clock opts games selected updated
  let added := addMissing host sel selected matched
  { kept, added
    changed := ensureAllChanges host.generate 0 apps || deduped.length != ensured.length ||
      ensureAllChanges host.generate 0 deduped || !matched.isEmpty ||
      kept.length != updated.length || !added.isEmpty
    matched := matched.length }

end LuminalShine.Playnite
