import LuminalShine.Lib.Assoc
import Mathlib.Data.List.Induction
import Mathlib.Data.List.Perm.Basic
import Mathlib.Data.Int.Notation

/-!
# The games of a Playnite library

The first half of `autosync_reconcile` of `src/platform/windows/playnite_sync.cpp`: which
games are selected, and the indexes by which an app is matched against them.

The selected games come out of an `unordered_map` in an order of their own, and the recent
ones out of an unstable sort; both are parameters.  Indexes by executable and by directory
keep the last game of a key, the index by name none of those that share one.

## Main definitions

* `Game`, `Options`, `Orders` — the inputs.
* `selectRecentInstalledGames` and its siblings, `mergeById`, `selectedGames`.
* `GameIndexes`, `buildGameIndexes` — the four maps.

## Main results

* `mem_selectedGames` — a selected game is installed, not excluded and matched by a source.
* `exists_selectedGames` — every id that a source matched is selected.
* `lookup_foldl_indexBy`, `lookup_byUniqueName` — what the maps have.
-/

namespace LuminalShine.Playnite

open LuminalShine.Lib

/-! ## Texts -/

def toLowerCopy (s : String) : String := s.map Char.toLower

/-- `playnite_id_key` -/
def playniteIdKey (playniteId : String) : String := toLowerCopy playniteId

/-- `canonical_playnite_app_uuid` -/
def canonicalPlayniteAppUuid (playniteId : String) : String := playniteId.map Char.toUpper

/-- `std::isspace` -/
def isSpace (c : Char) : Bool := c = ' ' || ('\t' ≤ c && c ≤ '\r')

def normalizePathForMatch (p : String) : String :=
  String.ofList ((p.toList.filter (· ≠ '"')).map fun c =>
    (if c = '/' then '\\' else c).toLower)

/-- The loop of `normalize_name_for_match`; `started` says that `out` is not empty. -/
def normalizeNameLoop (started previousWasSpace : Bool) : List Char → List Char
  | [] => []
  | ch :: rest =>
      if isSpace ch then normalizeNameLoop started (previousWasSpace || started) rest
      else
        (if previousWasSpace && started then [' '] else []) ++
          ch.toLower :: normalizeNameLoop true false rest

def normalizeNameForMatch (s : String) : String :=
  String.ofList (normalizeNameLoop false false s.toList)

def isBlank (c : Char) : Bool := c = ' ' || c = '\t'

def extractCmdExecutableForMatch (cmd : String) : String :=
  match cmd.toList.dropWhile isBlank with
  | [] => ""
  | '"' :: rest => normalizePathForMatch (String.ofList (rest.takeWhile (· ≠ '"')))
  | exe => normalizePathForMatch (String.ofList (exe.takeWhile (!isBlank ·)))

/-! ## Times -/

/-- The lambda `rd` of `parse_iso8601_utc`. -/
def readDigits : ℕ → ℕ → List Char → Option (ℕ × List Char)
  | 0, v, text => some (v, text)
  | n + 1, v, c :: text =>
      if '0' ≤ c && c ≤ '9' then readDigits n (v * 10 + (c.toNat - '0'.toNat)) text else none
  | _ + 1, _, [] => none

def expectChar (c : Char) : List Char → Option (List Char)
  | [] => none
  | c' :: text => if c' = c then some text else none

/-- The offset of a time zone, in seconds. -/
def readOffset (sign : ℤ) (text : List Char) : Option ℤ := do
  let (oh, text) ← readDigits 2 0 text
  let text ← expectChar ':' text
  let (om, _) ← readDigits 2 0 text
  return (oh * 3600 + om * 60) * sign

/-- `parse_iso8601_utc`; `mkgmtime` is `_mkgmtime`, from the year to the second. -/
def parseIso8601Utc (mkgmtime : ℕ → ℕ → ℕ → ℕ → ℕ → ℕ → Option ℤ) (s : String) : Option ℤ := do
  let (y, text) ← readDigits 4 0 s.toList
  let text ← expectChar '-' text
  let (mo, text) ← readDigits 2 0 text
  let text ← expectChar '-' text
  let (d, text) ← readDigits 2 0 text
  let text ← match text with
    | 'T' :: text | 't' :: text | ' ' :: text => some text
    | _ => none
  let (h, text) ← readDigits 2 0 text
  let text ← expectChar ':' text
  let (mi, text) ← readDigits 2 0 text
  let text ← expectChar ':' text
  let (sec, text) ← readDigits 2 0 text
  let text := match text with
    | '.' :: text => text.dropWhile Char.isDigit
    | text => text
  let offset ← match text with
    | '+' :: text => readOffset 1 text
    | '-' :: text => readOffset (-1) text
    | _ => some 0
  let t ← mkgmtime y mo d h mi sec
  return t - offset

/-! ## Inputs -/

/-- The fields of a game that are read here. -/
structure Game where
  id : String
  name : String
  exe : String
  workingDir : String
  categories : List String
  pluginId : String
  pluginName : String
  lastPlayed : String
  boxArtPath : String
  installed : Bool
  deriving DecidableEq, Repr

structure Options where
  recentN : ℤ
  recentAgeDays : ℤ
  deleteAfterDays : ℤ
  requireRepl : Bool
  syncAllInstalled : Bool
  removeUninstalled : Bool
  categories : List String
  includePlugins : List String
  excludeCategories : List String
  excludeIds : List String
  excludePlugins : List String

/-- The clock at the time of the run; its text is read back as the time. -/
structure Clock where
  mkgmtime : ℕ → ℕ → ℕ → ℕ → ℕ → ℕ → Option ℤ
  now : ℤ
  nowIso8601Utc : String
  parse_now : parseIso8601Utc mkgmtime nowIso8601Utc = some now

/-- What `std::sort` makes of the games, the most recent first, and the order in which the
map of the selected games is walked. -/
structure Orders where
  sort : List Game → List Game
  walk : List Game → List Game
  sort_perm : ∀ games, (sort games).Perm games
  sort_sorted : ∀ games, (sort games).Pairwise fun a b => ¬ a.lastPlayed < b.lastPlayed
  walk_perm : ∀ games, (walk games).Perm games

/-- The key of a game. -/
def Game.key (g : Game) : String := playniteIdKey g.id

/-! ## Selection -/

/-- The lowered names of a set that drops the empty one. -/
def lowerNonempty (names : List String) : List String :=
  (names.map toLowerCopy).filter (· ≠ "")

def gameHasExcludedCategory (opts : Options) (g : Game) : Bool :=
  g.categories.any fun cn => (lowerNonempty opts.excludeCategories).contains (toLowerCopy cn)

def gameFromExcludedPlugin (opts : Options) (g : Game) : Bool :=
  g.pluginId ≠ "" && (lowerNonempty opts.excludePlugins).contains (toLowerCopy g.pluginId)

/-- The three tests every selection begins with. -/
def excluded (opts : Options) (g : Game) : Bool :=
  (g.key ≠ "" && (opts.excludeIds.map toLowerCopy).contains g.key) ||
    gameHasExcludedCategory opts g || gameFromExcludedPlugin opts g

/-- The test of the age. -/
def recentEnough (clock : Clock) (opts : Options) (g : Game) : Bool :=
  if 0 < opts.recentAgeDays then
    match parseIso8601Utc clock.mkgmtime g.lastPlayed with
    | none => false
    | some tp => clock.now - opts.recentAgeDays * 86400 ≤ tp
  else true

/-- The loop of `select_recent_installed_games` over the sorted games. -/
def recentLoop (clock : Clock) (opts : Options) : ℕ → List Game → List Game
  | 0, _ => []
  | _ + 1, [] => []
  | n + 1, g :: games =>
      if !excluded opts g && recentEnough clock opts g then g :: recentLoop clock opts n games
      else recentLoop clock opts (n + 1) games

def selectRecentInstalledGames (clock : Clock) (orders : Orders) (opts : Options)
    (installed : List Game) : List Game :=
  if 0 < opts.recentN then recentLoop clock opts opts.recentN.toNat (orders.sort installed)
  else []

def selectCategoryGames (opts : Options) (installed : List Game) : List Game :=
  installed.filter fun g => !excluded opts g &&
    g.categories.any fun cn => (opts.categories.map toLowerCopy).contains (toLowerCopy cn)

def selectPluginGames (opts : Options) (installed : List Game) : List Game :=
  installed.filter fun g => !excluded opts g && g.pluginId ≠ "" &&
    (lowerNonempty opts.includePlugins).contains (toLowerCopy g.pluginId)

def selectAllInstalledGames (opts : Options) (installed : List Game) : List Game :=
  if opts.syncAllInstalled then installed.filter fun g => !excluded opts g else []

/-- `snapshot_installed_and_uninstalled` -/
def installedGames (games : List Game) : List Game := games.filter (·.installed)

def uninstalledLower (games : List Game) : List String :=
  (games.filter fun g => !g.installed && g.id ≠ "").map Game.key

/-- `source_flags`, by the bits of one id. -/
structure SourceFlags where
  recent : Bool
  category : Bool
  plugin : Bool
  installed : Bool
  deriving DecidableEq, Repr

/-- The four selections. -/
structure Selections where
  recent : List Game
  category : List Game
  plugin : List Game
  all : List Game

def selections (clock : Clock) (orders : Orders) (opts : Options) (games : List Game) :
    Selections where
  recent := selectRecentInstalledGames clock orders opts (installedGames games)
  category := selectCategoryGames opts (installedGames games)
  plugin := selectPluginGames opts (installedGames games)
  all := selectAllInstalledGames opts (installedGames games)

def sourceFlags (sel : Selections) (key : String) : SourceFlags where
  recent := sel.recent.any (·.key = key)
  category := sel.category.any (·.key = key)
  plugin := sel.plugin.any (·.key = key)
  installed := sel.all.any fun g => g.id ≠ "" && g.key = key

/-- `compose_source_label` -/
def composeSourceLabel (flags : SourceFlags) : String :=
  let parts := (if flags.recent then ["recent"] else []) ++
    (if flags.category then ["category"] else []) ++ (if flags.plugin then ["plugin"] else []) ++
    (if flags.installed then ["installed"] else [])
  if parts = [] then "unknown" else "+".intercalate parts

/-- The games of the map `by_id`, which keeps the first of each key. -/
def mergeById (merged : List Game) : List Game → List Game
  | [] => merged
  | g :: games =>
      if g.id ≠ "" && !merged.any (·.key = g.key) then mergeById (merged ++ [g]) games
      else mergeById merged games

def Selections.merged (sel : Selections) : List Game :=
  mergeById [] (sel.recent ++ sel.category ++ sel.plugin ++ sel.all)

def selectedGames (clock : Clock) (orders : Orders) (opts : Options) (games : List Game) :
    List Game :=
  orders.walk (selections clock orders opts games).merged

/-! ## Indexes -/

/-- A map from texts to games. -/
abbrev GameMap := AList fun _ : String => Game

structure GameIndexes where
  byExe : GameMap
  byDir : GameMap
  byId : GameMap
  byUniqueName : GameMap
  ambiguousNames : List String

/-- `if (…) by_…[…] = GameRef {&g}` -/
def indexBy (present : Game → Bool) (key : Game → String) (map : GameMap) (g : Game) : GameMap :=
  if present g then map.insert (key g) g else map

def Game.exeKey (g : Game) : String := normalizePathForMatch g.exe
def Game.dirKey (g : Game) : String := normalizePathForMatch g.workingDir
def Game.nameKey (g : Game) : String := normalizeNameForMatch g.name

def Game.hasExe (g : Game) : Bool := g.exe ≠ ""
def Game.hasDir (g : Game) : Bool := g.workingDir ≠ ""
def Game.hasId (g : Game) : Bool := g.id ≠ ""

/-- A name that comes up a second time is taken out for good. -/
def indexName (maps : GameMap × List String) (g : Game) : GameMap × List String :=
  if g.nameKey ≠ "" && !maps.2.contains g.nameKey then
    if g.nameKey ∈ maps.1 then (maps.1.erase g.nameKey, g.nameKey :: maps.2)
    else (maps.1.insert g.nameKey g, maps.2)
  else maps

/-- `build_game_indexes` -/
def buildGameIndexes (selected : List Game) : GameIndexes where
  byExe := selected.foldl (indexBy Game.hasExe Game.exeKey) ∅
  byDir := selected.foldl (indexBy Game.hasDir Game.dirKey) ∅
  byId := selected.foldl (indexBy Game.hasId Game.key) ∅
  byUniqueName := (selected.foldl indexName (∅, [])).1
  ambiguousNames := (selected.foldl indexName (∅, [])).2

/-! ## Which games are selected -/

/-- The games a source matched. -/
def Selections.chosen (sel : Selections) : List Game :=
  sel.recent ++ sel.category ++ sel.plugin ++ sel.all

variable {clock : Clock} {orders : Orders} {opts : Options} {games : List Game} {g : Game}

theorem mem_recentLoop {n : ℕ} {sorted : List Game} (h : g ∈ recentLoop clock opts n sorted) :
    g ∈ sorted ∧ excluded opts g = false := by
  induction sorted generalizing n with
  | nil => cases n <;> simp [recentLoop] at h
  | cons g' sorted ih =>
      cases n with
      | zero => simp [recentLoop] at h
      | succ n =>
          simp only [recentLoop] at h
          split at h
          · case isTrue hg' =>
              simp only [Bool.and_eq_true, Bool.not_eq_true'] at hg'
              rcases List.mem_cons.mp h with rfl | h
              · exact ⟨List.mem_cons_self, hg'.1⟩
              · exact ⟨List.mem_cons_of_mem _ (ih h).1, (ih h).2⟩
          · exact ⟨List.mem_cons_of_mem _ (ih h).1, (ih h).2⟩

/-- A chosen game is one of the library's, installed and not excluded. -/
theorem mem_chosen (h : g ∈ (selections clock orders opts games).chosen) :
    g ∈ games ∧ g.installed = true ∧ excluded opts g = false := by
  have hinstalled : ∀ {g}, g ∈ installedGames games → g ∈ games ∧ g.installed = true :=
    fun h => List.mem_filter.mp h
  simp only [Selections.chosen, selections, List.mem_append] at h
  rcases h with ((h | h) | h) | h
  · unfold selectRecentInstalledGames at h
    split at h
    · have hloop := mem_recentLoop h
      exact ⟨(hinstalled ((orders.sort_perm _).mem_iff.mp hloop.1)).1,
        (hinstalled ((orders.sort_perm _).mem_iff.mp hloop.1)).2, hloop.2⟩
    · simp at h
  · have hmem := List.mem_filter.mp h
    exact ⟨(hinstalled hmem.1).1, (hinstalled hmem.1).2, by simp_all⟩
  · have hmem := List.mem_filter.mp h
    exact ⟨(hinstalled hmem.1).1, (hinstalled hmem.1).2, by simp_all⟩
  · unfold selectAllInstalledGames at h
    split at h
    · have hmem := List.mem_filter.mp h
      exact ⟨(hinstalled hmem.1).1, (hinstalled hmem.1).2, by simp_all⟩
    · simp at h

theorem mergeById_nodup {merged : List Game} (chosen : List Game)
    (h : (merged.map Game.key).Nodup) : ((mergeById merged chosen).map Game.key).Nodup := by
  induction chosen generalizing merged with
  | nil => exact h
  | cons g chosen ih =>
      unfold mergeById
      split
      · case isTrue hnew =>
          refine ih ?_
          rw [List.map_append, List.map_singleton, List.nodup_append]
          refine ⟨h, List.nodup_singleton _, ?_⟩
          intro key hkey key' hkey'
          simp only [Bool.and_eq_true, Bool.not_eq_true', List.any_eq_false] at hnew
          obtain ⟨g', hg', rfl⟩ := List.mem_map.mp hkey
          rw [List.mem_singleton.mp hkey']
          simpa using hnew.2 g' hg'
      · exact ih h

theorem mem_mergeById {merged chosen : List Game} (h : g ∈ mergeById merged chosen) :
    g ∈ merged ∨ g ∈ chosen ∧ g.id ≠ "" := by
  induction chosen generalizing merged with
  | nil => exact Or.inl h
  | cons g' chosen ih =>
      unfold mergeById at h
      split at h
      · case isTrue hnew =>
          simp only [Bool.and_eq_true, decide_eq_true_eq] at hnew
          rcases ih h with hmem | ⟨hmem, hid⟩
          · rcases List.mem_append.mp hmem with hmem | hmem
            · exact Or.inl hmem
            · rw [List.mem_singleton] at hmem
              subst hmem
              exact Or.inr ⟨List.mem_cons_self, hnew.1⟩
          · exact Or.inr ⟨List.mem_cons_of_mem _ hmem, hid⟩
      · exact (ih h).imp_right fun hr => ⟨List.mem_cons_of_mem _ hr.1, hr.2⟩

/-- What is merged stays. -/
theorem subset_mergeById (merged chosen : List Game) : merged ⊆ mergeById merged chosen := by
  induction chosen generalizing merged with
  | nil => exact List.Subset.refl _
  | cons g chosen ih =>
      unfold mergeById
      split
      · exact List.Subset.trans (List.subset_append_left _ _) (ih _)
      · exact ih _

/-- Every key that is chosen is merged. -/
theorem exists_mergeById {merged chosen : List Game} (h : g ∈ chosen) (hid : g.id ≠ "") :
    ∃ g' ∈ mergeById merged chosen, g'.key = g.key := by
  induction chosen generalizing merged with
  | nil => cases h
  | cons g' chosen ih =>
      unfold mergeById
      rcases List.mem_cons.mp h with rfl | h
      · split
        · exact ⟨g, subset_mergeById _ _ (List.mem_append_right _ List.mem_cons_self), rfl⟩
        · case isFalse hold =>
            simp only [Bool.and_eq_true, decide_eq_true_eq, hid, ne_eq, not_false_eq_true,
              true_and, Bool.not_eq_true, Bool.not_eq_false', List.any_eq_true] at hold
            obtain ⟨g', hg', hkey⟩ := hold
            exact ⟨g', subset_mergeById _ _ hg', by simpa using hkey⟩
      · split
        · exact ih h
        · exact ih h

/-- **The selected games** are chosen ones with an id, each key once. -/
theorem selectedGames_nodup : ((selectedGames clock orders opts games).map Game.key).Nodup := by
  have hperm := (orders.walk_perm (selections clock orders opts games).merged).map Game.key
  exact hperm.nodup_iff.mpr (mergeById_nodup _ List.nodup_nil)

theorem mem_selectedGames (h : g ∈ selectedGames clock orders opts games) :
    g ∈ (selections clock orders opts games).chosen ∧ g.id ≠ "" := by
  have hmem := (orders.walk_perm _).mem_iff.mp h
  exact (mem_mergeById hmem).resolve_left List.not_mem_nil

theorem exists_selectedGames (h : g ∈ (selections clock orders opts games).chosen)
    (hid : g.id ≠ "") : ∃ g' ∈ selectedGames clock orders opts games, g'.key = g.key := by
  obtain ⟨g', hg', hkey⟩ :
      ∃ g' ∈ (selections clock orders opts games).merged, g'.key = g.key :=
    exists_mergeById h hid
  exact ⟨g', (orders.walk_perm _).mem_iff.mpr hg', hkey⟩

/-! ## What the indexes have -/

/-- The last game of a key wins. -/
theorem lookup_foldl_indexBy (present : Game → Bool) (key : Game → String) (selected : List Game)
    (map : GameMap) (k : String) :
    (selected.foldl (indexBy present key) map).lookup k =
      (selected.reverse.find? fun g => present g && key g = k).or (map.lookup k) := by
  induction selected generalizing map with
  | nil => rfl
  | cons g selected ih =>
      rw [List.foldl_cons, ih, List.reverse_cons, List.find?_append, Option.or_assoc]
      congr 1
      unfold indexBy
      cases hpresent : present g with
      | false => simp [hpresent]
      | true =>
          by_cases hk : k = key g
          · subst hk
            simp [hpresent]
          · simp [hpresent, AList.lookup_insert_ne hk, Ne.symm hk]

theorem lookup_indexBy_mem {present : Game → Bool} {key : Game → String} {selected : List Game}
    {k : String} (h : (selected.foldl (indexBy present key) ∅).lookup k = some g) :
    g ∈ selected ∧ present g = true ∧ key g = k := by
  rw [lookup_foldl_indexBy, AList.lookup_empty, Option.or_none] at h
  have hmem := List.mem_of_find?_eq_some h
  have hkey := List.find?_some h
  simp only [Bool.and_eq_true, decide_eq_true_eq] at hkey
  exact ⟨List.mem_reverse.mp hmem, hkey⟩

/-- A game alone under its key is found. -/
theorem lookup_indexBy_unique {present : Game → Bool} {key : Game → String}
    {selected : List Game} (h : g ∈ selected) (hpresent : present g = true)
    (hunique : ∀ g' ∈ selected, present g' = true → key g' = key g → g' = g) :
    (selected.foldl (indexBy present key) ∅).lookup (key g) = some g := by
  have hsome : (selected.reverse.find? fun g' => present g' && key g' = key g).isSome = true := by
    rw [List.find?_isSome]
    exact ⟨g, List.mem_reverse.mpr h, by simp [hpresent]⟩
  obtain ⟨g', hg'⟩ := Option.isSome_iff_exists.mp hsome
  have hkey := List.find?_some hg'
  simp only [Bool.and_eq_true, decide_eq_true_eq] at hkey
  rw [lookup_foldl_indexBy, hg',
    hunique g' (List.mem_reverse.mp (List.mem_of_find?_eq_some hg')) hkey.1 hkey.2]
  rfl

/-- The games of a name. -/
def named (selected : List Game) (n : String) : List Game := selected.filter (·.nameKey = n)

/-- What the maps of the names have of `n` when `games` are the games of that name. -/
structure NameIndexed (maps : GameMap × List String) (n : String) (games : List Game) : Prop where
  none : games = [] → maps.1.lookup n = none ∧ n ∉ maps.2
  one : ∀ g, games = [g] → maps.1.lookup n = some g ∧ n ∉ maps.2
  more : 2 ≤ games.length → maps.1.lookup n = Option.none ∧ n ∈ maps.2

theorem indexName_of_ne {maps : GameMap × List String} {n : String} (h : n ≠ g.nameKey) :
    (indexName maps g).1.lookup n = maps.1.lookup n ∧
      (n ∈ (indexName maps g).2 ↔ n ∈ maps.2) := by
  unfold indexName
  split
  · split
    · exact ⟨AList.lookup_erase_ne h, by simp [h]⟩
    · exact ⟨AList.lookup_insert_ne h, Iff.rfl⟩
  · exact ⟨rfl, Iff.rfl⟩

theorem NameIndexed.concat {maps : GameMap × List String} {games : List Game}
    (h : NameIndexed maps g.nameKey games) (hname : g.nameKey ≠ "") :
    NameIndexed (indexName maps g) g.nameKey (games ++ [g]) := by
  match games, h with
  | [], h =>
      have hnew : indexName maps g = (maps.1.insert g.nameKey g, maps.2) := by
        have hmem : g.nameKey ∉ maps.1 := AList.lookup_eq_none.mp (h.none rfl).1
        simp [indexName, hname, (h.none rfl).2, hmem]
      rw [hnew]
      refine ⟨by simp, ?_, by simp⟩
      intro g' hg'
      obtain ⟨rfl, -⟩ := List.cons.inj hg'
      exact ⟨by simp, (h.none rfl).2⟩
  | [g'], h =>
      have hmem : g.nameKey ∈ maps.1 := by
        rw [← AList.lookup_isSome, (h.one g' rfl).1]
        rfl
      have hout : indexName maps g = (maps.1.erase g.nameKey, g.nameKey :: maps.2) := by
        simp [indexName, hname, (h.one g' rfl).2, hmem]
      rw [hout]
      exact ⟨by simp, by simp, fun _ => ⟨by simp, List.mem_cons_self⟩⟩
  | g' :: g'' :: games, h =>
      have hmore := h.more (by simp)
      have hsame : indexName maps g = maps := by
        simp [indexName, hmore.2]
      rw [hsame]
      exact ⟨by simp, by simp, fun _ => hmore⟩

theorem nameIndexed (selected : List Game) {n : String} (hn : n ≠ "") :
    NameIndexed (selected.foldl indexName (∅, [])) n (named selected n) := by
  induction selected using List.reverseRecOn with
  | nil => exact ⟨fun _ => ⟨rfl, by simp⟩, by simp [named], by simp [named]⟩
  | append_singleton selected g ih =>
      rw [List.foldl_concat]
      by_cases hname : g.nameKey = n
      · subst hname
        simpa [named] using ih.concat hn
      · have hsame : named (selected ++ [g]) n = named selected n := by
          simp [named, hname]
        obtain ⟨hlookup, hmem⟩ := @indexName_of_ne g (selected.foldl indexName (∅, [])) n
          (Ne.symm hname)
        rw [hsame]
        constructor
        · intro hnone
          rw [hlookup, hmem]
          exact ih.none hnone
        · intro g' hone
          rw [hlookup, hmem]
          exact ih.one g' hone
        · intro hmore
          rw [hlookup, hmem]
          exact ih.more hmore

theorem lookup_indexName_empty (selected : List Game) :
    (selected.foldl indexName (∅, [])).1.lookup "" = none := by
  induction selected using List.reverseRecOn with
  | nil => rfl
  | append_singleton selected g ih =>
      rw [List.foldl_concat]
      by_cases hname : g.nameKey = ""
      · simpa [indexName, hname] using ih
      · rw [(indexName_of_ne (Ne.symm hname)).1, ih]

/-- A name is found when exactly one selected game has it. -/
theorem lookup_byUniqueName (selected : List Game) (n : String) (g : Game) :
    (buildGameIndexes selected).byUniqueName.lookup n = some g ↔
      n ≠ "" ∧ named selected n = [g] := by
  by_cases hn : n = ""
  · subst hn
    simp [buildGameIndexes, lookup_indexName_empty]
  · have h := nameIndexed selected hn
    have hlookup : (buildGameIndexes selected).byUniqueName.lookup n =
        (selected.foldl indexName (∅, [])).1.lookup n := rfl
    rw [hlookup]
    constructor
    · intro hsome
      refine ⟨hn, ?_⟩
      match hnamed : named selected n with
      | [] => simp [(h.none hnamed).1] at hsome
      | [g'] => rw [(h.one g' hnamed).1, Option.some.injEq] at hsome; rw [hsome]
      | g' :: g'' :: games => simp [(h.more (by simp [hnamed])).1] at hsome
    · intro hone
      exact (h.one g hone.2).1

end LuminalShine.Playnite
