import LuminalShine.Lib.Leading
import LuminalShine.Playnite.Rerun

/-!
# The order of the games

When neither the order of the library nor that of the maps shows in the result of
`autosync_reconcile`, but for the order of the apps that are added.  A record that shadows
another of the same id, a tie where the recent games are cut off, and a path that two selected
games share are each decided by that order.

## Main definitions

* `OrderFree` — none of these is there.
* `Reconciled.Same` — the same result.

## Main results

* `autosyncReconcile_same`
-/

namespace LuminalShine.Playnite

open LuminalShine.Lib

/-! ## Statements -/

/-- The recent games from which the first few are taken. -/
def recentCandidates (clock : Clock) (opts : Options) (games : List Game) : List Game :=
  (installedGames games).filter fun g => !excluded opts g && recentEnough clock opts g

/-- The app has the id of the game, its executable or its directory. -/
def sharesId (app : App) (g : Game) : Bool :=
  (asString app.playniteId).any (playniteIdKey · = g.key)

def sharesExe (app : App) (g : Game) : Bool :=
  g.hasExe && (asString app.cmd).any (extractCmdExecutableForMatch · = g.exeKey)

def sharesDir (app : App) (g : Game) : Bool :=
  g.hasDir && (asString app.workingDir).any (normalizePathForMatch · = g.dirKey)

section Statement

variable (host : Host) (orders : Orders) (opts : Options) (games : List Game) (apps : List Entry)

structure OrderFree : Prop where
  /-- The chosen records of one id do not differ. -/
  ids : ∀ g ∈ (runSelections host orders opts games).chosen,
    ∀ g' ∈ (runSelections host orders opts games).chosen, g.id ≠ "" → g.key = g'.key → g = g'
  /-- Nor do the times at which the installed records of one id were played. -/
  played : 0 < opts.deleteAfterDays → ∀ g ∈ installedGames games, ∀ g' ∈ installedGames games,
    g.id ≠ "" → g.key = g'.key → ∀ t t',
      parseIso8601Utc host.clock.mkgmtime g.lastPlayed = some t →
      parseIso8601Utc host.clock.mkgmtime g'.lastPlayed = some t' → t = t'
  /-- No recent game is tied with another across the cut. -/
  recent : 0 < opts.recentN → ∀ g ∈ recentCandidates host.clock opts games, g.id ≠ "" →
    ∀ g' ∈ recentCandidates host.clock opts games, g'.lastPlayed = g.lastPlayed →
      (recentCandidates host.clock opts games).countP (g.lastPlayed < ·.lastPlayed) <
        opts.recentN.toNat →
      opts.recentN.toNat <
        (recentCandidates host.clock opts games).countP (g.lastPlayed ≤ ·.lastPlayed) → g' = g
  /-- An app that goes by its executable finds one game. -/
  exes : ∀ app, .object app ∈ dedupedApps host apps →
    (∀ g ∈ selectedGames host.clock orders opts games, sharesId app g = false) →
    ∀ g ∈ selectedGames host.clock orders opts games,
      ∀ g' ∈ selectedGames host.clock orders opts games,
        sharesExe app g = true → sharesExe app g' = true → g = g'
  /-- An app that goes by its directory finds one game. -/
  dirs : ∀ app, .object app ∈ dedupedApps host apps →
    (∀ g ∈ selectedGames host.clock orders opts games,
      sharesId app g = false ∧ sharesExe app g = false) →
    ∀ g ∈ selectedGames host.clock orders opts games,
      ∀ g' ∈ selectedGames host.clock orders opts games,
        sharesDir app g = true → sharesDir app g' = true → g = g'

end Statement

/-- The same result, but for the order of the apps that are added. -/
structure Reconciled.Same (r r' : Reconciled) : Prop where
  kept : r'.kept = r.kept
  added : r'.added.Perm r.added
  changed : r'.changed = r.changed
  matched : r'.matched = r.matched

/-! ## The same games are selected -/

section Selection

variable {clock : Clock} {orders orders' : Orders} {opts : Options} {games games' : List Game}
  {g : Game}

theorem recentLoop_eq (n : ℕ) (sorted : List Game) : recentLoop clock opts n sorted =
    (sorted.filter fun g => !excluded opts g && recentEnough clock opts g).take n := by
  induction sorted generalizing n with
  | nil => cases n <;> simp [recentLoop]
  | cons g sorted ih =>
      cases n with
      | zero => simp [recentLoop]
      | succ n =>
          unfold recentLoop
          split
          · case isTrue h => rw [List.filter_cons, if_pos h, List.take_succ_cons, ih]
          · case isFalse h => rw [List.filter_cons, if_neg h, ih]

theorem installedGames_perm (h : games'.Perm games) :
    (installedGames games').Perm (installedGames games) := h.filter _

/-- The candidates in the order of the sort. -/
theorem sort_candidates_perm (h : games'.Perm games) :
    ((orders.sort (installedGames games')).filter fun g =>
        !excluded opts g && recentEnough clock opts g).Perm
      (recentCandidates clock opts games) :=
  ((orders.sort_perm _).trans (installedGames_perm h)).filter _

theorem mem_selectRecentInstalledGames (h : games'.Perm games)
    (hties : 0 < opts.recentN → g ∈ recentCandidates clock opts games →
      ∀ g' ∈ recentCandidates clock opts games, g'.lastPlayed = g.lastPlayed →
      (recentCandidates clock opts games).countP (g.lastPlayed < ·.lastPlayed) <
        opts.recentN.toNat →
      opts.recentN.toNat <
        (recentCandidates clock opts games).countP (g.lastPlayed ≤ ·.lastPlayed) → g' = g) :
    g ∈ selectRecentInstalledGames clock orders opts (installedGames games') ↔
      0 < opts.recentN ∧ g ∈ recentCandidates clock opts games ∧
        (recentCandidates clock opts games).countP (g.lastPlayed < ·.lastPlayed) <
          opts.recentN.toNat := by
  have hperm := @sort_candidates_perm clock orders opts games games' h
  unfold selectRecentInstalledGames
  split
  · case isTrue hrecent =>
      rw [recentLoop_eq]
      have hsorted := (orders.sort_sorted (installedGames games')).filter
        fun g => !excluded opts g && recentEnough clock opts g
      by_cases hg : g ∈ recentCandidates clock opts games
      · rw [mem_take_of_sorted hsorted (hperm.mem_iff.mpr hg), hperm.countP_eq]
        · simp [hrecent, hg]
        · intro g' hg' heq
          rw [hperm.countP_eq, hperm.countP_eq]
          exact hties hrecent hg g' (hperm.mem_iff.mp hg') heq
      · simp only [hg, false_and, and_false, iff_false]
        exact fun hmem => hg (hperm.mem_iff.mp (List.mem_of_mem_take hmem))
  · case isFalse hrecent => simp [hrecent]

/-- Two selections have the same games with an id. -/
structure SameGames (sel sel' : Selections) : Prop where
  recent : ∀ g, g.id ≠ "" → (g ∈ sel'.recent ↔ g ∈ sel.recent)
  category : ∀ g, g ∈ sel'.category ↔ g ∈ sel.category
  plugin : ∀ g, g ∈ sel'.plugin ↔ g ∈ sel.plugin
  all : ∀ g, g ∈ sel'.all ↔ g ∈ sel.all

theorem SameGames.mem_chosen {sel sel' : Selections} (h : SameGames sel sel') (hid : g.id ≠ "") :
    g ∈ sel'.chosen ↔ g ∈ sel.chosen := by
  simp only [Selections.chosen, List.mem_append, h.recent g hid, h.category g, h.plugin g,
    h.all g]

theorem key_ne_empty (h : g.id ≠ "") : g.key ≠ "" := by
  simpa [Game.key, playniteIdKey, toLowerCopy] using h

theorem id_ne_empty (h : g.key ≠ "") : g.id ≠ "" := by
  rintro hid
  exact h (by simp [Game.key, playniteIdKey, toLowerCopy, hid])

theorem any_key_congr {games games' : List Game} {key : String} (hkey : key ≠ "")
    (h : ∀ g, g.id ≠ "" → (g ∈ games' ↔ g ∈ games)) :
    games'.any (·.key = key) = games.any (·.key = key) := by
  rw [Bool.eq_iff_iff, List.any_eq_true, List.any_eq_true]
  have hid : ∀ g : Game, decide (g.key = key) = true → g.id ≠ "" := by
    intro g hg
    exact id_ne_empty ((of_decide_eq_true hg).symm ▸ hkey)
  constructor
  · rintro ⟨g, hg, heq⟩
    exact ⟨g, (h g (hid g heq)).mp hg, heq⟩
  · rintro ⟨g, hg, heq⟩
    exact ⟨g, (h g (hid g heq)).mpr hg, heq⟩

theorem SameGames.sourceFlags {sel sel' : Selections} (h : SameGames sel sel') {key : String}
    (hkey : key ≠ "") : sourceFlags sel' key = sourceFlags sel key := by
  have hall : (sel'.all.any fun g => g.id ≠ "" && g.key = key) =
      sel.all.any fun g => g.id ≠ "" && g.key = key := by
    rw [Bool.eq_iff_iff, List.any_eq_true, List.any_eq_true]
    simp only [h.all]
  simp only [LuminalShine.Playnite.sourceFlags, hall, any_key_congr hkey h.recent,
    any_key_congr hkey fun g _ => h.category g, any_key_congr hkey fun g _ => h.plugin g]

end Selection

section Order

variable {host : Host} {orders orders' : Orders} {opts : Options} {games games' : List Game}
  {apps : List Entry} {g : Game}

theorem runSelections_same (h : OrderFree host orders opts games apps)
    (hgames : games'.Perm games) :
    SameGames (runSelections host orders opts games) (runSelections host orders' opts games') where
  recent g hid := by
    have hties := fun hrecent hg => h.recent hrecent g hg hid
    exact (mem_selectRecentInstalledGames hgames hties).trans
      (mem_selectRecentInstalledGames (List.Perm.refl games) hties).symm
  category g := ((installedGames_perm hgames).filter _).mem_iff
  plugin g := ((installedGames_perm hgames).filter _).mem_iff
  all g := by
    simp only [runSelections, selections, selectAllInstalledGames]
    split
    · exact ((installedGames_perm hgames).filter _).mem_iff
    · exact Iff.rfl

/-- The selected games are the chosen ones with an id. -/
theorem mem_selectedGames_iff (hids : ∀ g ∈ (runSelections host orders opts games).chosen,
    ∀ g' ∈ (runSelections host orders opts games).chosen, g.id ≠ "" → g.key = g'.key → g = g') :
    g ∈ selectedGames host.clock orders opts games ↔
      g ∈ (runSelections host orders opts games).chosen ∧ g.id ≠ "" := by
  constructor
  · exact mem_selectedGames
  · rintro ⟨hg, hid⟩
    obtain ⟨g', hg', hkey⟩ := exists_selectedGames hg hid
    rw [hids g hg g' (mem_selectedGames hg').1 hid hkey.symm]
    exact hg'

theorem selectedGames_perm (h : OrderFree host orders opts games apps)
    (hgames : games'.Perm games) :
    (selectedGames host.clock orders' opts games').Perm
      (selectedGames host.clock orders opts games) := by
  have hsame := @runSelections_same host orders orders' opts games games' apps h hgames
  refine (List.perm_ext_iff_of_nodup selectedGames_nodup.of_map selectedGames_nodup.of_map).mpr ?_
  intro g
  rw [mem_selectedGames_iff h.ids, mem_selectedGames_iff]
  · constructor
    · rintro ⟨hg, hid⟩
      exact ⟨(hsame.mem_chosen hid).mp hg, hid⟩
    · rintro ⟨hg, hid⟩
      exact ⟨(hsame.mem_chosen hid).mpr hg, hid⟩
  · intro g hg g' hg' hid hkey
    have hid' : g'.id ≠ "" := id_ne_empty (hkey ▸ key_ne_empty hid)
    exact h.ids g ((hsame.mem_chosen hid).mp hg) g' ((hsame.mem_chosen hid').mp hg') hid hkey

/-! ## The same games are matched -/

/-- A key that one game has is found whatever the order. -/
theorem lookup_indexBy_perm {present : Game → Bool} {key : Game → String}
    {selected selected' : List Game} {k : String} (hperm : selected'.Perm selected)
    (hunique : ∀ g ∈ selected, ∀ g' ∈ selected, present g = true → key g = k →
      present g' = true → key g' = k → g = g') :
    (selected'.foldl (indexBy present key) ∅).lookup k =
      (selected.foldl (indexBy present key) ∅).lookup k := by
  have hfound : ∀ {list : List Game}, list.Perm selected → ∀ g,
      (list.foldl (indexBy present key) ∅).lookup k = some g ↔
        g ∈ selected ∧ present g = true ∧ key g = k := by
    intro list hlist g
    constructor
    · intro h
      obtain ⟨hg, hpresent, hkey⟩ := lookup_indexBy_mem h
      exact ⟨hlist.mem_iff.mp hg, hpresent, hkey⟩
    · rintro ⟨hg, hpresent, rfl⟩
      refine lookup_indexBy_unique (hlist.mem_iff.mpr hg) hpresent ?_
      intro g' hg' hpresent' hkey'
      exact hunique g' (hlist.mem_iff.mp hg') g hg hpresent' hkey' hpresent rfl
  ext g
  rw [hfound hperm, hfound (List.Perm.refl _)]

theorem lookup_byUniqueName_perm {selected selected' : List Game} (n : String)
    (hperm : selected'.Perm selected) :
    (buildGameIndexes selected').byUniqueName.lookup n =
      (buildGameIndexes selected).byUniqueName.lookup n := by
  have hnamed : (named selected' n).Perm (named selected n) := hperm.filter _
  ext g
  rw [lookup_byUniqueName, lookup_byUniqueName]
  constructor
  · rintro ⟨hn, hone⟩
    exact ⟨hn, List.perm_singleton.mp (hone ▸ hnamed).symm⟩
  · rintro ⟨hn, hone⟩
    exact ⟨hn, List.perm_singleton.mp (hone ▸ hnamed)⟩

/-- What an app shares with a game, as a lookup of its text. -/
theorem bind_lookup_congr {map map' : GameMap} {value : Option Value} {key : String → String}
    (h : ∀ s, asString value = some s → map'.lookup (key s) = map.lookup (key s)) :
    ((asString value).bind fun s => map'.lookup (key s)) =
      (asString value).bind fun s => map.lookup (key s) := by
  cases hvalue : asString value with
  | none => rfl
  | some s => exact h s hvalue

theorem lookup_indexBy_ne_none {present : Game → Bool} {key : Game → String}
    {selected : List Game} (hg : g ∈ selected) (hpresent : present g = true) :
    (selected.foldl (indexBy present key) ∅).lookup (key g) ≠ none := by
  rw [lookup_foldl_indexBy, AList.lookup_empty, Option.or_none, ← Option.isSome_iff_ne_none,
    List.find?_isSome]
  exact ⟨g, List.mem_reverse.mpr hg, by simp [hpresent]⟩

/-- When an index has nothing for an app, no selected game shares the path. -/
theorem sharesId_of_lookup {app : App} (hg : g ∈ selectedGames host.clock orders opts games)
    (hnone : ((asString app.playniteId).bind fun s =>
      (runIndexes host orders opts games).byId.lookup (playniteIdKey s)) = none) :
    sharesId app g = false := by
  rw [Bool.eq_false_iff]
  intro hshares
  obtain ⟨s, hs, hkey⟩ := (Option.any_eq_true _ _).mp hshares
  rw [hs, Option.bind_some, of_decide_eq_true hkey] at hnone
  have hid : g.hasId = true := by
    simpa [Game.hasId] using selectedGames_id host orders opts games g hg
  exact lookup_indexBy_ne_none hg hid hnone

theorem sharesExe_of_lookup {app : App} (hg : g ∈ selectedGames host.clock orders opts games)
    (hnone : ((asString app.cmd).bind fun s =>
      (runIndexes host orders opts games).byExe.lookup (extractCmdExecutableForMatch s)) = none) :
    sharesExe app g = false := by
  rw [Bool.eq_false_iff]
  intro hshares
  rw [sharesExe, Bool.and_eq_true] at hshares
  obtain ⟨s, hs, hkey⟩ := (Option.any_eq_true _ _).mp hshares.2
  rw [hs, Option.bind_some, of_decide_eq_true hkey] at hnone
  exact lookup_indexBy_ne_none hg hshares.1 hnone

theorem matchApp_perm (h : OrderFree host orders opts games apps) (hgames : games'.Perm games)
    {app : App} (happ : .object app ∈ dedupedApps host apps) :
    matchAppAgainstIndexes (runIndexes host orders' opts games') app =
      matchAppAgainstIndexes (runIndexes host orders opts games) app := by
  have hperm := @selectedGames_perm host orders orders' opts games games' apps h hgames
  have hid := selectedGames_id host orders opts games
  have hids : ((asString app.playniteId).bind fun s =>
        (runIndexes host orders' opts games').byId.lookup (playniteIdKey s)) =
      (asString app.playniteId).bind fun s =>
        (runIndexes host orders opts games).byId.lookup (playniteIdKey s) := by
    refine bind_lookup_congr fun s _ => lookup_indexBy_perm hperm ?_
    intro g hg g' hg' _ hkey _ hkey'
    exact List.inj_on_of_nodup_map selectedGames_nodup hg hg' (hkey.trans hkey'.symm)
  have hexes : (∀ g ∈ selectedGames host.clock orders opts games, sharesId app g = false) →
      ((asString app.cmd).bind fun s => (runIndexes host orders' opts games').byExe.lookup
        (extractCmdExecutableForMatch s)) =
      (asString app.cmd).bind fun s => (runIndexes host orders opts games).byExe.lookup
        (extractCmdExecutableForMatch s) := by
    intro hnoId
    refine bind_lookup_congr fun s hs => lookup_indexBy_perm hperm ?_
    intro g hg g' hg' hexe hkey hexe' hkey'
    exact h.exes app happ hnoId g hg g' hg' (by simp [sharesExe, hs, hexe, hkey])
      (by simp [sharesExe, hs, hexe', hkey'])
  have hdirs : (∀ g ∈ selectedGames host.clock orders opts games,
        sharesId app g = false ∧ sharesExe app g = false) →
      ((asString app.workingDir).bind fun s => (runIndexes host orders' opts games').byDir.lookup
        (normalizePathForMatch s)) =
      (asString app.workingDir).bind fun s => (runIndexes host orders opts games).byDir.lookup
        (normalizePathForMatch s) := by
    intro hno
    refine bind_lookup_congr fun s hs => lookup_indexBy_perm hperm ?_
    intro g hg g' hg' hdir hkey hdir' hkey'
    exact h.dirs app happ hno g hg g' hg' (by simp [sharesDir, hs, hdir, hkey])
      (by simp [sharesDir, hs, hdir', hkey'])
  have hnames : ((asString app.name).bind fun s => (runIndexes host orders' opts
        games').byUniqueName.lookup (normalizeNameForMatch s)) =
      (asString app.name).bind fun s => (runIndexes host orders opts games).byUniqueName.lookup
        (normalizeNameForMatch s) :=
    bind_lookup_congr fun s _ => lookup_byUniqueName_perm _ hperm
  -- each index counts only when those before it have nothing
  unfold matchAppAgainstIndexes
  rw [hids, hnames]
  cases hbyId : (asString app.playniteId).bind fun s =>
      (runIndexes host orders opts games).byId.lookup (playniteIdKey s) with
  | some g => rfl
  | none =>
      have hnoId : ∀ g ∈ selectedGames host.clock orders opts games, sharesId app g = false :=
        fun g hg => sharesId_of_lookup hg hbyId
      rw [hexes hnoId]
      cases hbyExe : (asString app.cmd).bind fun s =>
          (runIndexes host orders opts games).byExe.lookup (extractCmdExecutableForMatch s) with
      | some g => rfl
      | none => rw [hdirs fun g hg => ⟨hnoId g hg, sharesExe_of_lookup hg hbyExe⟩]

theorem matchEntry_perm (h : OrderFree host orders opts games apps) (hgames : games'.Perm games)
    {entry : Entry} (hentry : entry ∈ dedupedApps host apps) :
    matchEntry (runIndexes host orders' opts games') entry =
      matchEntry (runIndexes host orders opts games) entry := by
  cases entry with
  | other dump => rfl
  | object app => exact matchApp_perm h hgames hentry

theorem updateEntry_perm (h : OrderFree host orders opts games apps)
    (hgames : games'.Perm games) {entry : Entry} (hentry : entry ∈ dedupedApps host apps) :
    updateEntry host (runSelections host orders' opts games') (runIndexes host orders' opts games')
        entry =
      updateEntry host (runSelections host orders opts games) (runIndexes host orders opts games)
        entry := by
  cases entry with
  | other dump => rfl
  | object app =>
      simp only [updateEntry, @matchApp_perm host orders orders' opts games games' apps h hgames
        app hentry]
      cases hmatch : matchAppAgainstIndexes (runIndexes host orders opts games) app with
      | none => rfl
      | some g =>
          have hg : g ∈ selectedGames host.clock orders opts games :=
            @mem_of_matchEntry _ (.object app) g hmatch
          have hkey := key_ne_empty (selectedGames_id host orders opts games g hg)
          have hsame := @runSelections_same host orders orders' opts games games' apps h hgames
          simp only [updateApp, hsame.sourceFlags hkey]

/-! ## The same apps are purged -/

theorem lookup_buildLastPlayedMap (clock : Clock) (installed : List Game) (k : String) :
    (buildLastPlayedMap clock installed).lookup k = installed.reverse.findSome? fun g =>
      if g.id ≠ "" ∧ g.key = k then parseIso8601Utc clock.mkgmtime g.lastPlayed else none := by
  induction installed using List.reverseRecOn with
  | nil => rfl
  | append_singleton installed g ih =>
      have hstep : buildLastPlayedMap clock (installed ++ [g]) =
          if g.id ≠ "" then
            (parseIso8601Utc clock.mkgmtime g.lastPlayed).elim (buildLastPlayedMap clock installed)
              fun t => (buildLastPlayedMap clock installed).insert g.key t
          else buildLastPlayedMap clock installed := by
        rw [buildLastPlayedMap, List.foldl_concat]
        cases parseIso8601Utc clock.mkgmtime g.lastPlayed <;> rfl
      rw [hstep, List.reverse_append, List.reverse_singleton, List.singleton_append,
        List.findSome?_cons]
      split
      · case isTrue hid =>
          cases hparse : parseIso8601Utc clock.mkgmtime g.lastPlayed with
          | none => simp [ih]
          | some t =>
              by_cases hk : g.key = k
              · subst hk
                simp [hid]
              · simp [hk, AList.lookup_insert_ne (Ne.symm hk), ih]
      · case isFalse hid => simp [hid, ih]

/-- What is in the map, when the records of one id do not differ. -/
theorem lookup_buildLastPlayedMap_iff {clock : Clock} {installed list : List Game}
    (hperm : list.Perm installed)
    (hunique : ∀ g ∈ installed, ∀ g' ∈ installed, g.id ≠ "" → g.key = g'.key → ∀ t t',
      parseIso8601Utc clock.mkgmtime g.lastPlayed = some t →
      parseIso8601Utc clock.mkgmtime g'.lastPlayed = some t' → t = t') (k : String) (t : ℤ) :
    (buildLastPlayedMap clock list).lookup k = some t ↔
      ∃ g ∈ installed, (g.id ≠ "" ∧ g.key = k) ∧
        parseIso8601Utc clock.mkgmtime g.lastPlayed = some t := by
  rw [lookup_buildLastPlayedMap]
  constructor
  · intro hfound
    obtain ⟨g, hg, hsome⟩ := List.exists_of_findSome?_eq_some hfound
    rw [Option.ite_none_right_eq_some] at hsome
    exact ⟨g, hperm.mem_iff.mp (List.mem_reverse.mp hg), hsome⟩
  · rintro ⟨g, hg, ⟨hid, hkey⟩, hparse⟩
    cases hfound : list.reverse.findSome? fun g =>
        if g.id ≠ "" ∧ g.key = k then parseIso8601Utc clock.mkgmtime g.lastPlayed else none with
    | none =>
        have hnone := List.findSome?_eq_none_iff.mp hfound g
          (List.mem_reverse.mpr (hperm.mem_iff.mpr hg))
        rw [if_pos ⟨hid, hkey⟩, hparse] at hnone
        cases hnone
    | some t' =>
        obtain ⟨g', hg', hsome⟩ := List.exists_of_findSome?_eq_some hfound
        rw [Option.ite_none_right_eq_some] at hsome
        have hmem := hperm.mem_iff.mp (List.mem_reverse.mp hg')
        rw [hunique g' hmem g hg hsome.1.1 (hsome.1.2.trans hkey.symm) t' t hsome.2 hparse]

theorem expires_perm (h : OrderFree host orders opts games apps) (hgames : games'.Perm games) :
    expires host.clock opts games' = expires host.clock opts games := by
  have huninstalled : (uninstalledLower games').Perm (uninstalledLower games) :=
    (hgames.filter _).map _
  have hinstalled := installedGames_perm hgames
  have hage : shouldTtlDelete host.clock opts
        (buildLastPlayedMap host.clock (installedGames games')) =
      shouldTtlDelete host.clock opts (buildLastPlayedMap host.clock (installedGames games)) := by
    ext app
    unfold shouldTtlDelete
    split
    · rfl
    · case isFalse hdays =>
        have hunique := h.played (not_le.mp hdays)
        have hlookup : ∀ k, (buildLastPlayedMap host.clock (installedGames games')).lookup k =
            (buildLastPlayedMap host.clock (installedGames games)).lookup k := by
          intro k
          ext t
          rw [lookup_buildLastPlayedMap_iff hinstalled hunique,
            lookup_buildLastPlayedMap_iff (List.Perm.refl _) hunique]
        rw [hlookup]
  ext app
  rw [expires, expires, hage, huninstalled.contains_eq]

theorem purgeLoop_congr {clock : Clock} {selected selected' : List Game}
    (hexpires : expires clock opts games' = expires clock opts games)
    (hselected : selected'.Perm selected) (repl : ℕ) (entries : List Entry) :
    purgeLoop clock opts games' selected' repl entries =
      purgeLoop clock opts games selected repl entries := by
  induction entries generalizing repl with
  | nil => rfl
  | cons entry entries ih =>
      cases entry with
      | other dump => simp only [purgeLoop, ih]
      | object app => simp only [purgeLoop, ih, hexpires, hselected.any_eq]

theorem purge_perm (h : OrderFree host orders opts games apps) (hgames : games'.Perm games)
    (entries : List Entry) :
    purge host.clock opts games' (selectedGames host.clock orders' opts games') entries =
      purge host.clock opts games (selectedGames host.clock orders opts games) entries := by
  have hperm := @selectedGames_perm host orders orders' opts games games' apps h hgames
  rw [purge, purge, countReplacementsAvailable, countReplacementsAvailable, hperm.countP_eq]
  exact purgeLoop_congr (expires_perm h hgames) hperm _ entries

/-! ## The same apps are added -/

theorem addMissing_perm (h : OrderFree host orders opts games apps) (hgames : games'.Perm games)
    (matched : List Game) :
    (addMissing host (runSelections host orders' opts games')
        (selectedGames host.clock orders' opts games') matched).Perm
      (addMissing host (runSelections host orders opts games)
        (selectedGames host.clock orders opts games) matched) := by
  have hperm := @selectedGames_perm host orders orders' opts games games' apps h hgames
  have hsame := @runSelections_same host orders orders' opts games games' apps h hgames
  refine ((hperm.filter _).map _).trans ?_
  rw [addMissing, List.map_congr_left]
  intro g hg
  have hid := selectedGames_id host orders opts games g (List.mem_filter.mp hg).1
  rw [newApp, newApp, hsame.sourceFlags (key_ne_empty hid)]

theorem autosyncReconcile_matched : (autosyncReconcile host orders opts games apps).matched =
    ((dedupedApps host apps).filterMap (matchEntry (runIndexes host orders opts games))).length := by
  have hsettled := @ensureAll_of_settled host.generate _ (@dedupedApps_settled host apps) 0
  simp only [autosyncReconcile, matchedGames]
  rw [show dedupe [] (ensureAll host.generate 0 apps) = dedupedApps host apps from rfl, hsettled.1]
  rfl

theorem autosyncReconcile_changed : (autosyncReconcile host orders opts games apps).changed =
    (ensureAllChanges host.generate 0 apps ||
      (dedupedApps host apps).length != (ensureAll host.generate 0 apps).length ||
      !((dedupedApps host apps).filterMap
        (matchEntry (runIndexes host orders opts games))).isEmpty ||
      (autosyncReconcile host orders opts games apps).kept.length !=
        (dedupedApps host apps).length ||
      !(autosyncReconcile host orders opts games apps).added.isEmpty) := by
  have hsettled := @ensureAll_of_settled host.generate _ (@dedupedApps_settled host apps) 0
  simp only [autosyncReconcile, matchedGames, updateAll]
  rw [show dedupe [] (ensureAll host.generate 0 apps) = dedupedApps host apps from rfl, hsettled.1,
    hsettled.2, List.length_map, Bool.or_false]
  rfl

/-- **The order of the games** does not show, where nothing depends on it. -/
theorem autosyncReconcile_same (h : OrderFree host orders opts games apps)
    (hgames : games'.Perm games) :
    (autosyncReconcile host orders opts games apps).Same
      (autosyncReconcile host orders' opts games' apps) := by
  have hupdated : (dedupedApps host apps).map (updateEntry host
        (runSelections host orders' opts games') (runIndexes host orders' opts games')) =
      (dedupedApps host apps).map (updateEntry host (runSelections host orders opts games)
        (runIndexes host orders opts games)) :=
    List.map_congr_left fun entry hentry => updateEntry_perm h hgames hentry
  have hmatched : (dedupedApps host apps).filterMap
        (matchEntry (runIndexes host orders' opts games')) =
      (dedupedApps host apps).filterMap (matchEntry (runIndexes host orders opts games)) :=
    List.filterMap_congr fun entry hentry => matchEntry_perm h hgames hentry
  have hkept : (autosyncReconcile host orders' opts games' apps).kept =
      (autosyncReconcile host orders opts games apps).kept := by
    rw [autosyncReconcile_kept, autosyncReconcile_kept, hupdated, purge_perm h hgames]
  have hadded : (autosyncReconcile host orders' opts games' apps).added.Perm
      (autosyncReconcile host orders opts games apps).added := by
    rw [autosyncReconcile_added, autosyncReconcile_added, hmatched]
    exact addMissing_perm h hgames _
  refine ⟨hkept, hadded, ?_, ?_⟩
  · rw [autosyncReconcile_changed, autosyncReconcile_changed, hmatched, hkept, hadded.isEmpty_eq]
  · rw [autosyncReconcile_matched, autosyncReconcile_matched, hmatched]

end Order

/-! ## Both -/

/-- **Reconciling again or in another order** changes nothing where no game is unsteady and
nothing depends on the order. -/
theorem reconcile_stable (host : Host) (orders : Orders) (opts : Options) (games : List Game)
    (apps : List Entry) :
    ((rerun host orders opts games apps).apps =
          (autosyncReconcile host orders opts games apps).apps ↔
        ∀ g ∈ selectedGames host.clock orders opts games,
          Steady host orders opts games apps g) ∧
      (OrderFree host orders opts games apps → ∀ (orders' : Orders) (games' : List Game),
        games'.Perm games → (autosyncReconcile host orders opts games apps).Same
          (autosyncReconcile host orders' opts games' apps)) := by
  refine ⟨autosyncReconcile_rerun, ?_⟩
  intro h orders' games' hgames
  exact autosyncReconcile_same h hgames

/-- A second game that is started by the same program. -/
def draughts : Game := { chess with id := "ab-2", name := "Draughts" }

/-- An empty list is filled, and stays as it is, in whatever order two games are listed. -/
theorem reconcile_stable_empty :
    (rerun newYear stableOrders everything [chess, draughts] []).apps =
        (autosyncReconcile newYear stableOrders everything [chess, draughts] []).apps ∧
      (autosyncReconcile newYear stableOrders everything [chess, draughts] []).Same
        (autosyncReconcile newYear stableOrders everything [draughts, chess] []) := by
  have hstable := reconcile_stable newYear stableOrders everything [chess, draughts] []
  constructor
  · refine hstable.1.mpr fun g hg => Or.inl ⟨fun entry hentry => ?_, rfl⟩
    cases hentry
  · refine hstable.2 ?_ stableOrders [draughts, chess] (List.Perm.swap _ _ _)
    constructor
    · decide +kernel
    · intro hdays
      cases hdays
    · intro hrecent
      cases hrecent
    · intro app happ
      cases happ
    · intro app happ
      cases happ

/-- An app that is matched has its uuid replaced only by the next run, and one of two games
that share a program takes it by their order. -/
theorem reconcile_unstable :
    (rerun newYear stableOrders everything [chess] [.object (manual "A" "chess.exe")]).apps ≠
        (autosyncReconcile newYear stableOrders everything [chess]
          [.object (manual "A" "chess.exe")]).apps ∧
      ¬ (autosyncReconcile newYear stableOrders everything [chess, draughts]
          [.object (manual "A" "chess.exe")]).Same
        (autosyncReconcile newYear stableOrders everything [draughts, chess]
          [.object (manual "A" "chess.exe")]) := by
  constructor
  · decide +kernel
  · intro h
    have hkept := h.kept
    revert hkept
    decide +kernel

end LuminalShine.Playnite
