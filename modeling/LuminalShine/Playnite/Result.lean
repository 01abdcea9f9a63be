import LuminalShine.Playnite.Apps
import Mathlib.Data.List.Sort
import Mathlib.Data.String.Basic

/-!
# What a reconcile leaves

The list of apps after `autosync_reconcile`: one auto-managed app for each selected game, none
for any other, and the user's own apps as they were.

Duplicates are looked for before the apps are matched, so that several apps may still become
the app of one game; nothing is said of such a game.  An app with a Playnite id has its uuid
set to that id, whether or not it had another.

## Main definitions

* `Entry.hasKey`, `matchesKey` — an auto-managed app of a key, an app matched by its game.
* `Ensured` — an app before and after its uuid is ensured.
* `Reconciles` — the four parts of the result.

## Main results

* `autosyncReconcile_reconciles`
-/

namespace LuminalShine.Playnite

open LuminalShine.Lib

/-! ## Statements -/

def Entry.hasKey (key : String) (entry : Entry) : Bool := entry.autoKey = some key

/-- The entry is matched by the game of that key. -/
def matchesKey (idx : GameIndexes) (key : String) (entry : Entry) : Bool :=
  (matchEntry idx entry).any (·.key = key)

/-- The same app, but for a uuid that was missing, or that of its Playnite id. -/
def Ensured : Entry → Entry → Prop
  | .object app, .object app' => ∃ uuid, app' = { app with uuid } ∧
      (uuid = app.uuid ∨ app.pid = "" ∧ missingUuid app.uuid = true ∨
        app.pid ≠ "" ∧ uuid = some (.string (canonicalPlayniteAppUuid app.pid)))
  | .other dump, .other dump' => dump = dump'
  | _, _ => False

section Statement

variable (host : Host) (orders : Orders) (opts : Options) (games : List Game) (apps : List Entry)

/-- The selections and the indexes of a run. -/
def runSelections : Selections := selections host.clock orders opts games

def runIndexes : GameIndexes := buildGameIndexes (selectedGames host.clock orders opts games)

/-- The app is matched by a game and falls to the uninstalled or the time-to-live rule. -/
def Expired (key : String) (entry : Entry) : Prop :=
  ∃ app g, entry = .object app ∧
    matchAppAgainstIndexes (runIndexes host orders opts games) app = some g ∧ g.key = key ∧
    expires host.clock opts games (updateApp host (runSelections host orders opts games) g app) =
      true

structure Reconciles (r : Reconciled) : Prop where
  /-- No two auto-managed apps have one id, unless two apps matched one game. -/
  unique : ∀ key, r.apps.countP (Entry.hasKey key) ≤ 1 ∨
    2 ≤ (dedupedApps host apps).countP (matchesKey (runIndexes host orders opts games) key)
  /-- A selected game has one, unless its app was purged, or two apps matched it. -/
  covered : ∀ g ∈ (runSelections host orders opts games).chosen, g.id ≠ "" →
    r.apps.countP (Entry.hasKey g.key) = 1 ∨
      r.apps.countP (Entry.hasKey g.key) = 0 ∧
        (∃ entry ∈ dedupedApps host apps, Expired host orders opts games g.key entry) ∨
      2 ≤ (dedupedApps host apps).countP (matchesKey (runIndexes host orders opts games) g.key)
  /-- What is added is for chosen games of the library, installed and not excluded. -/
  added : ∀ entry ∈ r.added, ∃ g ∈ games, g.installed = true ∧ excluded opts g = false ∧
    g ∈ (runSelections host orders opts games).chosen ∧ entry.autoKey = some g.key
  /-- Every other app is kept in its place. -/
  frame : ∃ ensured, List.Forall₂ Ensured apps ensured ∧
    r.apps.filter (!·.isAuto) = ensured.filter fun entry =>
      !entry.isAuto && (matchEntry (runIndexes host orders opts games) entry).isNone

end Statement

/-! ## Uuids -/

section Uuids

variable {generate : ℕ → String}

/-- The uuid is there, and is the Playnite id's where there is one. -/
def App.settled (app : App) : Prop :=
  (app.pid ≠ "" → app.uuid = some (.string (canonicalPlayniteAppUuid app.pid))) ∧
    (app.pid = "" → missingUuid app.uuid = false)

def Entry.settled : Entry → Prop
  | .object app => app.settled
  | .other _ => True

theorem ensureAppUuid_of_settled {app : App} (h : app.settled) (fresh : String) :
    ensureAppUuid fresh app = (app, false) := by
  rw [ensureAppUuid]
  split
  · case isTrue hpid => rw [if_pos (h.1 hpid)]
  · case isFalse hpid => simp [h.2 (not_not.mp hpid)]

theorem ensureAppUuid_eq (fresh : String) (app : App) :
    ∃ uuid, (ensureAppUuid fresh app).1 = { app with uuid } ∧
      (uuid = app.uuid ∨ app.pid = "" ∧ missingUuid app.uuid = true ∨
        app.pid ≠ "" ∧ uuid = some (.string (canonicalPlayniteAppUuid app.pid))) := by
  rw [ensureAppUuid]
  split
  · case isTrue hpid =>
      split
      · exact ⟨app.uuid, rfl, Or.inl rfl⟩
      · exact ⟨_, rfl, Or.inr (Or.inr ⟨hpid, rfl⟩)⟩
  · case isFalse hpid =>
      split
      · case isTrue hmissing => exact ⟨_, rfl, Or.inr (Or.inl ⟨not_not.mp hpid, hmissing⟩)⟩
      · exact ⟨app.uuid, rfl, Or.inl rfl⟩

theorem ensureAppUuid_settled {fresh : String} (hfresh : fresh ≠ "") (app : App) :
    (ensureAppUuid fresh app).1.settled := by
  unfold ensureAppUuid App.settled
  split
  · case isTrue hpid =>
      split
      · case isTrue huuid => exact ⟨fun _ => huuid, fun h => absurd h hpid⟩
      · exact ⟨fun _ => rfl, fun h => absurd h hpid⟩
  · case isFalse hpid =>
      split
      · exact ⟨fun h => absurd h hpid, fun _ => by simpa [missingUuid] using hfresh⟩
      · case isFalse hmissing => exact ⟨fun h => absurd h hpid, fun _ => by simpa using hmissing⟩

theorem ensureEntry_settled {fresh : String} (hfresh : fresh ≠ "") (entry : Entry) :
    (ensureEntry fresh entry).1.settled := by
  cases entry with
  | object app => exact ensureAppUuid_settled hfresh app
  | other dump => trivial

theorem ensureAll_settled (hgenerate : ∀ n, generate n ≠ "") (n : ℕ) (entries : List Entry) :
    ∀ entry ∈ ensureAll generate n entries, entry.settled := by
  induction entries generalizing n with
  | nil => simp [ensureAll]
  | cons entry entries ih =>
      rintro entry' (_ | ⟨_, hmem⟩)
      · exact ensureEntry_settled (hgenerate n) entry
      · exact ih (n + 1) entry' hmem

/-- A second pass changes nothing. -/
theorem ensureAll_of_settled {entries : List Entry} (h : ∀ entry ∈ entries, entry.settled)
    (n : ℕ) : ensureAll generate n entries = entries ∧
      ensureAllChanges generate n entries = false := by
  induction entries generalizing n with
  | nil => exact ⟨rfl, rfl⟩
  | cons entry entries ih =>
      have hentry : ensureEntry (generate n) entry = (entry, false) := by
        have hsettled := h entry List.mem_cons_self
        cases entry with
        | object app => simp [ensureEntry, ensureAppUuid_of_settled hsettled]
        | other dump => rfl
      obtain ⟨hrest, hchanges⟩ := ih (fun e he => h e (List.mem_cons_of_mem _ he)) (n + 1)
      simp [ensureAll, ensureAllChanges, hentry, hrest, hchanges]

theorem ensureAll_forall₂ (n : ℕ) (entries : List Entry) :
    List.Forall₂ Ensured entries (ensureAll generate n entries) := by
  induction entries generalizing n with
  | nil => exact .nil
  | cons entry entries ih =>
      refine .cons ?_ (ih (n + 1))
      cases entry with
      | object app => exact ensureAppUuid_eq (generate n) app
      | other dump => rfl

end Uuids

/-! ## Duplicates -/

theorem dedupe_sublist (seen : List String) (entries : List Entry) :
    (dedupe seen entries).Sublist entries := by
  induction entries generalizing seen with
  | nil => exact .slnil
  | cons entry entries ih =>
      rw [dedupe]
      split
      · exact (ih seen).cons_cons entry
      · split
        · exact (ih seen).cons entry
        · exact (ih _).cons_cons entry

theorem countP_hasKey (key : String) (entries : List Entry) :
    entries.countP (Entry.hasKey key) = (entries.filterMap Entry.autoKey).count key := by
  induction entries with
  | nil => rfl
  | cons entry entries ih =>
      cases hentry : entry.autoKey with
      | none => simp [Entry.hasKey, hentry, ih]
      | some key' => simp [Entry.hasKey, hentry, ih, List.countP_cons, List.count_cons]

/-- Each key is kept once, and none that was seen. -/
theorem dedupe_nodup (seen : List String) (entries : List Entry) :
    ((dedupe seen entries).filterMap Entry.autoKey).Nodup ∧
      ∀ key ∈ (dedupe seen entries).filterMap Entry.autoKey, key ∉ seen := by
  induction entries generalizing seen with
  | nil => simp [dedupe]
  | cons entry entries ih =>
      rw [dedupe]
      split
      · case h_1 hkey => simpa [hkey] using ih seen
      · case h_2 key hkey =>
          split
          · exact ih seen
          · case isFalse hnew =>
              obtain ⟨hnodup, hdisjoint⟩ := ih (key :: seen)
              rw [List.filterMap_cons_some hkey]
              refine ⟨List.nodup_cons.mpr ⟨fun hmem => ?_, hnodup⟩, ?_⟩
              · exact hdisjoint key hmem List.mem_cons_self
              · rintro key' (_ | ⟨_, hmem⟩)
                · simpa using hnew
                · exact fun hseen => hdisjoint key' hmem (List.mem_cons_of_mem _ hseen)

/-- Entries without a key are not touched. -/
theorem dedupe_filter {p : Entry → Bool} (h : ∀ entry, p entry = true → entry.autoKey = none)
    (seen : List String) (entries : List Entry) :
    (dedupe seen entries).filter p = entries.filter p := by
  induction entries generalizing seen with
  | nil => rfl
  | cons entry entries ih =>
      rw [dedupe]
      split
      · cases hp : p entry <;> simp [hp, ih]
      · case h_2 key hkey =>
          have hp : p entry = false := by
            rw [Bool.eq_false_iff]
            intro hp
            rw [h entry hp] at hkey
            cases hkey
          split <;> simp [hp, ih]

/-! ## Matching -/

section Match

variable {host : Host} {sel : Selections} {selected : List Game} {entry : Entry} {g : Game}

theorem mem_of_matchEntry (h : matchEntry (buildGameIndexes selected) entry = some g) :
    g ∈ selected := by
  cases entry with
  | other dump => cases h
  | object app =>
      simp only [matchEntry, matchAppAgainstIndexes, Option.or_eq_some_iff,
        Option.bind_eq_some_iff] at h
      rcases h with ⟨_, _, h⟩ | ⟨-, ⟨_, _, h⟩ | ⟨-, ⟨_, _, h⟩ | ⟨-, _, _, h⟩⟩⟩
      · exact (lookup_indexBy_mem h).1
      · exact (lookup_indexBy_mem h).1
      · exact (lookup_indexBy_mem h).1
      · have hone := ((lookup_byUniqueName selected _ g).mp h).2
        exact (List.mem_filter.mp (hone ▸ List.mem_singleton_self g)).1

/-- An app with the id of a selected game is matched by that game. -/
theorem matchEntry_of_autoKey (hnodup : (selected.map Game.key).Nodup)
    (hid : ∀ g ∈ selected, g.id ≠ "") (hg : g ∈ selected) (hkey : entry.autoKey = some g.key) :
    matchEntry (buildGameIndexes selected) entry = some g := by
  cases entry with
  | other dump => cases hkey
  | object app =>
      simp only [Entry.autoKey] at hkey
      split at hkey
      · case isTrue hauto =>
          have hpid : asString app.playniteId = some app.pid := by
            rw [App.pid] at hauto ⊢
            cases hid : asString app.playniteId with
            | none => simp [hid] at hauto
            | some s => rfl
          have hlookup : (buildGameIndexes selected).byId.lookup g.key = some g := by
            refine lookup_indexBy_unique hg (by simp [Game.hasId, hid g hg]) ?_
            intro g' hg' _ heq
            exact List.inj_on_of_nodup_map hnodup hg' hg heq
          simp only [matchEntry, matchAppAgainstIndexes, hpid, Option.bind_some]
          rw [Option.some.inj hkey, hlookup]
          rfl
      · cases hkey

theorem updateEntry_of_none (h : matchEntry (buildGameIndexes selected) entry = none) :
    updateEntry host sel (buildGameIndexes selected) entry = entry := by
  cases entry with
  | other dump => rfl
  | object app =>
      simp only [matchEntry] at h
      simp [updateEntry, h]

theorem updateEntry_of_some {app : App}
    (h : matchAppAgainstIndexes (buildGameIndexes selected) app = some g) :
    updateEntry host sel (buildGameIndexes selected) (.object app) =
      .object (updateApp host sel g app) := by
  simp [updateEntry, h]

theorem autoKey_updateApp (hid : g.id ≠ "") (app : App) :
    (Entry.object (updateApp host sel g app)).autoKey = some g.key := by
  simp [Entry.autoKey, updateApp, markAppAsPlayniteAuto, applyGameMetadataToApp, asString,
    App.pid, hid, Game.key]

theorem isAuto_updateApp (app : App) : (Entry.object (updateApp host sel g app)).isAuto = true := by
  simp [Entry.isAuto, updateApp, markAppAsPlayniteAuto, asString]

/-- After the update an entry has the key of its game, or its own when there is none. -/
theorem hasKey_updateEntry (hnodup : (selected.map Game.key).Nodup)
    (hid : ∀ g ∈ selected, g.id ≠ "") (key : String) :
    (updateEntry host sel (buildGameIndexes selected) entry).hasKey key =
      if selected.any (·.key = key) then matchesKey (buildGameIndexes selected) key entry
      else entry.hasKey key && (matchEntry (buildGameIndexes selected) entry).isNone := by
  cases hmatch : matchEntry (buildGameIndexes selected) entry with
  | none =>
      rw [updateEntry_of_none hmatch]
      split
      · case isTrue hany =>
          obtain ⟨g, hg, hkey⟩ := List.any_eq_true.mp hany
          have hnone : entry.hasKey key = false := by
            rw [Bool.eq_false_iff]
            intro hhas
            have heq : entry.autoKey = some g.key := by
              simpa [Entry.hasKey, of_decide_eq_true hkey] using hhas
            rw [matchEntry_of_autoKey hnodup hid hg heq] at hmatch
            cases hmatch
          simp [hnone, matchesKey, hmatch]
      · simp
  | some g =>
      have hg := mem_of_matchEntry hmatch
      cases entry with
      | other dump => cases hmatch
      | object app =>
          rw [updateEntry_of_some hmatch, Entry.hasKey, autoKey_updateApp (hid g hg)]
          by_cases hkey : g.key = key
          · have hany : selected.any (·.key = key) = true :=
              List.any_eq_true.mpr ⟨g, hg, by simpa using hkey⟩
            simp [hany, matchesKey, hmatch, hkey]
          · simp [matchesKey, hmatch, hkey]

end Match

/-! ## Purging -/

section Purge

variable {clock : Clock} {opts : Options} {games selected : List Game}

theorem purgeLoop_sublist (repl : ℕ) (entries : List Entry) :
    (purgeLoop clock opts games selected repl entries).Sublist entries := by
  induction entries generalizing repl with
  | nil => exact .slnil
  | cons entry entries ih =>
      cases entry with
      | other dump => exact (ih repl).cons_cons _
      | object app =>
          rw [purgeLoop]
          split
          · exact (ih repl).cons_cons _
          · split
            · exact (ih repl).cons _
            · split
              · exact (ih repl).cons_cons _
              · split
                · exact (ih repl).cons _
                · split
                  · exact (ih _).cons _
                  · exact (ih repl).cons_cons _

/-- Entries without a key are kept. -/
theorem purgeLoop_filter {p : Entry → Bool} (h : ∀ entry, p entry = true → entry.autoKey = none)
    (repl : ℕ) (entries : List Entry) :
    (purgeLoop clock opts games selected repl entries).filter p = entries.filter p := by
  induction entries generalizing repl with
  | nil => rfl
  | cons entry entries ih =>
      cases entry with
      | other dump => simp [purgeLoop, List.filter_cons, ih]
      | object app =>
          rw [purgeLoop]
          split
          · simp [List.filter_cons, ih]
          · case h_2 key hkey =>
              have hp : p (.object app) = false := by
                rw [Bool.eq_false_iff]
                intro hp
                rw [h _ hp] at hkey
                cases hkey
              split
              · simp [hp, ih]
              · split
                · simp [hp, ih]
                · split
                  · simp [hp, ih]
                  · split <;> simp [hp, ih]

/-- An entry is purged by the first two rules. -/
def expiresEntry (clock : Clock) (opts : Options) (games : List Game) : Entry → Bool
  | .object app => expires clock opts games app
  | .other _ => false

/-- Of a selected key, what expires goes and the rest stays. -/
theorem countP_purgeLoop {key : String} (hkey : selected.any (·.key = key) = true) (repl : ℕ)
    (entries : List Entry) :
    (purgeLoop clock opts games selected repl entries).countP (Entry.hasKey key) =
      entries.countP fun entry => entry.hasKey key && !expiresEntry clock opts games entry := by
  induction entries generalizing repl with
  | nil => rfl
  | cons entry entries ih =>
      cases entry with
      | other dump => simp [purgeLoop, ih, Entry.hasKey, Entry.autoKey]
      | object app =>
          rw [purgeLoop]
          split
          · case h_1 hnone => simp [ih, Entry.hasKey, hnone]
          · case h_2 key' hkey' =>
              split
              · case isTrue hexpires => simp [ih, expiresEntry, hexpires]
              · case isFalse hexpires =>
                  by_cases heq : key' = key
                  · subst heq
                    rw [if_pos hkey]
                    simp [ih, Entry.hasKey, hkey', expiresEntry, hexpires]
                  · have hhas : (Entry.object app).hasKey key = false := by
                      simp [Entry.hasKey, hkey', heq]
                    split
                    · simp [ih, hhas]
                    · split
                      · simp [ih, hhas]
                      · split <;> simp [ih, hhas]

end Purge

/-! ## Adding -/

theorem autoKey_newApp {host : Host} {sel : Selections} {g : Game} (hid : g.id ≠ "") :
    (Entry.object (newApp host sel g)).autoKey = some g.key := by
  have hpid : (applyGameMetadataToApp host.cover g .empty).pid ≠ "" := by
    simpa [App.pid, applyGameMetadataToApp, asString] using hid
  obtain ⟨uuid, happ, -⟩ :=
    ensureAppUuid_eq (host.generate 0) (applyGameMetadataToApp host.cover g .empty)
  simp only [newApp, happ]
  simp [Entry.autoKey, markAppAsPlayniteAuto, applyGameMetadataToApp, asString, App.pid, hid,
    Game.key]

/-- One app is added for a selected key, unless it is matched. -/
theorem countP_addMissing {host : Host} {sel : Selections} {selected matched : List Game}
    (hnodup : (selected.map Game.key).Nodup) (hid : ∀ g ∈ selected, g.id ≠ "") (key : String) :
    (addMissing host sel selected matched).countP (Entry.hasKey key) =
      if selected.any (·.key = key) && !matched.any (·.key = key) then 1 else 0 := by
  have hcount : selected.countP (fun g => decide (g.key = key)) =
      if selected.any (·.key = key) then 1 else 0 := by
    have hmap : selected.countP (fun g => decide (g.key = key)) =
        (selected.map Game.key).count key := by
      rw [List.count, List.countP_map]
      rfl
    rw [hmap, hnodup.count]
    congr 1
    simp
  rw [addMissing, List.countP_map, List.countP_filter]
  have hcongr : selected.countP (fun g => (Entry.hasKey key ∘ fun g => .object (newApp host sel g)) g &&
      !matched.any (·.key = g.key)) =
      selected.countP fun g => decide (g.key = key) && !matched.any (·.key = key) := by
    refine List.countP_congr fun g hg => ?_
    simp only [Function.comp, Entry.hasKey, autoKey_newApp (hid g hg), Option.some.injEq]
    by_cases hkey : g.key = key <;> simp [hkey]
  rw [hcongr]
  cases matched.any (·.key = key) <;> simp [hcount]

/-! ## The result -/

variable {host : Host} {orders : Orders} {opts : Options} {games : List Game} {apps : List Entry}

theorem dedupedApps_settled : ∀ entry ∈ dedupedApps host apps, entry.settled := by
  intro entry hentry
  exact ensureAll_settled host.generate_ne 0 apps entry ((dedupe_sublist _ _).subset hentry)

/-- The apps after the run, without the pass that finds every uuid in place. -/
theorem autosyncReconcile_kept : (autosyncReconcile host orders opts games apps).kept =
    purge host.clock opts games (selectedGames host.clock orders opts games)
      ((dedupedApps host apps).map (updateEntry host (runSelections host orders opts games)
        (runIndexes host orders opts games))) := by
  have hsettled := @ensureAll_of_settled host.generate _ (@dedupedApps_settled host apps) 0
  simp only [autosyncReconcile, updateAll]
  rw [show dedupe [] (ensureAll host.generate 0 apps) = dedupedApps host apps from rfl, hsettled.1]
  rfl

theorem autosyncReconcile_added : (autosyncReconcile host orders opts games apps).added =
    addMissing host (runSelections host orders opts games)
      (selectedGames host.clock orders opts games)
      ((dedupedApps host apps).filterMap (matchEntry (runIndexes host orders opts games))) := by
  have hsettled := @ensureAll_of_settled host.generate _ (@dedupedApps_settled host apps) 0
  simp only [autosyncReconcile, matchedGames]
  rw [show dedupe [] (ensureAll host.generate 0 apps) = dedupedApps host apps from rfl, hsettled.1]
  rfl

section Counts

variable (host orders opts games apps)

theorem countP_dedupedApps_le (key : String) :
    (dedupedApps host apps).countP (Entry.hasKey key) ≤ 1 := by
  rw [countP_hasKey]
  exact List.nodup_iff_count_le_one.mp (dedupe_nodup [] (ensureAll host.generate 0 apps)).1 key

theorem selectedGames_id : ∀ g ∈ selectedGames host.clock orders opts games, g.id ≠ "" :=
  fun _ hg => (mem_selectedGames hg).2

/-- Of a selected key, the matched apps that do not expire are kept. -/
theorem countP_kept {key : String}
    (hkey : (selectedGames host.clock orders opts games).any (·.key = key) = true) :
    (autosyncReconcile host orders opts games apps).kept.countP (Entry.hasKey key) =
      (dedupedApps host apps).countP fun entry =>
        matchesKey (runIndexes host orders opts games) key entry &&
          !expiresEntry host.clock opts games
            (updateEntry host (runSelections host orders opts games)
              (runIndexes host orders opts games) entry) := by
  rw [autosyncReconcile_kept, purge, countP_purgeLoop hkey, List.countP_map]
  refine List.countP_congr fun entry _ => ?_
  simp only [Function.comp, runIndexes]
  rw [hasKey_updateEntry selectedGames_nodup (selectedGames_id host orders opts games), if_pos hkey]

theorem countP_added (key : String) :
    (autosyncReconcile host orders opts games apps).added.countP (Entry.hasKey key) =
      if (selectedGames host.clock orders opts games).any (·.key = key) &&
        (dedupedApps host apps).countP (matchesKey (runIndexes host orders opts games) key) = 0
      then 1 else 0 := by
  rw [autosyncReconcile_added,
    countP_addMissing selectedGames_nodup (selectedGames_id host orders opts games)]
  have hmatched : (((dedupedApps host apps).filterMap
      (matchEntry (runIndexes host orders opts games))).any (·.key = key) = false) ↔
      (dedupedApps host apps).countP (matchesKey (runIndexes host orders opts games) key) = 0 := by
    rw [List.any_eq_false, List.countP_eq_zero]
    simp only [List.mem_filterMap, matchesKey, Option.any_eq_true, decide_eq_true_eq]
    constructor
    · rintro h entry hentry ⟨g, hg, hkey⟩
      exact h g ⟨entry, hentry, hg⟩ hkey
    · rintro h g ⟨entry, hentry, hg⟩ hkey
      exact h entry hentry ⟨g, hg, hkey⟩
  congr 1
  rw [Bool.and_eq_true, Bool.and_eq_true, Bool.not_eq_true', hmatched, decide_eq_true_eq]

/-- Of any other key there is at most the one app that was there. -/
theorem countP_kept_of_not_selected {key : String}
    (hkey : (selectedGames host.clock orders opts games).any (·.key = key) = false) :
    (autosyncReconcile host orders opts games apps).kept.countP (Entry.hasKey key) ≤ 1 := by
  rw [autosyncReconcile_kept]
  refine le_trans (purgeLoop_sublist _ _).countP_le ?_
  rw [List.countP_map]
  have hle : (dedupedApps host apps).countP (Entry.hasKey key ∘ updateEntry host
      (runSelections host orders opts games) (runIndexes host orders opts games)) ≤
      (dedupedApps host apps).countP (Entry.hasKey key) := by
    refine List.countP_mono_left fun entry _ hentry => ?_
    simp only [Function.comp, runIndexes] at hentry
    rw [hasKey_updateEntry selectedGames_nodup (selectedGames_id host orders opts games), hkey]
      at hentry
    simp only [Bool.false_eq_true, if_false, Bool.and_eq_true] at hentry
    exact hentry.1
  exact le_trans hle (countP_dedupedApps_le host apps key)

end Counts

/-- Matched entries that are not kept have expired. -/
theorem expired_of_matchesKey {key : String} {entry : Entry}
    (hmatch : matchesKey (runIndexes host orders opts games) key entry = true)
    (hexpires : expiresEntry host.clock opts games (updateEntry host
      (runSelections host orders opts games) (runIndexes host orders opts games) entry) = true) :
    Expired host orders opts games key entry := by
  obtain ⟨g, hg, hkey⟩ := Option.any_eq_true _ _ |>.mp hmatch
  cases entry with
  | other dump => cases hg
  | object app =>
      rw [runIndexes, updateEntry_of_some hg] at hexpires
      exact ⟨app, g, rfl, hg, by simpa using hkey, hexpires⟩

/-- Of entries of which at most one is matched, none is kept if that one has expired. -/
theorem counts_of_matched {matched expired : Entry → Bool} (entries : List Entry) :
    entries.countP (fun entry => matched entry && !expired entry) +
          (if entries.countP matched = 0 then 1 else 0) = 1 ∨
      entries.countP (fun entry => matched entry && !expired entry) +
          (if entries.countP matched = 0 then 1 else 0) = 0 ∧
        (∃ entry ∈ entries, matched entry = true ∧ expired entry = true) ∨
      2 ≤ entries.countP matched := by
  have hsplit : entries.countP matched =
      entries.countP (fun entry => matched entry && !expired entry) +
        entries.countP fun entry => matched entry && expired entry := by
    induction entries with
    | nil => rfl
    | cons entry entries ih =>
        simp only [List.countP_cons, ih]
        cases matched entry <;> cases expired entry <;> simp <;> omega
  by_cases hexpired : 0 < entries.countP fun entry => matched entry && expired entry
  · obtain ⟨entry, hentry, hboth⟩ := List.countP_pos_iff.mp hexpired
    by_cases hmany : 2 ≤ entries.countP matched
    · exact Or.inr (Or.inr hmany)
    · refine Or.inr (Or.inl ⟨?_, entry, hentry, by simpa using hboth⟩)
      rw [if_neg (by omega)]
      omega
  · split <;> omega

/-- Entries that are not auto-managed have no key. -/
theorem autoKey_of_isAuto {entry : Entry} (h : entry.isAuto = false) : entry.autoKey = none := by
  cases entry with
  | other dump => rfl
  | object app =>
      simp only [Entry.isAuto, decide_eq_false_iff_not] at h
      simp [Entry.autoKey, h]

/-- What is added is auto-managed. -/
theorem filter_added :
    (autosyncReconcile host orders opts games apps).added.filter (!·.isAuto) = [] := by
  rw [autosyncReconcile_added, List.filter_eq_nil_iff]
  intro entry hentry
  obtain ⟨g, -, rfl⟩ := List.mem_map.mp hentry
  simp [Entry.isAuto, newApp, markAppAsPlayniteAuto, asString]

theorem filter_map_updateEntry {sel : Selections} {selected : List Game} (entries : List Entry) :
    (entries.map (updateEntry host sel (buildGameIndexes selected))).filter (!·.isAuto) =
      entries.filter fun entry =>
        !entry.isAuto && (matchEntry (buildGameIndexes selected) entry).isNone := by
  induction entries with
  | nil => rfl
  | cons entry entries ih =>
      rw [List.map_cons, List.filter_cons, List.filter_cons, ih]
      cases hmatch : matchEntry (buildGameIndexes selected) entry with
      | none => simp [updateEntry_of_none hmatch]
      | some g =>
          cases entry with
          | other dump => cases hmatch
          | object app => simp [updateEntry_of_some hmatch, isAuto_updateApp]

/-- **What a reconcile leaves.** -/
theorem autosyncReconcile_reconciles :
    Reconciles host orders opts games apps (autosyncReconcile host orders opts games apps) where
  unique := by
    intro key
    rw [Reconciled.apps, List.countP_append, countP_added]
    cases hkey : (selectedGames host.clock orders opts games).any (·.key = key) with
    | false =>
        refine Or.inl ?_
        have hkept := countP_kept_of_not_selected host orders opts games apps hkey
        simpa using hkept
    | true =>
        rw [countP_kept host orders opts games apps hkey]
        have hle := List.countP_mono_left (p := fun entry =>
          matchesKey (runIndexes host orders opts games) key entry &&
            !expiresEntry host.clock opts games (updateEntry host
              (runSelections host orders opts games) (runIndexes host orders opts games) entry))
          (q := matchesKey (runIndexes host orders opts games) key)
          (l := dedupedApps host apps) (fun entry _ h => (Bool.and_eq_true _ _ ▸ h).1)
        split
        · case isTrue hnone =>
            simp only [Bool.true_and, decide_eq_true_eq] at hnone
            omega
        · omega
  covered := by
    intro g hg hid
    obtain ⟨g', hg', hkey⟩ := exists_selectedGames hg hid
    have hany : (selectedGames host.clock orders opts games).any (·.key = g.key) = true :=
      List.any_eq_true.mpr ⟨g', hg', by simpa using hkey⟩
    rw [Reconciled.apps, List.countP_append, countP_added, hany,
      countP_kept host orders opts games apps hany]
    simp only [Bool.true_and, decide_eq_true_eq]
    rcases counts_of_matched (dedupedApps host apps) with hone | ⟨hzero, hexpired⟩ | hmany
    · exact Or.inl hone
    · obtain ⟨entry, hentry, hmatch, hexpires⟩ := hexpired
      exact Or.inr (Or.inl ⟨hzero, entry, hentry, expired_of_matchesKey hmatch hexpires⟩)
    · exact Or.inr (Or.inr hmany)
  added := by
    intro entry hentry
    rw [autosyncReconcile_added] at hentry
    obtain ⟨g, hg, rfl⟩ := List.mem_map.mp hentry
    have hselected := mem_selectedGames (List.mem_filter.mp hg).1
    obtain ⟨hgames, hinstalled, hexcluded⟩ := mem_chosen hselected.1
    exact ⟨g, hgames, hinstalled, hexcluded, hselected.1, autoKey_newApp hselected.2⟩
  frame := by
    refine ⟨ensureAll host.generate 0 apps, ensureAll_forall₂ 0 apps, ?_⟩
    have hkey : ∀ entry : Entry, (!entry.isAuto) = true → entry.autoKey = none := by
      intro entry h
      exact autoKey_of_isAuto (by simpa using h)
    rw [Reconciled.apps, List.filter_append, autosyncReconcile_kept, purge,
      purgeLoop_filter hkey, filter_added, List.append_nil, runIndexes, filter_map_updateEntry,
      dedupedApps]
    refine dedupe_filter ?_ [] _
    intro entry h
    exact hkey entry (Bool.and_eq_true _ _ ▸ h).1

/-! ## Two runs -/

/-- A stable sort, and a map that is walked as it was filled. -/
def stableOrders : Orders where
  sort := List.insertionSort fun a b => ¬ a.lastPlayed < b.lastPlayed
  walk := id
  sort_perm := List.perm_insertionSort _
  sort_sorted games := by
    have htotal : Std.Total fun a b : Game => ¬ a.lastPlayed < b.lastPlayed :=
      ⟨fun a b => (lt_or_ge a.lastPlayed b.lastPlayed).symm.imp not_lt_of_ge not_lt_of_gt⟩
    have htrans : IsTrans Game fun a b => ¬ a.lastPlayed < b.lastPlayed :=
      ⟨fun a b c hab hbc => not_lt_of_ge ((not_lt.mp hbc).trans (not_lt.mp hab))⟩
    exact List.pairwise_insertionSort _ games
  walk_perm _ := List.Perm.refl _

/-- A machine at the start of 2026, without covers. -/
def newYear : Host where
  clock :=
    { mkgmtime := fun _ _ _ _ _ _ => some 1767225600
      now := 1767225600
      nowIso8601Utc := "2026-01-01T00:00:00Z"
      parse_now := by rfl }
  cover _ := none
  generate _ := "2F1E60A5-0C3A-4C52-9F43-7B40C1E2D6AB"
  generate_ne _ := by decide

/-- Every installed game, and no other rule. -/
def everything : Options where
  recentN := 0
  recentAgeDays := 0
  deleteAfterDays := 0
  requireRepl := false
  syncAllInstalled := true
  removeUninstalled := false
  categories := []
  includePlugins := []
  excludeCategories := []
  excludeIds := []
  excludePlugins := []

def chess : Game where
  id := "ab-1"
  name := "Chess"
  exe := "chess.exe"
  workingDir := ""
  categories := []
  pluginId := ""
  pluginName := ""
  lastPlayed := ""
  boxArtPath := ""
  installed := true

/-- An app made by hand that starts `cmd`. -/
def manual (uuid cmd : String) : App :=
  { App.empty with
    uuid := some (.string uuid)
    cmd := some (.string cmd) }

/-- Two apps that start the one game both become its app; and an app of a game that is gone
has its uuid replaced. -/
theorem reconcile_doubles_and_renames :
    (autosyncReconcile newYear stableOrders everything [chess]
        [.object (manual "A" "chess.exe"), .object (manual "B" "chess.exe -w")]).apps.countP
      (Entry.hasKey "ab-1") = 2 ∧
    (autosyncReconcile newYear stableOrders everything []
        [.object { manual "A" "go.exe" with playniteId := some (.string "cd-2") }]).apps =
      [.object { manual "CD-2" "go.exe" with playniteId := some (.string "cd-2") }] := by
  constructor
  · decide +kernel
  · decide +kernel

end LuminalShine.Playnite
