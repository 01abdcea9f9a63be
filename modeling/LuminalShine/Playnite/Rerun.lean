import LuminalShine.Playnite.Result

/-!
# A second reconcile

When `autosync_reconcile` leaves its own result alone.  It does so when each selected game has
one app left after the first run, which has the game's uuid; apps that become the app of one
game are only found to be duplicates, a uuid only set anew, and a game whose app was purged
only added, when the next run begins.

## Main definitions

* `Steady` — what a selected game needs.
* `Fixed` — an app that matching leaves as it is.

## Main results

* `autosyncReconcile_rerun`
-/

namespace LuminalShine.Playnite

open LuminalShine.Lib

/-! ## Statements -/

/-- The game is listed as uninstalled as well, and such games are removed. -/
def gone (opts : Options) (games : List Game) (g : Game) : Bool :=
  opts.removeUninstalled && (uninstalledLower games).contains g.key

section Statement

variable (host : Host) (orders : Orders) (opts : Options) (games : List Game) (apps : List Entry)

/-- The app is matched by the game of that key, and neither rule purges it. -/
def lasts (key : String) (entry : Entry) : Bool :=
  matchesKey (runIndexes host orders opts games) key entry &&
    !expiresEntry host.clock opts games
      (updateEntry host (runSelections host orders opts games)
        (runIndexes host orders opts games) entry)

/-- No app is matched by the game, and it stays; or the one that stays has the game's uuid. -/
def Steady (g : Game) : Prop :=
  (∀ entry ∈ dedupedApps host apps,
      matchesKey (runIndexes host orders opts games) g.key entry = false) ∧
    gone opts games g = false ∨
  ∃ app, (dedupedApps host apps).filter (lasts host orders opts games g.key) = [.object app] ∧
    app.uuid = some (.string (canonicalPlayniteAppUuid g.id))

/-- The same run, on the apps that the first one left. -/
def rerun : Reconciled :=
  autosyncReconcile host orders opts games (autosyncReconcile host orders opts games apps).apps

end Statement

/-! ## Apps that are matched again -/

/-- Matching the entry again does nothing, and it has the key of its game. -/
structure Fixed (host : Host) (sel : Selections) (selected : List Game) (entry : Entry) : Prop where
  same : updateEntry host sel (buildGameIndexes selected) entry = entry
  own : ∀ g, matchEntry (buildGameIndexes selected) entry = some g → entry.autoKey = some g.key

section Fixed

variable {host : Host} {sel : Selections} {selected : List Game} {entry : Entry} {g : Game}

theorem updateApp_updateApp (app : App) :
    updateApp host sel g (updateApp host sel g app) = updateApp host sel g app := by
  simp [updateApp, markAppAsPlayniteAuto, applyGameMetadataToApp, ← Option.or_assoc]

theorem updateApp_newApp : updateApp host sel g (newApp host sel g) = newApp host sel g := by
  obtain ⟨uuid, happ, -⟩ :=
    ensureAppUuid_eq (host.generate 0) (applyGameMetadataToApp host.cover g .empty)
  simp only [newApp, happ]
  simp [updateApp, markAppAsPlayniteAuto, applyGameMetadataToApp, ← Option.or_assoc]

theorem fixed_of_none (h : matchEntry (buildGameIndexes selected) entry = none) :
    Fixed host sel selected entry where
  same := updateEntry_of_none h
  own g hg := by
    rw [h] at hg
    cases hg

/-- An app with the key of its game, to which the game was applied. -/
theorem fixed_of_updateApp (hnodup : (selected.map Game.key).Nodup)
    (hid : ∀ g ∈ selected, g.id ≠ "") (hg : g ∈ selected) {app : App}
    (hkey : (Entry.object app).autoKey = some g.key) (happ : updateApp host sel g app = app) :
    Fixed host sel selected (.object app) := by
  have hmatch : matchEntry (buildGameIndexes selected) (.object app) = some g :=
    matchEntry_of_autoKey hnodup hid hg hkey
  constructor
  · rw [updateEntry_of_some hmatch, happ]
  · intro g' hg'
    rw [hmatch, Option.some.injEq] at hg'
    rw [hkey, hg']

theorem fixed_updateEntry (hnodup : (selected.map Game.key).Nodup)
    (hid : ∀ g ∈ selected, g.id ≠ "") (entry : Entry) :
    Fixed host sel selected (updateEntry host sel (buildGameIndexes selected) entry) := by
  cases hmatch : matchEntry (buildGameIndexes selected) entry with
  | none =>
      rw [updateEntry_of_none hmatch]
      exact fixed_of_none hmatch
  | some g =>
      have hg := mem_of_matchEntry hmatch
      cases entry with
      | other dump => cases hmatch
      | object app =>
          rw [updateEntry_of_some hmatch]
          exact fixed_of_updateApp hnodup hid hg (autoKey_updateApp (hid g hg) app)
            (updateApp_updateApp app)

/-- Nothing that is matched on depends on the uuid. -/
theorem Fixed.ensure (h : Fixed host sel selected entry) (fresh : String) :
    Fixed host sel selected (ensureEntry fresh entry).1 := by
  cases entry with
  | other dump => exact h
  | object app =>
      obtain ⟨uuid, happ, -⟩ := ensureAppUuid_eq fresh app
      have hmatch : matchEntry (buildGameIndexes selected) (.object { app with uuid }) =
          matchEntry (buildGameIndexes selected) (.object app) := rfl
      simp only [ensureEntry, happ]
      cases hgame : matchEntry (buildGameIndexes selected) (.object app) with
      | none => exact fixed_of_none (hmatch.trans hgame)
      | some g =>
          have hsame := h.same
          rw [updateEntry_of_some hgame] at hsame
          constructor
          · rw [updateEntry_of_some (hmatch.trans hgame)]
            have huuid : updateApp host sel g { app with uuid } =
                { updateApp host sel g app with uuid } := rfl
            rw [huuid, Entry.object.inj hsame]
          · intro g' hg'
            exact h.own g' (hmatch.symm.trans hg')

theorem matchesKey_of_fixed (hnodup : (selected.map Game.key).Nodup)
    (hid : ∀ g ∈ selected, g.id ≠ "") (hg : g ∈ selected) (h : Fixed host sel selected entry) :
    matchesKey (buildGameIndexes selected) g.key entry = entry.hasKey g.key := by
  rw [Bool.eq_iff_iff]
  simp only [matchesKey, Option.any_eq_true, decide_eq_true_eq, Entry.hasKey]
  constructor
  · rintro ⟨g', hg', hkey⟩
    rw [h.own g' hg', hkey]
  · intro hkey
    exact ⟨g, matchEntry_of_autoKey hnodup hid hg hkey, rfl⟩

end Fixed

/-! ## Passes that do nothing -/

theorem mem_ensureAll {generate : ℕ → String} {n : ℕ} {entries : List Entry} {entry : Entry}
    (h : entry ∈ ensureAll generate n entries) :
    ∃ entry' ∈ entries, ∃ fresh, entry = (ensureEntry fresh entry').1 := by
  induction entries generalizing n with
  | nil => cases h
  | cons entry' entries ih =>
      rcases List.mem_cons.mp h with rfl | h
      · exact ⟨entry', List.mem_cons_self, generate n, rfl⟩
      · obtain ⟨entry'', hmem, hensured⟩ := ih h
        exact ⟨entry'', List.mem_cons_of_mem _ hmem, hensured⟩

theorem autoKey_ensureEntry (fresh : String) (entry : Entry) :
    (ensureEntry fresh entry).1.autoKey = entry.autoKey := by
  cases entry with
  | other dump => rfl
  | object app =>
      obtain ⟨uuid, happ, -⟩ := ensureAppUuid_eq fresh app
      simp only [ensureEntry, happ]
      rfl

theorem filterMap_autoKey_ensureAll (generate : ℕ → String) (n : ℕ) (entries : List Entry) :
    (ensureAll generate n entries).filterMap Entry.autoKey =
      entries.filterMap Entry.autoKey := by
  induction entries generalizing n with
  | nil => rfl
  | cons entry entries ih =>
      simp only [ensureAll, List.filterMap_cons, autoKey_ensureEntry, ih]

theorem dedupe_of_nodup {seen : List String} {entries : List Entry}
    (hnodup : (entries.filterMap Entry.autoKey).Nodup)
    (hseen : ∀ key ∈ entries.filterMap Entry.autoKey, key ∉ seen) :
    dedupe seen entries = entries := by
  induction entries generalizing seen with
  | nil => rfl
  | cons entry entries ih =>
      unfold dedupe
      split
      · case h_1 hkey =>
          rw [List.filterMap_cons_none hkey] at hnodup hseen
          rw [ih hnodup hseen]
      · case h_2 key hkey =>
          rw [List.filterMap_cons_some hkey] at hnodup hseen
          obtain ⟨hfirst, hnodup⟩ := List.nodup_cons.mp hnodup
          rw [if_neg (by simpa using hseen key List.mem_cons_self), ih hnodup]
          intro key' hkey' hmem
          rcases List.mem_cons.mp hmem with rfl | hmem
          · exact hfirst hkey'
          · exact hseen key' (List.mem_cons_of_mem _ hkey') hmem

/-- No key is lost. -/
theorem mem_dedupe {key : String} {seen : List String} {entries : List Entry}
    (h : key ∈ entries.filterMap Entry.autoKey) (hseen : key ∉ seen) :
    key ∈ (dedupe seen entries).filterMap Entry.autoKey := by
  induction entries generalizing seen with
  | nil => cases h
  | cons entry entries ih =>
      unfold dedupe
      split
      · case h_1 hkey =>
          rw [List.filterMap_cons_none hkey] at h ⊢
          exact ih h hseen
      · case h_2 key' hkey =>
          rw [List.filterMap_cons_some hkey] at h
          by_cases heq : key = key'
          · subst heq
            rw [if_neg (by simpa using hseen), List.filterMap_cons_some hkey]
            exact List.mem_cons_self
          · have hrest := (List.mem_cons.mp h).resolve_left heq
            split
            · exact ih hrest hseen
            · rw [List.filterMap_cons_some hkey]
              refine List.mem_cons_of_mem _ (ih hrest ?_)
              simpa [heq] using hseen

section Purge

variable {clock : Clock} {opts : Options} {games selected : List Game}

/-- The purge does not touch the entry, when no replacement is left. -/
def Stays (clock : Clock) (opts : Options) (games selected : List Game) (entry : Entry) : Prop :=
  ∀ app, entry = .object app → ∀ key, entry.autoKey = some key →
    expires clock opts games app = false ∧
      (selected.any (·.key = key) = true ∨ installedOnly opts app = false)

theorem stays_of_mem_purgeLoop {repl : ℕ} {entries : List Entry} {entry : Entry}
    (h : entry ∈ purgeLoop clock opts games selected repl entries) :
    Stays clock opts games selected entry := by
  induction entries generalizing repl with
  | nil => cases h
  | cons entry' entries ih =>
      cases entry' with
      | other dump =>
          rcases List.mem_cons.mp h with rfl | h
          · intro app happ
            cases happ
          · exact ih h
      | object app =>
          unfold purgeLoop at h
          split at h
          · case h_1 hkey =>
              rcases List.mem_cons.mp h with rfl | h
              · intro app' happ key' hkey'
                rw [hkey] at hkey'
                cases hkey'
              · exact ih h
          · case h_2 key hkey =>
              have hstays : expires clock opts games app = false →
                  (selected.any (·.key = key) = true ∨ installedOnly opts app = false) →
                  Stays clock opts games selected (.object app) := by
                intro hexpires hrule app' happ key' hkey'
                cases happ
                rw [hkey, Option.some.injEq] at hkey'
                subst hkey'
                exact ⟨hexpires, hrule⟩
              split at h
              · exact ih h
              · case isFalse hexpires =>
                  split at h
                  · case isTrue hselected =>
                      rcases List.mem_cons.mp h with rfl | h
                      · exact hstays (by simpa using hexpires) (Or.inl hselected)
                      · exact ih h
                  · split at h
                    · exact ih h
                    · case isFalse hinstalled =>
                        split at h
                        · exact ih h
                        · rcases List.mem_cons.mp h with rfl | h
                          · exact hstays (by simpa using hexpires)
                              (Or.inr (by simpa using hinstalled))
                          · exact ih h

/-- An app of a selected game that does not expire is kept. -/
theorem mem_purgeLoop {repl : ℕ} {entries : List Entry} {app : App} {key : String}
    (hkey : (Entry.object app).autoKey = some key)
    (hselected : selected.any (·.key = key) = true)
    (hexpires : expires clock opts games app = false) (h : .object app ∈ entries) :
    .object app ∈ purgeLoop clock opts games selected repl entries := by
  induction entries generalizing repl with
  | nil => cases h
  | cons entry entries ih =>
      rcases List.mem_cons.mp h with rfl | hrest
      · unfold purgeLoop
        rw [hkey]
        simp only
        rw [if_neg (by simp [hexpires]), if_pos hselected]
        exact List.mem_cons_self
      · cases entry with
        | other dump => exact List.mem_cons_of_mem _ (ih hrest)
        | object app' =>
            unfold purgeLoop
            split
            · exact List.mem_cons_of_mem _ (ih hrest)
            · split
              · exact ih hrest
              · split
                · exact List.mem_cons_of_mem _ (ih hrest)
                · split
                  · exact ih hrest
                  · split
                    · exact ih hrest
                    · exact List.mem_cons_of_mem _ (ih hrest)

theorem purgeLoop_of_stays {entries : List Entry}
    (h : ∀ entry ∈ entries, Stays clock opts games selected entry) :
    purgeLoop clock opts games selected 0 entries = entries := by
  induction entries with
  | nil => rfl
  | cons entry entries ih =>
      have hrest := ih fun e he => h e (List.mem_cons_of_mem _ he)
      cases entry with
      | other dump => rw [purgeLoop, hrest]
      | object app =>
          unfold purgeLoop
          split
          · rw [hrest]
          · case h_2 key hkey =>
              obtain ⟨hexpires, hrule⟩ := h _ List.mem_cons_self app rfl key hkey
              rw [if_neg (by simp [hexpires]), hrest]
              split
              · rfl
              · case isFalse hselected =>
                  rw [if_neg (by simp [hrule.resolve_left hselected]), if_neg (by simp)]

end Purge

/-! ## What the first run leaves -/

section First

variable {host : Host} {orders : Orders} {opts : Options} {games : List Game} {apps : List Entry}
  {g : Game} {entry : Entry}

theorem mem_kept (h : entry ∈ (autosyncReconcile host orders opts games apps).kept) :
    Stays host.clock opts games (selectedGames host.clock orders opts games) entry ∧
      ∃ entry' ∈ dedupedApps host apps, entry = updateEntry host
        (runSelections host orders opts games) (runIndexes host orders opts games) entry' := by
  rw [autosyncReconcile_kept] at h
  obtain ⟨entry', hentry', rfl⟩ := List.mem_map.mp ((purgeLoop_sublist _ _).subset h)
  exact ⟨stays_of_mem_purgeLoop h, entry', hentry', rfl⟩

/-- What is added is for a selected game that no app matches. -/
theorem mem_added (h : entry ∈ (autosyncReconcile host orders opts games apps).added) :
    ∃ g ∈ selectedGames host.clock orders opts games,
      entry = .object (newApp host (runSelections host orders opts games) g) ∧
      ∀ entry' ∈ dedupedApps host apps,
        matchesKey (runIndexes host orders opts games) g.key entry' = false := by
  rw [autosyncReconcile_added] at h
  obtain ⟨g, hg, rfl⟩ := List.mem_map.mp h
  obtain ⟨hselected, hnone⟩ := List.mem_filter.mp hg
  refine ⟨g, hselected, rfl, ?_⟩
  intro entry' hentry'
  rw [Bool.eq_false_iff]
  intro hmatch
  obtain ⟨g', hg', hkey⟩ := (Option.any_eq_true _ _).mp hmatch
  simp only [Bool.not_eq_true', List.any_eq_false] at hnone
  exact hnone g' (List.mem_filterMap.mpr ⟨entry', hentry', hg'⟩) hkey

theorem fixed_apps (h : entry ∈ (autosyncReconcile host orders opts games apps).apps) :
    Fixed host (runSelections host orders opts games)
      (selectedGames host.clock orders opts games) entry := by
  have hid := selectedGames_id host orders opts games
  rcases List.mem_append.mp h with h | h
  · obtain ⟨-, entry', -, rfl⟩ := mem_kept h
    exact fixed_updateEntry selectedGames_nodup hid entry'
  · obtain ⟨g, hg, rfl, -⟩ := mem_added h
    exact fixed_of_updateApp selectedGames_nodup hid hg (autoKey_newApp (hid g hg))
      updateApp_newApp

theorem settled_newApp {sel : Selections} : (newApp host sel g).settled := by
  have hsettled := ensureAppUuid_settled (host.generate_ne 0)
    (applyGameMetadataToApp host.cover g .empty)
  obtain ⟨uuid, happ, -⟩ :=
    ensureAppUuid_eq (host.generate 0) (applyGameMetadataToApp host.cover g .empty)
  rw [happ] at hsettled
  simp only [newApp, happ]
  exact hsettled

/-- An app that is new is not purged by its age. -/
theorem expires_newApp {sel : Selections} :
    expires host.clock opts games (newApp host sel g) = gone opts games g := by
  obtain ⟨uuid, happ, -⟩ :=
    ensureAppUuid_eq (host.generate 0) (applyGameMetadataToApp host.cover g .empty)
  have hpid : (newApp host sel g).pid = g.id := by
    simp only [newApp, happ]
    rfl
  have hage : shouldTtlDelete host.clock opts
      (buildLastPlayedMap host.clock (installedGames games)) (newApp host sel g) = false := by
    unfold shouldTtlDelete
    split
    · rfl
    · case isFalse hdays =>
        have hnow : (asString (newApp host sel g).addedAt).bind
            (parseIso8601Utc host.clock.mkgmtime) = some host.clock.now := host.clock.parse_now
        rw [hnow]
        simp only [Option.getD_some, Bool.and_eq_false_iff, decide_eq_false_iff_not]
        exact Or.inl (by omega)
  rw [expires, hage, hpid, Bool.or_false]
  rfl

end First

/-! ## The second run -/

section Second

variable {host : Host} {orders : Orders} {opts : Options} {games : List Game} {apps : List Entry}
  {g : Game} {entry : Entry}

/-- What is matched in the second run needs no change. -/
theorem rerun_kept : (rerun host orders opts games apps).kept =
    purge host.clock opts games (selectedGames host.clock orders opts games)
      (dedupedApps host (autosyncReconcile host orders opts games apps).apps) := by
  rw [rerun, autosyncReconcile_kept]
  congr 1
  have hsame : ∀ entry ∈ dedupedApps host (autosyncReconcile host orders opts games apps).apps,
      updateEntry host (runSelections host orders opts games) (runIndexes host orders opts games)
        entry = entry := by
    intro entry hentry
    obtain ⟨entry', hmem, fresh, rfl⟩ := mem_ensureAll ((dedupe_sublist _ _).subset hentry)
    exact ((fixed_apps hmem).ensure fresh).same
  rw [List.map_congr_left hsame, List.map_id']

theorem settled_rerun (h : entry ∈ (rerun host orders opts games apps).apps) :
    entry.settled := by
  rcases List.mem_append.mp h with h | h
  · rw [rerun_kept] at h
    exact dedupedApps_settled entry ((purgeLoop_sublist _ _).subset h)
  · obtain ⟨g, -, rfl, -⟩ := mem_added h
    exact settled_newApp

/-- In the second run the apps of a key are the ones that are matched. -/
theorem countP_matchesKey_rerun (hg : g ∈ selectedGames host.clock orders opts games) :
    (dedupedApps host (autosyncReconcile host orders opts games apps).apps).countP
        (matchesKey (runIndexes host orders opts games) g.key) =
      (dedupedApps host (autosyncReconcile host orders opts games apps).apps).countP
        (Entry.hasKey g.key) := by
  refine List.countP_congr fun entry hentry => ?_
  obtain ⟨entry', hmem, fresh, rfl⟩ := mem_ensureAll ((dedupe_sublist _ _).subset hentry)
  rw [runIndexes, matchesKey_of_fixed selectedGames_nodup (selectedGames_id host orders opts games)
    hg ((fixed_apps hmem).ensure fresh)]

theorem selected_any (hg : g ∈ selectedGames host.clock orders opts games) :
    (selectedGames host.clock orders opts games).any (·.key = g.key) = true :=
  List.any_eq_true.mpr ⟨g, hg, by simp⟩

theorem countP_dedupedApps_pos : 0 < (dedupedApps host apps).countP (Entry.hasKey g.key) ↔
    0 < apps.countP (Entry.hasKey g.key) := by
  simp only [countP_hasKey, List.count_pos_iff]
  rw [← filterMap_autoKey_ensureAll host.generate 0 apps]
  constructor
  · intro h
    exact ((dedupe_sublist _ _).filterMap Entry.autoKey).subset h
  · intro h
    exact mem_dedupe h List.not_mem_nil

/-- The apps of a selected game after the first run. -/
theorem countP_apps (hg : g ∈ selectedGames host.clock orders opts games) :
    (autosyncReconcile host orders opts games apps).apps.countP (Entry.hasKey g.key) =
      (dedupedApps host apps).countP (lasts host orders opts games g.key) +
        if (dedupedApps host apps).countP (matchesKey (runIndexes host orders opts games) g.key) = 0
        then 1 else 0 := by
  rw [Reconciled.apps, List.countP_append, countP_added,
    countP_kept host orders opts games apps (selected_any hg), selected_any hg]
  simp only [Bool.true_and, decide_eq_true_eq]
  rfl

theorem countP_lasts_le (key : String) :
    (dedupedApps host apps).countP (lasts host orders opts games key) ≤
      (dedupedApps host apps).countP (matchesKey (runIndexes host orders opts games) key) := by
  refine List.countP_mono_left fun entry _ h => ?_
  simp only [lasts, Bool.and_eq_true] at h
  exact h.1

theorem exists_of_lasts (hg : g ∈ selectedGames host.clock orders opts games)
    (h : lasts host orders opts games g.key entry = true) :
    ∃ app, entry = .object app ∧
      matchAppAgainstIndexes (runIndexes host orders opts games) app = some g := by
  simp only [lasts, matchesKey, Bool.and_eq_true] at h
  obtain ⟨g', hmatch, hkey⟩ := (Option.any_eq_true _ _).mp h.1
  have heq : g' = g := List.inj_on_of_nodup_map selectedGames_nodup (mem_of_matchEntry hmatch) hg
    (of_decide_eq_true hkey)
  subst heq
  cases entry with
  | other dump => cases hmatch
  | object app => exact ⟨app, rfl, hmatch⟩

/-- A game whose app stays is not removed. -/
theorem not_gone_of_lasts (hg : g ∈ selectedGames host.clock orders opts games)
    (h : lasts host orders opts games g.key entry = true) : gone opts games g = false := by
  obtain ⟨app, rfl, hmatch⟩ := exists_of_lasts hg h
  simp only [lasts, runIndexes, updateEntry_of_some hmatch, expiresEntry, expires,
    Bool.and_eq_true, Bool.not_eq_true', Bool.or_eq_false_iff] at h
  exact h.2.1

/-- What stays of a selected game is kept. -/
theorem updateEntry_mem_kept (hg : g ∈ selectedGames host.clock orders opts games)
    (hmem : entry ∈ dedupedApps host apps) (h : lasts host orders opts games g.key entry = true) :
    updateEntry host (runSelections host orders opts games) (runIndexes host orders opts games)
      entry ∈ (autosyncReconcile host orders opts games apps).kept := by
  obtain ⟨app, rfl, hmatch⟩ := exists_of_lasts hg h
  simp only [lasts, Bool.and_eq_true, Bool.not_eq_true'] at h
  have hentry := List.mem_map_of_mem (f := updateEntry host (runSelections host orders opts games)
    (runIndexes host orders opts games)) hmem
  rw [runIndexes, updateEntry_of_some hmatch] at h hentry ⊢
  rw [autosyncReconcile_kept]
  exact mem_purgeLoop (autoKey_updateApp (selectedGames_id host orders opts games g hg) app)
    (selected_any hg) h.2 hentry

/-! ### The condition is needed -/

/-- When the second run changes nothing, each selected game has one app, which stays. -/
theorem countP_of_rerun (h : (rerun host orders opts games apps).apps =
      (autosyncReconcile host orders opts games apps).apps)
    (hg : g ∈ selectedGames host.clock orders opts games) :
    (autosyncReconcile host orders opts games apps).apps.countP (Entry.hasKey g.key) = 1 ∧
      0 < (dedupedApps host (autosyncReconcile host orders opts games apps).apps).countP
        (lasts host orders opts games g.key) := by
  have hcount := @countP_apps host orders opts games
    (autosyncReconcile host orders opts games apps).apps g hg
  have hle := @countP_lasts_le host orders opts games
    (autosyncReconcile host orders opts games apps).apps g.key
  rw [countP_matchesKey_rerun hg] at hcount hle
  have hone := countP_dedupedApps_le host
    (autosyncReconcile host orders opts games apps).apps g.key
  have hpos := @countP_dedupedApps_pos host
    (autosyncReconcile host orders opts games apps).apps g
  change (rerun host orders opts games apps).apps.countP (Entry.hasKey g.key) = _ at hcount
  rw [h] at hcount
  split at hcount <;> omega

theorem steady_of_rerun (h : (rerun host orders opts games apps).apps =
      (autosyncReconcile host orders opts games apps).apps)
    (hg : g ∈ selectedGames host.clock orders opts games) :
    Steady host orders opts games apps g := by
  obtain ⟨hone, hlasts⟩ := countP_of_rerun h hg
  have hcount := @countP_apps host orders opts games apps g hg
  by_cases hnone : (dedupedApps host apps).countP
      (matchesKey (runIndexes host orders opts games) g.key) = 0
  · refine Or.inl ⟨fun entry hentry => ?_, ?_⟩
    · simpa using List.countP_eq_zero.mp hnone entry hentry
    · obtain ⟨entry, hentry, hlasts⟩ := List.countP_pos_iff.mp hlasts
      exact not_gone_of_lasts hg hlasts
  · rw [if_neg hnone, hone, add_zero, List.countP_eq_length_filter] at hcount
    obtain ⟨entry, hfilter⟩ := List.length_eq_one_iff.mp hcount.symm
    have hentry : entry ∈ (dedupedApps host apps).filter (lasts host orders opts games g.key) :=
      hfilter ▸ List.mem_singleton_self entry
    obtain ⟨hmem, hlast⟩ := List.mem_filter.mp hentry
    have hkept := updateEntry_mem_kept hg hmem hlast
    obtain ⟨app, rfl, hmatch⟩ := exists_of_lasts hg hlast
    have hsettled : (Entry.object (updateApp host (runSelections host orders opts games) g
        app)).settled := by
      rw [runIndexes, updateEntry_of_some hmatch] at hkept
      refine @settled_rerun host orders opts games apps _ ?_
      rw [h]
      exact List.mem_append_left _ hkept
    exact Or.inr ⟨app, hfilter, hsettled.1 (selectedGames_id host orders opts games g hg)⟩

/-! ### The condition is enough -/

theorem countP_of_steady (hg : g ∈ selectedGames host.clock orders opts games)
    (h : Steady host orders opts games apps g) :
    (autosyncReconcile host orders opts games apps).apps.countP (Entry.hasKey g.key) = 1 := by
  have hle := @countP_lasts_le host orders opts games apps g.key
  rw [countP_apps hg]
  rcases h with ⟨hnone, -⟩ | ⟨app, hfilter, -⟩
  · have hzero : (dedupedApps host apps).countP
        (matchesKey (runIndexes host orders opts games) g.key) = 0 :=
      List.countP_eq_zero.mpr fun entry hentry => by simp [hnone entry hentry]
    rw [if_pos hzero]
    omega
  · have hone : (dedupedApps host apps).countP (lasts host orders opts games g.key) = 1 := by
      rw [List.countP_eq_length_filter, hfilter]
      rfl
    rw [if_neg (by omega), hone]

/-- No key comes twice. -/
theorem nodup_of_steady
    (h : ∀ g ∈ selectedGames host.clock orders opts games, Steady host orders opts games apps g) :
    ((autosyncReconcile host orders opts games apps).apps.filterMap Entry.autoKey).Nodup := by
  rw [List.nodup_iff_count_le_one]
  intro key
  rw [← countP_hasKey]
  cases hany : (selectedGames host.clock orders opts games).any (·.key = key) with
  | true =>
      obtain ⟨g, hg, hkey⟩ := List.any_eq_true.mp hany
      rw [← of_decide_eq_true hkey, countP_of_steady hg (h g hg)]
  | false =>
      rw [Reconciled.apps, List.countP_append, countP_added, hany]
      simpa using countP_kept_of_not_selected host orders opts games apps hany

theorem settled_of_steady
    (h : ∀ g ∈ selectedGames host.clock orders opts games, Steady host orders opts games apps g)
    (hentry : entry ∈ (autosyncReconcile host orders opts games apps).apps) : entry.settled := by
  rcases List.mem_append.mp hentry with hentry | hentry
  · obtain ⟨hstays, entry', hmem, rfl⟩ := mem_kept hentry
    cases hmatch : matchEntry (runIndexes host orders opts games) entry' with
    | none =>
        rw [runIndexes, updateEntry_of_none hmatch]
        exact dedupedApps_settled entry' hmem
    | some g =>
        have hg := mem_of_matchEntry hmatch
        have hid := selectedGames_id host orders opts games g hg
        have hmatches : matchesKey (runIndexes host orders opts games) g.key entry' = true := by
          simp [matchesKey, hmatch]
        cases entry' with
        | other dump => cases hmatch
        | object app =>
            have hlast : lasts host orders opts games g.key (.object app) = true := by
              rw [runIndexes, updateEntry_of_some hmatch] at hstays
              have hexpires := (hstays _ rfl g.key (autoKey_updateApp hid app)).1
              rw [lasts, hmatches, runIndexes, updateEntry_of_some hmatch]
              simp [expiresEntry, hexpires]
            rcases h g hg with ⟨hnone, -⟩ | ⟨app', hfilter, huuid⟩
            · rw [hnone _ hmem] at hmatches
              cases hmatches
            · have heq : Entry.object app = .object app' :=
                List.mem_singleton.mp (hfilter ▸ List.mem_filter.mpr ⟨hmem, hlast⟩)
              cases heq
              rw [runIndexes, updateEntry_of_some hmatch]
              exact ⟨fun _ => huuid, fun hempty => absurd hempty hid⟩
  · obtain ⟨g, -, rfl, -⟩ := mem_added hentry
    exact settled_newApp

theorem stays_of_steady
    (h : ∀ g ∈ selectedGames host.clock orders opts games, Steady host orders opts games apps g)
    (hentry : entry ∈ (autosyncReconcile host orders opts games apps).apps) :
    Stays host.clock opts games (selectedGames host.clock orders opts games) entry := by
  rcases List.mem_append.mp hentry with hentry | hentry
  · exact (mem_kept hentry).1
  · obtain ⟨g, hg, rfl, hunmatched⟩ := mem_added hentry
    intro app happ key hkey
    cases happ
    rw [autoKey_newApp (selectedGames_id host orders opts games g hg), Option.some.injEq] at hkey
    subst hkey
    refine ⟨?_, Or.inl (selected_any hg)⟩
    rw [expires_newApp]
    rcases h g hg with ⟨-, hgone⟩ | ⟨app, hfilter, -⟩
    · exact hgone
    · have hmem : .object app ∈
          (dedupedApps host apps).filter (lasts host orders opts games g.key) :=
        hfilter ▸ List.mem_singleton_self _
      obtain ⟨hmem, hlast⟩ := List.mem_filter.mp hmem
      rw [lasts, hunmatched _ hmem] at hlast
      cases hlast

theorem dedupedApps_of_steady
    (h : ∀ g ∈ selectedGames host.clock orders opts games, Steady host orders opts games apps g) :
    dedupedApps host (autosyncReconcile host orders opts games apps).apps =
      (autosyncReconcile host orders opts games apps).apps := by
  rw [dedupedApps, (ensureAll_of_settled (fun _ => settled_of_steady h) 0).1]
  exact dedupe_of_nodup (nodup_of_steady h) fun _ _ => List.not_mem_nil

theorem rerun_of_steady
    (h : ∀ g ∈ selectedGames host.clock orders opts games, Steady host orders opts games apps g) :
    (rerun host orders opts games apps).apps =
      (autosyncReconcile host orders opts games apps).apps := by
  have hpos : ∀ g ∈ selectedGames host.clock orders opts games,
      0 < (autosyncReconcile host orders opts games apps).apps.countP (Entry.hasKey g.key) := by
    intro g hg
    rw [countP_of_steady hg (h g hg)]
    exact Nat.one_pos
  have hkept : (rerun host orders opts games apps).kept =
      (autosyncReconcile host orders opts games apps).apps := by
    rw [rerun_kept, dedupedApps_of_steady h, purge]
    have hnone : countReplacementsAvailable (autosyncReconcile host orders opts games apps).apps
        (selectedGames host.clock orders opts games) = 0 := by
      rw [countReplacementsAvailable, List.countP_eq_zero]
      intro g hg
      have hmem := hpos g hg
      rw [countP_hasKey, List.count_pos_iff] at hmem
      simpa using hmem
    rw [hnone]
    exact purgeLoop_of_stays fun _ => stays_of_steady h
  have hadded : (rerun host orders opts games apps).added = [] := by
    rw [List.eq_nil_iff_forall_not_mem]
    intro entry hentry
    obtain ⟨g, hg, -, hunmatched⟩ := mem_added hentry
    have hmatched := (@countP_dedupedApps_pos host _ g).mpr (hpos g hg)
    rw [← countP_matchesKey_rerun hg, List.countP_pos_iff] at hmatched
    obtain ⟨entry', hmem, hmatch⟩ := hmatched
    rw [hunmatched entry' hmem] at hmatch
    cases hmatch
  rw [Reconciled.apps, hkept, hadded, List.append_nil]

/-- **A second reconcile** changes nothing when every selected game is steady, and only then. -/
theorem autosyncReconcile_rerun :
    (rerun host orders opts games apps).apps =
        (autosyncReconcile host orders opts games apps).apps ↔
      ∀ g ∈ selectedGames host.clock orders opts games, Steady host orders opts games apps g :=
  ⟨fun h _ hg => steady_of_rerun h hg, rerun_of_steady⟩

end Second

end LuminalShine.Playnite
