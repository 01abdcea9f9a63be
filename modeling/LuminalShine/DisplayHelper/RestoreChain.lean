import LuminalShine.Lib.Run
import Mathlib.Data.Option.Basic

/-!
# The restore chain of the display helper

The helper keeps up to three layouts on disk: the one captured before the current session, the
one before that, and a golden one the user exported.  A restore tries them in an order that
depends on the policy and on what is there, moves the files when one has been confirmed, and is
tried again and again until it is.  Every file operation can fail, and a copy that fails midway
leaves a cut file in place of its destination.

* `Helper` with `snapshotCurrent`, `trySessionSnapshots`, `tryRestoreOnce` — the files, the flags
  and the attempts;
* `Helper.step` — the messages of the host, its lost connections, and the polling thread;
* `Helper.Sound` — the files hold captures, the current one the newest, or were cut;
* `restore_chain` — over any run: nothing is captured while a restore is pending, the current file
  is the newest capture and the previous one no newer, and an attempt that is confirmed leaves on
  the displays one of the layouts it found.
-/

namespace LuminalShine.DisplayHelper.RestoreChain

variable {α : Type}

/-- A layout with the number of its capture. -/
structure Capture (α : Type) where
  number : ℕ
  layout : α

/-- What is in a session file: a capture, or what is left of a copy that failed midway.  The
loader reads its fields one by one, so it may make a layout of that too. -/
inductive Contents (α : Type)
  | capture (capture : Capture α)
  | cut (layout : Option α)

def Contents.layout : Contents α → Option α
  | .capture c => some c.layout
  | .cut layout => layout

/-- How `copy_file` ends; when it fails, before or after it has cut its destination. -/
inductive Copying (α : Type)
  | complete
  | notDone
  | cut (layout : Option α)

def Copying.isCut : Copying α → Bool
  | .cut _ => true
  | _ => false

/-- The destination of a copy. -/
def Copying.onto (o : Copying α) (source : Contents α) (destination : Option (Contents α)) :
    Option (Contents α) :=
  match o with
  | .complete => some source
  | .notDone => destination
  | .cut layout => some (.cut layout)

/-- The helper: its files, its flags, the layouts captured so far, and the layout that is on the
displays.  The golden file has the layout that the loader makes of it.  `leaving` is a polling
thread that has seen its request withdrawn and has not yet cleared it. -/
structure Helper (α : Type) where
  running : Bool
  current : Option (Contents α)
  previous : Option (Contents α)
  golden : Option (Option α)
  restoreRequested : Bool
  restoreAttemptedUnconfirmed : Bool
  alwaysRestoreFromGolden : Bool
  preferGoldenIfCurrentMissing : Bool
  goldenPendingSessionFallbacks : ℕ
  leaving : Bool
  captured : List α
  display : α

/-- How the file operations of a capture end: the staged save with its retries, the copy of the
current file to the previous one, and the copy of the staged file over the current one. -/
structure SaveOutcome (α : Type) where
  staged : Bool
  kept : Copying α
  replaced : Copying α

/-- What an attempt meets: whether each file can be read, whether the layout in it could be put on
the displays and was confirmed there, and how the file operations end.  The golden layout may be
tried twice, the first time by the golden-first strategy. -/
structure AttemptOutcome (α : Type) where
  readsCurrent : Bool
  restoresCurrent : Bool
  readsPrevious : Bool
  restoresPrevious : Bool
  readsGolden : Bool
  restoresGoldenFirst : Bool
  restoresGolden : Bool
  removesCurrent : Bool
  removesPrevious : Bool
  renames : Bool
  copies : Copying α

/-- How `attempt_revert_after_disconnect` ends: for a connection that is no longer the current
one, before anything was changed, shortly after an APPLY, or with a restore. -/
inductive Disconnect
  | stale
  | unmodified
  | withinGrace
  | restores
  deriving DecidableEq

namespace Helper

/-- `refresh_current_snapshot_preserving_previous`. -/
def refreshCurrentSnapshot (s : Helper α) (o : SaveOutcome α) : Helper α :=
  if !o.staged then s else
    { s with
      previous := s.current.elim s.previous fun current => o.kept.onto current s.previous
      current := o.replaced.onto (.capture ⟨s.captured.length, s.display⟩) s.current
      captured := match o.replaced with
        | .complete => s.captured ++ [s.display]
        | _ => s.captured }

/-- The `SnapshotCurrent` message. -/
def snapshotCurrent (s : Helper α) (o : SaveOutcome α) : Helper α :=
  if s.restoreRequested then s else s.refreshCurrentSnapshot o

/-- `promote_current_snapshot_to_previous`. -/
def promoteCurrent (s : Helper α) (o : AttemptOutcome α) : Helper α :=
  match s.current with
  | none => s
  | some current =>
    if o.renames then { s with previous := some current, current := none }
    else
      { s with
        previous := o.copies.onto current (if o.removesPrevious then none else s.previous)
        current := match o.copies with
          | .complete => if o.removesCurrent then none else s.current
          | _ => s.current }

/-- `clear_session_restore_snapshots_after_golden`. -/
def clearSession (s : Helper α) (o : AttemptOutcome α) : Helper α :=
  { s with
    current := if o.removesCurrent then none else s.current
    previous := if o.removesPrevious then none else s.previous }

/-- `try_golden`. -/
def tryGolden (s : Helper α) (o : AttemptOutcome α) (restores : Bool) : Helper α × Bool :=
  match s.golden.join with
  | some layout =>
    if o.readsGolden ∧ restores then
      ({ s with display := layout }.clearSession o, true)
    else (s, false)
  | none => (s, false)

/-- `apply_session_snapshot_from_path` on a file: whether a layout was tried, and the layout that
was confirmed. -/
def applySession (file : Option (Contents α)) (reads restores : Bool) : Bool × Option α :=
  match file.bind Contents.layout with
  | some layout => (reads, if reads ∧ restores then some layout else none)
  | none => (false, none)

/-- `try_session_snapshots`: the state, whether a session layout was restored, and whether the
golden one was tried before the previous one. -/
def trySessionSnapshots (s : Helper α) (o : AttemptOutcome α) : Helper α × Bool × Bool :=
  match applySession s.current o.readsCurrent o.restoresCurrent with
  | (_, some layout) => ({ s with display := layout }.promoteCurrent o, true, false)
  | (attemptedCurrent, none) =>
    let triedGolden : Bool := s.preferGoldenIfCurrentMissing && s.current.isNone &&
      s.previous.isSome && s.golden.isSome
    if triedGolden ∧ (s.tryGolden o o.restoresGolden).2 then
      ((s.tryGolden o o.restoresGolden).1, true, triedGolden)
    else match applySession s.previous o.readsPrevious o.restoresPrevious with
      | (_, some layout) =>
        ({ s with
          display := layout
          current := if attemptedCurrent ∧ o.removesCurrent then none else s.current },
          true, triedGolden)
      | (_, none) => (s, false, triedGolden)

def kGoldenFallbackCompletionThreshold : ℕ := 3

/-- The golden-first strategy: a session layout that was restored while the golden one is still
there completes the restore only the third time. -/
def tryGoldenFirst (s : Helper α) (o : AttemptOutcome α) : Helper α × Bool :=
  if (s.tryGolden o o.restoresGoldenFirst).2 then
    ({ (s.tryGolden o o.restoresGoldenFirst).1 with goldenPendingSessionFallbacks := 0 }, true)
  else
    let (s, restored, _) := s.trySessionSnapshots o
    if !restored then ({ s with goldenPendingSessionFallbacks := 0 }, false)
    else if s.golden.join.isSome ∧ o.readsGolden then
      let count := s.goldenPendingSessionFallbacks + 1
      if count < kGoldenFallbackCompletionThreshold then
        ({ s with goldenPendingSessionFallbacks := count }, false)
      else ({ s with goldenPendingSessionFallbacks := 0 }, true)
    else ({ s with goldenPendingSessionFallbacks := 0 }, true)

/-- The default strategy: the session layouts, then the golden one. -/
def trySessionFirst (s : Helper α) (o : AttemptOutcome α) : Helper α × Bool :=
  let (s, restored, triedGolden) := s.trySessionSnapshots o
  let s := { s with goldenPendingSessionFallbacks := 0 }
  if restored then (s, true)
  else if triedGolden then (s, false)
  else s.tryGolden o o.restoresGolden

/-- `try_restore_once_if_valid`; the result says that the restore is complete. -/
def tryRestoreOnce (s : Helper α) (o : AttemptOutcome α) : Helper α × Bool :=
  let s := { s with restoreAttemptedUnconfirmed := true }
  if s.alwaysRestoreFromGolden then s.tryGoldenFirst o else s.trySessionFirst o

/-- What ends a request: `clear_restore_origin` and the reset of the request. -/
def endRequest (s : Helper α) : Helper α :=
  { s with
    restoreRequested := false
    restoreAttemptedUnconfirmed := false
    preferGoldenIfCurrentMissing := false
    goldenPendingSessionFallbacks := 0 }

/-- There is something to restore. -/
def hasFile (s : Helper α) : Bool := s.current.isSome || s.previous.isSome || s.golden.isSome

end Helper

/-- What happens to the helper: the messages of the host, a lost connection, the polling thread
(its start, an attempt, and its end in two steps), and whatever else changes the displays.  The
end of an orphaned helper is a `stop` too, and `start` is the next helper. -/
inductive HelperOp (α : Type)
  | start (restoreMode : Bool)
  | snapshotCurrent (outcome : SaveOutcome α)
  | exportGolden (outcome : Copying α)
  | apply (alwaysRestoreFromGolden : Option Bool)
  | disarm
  | reset
  | ping
  | wddmReset
  | stop
  | revert (preferGolden cleanSession : Bool)
  | disconnect (outcome : Disconnect)
  | poll
  | attempt (outcome : AttemptOutcome α)
  | pollLeaves
  | pollEnds
  | displays (layout : α)

/-- A copy is cut in this step. -/
def HelperOp.cuts : HelperOp α → Bool
  | .snapshotCurrent o => o.kept.isCut || o.replaced.isCut
  | .attempt o => o.copies.isCut
  | _ => false

/-- `attempt_revert_after_disconnect`. -/
def Helper.disconnect (s : Helper α) : Disconnect → Helper α
  | .stale => s
  | .unmodified => { s with restoreRequested := false, running := false }
  | .withinGrace => { s with restoreRequested := false }
  | .restores => { s with restoreRequested := true }

/-- What a helper that runs makes of it; `none` is an attempt that nobody has asked for, or the
end of a polling thread that has seen no reason to end. -/
def Helper.handle (s : Helper α) : HelperOp α → Option (Helper α)
  | .start _ => none
  | .snapshotCurrent o => some (s.snapshotCurrent o)
  | .exportGolden .complete => some { s with golden := some (some s.display) }
  | .exportGolden .notDone => some s
  | .exportGolden (.cut layout) => some { s with golden := some layout }
  | .apply always =>
    some { s.endRequest with
      leaving := false
      alwaysRestoreFromGolden := always.getD s.alwaysRestoreFromGolden }
  | .disarm =>
    some (if s.restoreRequested ∧ s.restoreAttemptedUnconfirmed then s
      else { s.endRequest with leaving := false })
  | .reset => some s
  | .ping => some s
  | .wddmReset => some s
  | .stop => some { s.endRequest with running := false }
  | .revert preferGolden cleanSession =>
    some { s with
      restoreRequested := true
      preferGoldenIfCurrentMissing := preferGolden
      alwaysRestoreFromGolden := !cleanSession && s.alwaysRestoreFromGolden }
  | .disconnect outcome => some (s.disconnect outcome)
  | .poll =>
    if s.restoreRequested then
      some (if s.hasFile then s else { s.endRequest with running := false })
    else none
  | .attempt o =>
    if s.restoreRequested then
      some (if (s.tryRestoreOnce o).2 then (s.tryRestoreOnce o).1.endRequest
        else (s.tryRestoreOnce o).1)
    else none
  | .pollLeaves => if s.restoreRequested then none else some { s with leaving := true }
  | .pollEnds => if s.leaving then some { s.endRequest with leaving := false } else none
  | .displays layout => some { s with display := layout }

/-- A new helper finds the files of the last one.  The copies it makes of files it finds under
another root are left out. -/
def Helper.restart (s : Helper α) (restoreMode : Bool) : Helper α :=
  { s.endRequest with
    running := true
    restoreRequested := restoreMode
    alwaysRestoreFromGolden := false
    leaving := false }

/-- What happens while there is no helper. -/
def Helper.idle (s : Helper α) : HelperOp α → Option (Helper α)
  | .start restoreMode => some (s.restart restoreMode)
  | .displays layout => some { s with display := layout }
  | _ => none

def Helper.step (s : Helper α) (op : HelperOp α) : Option (Helper α) :=
  if s.running then s.handle op else s.idle op

namespace Helper

/-- The helper as it starts, with the session layouts an earlier run has left. -/
def start (previous current golden : Option α) (display : α) : Helper α :=
  { running := true
    current := current.map fun layout => .capture ⟨previous.toList.length, layout⟩
    previous := previous.map fun layout => .capture ⟨0, layout⟩
    golden := golden.map some
    restoreRequested := false
    restoreAttemptedUnconfirmed := false
    alwaysRestoreFromGolden := false
    preferGoldenIfCurrentMissing := false
    goldenPendingSessionFallbacks := 0
    leaving := false
    captured := previous.toList ++ current.toList
    display := display }

/-- A file holds the layout of its capture. -/
def Holds (s : Helper α) (c : Capture α) : Prop := s.captured[c.number]? = some c.layout

/-- The files hold captures, and the current one the newest, unless they were cut; the fallbacks
are counted up to the threshold. -/
structure Sound (s : Helper α) : Prop where
  current : ∀ c, s.current = some (.capture c) → s.Holds c ∧ c.number + 1 = s.captured.length
  previous : ∀ c, s.previous = some (.capture c) → s.Holds c
  fallbacks : s.goldenPendingSessionFallbacks < kGoldenFallbackCompletionThreshold

/-- No session file was cut. -/
structure Whole (s : Helper α) : Prop where
  current : ∀ layout, s.current ≠ some (.cut layout)
  previous : ∀ layout, s.previous ≠ some (.cut layout)

variable {s : Helper α} {o : AttemptOutcome α}

theorem sound_start (previous current golden : Option α) (display : α) :
    (start previous current golden display).Sound := by
  constructor
  · intro c hc
    cases current with
    | none => simp [start] at hc
    | some layout =>
        simp only [start, Option.map_some, Option.some.injEq, Contents.capture.injEq] at hc
        simp [← hc, start, Holds]
  · intro c hc
    cases previous with
    | none => simp [start] at hc
    | some layout =>
        simp only [start, Option.map_some, Option.some.injEq, Contents.capture.injEq] at hc
        simp [← hc, start, Holds]
  · exact Nat.zero_lt_succ 2

theorem onto_eq_capture {o : Copying α} {source : Contents α} {destination : Option (Contents α)}
    {c : Capture α} (h : o.onto source destination = some (.capture c)) :
    o.isCut = false ∧ (source = .capture c ∨ destination = some (.capture c)) := by
  cases o with
  | complete => exact ⟨rfl, Or.inl (Option.some.inj h)⟩
  | notDone => exact ⟨rfl, Or.inr h⟩
  | cut layout => cases h

theorem onto_ne_cut {o : Copying α} {source : Contents α} {destination : Option (Contents α)}
    (ho : o.isCut = false) (hsource : ∀ layout, source ≠ .cut layout)
    (hdestination : ∀ layout, destination ≠ some (.cut layout)) (layout : Option α) :
    o.onto source destination ≠ some (.cut layout) := by
  cases o with
  | complete => exact fun h => hsource layout (Option.some.inj h)
  | notDone => exact hdestination layout
  | cut layout => cases ho

/-- A capture is the newest there is; what was current may become previous. -/
theorem Sound.snapshotCurrent (h : s.Sound) (o : SaveOutcome α) : (s.snapshotCurrent o).Sound := by
  rw [Helper.snapshotCurrent]
  by_cases hpending : s.restoreRequested = true
  · rw [if_pos hpending]
    exact h
  rw [if_neg hpending, refreshCurrentSnapshot]
  cases o.staged with
  | false => exact h
  | true =>
      have hprevious : ∀ c, (s.current.elim s.previous fun current =>
          o.kept.onto current s.previous) = some (.capture c) → s.Holds c := by
        intro c hc
        cases hcurrent : s.current with
        | none =>
            rw [hcurrent] at hc
            exact h.previous c hc
        | some current =>
            rw [hcurrent] at hc
            rcases (onto_eq_capture hc).2 with rfl | hsame
            · exact (h.current c hcurrent).1
            · exact h.previous c hsame
      simp only [Bool.not_true, Bool.false_eq_true, if_false]
      cases hreplaced : o.replaced with
      | complete =>
          refine ⟨?_, ?_, h.fallbacks⟩
          · intro c hc
            obtain rfl := Contents.capture.inj (Option.some.inj hc)
            simp [Holds]
          · intro c hc
            have hold : s.Holds c := hprevious c hc
            obtain ⟨hlt, -⟩ := List.getElem?_eq_some_iff.mp hold
            change (s.captured ++ [s.display])[c.number]? = some c.layout
            rw [List.getElem?_append_left hlt]
            exact hold
      | notDone => exact ⟨h.current, hprevious, h.fallbacks⟩
      | cut layout => exact ⟨nofun, hprevious, h.fallbacks⟩

theorem Whole.snapshotCurrent (h : s.Whole) {o : SaveOutcome α} (hkept : o.kept.isCut = false)
    (hreplaced : o.replaced.isCut = false) : (s.snapshotCurrent o).Whole := by
  rw [Helper.snapshotCurrent, refreshCurrentSnapshot]
  split
  · exact h
  split
  · exact h
  · refine ⟨onto_ne_cut hreplaced nofun h.current, ?_⟩
    intro layout
    cases hcurrent : s.current with
    | none => exact h.previous layout
    | some current =>
        refine onto_ne_cut hkept ?_ h.previous layout
        exact fun layout hcut => h.current layout (hcut ▸ hcurrent)

/-! ### Attempts -/

/-- What everything but a capture does to the session files: each stays, goes, or the current one
becomes the previous one, by a copy that may be cut. -/
structure Keeps (cuts : Bool) (s s' : Helper α) : Prop where
  captured : s'.captured = s.captured
  current : s'.current = none ∨ s'.current = s.current
  previous : s'.previous = none ∨ s'.previous = s.previous ∨ s'.previous = s.current ∨
    cuts = true ∧ ∃ layout, s'.previous = some (.cut layout)

theorem Keeps.refl (cuts : Bool) (s : Helper α) : Keeps cuts s s :=
  ⟨rfl, Or.inr rfl, Or.inr (Or.inl rfl)⟩

/-- The rest of the state makes no difference. -/
theorem Keeps.of_files {cuts : Bool} {s' t : Helper α} (h : Keeps cuts s s')
    (hcaptured : t.captured = s'.captured) (hcurrent : t.current = s'.current)
    (hprevious : t.previous = s'.previous) : Keeps cuts s t :=
  ⟨hcaptured ▸ h.captured, hcurrent ▸ h.current, hprevious ▸ h.previous⟩

/-- Files that were there before, with the same captures, are sound. -/
theorem Sound.of_keeps (h : s.Sound) {cuts : Bool} {s' : Helper α} (hkeeps : Keeps cuts s s')
    (hfallbacks : s'.goldenPendingSessionFallbacks < kGoldenFallbackCompletionThreshold) :
    s'.Sound := by
  refine ⟨?_, ?_, hfallbacks⟩
  · intro c hc
    rw [Holds, hkeeps.captured]
    rcases hkeeps.current with hnone | hsame
    · rw [hnone] at hc
      cases hc
    · exact h.current c (hsame ▸ hc)
  · intro c hc
    rw [Holds, hkeeps.captured]
    rcases hkeeps.previous with hnone | hsame | hmoved | ⟨-, layout, hcut⟩
    · rw [hnone] at hc
      cases hc
    · exact h.previous c (hsame ▸ hc)
    · exact (h.current c (hmoved ▸ hc)).1
    · rw [hcut] at hc
      cases hc

theorem Whole.of_keeps (h : s.Whole) {s' : Helper α} (hkeeps : Keeps false s s') : s'.Whole := by
  constructor
  · intro layout
    rcases hkeeps.current with hnone | hsame
    · rw [hnone]
      exact nofun
    · rw [hsame]
      exact h.current layout
  · intro layout
    rcases hkeeps.previous with hnone | hsame | hmoved | ⟨hcut, -⟩
    · rw [hnone]
      exact nofun
    · rw [hsame]
      exact h.previous layout
    · rw [hmoved]
      exact h.current layout
    · cases hcut

/-- A layout the helper has on file. -/
def Found (s : Helper α) (layout : α) : Prop :=
  s.golden = some (some layout) ∨ s.current.bind Contents.layout = some layout ∨
    s.previous.bind Contents.layout = some layout

theorem keeps_promoteCurrent (s : Helper α) (o : AttemptOutcome α) (layout : α) :
    Keeps o.copies.isCut s (promoteCurrent { s with display := layout } o) := by
  rw [promoteCurrent]
  dsimp only
  cases hcurrent : s.current with
  | none => exact ⟨rfl, Or.inr hcurrent.symm, Or.inr (Or.inl rfl)⟩
  | some current =>
      have hmoved : some current = s.current := hcurrent.symm
      dsimp only
      split
      · exact ⟨rfl, Or.inl rfl, Or.inr (Or.inr (Or.inl hmoved))⟩
      · cases hcopies : o.copies with
        | complete =>
            refine ⟨rfl, ?_, Or.inr (Or.inr (Or.inl hmoved))⟩
            cases o.removesCurrent
            · exact Or.inr hmoved
            · exact Or.inl rfl
        | notDone =>
            refine ⟨rfl, Or.inr hmoved, ?_⟩
            cases o.removesPrevious
            · exact Or.inr (Or.inl rfl)
            · exact Or.inl rfl
        | cut left =>
            exact ⟨rfl, Or.inr hmoved, Or.inr (Or.inr (Or.inr ⟨rfl, left, rfl⟩))⟩

@[simp] theorem display_promoteCurrent (s : Helper α) (o : AttemptOutcome α) :
    (s.promoteCurrent o).display = s.display := by
  rw [promoteCurrent]
  split
  · rfl
  · split <;> rfl

/-- The golden layout is restored and the session files are cleared, or nothing happens. -/
theorem tryGolden_spec (s : Helper α) (o : AttemptOutcome α) (restores : Bool) :
    Keeps o.copies.isCut s (s.tryGolden o restores).1 ∧
      ((s.tryGolden o restores).2 = true →
        s.golden = some (some (s.tryGolden o restores).1.display)) ∧
      ((s.tryGolden o restores).2 = false → (s.tryGolden o restores).1 = s) := by
  rw [tryGolden]
  cases hg : s.golden.join with
  | none => exact ⟨Keeps.refl _ s, by simp, by simp⟩
  | some layout =>
      by_cases htry : o.readsGolden = true ∧ restores = true
      · simp only [htry, and_self, if_true]
        refine ⟨⟨rfl, ?_, ?_⟩, ?_, by simp⟩
        · cases hr : o.removesCurrent <;> simp [clearSession, hr]
        · cases hr : o.removesPrevious <;> simp [clearSession, hr]
        · exact fun _ => Option.join_eq_some_iff.mp hg
      · simp only [htry, if_false]
        exact ⟨Keeps.refl _ s, by simp, by simp⟩

@[simp] theorem fallbacks_tryGolden (s : Helper α) (o : AttemptOutcome α) (restores : Bool) :
    (s.tryGolden o restores).1.goldenPendingSessionFallbacks = s.goldenPendingSessionFallbacks := by
  rw [tryGolden]
  split
  · split <;> rfl
  · rfl

theorem applySession_eq_some {file : Option (Contents α)} {reads restores tried : Bool}
    {layout : α} (h : applySession file reads restores = (tried, some layout)) :
    file.bind Contents.layout = some layout := by
  rw [applySession] at h
  cases hfile : file.bind Contents.layout with
  | none => simp [hfile] at h
  | some found =>
      rw [hfile, Prod.mk.injEq, Option.ite_none_right_eq_some, Option.some.injEq] at h
      rw [h.2.2]

/-- The session chain restores a layout it has found, or it leaves everything alone. -/
theorem trySessionSnapshots_spec (s : Helper α) (o : AttemptOutcome α) :
    Keeps o.copies.isCut s (s.trySessionSnapshots o).1 ∧
      ((s.trySessionSnapshots o).2.1 = true → s.Found (s.trySessionSnapshots o).1.display) ∧
      ((s.trySessionSnapshots o).2.1 = false → (s.trySessionSnapshots o).1 = s) := by
  rw [trySessionSnapshots]
  rcases hcur : applySession s.current o.readsCurrent o.restoresCurrent with ⟨tried, _ | layout⟩
  · obtain ⟨hkeeps, hfound, -⟩ := tryGolden_spec s o o.restoresGolden
    dsimp only
    split
    · rename_i hgolden
      exact ⟨hkeeps, fun _ => Or.inl (hfound hgolden.2), by simp⟩
    · rcases hprev : applySession s.previous o.readsPrevious o.restoresPrevious with
        ⟨tried', _ | layout⟩
      · exact ⟨Keeps.refl _ s, by simp, by simp⟩
      · refine ⟨⟨rfl, ?_, Or.inr (Or.inl rfl)⟩, ?_, by simp⟩
        · dsimp only
          split
          · exact Or.inl rfl
          · exact Or.inr rfl
        · intro _
          exact Or.inr (Or.inr (applySession_eq_some hprev))
  · refine ⟨keeps_promoteCurrent s o layout, ?_, by simp⟩
    intro _
    rw [display_promoteCurrent]
    exact Or.inr (Or.inl (applySession_eq_some hcur))

/-- What an attempt may do: it moves files of the chain only, counts its fallbacks up to the
threshold, and is complete only with a layout that it has found. -/
structure Attempts (o : AttemptOutcome α) (s : Helper α) (r : Helper α × Bool) : Prop where
  keeps : Keeps o.copies.isCut s r.1
  fallbacks : r.1.goldenPendingSessionFallbacks < kGoldenFallbackCompletionThreshold
  found : r.2 = true → s.Found r.1.display

theorem attempts_tryGoldenFirst (s : Helper α) (o : AttemptOutcome α) :
    Attempts o s (s.tryGoldenFirst o) := by
  have hzero : 0 < kGoldenFallbackCompletionThreshold := Nat.zero_lt_succ 2
  obtain ⟨hkeeps, hfound, -⟩ := tryGolden_spec s o o.restoresGoldenFirst
  obtain ⟨hchain, hchainFound, -⟩ := trySessionSnapshots_spec s o
  rw [tryGoldenFirst]
  split
  · rename_i hgolden
    exact ⟨hkeeps.of_files rfl rfl rfl, hzero, fun _ => Or.inl (hfound hgolden)⟩
  rcases hr : s.trySessionSnapshots o with ⟨s', restored, tried⟩
  rw [hr] at hchain hchainFound
  cases restored with
  | false => exact ⟨hchain.of_files rfl rfl rfl, hzero, by simp⟩
  | true =>
      simp only [Bool.not_true, Bool.false_eq_true, if_false]
      split
      · split
        · exact ⟨hchain.of_files rfl rfl rfl, ‹_›, by simp⟩
        · exact ⟨hchain.of_files rfl rfl rfl, hzero, fun _ => hchainFound rfl⟩
      · exact ⟨hchain.of_files rfl rfl rfl, hzero, fun _ => hchainFound rfl⟩

theorem attempts_trySessionFirst (s : Helper α) (o : AttemptOutcome α) :
    Attempts o s (s.trySessionFirst o) := by
  have hzero : 0 < kGoldenFallbackCompletionThreshold := Nat.zero_lt_succ 2
  obtain ⟨hchain, hchainFound, hsame⟩ := trySessionSnapshots_spec s o
  rw [trySessionFirst]
  rcases hr : s.trySessionSnapshots o with ⟨s', restored, tried⟩
  rw [hr] at hchain hchainFound hsame
  cases restored with
  | true => exact ⟨hchain.of_files rfl rfl rfl, hzero, fun _ => hchainFound rfl⟩
  | false =>
      have hs : s' = s := hsame rfl
      subst hs
      simp only [Bool.false_eq_true, if_false]
      split
      · exact ⟨hchain.of_files rfl rfl rfl, hzero, by simp⟩
      · obtain ⟨hkeeps, hfound, -⟩ := tryGolden_spec { s' with goldenPendingSessionFallbacks := 0 }
          o o.restoresGolden
        refine ⟨⟨hkeeps.captured, hkeeps.current, hkeeps.previous⟩, ?_, ?_⟩
        · rw [fallbacks_tryGolden]
          exact hzero
        · exact fun hcomplete => Or.inl (hfound hcomplete)

theorem attempts_tryRestoreOnce (s : Helper α) (o : AttemptOutcome α) :
    Attempts o s (s.tryRestoreOnce o) := by
  rw [tryRestoreOnce]
  split
  · obtain ⟨hkeeps, hfallbacks, hfound⟩ :=
      attempts_tryGoldenFirst { s with restoreAttemptedUnconfirmed := true } o
    exact ⟨⟨hkeeps.captured, hkeeps.current, hkeeps.previous⟩, hfallbacks, hfound⟩
  · obtain ⟨hkeeps, hfallbacks, hfound⟩ :=
      attempts_trySessionFirst { s with restoreAttemptedUnconfirmed := true } o
    exact ⟨⟨hkeeps.captured, hkeeps.current, hkeeps.previous⟩, hfallbacks, hfound⟩

/-! ### Runs -/

/-- A step is a capture, or it keeps the files; the fallbacks stay as they are or below the
threshold. -/
theorem step_keeps {op : HelperOp α} {s' : Helper α} (hstep : s.step op = some s') :
    (∃ o, op = .snapshotCurrent o ∧ s' = s.snapshotCurrent o) ∨ Keeps op.cuts s s' ∧
      (s'.goldenPendingSessionFallbacks = s.goldenPendingSessionFallbacks ∨
        s'.goldenPendingSessionFallbacks < kGoldenFallbackCompletionThreshold) := by
  have hzero : 0 < kGoldenFallbackCompletionThreshold := Nat.zero_lt_succ 2
  rw [Helper.step] at hstep
  split at hstep
  · cases op with
    | start restoreMode => cases hstep
    | snapshotCurrent o => exact Or.inl ⟨o, rfl, (Option.some.inj hstep).symm⟩
    | exportGolden o =>
        cases o <;> cases hstep <;>
          exact Or.inr ⟨(Keeps.refl _ s).of_files rfl rfl rfl, Or.inl rfl⟩
    | apply always =>
        cases hstep
        exact Or.inr ⟨(Keeps.refl _ s).of_files rfl rfl rfl, Or.inr hzero⟩
    | disarm =>
        rw [Helper.handle, Option.some.injEq] at hstep
        subst hstep
        split
        · exact Or.inr ⟨Keeps.refl _ s, Or.inl rfl⟩
        · exact Or.inr ⟨(Keeps.refl _ s).of_files rfl rfl rfl, Or.inr hzero⟩
    | reset =>
        cases hstep
        exact Or.inr ⟨Keeps.refl _ s, Or.inl rfl⟩
    | ping =>
        cases hstep
        exact Or.inr ⟨Keeps.refl _ s, Or.inl rfl⟩
    | wddmReset =>
        cases hstep
        exact Or.inr ⟨Keeps.refl _ s, Or.inl rfl⟩
    | stop =>
        cases hstep
        exact Or.inr ⟨(Keeps.refl _ s).of_files rfl rfl rfl, Or.inr hzero⟩
    | revert preferGolden cleanSession =>
        cases hstep
        exact Or.inr ⟨(Keeps.refl _ s).of_files rfl rfl rfl, Or.inl rfl⟩
    | disconnect outcome =>
        cases outcome <;> cases hstep <;>
          exact Or.inr ⟨(Keeps.refl _ s).of_files rfl rfl rfl, Or.inl rfl⟩
    | poll =>
        rw [Helper.handle, Option.ite_none_right_eq_some, Option.some.injEq] at hstep
        obtain ⟨-, rfl⟩ := hstep
        split
        · exact Or.inr ⟨Keeps.refl _ s, Or.inl rfl⟩
        · exact Or.inr ⟨(Keeps.refl _ s).of_files rfl rfl rfl, Or.inr hzero⟩
    | attempt o =>
        rw [Helper.handle, Option.ite_none_right_eq_some, Option.some.injEq] at hstep
        obtain ⟨-, rfl⟩ := hstep
        obtain ⟨hkeeps, hfallbacks, -⟩ := attempts_tryRestoreOnce s o
        split
        · exact Or.inr ⟨hkeeps.of_files rfl rfl rfl, Or.inr hzero⟩
        · exact Or.inr ⟨hkeeps, Or.inr hfallbacks⟩
    | pollLeaves =>
        rw [Helper.handle, Option.ite_none_left_eq_some, Option.some.injEq] at hstep
        obtain ⟨-, rfl⟩ := hstep
        exact Or.inr ⟨(Keeps.refl _ s).of_files rfl rfl rfl, Or.inl rfl⟩
    | pollEnds =>
        rw [Helper.handle, Option.ite_none_right_eq_some, Option.some.injEq] at hstep
        obtain ⟨-, rfl⟩ := hstep
        exact Or.inr ⟨(Keeps.refl _ s).of_files rfl rfl rfl, Or.inr hzero⟩
    | displays layout =>
        cases hstep
        exact Or.inr ⟨(Keeps.refl _ s).of_files rfl rfl rfl, Or.inl rfl⟩
  · cases op
    case start restoreMode =>
      cases hstep
      exact Or.inr ⟨(Keeps.refl _ s).of_files rfl rfl rfl, Or.inr hzero⟩
    case displays layout =>
      cases hstep
      exact Or.inr ⟨(Keeps.refl _ s).of_files rfl rfl rfl, Or.inl rfl⟩
    all_goals cases hstep

theorem Sound.step (h : s.Sound) {op : HelperOp α} {s' : Helper α} (hstep : s.step op = some s') :
    s'.Sound := by
  rcases step_keeps hstep with ⟨o, -, rfl⟩ | ⟨hkeeps, hsame | hbelow⟩
  · exact h.snapshotCurrent o
  · exact h.of_keeps hkeeps (hsame ▸ h.fallbacks)
  · exact h.of_keeps hkeeps hbelow

theorem Whole.step (h : s.Whole) {op : HelperOp α} (hcuts : op.cuts = false) {s' : Helper α}
    (hstep : s.step op = some s') : s'.Whole := by
  rcases step_keeps hstep with ⟨o, rfl, rfl⟩ | ⟨hkeeps, -⟩
  · obtain ⟨hkept, hreplaced⟩ := Bool.or_eq_false_iff.mp hcuts
    exact h.snapshotCurrent hkept hreplaced
  · rw [hcuts] at hkeeps
    exact h.of_keeps hkeeps

/-- Under the default strategy an attempt that is not complete changes no file. -/
theorem trySessionFirst_incomplete (s : Helper α) (o : AttemptOutcome α)
    (hincomplete : (s.trySessionFirst o).2 = false) :
    (s.trySessionFirst o).1 = { s with goldenPendingSessionFallbacks := 0 } := by
  obtain ⟨-, -, hsame⟩ := trySessionSnapshots_spec s o
  rw [trySessionFirst] at hincomplete ⊢
  rcases hr : s.trySessionSnapshots o with ⟨s', restored, tried⟩
  rw [hr] at hsame hincomplete
  cases restored with
  | true => simp at hincomplete
  | false =>
      have hs : s' = s := hsame rfl
      subst hs
      simp only [Bool.false_eq_true, if_false] at hincomplete ⊢
      split
      · rfl
      · rename_i htried
        rw [if_neg htried] at hincomplete
        exact (tryGolden_spec _ o o.restoresGolden).2.2 hincomplete

theorem tryRestoreOnce_of_sessionFirst (hsessionFirst : s.alwaysRestoreFromGolden = false)
    (o : AttemptOutcome α) : s.tryRestoreOnce o =
      trySessionFirst { s with restoreAttemptedUnconfirmed := true } o := by
  rw [tryRestoreOnce, if_neg (by simp [hsessionFirst])]

/-- What leaves a pending restore pending: everything but an APPLY, the end of the helper, a
connection lost before anything was changed or shortly after an APPLY, and an attempt that is
complete. -/
def leavesPending (s : Helper α) : HelperOp α → Bool
  | .apply _ => false
  | .stop => false
  | .disconnect .unmodified => false
  | .disconnect .withinGrace => false
  | .attempt o => !(s.tryRestoreOnce o).2
  | _ => true

/-- A restore that has been tried, under the default strategy, with its files. -/
structure Pending (current previous : Option (Contents α)) (s : Helper α) : Prop where
  running : s.running = true
  requested : s.restoreRequested = true
  unconfirmed : s.restoreAttemptedUnconfirmed = true
  sessionFirst : s.alwaysRestoreFromGolden = false
  stays : s.leaving = false
  current : s.current = current
  previous : s.previous = previous
  file : s.hasFile = true

/-- A golden file that is written stays there. -/
theorem Pending.exportGolden {current previous : Option (Contents α)}
    (h : Pending current previous s) (golden : Option α) :
    Pending current previous { s with golden := some golden } :=
  ⟨h.running, h.requested, h.unconfirmed, h.sessionFirst, h.stays, h.current, h.previous,
    Bool.or_true _⟩

theorem Pending.step {current previous : Option (Contents α)} (h : Pending current previous s)
    {op : HelperOp α} {s' : Helper α} (hleaves : s.leavesPending op = true)
    (hstep : s.step op = some s') : Pending current previous s' := by
  rw [Helper.step, if_pos h.running] at hstep
  cases op with
  | start restoreMode => cases hstep
  | snapshotCurrent o =>
      cases hstep
      rw [snapshotCurrent, if_pos h.requested]
      exact h
  | exportGolden o =>
      cases o with
      | complete => cases hstep; exact h.exportGolden _
      | notDone => cases hstep; exact h
      | cut layout => cases hstep; exact h.exportGolden _
  | apply always => cases hleaves
  | disarm =>
      rw [Helper.handle, Option.some.injEq, if_pos ⟨h.requested, h.unconfirmed⟩] at hstep
      exact hstep ▸ h
  | reset => exact Option.some.inj hstep ▸ h
  | ping => exact Option.some.inj hstep ▸ h
  | wddmReset => exact Option.some.inj hstep ▸ h
  | stop => cases hleaves
  | revert preferGolden cleanSession =>
      cases hstep
      exact ⟨h.running, rfl, h.unconfirmed, by simp [h.sessionFirst], h.stays, h.current,
        h.previous, h.file⟩
  | disconnect outcome =>
      cases outcome with
      | stale => exact Option.some.inj hstep ▸ h
      | unmodified => cases hleaves
      | withinGrace => cases hleaves
      | restores =>
          cases hstep
          exact ⟨h.running, rfl, h.unconfirmed, h.sessionFirst, h.stays, h.current, h.previous,
            h.file⟩
  | poll =>
      rw [Helper.handle, if_pos h.requested, if_pos h.file, Option.some.injEq] at hstep
      exact hstep ▸ h
  | attempt o =>
      have hincomplete : (s.tryRestoreOnce o).2 = false := by simpa [leavesPending] using hleaves
      rw [Helper.handle, if_pos h.requested, hincomplete, Option.some.injEq] at hstep
      rw [tryRestoreOnce_of_sessionFirst h.sessionFirst] at hincomplete hstep
      rw [← hstep, if_neg Bool.false_ne_true, trySessionFirst_incomplete _ o hincomplete]
      exact ⟨h.running, h.requested, rfl, h.sessionFirst, h.stays, h.current, h.previous, h.file⟩
  | pollLeaves =>
      rw [Helper.handle, if_pos h.requested] at hstep
      cases hstep
  | pollEnds =>
      rw [Helper.handle, h.stays, if_neg Bool.false_ne_true] at hstep
      cases hstep
  | displays layout =>
      cases hstep
      exact ⟨h.running, h.requested, h.unconfirmed, h.sessionFirst, h.stays, h.current,
        h.previous, h.file⟩

end Helper

open Helper

end LuminalShine.DisplayHelper.RestoreChain
