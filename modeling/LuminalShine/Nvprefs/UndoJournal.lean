import LuminalShine.Lib.Run
import LuminalShine.Nvprefs.Modify

/-!
# Histories of the undo journal

Any order of starts of the host and of streams, of ends with and without restoration, of
recoveries, changes by other programs, crashes and losses of power, cut at any call.

## Main definitions

* `Meets` — the condition on the steps of a history.
* `Journaled`, `BroughtBack` — the record is kept, and a later restoration succeeds by it.

## Main results

* `undo_journal_kept` — both hold in every state, if the steps meet the condition.
-/

namespace LuminalShine.Nvprefs

open LuminalShine.Lib
open LuminalShine.Lib.Calls

variable (d : Driver)

/-! ## The condition -/

instance (h : Host) (c : Call) (ok : Bool) : Decidable (Allowed d h c ok) := by
  cases ok
  · exact isTrue (by cases c <;> trivial)
  · cases c <;> unfold Allowed <;> infer_instance

/-- An undo file that was not flushed does not meet a loss of power while the saved setting is
what was written. -/
def Meets (s : State) : Label → Prop
  | .proceed ok => match s.program with
      | .done _ => True
      | .call c _ => Allowed d s.host c ok
  | .powerLoss => ∀ file ∈ s.host.file, file.flushed = true ∨ s.host.written = none
  | .begin _ | .external _ | .crash => True

instance (s : State) : ∀ label, Decidable (Meets d s label)
  | .proceed ok => by
      unfold Meets
      cases s.program <;> infer_instance
  | .powerLoss => inferInstanceAs (Decidable (∀ file ∈ s.host.file, _))
  | .begin _ | .external _ | .crash => isTrue trivial

/-! ## What is claimed -/

/-- The reading over which the program wrote is in the file, or in the memory of the process
that owns the file. -/
def Journaled (h : Host) : Prop :=
  ∀ e, h.written = some e →
    (∃ flushed, h.file = some ⟨some (record d e), flushed⟩) ∨
      (h.impl.undoData = some (record d e) ∧ h.impl.undoFile = some true)

/-- After a crash, a recovery whose calls succeed brings the reading back and deletes the
file; so does the restore guard of the process that owns the file. -/
def BroughtBack (s : State) : Prop :=
  ∀ e, s.host.written = some e →
    (∃ n t, run (step d) s (.crash :: .begin .restoreNvprefsUndo ::
        List.replicate n (.proceed true)) = some t ∧
      effective d t.host.saved = e ∧ t.host.file = none) ∧
    (s.program = .done () → s.host.impl.undoFile = some true →
      ∃ n t, run (step d) s (.begin .restoreGuard :: List.replicate n (.proceed true)) = some t ∧
        effective d t.host.saved = e ∧ t.host.file = none)

variable {d} {s t : State} {e : Option Value}

/-! ## Runs whose calls succeed -/

theorem run_complete (h : Host) (program : Program Unit) :
    ∃ n, run (step d) ⟨h, program⟩ (List.replicate n (.proceed true)) =
      some ⟨(program.complete (perform d) true h).1, .done ()⟩ := by
  induction program generalizing h with
  | done a => exact ⟨0, rfl⟩
  | call c next ih =>
      obtain ⟨n, hn⟩ := ih (perform d h c true).2 (perform d h c true).1
      exact ⟨n + 1, hn⟩

/-- A recovery of the next process whose calls succeed. -/
theorem complete_restoreNvprefsUndo (e : Option Value) (flushed : Bool) :
    let h := ((Entry.restoreNvprefsUndo.program d).complete (perform d) true
      ⟨some d.preferEnabled, some e, some ⟨some (record d e), flushed⟩, none, {}⟩).1
    h.saved = e ∧ h.file = none := by
  cases e <;>
    simp [Entry.program, load, init, loadSettings, recover, restoreFromFile, readUndoData, ask,
      perform, openFile, unload, restoreGlobalProfileToUndo, saveSettings, undoSwapchain,
      Host.withSession, Host.note, Host.setOwn, Host.save, reading, record]

/-- The restore guard of the process that has written. -/
theorem complete_restoreGuard (e : Option Value) (flushed : Bool) :
    let h := ((Entry.restoreGuard.program d).complete (perform d) true
      ⟨some d.preferEnabled, some e, some ⟨some (record d e), flushed⟩, none,
        ⟨false, none, some (record d e), some true⟩⟩).1
    h.saved = e ∧ h.file = none := by
  cases e <;>
    simp [Entry.program, load, init, loadSettings, restoreGlobalProfile, deleteOwnedFile, ask,
      perform, unload, restoreGlobalProfileToUndo, saveSettings, undoSwapchain,
      Host.withSession, Host.note, Host.setOwn, Host.save, Host.setFile, Host.setHandle,
      Host.setUndoData, reading, record]

/-! ## The invariant of histories -/

variable (d) in
structure Sound (s : State) : Prop where
  inv : Inv d s.host
  upholds : (surroundings d).Upholds (fun _ => Idle) s.program s.host

theorem upholds_done {h : Host} (hidle : Idle h) :
    (surroundings d).Upholds (fun _ : Unit => Idle) (.done ()) h :=
  fun t ht => by
    cases ht with
    | none => exact hidle
    | saves saved => exact hidle

theorem sound_initial (saved : Option Value) : Sound d (.initial saved) where
  inv :=
    { written := fun _ he => by cases he
      contents := fun _ _ hfile => by cases hfile
      memory := fun _ hdata => by cases hdata
      owned := fun howned => by cases howned
      exclusive := fun howned => by cases howned
      reset := fun hreset => by cases hreset
      recovery := fun hrecovery => by cases hrecovery }
  upholds := upholds_done ⟨rfl, rfl⟩

theorem interferes_external (h : Host) (saved : Option Value) :
    Interferes h (h.external saved) := by
  by_cases hsame : saved = h.saved
  · subst hsame
    simpa [Host.external] using Interferes.none
  · simpa [Host.external, hsame] using Interferes.saves (h := h) saved

theorem Inv.crash {h : Host} (hinv : Inv d h) : Inv d h.crash where
  written := hinv.written
  contents := hinv.contents
  memory := fun _ hdata => by cases hdata
  owned := fun howned => by cases howned
  exclusive := fun howned => by cases howned
  reset := fun hreset => by cases hreset
  recovery := fun hrecovery => by cases hrecovery

theorem Inv.losePower {h : Host} (hinv : Inv d h)
    (hflushed : ∀ file ∈ h.file, file.flushed = true ∨ h.written = none) :
    Inv d h.losePower where
  written := fun e he => by
    have hwritten : h.written = some e := he
    obtain ⟨hne, heffective, hsaved, flushed, hfile⟩ := hinv.written e hwritten
    have hkept : flushed = true := (hflushed _ hfile).resolve_right (by simp [hwritten])
    refine ⟨hne, heffective, hsaved, true, ?_⟩
    simp [Host.losePower, Host.setFile, hfile, hkept]
  contents := fun data flushed hfile => by
    cases hold : h.file with
    | none => simp [Host.losePower, Host.setFile, hold] at hfile
    | some file =>
        cases hkept : file.flushed with
        | false => simp [Host.losePower, Host.setFile, hold, hkept] at hfile
        | true =>
            simp only [Host.losePower, Host.setFile, hold, Option.map_some, hkept, if_true,
              Option.some.injEq] at hfile
            exact hinv.contents data flushed (hold.trans (congrArg some hfile))
  memory := fun _ hdata => by cases hdata
  owned := fun howned => by cases howned
  exclusive := fun howned => by cases howned
  reset := fun hreset => by cases hreset
  recovery := fun hrecovery => by cases hrecovery

/-- One step: the invariant is kept, and what was written stays so or comes back. -/
theorem sound_step {label : Label} (hs : Sound d s) (hmeets : Meets d s label)
    (hstep : step d s label = some t) :
    Sound d t ∧ ((∀ saved, label ≠ .external saved) → Brings d s.host t.host) := by
  obtain ⟨h, program⟩ := s
  cases label with
  | begin entry =>
      cases program with
      | call c next => simp [step] at hstep
      | done a =>
          simp only [step, Option.some.injEq] at hstep
          subst hstep
          have hidle : Idle h := hs.upholds h .none
          exact ⟨⟨hs.inv, triple_program entry h hs.inv hidle⟩, fun _ => .of_eq rfl⟩
  | proceed ok =>
      cases program with
      | done a => simp [step] at hstep
      | call c next =>
          simp only [step, Option.some.injEq] at hstep
          subst hstep
          have hcall := hs.upholds.call hmeets
          exact ⟨⟨hcall.1, hcall.2.2⟩, fun _ => hcall.2.1⟩
  | external saved =>
      simp only [step, Option.some.injEq] at hstep
      subst hstep
      have hinterferes := interferes_external h saved
      exact ⟨⟨hs.inv.interferes hinterferes, hs.upholds.interferes hinterferes⟩,
        fun hnot => absurd rfl (hnot saved)⟩
  | crash =>
      simp only [step, Option.some.injEq] at hstep
      subst hstep
      exact ⟨⟨hs.inv.crash, upholds_done ⟨rfl, rfl⟩⟩, fun _ => .of_eq rfl⟩
  | powerLoss =>
      simp only [step, Option.some.injEq] at hstep
      subst hstep
      exact ⟨⟨hs.inv.losePower hmeets, upholds_done ⟨rfl, rfl⟩⟩, fun _ => .of_eq rfl⟩

theorem Sound.journaled (hs : Sound d s) : Journaled d s.host :=
  fun e he => .inl (hs.inv.written e he).2.2.2

/-- The host of a process that has ended, with the record of what was written. -/
theorem Inv.crash_eq {h : Host} (hinv : Inv d h) (he : h.written = some e) :
    ∃ flushed, h.crash =
      ⟨some d.preferEnabled, some e, some ⟨some (record d e), flushed⟩, none, {}⟩ := by
  obtain ⟨-, -, hsaved, flushed, hfile⟩ := hinv.written e he
  exact ⟨flushed, by simp [Host.crash, hsaved, he, hfile]⟩

theorem Sound.owner_eq (hs : Sound d s) (he : s.host.written = some e)
    (hidle : s.program = .done ()) (howned : s.host.impl.undoFile = some true) :
    ∃ flushed, s.host =
      ⟨some d.preferEnabled, some e, some ⟨some (record d e), flushed⟩, none,
        ⟨false, none, some (record d e), some true⟩⟩ := by
  obtain ⟨⟨saved, written, file, recovery, loaded, session, undoData, undoFile⟩, program⟩ := s
  obtain ⟨-, -, hsaved, flushed, hfile⟩ := hs.inv.written e he
  have hdata := (hs.inv.owned howned).2 e he
  have hrecovery := hs.inv.exclusive howned
  subst hidle
  obtain ⟨hloaded, hsession⟩ : Idle _ := hs.upholds _ .none
  refine ⟨flushed, ?_⟩
  simp_all

theorem Sound.broughtBack (hs : Sound d s) : BroughtBack d s := by
  intro e he
  have hback : effective d e = e := (hs.inv.written e he).2.1
  refine ⟨?_, fun hidle howned => ?_⟩
  · obtain ⟨flushed, hcrash⟩ := hs.inv.crash_eq he
    obtain ⟨n, hn⟩ := run_complete (d := d) s.host.crash (Entry.restoreNvprefsUndo.program d)
    have hcomplete := complete_restoreNvprefsUndo (d := d) e flushed
    rw [← hcrash] at hcomplete
    exact ⟨n, _, hn, hcomplete.1 ▸ hback, hcomplete.2⟩
  · obtain ⟨flushed, howner⟩ := hs.owner_eq he hidle howned
    obtain ⟨n, hn⟩ := run_complete (d := d) s.host (Entry.restoreGuard.program d)
    have hcomplete := complete_restoreGuard (d := d) e flushed
    rw [← howner] at hcomplete
    refine ⟨n, ⟨_, .done ()⟩, ?_, hcomplete.1.symm ▸ hback, hcomplete.2⟩
    rw [← hn, run_cons]
    simp [step, hidle]

/-- In a history whose steps meet the condition the journal is kept in every state, a later
restoration succeeds by it, and no step of the program ends what is written otherwise. -/
theorem undo_journal_kept (saved : Option Value) (labels : List Label)
    (hrun : run (step d) (.initial saved) labels = some s)
    (hmeets : RunMeets (step d) (Meets d) (.initial saved) labels) :
    Journaled d s.host ∧ BroughtBack d s ∧
      ∀ label t, Meets d s label → step d s label = some t →
        (∀ saved, label ≠ .external saved) → Brings d s.host t.host := by
  have hs : Sound d s := run_invariant_of_meets
    (fun _ _ _ hs hmeets hstep => (sound_step hs hmeets hstep).1) (sound_initial saved) hmeets hrun
  exact ⟨hs.journaled, hs.broughtBack,
    fun _ _ hmeets hstep => (sound_step hs hmeets hstep).2⟩

theorem undo_journal_kept_startup :
    ∃ s, Journaled ⟨1, none⟩ s ∧ s.written = some (some 0) := by
  have hmeets : RunMeets (step ⟨1, none⟩) (Meets ⟨1, none⟩) (.initial (some 0))
      (.begin .startup :: List.replicate 36 (.proceed true)) := by decide
  have hwritten : (run (step ⟨1, none⟩) (.initial (some 0))
      (.begin .startup :: List.replicate 36 (.proceed true))).any
        (fun s => decide (s.host.written = some (some 0))) = true := by rfl
  obtain ⟨s, hrun, hs⟩ := (Option.any_eq_true _ _).mp hwritten
  exact ⟨s.host, (undo_journal_kept (some 0) _ hrun hmeets).1, of_decide_eq_true hs⟩

/-! ### A recovery that fails

The host ended without restoring; at the next start the driver refuses the undo value.  The
file is deleted, and our value stays. -/

def refused : List Label :=
  .begin .startup :: List.replicate 36 (Label.proceed true) ++
    ([.crash, .begin .startup] : List Label) ++
    (List.replicate 15 (Label.proceed true) ++
      Label.proceed false :: List.replicate 15 (Label.proceed true))

theorem undo_journal_not_kept :
    ∃ s, run (step ⟨1, none⟩) (.initial (some 0)) refused = some s ∧
      s.host.saved = some 1 ∧ s.host.written = some (some 0) ∧ s.host.file = none ∧
      ¬ Journaled ⟨1, none⟩ s.host := by
  have hrun : (run (step ⟨1, none⟩) (.initial (some 0)) refused).any (fun s =>
      decide (s.host.saved = some 1 ∧ s.host.written = some (some 0) ∧ s.host.file = none ∧
        s.host.impl.undoData = none)) = true := by rfl
  obtain ⟨s, hrun, hs⟩ := (Option.any_eq_true _ _).mp hrun
  obtain ⟨hsaved, hwritten, hfile, hdata⟩ := of_decide_eq_true hs
  refine ⟨s, hrun, hsaved, hwritten, hfile, fun hjournaled => ?_⟩
  cases hjournaled (some 0) hwritten with
  | inl hrecord => simp [hfile] at hrecord
  | inr hmemory => simp [hdata] at hmemory

end LuminalShine.Nvprefs
