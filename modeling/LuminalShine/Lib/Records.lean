import Mathlib.Data.List.Nodup
import Mathlib.Logic.Function.Basic

/-!
# One record of many changes

The records of a system (its threads, its sessions) are the values of a function on
identifiers, and a step changes one of them.  What is said here about the others: they
are counted as before, and a record that is looked for is still there.
-/

namespace LuminalShine.Lib

universe u v
variable {α : Type u} {β : Type v} [DecidableEq α]

/-- The record that changes was not the one that is looked for. -/
theorem exists_update_of_not {f : α → β} {i : α} {b : β} {p : β → Prop} (hnot : ¬ p (f i))
    (h : ∃ j, p (f j)) : ∃ j, p (Function.update f i b j) := by
  obtain ⟨j, hj⟩ := h
  refine (Function.exists_update_iff f fun _ => p).mpr (.inr ⟨j, ?_, hj⟩)
  rintro rfl
  exact hnot hj

/-- Records other than `i` are counted as before. -/
theorem countP_update_of_notMem {xs : List α} {i : α} (hi : i ∉ xs) (f : α → β) (b : β)
    (p : β → Bool) :
    xs.countP (fun j => p (Function.update f i b j)) = xs.countP fun j => p (f j) := by
  refine List.countP_congr fun j hj => ?_
  have hne : j ≠ i := by
    rintro rfl
    exact hi hj
  rw [Function.update_of_ne hne]

/-- **One record changes.**  What it contributed before is exchanged for what it
contributes now. -/
theorem countP_update {xs : List α} (hnodup : xs.Nodup) {i : α} (hi : i ∈ xs) (f : α → β) (b : β)
    (p : β → Bool) :
    xs.countP (fun j => p (Function.update f i b j)) + (p (f i)).toNat =
      xs.countP (fun j => p (f j)) + (p b).toNat := by
  induction xs with
  | nil => cases hi
  | cons x xs ih =>
      obtain ⟨hx, hxs⟩ := List.nodup_cons.mp hnodup
      rw [List.countP_cons, List.countP_cons]
      by_cases heq : x = i
      · subst heq
        rw [countP_update_of_notMem hx, Function.update_self]
        cases p b <;> cases p (f x) <;> simp
      · have hmem : i ∈ xs := (List.mem_cons.mp hi).resolve_left (Ne.symm heq)
        have hrest := ih hxs hmem
        rw [Function.update_of_ne heq]
        omega

end LuminalShine.Lib
