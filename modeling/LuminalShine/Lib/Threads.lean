import Mathlib.Data.List.Basic

/-!
# Threads by their places

A program with any number of interchangeable threads is described by the list of the places
they have reached: a thread that starts is put in front, one that ends is erased, and one that
moves on is both.  What such a component keeps is mostly stated by counting the threads at
certain places; these are the counting rules.
-/

namespace LuminalShine.Lib.Threads

variable {α : Type*}

/-- A thread starts at `a`. -/
theorem countP_start (p : α → Bool) (a : α) (places : List α) :
    (a :: places).countP p = places.countP p + (p a).toNat := by
  rw [List.countP_cons]
  cases p a <;> rfl

variable [DecidableEq α] {a : α} {places : List α}

/-- A thread ends at `a`. -/
theorem countP_leave (p : α → Bool) (ha : a ∈ places) :
    (places.erase a).countP p + (p a).toNat = places.countP p := by
  rw [(List.perm_cons_erase ha).countP_eq, countP_start]

theorem length_leave (ha : a ∈ places) : (places.erase a).length + 1 = places.length := by
  rw [List.length_erase_of_mem ha]
  have hpos := List.length_pos_of_mem ha
  omega

/-- A thread moves from `a` to `b`. -/
theorem countP_move (p : α → Bool) (ha : a ∈ places) (b : α) :
    (b :: places.erase a).countP p + (p a).toNat = places.countP p + (p b).toNat := by
  have hleave := countP_leave p ha
  rw [countP_start]
  omega

/-- A move that a count does not see. -/
theorem countP_move_eq {p : α → Bool} (ha : a ∈ places) {b : α} (hp : p b = p a) :
    (b :: places.erase a).countP p = places.countP p := by
  have hmove := countP_move p ha b
  rw [hp] at hmove
  omega

end LuminalShine.Lib.Threads
