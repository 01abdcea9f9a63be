import Mathlib.Data.List.Infix
import Mathlib.Data.Nat.Notation

/-!
# The first occurrence of a word

`search` is `std::search`: the position of the first occurrence of a word, if there is one.
An occurrence at `i` is a prefix of what is left after `i` elements.

## Main definitions

* `search` — the first occurrence.
* `search_eq_some_iff`, `search_eq_none_iff` — what it finds.
-/

namespace LuminalShine.Lib

variable {α : Type} {needle xs ys : List α} {i : ℕ}

/-- The position of the first occurrence of a nonempty word. -/
def search [DecidableEq α] (needle : List α) : List α → Option ℕ
  | [] => none
  | x :: xs => if needle <+: x :: xs then some 0 else (search needle xs).map (· + 1)

/-- `needle` occurs at `i` in `xs`. -/
def OccursAt (needle xs : List α) (i : ℕ) : Prop :=
  needle <+: xs.drop i

theorem OccursAt.length_le (h : OccursAt needle xs i) (hne : needle ≠ []) :
    i + needle.length ≤ xs.length := by
  have hlength := List.IsPrefix.length_le h
  rw [List.length_drop] at hlength
  have hpos := List.length_pos_iff.mpr hne
  omega

/-- An occurrence is one of every extension, and of every prefix that holds it. -/
theorem occursAt_append_right (hi : i + needle.length ≤ xs.length) :
    OccursAt needle (xs ++ ys) i ↔ OccursAt needle xs i := by
  rw [OccursAt, OccursAt, List.drop_append_of_le_length (by omega)]
  constructor
  · intro h
    refine List.prefix_of_prefix_length_le h (List.prefix_append _ _) ?_
    rw [List.length_drop]
    omega
  · intro h
    exact h.trans (List.prefix_append _ _)

/-- Behind a list, occurrences shift. -/
theorem occursAt_append_left (i : ℕ) :
    OccursAt needle (ys ++ xs) (ys.length + i) ↔ OccursAt needle xs i := by
  rw [OccursAt, OccursAt, List.drop_append, List.drop_of_length_le (Nat.le_add_right _ _),
    Nat.add_sub_cancel_left, List.nil_append]

theorem search_eq_none_iff [DecidableEq α] (hne : needle ≠ []) :
    search needle xs = none ↔ ∀ i, ¬ OccursAt needle xs i := by
  induction xs with
  | nil =>
      simp [search, OccursAt, hne]
  | cons x xs ih =>
      by_cases hhere : needle <+: x :: xs
      · simp only [search, if_pos hhere, reduceCtorEq, false_iff, not_forall, not_not]
        exact ⟨0, hhere⟩
      · simp only [search, if_neg hhere, Option.map_eq_none_iff, ih]
        constructor
        · intro hrest i
          cases i with
          | zero => exact hhere
          | succ i => exact hrest i
        · intro hall i
          exact hall (i + 1)

theorem search_eq_some_iff [DecidableEq α] (hne : needle ≠ []) :
    search needle xs = some i ↔ OccursAt needle xs i ∧ ∀ j < i, ¬ OccursAt needle xs j := by
  induction xs generalizing i with
  | nil =>
      simp [search, OccursAt, hne]
  | cons x xs ih =>
      by_cases hhere : needle <+: x :: xs
      · simp only [search, if_pos hhere, Option.some.injEq]
        constructor
        · intro hi
          subst hi
          exact ⟨hhere, fun j hj => absurd hj (Nat.not_lt_zero j)⟩
        · intro h
          by_contra hi
          exact h.2 0 (by omega) hhere
      · simp only [search, if_neg hhere, Option.map_eq_some_iff]
        constructor
        · intro h
          obtain ⟨k, hk, hki⟩ := h
          subst hki
          obtain ⟨hoccurs, hfirst⟩ := ih.mp hk
          refine ⟨hoccurs, ?_⟩
          intro j hj
          cases j with
          | zero => exact hhere
          | succ j => exact hfirst j (by omega)
        · intro h
          cases i with
          | zero => exact absurd h.1 hhere
          | succ i =>
              refine ⟨i, ih.mpr ⟨h.1, ?_⟩, rfl⟩
              intro j hj
              exact h.2 (j + 1) (by omega)

end LuminalShine.Lib
