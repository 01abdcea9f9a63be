import Mathlib.Data.List.Basic

/-!
# Parts between separators

A list is cut at a separator by `List.splitOn` and put together again by `List.intercalate`.
What either does to the elements is stated here: nothing but separators is added, nothing but
separators is taken away, and the last part stands at the end.

## Main results

* `notMem_intercalate`, `subset_intercalate`, `subset_of_mem_splitOn` — the elements.
* `intercalate_concat` — the end.
-/

namespace LuminalShine.Lib

universe u
variable {α : Type u} {a sep : α} {parts : List (List α)} {part : List α}

/-- An element of no part is in the whole only as a separator. -/
theorem notMem_intercalate (hsep : a ≠ sep) (h : ∀ part ∈ parts, a ∉ part) :
    a ∉ [sep].intercalate parts := by
  induction parts with
  | nil => simp
  | cons part parts ih =>
      have hpart := h part List.mem_cons_self
      have hrest := ih fun p hp => h p (List.mem_cons_of_mem _ hp)
      cases parts with
      | nil => simpa using hpart
      | cons next parts =>
          simp only [List.intercalate_cons_cons, List.mem_append, List.mem_singleton, not_or]
          exact ⟨⟨hpart, hsep⟩, hrest⟩

theorem subset_intercalate (h : part ∈ parts) : part ⊆ [sep].intercalate parts := by
  induction parts with
  | nil => cases h
  | cons first parts ih =>
      cases parts with
      | nil =>
          obtain rfl := List.mem_singleton.mp h
          simp
      | cons next parts =>
          rw [List.intercalate_cons_cons, List.append_assoc]
          rcases List.mem_cons.mp h with rfl | h
          · exact List.subset_append_left _ _
          · exact fun x hx => List.mem_append_right _ (List.mem_append_right _ (ih h hx))

/-- What is between two separators is part of the list. -/
theorem subset_of_mem_splitOn [BEq α] [LawfulBEq α] {xs : List α} (h : part ∈ xs.splitOn sep) :
    part ⊆ xs := by
  have hsub : part ⊆ [sep].intercalate (xs.splitOn sep) := subset_intercalate h
  rwa [List.intercalate_splitOn] at hsub

/-- The last part stands at the end, behind a separator if it is not the only one. -/
theorem intercalate_concat (sep : α) (parts : List (List α)) (last : List α) :
    ∃ front : List α, [sep].intercalate (parts ++ [last]) = front ++ last ∧
      (front = [] ∨ front.getLast? = some sep) := by
  induction parts with
  | nil => exact ⟨[], by simp⟩
  | cons part parts ih =>
      obtain ⟨front, heq, hfront⟩ := ih
      refine ⟨part ++ sep :: front, ?_, Or.inr ?_⟩
      · rw [List.cons_append, List.intercalate_cons_of_ne_nil (by simp), heq]
        simp
      · rcases hfront with rfl | hfront
        · simp
        · simp [List.getLast?_append, List.getLast?_cons, hfront]

end LuminalShine.Lib
