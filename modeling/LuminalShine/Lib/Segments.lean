import Mathlib.Data.List.Chain

/-!
# Concatenations of segments

A history is safe to decode when it falls into segments, each opened by an
element that needs no predecessor and continued by elements that follow the one
just before them.  The two ways such a history grows by one element are opening a
new segment and continuing the last one; both are stated here for an arbitrary
opening predicate and an arbitrary succession relation.
-/

namespace LuminalShine.Lib

universe u
variable {α : Type u} {start : α → Prop} {next : α → α → Prop}

/-- One segment: a `start` element, each later element the `next` of the one
before it. -/
structure IsSegment (start : α → Prop) (next : α → α → Prop) (r : List α) : Prop where
  opened : ∃ a ∈ r.head?, start a
  chained : r.IsChain next

/-- The history is a concatenation of segments. -/
def Segmented (start : α → Prop) (next : α → α → Prop) (fs : List α) : Prop :=
  ∃ rs : List (List α), fs = rs.flatten ∧ ∀ r ∈ rs, IsSegment start next r

theorem segmented_nil : Segmented start next [] := ⟨[], rfl, by simp⟩

theorem isSegment_singleton {a : α} (ha : start a) : IsSegment start next [a] :=
  ⟨⟨a, rfl, ha⟩, List.isChain_singleton a⟩

/-- A segment is never empty. -/
theorem IsSegment.ne_nil {r : List α} (h : IsSegment start next r) : r ≠ [] := by
  rintro rfl
  obtain ⟨a, ha, -⟩ := h.opened
  simp at ha

/-- A segment grows by a successor of its last element. -/
theorem IsSegment.snoc {r : List α} {a b : α} (h : IsSegment start next r)
    (hlast : r.getLast? = some a) (hab : next a b) : IsSegment start next (r ++ [b]) := by
  constructor
  · obtain ⟨c, hc, hstart⟩ := h.opened
    refine ⟨c, ?_, hstart⟩
    rw [List.head?_append_of_ne_nil _ h.ne_nil]
    exact hc
  · rw [List.isChain_append]
    refine ⟨h.chained, List.isChain_singleton b, ?_⟩
    intro x hx y hy
    rw [hlast] at hx
    simp only [Option.mem_def, Option.some.injEq, List.head?_cons] at hx hy
    subst hx hy
    exact hab

/-- Opening a new segment. -/
theorem Segmented.snoc_start {fs : List α} {b : α} (h : Segmented start next fs)
    (hb : start b) : Segmented start next (fs ++ [b]) := by
  obtain ⟨rs, rfl, hrs⟩ := h
  refine ⟨rs ++ [[b]], by simp, ?_⟩
  intro r hr
  rcases List.mem_append.mp hr with hr | hr
  · exact hrs r hr
  · rw [List.mem_singleton.mp hr]
    exact isSegment_singleton hb

/-- Continuing the last segment. -/
theorem Segmented.snoc_next {fs : List α} {a b : α} (h : Segmented start next fs)
    (hlast : fs.getLast? = some a) (hab : next a b) : Segmented start next (fs ++ [b]) := by
  obtain ⟨rs, rfl, hrs⟩ := h
  rcases List.eq_nil_or_concat rs with rfl | ⟨init, r, rfl⟩
  · simp at hlast
  · have hr : IsSegment start next r := hrs r (by simp)
    have hr_last : r.getLast? = some a := by
      simpa [List.getLast?_append, hr.ne_nil, List.getLast?_eq_some_getLast hr.ne_nil]
        using hlast
    refine ⟨init ++ [r ++ [b]], by simp, ?_⟩
    intro r' hr'
    rcases List.mem_append.mp hr' with hr' | hr'
    · exact hrs r' (by simp [hr'])
    · rw [List.mem_singleton.mp hr']
      exact hr.snoc hr_last hab

end LuminalShine.Lib
