import Mathlib.Data.List.Basic
import Mathlib.Data.List.Perm.Basic
import Mathlib.Order.Lattice

/-!
# Descending lists

A list whose keys do not increase keeps its smallest key at the back, where it is cheap
to look at and to remove.  Two operations put an element in its place: an insertion that
searches from the front, and a loop that moves an element towards the front past the
smaller ones.  The second one only ever moves it that way, so it restores the order only
if nothing behind the element is larger: `Descending.bubble` has that as its hypothesis.
-/

namespace LuminalShine.Lib

universe u v
variable {α : Type u} {τ : Type v} [LinearOrder τ] (key : α → τ)

/-- Keys do not increase along the list. -/
def Descending (l : List α) : Prop := l.Pairwise fun a b => key b ≤ key a

instance (l : List α) : Decidable (Descending key l) := by
  unfold Descending
  infer_instance

/-- Insert in front of the first smaller element. -/
def insertDescending (x : α) : List α → List α
  | [] => [x]
  | y :: ys => if key y < key x then x :: y :: ys else y :: insertDescending x ys

/-- Move `x` to the front, one exchange at a time; `front` is what stands in front of it,
nearest first.  The loop goes on with whatever stands at the next place. -/
def bubble : List α → α → List α → List α
  | [], x, behind => x :: behind
  | y :: front, x, behind =>
      if key y < key x then bubble front x (y :: behind) else bubble front y (x :: behind)

variable {key}

theorem insertDescending_perm (x : α) (l : List α) :
    (insertDescending key x l).Perm (x :: l) := by
  induction l with
  | nil => exact List.Perm.refl _
  | cons y ys ih =>
      by_cases h : key y < key x
      · simp only [insertDescending, if_pos h]
        exact List.Perm.refl _
      · simp only [insertDescending, if_neg h]
        exact (ih.cons y).trans (List.Perm.swap x y ys)

theorem Descending.insert {x : α} {l : List α} (h : Descending key l) :
    Descending key (insertDescending key x l) := by
  induction l with
  | nil => exact List.pairwise_singleton _ _
  | cons y ys ih =>
      have hys := List.pairwise_cons.mp h
      by_cases hlt : key y < key x
      · simp only [insertDescending, if_pos hlt]
        refine List.pairwise_cons.mpr ⟨?_, h⟩
        intro z hz
        rcases List.mem_cons.mp hz with rfl | hz
        · exact le_of_lt hlt
        · exact le_trans (hys.1 z hz) (le_of_lt hlt)
      · simp only [insertDescending, if_neg hlt]
        refine List.pairwise_cons.mpr ⟨?_, ih hys.2⟩
        intro z hz
        rcases List.mem_cons.mp ((insertDescending_perm x ys).mem_iff.mp hz) with rfl | hz
        · exact not_lt.mp hlt
        · exact hys.1 z hz

theorem bubble_perm (front : List α) (x : α) (behind : List α) :
    (bubble key front x behind).Perm (front.reverse ++ x :: behind) := by
  induction front generalizing x behind with
  | nil => exact List.Perm.refl _
  | cons y front ih =>
      simp only [bubble, List.reverse_cons, List.append_assoc, List.singleton_append]
      split
      · exact (ih x (y :: behind)).trans ((List.Perm.swap y x behind).append_left _)
      · exact ih y (x :: behind)

/-- What is larger than everything behind it finds its place in an ordered rest. -/
theorem Descending.bubble {front : List α} {x : α} {behind : List α}
    (h : Descending key (front.reverse ++ behind)) (hx : ∀ y ∈ behind, key y ≤ key x) :
    Descending key (Lib.bubble key front x behind) := by
  induction front generalizing x behind with
  | nil => exact List.pairwise_cons.mpr ⟨hx, h⟩
  | cons y front ih =>
      have h' : Descending key (front.reverse ++ y :: behind) := by simpa using h
      have hparts := List.pairwise_append.mp h'
      have hy := List.pairwise_cons.mp hparts.2.1
      by_cases hlt : key y < key x
      · simp only [Lib.bubble, if_pos hlt]
        refine ih h' ?_
        intro z hz
        rcases List.mem_cons.mp hz with rfl | hz
        · exact le_of_lt hlt
        · exact hx z hz
      · simp only [Lib.bubble, if_neg hlt]
        -- `x` takes the place behind `y`, which bounds it and everything behind it
        have hyx : key x ≤ key y := not_lt.mp hlt
        refine ih ?_ ?_
        · refine List.pairwise_append.mpr
            ⟨hparts.1, List.pairwise_cons.mpr ⟨hx, hy.2⟩, ?_⟩
          intro a ha z hz
          have hay : key y ≤ key a := hparts.2.2 a ha y List.mem_cons_self
          rcases List.mem_cons.mp hz with rfl | hz
          · exact le_trans hyx hay
          · exact le_trans (hy.1 z hz) hay
        · intro z hz
          rcases List.mem_cons.mp hz with rfl | hz
          · exact hyx
          · exact hy.1 z hz

/-- The back has the smallest key. -/
theorem Descending.back_le {l : List α} {b : α} (h : Descending key (l ++ [b])) :
    ∀ a ∈ l ++ [b], key b ≤ key a := by
  intro a ha
  rcases List.mem_append.mp ha with ha | ha
  · exact (List.pairwise_append.mp h).2.2 a ha b List.mem_cons_self
  · exact List.mem_singleton.mp ha ▸ le_refl _

theorem Descending.sublist {l l' : List α} (h : Descending key l) (hsub : l'.Sublist l) :
    Descending key l' :=
  List.Pairwise.sublist hsub h

end LuminalShine.Lib
