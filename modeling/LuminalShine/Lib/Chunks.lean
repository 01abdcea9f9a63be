import Mathlib.Data.List.Basic

/-!
# Cutting a list at equal offsets

`k` windows of `width` elements followed by everything after them put the list
back together, and the offset of every window is a multiple of the width.
`ceil_le_iff` is the rounding lemma that goes with counting such windows.
-/

namespace LuminalShine.Lib

universe u
variable {α : Type u}

/-- Rounding a quotient up, as integer code writes it. -/
theorem ceil_le_iff {n width k : ℕ} (hw : 0 < width) :
    (n + (width - 1)) / width ≤ k ↔ n ≤ k * width := by
  rw [Nat.div_le_iff_le_mul_add_pred hw, Nat.mul_comm]
  omega

/-- A loop whose body never fails on its inputs collects the values. -/
theorem mapM_eq_some_map {β : Type u} {f : α → Option β} {g : α → β} (xs : List α)
    (h : ∀ x ∈ xs, f x = some (g x)) : xs.mapM f = some (xs.map g) := by
  induction xs with
  | nil => rfl
  | cons x xs ih =>
      have hrest := ih fun y hy => h y (List.mem_cons_of_mem x hy)
      simp [h x List.mem_cons_self, hrest]

/-- The `x`-th window of `width` elements. -/
def window (xs : List α) (width x : ℕ) : List α := (xs.drop (x * width)).take width

/-- The first window, then those of what follows it. -/
theorem windows_succ (xs : List α) (width k : ℕ) :
    (List.range (k + 1)).map (window xs width) =
      xs.take width :: (List.range k).map (window (xs.drop width) width) := by
  rw [List.range_succ_eq_map, List.map_cons, List.map_map]
  congr 1
  · simp [window]
  · refine List.map_congr_left fun x _ => ?_
    simp [window, Nat.succ_mul, Nat.add_comm]

/-- The windows before `k`, then the rest of the list from there. -/
def cut (xs : List α) (width k : ℕ) : List (List α) :=
  (List.range k).map (window xs width) ++ [xs.drop (k * width)]

@[simp] theorem length_cut (xs : List α) (width k : ℕ) : (cut xs width k).length = k + 1 := by
  simp [cut]

theorem flatten_windows (xs : List α) (width k : ℕ) :
    ((List.range k).map (window xs width)).flatten = xs.take (k * width) := by
  induction k with
  | zero => simp
  | succ k ih =>
      rw [List.range_succ, List.map_append, List.flatten_append, ih, Nat.succ_mul, List.take_add]
      simp [window]

/-- **The pieces put the list back together.** -/
theorem flatten_cut (xs : List α) (width k : ℕ) : (cut xs width k).flatten = xs := by
  simp [cut, flatten_windows]

/-- The first `j` pieces end at offset `j * width`. -/
theorem flatten_take_cut {xs : List α} {width k j : ℕ} (hj : j ≤ k) :
    ((cut xs width k).take j).flatten = xs.take (j * width) := by
  rw [cut, List.take_append_of_le_length (by simpa using hj), ← List.map_take, List.take_range,
    Nat.min_eq_left hj, flatten_windows]

theorem mem_cut {xs ys : List α} {width k : ℕ} (h : ys ∈ cut xs width k) :
    (∃ x < k, ys = window xs width x) ∨ ys = xs.drop (k * width) := by
  rcases List.mem_append.mp h with h | h
  · obtain ⟨x, hx, rfl⟩ := List.mem_map.mp h
    exact .inl ⟨x, List.mem_range.mp hx, rfl⟩
  · exact .inr (List.mem_singleton.mp h)

/-- A window that lies inside the list is full. -/
theorem length_window {xs : List α} {width x : ℕ} (h : (x + 1) * width ≤ xs.length) :
    (window xs width x).length = width := by
  rw [Nat.succ_mul] at h
  rw [window, List.length_take, List.length_drop]
  omega

end LuminalShine.Lib
