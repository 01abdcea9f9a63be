import Mathlib

/-!
# The first elements of a sorted list

Which elements come under the first `n` of a list that is sorted by a key, the largest first.
When elements share a key the sort is free to order them, and what is cut off among them is a
matter of chance; without such a tie the number of larger keys decides.

## Main results

* `filter_append_filter_of_sorted` — a threshold cuts a sorted list in two.
* `mem_take_of_sorted`
-/

namespace LuminalShine.Lib

variable {α β : Type*} [LinearOrder β] {f : α → β} {l : List α} {n : ℕ} {x : α}

/-- A test that only larger keys pass cuts a sorted list in two. -/
theorem filter_append_filter_of_sorted (h : l.Pairwise fun a b => ¬ f a < f b) {p : α → Bool}
    (hp : ∀ a b, f a ≤ f b → p a = true → p b = true) :
    l.filter p ++ l.filter (!p ·) = l := by
  induction l with
  | nil => rfl
  | cons a l ih =>
      obtain ⟨hfirst, hrest⟩ := List.pairwise_cons.mp h
      cases ha : p a with
      | true => simp [ha, ih hrest]
      | false =>
          have hnone : l.filter p = [] := by
            rw [List.filter_eq_nil_iff]
            intro b hb hpb
            rw [hp b a (not_lt.mp (hfirst b hb)) hpb] at ha
            cases ha
          have hall : l.filter (!p ·) = l := by
            have hsplit := ih hrest
            rwa [hnone, List.nil_append] at hsplit
          simp [ha, hnone, hall]

/-- An element that is not tied with another across the cut comes under the first `n` when
fewer than `n` keys are larger. -/
theorem mem_take_of_sorted (h : l.Pairwise fun a b => ¬ f a < f b) (hx : x ∈ l)
    (hties : ∀ y ∈ l, f y = f x → l.countP (fun a => f x < f a) < n →
      n < l.countP (fun a => f x ≤ f a) → y = x) :
    x ∈ l.take n ↔ l.countP (fun a => f x < f a) < n := by
  have hsplit := filter_append_filter_of_sorted h (p := fun a => decide (f x < f a))
    (fun a b hab ha => decide_eq_true (lt_of_lt_of_le (of_decide_eq_true ha) hab))
  have hlength : (l.filter fun a => decide (f x < f a)).length =
      l.countP (fun a => f x < f a) := List.countP_eq_length_filter.symm
  constructor
  · intro hmem
    by_contra hcut
    rw [← hsplit, List.take_append_of_le_length (by omega)] at hmem
    have hlarger := (List.mem_filter.mp (List.mem_of_mem_take hmem)).2
    exact lt_irrefl _ (of_decide_eq_true hlarger)
  · intro hcut
    by_cases hall : l.countP (fun a => f x ≤ f a) ≤ n
    · have hsplit' := filter_append_filter_of_sorted h (p := fun a => decide (f x ≤ f a))
        (fun a b hab ha => decide_eq_true (le_trans (of_decide_eq_true ha) hab))
      rw [List.countP_eq_length_filter] at hall
      rw [← hsplit', List.take_append, List.take_of_length_le hall]
      exact List.mem_append_left _ (List.mem_filter.mpr ⟨hx, by simp⟩)
    · -- the first element after the larger ones is `x`, as it is tied with it
      rw [← hsplit, List.take_append, hlength]
      refine List.mem_append_right _ ?_
      have hmem : x ∈ l.filter (fun a => !decide (f x < f a)) :=
        List.mem_filter.mpr ⟨hx, by simp⟩
      cases hrest : l.filter (fun a => !decide (f x < f a)) with
      | nil =>
          rw [hrest] at hmem
          cases hmem
      | cons y rest =>
          have hy : y ∈ l ∧ f y ≤ f x := by
            have hmem' := hrest ▸ List.mem_cons_self (a := y) (l := rest)
            simpa using List.mem_filter.mp hmem'
          have hge : f x ≤ f y := by
            have hsorted := hrest ▸ h.filter fun a => !decide (f x < f a)
            rw [hrest] at hmem
            rcases List.mem_cons.mp hmem with rfl | hmem
            · exact le_refl _
            · exact not_lt.mp ((List.pairwise_cons.mp hsorted).1 x hmem)
          rw [hties y hy.1 (le_antisymm hy.2 hge) hcut (by omega)]
          obtain ⟨k, hk⟩ := Nat.exists_eq_add_of_lt hcut
          rw [show n - l.countP (fun a => f x < f a) = k + 1 by omega, List.take_succ_cons]
          exact List.mem_cons_self

end LuminalShine.Lib
