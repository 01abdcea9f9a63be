import Mathlib.Data.Finset.Max
import Mathlib.Data.Finset.Sort
import Mathlib.Data.List.Sort

/-!
# Keeping the highest

Of a finite set in a linear order keep the elements that have fewer than `k` above them.  A stream
that is cut down after every arrival ends with the same elements as one that is cut down once at
the end (`highest_insert`): what was dropped earlier had `k` elements above it and still has.

* `highest` — the elements that are kept;
* `highest_eq_of_subset` — elements that are not kept do not matter;
* `mem_take_insertionSort` — sorting and dropping the front is what keeps them.
-/

namespace LuminalShine.Lib

variable {α : Type*} [LinearOrder α] {k : ℕ} {s t : Finset α} {a : α}

/-- How many elements are above. -/
def above (s : Finset α) (a : α) : ℕ := (s.filter (a < ·)).card

/-- The elements with fewer than `k` above them. -/
def highest (k : ℕ) (s : Finset α) : Finset α := s.filter fun a => above s a < k

theorem mem_highest : a ∈ highest k s ↔ a ∈ s ∧ above s a < k := Finset.mem_filter

theorem highest_subset : highest k s ⊆ s := Finset.filter_subset _ _

theorem above_mono (h : s ⊆ t) (a : α) : above s a ≤ above t a :=
  Finset.card_le_card (Finset.filter_subset_filter _ h)

/-- As many as there are, and at most `k`. -/
theorem card_highest (k : ℕ) (s : Finset α) : (highest k s).card = min k s.card := by
  induction s using Finset.induction_on_min with
  | empty => simp [highest]
  | insert m s hm ih =>
      have hnotmem : m ∉ s := fun h => lt_irrefl m (hm m h)
      -- the smallest element is above no other one
      have habove : ∀ a ∈ s, above (insert m s) a = above s a := by
        intro a ha
        have hsmall : ¬ a < m := not_lt.mpr (hm a ha).le
        simp [above, Finset.filter_insert, hsmall]
      have hall : above (insert m s) m = s.card := by
        have : s.filter (m < ·) = s := Finset.filter_true_of_mem hm
        simp [above, Finset.filter_insert, this]
      have hrest : s.filter (fun a => above (insert m s) a < k) = highest k s :=
        Finset.filter_congr fun a ha => by rw [habove a ha]
      rw [highest, Finset.filter_insert, hall, hrest, Finset.card_insert_of_notMem hnotmem]
      split
      · rw [Finset.card_insert_of_notMem (fun h => hnotmem (highest_subset h)), ih]
        omega
      · rw [ih]
        omega

/-- Elements that are not kept do not matter. -/
theorem highest_eq_of_subset (hkept : highest k s ⊆ t) (hsub : t ⊆ s) :
    highest k t = highest k s := by
  ext a
  rw [mem_highest, mem_highest]
  constructor
  · rintro ⟨ha, hlt⟩
    refine ⟨hsub ha, ?_⟩
    by_contra hmany
    -- `k` elements of `s` above `a` are kept, so they are above it in `t`
    have hsame : highest k (s.filter (a < ·)) ⊆ t.filter (a < ·) := by
      intro b hb
      obtain ⟨hb, hbk⟩ := mem_highest.mp hb
      obtain ⟨hbs, hab⟩ := Finset.mem_filter.mp hb
      refine Finset.mem_filter.mpr ⟨hkept (mem_highest.mpr ⟨hbs, ?_⟩), hab⟩
      have hfilter : (s.filter (a < ·)).filter (b < ·) = s.filter (b < ·) := by
        rw [Finset.filter_filter]
        exact Finset.filter_congr fun c _ => ⟨fun h => h.2, fun h => ⟨hab.trans h, h⟩⟩
      rwa [above, hfilter] at hbk
    have hcard := Finset.card_le_card hsame
    rw [card_highest] at hcard
    unfold above at hlt hmany
    omega
  · rintro ⟨ha, hlt⟩
    exact ⟨hkept (mem_highest.mpr ⟨ha, hlt⟩), (above_mono hsub a).trans_lt hlt⟩

/-- **Cutting down after every arrival.** -/
theorem highest_insert (k : ℕ) (a : α) (s : Finset α) :
    highest k (insert a (highest k s)) = highest k (insert a s) := by
  refine highest_eq_of_subset ?_ (Finset.insert_subset_insert a highest_subset)
  intro b hb
  obtain ⟨hb, hlt⟩ := mem_highest.mp hb
  rcases Finset.mem_insert.mp hb with rfl | hb
  · exact Finset.mem_insert_self _ _
  · exact Finset.mem_insert_of_mem (mem_highest.mpr
      ⟨hb, (above_mono (Finset.subset_insert _ _) b).trans_lt hlt⟩)

/-- In an increasing list the elements in front of the last `k` are those with `k` above. -/
theorem mem_take_of_increasing {l : List α} (hl : l.Pairwise (· < ·)) :
    a ∈ l.take (l.length - k) ↔ a ∈ l ∧ k ≤ l.countP (a < ·) := by
  induction l with
  | nil => simp
  | cons b l ih =>
      obtain ⟨hb, hl⟩ := List.pairwise_cons.mp hl
      have hself : l.countP (b < ·) = l.length :=
        List.countP_eq_length.mpr fun c hc => decide_eq_true (hb c hc)
      by_cases hlong : k ≤ l.length
      · rw [List.length_cons, Nat.succ_sub hlong, List.take_succ_cons, List.mem_cons, ih hl,
          List.mem_cons, List.countP_cons]
        by_cases hab : a = b
        · subst hab
          simp [hself, hlong]
        · by_cases ha : a ∈ l
          · have hnot : ¬ a < b := not_lt.mpr (hb a ha).le
            simp [ha, hab, hnot]
          · simp [ha, hab]
      · rw [List.length_cons, Nat.sub_eq_zero_of_le (Nat.lt_of_not_le hlong), List.take_zero]
        have hfew : l.countP (a < ·) ≤ l.length := List.countP_le_length
        refine iff_of_false List.not_mem_nil ?_
        rintro ⟨ha, hk⟩
        rw [List.countP_cons] at hk
        rcases List.mem_cons.mp ha with rfl | ha
        · simp only [lt_irrefl, decide_false, Bool.false_eq_true, if_false] at hk
          omega
        · have hnot : ¬ a < b := not_lt.mpr (hb a ha).le
          simp only [hnot, decide_false, Bool.false_eq_true, if_false] at hk
          omega

/-- Sorting and dropping the front drops what is not among the highest. -/
theorem mem_take_insertionSort {l : List α} (hl : l.Nodup) :
    a ∈ (l.insertionSort (· ≤ ·)).take (l.length - k) ↔
      a ∈ l ∧ a ∉ highest k l.toFinset := by
  have hperm := List.perm_insertionSort (· ≤ ·) l
  have hsorted : (l.insertionSort (· ≤ ·)).Pairwise (· < ·) := by
    have hle := List.pairwise_insertionSort (· ≤ ·) l
    have hne : (l.insertionSort (· ≤ ·)).Pairwise (· ≠ ·) := hperm.nodup_iff.mpr hl
    exact (hle.and hne).imp fun h => lt_of_le_of_ne h.1 h.2
  have hcount : l.countP (a < ·) = above l.toFinset a := by
    have hfilter : l.toFinset.filter (a < ·) = (l.filter (a < ·)).toFinset := by
      ext b
      simp
    rw [above, hfilter, List.toFinset_card_of_nodup (hl.filter _), List.countP_eq_length_filter]
  have htake := mem_take_of_increasing (a := a) (k := k) hsorted
  rw [List.length_insertionSort, hperm.mem_iff, hperm.countP_eq, hcount] at htake
  rw [htake, mem_highest, List.mem_toFinset]
  exact and_congr_right fun ha => by simp [ha]

end LuminalShine.Lib
