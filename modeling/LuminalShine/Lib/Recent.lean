import Mathlib.Data.List.Basic
import Mathlib.Data.Nat.Notation
import Mathlib.Order.Basic
import Mathlib.Order.Lattice

/-!
# A ring of the most recent entries

A ring has a fixed number of slots, the slot the next entry goes to, and a count that stops at
the number of slots.  It stands for the list of all entries, newest first; `Recent` says that
looking `m` entries back finds what the list has there.  Setting the count to zero forgets
the entries without touching the slots.

## Main results

* `Recent.push`, `Recent.forget`, `Recent.lookBack_eq` — the ring's operations.
* `le_countP_iff` — in a list that is sorted, the newest first, how many entries pass a lower
  bound is a question about one of them.
-/

namespace LuminalShine.Lib

variable {α : Type*} {k : ℕ}

/-- The slot after `head`. -/
def nextSlot (head : Fin k) : Fin k :=
  ⟨(head + 1) % k, Nat.mod_lt _ (Nat.zero_lt_of_lt head.isLt)⟩

/-- The slot `m` entries before `head`. -/
def slotBefore (head : Fin k) (m : ℕ) : Fin k :=
  ⟨(head + k - m) % k, Nat.mod_lt _ (Nat.zero_lt_of_lt head.isLt)⟩

/-- The `m`-th most recent entry, `1` for the newest. -/
def lookBack (slots : Vector α k) (head : Fin k) (m : ℕ) : α := slots[slotBefore head m]

/-- The ring stands for the entries `xs`, newest first. -/
structure Recent (slots : Vector α k) (head : Fin k) (count : ℕ) (xs : List α) : Prop where
  count_eq : count = min xs.length k
  lookBack_eq : ∀ m, m < count → xs[m]? = some (lookBack slots head (m + 1))

/-! ## Slots -/

theorem slotBefore_nextSlot_one (head : Fin k) : slotBefore (nextSlot head) 1 = head := by
  have hlt := head.isLt
  ext
  simp only [slotBefore, nextSlot]
  by_cases hwrap : head + 1 = k
  · rw [hwrap, Nat.mod_self, Nat.zero_add, Nat.mod_eq_of_lt (by omega)]
    omega
  · rw [Nat.mod_eq_of_lt (by omega : head.val + 1 < k)]
    rw [show head.val + 1 + k - 1 = head.val + k by omega, Nat.add_mod_right,
      Nat.mod_eq_of_lt hlt]

theorem slotBefore_nextSlot_succ (head : Fin k) {m : ℕ} (hm : m < k) :
    slotBefore (nextSlot head) (m + 1) = slotBefore head m := by
  have hlt := head.isLt
  ext
  simp only [slotBefore, nextSlot]
  by_cases hwrap : head + 1 = k
  · rw [hwrap, Nat.mod_self, Nat.zero_add]
    rw [show head.val + k - m = k - (m + 1) + k by omega, Nat.add_mod_right]
  · rw [Nat.mod_eq_of_lt (by omega : head.val + 1 < k)]
    congr 1
    omega

/-- Less than one turn back is another slot. -/
theorem slotBefore_ne (head : Fin k) {m : ℕ} (hpos : 0 < m) (hm : m < k) :
    slotBefore head m ≠ head := by
  have hlt := head.isLt
  intro h
  have hval : (head.val + k - m) % k = head.val := congrArg Fin.val h
  by_cases hle : m ≤ head
  · rw [show head.val + k - m = head.val - m + k by omega, Nat.add_mod_right,
      Nat.mod_eq_of_lt (by omega)] at hval
    omega
  · rw [Nat.mod_eq_of_lt (by omega)] at hval
    omega

/-! ## The operations -/

namespace Recent

variable {slots : Vector α k} {head : Fin k} {count : ℕ} {xs : List α}

theorem forget (slots : Vector α k) (head : Fin k) : Recent slots head 0 ([] : List α) where
  count_eq := by simp
  lookBack_eq := by simp

theorem push (h : Recent slots head count xs) (x : α) :
    Recent (slots.set head x head.isLt) (nextSlot head) (min (count + 1) k) (x :: xs) where
  count_eq := by
    rw [h.count_eq, List.length_cons]
    omega
  lookBack_eq := by
    intro m hm
    cases m with
    | zero =>
        simp [lookBack, slotBefore_nextSlot_one]
    | succ m =>
        have hne := slotBefore_ne head (Nat.succ_pos m) (by omega)
        have hval : head.val ≠ (slotBefore head (m + 1)).val :=
          fun heq => hne (Fin.ext heq.symm)
        rw [List.getElem?_cons_succ, h.lookBack_eq m (by omega)]
        simp only [lookBack, slotBefore_nextSlot_succ head (by omega : m + 1 < k), Fin.getElem_fin,
          Vector.getElem_set_ne _ _ hval]

end Recent

/-! ## Sorted entries -/

/-- In a descending list at least `m + 1` entries are above a bound exactly when the entry at
`m` is. -/
theorem le_countP_iff {β : Type*} [LinearOrder β] (c : β) {xs : List β}
    (h : xs.Pairwise fun a b => b ≤ a) (m : ℕ) :
    m + 1 ≤ xs.countP (fun x => decide (c ≤ x)) ↔ ∃ x, xs[m]? = some x ∧ c ≤ x := by
  induction xs generalizing m with
  | nil => simp
  | cons a xs ih =>
      have hsorted := List.pairwise_cons.mp h
      by_cases ha : c ≤ a
      · cases m with
        | zero => simp [ha]
        | succ m => simpa [ha] using ih hsorted.2 m
      · have hnone : xs.countP (fun x => decide (c ≤ x)) = 0 := by
          rw [List.countP_eq_zero]
          intro x hx
          simpa using lt_of_le_of_lt (hsorted.1 x hx) (lt_of_not_ge ha)
        have hsmall : ∀ x, (a :: xs)[m]? = some x → ¬ c ≤ x := by
          intro x hx hc
          rcases List.mem_cons.mp (List.mem_of_getElem? hx) with rfl | hmem
          · exact ha hc
          · exact ha (hc.trans (hsorted.1 x hmem))
        simp only [List.countP_cons, ha, hnone, decide_false, Bool.false_eq_true, if_false]
        constructor
        · intro hle
          omega
        · rintro ⟨x, hx, hc⟩
          exact absurd hc (hsmall x hx)

end LuminalShine.Lib
