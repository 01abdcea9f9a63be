import Mathlib.Data.List.Induction
import Mathlib.Data.List.Nodup
import Mathlib.Data.Nat.Notation

/-!
# A memory of first occurrences

A memory with room for `n` values takes those that it does not hold, and forgets the oldest
one when it is full.  While none of the forgotten values comes back it holds the values of a
history that occurred first most recently.

## Main definitions

* `newest` — the end of a list.
* `remembered` — what is held after a history.
* `firstSeen` — the values of a history in the order of their first occurrences.

## Main results

* `length_remembered_le`, `nodup_remembered` — its room, and that nothing is held twice.
* `remembered_eq_newest` — without returns, it is the end of the first occurrences.
-/

namespace LuminalShine.Lib

variable {α : Type*}

/-- The last `n` values. -/
def newest (n : ℕ) (l : List α) : List α := l.drop (l.length - n)

theorem length_newest_le (n : ℕ) (l : List α) : (newest n l).length ≤ n := by
  rw [newest, List.length_drop]
  omega

theorem newest_of_length_le {n : ℕ} {l : List α} (h : l.length ≤ n) : newest n l = l := by
  rw [newest, Nat.sub_eq_zero_of_le h, List.drop_zero]

theorem mem_of_mem_newest {n : ℕ} {l : List α} {x : α} (h : x ∈ newest n l) : x ∈ l :=
  List.mem_of_mem_drop h

theorem newest_newest_append (n : ℕ) (l : List α) (x : α) :
    newest n (newest n l ++ [x]) = newest n (l ++ [x]) := by
  by_cases h : l.length ≤ n
  · rw [newest_of_length_le h]
  · have hlen : (newest n l).length = n := by
      rw [newest, List.length_drop]
      omega
    rw [newest, List.length_append, hlen, List.length_singleton, Nat.add_sub_cancel_left, newest,
      newest, List.length_append, List.length_singleton,
      show l.length + 1 - n = l.length - n + 1 by omega, ← List.drop_drop,
      List.drop_append_of_le_length (Nat.sub_le _ _)]

variable [DecidableEq α]

/-- Take a value that is not held. -/
def remember (n : ℕ) (held : List α) (x : α) : List α :=
  if x ∈ held then held else newest n (held ++ [x])

/-- What is held after a history. -/
def remembered (n : ℕ) (history : List α) : List α := history.foldl (remember n) []

/-- The values of a history in the order of their first occurrences. -/
def firstSeen (history : List α) : List α :=
  history.foldl (fun seen x => if x ∈ seen then seen else seen ++ [x]) []

section

variable {n : ℕ} {held history : List α} {x : α}

@[simp] theorem remembered_concat :
    remembered n (history ++ [x]) = remember n (remembered n history) x := by
  simp [remembered]

theorem firstSeen_concat : firstSeen (history ++ [x]) =
    if x ∈ firstSeen history then firstSeen history else firstSeen history ++ [x] := by
  rw [firstSeen, List.foldl_append]
  rfl

theorem remember_of_mem (h : x ∈ held) : remember n held x = held := if_pos h

theorem length_remember_le (h : held.length ≤ n) : (remember n held x).length ≤ n := by
  unfold remember
  split
  · exact h
  · exact length_newest_le n _

theorem length_remembered_le (n : ℕ) (history : List α) :
    (remembered n history).length ≤ n := by
  induction history using List.reverseRecOn with
  | nil => exact Nat.zero_le n
  | append_singleton history x ih =>
      rw [remembered_concat]
      exact length_remember_le ih

theorem nodup_remember (h : held.Nodup) : (remember n held x).Nodup := by
  unfold remember
  split
  · exact h
  · case isFalse hx =>
      refine (List.drop_sublist _ _).nodup ?_
      rw [List.nodup_append]
      refine ⟨h, List.nodup_singleton x, ?_⟩
      rintro y hy z hz rfl
      exact hx (List.mem_singleton.mp hz ▸ hy)

theorem nodup_remembered (n : ℕ) (history : List α) : (remembered n history).Nodup := by
  induction history using List.reverseRecOn with
  | nil => exact List.nodup_nil
  | append_singleton history x ih =>
      rw [remembered_concat]
      exact nodup_remember ih

theorem mem_remember (hn : 0 < n) (held : List α) (x : α) : x ∈ remember n held x := by
  by_cases hmem : x ∈ held
  · rwa [remember_of_mem hmem]
  · have hdrop : held.length + 1 - n ≤ held.length := by omega
    rw [remember, if_neg hmem, newest, List.length_append, List.length_singleton,
      List.drop_append_of_le_length hdrop]
    exact List.mem_append_right _ (List.mem_singleton_self x)

theorem mem_of_mem_remember {y : α} (h : y ∈ remember n held x) : y ∈ held ∨ y = x := by
  unfold remember at h
  split at h
  · exact .inl h
  · simpa using mem_of_mem_newest h

theorem mem_firstSeen {y : α} : y ∈ firstSeen history ↔ y ∈ history := by
  induction history using List.reverseRecOn generalizing y with
  | nil => rfl
  | append_singleton history x ih =>
      rw [firstSeen_concat]
      split
      · case isTrue hx =>
          have hmem : x ∈ history := ih.mp hx
          simp only [List.mem_append, List.mem_singleton, ih]
          constructor
          · exact .inl
          · rintro (hy | rfl)
            · exact hy
            · exact hmem
      · simp only [List.mem_append, List.mem_singleton, ih]

theorem firstSeen_append_of_mem (h : x ∈ history) :
    firstSeen (history ++ [x]) = firstSeen history := by
  rw [firstSeen_concat, if_pos (mem_firstSeen.mpr h)]

/-- A value of the history that is forgotten does not come back. -/
def NoReturn (n : ℕ) (history : List α) : Prop :=
  ∀ older x later, history = older ++ x :: later → x ∈ older → x ∈ remembered n older

theorem remembered_eq_newest (h : NoReturn n history) :
    remembered n history = newest n (firstSeen history) := by
  induction history using List.reverseRecOn with
  | nil => exact (newest_of_length_le (Nat.zero_le n)).symm
  | append_singleton history x ih =>
      have hprefix : NoReturn n history := by
        intro older y later heq hy
        exact h older y (later ++ [x]) (by simp [heq]) hy
      rw [remembered_concat, firstSeen_concat]
      by_cases hx : x ∈ history
      · rw [remember_of_mem (h history x [] rfl hx), if_pos (mem_firstSeen.mpr hx), ih hprefix]
      · have hnew : x ∉ remembered n history := by
          rw [ih hprefix]
          exact fun hmem => hx (mem_firstSeen.mp (mem_of_mem_newest hmem))
        rw [remember, if_neg hnew, if_neg (mem_firstSeen.not.mpr hx), ih hprefix,
          newest_newest_append]

theorem firstSeen_of_nodup (h : history.Nodup) : firstSeen history = history := by
  induction history using List.reverseRecOn with
  | nil => rfl
  | append_singleton history x ih =>
      rw [List.nodup_append] at h
      have hx : x ∉ history := fun hmem => h.2.2 x hmem x (List.mem_singleton_self x) rfl
      rw [firstSeen_concat, ih h.1, if_neg hx]

end

end LuminalShine.Lib
