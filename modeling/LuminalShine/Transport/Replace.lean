import LuminalShine.Lib.Search
import Mathlib.Algebra.Group.Nat.Defs
import Mathlib.Data.List.Infix

/-!
# Payload replacement

`replace` of `src/stream.cpp` and `replace_payload` of `src/webrtc_stream.cpp`: a parameter set in
the payload of an IDR frame gives way to another.

Both reserve the size of the result before they know whether there is anything to replace, and
the size is unsigned.  Where the old bytes are more than the payload and the new bytes together
it wraps around, and `reserve` throws.  Storage is not short otherwise.

## Main definitions

* `replace`, `replacePayload` — the source's functions.
* `Replaced` — the first occurrence gives way, or the bytes stay as they are.

## Main results

* `replaced_spec` — what the two return when they do not throw.
-/

namespace LuminalShine.Transport.Replace

open LuminalShine.Lib

/-- `PTRDIFF_MAX`: no vector and no view is longer. -/
def maxSize : ℕ := 2 ^ 63 - 1

/-- The bytes of a view or of a vector. -/
abbrev Bytes := {bytes : List UInt8 // bytes.length ≤ maxSize}

inductive Error where
  | lengthError
  deriving DecidableEq, Repr

/-- `original.size() + _new.size() - old.size()` -/
def reserved (original old new : Bytes) : UInt64 :=
  UInt64.ofNat original.val.length + UInt64.ofNat new.val.length - UInt64.ofNat old.val.length

/-- What is copied; `search` finds nothing where `next` is `end`. -/
def replaced (original old new : List UInt8) : List UInt8 :=
  match search old original with
  | none => original
  | some next => original.take next ++ new ++ original.drop (next + old.length)

theorem reserved_le_iff {original old new : Bytes} :
    (reserved original old new).toNat ≤ maxSize ↔
      old.val.length ≤ original.val.length + new.val.length ∧
        original.val.length + new.val.length ≤ maxSize + old.val.length := by
  have horiginal := original.property
  have hold := old.property
  have hnew := new.property
  simp only [maxSize] at horiginal hold hnew ⊢
  simp only [reserved, UInt64.toNat_sub, UInt64.toNat_add, UInt64.toNat_ofNat']
  omega

theorem length_le_of_search {needle xs : List UInt8} {i : ℕ} (h : search needle xs = some i) :
    i + needle.length ≤ xs.length := by
  by_cases hne : needle = []
  · subst hne
    cases xs with
    | nil => cases h
    | cons x xs =>
        rw [search, if_pos (List.nil_prefix), Option.some.injEq] at h
        subst h
        exact Nat.zero_le _
  · exact ((search_eq_some_iff hne).mp h).1.length_le hne

theorem length_replaced_le {original old new : Bytes}
    (h : ¬ maxSize < (reserved original old new).toNat) :
    (replaced original.val old.val new.val).length ≤ maxSize := by
  rw [Nat.not_lt, reserved_le_iff] at h
  unfold replaced
  split
  · exact original.property
  · case h_2 next hnext =>
      have hle := length_le_of_search hnext
      simp only [List.length_append, List.length_take, List.length_drop]
      omega

/-- `replace` -/
def replace (original old new : Bytes) : Except Error Bytes :=
  if h : maxSize < (reserved original old new).toNat then .error .lengthError
  else .ok ⟨replaced original.val old.val new.val, length_replaced_le h⟩

/-- `replace_payload` -/
def replacePayload (original old new : Bytes) : Except Error Bytes := replace original old new

/-! ## The first occurrence -/

/-- The first occurrence of `old` gives way to `new`; without one, nothing changes. -/
inductive Replaced (original old new : List UInt8) : List UInt8 → Prop
  | found {before after : List UInt8} (hsplit : original = before ++ old ++ after)
    (hfirst : ∀ before' after', original = before' ++ old ++ after' →
      before.length ≤ before'.length) : Replaced original old new (before ++ new ++ after)
  | absent (hnone : ∀ before after, original ≠ before ++ old ++ after) :
    Replaced original old new original

section

variable {original old new : List UInt8}

theorem Replaced.unique {result result' : List UInt8} (h : Replaced original old new result)
    (h' : Replaced original old new result') : result = result' := by
  cases h with
  | absent hnone =>
      cases h' with
      | absent _ => rfl
      | found hsplit _ => exact absurd hsplit (hnone _ _)
  | @found before after hsplit hfirst =>
      cases h' with
      | absent hnone => exact absurd hsplit (hnone _ _)
      | @found before' after' hsplit' hfirst' =>
          have hlength : before.length = before'.length :=
            Nat.le_antisymm (hfirst _ _ hsplit') (hfirst' _ _ hsplit)
          rw [hsplit, List.append_assoc, List.append_assoc] at hsplit'
          rcases List.append_inj hsplit' hlength with ⟨rfl, htail⟩
          rw [List.append_cancel_left htail]

theorem occursAt_of_split {before after : List UInt8} (h : original = before ++ old ++ after) :
    OccursAt old original before.length := by
  rw [OccursAt, h, List.append_assoc, List.drop_left]
  exact List.prefix_append old after

theorem split_of_occursAt {i : ℕ} (h : OccursAt old original i) :
    original = original.take i ++ old ++ original.drop (i + old.length) := by
  rcases h with ⟨after, hafter⟩
  have hdrop : original.drop (i + old.length) = after := by
    rw [← List.drop_drop, ← hafter, List.drop_left]
  rw [hdrop, List.append_assoc, hafter, List.take_append_drop]

/-- What is copied is the payload with its first occurrence replaced, unless there was nothing
to search in and nothing to search for. -/
theorem replaced_spec (h : original ≠ [] ∨ old ≠ [] ∨ new = []) :
    Replaced original old new (replaced original old new) := by
  by_cases hold : old = []
  · subst hold
    cases original with
    | nil =>
        have hnew : new = [] := by simpa using h
        subst hnew
        have hfound : Replaced [] [] [] ([] ++ [] ++ []) := .found rfl fun _ _ _ => Nat.zero_le _
        exact hfound
    | cons x xs =>
        have hfound : search [] (x :: xs) = some 0 := if_pos List.nil_prefix
        simp only [replaced, hfound, List.take_zero, List.length_nil, Nat.add_zero,
          List.drop_zero]
        exact .found rfl fun _ _ _ => Nat.zero_le _
  · unfold replaced
    split
    · case h_1 hnone =>
        refine .absent fun before after hsplit => ?_
        exact (search_eq_none_iff hold).mp hnone _ (occursAt_of_split hsplit)
    · case h_2 next hnext =>
        rcases (search_eq_some_iff hold).mp hnext with ⟨hoccurs, hfirst⟩
        have hle := hoccurs.length_le hold
        refine .found (split_of_occursAt hoccurs) fun before' after' hsplit => ?_
        rw [List.length_take, Nat.min_eq_left (by omega)]
        by_contra hlt
        exact hfirst _ (Nat.not_le.mp hlt) (occursAt_of_split hsplit)

end

/-! ## Both functions -/

/-- Both return the payload with its first occurrence replaced. -/
def Replaces (original old new : Bytes) : Prop :=
  ∃ result, replace original old new = .ok result ∧ replacePayload original old new = .ok result ∧
    Replaced original.val old.val new.val result.val

/-- Exactly when the reserved size does not wrap and fits, and it is not the empty payload in
which the empty word should give way. -/
theorem replaces_iff (original old new : Bytes) :
    Replaces original old new ↔
      old.val.length ≤ original.val.length + new.val.length ∧
        original.val.length + new.val.length ≤ maxSize + old.val.length ∧
          (original.val ≠ [] ∨ old.val ≠ [] ∨ new.val = []) := by
  rw [← and_assoc, ← reserved_le_iff]
  constructor
  · rintro ⟨result, hreplace, -, hspec⟩
    unfold replace at hreplace
    split at hreplace
    · cases hreplace
    · case isFalse hfits =>
        refine ⟨Nat.not_lt.mp hfits, ?_⟩
        cases hreplace
        by_contra hempty
        simp only [not_or, not_not] at hempty
        rcases hempty with ⟨horiginal, hold, hnew⟩
        simp only [horiginal, hold] at hspec
        have hfound : Replaced [] [] new.val ([] ++ new.val ++ []) :=
          .found rfl fun _ _ _ => Nat.zero_le _
        have heq := hspec.unique hfound
        simp only [List.nil_append, List.append_nil] at heq
        exact hnew heq.symm
  · rintro ⟨hfits, hempty⟩
    refine ⟨⟨_, length_replaced_le (Nat.not_lt.mpr hfits)⟩, ?_, ?_, replaced_spec hempty⟩
    · exact dif_neg (Nat.not_lt.mpr hfits)
    · exact dif_neg (Nat.not_lt.mpr hfits)

/-- One byte to replace in nothing, by nothing. -/
theorem empty_not_replaces :
    replace ⟨[], Nat.zero_le _⟩ ⟨[0], by decide⟩ ⟨[], Nat.zero_le _⟩ = .error .lengthError ∧
      ¬ Replaces ⟨[], Nat.zero_le _⟩ ⟨[0], by decide⟩ ⟨[], Nat.zero_le _⟩ := by
  have hthrows : replace ⟨[], Nat.zero_le _⟩ ⟨[0], by decide⟩ ⟨[], Nat.zero_le _⟩ =
      .error .lengthError := rfl
  refine ⟨hthrows, ?_⟩
  rintro ⟨result, hreplace, -⟩
  rw [hthrows] at hreplace
  cases hreplace

end LuminalShine.Transport.Replace
