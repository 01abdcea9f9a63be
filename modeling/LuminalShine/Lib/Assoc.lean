import Mathlib.Data.List.AList

/-!
# Association lists as the maps of a program

An entry that is written, replaced or erased under one key changes a count by what it
contributes itself; the entries of the other keys are those of `erase`.  `emplace` is the
insertion of the C++ maps, which leaves a key that is there alone.
-/

namespace LuminalShine.Lib

variable {κ : Type*} [DecidableEq κ] {β : κ → Type*} {m : AList β} {key : κ} {b : β key}

/-- What is written under a key is counted once. -/
theorem countP_entries_insert (p : Sigma β → Bool) (key : κ) (b : β key) (m : AList β) :
    (m.insert key b).entries.countP p =
      (m.erase key).entries.countP p + (p ⟨key, b⟩).toNat := by
  rw [AList.entries_insert, List.countP_cons]
  cases p ⟨key, b⟩ <;> rfl

theorem countP_kerase (p : Sigma β → Bool) {l : List (Sigma β)} (h : l.dlookup key = some b) :
    l.countP p = (l.kerase key).countP p + (p ⟨key, b⟩).toNat := by
  induction l with
  | nil => cases h
  | cons entry l ih =>
      obtain ⟨k, v⟩ := entry
      by_cases hk : key = k
      · subst hk
        rw [List.dlookup_cons_eq, Option.some.injEq] at h
        subst h
        have herase : List.kerase key (⟨key, v⟩ :: l) = l := List.kerase_cons_eq rfl
        rw [herase, List.countP_cons]
        cases p ⟨key, v⟩ <;> rfl
      · rw [List.dlookup_cons_ne _ _ hk] at h
        rw [List.kerase_cons_ne hk, List.countP_cons, List.countP_cons, ih h]
        omega

/-- What is stored under a key is counted once. -/
theorem countP_entries_of_lookup (p : Sigma β → Bool) (h : m.lookup key = some b) :
    m.entries.countP p = (m.erase key).entries.countP p + (p ⟨key, b⟩).toNat :=
  countP_kerase p h

/-- There is nothing to erase under a key that is not there. -/
theorem erase_of_lookup_none (h : m.lookup key = none) : m.erase key = m :=
  AList.ext (List.kerase_of_notMem_keys (AList.lookup_eq_none.mp h))

/-! ## Lookups after an update -/

/-- Writing a key leaves the others. -/
theorem lookup_insert_eq_some {γ : Type*} {m : AList fun _ : κ => γ} {k : κ} {c d : γ} :
    (m.insert key d).lookup k = some c ↔ k = key ∧ c = d ∨ k ≠ key ∧ m.lookup k = some c := by
  by_cases hk : k = key
  · subst hk
    rw [AList.lookup_insert, Option.some.injEq]
    simp [eq_comm]
  · rw [AList.lookup_insert_ne hk]
    simp [hk]

/-- Erasing a key leaves the others. -/
theorem lookup_erase_eq_some {γ : Type*} {m : AList fun _ : κ => γ} {k : κ} {c : γ} :
    (m.erase key).lookup k = some c ↔ k ≠ key ∧ m.lookup k = some c := by
  by_cases hk : k = key
  · subst hk
    simp
  · rw [AList.lookup_erase_ne hk]
    simp [hk]

/-- What holds of every entry and of the new one holds of every entry afterwards. -/
theorem forall_insert {γ : Type*} {P : κ → γ → Prop} {m : AList fun _ : κ => γ} {d : γ}
    (hall : ∀ k c, m.lookup k = some c → P k c) (hnew : P key d) :
    ∀ k c, (m.insert key d).lookup k = some c → P k c := by
  intro k c hlookup
  rcases lookup_insert_eq_some.mp hlookup with ⟨rfl, rfl⟩ | ⟨-, hlookup⟩
  · exact hnew
  · exact hall k c hlookup

theorem forall_erase {γ : Type*} {P : κ → γ → Prop} {m : AList fun _ : κ => γ}
    (hall : ∀ k c, m.lookup k = some c → P k c) :
    ∀ k c, (m.erase key).lookup k = some c → P k c :=
  fun k c hlookup => hall k c (lookup_erase_eq_some.mp hlookup).2

/-- A key of which nothing can hold is not there. -/
theorem notMem_of_forall {P : κ → Prop} (hall : ∀ k c, m.lookup k = some c → P k)
    (hkey : ¬ P key) : key ∉ m := by
  intro hmem
  obtain ⟨c, hlookup⟩ := Option.isSome_iff_exists.mp (AList.lookup_isSome.mpr hmem)
  exact hkey (hall key c hlookup)

/-- Insert under a key that is not there. -/
def emplace (m : AList β) (key : κ) (b : β key) : AList β := if key ∈ m then m else m.insert key b

theorem emplace_of_notMem (h : key ∉ m) : emplace m key b = m.insert key b := if_neg h

/-- What is there stays; the new value is found under a new key. -/
theorem lookup_emplace {γ : Type*} {m : AList fun _ : κ => γ} {c : γ} (k : κ) :
    (emplace m key c).lookup k = (m.lookup k).or (if k = key then some c else none) := by
  unfold emplace
  split
  · case isTrue hmem =>
      by_cases hk : k = key
      · subst hk
        obtain ⟨c', hc'⟩ := Option.isSome_iff_exists.mp (AList.lookup_isSome.mpr hmem)
        simp [hc']
      · simp [hk]
  · case isFalse hmem =>
      by_cases hk : k = key
      · subst hk
        simp [AList.lookup_eq_none.mpr hmem]
      · simp [AList.lookup_insert_ne hk, hk]

end LuminalShine.Lib
