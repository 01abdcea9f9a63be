import Mathlib.Data.List.Basic
import Mathlib.Order.Lattice

/-!
# Sorted maps

A map that is iterated in the order of its keys, as a list of entries with increasing
keys.  Both ways to write an entry are one search for its place: they differ in what
becomes of a value that is already there.  Rebuilding a map from its own entries, in
order, gives it back: every entry goes to the end.

## Main definitions

* `SortedMap α β` — the maps; `SortedMap α Unit` are the sets.
* `SortedMap.assign`, `SortedMap.tryEmplace` — write an entry.
* `SortedMap.entries_foldl_tryEmplace` — the reconstruction.
-/

namespace LuminalShine.Lib

universe u v

@[ext] structure SortedMap (α : Type u) (β : Type v) [LinearOrder α] where
  entries : List (α × β)
  sorted : entries.Pairwise fun a b => a.1 < b.1

namespace SortedMap

variable {α : Type u} {β : Type v} [LinearOrder α]

instance : EmptyCollection (SortedMap α β) := ⟨⟨[], List.Pairwise.nil⟩⟩

@[simp] theorem entries_empty : (∅ : SortedMap α β).entries = [] := rfl

/-- Write an entry in its place; a value that is there already goes through `old`. -/
def upsertEntry (key : α) (value : β) (old : β → β) : List (α × β) → List (α × β)
  | [] => [(key, value)]
  | (k, v) :: rest =>
      if key < k then (key, value) :: (k, v) :: rest
      else if k < key then (k, v) :: upsertEntry key value old rest
      else (k, old v) :: rest

theorem key_of_mem_upsertEntry {key : α} {value : β} {old : β → β} {l : List (α × β)}
    {e : α × β} (h : e ∈ upsertEntry key value old l) : e.1 = key ∨ ∃ d ∈ l, d.1 = e.1 := by
  induction l with
  | nil =>
      rw [List.mem_singleton.mp h]
      exact .inl rfl
  | cons d rest ih =>
      obtain ⟨k, v⟩ := d
      simp only [upsertEntry] at h
      split at h
      · rcases List.mem_cons.mp h with rfl | h
        · exact .inl rfl
        · exact .inr ⟨e, h, rfl⟩
      · split at h
        · rcases List.mem_cons.mp h with rfl | h
          · exact .inr ⟨(k, v), List.mem_cons_self, rfl⟩
          · rcases ih h with hkey | ⟨d, hd, heq⟩
            · exact .inl hkey
            · exact .inr ⟨d, List.mem_cons_of_mem _ hd, heq⟩
        · rcases List.mem_cons.mp h with rfl | h
          · exact .inr ⟨(k, v), List.mem_cons_self, rfl⟩
          · exact .inr ⟨e, List.mem_cons_of_mem _ h, rfl⟩

theorem upsertEntry_sorted (key : α) (value : β) (old : β → β) {l : List (α × β)}
    (h : l.Pairwise fun a b => a.1 < b.1) :
    (upsertEntry key value old l).Pairwise fun a b => a.1 < b.1 := by
  induction l with
  | nil => exact List.pairwise_singleton _ _
  | cons d rest ih =>
      obtain ⟨k, v⟩ := d
      have hrest := List.pairwise_cons.mp h
      simp only [upsertEntry]
      split
      · rename_i hlt
        refine List.pairwise_cons.mpr ⟨?_, h⟩
        intro e he
        rcases List.mem_cons.mp he with rfl | he
        · exact hlt
        · exact lt_trans hlt (hrest.1 e he)
      · split
        · rename_i hlt
          refine List.pairwise_cons.mpr ⟨?_, ih hrest.2⟩
          intro e he
          rcases key_of_mem_upsertEntry he with hkey | ⟨d, hd, heq⟩
          · rw [hkey]
            exact hlt
          · rw [← heq]
            exact hrest.1 d hd
        · exact List.pairwise_cons.mpr ⟨hrest.1, hrest.2⟩

/-- A key larger than all others goes to the end. -/
theorem upsertEntry_of_forall_lt {key : α} (value : β) (old : β → β) {l : List (α × β)}
    (h : ∀ e ∈ l, e.1 < key) : upsertEntry key value old l = l ++ [(key, value)] := by
  induction l with
  | nil => rfl
  | cons d rest ih =>
      obtain ⟨k, v⟩ := d
      have hlt : k < key := h (k, v) List.mem_cons_self
      simp only [upsertEntry, if_neg (lt_asymm hlt), if_pos hlt, List.cons_append]
      rw [ih fun e he => h e (List.mem_cons_of_mem _ he)]

/-- `m[key] = value`. -/
def assign (m : SortedMap α β) (key : α) (value : β) : SortedMap α β :=
  ⟨upsertEntry key value (fun _ => value) m.entries, upsertEntry_sorted _ _ _ m.sorted⟩

/-- `m.try_emplace(key, value)`: what is there stays. -/
def tryEmplace (m : SortedMap α β) (key : α) (value : β) : SortedMap α β :=
  ⟨upsertEntry key value id m.entries, upsertEntry_sorted _ _ _ m.sorted⟩

/-- `m.erase(key)`. -/
def erase (m : SortedMap α β) (key : α) : SortedMap α β :=
  ⟨m.entries.filter fun e => e.1 ≠ key, m.sorted.filter _⟩

def lookup (m : SortedMap α β) (key : α) : Option β := m.entries.lookup key

theorem mem_assign {m : SortedMap α β} {key : α} {value : β} {e : α × β}
    (h : e ∈ (m.assign key value).entries) : e = (key, value) ∨ e ∈ m.entries := by
  obtain ⟨entries, hsorted⟩ := m
  change e ∈ upsertEntry key value _ entries at h
  change e = (key, value) ∨ e ∈ entries
  clear hsorted
  induction entries with
  | nil => exact .inl (List.mem_singleton.mp h)
  | cons d rest ih =>
      obtain ⟨k, v⟩ := d
      simp only [upsertEntry] at h
      split at h
      · exact List.mem_cons.mp h
      · split at h
        · rcases List.mem_cons.mp h with rfl | h
          · exact .inr List.mem_cons_self
          · exact (ih h).imp_right (List.mem_cons_of_mem _)
        · rename_i hge hle
          have hkey : k = key := le_antisymm (not_lt.mp hge) (not_lt.mp hle)
          rcases List.mem_cons.mp h with rfl | h
          · exact .inl (hkey ▸ rfl)
          · exact .inr (List.mem_cons_of_mem _ h)

/-- An entry is what its key looks up. -/
theorem lookup_eq_some_iff {m : SortedMap α β} {key : α} {value : β} :
    m.lookup key = some value ↔ (key, value) ∈ m.entries := by
  obtain ⟨entries, hsorted⟩ := m
  change entries.lookup key = some value ↔ _
  induction entries with
  | nil => simp
  | cons d rest ih =>
      obtain ⟨k, v⟩ := d
      have hrest := List.pairwise_cons.mp hsorted
      by_cases hk : key = k
      · subst hk
        simp only [List.lookup_cons_self, Option.some.injEq, List.mem_cons, Prod.mk.injEq,
          true_and]
        constructor
        · exact fun h => .inl h.symm
        · rintro (h | h)
          · exact h.symm
          · exact absurd (hrest.1 _ h) (lt_irrefl _)
      · have hne : (key == k) = false := by simpa using hk
        rw [List.lookup_cons, hne, List.mem_cons, Prod.mk.injEq]
        simp only [hk, false_and, false_or]
        exact ih hrest.2

/-- Rebuilding from entries in order. -/
theorem entries_foldl_tryEmplace {l : List (α × β)} (m : SortedMap α β)
    (hl : l.Pairwise fun a b => a.1 < b.1) (h : ∀ d ∈ m.entries, ∀ e ∈ l, d.1 < e.1) :
    (l.foldl (fun m e => m.tryEmplace e.1 e.2) m).entries = m.entries ++ l := by
  induction l generalizing m with
  | nil => simp
  | cons e rest ih =>
      have hrest := List.pairwise_cons.mp hl
      have hend : (m.tryEmplace e.1 e.2).entries = m.entries ++ [e] :=
        upsertEntry_of_forall_lt e.2 id fun d hd => h d hd e List.mem_cons_self
      rw [List.foldl_cons, ih _ hrest.2, hend, List.append_assoc, List.singleton_append]
      intro d hd f hf
      rw [hend, List.mem_append, List.mem_singleton] at hd
      rcases hd with hd | rfl
      · exact h d hd f (List.mem_cons_of_mem _ hf)
      · exact hrest.1 f hf

end SortedMap

end LuminalShine.Lib
