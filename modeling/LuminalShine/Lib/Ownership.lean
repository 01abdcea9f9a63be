import Mathlib.Data.Finset.Erase
import Mathlib.Data.Finset.Insert
import Mathlib.Data.List.Nodup
import Mathlib.Logic.Function.Basic

/-!
# Ownership of identifiers

Holders take identifiers out of a pool and give them back at once, or hand them in for a
later release.  `Exact` says that the set of used identifiers is what is held or awaiting
its release and that nothing is held twice; each of the four operations keeps it.
-/

namespace LuminalShine.Lib

universe u v
variable {κ : Type u} {ι : Type v}

structure Pool (κ : Type u) (ι : Type v) where
  holds : κ → Option ι
  awaiting : List ι
  used : Finset ι

namespace Pool

/-- Every used identifier has one owner, a holder or the queue of releases. -/
structure Exact (p : Pool κ ι) : Prop where
  distinct : ∀ {a b i}, p.holds a = some i → p.holds b = some i → a = b
  nodup : p.awaiting.Nodup
  disjoint : ∀ {a i}, p.holds a = some i → i ∉ p.awaiting
  used : ∀ i, i ∈ p.used ↔ (∃ a, p.holds a = some i) ∨ i ∈ p.awaiting

theorem exact_empty : Exact (⟨fun _ => none, [], ∅⟩ : Pool κ ι) :=
  ⟨nofun, .nil, nofun, by simp⟩

section Updates

variable [DecidableEq κ] {a b : κ} {i j : ι}

theorem update_some_iff {f : κ → Option ι} :
    Function.update f a (some i) b = some j ↔ b = a ∧ j = i ∨ b ≠ a ∧ f b = some j := by
  by_cases h : b = a
  · subst h
    simp [eq_comm]
  · simp [h]

theorem update_none_iff {f : κ → Option ι} :
    Function.update f a none b = some j ↔ b ≠ a ∧ f b = some j := by
  by_cases h : b = a
  · subst h
    simp
  · simp [h]

end Updates

variable {p : Pool κ ι} {a : κ} {i : ι}

section Take

variable [DecidableEq κ] [DecidableEq ι]

def take (p : Pool κ ι) (a : κ) (i : ι) : Pool κ ι where
  holds := Function.update p.holds a (some i)
  awaiting := p.awaiting
  used := insert i p.used

def giveBack (p : Pool κ ι) (a : κ) (i : ι) : Pool κ ι where
  holds := Function.update p.holds a none
  awaiting := p.awaiting
  used := p.used.erase i

@[simp] theorem holds_take (p : Pool κ ι) (a : κ) (i : ι) :
    (p.take a i).holds = Function.update p.holds a (some i) := rfl

@[simp] theorem holds_giveBack (p : Pool κ ι) (a : κ) (i : ι) :
    (p.giveBack a i).holds = Function.update p.holds a none := rfl

theorem Exact.take (h : p.Exact) (hfree : i ∉ p.used) (hnone : p.holds a = none) :
    (p.take a i).Exact := by
  have hunheld : ∀ b, p.holds b ≠ some i :=
    fun b hb => hfree ((h.used i).mpr (Or.inl ⟨b, hb⟩))
  have hunawaited : i ∉ p.awaiting := fun hi => hfree ((h.used i).mpr (Or.inr hi))
  constructor
  · intro b c j hb hc
    rcases update_some_iff.mp hb with ⟨rfl, rfl⟩ | ⟨-, hb'⟩ <;>
      rcases update_some_iff.mp hc with ⟨hca, hji⟩ | ⟨-, hc'⟩
    · exact hca.symm
    · exact absurd hc' (hunheld c)
    · exact absurd (hji ▸ hb') (hunheld b)
    · exact h.distinct hb' hc'
  · exact h.nodup
  · intro b j hb
    rcases update_some_iff.mp hb with ⟨-, rfl⟩ | ⟨-, hb⟩
    · exact hunawaited
    · exact h.disjoint hb
  · intro j
    simp only [Pool.take, Finset.mem_insert, h.used, update_some_iff]
    constructor
    · rintro (rfl | ⟨b, hb⟩ | hj)
      · exact Or.inl ⟨a, Or.inl ⟨rfl, rfl⟩⟩
      · refine Or.inl ⟨b, Or.inr ⟨?_, hb⟩⟩
        rintro rfl
        rw [hnone] at hb
        cases hb
      · exact Or.inr hj
    · rintro (⟨b, ⟨-, rfl⟩ | ⟨-, hb⟩⟩ | hj)
      · exact Or.inl rfl
      · exact Or.inr (Or.inl ⟨b, hb⟩)
      · exact Or.inr (Or.inr hj)

theorem Exact.giveBack (h : p.Exact) (hheld : p.holds a = some i) : (p.giveBack a i).Exact := by
  constructor
  · intro b c j hb hc
    exact h.distinct (update_none_iff.mp hb).2 (update_none_iff.mp hc).2
  · exact h.nodup
  · exact fun hb => h.disjoint (update_none_iff.mp hb).2
  · intro j
    simp only [Pool.giveBack, Finset.mem_erase, h.used, update_none_iff]
    constructor
    · rintro ⟨hne, ⟨b, hb⟩ | hj⟩
      · refine Or.inl ⟨b, ?_, hb⟩
        rintro rfl
        exact hne (Option.some.inj (hb.symm.trans hheld))
      · exact Or.inr hj
    · rintro (⟨b, hne, hb⟩ | hj)
      · refine ⟨?_, Or.inl ⟨b, hb⟩⟩
        rintro rfl
        exact hne (h.distinct hb hheld)
      · refine ⟨?_, Or.inr hj⟩
        rintro rfl
        exact h.disjoint hheld hj

end Take

section HandIn

variable [DecidableEq κ]

def handIn (p : Pool κ ι) (a : κ) (i : ι) : Pool κ ι where
  holds := Function.update p.holds a none
  awaiting := p.awaiting ++ [i]
  used := p.used

@[simp] theorem holds_handIn (p : Pool κ ι) (a : κ) (i : ι) :
    (p.handIn a i).holds = Function.update p.holds a none := rfl

theorem Exact.handIn (h : p.Exact) (hheld : p.holds a = some i) : (p.handIn a i).Exact := by
  constructor
  · intro b c j hb hc
    exact h.distinct (update_none_iff.mp hb).2 (update_none_iff.mp hc).2
  · simpa [Pool.handIn, List.nodup_append] using
      ⟨h.nodup, fun j hj hji => h.disjoint hheld (hji ▸ hj)⟩
  · intro b j hb
    obtain ⟨hne, hb'⟩ := update_none_iff.mp hb
    simp only [Pool.handIn, List.mem_append, List.mem_singleton, not_or]
    refine ⟨h.disjoint hb', ?_⟩
    rintro rfl
    exact hne (h.distinct hb' hheld)
  · intro j
    simp only [Pool.handIn, List.mem_append, List.mem_singleton, h.used, update_none_iff]
    constructor
    · rintro (⟨b, hb⟩ | hj)
      · by_cases hba : b = a
        · subst hba
          exact Or.inr (Or.inr (Option.some.inj (hb.symm.trans hheld)))
        · exact Or.inl ⟨b, hba, hb⟩
      · exact Or.inr (Or.inl hj)
    · rintro (⟨b, -, hb⟩ | hj | rfl)
      · exact Or.inl ⟨b, hb⟩
      · exact Or.inr hj
      · exact Or.inl ⟨a, hheld⟩

end HandIn

section Release

variable [DecidableEq ι]

def release (p : Pool κ ι) (i : ι) : Pool κ ι where
  holds := p.holds
  awaiting := p.awaiting.erase i
  used := p.used.erase i

theorem Exact.release (h : p.Exact) (hi : i ∈ p.awaiting) : (p.release i).Exact := by
  constructor
  · exact h.distinct
  · exact h.nodup.erase i
  · exact fun hb hj => h.disjoint hb (List.mem_of_mem_erase hj)
  · intro j
    simp only [Pool.release, Finset.mem_erase, h.used, h.nodup.mem_erase_iff]
    constructor
    · rintro ⟨hne, hheld | hj⟩
      · exact Or.inl hheld
      · exact Or.inr ⟨hne, hj⟩
    · rintro (⟨b, hb⟩ | ⟨hne, hj⟩)
      · refine ⟨?_, Or.inl ⟨b, hb⟩⟩
        rintro rfl
        exact h.disjoint hb hi
      · exact ⟨hne, Or.inr hj⟩

end Release

end Pool

end LuminalShine.Lib
