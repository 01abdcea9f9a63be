import Mathlib.Data.List.Basic
import Mathlib.Data.Setoid.Basic

/-!
# Computations that only look

A computation over a state may raise.  It is steady if what it returns depends on the state up
to an equivalence only, it leaves an equivalent state, and whether it raises does not depend on
the state at all.

## Main definitions

* `Steady r m p value` — `m` returns `value` of the state if `p` holds, and raises if not.
* `Steady.pure`, `Steady.bind`, `Steady.raises` — the rules.
-/

namespace LuminalShine.Lib

universe u
variable {σ : Type u} (r : Setoid σ) {α β : Type u}

structure Steady (m : StateT σ Option α) (p : Prop) (value : σ → α) : Prop where
  returns : p → ∀ s, ∃ s', m.run s = some (value s, s') ∧ r s s'
  raises : ¬p → ∀ s, m.run s = none
  congr : ∀ s s', r s s' → value s = value s'

namespace Steady

variable {r} {m : StateT σ Option α} {f : α → StateT σ Option β} {p q : Prop} {value : σ → α}

theorem pure (a : α) : Steady r (pure a : StateT σ Option α) True fun _ => a where
  returns _ s := ⟨s, rfl, r.refl s⟩
  raises h := absurd trivial h
  congr _ _ _ := rfl

theorem failure (value : α) : Steady r (failure : StateT σ Option α) False fun _ => value where
  returns h := h.elim
  raises _ _ := rfl
  congr _ _ _ := rfl

theorem bind {value' : α → σ → β} (hm : Steady r m p value)
    (hf : ∀ a, Steady r (f a) q (value' a)) :
    Steady r (m >>= f) (p ∧ q) fun s => value' (value s) s where
  returns h s := by
    obtain ⟨s', hrun, hs⟩ := hm.returns h.1 s
    obtain ⟨s'', hrun', hs'⟩ := (hf (value s)).returns h.2 s'
    refine ⟨s'', ?_, r.trans hs hs'⟩
    rw [StateT.run_bind, hrun, (hf (value s)).congr s s' hs]
    exact hrun'
  raises h s := by
    rw [StateT.run_bind]
    by_cases hp : p
    · obtain ⟨s', hrun, -⟩ := hm.returns hp s
      rw [hrun]
      exact (hf (value s)).raises (fun hq => h ⟨hp, hq⟩) s'
    · rw [hm.raises hp s]
      rfl
  congr s s' hs := by
    rw [hm.congr s s' hs]
    exact (hf (value s')).congr s s' hs

theorem congr_prop (h : Steady r m p value) (hpq : p ↔ q) : Steady r m q value := by
  rw [← propext hpq]
  exact h

/-- The value can be had by running it. -/
theorem of_run (default : α) (h : Steady r m p value) :
    Steady r m p fun s => ((m.run s).map Prod.fst).getD default where
  returns hp s := by
    obtain ⟨s', hrun, hs⟩ := h.returns hp s
    exact ⟨s', by simp [hrun], hs⟩
  raises := h.raises
  congr s s' hs := by
    by_cases hp : p
    · obtain ⟨t, hrun, -⟩ := h.returns hp s
      obtain ⟨t', hrun', -⟩ := h.returns hp s'
      simp [hrun, hrun', h.congr s s' hs]
    · simp [h.raises hp]

/-- It raises or not, whatever the state. -/
theorem isSome_iff (h : Steady r m p value) (s : σ) : (m.run s).isSome = true ↔ p := by
  by_cases hp : p
  · obtain ⟨s', hrun, -⟩ := h.returns hp s
    simp [hrun, hp]
  · simp [h.raises hp s, hp]

/-- What it returns and leaves when it does not raise. -/
theorem eq_of_run (h : Steady r m p value) {s s' : σ} {a : α} (hrun : m.run s = some (a, s')) :
    a = value s ∧ r s s' := by
  by_cases hp : p
  · obtain ⟨t, ht, hs⟩ := h.returns hp s
    rw [ht] at hrun
    obtain ⟨rfl, rfl⟩ := Prod.mk.inj (Option.some.inj hrun)
    exact ⟨rfl, hs⟩
  · simp [h.raises hp s] at hrun

end Steady

end LuminalShine.Lib
