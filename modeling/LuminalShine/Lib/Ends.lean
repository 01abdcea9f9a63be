import Mathlib.Logic.Basic

/-!
# Programs that raise and keep their state

A program of `EStateM` that raises leaves the state as it was at that moment.  A specification
gives the exact condition under which a program comes to its end, and what holds there.

## Main definitions

* `Ends x s p q` — from `s` the program ends exactly when `p` holds, and then with `q`.
* `Leaves x s q e` — from `s` the program ends with `q` or raises with `e`.
* `Ends.pure`, `Ends.bind`, `Ends.ite`, `Ends.mono`, `Leaves.bind` — the rules.
-/

namespace LuminalShine.Lib

universe u
variable {ε σ α β : Type u}

section Run

variable {x : EStateM ε σ α} {f : α → EStateM ε σ β} {s s' : σ}

theorem run_bind_of_ok {a : α} (hrun : x.run s = .ok a s') : (x >>= f).run s = (f a).run s' := by
  simp only [EStateM.run] at hrun
  simp [EStateM.run, Bind.bind, EStateM.bind, hrun]

theorem run_bind_of_error {e : ε} (hrun : x.run s = .error e s') :
    (x >>= f).run s = .error e s' := by
  simp only [EStateM.run] at hrun
  simp [EStateM.run, Bind.bind, EStateM.bind, hrun]

end Run

def Ends (x : EStateM ε σ α) (s : σ) (p : Prop) (q : α → σ → Prop) : Prop :=
  match x.run s with
  | .ok a s' => p ∧ q a s'
  | .error _ _ => ¬p

namespace Ends

variable {x : EStateM ε σ α} {f : α → EStateM ε σ β} {s : σ} {p p' : Prop} {q : α → σ → Prop}
  {q' : β → σ → Prop}

theorem of_ok {a : α} {s' : σ} (hrun : x.run s = .ok a s') (hp : p) (hq : q a s') :
    Ends x s p q := by
  simp [Ends, hrun, hp, hq]

theorem pure_of {a : α} (hp : p) (hq : q a s) : Ends (pure a : EStateM ε σ α) s p q :=
  of_ok rfl hp hq

theorem pure (a : α) (hq : q a s) : Ends (pure a : EStateM ε σ α) s True q :=
  pure_of trivial hq

theorem throw_of {e : ε} (hp : ¬p) : Ends (throw e : EStateM ε σ α) s p q := hp

theorem throw (e : ε) : Ends (throw e : EStateM ε σ α) s False q :=
  throw_of not_false

theorem get (s : σ) : Ends (get : EStateM ε σ σ) s True fun a s' => s' = s ∧ a = s :=
  of_ok rfl trivial ⟨rfl, rfl⟩

theorem set (s s' : σ) : Ends (set s' : EStateM ε σ PUnit) s True fun _ t => t = s' :=
  of_ok rfl trivial rfl

theorem modify (g : σ → σ) (s : σ) :
    Ends (modify g : EStateM ε σ PUnit) s True fun _ t => t = g s :=
  of_ok rfl trivial rfl

/-- What the second part needs may be known from what the first part ends with. -/
theorem bind (hx : Ends x s p q) (hf : p → ∀ a s', q a s' → Ends (f a) s' p' q') :
    Ends (x >>= f) s (p ∧ p') q' := by
  cases hrun : x.run s with
  | ok a s' =>
      have hq : p ∧ q a s' := by simpa [Ends, hrun] using hx
      simpa [Ends, run_bind_of_ok hrun, hq.1] using hf hq.1 a s' hq.2
  | error e s' =>
      have hp : ¬p := by simpa [Ends, hrun] using hx
      simp [Ends, run_bind_of_error hrun, hp]

/-- Nothing is done behind a first part that raises. -/
theorem bind_raises (hx : Ends x s False q) : Ends (x >>= f) s False q' := by
  have hf : False → ∀ a s', q a s' → Ends (f a) s' False q' := fun h => h.elim
  simpa [Ends] using hx.bind hf

/-- A first part that only looks. -/
theorem read {v : α} (hx : Ends x s p fun a s' => s' = s ∧ a = v)
    (hf : p → Ends (f v) s p' q') : Ends (x >>= f) s (p ∧ p') q' := by
  refine hx.bind fun hp a s' h => ?_
  rw [h.1, h.2]
  exact hf hp

/-- A first part that ends in a known state. -/
theorem andThen {s' : σ} (hx : Ends x s p fun _ t => t = s') (hf : p → ∀ a, Ends (f a) s' p' q') :
    Ends (x >>= f) s (p ∧ p') q' :=
  hx.bind fun hp a _ h => h ▸ hf hp a

theorem mono {r : α → σ → Prop} (hx : Ends x s p q) (hp : p ↔ p') (hq : ∀ a s', q a s' → r a s') :
    Ends x s p' r := by
  cases hrun : x.run s with
  | ok a s' =>
      have h : p ∧ q a s' := by simpa [Ends, hrun] using hx
      simp [Ends, hrun, hp.mp h.1, hq a s' h.2]
  | error e s' =>
      have h : ¬p := by simpa [Ends, hrun] using hx
      simp [Ends, hrun, ← hp, h]

theorem congr (hx : Ends x s p q) (hp : p ↔ p') : Ends x s p' q :=
  hx.mono hp fun _ _ hq => hq

theorem ite {c : Prop} [Decidable c] {y : EStateM ε σ α} (hx : c → Ends x s p q)
    (hy : ¬c → Ends y s p' q) : Ends (if c then x else y) s (if c then p else p') q := by
  split
  · exact hx ‹_›
  · exact hy ‹_›

theorem either {c : Prop} [Decidable c] {y : EStateM ε σ α} (hx : Ends x s p q)
    (hy : Ends y s p q) : Ends (if c then x else y) s p q := by
  split
  · exact hx
  · exact hy

/-- Whether it has raised, and what holds if it has not. -/
theorem ok_iff (hx : Ends x s p q) : (∃ a s', x.run s = .ok a s') ↔ p := by
  cases hrun : x.run s with
  | ok a s' =>
      have h : p ∧ q a s' := by simpa [Ends, hrun] using hx
      simp [h.1]
  | error e s' =>
      have h : ¬p := by simpa [Ends, hrun] using hx
      simp [h]

theorem of_run {a : α} {s' : σ} (hx : Ends x s p q) (hrun : x.run s = .ok a s') : q a s' := by
  have h : p ∧ q a s' := by simpa [Ends, hrun] using hx
  exact h.2

end Ends

def Leaves (x : EStateM ε σ α) (s : σ) (q : α → σ → Prop) (e : σ → Prop) : Prop :=
  match x.run s with
  | .ok a s' => q a s'
  | .error _ s' => e s'

namespace Leaves

variable {x : EStateM ε σ α} {f : α → EStateM ε σ β} {s : σ} {q r : α → σ → Prop}
  {q' : β → σ → Prop} {e e' : σ → Prop}

theorem pure (a : α) (hq : q a s) : Leaves (pure a : EStateM ε σ α) s q e := hq

theorem throw (a : ε) (he : e s) : Leaves (throw a : EStateM ε σ α) s q e := he

theorem bind (hx : Leaves x s q e) (hf : ∀ a s', q a s' → Leaves (f a) s' q' e) :
    Leaves (x >>= f) s q' e := by
  cases hrun : x.run s with
  | ok a s' =>
      have hq : q a s' := by simpa [Leaves, hrun] using hx
      simpa [Leaves, run_bind_of_ok hrun] using hf a s' hq
  | error a s' =>
      have he : e s' := by simpa [Leaves, hrun] using hx
      simpa [Leaves, run_bind_of_error hrun] using he

theorem mono (hx : Leaves x s q e) (hq : ∀ a s', q a s' → r a s') (he : ∀ s', e s' → e' s') :
    Leaves x s r e' := by
  cases hrun : x.run s <;> simp only [Leaves, hrun] at hx ⊢
  · exact hq _ _ hx
  · exact he _ hx

end Leaves

end LuminalShine.Lib
