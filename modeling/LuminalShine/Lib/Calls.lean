import LuminalShine.Lib.Run

/-!
# Programs that call their surroundings

A program asks its surroundings for one call after the other and continues with the answers.
A call may fail, others may interfere between two calls, and the program may be cut off at any
point.  `Triple` is the rule of pre- and postconditions for such programs: besides the
postcondition, every call that is allowed keeps an invariant and a relation between what was
before it and after it, whatever its outcome.

## Main definitions

* `Prog` — programs, as trees of calls.
* `Surroundings` — what the calls do, how others interfere, which outcomes are allowed, and
  what every call keeps.
* `Upholds`, `Triple` — programs that keep the invariant and end in a postcondition.
* `Prog.complete` — the run in which every call has the same outcome and nobody interferes.
-/

namespace LuminalShine.Lib.Calls

universe u v w x
variable {κ : Type u} {ρ : κ → Type v} {σ : Type x} {ω : Type} {α β : Type w}

/-! ## Programs -/

/-- The answer to the call `c` has type `ρ c`. -/
inductive Prog (κ : Type u) (ρ : κ → Type v) (α : Type w) where
  | done (a : α)
  | call (c : κ) (next : ρ c → Prog κ ρ α)

namespace Prog

def bind : Prog κ ρ α → (α → Prog κ ρ β) → Prog κ ρ β
  | .done a, f => f a
  | .call c next, f => .call c fun answer => (next answer).bind f

instance : Monad (Prog κ ρ) where
  pure := .done
  bind := bind

def ask (c : κ) : Prog κ ρ (ρ c) := .call c .done

/-- Every call has the outcome `o`. -/
def complete (perform : σ → (c : κ) → ω → σ × ρ c) (o : ω) : Prog κ ρ α → σ → σ × α
  | .done a, s => (s, a)
  | .call c next, s => (next (perform s c o).2).complete perform o (perform s c o).1

section
variable {perform : σ → (c : κ) → ω → σ × ρ c} {o : ω}

@[simp] theorem complete_pure (a : α) (s : σ) :
    (pure a : Prog κ ρ α).complete perform o s = (s, a) := rfl

@[simp] theorem complete_ask (c : κ) (s : σ) :
    (ask c : Prog κ ρ (ρ c)).complete perform o s = perform s c o := rfl

@[simp] theorem complete_bind (p : Prog κ ρ α) (f : α → Prog κ ρ β) (s : σ) :
    (p >>= f).complete perform o s =
      (f (p.complete perform o s).2).complete perform o (p.complete perform o s).1 := by
  induction p generalizing s with
  | done a => rfl
  | call c next ih => exact ih _ _

end

end Prog

/-! ## Surroundings -/

/-- `interferes s t` says that others can turn `s` into `t` between two calls, `guarantees s t`
that a call of the program may. -/
structure Surroundings (κ : Type u) (ρ : κ → Type v) (σ : Type x) (ω : Type) where
  perform : σ → (c : κ) → ω → σ × ρ c
  interferes : σ → σ → Prop
  allowed : σ → κ → ω → Prop
  inv : σ → Prop
  guarantees : σ → σ → Prop
  refl : ∀ s, interferes s s
  trans : ∀ s t r, interferes s t → interferes t r → interferes s r
  inv_of_interferes : ∀ s t, inv s → interferes s t → inv t

namespace Surroundings

variable (E : Surroundings κ ρ σ ω)

/-- From `s` the program keeps the invariant and ends in `Q`. -/
def Upholds (Q : α → σ → Prop) : Prog κ ρ α → σ → Prop
  | .done a, s => ∀ t, E.interferes s t → Q a t
  | .call c next, s => ∀ t, E.interferes s t → ∀ o, E.allowed t c o →
      E.inv (E.perform t c o).1 ∧ E.guarantees t (E.perform t c o).1 ∧
        Upholds Q (next (E.perform t c o).2) (E.perform t c o).1

/-- What is not undone by others. -/
def Stable (P : σ → Prop) : Prop := ∀ s t, E.inv s → P s → E.interferes s t → P t

def Triple (P : σ → Prop) (p : Prog κ ρ α) (Q : α → σ → Prop) : Prop :=
  ∀ s, E.inv s → P s → E.Upholds Q p s

variable {E} {P P' : σ → Prop} {Q Q' : α → σ → Prop} {R : β → σ → Prop}

theorem Upholds.interferes {p : Prog κ ρ α} {s t : σ} (h : E.Upholds Q p s)
    (hst : E.interferes s t) : E.Upholds Q p t := by
  cases p with
  | done a => exact fun r hr => h r (E.trans s t r hst hr)
  | call c next => exact fun r hr => h r (E.trans s t r hst hr)

/-- One call of a program that is under way. -/
theorem Upholds.call {c : κ} {next : ρ c → Prog κ ρ α} {s : σ} {o : ω}
    (h : E.Upholds Q (.call c next) s) (ho : E.allowed s c o) :
    E.inv (E.perform s c o).1 ∧ E.guarantees s (E.perform s c o).1 ∧
      E.Upholds Q (next (E.perform s c o).2) (E.perform s c o).1 :=
  h s (E.refl s) o ho

theorem Upholds.mono {p : Prog κ ρ α} {s : σ} (hs : E.inv s) (h : E.Upholds Q p s)
    (hQ : ∀ a t, E.inv t → Q a t → Q' a t) : E.Upholds Q' p s := by
  induction p generalizing s with
  | done a => exact fun t ht => hQ a t (E.inv_of_interferes s t hs ht) (h t ht)
  | call c next ih =>
      intro t ht o ho
      have hcall := h t ht o ho
      exact ⟨hcall.1, hcall.2.1, ih _ hcall.1 hcall.2.2⟩

theorem Upholds.bind {p : Prog κ ρ α} {f : α → Prog κ ρ β} {s : σ} (hs : E.inv s)
    (h : E.Upholds Q p s) (hf : ∀ a t, E.inv t → Q a t → E.Upholds R (f a) t) :
    E.Upholds R (p >>= f) s := by
  induction p generalizing s with
  | done a => exact hf a s hs (h s (E.refl s))
  | call c next ih =>
      intro t ht o ho
      have hcall := h t ht o ho
      exact ⟨hcall.1, hcall.2.1, ih _ hcall.1 hcall.2.2⟩

/-! ### The rules -/

theorem Triple.mono {p : Prog κ ρ α} (h : E.Triple P p Q) (hP : ∀ s, E.inv s → P' s → P s)
    (hQ : ∀ a s, E.inv s → Q a s → Q' a s) : E.Triple P' p Q' :=
  fun s hs hpre => (h s hs (hP s hs hpre)).mono hs hQ

theorem Triple.bind {p : Prog κ ρ α} {f : α → Prog κ ρ β} (h : E.Triple P p Q)
    (hf : ∀ a, E.Triple (Q a) (f a) R) : E.Triple P (p >>= f) R :=
  fun s hs hpre => (h s hs hpre).bind hs fun a t ht hQ => hf a t ht hQ

theorem Triple.exists {γ : Type w} {P : γ → σ → Prop} {p : Prog κ ρ α}
    (h : ∀ x, E.Triple (P x) p Q) : E.Triple (fun s => ∃ x, P x s) p Q :=
  fun s hs ⟨x, hx⟩ => h x s hs hx

theorem Triple.pure {a : α} (hstable : E.Stable P) (h : ∀ s, E.inv s → P s → Q a s) :
    E.Triple P (Pure.pure a) Q :=
  fun s hs hpre t ht => h t (E.inv_of_interferes s t hs ht) (hstable s t hs hpre ht)

theorem Triple.ask {c : κ} {Q : ρ c → σ → Prop} (hP : E.Stable P) (hQ : ∀ a, E.Stable (Q a))
    (h : ∀ s o, E.inv s → P s → E.allowed s c o →
      E.inv (E.perform s c o).1 ∧ E.guarantees s (E.perform s c o).1 ∧
        Q (E.perform s c o).2 (E.perform s c o).1) :
    E.Triple P (Prog.ask c) Q := by
  intro s hs hpre t ht o ho
  have ht' := E.inv_of_interferes s t hs ht
  have hcall := h t o ht' (hP s t hs hpre ht) ho
  exact ⟨hcall.1, hcall.2.1, fun r hr => hQ _ _ r hcall.1 hcall.2.2 hr⟩

theorem Triple.ifProp {p q : Prog κ ρ α} {c : Prop} [Decidable c] (hp : c → E.Triple P p Q)
    (hq : ¬ c → E.Triple P q Q) : E.Triple P (if c then p else q) Q := by
  by_cases hc : c
  · rw [if_pos hc]
    exact hp hc
  · rw [if_neg hc]
    exact hq hc

theorem Triple.ite {p q : Prog κ ρ α} {b : Bool} (hp : b = true → E.Triple P p Q)
    (hq : b = false → E.Triple P q Q) : E.Triple P (if b = true then p else q) Q := by
  cases b with
  | false => exact hq rfl
  | true => exact hp rfl

end Surroundings

end LuminalShine.Lib.Calls
