import Mathlib.Init

/-!
# Commands on a part of a state

A command `EStateM ε σ α` changes a state and may throw; what it has changed by then stays.

## Main definitions

* `Ref`, `on` — a part of a state, and a command on that part.
* `ending` — the state that a command leaves, whether it throws or not.
-/

namespace LuminalShine.Lib

variable {ε σ τ ν α β : Type}

/-! ## Parts of a state -/

/-- A reference to a part `τ` of a state `σ`. -/
structure Ref (σ τ : Type) where
  get : σ → τ
  set : τ → σ → σ

/-- Run a command on a part of a state, next to a component `ν` that it shares. -/
def on (r : Ref σ τ) (m : EStateM ε (ν × τ) Unit) : EStateM ε (ν × σ) Unit := fun s =>
  match m (s.1, r.get s.2) with
  | .ok a t => .ok a (t.1, r.set t.2 s.2)
  | .error e t => .error e (t.1, r.set t.2 s.2)

/-! ## What a command leaves -/

/-- The state that a command leaves, and whether it has thrown. -/
def ending (m : EStateM ε σ α) (s : σ) : σ × Bool :=
  match m s with
  | .ok _ t => (t, false)
  | .error _ t => (t, true)

theorem ending_bind_ok {m : EStateM ε σ α} {k : α → EStateM ε σ β} {s t : σ} {a : α}
    (h : m s = .ok a t) : ending (m >>= k) s = ending (k a) t := by
  change ending (EStateM.bind m k) s = _
  simp only [ending, EStateM.bind, h]

theorem ending_bind_error {m : EStateM ε σ α} {k : α → EStateM ε σ β} {s t : σ} {e : ε}
    (h : m s = .error e t) : ending (m >>= k) s = (t, true) := by
  change ending (EStateM.bind m k) s = _
  simp only [ending, EStateM.bind, h]

end LuminalShine.Lib
