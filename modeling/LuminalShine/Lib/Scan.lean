import Mathlib.Data.List.Basic
import Mathlib.Data.Nat.Notation

/-!
# Scans over a text

A cursor is what is left of a text.  A scan that goes wrong, by a read behind the end or by
a loop that does not come to its end, is told apart from one that refuses the text: a fault
is neither a result nor a refusal.

## Main definitions

* `Fault`, `read` — a read behind the end is a fault.
* `Leaves n` — a scan that refuses the text or leaves at most `n` entries of it.
* `skipWhile` — a loop with fuel that drops entries as long as a condition on what is left
  holds; with more fuel than there are entries it is `dropTails`, see `skipWhile_eq`.
-/

namespace LuminalShine.Lib.Scan

variable {α β : Type}

/-- What a scan does when it neither succeeds nor refuses. -/
inductive Fault
  | outOfBounds
  | outOfFuel
  deriving DecidableEq, Repr

@[simp] theorem ok_bind (a : α) (f : α → Except Fault β) : (Except.ok a >>= f) = f a := rfl

theorem bind_eq_ok {x : Except Fault α} {f : α → Except Fault β} {b : β} :
    (x >>= f) = .ok b ↔ ∃ a, x = .ok a ∧ f a = .ok b := by
  cases x with
  | error fault =>
    constructor
    · intro h
      cases h
    · rintro ⟨a, ha, -⟩
      cases ha
  | ok a =>
    constructor
    · intro h
      exact ⟨a, rfl, h⟩
    · rintro ⟨a', ha, h⟩
      cases ha
      exact h

/-- Entry `i` of what is left. -/
def read (rest : List α) (i : ℕ) : Except Fault α :=
  match rest[i]? with
  | some a => .ok a
  | none => .error .outOfBounds

@[simp] theorem read_zero (a : α) (c : List α) : read (a :: c) 0 = .ok a := rfl

@[simp] theorem read_succ (a : α) (c : List α) (i : ℕ) : read (a :: c) (i + 1) = read c i := rfl

/-- The text is refused, or read up to a cursor with at most `n` entries. -/
def Leaves (n : ℕ) (x : Except Fault (Option (β × List α))) : Prop :=
  x = .ok none ∨ ∃ b c, x = .ok (some (b, c)) ∧ c.length ≤ n

theorem Leaves.mono {x : Except Fault (Option (β × List α))} {m n : ℕ} (hle : m ≤ n)
    (h : Leaves m x) : Leaves n x := by
  rcases h with hnone | ⟨b, c, hsome, hc⟩
  · exact .inl hnone
  · exact .inr ⟨b, c, hsome, Nat.le_trans hc hle⟩

theorem Leaves.none (n : ℕ) : Leaves n (.ok none : Except Fault (Option (β × List α))) :=
  .inl rfl

theorem Leaves.some {n : ℕ} (b : β) {c : List α} (hc : c.length ≤ n) :
    Leaves n (.ok (some (b, c))) :=
  .inr ⟨b, c, rfl, hc⟩

/-- `while (!eof && p) next`. -/
def skipWhile (p : List α → Except Fault Bool) : ℕ → List α → Except Fault (List α)
  | 0, _ => .error .outOfFuel
  | fuel + 1, c =>
    if c.isEmpty then .ok c else do
      if ← p c then skipWhile p fuel (c.drop 1) else .ok c

/-- Entries are dropped as long as `q` holds of what is left. -/
def dropTails (q : List α → Bool) : List α → List α
  | [] => []
  | a :: c => if q (a :: c) then dropTails q c else a :: c

theorem length_dropTails_le (q : List α → Bool) (c : List α) :
    (dropTails q c).length ≤ c.length := by
  induction c with
  | nil => simp [dropTails]
  | cons a c ih =>
    simp only [dropTails]
    split
    · simp only [List.length_cons]
      omega
    · exact Nat.le_refl _

theorem length_dropTails_lt {q : List α → Bool} {a : α} {c : List α} (h : q (a :: c) = true) :
    (dropTails q (a :: c)).length < (a :: c).length := by
  rw [dropTails, if_pos h, List.length_cons]
  exact Nat.lt_succ_of_le (length_dropTails_le q c)

/-- With more fuel than there are entries the loop comes to its end. -/
theorem skipWhile_eq {p : List α → Except Fault Bool} {q : List α → Bool}
    (hp : ∀ a c, p (a :: c) = .ok (q (a :: c))) {fuel : ℕ} {c : List α}
    (hfuel : c.length < fuel) : skipWhile p fuel c = .ok (dropTails q c) := by
  induction fuel generalizing c with
  | zero => omega
  | succ fuel ih =>
    cases c with
    | nil => rfl
    | cons a c =>
      rw [List.length_cons] at hfuel
      simp only [skipWhile, List.isEmpty_cons, Bool.false_eq_true, if_false, hp, ok_bind,
        dropTails, List.drop_succ_cons, List.drop_zero]
      split
      · exact ih (by omega)
      · rfl

/-- What the condition holds of is dropped, up to the first entry where it does not. -/
theorem dropTails_append {q : List α → Bool} {front c : List α}
    (hfront : ∀ a ∈ front, ∀ tail, q (a :: tail) = true) (hc : dropTails q c = c) :
    dropTails q (front ++ c) = c := by
  induction front with
  | nil => exact hc
  | cons a front ih =>
    rw [List.cons_append, dropTails, if_pos (hfront a List.mem_cons_self _)]
    exact ih fun b hb => hfront b (List.mem_cons_of_mem a hb)

end LuminalShine.Lib.Scan
