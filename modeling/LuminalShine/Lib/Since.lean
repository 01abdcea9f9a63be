import Mathlib.Data.List.Basic

/-!
# Since

A monitor that keeps the time of a first piece of evidence claims something about the
past: every observation from that one on bore the evidence out.  Histories are lists
with the newest observation first; `Since first p` says that a `first` observation lies
in the past and that it and all newer ones satisfy `p`.

The two rules are the two things a monitor does with such a clock: start it and let it
run.
-/

namespace LuminalShine.Lib

universe u
variable {α : Type u} {first p : α → Prop}

/-- Some past observation is a `first` one, and from it on every one satisfies `p`. -/
def Since (first p : α → Prop) (history : List α) : Prop :=
  ∃ recent a older, history = recent ++ a :: older ∧ first a ∧ ∀ x ∈ recent ++ [a], p x

/-- The newest observation satisfies `p`, and it is the first or the clock ran before. -/
theorem since_cons {a : α} {history : List α} :
    Since first p (a :: history) ↔ p a ∧ (first a ∨ Since first p history) := by
  constructor
  · rintro ⟨recent, b, older, heq, hfirst, hall⟩
    cases recent with
    | nil =>
        cases heq
        exact ⟨hall a List.mem_cons_self, .inl hfirst⟩
    | cons c recent =>
        cases heq
        refine ⟨hall a List.mem_cons_self, .inr ⟨recent, b, older, rfl, hfirst, ?_⟩⟩
        exact fun x hx => hall x (List.mem_cons_of_mem a hx)
  · rintro ⟨ha, hfirst | ⟨recent, b, older, rfl, hfirst, hall⟩⟩
    · exact ⟨[], a, history, rfl, hfirst, by simpa using ha⟩
    · refine ⟨a :: recent, b, older, rfl, hfirst, ?_⟩
      intro x hx
      rcases List.mem_cons.mp hx with rfl | hx
      · exact ha
      · exact hall x hx

/-- The clock starts with the newest observation. -/
theorem Since.start {a : α} {history : List α} (hfirst : first a) (ha : p a) :
    Since first p (a :: history) :=
  since_cons.mpr ⟨ha, .inl hfirst⟩

/-- The clock runs on. -/
theorem Since.continue {a : α} {history : List α} (h : Since first p history) (ha : p a) :
    Since first p (a :: history) :=
  since_cons.mpr ⟨ha, .inr h⟩

end LuminalShine.Lib
