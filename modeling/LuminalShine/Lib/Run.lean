import Mathlib.Data.List.Basic

/-!
# Runs of a partial step function

A stateful component is modelled by a step function `σ → ι → Option σ`: a label
names what happens, and `none` says that the label is not enabled in that state.
This module supplies the one notion of execution every component shares, with
the two induction rules its invariants go through.

Safety of an unrestricted system is `run_invariant`.  A system that is safe only
while its environment behaves is `run_invariant_of_meets`: the hypothesis
`RunMeets guard` states, step by step, in which states each label was taken.

## Main definitions

* `run step s is` — execute the labels `is` from `s`, in order.
* `RunMeets step guard s is` — every step of that run satisfies `guard`; decidable when
  `guard` is.
* `Always step P s is` — the property holds all along the run.
* `run_invariant`, `run_invariant_of_meets`, `run_iff_of_step`, `always_iff_runMeets` — the
  induction rules.
-/

namespace LuminalShine.Lib

universe u v
variable {σ : Type u} {ι : Type v} {step : σ → ι → Option σ}

/-- A guarded step that is taken meets its guard. -/
theorem guarded_eq_some {p : Prop} [Decidable p] {a b : σ} :
    (if p then some a else none) = some b ↔ p ∧ a = b := by
  split <;> simp [*]

/-- Execute the labels in order; a refused label refuses the whole run. -/
def run (step : σ → ι → Option σ) (s : σ) : List ι → Option σ
  | [] => some s
  | i :: is => (step s i).bind fun s' => run step s' is

@[simp] theorem run_nil (s : σ) : run step s [] = some s := rfl

theorem run_cons (s : σ) (i : ι) (is : List ι) :
    run step s (i :: is) = (step s i).bind fun s' => run step s' is := rfl

/-- A completed run splits at its first label. -/
theorem run_cons_eq_some {s t : σ} {i : ι} {is : List ι} :
    run step s (i :: is) = some t ↔ ∃ s', step s i = some s' ∧ run step s' is = some t := by
  rw [run_cons, Option.bind_eq_some_iff]

/-- Where every label is enabled, every run completes. -/
theorem exists_run (h : ∀ s i, ∃ s', step s i = some s') (s : σ) (is : List ι) :
    ∃ t, run step s is = some t := by
  induction is generalizing s with
  | nil => exact ⟨s, rfl⟩
  | cons i is ih =>
      obtain ⟨s', hs'⟩ := h s i
      obtain ⟨t, ht⟩ := ih s'
      exact ⟨t, run_cons_eq_some.mpr ⟨s', hs', ht⟩⟩

/-- **The invariant rule.**  What holds initially and survives every step holds
after every run. -/
theorem run_invariant {P : σ → Prop}
    (hstep : ∀ s i s', P s → step s i = some s' → P s') {s t : σ} {is : List ι}
    (hs : P s) (hrun : run step s is = some t) : P t := by
  induction is generalizing s with
  | nil =>
      rw [run_nil, Option.some.injEq] at hrun
      exact hrun ▸ hs
  | cons i is ih =>
      obtain ⟨s', hs', hrest⟩ := run_cons_eq_some.mp hrun
      exact ih (hstep s i s' hs hs') hrest

/-- Every step of the run is taken in a state where `guard` allows its label. -/
def RunMeets (step : σ → ι → Option σ) (guard : σ → ι → Prop) (s : σ) : List ι → Prop
  | [] => True
  | i :: is => guard s i ∧ ∀ s', step s i = some s' → RunMeets step guard s' is

section Meets

variable {guard : σ → ι → Prop}

theorem runMeets_cons_of_eq_none {s : σ} {i : ι} {is : List ι} (h : step s i = none) :
    RunMeets step guard s (i :: is) ↔ guard s i := by
  simp [RunMeets, h]

theorem runMeets_cons_of_eq_some {s s' : σ} {i : ι} {is : List ι} (h : step s i = some s') :
    RunMeets step guard s (i :: is) ↔ guard s i ∧ RunMeets step guard s' is := by
  simp [RunMeets, h]

/-- A condition on the labels alone is met by every run of such labels. -/
theorem runMeets_of_forall_mem {is : List ι} (h : ∀ i ∈ is, ∀ s, guard s i) (s : σ) :
    RunMeets step guard s is := by
  induction is generalizing s with
  | nil => trivial
  | cons i is ih =>
      exact ⟨h i List.mem_cons_self s,
        fun s' _ => ih (fun j hj => h j (List.mem_cons_of_mem _ hj)) s'⟩

/-- Conditions that agree at every step agree on every run. -/
theorem runMeets_congr {guard' : σ → ι → Prop} (h : ∀ s i, guard s i ↔ guard' s i) (s : σ)
    (is : List ι) : RunMeets step guard s is ↔ RunMeets step guard' s is := by
  induction is generalizing s with
  | nil => rfl
  | cons i is ih => simp only [RunMeets, h, ih]

/-- Whether a run meets its condition is computed by taking the steps. -/
instance decidableRunMeets [∀ s i, Decidable (guard s i)] :
    ∀ (s : σ) (is : List ι), Decidable (RunMeets step guard s is)
  | _, [] => isTrue trivial
  | s, i :: is =>
      match h : step s i with
      | none => decidable_of_iff _ (runMeets_cons_of_eq_none h).symm
      | some s' =>
          have : Decidable (RunMeets step guard s' is) := decidableRunMeets s' is
          decidable_of_iff _ (runMeets_cons_of_eq_some h).symm

/-- **The invariant rule under a condition on the steps.** -/
theorem run_invariant_of_meets {P : σ → Prop}
    (hstep : ∀ s i s', P s → guard s i → step s i = some s' → P s') {s t : σ} {is : List ι}
    (hs : P s) (hmeets : RunMeets step guard s is) (hrun : run step s is = some t) : P t := by
  induction is generalizing s with
  | nil =>
      rw [run_nil, Option.some.injEq] at hrun
      exact hrun ▸ hs
  | cons i is ih =>
      obtain ⟨s', hs', hrest⟩ := run_cons_eq_some.mp hrun
      exact ih (hstep s i s' hs hmeets.1 hs') (hmeets.2 s' hs') hrest

/-- **What a step breaks stays broken.**  A property that each step keeps exactly under its
condition holds after a run exactly when it held before and every step met the condition. -/
theorem run_iff_of_step {P : σ → Prop}
    (hstep : ∀ s i s', step s i = some s' → (P s' ↔ P s ∧ guard s i)) {s t : σ} {is : List ι}
    (hrun : run step s is = some t) : P t ↔ P s ∧ RunMeets step guard s is := by
  induction is generalizing s with
  | nil =>
      rw [run_nil, Option.some.injEq] at hrun
      simp [RunMeets, hrun]
  | cons i is ih =>
      obtain ⟨s', hs', hrest⟩ := run_cons_eq_some.mp hrun
      rw [ih hrest, hstep s i s' hs', runMeets_cons_of_eq_some hs', and_assoc]

/-- The property holds wherever the run has come to after some of its labels. -/
def Always (step : σ → ι → Option σ) (P : σ → Prop) (s : σ) (is : List ι) : Prop :=
  ∀ n t, run step s (is.take n) = some t → P t

theorem always_cons {P : σ → Prop} {s s' : σ} {i : ι} {is : List ι} (hs : step s i = some s') :
    Always step P s (i :: is) ↔ P s ∧ Always step P s' is := by
  constructor
  · intro h
    refine ⟨h 0 s rfl, fun n t ht => h (n + 1) t ?_⟩
    rw [List.take_succ_cons, run_cons, hs, Option.bind_some, ht]
  · rintro ⟨hP, h⟩ n t ht
    cases n with
    | zero => exact Option.some.inj ht ▸ hP
    | succ n =>
        rw [List.take_succ_cons, run_cons, hs, Option.bind_some] at ht
        exact h n t ht

/-- **The exact condition of a safety property.**  If an invariant gives the property, steps
under their condition keep the invariant, and every other step breaks the property, then a
completed run is safe all along exactly when every step meets its condition. -/
theorem always_iff_runMeets {P Inv : σ → Prop} (hsafe : ∀ s, Inv s → P s)
    (hkeeps : ∀ s i s', Inv s → guard s i → step s i = some s' → Inv s')
    (hbreaks : ∀ s i s', Inv s → ¬guard s i → step s i = some s' → ¬P s') {s t : σ}
    {is : List ι} (hs : Inv s) (hrun : run step s is = some t) :
    Always step P s is ↔ RunMeets step guard s is := by
  induction is generalizing s with
  | nil =>
      refine iff_of_true (fun n u hu => ?_) trivial
      rw [List.take_nil, run_nil, Option.some.injEq] at hu
      exact hu ▸ hsafe s hs
  | cons i is ih =>
      obtain ⟨s', hs', hrest⟩ := run_cons_eq_some.mp hrun
      rw [always_cons hs', runMeets_cons_of_eq_some hs']
      by_cases hguard : guard s i
      · rw [ih (hkeeps s i s' hs hguard hs') hrest]
        simp [hguard, hsafe s hs]
      · refine iff_of_false (fun h => ?_) (fun h => hguard h.1)
        exact hbreaks s i s' hs hguard hs' (h.2 0 s' rfl)

end Meets

end LuminalShine.Lib
