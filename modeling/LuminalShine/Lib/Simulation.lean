import LuminalShine.Lib.Run

/-!
# Simulation and verdicts of runs

A detailed component follows a simpler one when every step of it is one step of the simpler
one or none at all: `run_simulates` carries that over whole runs.  `run_verdict_iff` settles
what exactly a run did right: when the verdict on a history changes with a step exactly if
the step breaks a condition, the verdict on the whole run is that condition at every step.
-/

namespace LuminalShine.Lib

universe u v
variable {σ τ : Type u} {ι κ : Type v} {step : σ → ι → Option σ} {spec : τ → κ → Option τ}

/-- **Stuttering simulation.**  `erase` forgets the labels that the abstract component does
not see; `Inv` is what the detailed one keeps. -/
theorem run_simulates {Inv : σ → Prop} {abs : σ → τ} {erase : ι → Option κ}
    (hinv : ∀ s i s', Inv s → step s i = some s' → Inv s')
    (hstep : ∀ s i s', Inv s → step s i = some s' →
      run spec (abs s) (erase i).toList = some (abs s'))
    {s t : σ} {is : List ι} (hs : Inv s) (hrun : run step s is = some t) :
    run spec (abs s) (is.filterMap erase) = some (abs t) := by
  induction is generalizing s with
  | nil =>
      rw [run_nil, Option.some.injEq] at hrun
      exact hrun ▸ rfl
  | cons i is ih =>
      obtain ⟨s', hs', hrest⟩ := run_cons_eq_some.mp hrun
      have hfirst := hstep s i s' hs hs'
      have hothers := ih (hinv s i s' hs hs') hrest
      cases hi : erase i with
      | none =>
          rw [hi, Option.toList_none, run_nil, Option.some.injEq] at hfirst
          rw [List.filterMap_cons_none hi, hfirst]
          exact hothers
      | some k =>
          rw [hi, Option.toList_some] at hfirst
          obtain ⟨a, ha, hrefl⟩ := run_cons_eq_some.mp hfirst
          rw [run_nil, Option.some.injEq] at hrefl
          rw [List.filterMap_cons_some hi]
          exact run_cons_eq_some.mpr ⟨a, ha, hrefl ▸ hothers⟩

/-- **The verdict rule.**  If the verdict after a step is the verdict before it together with
`guard`, then a run ends with a good verdict exactly when all its steps meet `guard`. -/
theorem run_verdict_iff {Inv verdict : σ → Prop} {guard : σ → ι → Prop}
    (hinv : ∀ s i s', Inv s → step s i = some s' → Inv s')
    (hstep : ∀ s i s', Inv s → step s i = some s' → (verdict s' ↔ verdict s ∧ guard s i))
    {s t : σ} {is : List ι} (hs : Inv s) (hrun : run step s is = some t) :
    verdict t ↔ verdict s ∧ RunMeets step guard s is := by
  induction is generalizing s with
  | nil =>
      rw [run_nil, Option.some.injEq] at hrun
      simp [RunMeets, hrun]
  | cons i is ih =>
      obtain ⟨s', hs', hrest⟩ := run_cons_eq_some.mp hrun
      rw [ih (hinv s i s' hs hs') hrest, hstep s i s' hs hs', runMeets_cons_of_eq_some hs',
        and_assoc]

end LuminalShine.Lib
