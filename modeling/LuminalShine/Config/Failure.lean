import LuminalShine.Config.History

/-!
# Applies that raise

`apply_config_now` catches what `apply_config` raises without taking anything back: what it has
assigned by then stands.  So a failed apply keeps the settings when they are already what the
options ask for that were read before.

## Main definitions

* `Spared` — the settings were already these when the first of the risks raises.

## Main results

* `apply_keeps_iff` — when a failed apply leaves the settings as they were.
-/

namespace LuminalShine.Config

variable {host : Host} {world : World} {o : Options} {old : Settings}

/-- When the first of the risks, counted from `n`, raises, the settings already are what the
options read before it ask for. -/
def Spared (host : Host) (world : World) (o : Options) (old : Settings) : ℕ → List Risk → Prop
  | _, [] => True
  | n, risk :: risks =>
      if risk.raises host world o old = true then asked host o old n = old
      else Spared host world o old (n + 1) risks

theorem spared_iff {n : ℕ} {risks : List Risk} :
    Spared host world o old n risks ↔
      ((ended host world o old n risks).2 = true → (ended host world o old n risks).1 = old) := by
  induction risks generalizing n with
  | nil => simp [Spared, ended]
  | cons risk risks ih =>
      rw [Spared, ended]
      split
      · simp
      · exact ih

/-- **Failed applies.**  An apply that raises leaves the settings as they were exactly when they
already are what is asked for by the options before the first statement that raises. -/
theorem apply_keeps_iff (host : Host) (p : Process) (content : String) (overrides : Vars)
    (world : World) :
    ((apply host p (.now content overrides world)).2 ≠ none →
        (apply host p (.now content overrides world)).1.settings = p.settings) ↔
      Spared host world
        (aliased ((Load.now content overrides world).vars p.commandLineOverrides).lookup)
        p.settings 0 Risk.all := by
  have hall := outcome_applyConfig host world
    ((Load.now content overrides world).vars p.commandLineOverrides) p.settings
  rw [spared_iff, ← hall]
  simp only [apply, Load.world, outcome, Lib.ending]
  cases applyConfig host world
      ((Load.now content overrides world).vars p.commandLineOverrides, p.settings) with
  | ok a t => simp
  | error e t => simp

/-- The file asks for another ping timeout. -/
def patientFile : Load := .start "ping_timeout = 5000\n" exampleWorld

/-- The same file, with a command list that was not finished. -/
def brokenFile : Load :=
  .now "ping_timeout = 5000\nglobal_prep_cmd = [\x7b\"do\":\n" ∅ exampleWorld

/-- The ping timeout goes back to its default although the new file is refused. -/
theorem failed_apply_resets :
    ∃ before, step exampleHost { exampleStart with
        settings := Settings.initial exampleHost } patientFile = some before ∧
      before.settings.stream.pingTimeout = 5000 ∧
      (apply exampleHost before brokenFile).2 = some (.json "global_prep_cmd") ∧
      (apply exampleHost before brokenFile).1.settings.stream.pingTimeout = 10000 ∧
      ¬ ((apply exampleHost before brokenFile).2 ≠ none →
        (apply exampleHost before brokenFile).1.settings = before.settings) := by
  have hcheck : (step exampleHost { exampleStart with
      settings := Settings.initial exampleHost } patientFile).any (fun before =>
        decide (before.settings.stream.pingTimeout = 5000 ∧
          (apply exampleHost before brokenFile).2 = some (.json "global_prep_cmd") ∧
          (apply exampleHost before brokenFile).1.settings.stream.pingTimeout = 10000)) = true := by
    decide +kernel
  obtain ⟨before, hbefore, hfacts⟩ := (Option.any_eq_true _ _).mp hcheck
  obtain ⟨hpatient, hraised, hreset⟩ := of_decide_eq_true hfacts
  refine ⟨before, hbefore, hpatient, hraised, hreset, fun hkept => ?_⟩
  have hsame := hkept (by simp [hraised])
  rw [hsame, hpatient] at hreset
  omega

end LuminalShine.Config
