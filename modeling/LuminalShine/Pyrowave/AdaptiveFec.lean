import LuminalShine.Lib.Run
import Mathlib.Algebra.Order.Group.Int
import Mathlib.Data.Int.Order.Basic
import Mathlib.Data.Nat.Notation
import Mathlib.Logic.Function.Basic
import Mathlib.Tactic.Linarith

/-!
# The adaptive FEC controller

`adaptive_fec_controller_t` of `src/pyrowave/contract.h`.  A loss report adds parity for
ten seconds, and the video is scaled down so that video and parity together keep to the
budget of the session.  The control thread reports losses and the broadcast thread samples
once a frame; each is one critical section.

The encoder is told the scale only when it changes: whoever finds it changed raises the
event `pyrowave_fec_scale`, after the controller's mutex has been released.  Between the
two the other thread can change the scale again and be first with its own event, so the
announcement is a step of its own here.

## Main definitions

* `Controller` — the class; `Update` — what its two operations return.
* `System`, `Label`, `step` — the controller with its two consumers.
* `Announceable` — the steps after which the announced scale is still the right one.
-/

namespace LuminalShine.Pyrowave

open LuminalShine.Lib

/-- `std::clamp`, for `lo ≤ hi`. -/
def clamp (x lo hi : ℤ) : ℤ := max lo (min x hi)

def nextAdaptiveFecBoost (current : ℤ) : ℤ :=
  let bounded := clamp current 0 16
  if 12 ≤ bounded then 16 else bounded + 4

def effectiveFecPercentage (base boost elapsedSinceLossMs : ℤ) : ℤ :=
  let validBase := max base 0
  if 10000 ≤ elapsedSinceLossMs ∨ boost ≤ 0 ∨ 25 ≤ validBase then validBase
  else validBase + min boost (25 - validBase)

def fecVideoScalePercent (base effective : ℤ) : ℤ :=
  let validBase := clamp base 0 1000000
  let validEffective := clamp effective validBase 1000000
  if validEffective ≤ validBase then 100
  else clamp (100 * (100 + validBase) / (100 + validEffective)) 1 100

/-- `apply_video_scale_percent` on 64-bit values. -/
def applyVideoScalePercent (value : UInt64) (percent : ℤ) : UInt64 :=
  let bounded := UInt64.ofNat (clamp percent 1 100).toNat
  value / 100 * bounded + value % 100 * bounded / 100

/-- The overload on `int`: the rates of the session. -/
def applyVideoScalePercentInt (value percent : ℤ) : ℤ :=
  if value ≤ 0 then 0
  else min (applyVideoScalePercent (UInt64.ofNat value.toNat) percent).toNat (2 ^ 31 - 1)

/-- `adaptive_fec_update_t`. -/
structure Update where
  fecPercentage : ℤ
  videoScalePercent : ℤ
  scaleChanged : Bool
  deriving DecidableEq, Repr

structure Controller where
  base : ℤ
  boost : ℤ
  lastScale : ℤ
  lastLossMs : ℤ
  hasLoss : Bool
  deriving DecidableEq, Repr

namespace Controller

def init : Controller := ⟨0, 0, 100, 0, false⟩

def setBase (base : ℤ) : Controller := ⟨max base 0, 0, 100, 0, false⟩

def fecPercentage (c : Controller) (elapsedMs : ℤ) : ℤ :=
  effectiveFecPercentage c.base c.boost elapsedMs

def videoScalePercent (c : Controller) (elapsedMs : ℤ) : ℤ :=
  fecVideoScalePercent c.base (c.fecPercentage elapsedMs)

/-- `snapshot_locked`: the update, and the scale remembered. -/
def snapshotLocked (c : Controller) (elapsedMs : ℤ) : Update × Controller :=
  let scale := c.videoScalePercent elapsedMs
  (⟨c.fecPercentage elapsedMs, scale, scale != c.lastScale⟩, { c with lastScale := scale })

def noteLoss (c : Controller) (nowMs : ℤ) : Controller :=
  { c with lastLossMs := nowMs, hasLoss := true, boost := nextAdaptiveFecBoost c.boost }

def reportLoss (c : Controller) (nowMs : ℤ) : Update × Controller :=
  (c.noteLoss nowMs).snapshotLocked 0

def elapsedMs (c : Controller) (nowMs : ℤ) : ℤ :=
  if c.hasLoss then max 0 (nowMs - c.lastLossMs) else 10000

def sample (c : Controller) (nowMs : ℤ) : Update × Controller :=
  let elapsed := c.elapsedMs nowMs
  let (result, c') := c.snapshotLocked elapsed
  (result, if 10000 ≤ elapsed then { c' with boost := 0 } else c')

end Controller

/-- The two threads that use a session's controller. -/
inductive Consumer where
  | control
  | video
  deriving DecidableEq, Repr

def Consumer.other : Consumer → Consumer
  | .control => .video
  | .video => .control

/-- The controller, the scale each consumer has still to announce, and the one last
announced; an encoder starts at 100.  The last update and the time of the last report are
history. -/
structure System where
  controller : Controller
  pending : Consumer → Option ℤ
  announced : ℤ
  lastUpdate : Option Update
  lastReport : Option ℤ

def System.init : System := ⟨.init, fun _ => none, 100, none, none⟩

inductive Label where
  | setBase (base : ℤ)
  | reportLoss (nowMs : ℤ)
  | sample (nowMs : ℤ)
  | raise (consumer : Consumer)
  deriving DecidableEq, Repr

/-- An update is handed to its consumer, which keeps a changed scale to announce. -/
def System.deliver (s : System) (consumer : Consumer) (result : Update × Controller) : System :=
  { s with
    controller := result.2
    pending := Function.update s.pending consumer
      (if result.1.scaleChanged then some result.1.videoScalePercent else none)
    lastUpdate := some result.1 }

/-- A thread announces what it has before it comes back to the controller. -/
def step (s : System) : Label → Option System
  | .setBase base => some { s with controller := .setBase base }
  | .reportLoss nowMs =>
      if s.pending .control = none then
        some { s.deliver .control (s.controller.reportLoss nowMs) with lastReport := some nowMs }
      else none
  | .sample nowMs =>
      if s.pending .video = none then some (s.deliver .video (s.controller.sample nowMs)) else none
  | .raise consumer =>
      match s.pending consumer with
      | none => none
      | some scale =>
          some { s with announced := scale, pending := Function.update s.pending consumer none }

/-! ## The arithmetic -/

theorem effectiveFecPercentage_bounds (base boost elapsedMs : ℤ) :
    max base 0 ≤ effectiveFecPercentage base boost elapsedMs ∧
      effectiveFecPercentage base boost elapsedMs ≤ max (max base 0) 25 := by
  simp only [effectiveFecPercentage]
  split <;> omega

/-- The boost is over ten seconds after the loss. -/
theorem effectiveFecPercentage_of_elapsed (base boost : ℤ) {elapsedMs : ℤ}
    (h : 10000 ≤ elapsedMs) : effectiveFecPercentage base boost elapsedMs = max base 0 :=
  if_pos (.inl h)

/-- The scale is a percentage, and scaled video with its parity keeps to the budget. -/
theorem fecVideoScalePercent_spec {base effective : ℤ} (hbase : 0 ≤ base)
    (hle : base ≤ effective) (hmax : effective ≤ max base 25) :
    1 ≤ fecVideoScalePercent base effective ∧ fecVideoScalePercent base effective ≤ 100 ∧
      fecVideoScalePercent base effective * (100 + effective) ≤ 100 * (100 + base) := by
  by_cases heq : effective ≤ base
  · have h : fecVideoScalePercent base effective = 100 := by
      unfold fecVideoScalePercent clamp
      exact if_pos (by omega)
    rw [h]
    omega
  · -- parity was added, so both percentages are at most 25 and no bound applies
    have hvalid : clamp base 0 1000000 = base := by unfold clamp; omega
    have hvalid' : clamp effective base 1000000 = effective := by unfold clamp; omega
    have hquot : 100 * (100 + base) / (100 + effective) * (100 + effective) ≤ 100 * (100 + base) :=
      Int.ediv_mul_le _ (by omega)
    have hlow : 1 ≤ 100 * (100 + base) / (100 + effective) :=
      (Int.le_ediv_iff_mul_le (by omega)).mpr (by omega)
    have hhigh : 100 * (100 + base) / (100 + effective) ≤ 100 :=
      Int.ediv_le_of_le_mul (by omega) (by omega)
    have h : fecVideoScalePercent base effective = 100 * (100 + base) / (100 + effective) := by
      unfold fecVideoScalePercent
      simp only [hvalid, hvalid', if_neg heq]
      unfold clamp
      omega
    rw [h]
    exact ⟨hlow, hhigh, hquot⟩

/-- No step of the quotient and remainder form wraps around. -/
theorem applyVideoScalePercent_toNat (value : UInt64) (percent : ℤ) :
    (applyVideoScalePercent value percent).toNat =
      value.toNat * (clamp percent 1 100).toNat / 100 := by
  have hp : (clamp percent 1 100).toNat ≤ 100 := by unfold clamp; omega
  have hv := value.toNat_lt
  generalize hbounded : (clamp percent 1 100).toNat = p at hp
  have hofNat : (UInt64.ofNat p).toNat = p := by
    rw [UInt64.toNat_ofNat_of_lt']
    exact lt_of_le_of_lt hp (by decide)
  have hquot : value.toNat / 100 * p ≤ value.toNat / 100 * 100 := Nat.mul_le_mul_left _ hp
  have hrem : value.toNat % 100 * p ≤ 99 * 100 :=
    Nat.mul_le_mul (by omega) hp
  have hsplit : value.toNat * p / 100 =
      value.toNat / 100 * p + value.toNat % 100 * p / 100 := by
    conv_lhs => rw [← Nat.div_add_mod value.toNat 100, Nat.add_mul, Nat.mul_assoc]
    rw [Nat.mul_add_div (by decide)]
  have hle : value.toNat * p / 100 ≤ value.toNat :=
    Nat.div_le_of_le_mul (by rw [Nat.mul_comm]; exact Nat.mul_le_mul_right _ hp)
  rw [hsplit] at hle ⊢
  simp only [applyVideoScalePercent, hbounded, UInt64.toNat_add, UInt64.toNat_mul,
    UInt64.toNat_div, UInt64.toNat_mod, hofNat]
  have h100 : (100 : UInt64).toNat = 100 := rfl
  rw [h100, Nat.mod_eq_of_lt (a := value.toNat / 100 * p) (by omega),
    Nat.mod_eq_of_lt (a := value.toNat % 100 * p) (by omega),
    Nat.mod_eq_of_lt (lt_of_le_of_lt hle hv)]

/-- A scale that fits the budget keeps every rate to it, whatever is rounded off. -/
theorem budget_of_scale {value scale base effective : ℤ} (hvalue : 0 ≤ value)
    (heffective : 0 ≤ 100 + effective) (h : scale * (100 + effective) ≤ 100 * (100 + base)) :
    value * scale / 100 * (100 + effective) ≤ value * (100 + base) := by
  have hfloor : value * scale / 100 * 100 ≤ value * scale := Int.ediv_mul_le _ (by decide)
  have hscaled : value * scale / 100 * 100 * (100 + effective) ≤ value * (100 * (100 + base)) :=
    calc value * scale / 100 * 100 * (100 + effective)
        ≤ value * scale * (100 + effective) := Int.mul_le_mul_of_nonneg_right hfloor heffective
      _ = value * (scale * (100 + effective)) := Int.mul_assoc ..
      _ ≤ value * (100 * (100 + base)) := Int.mul_le_mul_of_nonneg_left h hvalue
  linarith

theorem applyVideoScalePercentInt_eq {value percent : ℤ} (h0 : 0 ≤ value) (h31 : value < 2 ^ 31)
    (hp : 1 ≤ percent) (hp' : percent ≤ 100) :
    applyVideoScalePercentInt value percent = value * percent / 100 := by
  have hclamp : clamp percent 1 100 = percent := by unfold clamp; omega
  by_cases hpos : value ≤ 0
  · have hzero : value = 0 := by omega
    simp [applyVideoScalePercentInt, hzero]
  · have hofNat : (UInt64.ofNat value.toNat).toNat = value.toNat := by
      apply UInt64.toNat_ofNat_of_lt'
      have hlt : value.toNat < 2 ^ 31 := by omega
      exact lt_of_lt_of_le hlt (by decide)
    have hle : value * percent / 100 ≤ value :=
      Int.ediv_le_of_le_mul (by decide) (Int.mul_le_mul_of_nonneg_left hp' h0)
    have heq : ((applyVideoScalePercent (UInt64.ofNat value.toNat) percent).toNat : ℤ) =
        value * percent / 100 := by
      rw [applyVideoScalePercent_toNat, hofNat, hclamp]
      rw [Int.natCast_ediv, Int.natCast_mul, Int.toNat_of_nonneg h0,
        Int.toNat_of_nonneg (by omega)]
      rfl
    simp only [applyVideoScalePercentInt, if_neg hpos, heq]
    omega

/-! ## The controller -/

/-- What an update promises for the base of its controller: parity between the base and
the cap, and a scale with which every rate keeps to the budget. -/
structure Kept (base : ℤ) (u : Update) : Prop where
  at_least : base ≤ u.fecPercentage
  at_most : u.fecPercentage ≤ max base 25
  budget : ∀ value : UInt64,
    (applyVideoScalePercent value u.videoScalePercent).toNat * (100 + u.fecPercentage) ≤
      value.toNat * (100 + base)
  budgetInt : ∀ value : ℤ, 0 ≤ value → value < 2 ^ 31 →
    applyVideoScalePercentInt value u.videoScalePercent * (100 + u.fecPercentage) ≤
      value * (100 + base)

theorem kept_snapshotLocked {c : Controller} (hbase : 0 ≤ c.base) (elapsedMs : ℤ) :
    Kept c.base (c.snapshotLocked elapsedMs).1 := by
  have hbounds := effectiveFecPercentage_bounds c.base c.boost elapsedMs
  rw [max_eq_left hbase] at hbounds
  change c.base ≤ c.fecPercentage elapsedMs ∧ c.fecPercentage elapsedMs ≤ max c.base 25 at hbounds
  have hspec := fecVideoScalePercent_spec hbase hbounds.1 hbounds.2
  change 1 ≤ c.videoScalePercent elapsedMs ∧ c.videoScalePercent elapsedMs ≤ 100 ∧
    c.videoScalePercent elapsedMs * (100 + c.fecPercentage elapsedMs) ≤ _ at hspec
  obtain ⟨hlow, hhigh, hscale⟩ := hspec
  have hnonneg : 0 ≤ 100 + c.fecPercentage elapsedMs := by omega
  refine ⟨hbounds.1, hbounds.2, ?_, ?_⟩
  · intro value
    have hclamp : clamp (c.videoScalePercent elapsedMs) 1 100 = c.videoScalePercent elapsedMs := by
      unfold clamp
      omega
    have h := budget_of_scale (Int.natCast_nonneg value.toNat) hnonneg hscale
    simp only [Controller.snapshotLocked, applyVideoScalePercent_toNat, hclamp]
    rw [Int.natCast_ediv, Int.natCast_mul, Int.toNat_of_nonneg]
    · exact h
    · exact le_trans (by decide) hlow
  · intro value h0 h31
    simp only [Controller.snapshotLocked]
    rw [applyVideoScalePercentInt_eq h0 h31 hlow hhigh]
    exact budget_of_scale h0 hnonneg hscale

theorem kept_reportLoss {c : Controller} (hbase : 0 ≤ c.base) (nowMs : ℤ) :
    Kept c.base (c.reportLoss nowMs).1 :=
  kept_snapshotLocked (c := c.noteLoss nowMs) hbase 0

theorem kept_sample {c : Controller} (hbase : 0 ≤ c.base) (nowMs : ℤ) :
    Kept c.base (c.sample nowMs).1 :=
  kept_snapshotLocked hbase (c.elapsedMs nowMs)

@[simp] theorem snapshotLocked_controller (c : Controller) (elapsedMs : ℤ) :
    (c.snapshotLocked elapsedMs).2 = { c with lastScale := c.videoScalePercent elapsedMs } := rfl

theorem sample_controller (c : Controller) (nowMs : ℤ) :
    (c.sample nowMs).2 = { c with
      lastScale := c.videoScalePercent (c.elapsedMs nowMs)
      boost := if 10000 ≤ c.elapsedMs nowMs then 0 else c.boost } := by
  simp only [Controller.sample, snapshotLocked_controller]
  split <;> rfl

/-! ## Runs -/

/-- The steps after which an announcement is still right: a new base comes while the scale
is 100, and an operation that moves the scale comes when the other consumer has nothing
left to announce. -/
def Announceable (s : System) : Label → Prop
  | .setBase _ => s.controller.lastScale = 100
  | .reportLoss nowMs =>
      (s.controller.noteLoss nowMs).videoScalePercent 0 = s.controller.lastScale ∨
        s.pending .video = none
  | .sample nowMs =>
      s.controller.videoScalePercent (s.controller.elapsedMs nowMs) = s.controller.lastScale ∨
        s.pending .control = none
  | .raise _ => True

instance decidableAnnounceable (s : System) : ∀ i, Decidable (Announceable s i)
  | .setBase _ => inferInstanceAs (Decidable (_ = _))
  | .reportLoss _ => inferInstanceAs (Decidable (_ ∨ _))
  | .sample _ => inferInstanceAs (Decidable (_ ∨ _))
  | .raise _ => isTrue trivial

/-- What holds of the controller after every run. -/
structure ControllerInv (s : System) : Prop where
  base_nonneg : 0 ≤ s.controller.base
  last_loss : s.controller.hasLoss = true → s.lastReport = some s.controller.lastLossMs

theorem step_controllerInv {s s' : System} {i : Label} (h : ControllerInv s)
    (hs : step s i = some s') : ControllerInv s' := by
  cases i with
  | setBase base =>
      cases hs
      exact ⟨le_max_right _ _, by simp [Controller.setBase]⟩
  | reportLoss nowMs =>
      obtain ⟨-, rfl⟩ := guarded_eq_some.mp hs
      exact ⟨h.base_nonneg, fun _ => rfl⟩
  | sample nowMs =>
      obtain ⟨-, rfl⟩ := guarded_eq_some.mp hs
      refine ⟨?_, ?_⟩
      · simpa only [System.deliver, sample_controller] using h.base_nonneg
      · simpa only [System.deliver, sample_controller] using h.last_loss
  | raise consumer =>
      simp only [step] at hs
      split at hs
      · cases hs
      · cases hs
        exact ⟨h.base_nonneg, h.last_loss⟩

/-- The announcements of a run whose steps are all announceable. -/
structure Settled (s : System) : Prop where
  pending_eq : ∀ c scale, s.pending c = some scale → scale = s.controller.lastScale
  announced_eq : (∀ c, s.pending c = none) → s.announced = s.controller.lastScale
  update_eq : ∀ u, s.lastUpdate = some u → u.videoScalePercent = s.controller.lastScale

theorem settled_init : Settled System.init where
  pending_eq := by intro c scale h; cases h
  announced_eq := fun _ => rfl
  update_eq := by intro u h; cases h

/-- One operation of one consumer.  If it moves the scale, its own announcement is the
only one on its way. -/
theorem Settled.deliver {s : System} (h : Settled s) {c : Controller} {consumer : Consumer}
    {result : Update × Controller}
    (hown : s.pending consumer = none) (hlast : c.lastScale = s.controller.lastScale)
    (hchanged : result.1.scaleChanged = (result.1.videoScalePercent != c.lastScale))
    (hscale : result.2.lastScale = result.1.videoScalePercent)
    (hother : result.1.videoScalePercent = s.controller.lastScale ∨
      s.pending consumer.other = none) : Settled (s.deliver consumer result) := by
  have hcases : ∀ d, d = consumer ∨ d = consumer.other := by
    intro d
    cases d <;> cases consumer <;> decide
  have hne : consumer.other ≠ consumer := by cases consumer <;> decide
  by_cases hsame : result.1.videoScalePercent = s.controller.lastScale
  · have hquiet : result.1.scaleChanged = false := by
      rw [hchanged, hlast, hsame, bne_self_eq_false]
    have hpending : (s.deliver consumer result).pending = s.pending := by
      simp only [System.deliver, hquiet, if_neg Bool.false_ne_true]
      rw [← hown, Function.update_eq_self]
    have hlast' : (s.deliver consumer result).controller.lastScale = s.controller.lastScale :=
      hscale.trans hsame
    refine ⟨?_, ?_, ?_⟩
    · rw [hpending, hlast']
      exact h.pending_eq
    · rw [hpending, hlast']
      exact h.announced_eq
    · intro u hu
      cases hu
      exact hscale.symm
  · have hloud : result.1.scaleChanged = true := by
      rw [hchanged, hlast]
      exact bne_iff_ne.mpr hsame
    refine ⟨?_, ?_, ?_⟩
    · intro d scale hd
      simp only [System.deliver, hloud, if_true] at hd ⊢
      rcases hcases d with rfl | rfl
      · rw [Function.update_self, Option.some.injEq] at hd
        rw [hscale, hd]
      · rw [Function.update_of_ne hne, hother.resolve_left hsame] at hd
        cases hd
    · intro hnone
      have := hnone consumer
      simp [System.deliver, hloud] at this
    · intro u hu
      cases hu
      exact hscale.symm

theorem step_settled {s s' : System} {i : Label} (h : Settled s) (hg : Announceable s i)
    (hs : step s i = some s') : Settled s' := by
  cases i with
  | setBase base =>
      cases hs
      refine ⟨?_, ?_, ?_⟩
      · exact fun c scale hc => (h.pending_eq c scale hc).trans hg
      · exact fun hnone => (h.announced_eq hnone).trans hg
      · exact fun u hu => (h.update_eq u hu).trans hg
  | reportLoss nowMs =>
      obtain ⟨hown, rfl⟩ := guarded_eq_some.mp hs
      have hd : Settled (s.deliver .control (s.controller.reportLoss nowMs)) :=
        h.deliver (c := s.controller.noteLoss nowMs) hown rfl rfl rfl hg
      exact ⟨hd.pending_eq, hd.announced_eq, hd.update_eq⟩
  | sample nowMs =>
      obtain ⟨hown, rfl⟩ := guarded_eq_some.mp hs
      refine h.deliver (c := s.controller) hown rfl rfl ?_ hg
      rw [sample_controller]
      rfl
  | raise consumer =>
      simp only [step] at hs
      split at hs
      · cases hs
      · rename_i scale hpending
        cases hs
        refine ⟨?_, fun _ => h.pending_eq consumer scale hpending, h.update_eq⟩
        intro c scale' hc
        simp only at hc ⊢
        by_cases heq : c = consumer
        · rw [heq, Function.update_self] at hc
          cases hc
        · rw [Function.update_of_ne heq] at hc
          exact h.pending_eq c scale' hc

/-- **The adaptive FEC controller.**  After every run, each update keeps its promise, the
boost is over ten seconds after the last report, and the scaling is exact; and if the
steps of the run are announceable, then the last scale announced is the current one as
soon as nobody has one left to announce. -/
theorem adaptive_fec_run {is : List Label} {s : System}
    (hrun : run step System.init is = some s) :
    (∀ nowMs, Kept s.controller.base (s.controller.reportLoss nowMs).1 ∧
      Kept s.controller.base (s.controller.sample nowMs).1) ∧
    (∀ lossMs nowMs, s.lastReport = some lossMs → lossMs + 10000 ≤ nowMs →
      (s.controller.sample nowMs).1.fecPercentage = s.controller.base) ∧
    (∀ (value : UInt64) (percent : ℕ), 1 ≤ percent → percent ≤ 100 →
      (applyVideoScalePercent value percent).toNat = value.toNat * percent / 100) ∧
    (RunMeets step Announceable System.init is → (∀ c, s.pending c = none) →
      s.announced = s.controller.lastScale ∧
      ∀ u, s.lastUpdate = some u → s.announced = u.videoScalePercent) := by
  have hinv : ControllerInv s :=
    run_invariant (fun _ _ _ h hs => step_controllerInv h hs)
      ⟨le_refl _, by intro h; cases h⟩ hrun
  refine ⟨fun nowMs => ⟨kept_reportLoss hinv.base_nonneg nowMs, kept_sample hinv.base_nonneg nowMs⟩,
    ?_, ?_, ?_⟩
  · intro lossMs nowMs hreport hlate
    have helapsed : 10000 ≤ s.controller.elapsedMs nowMs := by
      unfold Controller.elapsedMs
      split
      · rename_i hloss
        have := hinv.last_loss hloss
        rw [hreport, Option.some.injEq] at this
        omega
      · exact le_refl _
    have hover := effectiveFecPercentage_of_elapsed s.controller.base s.controller.boost helapsed
    rw [max_eq_left hinv.base_nonneg] at hover
    exact hover
  · intro value percent h1 h100
    have hclamp : clamp percent 1 100 = percent := by unfold clamp; omega
    rw [applyVideoScalePercent_toNat, hclamp, Int.toNat_natCast]
  · intro hmeets hnone
    have hsettled : Settled s := run_invariant_of_meets
      (fun _ _ _ h hg hs => step_settled h hg hs) settled_init hmeets hrun
    have hann := hsettled.announced_eq hnone
    exact ⟨hann, fun u hu => hann.trans (hsettled.update_eq u hu).symm⟩

/-- A loss, its boost and the end of it, every change announced in time. -/
def boostAndExpiry : List Label :=
  [.setBase 10, .reportLoss 0, .raise .control, .sample 10000, .raise .video]

theorem adaptive_fec_run_boostAndExpiry :
    ∃ s, run step System.init boostAndExpiry = some s ∧ s.announced = s.controller.lastScale := by
  have hrun : run step System.init boostAndExpiry = some _ := rfl
  refine ⟨_, hrun, ((adaptive_fec_run hrun).2.2.2 (by decide) ?_).1⟩
  intro c
  cases c <;> rfl

/-- A new base while the video is scaled down, and an expiry that is announced after the
fresh loss that followed it. -/
def silentReset : List Label := [.reportLoss 0, .raise .control, .setBase 10, .sample 1]

def lateAnnouncement : List Label :=
  [.setBase 10, .reportLoss 0, .raise .control, .sample 10000, .reportLoss 10000,
    .raise .control, .raise .video]

theorem announced_scale_wrong :
    (∃ s, run step System.init silentReset = some s ∧ (∀ c, s.pending c = none) ∧
      s.announced = 96 ∧ s.lastUpdate = some ⟨10, 100, false⟩) ∧
    ∃ s, run step System.init lateAnnouncement = some s ∧ (∀ c, s.pending c = none) ∧
      s.announced = 100 ∧ s.lastUpdate = some ⟨14, 96, true⟩ ∧
      (s.controller.sample 10001).1 = ⟨14, 96, false⟩ := by
  refine ⟨⟨_, rfl, ?_, rfl, rfl⟩, ⟨_, rfl, ?_, rfl, rfl, rfl⟩⟩
  · intro c
    cases c <;> rfl
  · intro c
    cases c <;> rfl

end LuminalShine.Pyrowave
