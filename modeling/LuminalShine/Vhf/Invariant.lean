import LuminalShine.Vhf.Slots
import Mathlib.Data.Finset.Card

/-!
# Slots, connection and controllers

A slot that is active owns a controller of its profile whenever no removal is being recovered
from.  Every function that a client calls keeps that, whatever the driver returns.

## Main definitions

* `Inv` — the invariant.

## Main results

* `Inv.alloc`, `Inv.free`, `Inv.touch`, `Inv.motion`, `Inv.battery`, `Inv.update` — its steps.
-/

namespace LuminalShine.Vhf

variable {Level : Type} {levels : Levels Level} {s : State Level} {nr : Nr} {slot : Slot}

/-! ## The invariant -/

/-- The active slots. -/
def activeSlots (slots : Nr → Slot) : Finset Nr :=
  Finset.univ.filter fun nr => (slots nr).active = true

variable (levels) in
structure Slot.Sound (slot : Slot) : Prop where
  mapped : Mapped slot.contactOfPointer slot.freeContacts
  cached : slot.Cached levels

variable (levels) in
theorem sound_reset (now : ℕ) : (Slot.reset now).Sound levels where
  mapped := .none
  cached := ⟨rfl, rfl, fun _ => rfl⟩

variable (levels) in
structure Inv (s : State Level) : Prop where
  count : s.activeCount = (activeSlots s.slots).card
  sound : ∀ nr, (s.slots nr).Sound levels
  idle : s.activeCount = 0 → s.connected = false ∧ s.pending = false
  closed : s.connected = false → ∀ nr, s.controllers nr = none
  owned : s.pending = false → ∀ nr, (s.slots nr).active = true → s.connected = true ∧
    ∃ controller, s.controllers nr = some controller ∧ controller.profile = (s.slots nr).profile
  noOther : s.pending = false → ∀ nr, (s.slots nr).active = false →
    s.controllers nr ≠ none → s.destroyFailed nr = true

theorem inv_initial : Inv levels State.initial where
  count := rfl
  sound := fun _ => ⟨.none, rfl, rfl, fun _ => rfl⟩
  idle := fun _ => ⟨rfl, rfl⟩
  closed := fun _ _ => rfl
  owned := fun _ _ hactive => by cases hactive
  noOther := fun _ _ _ hsome => absurd rfl hsome

theorem Inv.activeCount_ne_zero (hinv : Inv levels s) (hactive : (s.slots nr).active = true) :
    s.activeCount ≠ 0 := by
  rw [hinv.count]
  exact Finset.card_ne_zero_of_mem (Finset.mem_filter.mpr ⟨Finset.mem_univ nr, hactive⟩)

/-! ### Driver calls -/

/-- A removal is noticed: from then on nothing is owned until the recovery. -/
theorem Inv.removed (hinv : Inv levels s) (hcount : s.activeCount ≠ 0) (survives : Nr → Bool) :
    Inv levels { s.lose survives with pending := true } where
  count := hinv.count
  sound := hinv.sound
  idle := fun hzero => absurd hzero hcount
  closed := fun hclosed nr => by
    simp [State.lose, hinv.closed hclosed nr]
  owned := fun hfalse => by cases hfalse
  noOther := fun hfalse => by cases hfalse

theorem Inv.submit (hinv : Inv levels s) (hcount : s.activeCount ≠ 0) {reply : Reply}
    {f : State Level → State Level} (hf : reply = .success → Inv levels (f s)) :
    Inv levels (s.submit reply f) := by
  cases reply with
  | success => exact hf rfl
  | failed => exact hinv
  | removed survives => exact hinv.removed hcount survives

theorem Inv.submitId (hinv : Inv levels s) (hcount : s.activeCount ≠ 0) (reply : Reply) :
    Inv levels (s.submit reply id) :=
  hinv.submit hcount fun _ => hinv

/-- A report changes no profile. -/
theorem Inv.mapController (hinv : Inv levels s) {g : Controller Level → Controller Level}
    (hg : ∀ controller, (g controller).profile = controller.profile) (nr : Nr) :
    Inv levels (s.setController nr ((s.controllers nr).map g)) where
  count := hinv.count
  sound := hinv.sound
  idle := hinv.idle
  closed := fun hclosed other => by
    by_cases hsame : other = nr
    · subst hsame
      simp [State.setController, hinv.closed hclosed other]
    · simp [State.setController, hsame, hinv.closed hclosed other]
  owned := fun hpending other hactive => by
    obtain ⟨hconnected, controller, hsome, hprofile⟩ := hinv.owned hpending other hactive
    refine ⟨hconnected, ?_⟩
    by_cases hsame : other = nr
    · subst hsame
      exact ⟨g controller, by simp [State.setController, hsome], (hg controller).trans hprofile⟩
    · exact ⟨controller, by simp [State.setController, hsame, hsome], hprofile⟩
  noOther := fun hpending other hactive hsome => by
    refine hinv.noOther hpending other hactive fun hnone => hsome ?_
    by_cases hsame : other = nr
    · subst hsame
      simp [State.setController, hnone]
    · simp [State.setController, hsame, hnone]

theorem Inv.receiveInput (hinv : Inv levels s) (nr : Nr) (report : InputReport) :
    Inv levels (State.receiveInput nr report s) :=
  hinv.mapController (g := fun controller => { controller with input := some report })
    (fun _ => rfl) nr

theorem Inv.receiveBattery (hinv : Inv levels s) (nr : Nr) (report : BatteryReport) :
    Inv levels (State.receiveBattery levels nr report s) :=
  hinv.mapController (g := fun controller =>
    { controller with battery := levels.receive controller.battery report }) (fun _ => rfl) nr

/-- A slot that keeps its owner and its profile. -/
theorem Inv.setSlot (hinv : Inv levels s) (nr : Nr) (slot : Slot) (hsound : slot.Sound levels)
    (hactive : slot.active = (s.slots nr).active) (hprofile : slot.profile = (s.slots nr).profile) :
    Inv levels (s.setSlot nr slot) := by
  have hactives : ∀ other, (Function.update s.slots nr slot other).active =
      (s.slots other).active := fun other => by
    by_cases hsame : other = nr
    · subst hsame
      simp [hactive]
    · simp [hsame]
  have hprofiles : ∀ other, (Function.update s.slots nr slot other).profile =
      (s.slots other).profile := fun other => by
    by_cases hsame : other = nr
    · subst hsame
      simp [hprofile]
    · simp [hsame]
  exact {
    count := by
      rw [show (s.setSlot nr slot).activeCount = s.activeCount from rfl, hinv.count]
      simp [activeSlots, State.setSlot, hactives]
    sound := fun other => by
      by_cases hsame : other = nr
      · subst hsame
        simpa [State.setSlot] using hsound
      · simpa [State.setSlot, hsame] using hinv.sound other
    idle := hinv.idle
    closed := hinv.closed
    owned := fun hpending other hother => by
      simp only [State.setSlot, hactives, hprofiles] at hother ⊢
      exact hinv.owned hpending other hother
    noOther := fun hpending other hother => by
      simp only [State.setSlot, hactives] at hother
      exact hinv.noOther hpending other hother }

/-! ## The functions -/

theorem Inv.touch (hinv : Inv levels s) (nr : Nr) (pointerId : UInt32) (event : TouchEvent)
    (reply : Reply) : Inv levels (touch s nr pointerId event reply) := by
  simp only [Vhf.touch]
  split
  · next hboth =>
    have hactive : (s.slots nr).active = true := by
      simp only [Bool.and_eq_true] at hboth
      exact hboth.1.1
    obtain ⟨contactOfPointer, freeContacts, hslot⟩ := contact_frame (s.slots nr) pointerId event
    have hmapped := (hinv.sound nr).mapped.contact pointerId event
    have hcached := (hinv.sound nr).cached
    split
    · next slot hcontact =>
      have hsame : slot = { s.slots nr with contactOfPointer, freeContacts } := by
        rw [← hslot, hcontact]
      rw [hcontact] at hmapped
      subst hsame
      exact hinv.setSlot nr _ ⟨hmapped, hcached.input, hcached.battery, hcached.seed⟩ rfl rfl
    · next contact slot hcontact =>
      have hsame : slot = { s.slots nr with contactOfPointer, freeContacts } := by
        rw [← hslot, hcontact]
      rw [hcontact] at hmapped
      subst hsame
      have hset := hinv.setSlot nr { s.slots nr with
          contactOfPointer
          freeContacts
          submitFailed := (s.slots nr).submitFailed || reply ≠ .success }
        ⟨hmapped, hcached.input, hcached.battery, hcached.seed⟩ rfl rfl
      exact hset.submit (hinv.activeCount_ne_zero hactive) fun _ => hset
  · exact hinv

/-- Maintenance is of no concern here. -/
theorem Inv.setMaintenance (hinv : Inv levels s) (nr : Nr) (maintenance : Maintenance) :
    Inv levels (s.setSlot nr { s.slots nr with maintenance }) :=
  have hcached := (hinv.sound nr).cached
  hinv.setSlot nr _ ⟨(hinv.sound nr).mapped, hcached.input, hcached.battery, hcached.seed⟩ rfl rfl

theorem Inv.motion (hinv : Inv levels s) (nr : Nr) (gyro : Option Bool) (reply : Reply)
    (now : ℕ) : Inv levels (motion s nr gyro reply now) := by
  simp only [Vhf.motion]
  split
  · next hboth =>
    have hactive : (s.slots nr).active = true := by
      simp only [Bool.and_eq_true] at hboth
      exact hboth.1.1
    have hcount := hinv.activeCount_ne_zero hactive
    match gyro with
    | none => exact hinv
    | some false => exact hinv.submit hcount fun _ => hinv
    | some true =>
        have hset := hinv.setMaintenance nr ((s.slots nr).maintenance.gyroReceived now)
        exact hset.submit hcount fun _ => hset
  · exact hinv

theorem Inv.battery (hinv : Inv levels s) (nr : Nr) (percent flags : UInt8) (reply : Reply) :
    Inv levels (battery levels s nr percent flags reply) := by
  simp only [Vhf.battery]
  split
  · next hboth =>
    have hactive : (s.slots nr).active = true := (Bool.and_eq_true_iff.mp hboth).1
    have hset := hinv.setSlot nr ((s.slots nr).keepBattery ⟨nr, percent, flags⟩)
      ⟨(hinv.sound nr).mapped, (hinv.sound nr).cached.keepBattery ⟨nr, percent, flags⟩⟩ rfl rfl
    split
    · exact hset
    · exact hset.submit (hinv.activeCount_ne_zero hactive) fun _ => hset.receiveBattery nr _
  · exact hinv

theorem Inv.update (hinv : Inv levels s) (nr : Nr) (state : NormalizedState)
    (backAsTouchpad : Bool) (reply : Reply) (now : ℕ) :
    Inv levels (update s nr state backAsTouchpad reply now) := by
  simp only [Vhf.update]
  split
  · next hactive =>
    have hkept := (hinv.sound nr).cached.keepInput
      (makeInputState nr (withTouchpad (s.slots nr) backAsTouchpad state))
    split
    · exact hinv.setSlot nr _ ⟨(hinv.sound nr).mapped, hkept⟩ rfl rfl
    · split
      · have hset := hinv.setSlot nr { (s.slots nr).keepInput
            (makeInputState nr (withTouchpad (s.slots nr) backAsTouchpad state)) with
            maintenance := (s.slots nr).maintenance.reportSent now
            submitFailed := false }
          ⟨(hinv.sound nr).mapped, hkept.input, hkept.battery, hkept.seed⟩ rfl rfl
        exact hset.submit (hinv.activeCount_ne_zero hactive) fun _ => hset.receiveInput nr _
      · have hset := hinv.setSlot nr { (s.slots nr).keepInput
            (makeInputState nr (withTouchpad (s.slots nr) backAsTouchpad state)) with
            submitFailed := true }
          ⟨(hinv.sound nr).mapped, hkept.input, hkept.battery, hkept.seed⟩ rfl rfl
        exact hset.submit (hinv.activeCount_ne_zero hactive) fun _ => hset.receiveInput nr _
  · exact hinv

/-! ### Owners -/

/-- The connection is given up, or the process had none. -/
theorem Inv.close (hinv : Inv levels s) (hidle : s.pending = false → s.activeCount = 0) :
    Inv levels s.close where
  count := hinv.count
  sound := hinv.sound
  idle := fun hzero => ⟨rfl, (hinv.idle hzero).2⟩
  closed := fun _ _ => rfl
  owned := fun hpending _ hactive =>
    absurd (hidle hpending) (hinv.activeCount_ne_zero hactive)
  noOther := fun _ _ _ hsome => absurd rfl hsome

theorem card_activeSlots_add (slots : Nr → Slot) (nr : Nr) (slot : Slot)
    (hold : (slots nr).active = false) (hnew : slot.active = true) :
    (activeSlots (Function.update slots nr slot)).card = (activeSlots slots).card + 1 := by
  have hinsert : activeSlots (Function.update slots nr slot) = insert nr (activeSlots slots) := by
    ext other
    by_cases hsame : other = nr
    · subst hsame
      simp [activeSlots, hnew]
    · simp [activeSlots, hsame]
  rw [hinsert, Finset.card_insert_of_notMem]
  simp [activeSlots, hold]

theorem card_activeSlots_remove (slots : Nr → Slot) (nr : Nr) (slot : Slot)
    (hold : (slots nr).active = true) (hnew : slot.active = false) :
    (activeSlots (Function.update slots nr slot)).card = (activeSlots slots).card - 1 := by
  have herase : activeSlots (Function.update slots nr slot) = (activeSlots slots).erase nr := by
    ext other
    by_cases hsame : other = nr
    · subst hsame
      simp [activeSlots, hnew]
    · simp [activeSlots, hsame]
  rw [herase, Finset.card_erase_of_mem]
  simp [activeSlots, hold]

/-- A slot that is given back while others remain; `t` is what the destroy call has left. -/
theorem Inv.freed {t : State Level} (hinv : Inv levels s) (hactive : (s.slots nr).active = true)
    (hmany : s.activeCount ≠ 1) (hslots : t.slots = s.slots)
    (hclosed : t.connected = false → ∀ other, t.controllers other = none)
    (howned : t.pending = false → ∀ other, other ≠ nr → (s.slots other).active = true →
      t.connected = true ∧ ∃ controller, t.controllers other = some controller ∧
        controller.profile = (s.slots other).profile)
    (hother : t.pending = false → ∀ other, other = nr ∨ (s.slots other).active = false →
      t.controllers other ≠ none → t.destroyFailed other = true) (now : ℕ) :
    Inv levels { t.setSlot nr (.reset now) with activeCount := s.activeCount - 1 } where
  count := by
    simp only [State.setSlot, hslots]
    rw [card_activeSlots_remove s.slots nr (.reset now) hactive rfl, hinv.count]
  sound := fun other => by
    by_cases hsame : other = nr
    · subst hsame
      simpa [State.setSlot] using sound_reset levels now
    · simpa [State.setSlot, hsame, hslots] using hinv.sound other
  idle := fun hzero => by
    have hcount := hinv.activeCount_ne_zero hactive
    simp only at hzero
    omega
  closed := hclosed
  owned := fun hpending other hother => by
    by_cases hsame : other = nr
    · subst hsame
      simp [State.setSlot, Slot.reset] at hother
    · simp only [State.setSlot, hslots, Function.update_of_ne hsame] at hother ⊢
      exact howned hpending other hsame hother
  noOther := fun hpending other hinactive => by
    by_cases hsame : other = nr
    · exact hother hpending other (.inl hsame)
    · simp only [State.setSlot, hslots, Function.update_of_ne hsame] at hinactive
      exact hother hpending other (.inr hinactive)

/-- The last slot takes the connection with it. -/
theorem Inv.freedLast {t : State Level} (hinv : Inv levels s) (hactive : (s.slots nr).active = true)
    (hlast : s.activeCount = 1) (hslots : t.slots = s.slots) (now : ℕ) :
    Inv levels ({ t.setSlot nr (.reset now) with
      activeCount := s.activeCount - 1 } : State Level).close.resetRecovery := by
  have hnone : (activeSlots (Function.update s.slots nr (.reset now))).card = 0 := by
    rw [card_activeSlots_remove s.slots nr (.reset now) hactive rfl, ← hinv.count, hlast]
  exact {
    count := by
      simp only [State.resetRecovery, State.close, State.setSlot, hslots, hnone, hlast]
    sound := fun other => by
      by_cases hsame : other = nr
      · subst hsame
        simpa [State.setSlot, State.close, State.resetRecovery] using sound_reset levels now
      · simpa [State.setSlot, State.close, State.resetRecovery, hsame, hslots]
          using hinv.sound other
    idle := fun _ => ⟨rfl, rfl⟩
    closed := fun _ _ => rfl
    owned := fun _ other hother => by
      have hempty := Finset.card_eq_zero.mp hnone
      have hmem : other ∈ activeSlots (Function.update s.slots nr (.reset now)) :=
        Finset.mem_filter.mpr ⟨Finset.mem_univ other, hslots ▸ hother⟩
      simp [hempty] at hmem
    noOther := fun _ _ _ hsome => absurd rfl hsome }

theorem Inv.free (hinv : Inv levels s) (nr : Nr) (destroying : Reply) (now : ℕ) :
    Inv levels (free s nr destroying now) := by
  simp only [Vhf.free]
  split
  · next hactive =>
    by_cases hlast : s.activeCount = 1
    · rw [if_pos hlast]
      refine hinv.freedLast hactive hlast ?_ now
      split
      · rfl
      · cases destroying <;> rfl
    · rw [if_neg hlast]
      by_cases hpending : s.pending = true
      · rw [if_pos hpending]
        exact hinv.freed hactive hlast rfl hinv.closed
          (fun hfalse => by simp [hpending] at hfalse)
          (fun hfalse => by simp [hpending] at hfalse) now
      · rw [if_neg hpending]
        simp only [Bool.not_eq_true] at hpending
        cases destroying with
        | success =>
            rw [if_pos (rfl : Reply.success = Reply.success)]
            refine hinv.freed (t := s.submit .success (State.destroy nr)) hactive hlast rfl
              (fun hclosed other => ?_)
              (fun _ other hne hother => ?_) (fun _ other hwhich hsome => ?_) now
            · by_cases hsame : other = nr
              · subst hsame
                simp [State.submit, State.call, State.observe, State.destroy, State.setController]
              · simpa [State.submit, State.call, State.observe, State.destroy,
                  State.setController, hsame] using hinv.closed hclosed other
            · simpa [State.submit, State.call, State.observe, State.destroy,
                State.setController, hne] using hinv.owned hpending other hother
            · by_cases hsame : other = nr
              · subst hsame
                simp [State.submit, State.call, State.observe, State.destroy,
                  State.setController] at hsome
              · simp only [State.submit, State.call, State.observe, State.destroy,
                  State.setController, Function.update_of_ne hsame] at hsome ⊢
                exact hinv.noOther hpending other (hwhich.resolve_left hsame) hsome
        | failed =>
            rw [if_neg (by simp : Reply.failed ≠ Reply.success)]
            refine hinv.freed (t := { s with
                destroyFailed := Function.update s.destroyFailed nr true })
              hactive hlast rfl hinv.closed
              (fun _ other _ hother => hinv.owned hpending other hother)
              (fun _ other hwhich hsome => ?_) now
            by_cases hsame : other = nr
            · simp [hsame]
            · have hfailed := hinv.noOther hpending other (hwhich.resolve_left hsame) hsome
              simpa [hsame] using hfailed
        | removed survives =>
            have hremoved := hinv.removed (hinv.activeCount_ne_zero hactive) survives
            rw [if_neg (by simp : Reply.removed survives ≠ Reply.success)]
            exact hinv.freed (t := { s.lose survives with
                pending := true
                destroyFailed := Function.update s.destroyFailed nr true })
              hactive hlast rfl hremoved.closed
              (fun hfalse => by cases hfalse) (fun hfalse => by cases hfalse) now
  · exact hinv

/-- With a connection that is up, or was just made. -/
theorem Inv.connected (hinv : Inv levels s) (hpending : s.pending = false)
    (hcount : s.activeCount ≠ 0) : Inv levels { s with connected := true } where
  count := hinv.count
  sound := hinv.sound
  idle := fun hzero => absurd hzero hcount
  closed := fun hfalse => by cases hfalse
  owned := fun _ nr hactive => ⟨rfl, (hinv.owned hpending nr hactive).2⟩
  noOther := hinv.noOther

/-- Nobody owns anything. -/
theorem Inv.inactive (hinv : Inv levels s) (hzero : s.activeCount = 0) (nr : Nr) :
    (s.slots nr).active = false := by
  cases hactive : (s.slots nr).active with
  | false => rfl
  | true => exact absurd hzero (hinv.activeCount_ne_zero hactive)

theorem Inv.closeIdle (hinv : Inv levels s) (hzero : s.activeCount = 0) {t : State Level}
    (hslots : t.slots = s.slots) (hcount : t.activeCount = s.activeCount)
    (hpending : t.pending = false) : Inv levels t.close where
  count := by
    simp only [State.close, hslots, hcount]
    exact hinv.count
  sound := fun nr => by
    simp only [State.close, hslots]
    exact hinv.sound nr
  idle := fun _ => ⟨rfl, hpending⟩
  closed := fun _ _ => rfl
  owned := fun _ nr hactive => by
    simp only [State.close, hslots, hinv.inactive hzero nr] at hactive
    cases hactive
  noOther := fun _ _ _ hsome => absurd rfl hsome

/-- A controller of its own for a slot that was free. -/
theorem Inv.allocated (hinv : Inv levels s) (hpending : s.pending = false)
    (hfree : (s.slots nr).active = false) (profile : Profile) (now : ℕ) :
    Inv levels { (State.create levels nr profile { s with connected := true }).setSlot nr
        { Slot.reset now with active := true, profile } with
      activeCount := s.activeCount + 1 } where
  count := by
    rw [State.setSlot, State.create, State.setController]
    simp only
    rw [card_activeSlots_add s.slots nr _ hfree rfl, hinv.count]
  sound := fun other => by
    by_cases hsame : other = nr
    · subst hsame
      have hreset := sound_reset levels now
      simpa [State.setSlot, State.create, State.setController] using
        (⟨hreset.mapped, hreset.cached.input, hreset.cached.battery, hreset.cached.seed⟩ :
          ({ Slot.reset now with active := true, profile } : Slot).Sound levels)
    · simpa [State.setSlot, State.create, State.setController, hsame] using hinv.sound other
  idle := fun hzero => by simp at hzero
  closed := fun hfalse => by cases hfalse
  owned := fun _ other hother => by
    refine ⟨rfl, ?_⟩
    by_cases hsame : other = nr
    · subst hsame
      simp [State.setSlot, State.create, State.setController]
    · simp only [State.setSlot, State.create, State.setController,
        Function.update_of_ne hsame] at hother ⊢
      exact (hinv.owned hpending other hother).2
  noOther := fun _ other hother hsome => by
    by_cases hsame : other = nr
    · subst hsame
      simp [State.setSlot] at hother
    · simp only [State.setSlot, State.create, State.setController,
        Function.update_of_ne hsame] at hother hsome ⊢
      exact hinv.noOther hpending other hother hsome

theorem Inv.alloc (hinv : Inv levels s) (nr : Nr) (desired : Desired)
    (offers : Profile → Bool) (connecting creating : Reply) (now : ℕ) :
    Inv levels (alloc levels s nr desired offers connecting creating now).2 := by
  simp only [Vhf.alloc]
  split
  · exact hinv
  · next hfree =>
    simp only [Bool.or_eq_true, not_or, Bool.not_eq_true] at hfree
    obtain ⟨hpending, hinactive⟩ := hfree
    split
    · next hfails =>
      have hclosed : s.connected = false := by
        simp only [Bool.and_eq_true, Bool.not_eq_true'] at hfails
        exact hfails.1
      have hsame : s.connect connecting = s := by
        have hne : connecting ≠ .success := by
          simp only [Bool.and_eq_true, decide_eq_true_eq] at hfails
          exact hfails.2
        simp [State.connect, hne, ← hclosed]
      rw [hsame]
      exact hinv
    · split
      · next hnone =>
        split
        · next hzero => exact hinv.closeIdle hzero rfl rfl hpending
        · next hcount => exact hinv.connected hpending hcount
      · next profile hsome =>
        split
        · exact hinv.allocated hpending hinactive profile now
        · by_cases hzero : s.activeCount = 0
          · cases creating <;> simp only [hzero, if_true, State.call, id] <;>
              exact hinv.closeIdle hzero rfl (by simp [State.lose, hzero]) hpending
          · have hup := hinv.connected hpending hzero
            have hsubmitted := hup.submitId hzero creating
            cases creating <;> simpa [hzero, State.submit, State.call, State.observe,
              State.lose] using hsubmitted

end LuminalShine.Vhf
