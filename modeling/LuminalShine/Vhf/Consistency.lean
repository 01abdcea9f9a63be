import LuminalShine.Lib.Run
import LuminalShine.Vhf.Invariant

/-!
# Slots, caches and driver agree

The worker recreates the controllers after a removal, and every history keeps slots, caches and
driver in agreement.

## Main definitions

* `Consistent` — what is claimed of every state.

## Main results

* `Inv.attempt` — a recovery keeps the invariant, and one that succeeds has caught up.
* `gamepads_consistent` — every history keeps it.
-/

namespace LuminalShine.Vhf

open LuminalShine.Lib

variable {Level : Type} {levels : Levels Level} {s : State Level} {nr : Nr} {slot : Slot}

/-! ## What is claimed -/

/-- A controller has the latest input, and the battery of all reports. -/
structure Controller.Caught (levels : Levels Level) (controller : Controller Level)
    (slot : Slot) : Prop where
  input : ∀ report ∈ slot.inputs.getLast?, controller.input = some report
  battery : controller.battery = levels.replay slot.batteries

structure Consistent (levels : Levels Level) (s : State Level) : Prop where
  count : s.activeCount = (Finset.univ.filter fun nr => (s.slots nr).active = true).card
  separates : ∀ nr, (s.slots nr).active = true → (s.slots nr).Separates
  owned : s.connected = true → s.pending = false → ∀ nr, (s.slots nr).active = true →
    ∃ controller, s.controllers nr = some controller ∧ controller.profile = (s.slots nr).profile
  noOther : s.connected = true → s.pending = false → ∀ nr, (s.slots nr).active = false →
    s.controllers nr ≠ none → s.destroyFailed nr = true
  caught : s.recovered = true → ∀ nr, (s.slots nr).active = true →
    ∃ controller, s.controllers nr = some controller ∧ controller.Caught levels (s.slots nr)

/-! ## Recovery -/

/-- What no driver call of a recovery changes. -/
def State.owners (s : State Level) : (Nr → Slot) × ℕ × Bool × Bool × Bool :=
  (s.slots, s.activeCount, s.connected, s.pending, s.recovered)

theorem owners_call {f : State Level → State Level} (hf : ∀ s, (f s).owners = s.owners)
    (s : State Level) (reply : Reply) : (s.call reply f).owners = s.owners := by
  cases reply with
  | success => exact hf s
  | removed survives => rfl
  | failed => rfl

theorem owners_tryCall {f : State Level → State Level} (hf : ∀ s, (f s).owners = s.owners)
    (result : State Level × Bool) (reply : Reply) :
    (State.tryCall result reply f).1.owners = result.1.owners := by
  simp only [State.tryCall]
  split
  · exact owners_call hf result.1 reply
  · rfl

theorem tryCall_snd (result : State Level × Bool) (reply : Reply)
    (f : State Level → State Level) :
    (State.tryCall result reply f).2 = true ↔ result.2 = true ∧ reply = .success := by
  obtain ⟨before, ok⟩ := result
  cases ok <;> simp [State.tryCall]

@[simp]
theorem tryCall_success (s : State Level) (f : State Level → State Level) :
    State.tryCall (s, true) .success f = (f s, true) := rfl

variable (levels) in
theorem owners_recreate (s : State Level) (nr : Nr) (replies : AttemptReplies) :
    (recreate levels s nr replies).1.owners = s.owners := by
  have hcreate : ∀ profile (s : State Level),
      (State.create levels nr profile s).owners = s.owners := fun _ _ => rfl
  have hinput : ∀ report (s : State Level), (State.receiveInput nr report s).owners = s.owners :=
    fun _ _ => rfl
  have hbattery : ∀ report (s : State Level),
      (State.receiveBattery levels nr report s).owners = s.owners := fun _ _ => rfl
  simp only [recreate]
  cases (s.slots nr).lastInput <;> cases (s.slots nr).batteryLevelSeed <;>
    cases (s.slots nr).lastBattery <;>
    simp [owners_tryCall, hcreate, hinput, hbattery]

/-- The controller that a recovery makes for a slot. -/
def recreated (levels : Levels Level) (slot : Slot) : Controller Level :=
  ⟨slot.profile, slot.lastInput, levels.replay slot.cachedBatteries⟩

variable (levels) in
theorem recreate_controllers (s : State Level) (nr : Nr) (replies : AttemptReplies)
    (h : (recreate levels s nr replies).2 = true) :
    (recreate levels s nr replies).1.controllers =
      Function.update s.controllers nr (some (recreated levels (s.slots nr))) := by
  simp only [recreate] at h ⊢
  cases hinput : (s.slots nr).lastInput <;> cases hseed : (s.slots nr).batteryLevelSeed <;>
    cases hlast : (s.slots nr).lastBattery <;>
    simp only [hinput, hseed, hlast, tryCall_snd, true_and] at h ⊢ <;>
    simp [h, recreated, Slot.cachedBatteries, Levels.replay, State.create, State.receiveInput,
      State.receiveBattery, State.setController, hinput, hseed, hlast]

variable (levels) in
theorem owners_recreateAll (replies : AttemptReplies) (nrs : List Nr) (s : State Level) :
    (recreateAll levels replies nrs s).1.owners = s.owners := by
  induction nrs generalizing s with
  | nil => rfl
  | cons nr nrs ih =>
      have hrecreate := owners_recreate levels s nr replies
      simp only [recreateAll]
      split
      · split
        · next t heq =>
          rw [ih, ← hrecreate, heq]
        · next t heq =>
          rw [← hrecreate, heq]
      · exact ih s

theorem slots_of_owners {t : State Level} (h : t.owners = s.owners) : t.slots = s.slots :=
  congrArg Prod.fst h

variable (levels) in
/-- A pass that succeeds has made a controller for each active slot it has gone over. -/
theorem recreateAll_controllers (replies : AttemptReplies) (nrs : List Nr) (hnodup : nrs.Nodup)
    (s : State Level) (h : (recreateAll levels replies nrs s).2 = true) (nr : Nr) :
    (recreateAll levels replies nrs s).1.controllers nr =
      if nr ∈ nrs ∧ (s.slots nr).active = true then some (recreated levels (s.slots nr))
      else s.controllers nr := by
  induction nrs generalizing s with
  | nil => simp [recreateAll]
  | cons first nrs ih =>
      have hnotMem : first ∉ nrs := (List.nodup_cons.mp hnodup).1
      have hrest := ih (List.nodup_cons.mp hnodup).2
      by_cases hactive : (s.slots first).active = true
      · simp only [recreateAll, hactive, if_true] at h ⊢
        split at h
        · next t heq =>
          have hslots : t.slots = s.slots :=
            slots_of_owners (by rw [← owners_recreate levels s first replies, heq])
          have hcontrollers := recreate_controllers levels s first replies (by rw [heq])
          rw [heq] at hcontrollers
          simp only at hcontrollers
          rw [hrest t h, hslots, hcontrollers]
          by_cases hsame : nr = first
          · subst hsame
            simp [hnotMem, hactive]
          · simp [hsame]
        · cases h
      · simp only [recreateAll, if_neg hactive] at h ⊢
        rw [hrest s h]
        by_cases hsame : nr = first
        · subst hsame
          simp [hactive]
        · simp [hsame]

/-- A slot that forgets its device keeps what the client has sent. -/
theorem Slot.Sound.resetTransient (h : slot.Sound levels) (now : ℕ) :
    (slot.resetTransient now).Sound levels where
  mapped := .none
  cached := ⟨h.cached.input, h.cached.battery, h.cached.seed⟩

@[simp]
theorem active_beginAttempt (s : State Level) (now : ℕ) (nr : Nr) :
    ((s.beginAttempt now).slots nr).active = (s.slots nr).active := by
  cases hactive : (s.slots nr).active <;>
    simp [State.beginAttempt, hactive, Slot.resetTransient]

theorem activeSlots_beginAttempt (s : State Level) (now : ℕ) :
    activeSlots (s.beginAttempt now).slots = activeSlots s.slots := by
  simp [activeSlots]

theorem sound_beginAttempt (hinv : Inv levels s) (now : ℕ) (nr : Nr) :
    ((s.beginAttempt now).slots nr).Sound levels := by
  simp only [State.beginAttempt]
  split
  · exact (hinv.sound nr).resetTransient now
  · exact hinv.sound nr

/-- An attempt that fails leaves the recovery pending, and nothing behind. -/
theorem Inv.attemptFailed (hinv : Inv levels s) (hpending : s.pending = true) (now : ℕ)
    {t : State Level} (hslots : t.slots = (s.beginAttempt now).slots)
    (hcount : t.activeCount = s.activeCount) (hstill : t.pending = true) :
    Inv levels t.close where
  count := by
    simp only [State.close, hslots, hcount, activeSlots_beginAttempt]
    exact hinv.count
  sound := fun nr => by
    simp only [State.close, hslots]
    exact sound_beginAttempt hinv now nr
  idle := fun hzero => by
    have hnot := (hinv.idle (hcount ▸ hzero)).2
    simp [hpending] at hnot
  closed := fun _ _ => rfl
  owned := fun hfalse => by simp [State.close, hstill] at hfalse
  noOther := fun hfalse => by simp [State.close, hstill] at hfalse

/-- An attempt that succeeds has made a controller for every active slot, and no other. -/
theorem Inv.attemptSucceeded (hinv : Inv levels s) (hpending : s.pending = true) (now : ℕ)
    {t : State Level} (hslots : t.slots = (s.beginAttempt now).slots)
    (hcount : t.activeCount = s.activeCount) (hconnected : t.connected = true)
    (hcontrollers : ∀ nr, t.controllers nr =
      if (t.slots nr).active = true then some (recreated levels (t.slots nr)) else none) :
    Inv levels { t.resetRecovery with recovered := true } where
  count := by
    simp only [State.resetRecovery, hslots, hcount, activeSlots_beginAttempt]
    exact hinv.count
  sound := fun nr => by
    simp only [State.resetRecovery, hslots]
    exact sound_beginAttempt hinv now nr
  idle := fun hzero => by
    have hnot := (hinv.idle (hcount ▸ hzero)).2
    simp [hpending] at hnot
  closed := fun hfalse => by simp [State.resetRecovery, hconnected] at hfalse
  owned := fun _ nr hactive =>
    ⟨hconnected, recreated levels (t.slots nr), (hcontrollers nr).trans (if_pos hactive), rfl⟩
  noOther := fun _ nr hinactive hsome => by
    refine absurd ((hcontrollers nr).trans (if_neg ?_)) hsome
    simpa [State.resetRecovery] using hinactive

/-- A recreated controller has caught up with the client. -/
theorem Slot.Cached.caught (h : slot.Cached levels) :
    (recreated levels slot).Caught levels slot where
  input := fun report hreport => by
    rw [recreated, h.input]
    exact hreport
  battery := h.battery

variable (levels) in
/-- What a recovery that has just succeeded leaves. -/
def CaughtUp (s : State Level) : Prop :=
  s.recovered = true → ∀ nr, (s.slots nr).active = true →
    ∃ controller, s.controllers nr = some controller ∧ controller.Caught levels (s.slots nr)

theorem caughtUp_of_not_recovered (h : s.recovered = false) : CaughtUp levels s :=
  fun hfalse => by simp [h] at hfalse

theorem Inv.attempt (hinv : Inv levels s) (hnot : s.recovered = false) (replies : AttemptReplies)
    (now : ℕ) :
    Inv levels (attempt levels s replies now) ∧ CaughtUp levels (attempt levels s replies now) := by
  simp only [Vhf.attempt]
  split
  · exact ⟨hinv, caughtUp_of_not_recovered hnot⟩
  · next hdue =>
    have hpending : s.pending = true := by
      simp only [Bool.or_eq_true, not_or, Bool.not_eq_true'] at hdue
      simpa using hdue.1
    split
    · next hconnecting =>
      have howners := owners_recreateAll levels replies (List.finRange maxGamepads)
        ((s.beginAttempt now).connect replies.connecting)
      have hcontrollers := recreateAll_controllers levels replies
        (List.finRange maxGamepads) (List.nodup_finRange maxGamepads)
        ((s.beginAttempt now).connect replies.connecting)
      split
      · next t heq =>
        rw [heq] at howners hcontrollers
        have hslots : t.slots = (s.beginAttempt now).slots :=
          slots_of_owners (s := (s.beginAttempt now).connect replies.connecting) howners
        have hrecreated : ∀ nr, t.controllers nr =
            if (t.slots nr).active = true then some (recreated levels (t.slots nr)) else none := by
          intro nr
          rw [hcontrollers rfl nr, hslots]
          by_cases hactive : ((s.beginAttempt now).slots nr).active = true
          · rw [if_pos hactive]
            exact if_pos ⟨List.mem_finRange nr, hactive⟩
          · rw [if_neg hactive]
            exact if_neg fun hboth => hactive hboth.2
        have hafter := hinv.attemptSucceeded hpending now hslots
          (congrArg (fun owners => owners.2.1) howners)
          ((congrArg (fun owners => owners.2.2.1) howners).trans (by
            simp [State.owners, State.connect, hconnecting])) hrecreated
        refine ⟨hafter, fun _ nr hactive => ?_⟩
        exact ⟨_, (hrecreated nr).trans (if_pos hactive), (hafter.sound nr).cached.caught⟩
      · next t heq =>
        rw [heq] at howners
        exact ⟨hinv.attemptFailed hpending now
            (slots_of_owners (s := (s.beginAttempt now).connect replies.connecting) howners)
            (congrArg (fun owners => owners.2.1) howners)
            ((congrArg (fun owners => owners.2.2.2.1) howners).trans hpending),
          caughtUp_of_not_recovered
            ((congrArg (fun owners => owners.2.2.2.2) howners).trans hnot)⟩
    · exact ⟨hinv.attemptFailed hpending now rfl rfl hpending, caughtUp_of_not_recovered hnot⟩

/-! ## The worker -/

theorem Inv.unlessPending (hinv : Inv levels s) {f : State Level → State Level}
    (hf : Inv levels (f s)) : Inv levels (s.unlessPending f) := by
  simp only [State.unlessPending]
  split
  · exact hinv
  · exact hf

/-- A call to the driver that changes nothing there keeps the slots. -/
@[simp]
theorem slots_submit_id (s : State Level) (reply : Reply) :
    (s.submit reply id).slots = s.slots := by
  cases reply <;> rfl

@[simp]
theorem activeCount_submit_id (s : State Level) (reply : Reply) :
    (s.submit reply id).activeCount = s.activeCount := by
  cases reply <;> rfl

@[simp]
theorem slots_receiveInput (nr : Nr) (report : InputReport) (s : State Level) (reply : Reply) :
    (s.submit reply (State.receiveInput nr report)).slots = s.slots := by
  cases reply <;> rfl

theorem Inv.maintain (hinv : Inv levels s) (hactive : (s.slots nr).active = true)
    (replies : SlotReplies) (now : ℕ) : Inv levels (maintain s nr replies now) := by
  have hcount := hinv.activeCount_ne_zero hactive
  have hset := hinv.setMaintenance nr ((s.slots nr).maintenance.poll now)
  have hcleared := hset.submitId hcount replies.zeroGyro
  simp only [Vhf.maintain]
  split
  · cases hclear : (s.slots nr).maintenance.clearGyro now <;>
      cases halive : (s.slots nr).maintenance.keepalive now
    case isTrue.false.false => exact hset
    case isTrue.true.false => exact hcleared
    case isTrue.false.true =>
      exact hset.unlessPending (f := fun s => s.submit replies.keepalive _)
        (hset.submit hcount fun _ => hset.receiveInput nr _)
    case isTrue.true.true =>
      refine hcleared.unlessPending (f := fun s => s.submit replies.keepalive _)
        (hcleared.submit ?_ fun _ => hcleared.receiveInput nr _)
      rw [activeCount_submit_id]
      exact hcount
  · exact hinv

theorem active_maintain (s : State Level) (nr : Nr) (replies : SlotReplies) (now : ℕ) :
    ((maintain s nr replies now).slots nr).active = (s.slots nr).active := by
  simp only [Vhf.maintain, State.unlessPending]
  split
  · cases (s.slots nr).maintenance.clearGyro now <;>
      cases (s.slots nr).maintenance.keepalive now <;>
      simp [State.setSlot] <;> split <;> simp
  · rfl

theorem Inv.pollAll (hinv : Inv levels s) (replies : Nr → SlotReplies) (now : ℕ)
    (nrs : List Nr) : Inv levels (pollAll replies now nrs s) := by
  induction nrs generalizing s with
  | nil => exact hinv
  | cons nr nrs ih =>
      simp only [Vhf.pollAll]
      split
      · exact hinv
      · split
        · next hactive =>
          have hmaintained := hinv.maintain hactive (replies nr) now
          refine ih ?_
          simp only [State.unlessPending]
          split
          · exact hmaintained
          · have hstill : ((Vhf.maintain s nr (replies nr) now).slots nr).active = true := by
              rw [active_maintain]
              exact hactive
            exact hmaintained.submitId (hmaintained.activeCount_ne_zero hstill) (replies nr).poll
        · exact ih hinv

/-- Without a slot there is nothing to recover. -/
theorem Inv.resetRecovery (hinv : Inv levels s) (hzero : s.activeCount = 0) :
    Inv levels s.resetRecovery where
  count := hinv.count
  sound := hinv.sound
  idle := fun _ => ⟨(hinv.idle hzero).1, rfl⟩
  closed := hinv.closed
  owned := fun _ => hinv.owned (hinv.idle hzero).2
  noOther := fun _ => hinv.noOther (hinv.idle hzero).2

/-! ## Only a recovery is a recovery -/

theorem recovered_submit {f : State Level → State Level} (hf : ∀ s, (f s).recovered = s.recovered)
    (s : State Level) (reply : Reply) : (s.submit reply f).recovered = s.recovered := by
  cases reply with
  | success => exact hf s
  | removed survives => rfl
  | failed => rfl

theorem recovered_alloc (nr : Nr) (desired : Desired) (offers : Profile → Bool)
    (connecting creating : Reply) (now : ℕ) :
    (alloc levels s nr desired offers connecting creating now).2.recovered = s.recovered := by
  have hgiveUp : ∀ t : State Level,
      (if t.activeCount = 0 then t.close else t).recovered = t.recovered := fun t => by
    split <;> rfl
  simp only [alloc]
  split
  · rfl
  · split
    · rfl
    · split
      · exact hgiveUp { s with connected := true }
      · split
        · rfl
        · exact (hgiveUp _).trans (by split <;> cases creating <;> rfl)

theorem recovered_free (nr : Nr) (destroying : Reply) (now : ℕ) :
    (free s nr destroying now).recovered = s.recovered := by
  simp only [free]
  split
  · cases destroying <;> split <;> split <;> rfl
  · rfl

theorem recovered_touch (nr : Nr) (pointerId : UInt32) (event : TouchEvent) (reply : Reply) :
    (touch s nr pointerId event reply).recovered = s.recovered := by
  simp only [touch]
  split
  · split
    · rfl
    · exact recovered_submit (fun _ => rfl) _ reply
  · rfl

theorem recovered_motion (nr : Nr) (gyro : Option Bool) (reply : Reply) (now : ℕ) :
    (motion s nr gyro reply now).recovered = s.recovered := by
  simp only [motion]
  split
  · split
    · rfl
    · exact recovered_submit (fun _ => rfl) s reply
    · exact recovered_submit (fun _ => rfl) _ reply
  · rfl

theorem recovered_battery (nr : Nr) (percent flags : UInt8) (reply : Reply) :
    (battery levels s nr percent flags reply).recovered = s.recovered := by
  simp only [battery]
  split
  · split
    · rfl
    · exact recovered_submit (f := State.receiveBattery levels nr _) (fun _ => rfl) _ reply
  · rfl

theorem recovered_update (nr : Nr) (state : NormalizedState) (backAsTouchpad : Bool)
    (reply : Reply) (now : ℕ) :
    (update s nr state backAsTouchpad reply now).recovered = s.recovered := by
  simp only [update]
  split
  · split
    · rfl
    · exact recovered_submit (f := State.receiveInput nr _) (fun _ => rfl) _ reply
  · rfl

theorem recovered_maintain (nr : Nr) (replies : SlotReplies) (now : ℕ) :
    (maintain s nr replies now).recovered = s.recovered := by
  have hid : ∀ (s : State Level) reply, (s.submit reply id).recovered = s.recovered :=
    recovered_submit fun _ => rfl
  have hinput : ∀ report (s : State Level) reply,
      (s.submit reply (State.receiveInput nr report)).recovered = s.recovered :=
    fun _ => recovered_submit fun _ => rfl
  simp only [maintain, State.unlessPending]
  split
  · split <;> split <;> (try split) <;> simp [hid, hinput, State.setSlot]
  · rfl

theorem recovered_pollAll (replies : Nr → SlotReplies) (now : ℕ) (nrs : List Nr)
    (s : State Level) : (pollAll replies now nrs s).recovered = s.recovered := by
  induction nrs generalizing s with
  | nil => rfl
  | cons nr nrs ih =>
      have hid : ∀ (s : State Level) reply, (s.submit reply id).recovered = s.recovered :=
        recovered_submit fun _ => rfl
      simp only [pollAll, State.unlessPending]
      split
      · rfl
      · split
        · rw [ih]
          split <;> simp [hid, recovered_maintain]
        · exact ih s

theorem Inv.feedbackRound (hinv : Inv levels s) (hnot : s.recovered = false)
    (sawPending gate : Bool) (recovery : AttemptReplies) (replies : Nr → SlotReplies) (now : ℕ) :
    Inv levels (feedbackRound levels s sawPending gate recovery replies now) ∧
      CaughtUp levels (feedbackRound levels s sawPending gate recovery replies now) := by
  simp only [Vhf.feedbackRound]
  split
  · split
    · split
      · next hzero => exact ⟨hinv.resetRecovery hzero, caughtUp_of_not_recovered hnot⟩
      · exact hinv.attempt hnot recovery now
    · exact ⟨hinv, caughtUp_of_not_recovered hnot⟩
  · split
    · exact ⟨hinv.pollAll replies now _,
        caughtUp_of_not_recovered ((recovered_pollAll replies now _ s).trans hnot)⟩
    · exact ⟨hinv, caughtUp_of_not_recovered hnot⟩

/-! ## Histories -/

theorem Inv.perform (hinv : Inv levels s) (hnot : s.recovered = false) (label : Label) :
    Inv levels (s.perform levels label) ∧ CaughtUp levels (s.perform levels label) := by
  cases label with
  | alloc nr desired offers connecting creating now =>
      exact ⟨hinv.alloc nr desired offers connecting creating now,
        caughtUp_of_not_recovered ((recovered_alloc nr desired offers _ _ now).trans hnot)⟩
  | free nr destroying now =>
      exact ⟨hinv.free nr destroying now,
        caughtUp_of_not_recovered ((recovered_free nr destroying now).trans hnot)⟩
  | touch nr pointerId event reply =>
      exact ⟨hinv.touch nr pointerId event reply,
        caughtUp_of_not_recovered ((recovered_touch nr pointerId event reply).trans hnot)⟩
  | motion nr gyro reply now =>
      exact ⟨hinv.motion nr gyro reply now,
        caughtUp_of_not_recovered ((recovered_motion nr gyro reply now).trans hnot)⟩
  | battery nr percent flags reply =>
      exact ⟨hinv.battery nr percent flags reply,
        caughtUp_of_not_recovered ((recovered_battery nr percent flags reply).trans hnot)⟩
  | update nr state backAsTouchpad reply now =>
      exact ⟨hinv.update nr state backAsTouchpad reply now,
        caughtUp_of_not_recovered ((recovered_update nr state _ reply now).trans hnot)⟩
  | feedbackRound sawPending gate recovery replies now =>
      exact hinv.feedbackRound hnot sawPending gate recovery replies now

/-- The ghost flag of the last step is not part of the invariant. -/
theorem Inv.forgetRecovered (hinv : Inv levels s) : Inv levels { s with recovered := false } :=
  ⟨hinv.count, hinv.sound, hinv.idle, hinv.closed, hinv.owned, hinv.noOther⟩

theorem inv_step {t : State Level} (hinv : Inv levels s) {label : Label}
    (hstep : step levels s label = some t) : Inv levels t ∧ CaughtUp levels t := by
  simp only [step, Option.some.injEq] at hstep
  subst hstep
  exact hinv.forgetRecovered.perform rfl label

theorem Inv.consistent (hinv : Inv levels s) (hcaught : CaughtUp levels s) :
    Consistent levels s where
  count := hinv.count
  separates := fun nr _ => (hinv.sound nr).mapped.separates
  owned := fun _ hpending nr hactive => (hinv.owned hpending nr hactive).2
  noOther := fun _ hpending => hinv.noOther hpending
  caught := hcaught

/-- Every call is defined, whatever the driver returns. -/
theorem run_defined (levels : Levels Level) (labels : List Label) (s : State Level) :
    ∃ t, run (step levels) s labels = some t := by
  induction labels generalizing s with
  | nil => exact ⟨s, rfl⟩
  | cons label labels ih => exact ih _

/-- Slots, caches and driver agree after every history. -/
theorem gamepads_consistent (levels : Levels Level) (labels : List Label) :
    ∃ s, run (step levels) State.initial labels = some s ∧ Consistent levels s := by
  obtain ⟨s, hrun⟩ := run_defined levels labels State.initial
  have hinv : Inv levels s ∧ CaughtUp levels s :=
    run_invariant (P := fun s => Inv levels s ∧ CaughtUp levels s)
      (fun _ _ _ h hstep => inv_step h.1 hstep)
      ⟨inv_initial, caughtUp_of_not_recovered rfl⟩ hrun
  exact ⟨s, hrun, hinv.1.consistent hinv.2⟩

end LuminalShine.Vhf
