import Mathlib.Data.Fintype.Basic
import Mathlib.Data.List.FinRange
import Mathlib.Logic.Function.Basic

/-!
# Virtual gamepads in the VHF driver

`src/platform/windows/vhf_gamepad.cpp` with its recovery, maintenance and policy headers: slots
that own a controller in the driver each, reports that are cached in the slot, and the worker
that recreates the controllers after the device was removed.  Every function takes the lifetime
lock, so a call and a round of the worker are one step each.  What the driver returns is an
input; a removed device may keep any of its controllers.

## Main definitions

* `Slot`, `State` — `slot_t`, and `impl_t` with the driver's controllers.
* `alloc`, `free`, `touch`, `motion`, `battery`, `update`, `feedbackRound` — the functions.
* `attempt` — the recovery.
* `Label`, `step` — histories.
-/

namespace LuminalShine.Vhf

/-- `MAX_GAMEPADS`. -/
def maxGamepads : ℕ := 16

abbrev Nr := Fin maxGamepads

/-! ## Profiles -/

inductive Profile where
  | xboxSeries
  | xboxOne
  | dualsense
  | dualshock4
  | switchPro
  deriving DecidableEq, Repr

/-- `vhf_profile_e`; `none` is `automatic`. -/
abbrev Desired := Option Profile

/-- `select_automatic_profile`, from the profiles that the driver offers. -/
def selectAutomaticProfile (offers : Profile → Bool) : Option Profile :=
  [.xboxSeries, .dualsense, .dualshock4].find? offers

/-- `select_profile`. -/
def selectProfile (offers : Profile → Bool) : Desired → Option Profile
  | some profile => if offers profile then some profile else none
  | none => selectAutomaticProfile offers

def isPlaystation (profile : Profile) : Bool := profile = .dualshock4 || profile = .dualsense

def hasMotion (profile : Profile) : Bool := isPlaystation profile || profile = .switchPro

/-! ## Reports -/

/-- `normalized_state_t`. -/
structure NormalizedState where
  buttonFlags : UInt32 := 0
  leftTrigger : UInt8 := 0
  rightTrigger : UInt8 := 0
  leftX : Int16 := 0
  leftY : Int16 := 0
  rightX : Int16 := 0
  rightY : Int16 := 0
  deriving DecidableEq

/-- `input_state_request` without its header. -/
structure InputReport where
  controllerId : Nr
  buttons : UInt32
  leftTrigger : UInt8
  rightTrigger : UInt8
  leftX : Int16
  leftY : Int16
  rightX : Int16
  rightY : Int16
  deriving DecidableEq

def back : UInt32 := 0x20

def touchpadButton : UInt32 := 0x100000

/-- The 22 lowest bits but `0x800`. -/
def supportedButtonMask : UInt32 := 0x3FF7FF

def makeInputState (nr : Nr) (state : NormalizedState) : InputReport :=
  { state with
    controllerId := nr
    buttons := state.buttonFlags &&& supportedButtonMask }

/-- `battery_state_request` without its header. -/
structure BatteryReport where
  controllerId : Nr
  percent : UInt8
  flags : UInt8
  deriving DecidableEq

/-- The touch events of the protocol; a client event without a mapping is `cancelAll`. -/
inductive TouchEvent where
  | hover
  | down
  | up
  | move
  | cancel
  | cancelAll
  deriving DecidableEq, Repr

/-! ## Maintenance of a DualShock 4 -/

/-- `ds4_maintenance_t`, in milliseconds. -/
structure Maintenance where
  lastReport : ℕ := 0
  lastGyro : ℕ := 0
  lastRequest : ℕ := 0
  gyroCleared : Bool := false
  deriving DecidableEq, Repr

namespace Maintenance

def reset (now : ℕ) : Maintenance :=
  { lastReport := now, lastGyro := now, lastRequest := now }

def reportSent (m : Maintenance) (now : ℕ) : Maintenance := { m with lastReport := now }

def gyroReceived (m : Maintenance) (now : ℕ) : Maintenance :=
  { m with lastGyro := now, gyroCleared := false }

def keepalive (m : Maintenance) (now : ℕ) : Bool := 100 ≤ now - m.lastReport

def clearGyro (m : Maintenance) (now : ℕ) : Bool := !m.gyroCleared && 750 < now - m.lastGyro

def requestMotion (m : Maintenance) (now : ℕ) : Bool :=
  2000 < now - m.lastGyro && 5000 < now - m.lastRequest

/-- What `poll` leaves. -/
def poll (m : Maintenance) (now : ℕ) : Maintenance where
  lastReport := if m.keepalive now then now else m.lastReport
  lastGyro := m.lastGyro
  lastRequest := if m.requestMotion now then now else m.lastRequest
  gyroCleared := m.gyroCleared || m.clearGyro now

end Maintenance

/-! ## Slots -/

/-- `slot_t`.  `inputs` and `batteries` are history: the reports made of the client's events
since the allocation. -/
structure Slot where
  active : Bool := false
  profile : Profile := .xboxSeries
  maintenance : Maintenance := {}
  lastInput : Option InputReport := none
  lastBattery : Option BatteryReport := none
  batteryLevelSeed : Option BatteryReport := none
  contactOfPointer : List (UInt32 × ℕ) := []
  freeContacts : BitVec 8 := 0x3
  submitFailed : Bool := false
  inputs : List InputReport := []
  batteries : List BatteryReport := []
  deriving DecidableEq

namespace Slot

def reset (now : ℕ) : Slot := { maintenance := .reset now }

/-- What a recovery forgets of the device that was removed. -/
def resetTransient (slot : Slot) (now : ℕ) : Slot :=
  { slot with
    contactOfPointer := []
    freeContacts := 0x3
    submitFailed := false
    maintenance := .reset now }

/-- The contact of a touch event, unless the event is dropped, and the mapping behind it. -/
def contact (slot : Slot) (pointerId : UInt32) : TouchEvent → Option ℕ × Slot
  | .cancelAll => (some 0, { slot with contactOfPointer := [], freeContacts := 0x3 })
  | .down =>
      match slot.contactOfPointer.lookup pointerId with
      | some contact => (some contact, slot)
      | none =>
          if slot.freeContacts &&& 0x1 ≠ 0 then
            (some 0, { slot with
              freeContacts := slot.freeContacts &&& ~~~0x1
              contactOfPointer := (pointerId, 0) :: slot.contactOfPointer })
          else if slot.freeContacts &&& 0x2 ≠ 0 then
            (some 1, { slot with
              freeContacts := slot.freeContacts &&& ~~~0x2
              contactOfPointer := (pointerId, 1) :: slot.contactOfPointer })
          else (none, slot)
  | .up | .cancel =>
      match slot.contactOfPointer.lookup pointerId with
      | some contact =>
          (some contact, { slot with
            freeContacts := slot.freeContacts ||| (1#8 <<< contact)
            contactOfPointer := slot.contactOfPointer.filter fun entry => entry.1 ≠ pointerId })
      | none => (none, slot)
  | .hover | .move => (slot.contactOfPointer.lookup pointerId, slot)

/-- The battery caches behind a new report. -/
def keepBattery (slot : Slot) (report : BatteryReport) : Slot :=
  { slot with
    batteryLevelSeed :=
      if report.percent ≤ 100 then none
      else match slot.lastBattery with
        | some last => if last.percent ≤ 100 then some last else slot.batteryLevelSeed
        | none => slot.batteryLevelSeed
    lastBattery := some report
    batteries := slot.batteries ++ [report] }

def keepInput (slot : Slot) (report : InputReport) : Slot :=
  { slot with lastInput := some report, inputs := slot.inputs ++ [report] }

end Slot

/-! ## The driver -/

/-- How the driver makes a battery level of a percentage and the flags it came with, and the
battery of a new controller. -/
structure Levels (Level : Type) where
  quantize : UInt8 → UInt8 → Level
  fresh : Level × UInt8

variable {Level : Type} (levels : Levels Level)

/-- A percentage above 100 keeps the level. -/
def Levels.receive (battery : Level × UInt8) (report : BatteryReport) : Level × UInt8 :=
  (if report.percent ≤ 100 then levels.quantize report.percent report.flags else battery.1,
    report.flags)

structure Controller (Level : Type) where
  profile : Profile
  input : Option InputReport
  battery : Level × UInt8

abbrev Controllers (Level : Type) := Nr → Option (Controller Level)

/-- What a driver call returns.  `removed` is `ERROR_DEVICE_REMOVED`, with the controllers that
survive; `failed` is any other error. -/
inductive Reply where
  | success
  | removed (survives : Nr → Bool)
  | failed
  deriving DecidableEq

/-- `impl_t` and the driver.  `destroyFailed` and `recovered` are history: controllers whose
destroy call failed, and whether the last step was a recovery that succeeded. -/
structure State (Level : Type) where
  connected : Bool
  controllers : Controllers Level
  pending : Bool
  retryAt : ℕ
  slots : Nr → Slot
  activeCount : ℕ
  destroyFailed : Nr → Bool
  recovered : Bool

namespace State

def initial : State Level :=
  ⟨false, fun _ => none, false, 0, fun _ => {}, 0, fun _ => false, false⟩

variable (s : State Level)

/-- Closing the control handle releases every controller of the process. -/
def close : State Level :=
  { s with connected := false, controllers := fun _ => none, destroyFailed := fun _ => false }

def setSlot (nr : Nr) (slot : Slot) : State Level :=
  { s with slots := Function.update s.slots nr slot }

def setController (nr : Nr) (controller : Option (Controller Level)) : State Level :=
  { s with controllers := Function.update s.controllers nr controller }

/-- What a removal leaves in the driver. -/
def lose (survives : Nr → Bool) : State Level :=
  { s with controllers := fun nr => if survives nr then s.controllers nr else none }

/-- A driver call that does `f` if it succeeds. -/
def call (reply : Reply) (f : State Level → State Level) : State Level :=
  match reply with
  | .success => f s
  | .removed survives => s.lose survives
  | .failed => s

/-- `observe_status`. -/
def observe (reply : Reply) : State Level :=
  match reply with
  | .removed _ => { s with pending := true }
  | .success | .failed => s

/-- A driver call whose status is observed. -/
def submit (reply : Reply) (f : State Level → State Level) : State Level :=
  (s.call reply f).observe reply

/-- `client::connect`. -/
def connect (reply : Reply) : State Level := { s with connected := reply = .success }

/-- `create_controller`. -/
def create (nr : Nr) (profile : Profile) (s : State Level) : State Level :=
  { s.setController nr (some ⟨profile, none, levels.fresh⟩) with
    destroyFailed := Function.update s.destroyFailed nr false }

/-- `submit_input_state`. -/
def receiveInput (nr : Nr) (report : InputReport) (s : State Level) : State Level :=
  s.setController nr ((s.controllers nr).map fun controller =>
    { controller with input := some report })

/-- `submit_battery_state`. -/
def receiveBattery (nr : Nr) (report : BatteryReport) (s : State Level) : State Level :=
  s.setController nr ((s.controllers nr).map fun controller =>
    { controller with battery := levels.receive controller.battery report })

/-- `destroy_controller`. -/
def destroy (nr : Nr) (s : State Level) : State Level :=
  { s.setController nr none with
    destroyFailed := Function.update s.destroyFailed nr false }

/-- `connection_recovery_t::reset`. -/
def resetRecovery : State Level := { s with pending := false, retryAt := 0 }

end State

/-! ## The functions -/

/-- `alloc`: whether it returns 0, and what it leaves. -/
def alloc (s : State Level) (nr : Nr) (desired : Desired) (offers : Profile → Bool)
    (connecting creating : Reply) (now : ℕ) : Bool × State Level :=
  if s.pending || (s.slots nr).active then (false, s)
  else if !s.connected && connecting ≠ .success then (false, s.connect connecting)
  else
    let s := { s with connected := true }
    -- without an owner the connection is given up again
    let giveUp (s : State Level) := if s.activeCount = 0 then s.close else s
    match selectProfile offers desired with
    | none => (false, giveUp s)
    | some profile =>
        if creating = .success then
          (true, { (State.create levels nr profile s).setSlot nr
              { Slot.reset now with active := true, profile } with
            activeCount := s.activeCount + 1 })
        else
          let failed := s.call creating id
          (false, giveUp (if s.activeCount = 0 then failed else failed.observe creating))

/-- `free`. -/
def free (s : State Level) (nr : Nr) (destroying : Reply) (now : ℕ) : State Level :=
  if (s.slots nr).active then
    let destroyed :=
      if s.pending then s
      else
        let s' := s.submit destroying (State.destroy nr)
        if destroying = .success then s'
        else { s' with destroyFailed := Function.update s'.destroyFailed nr true }
    let freed := { destroyed.setSlot nr (.reset now) with activeCount := s.activeCount - 1 }
    if s.activeCount = 1 then freed.close.resetRecovery else freed
  else s

/-- `touch`. -/
def touch (s : State Level) (nr : Nr) (pointerId : UInt32) (event : TouchEvent)
    (reply : Reply) : State Level :=
  let slot := s.slots nr
  if slot.active && !s.pending && isPlaystation slot.profile then
    match slot.contact pointerId event with
    | (none, slot) => s.setSlot nr slot
    | (some _, slot) =>
        (s.setSlot nr { slot with
          submitFailed := slot.submitFailed || reply ≠ .success }).submit reply id
  else s

/-- `motion`; `gyro` is `none` for a kind that the protocol does not know. -/
def motion (s : State Level) (nr : Nr) (gyro : Option Bool) (reply : Reply) (now : ℕ) :
    State Level :=
  let slot := s.slots nr
  if slot.active && !s.pending && hasMotion slot.profile then
    match gyro with
    | none => s
    | some false => s.submit reply id
    | some true =>
        (s.setSlot nr { slot with
          maintenance := slot.maintenance.gyroReceived now }).submit reply id
  else s

/-- `battery`. -/
def battery (s : State Level) (nr : Nr) (percent flags : UInt8) (reply : Reply) : State Level :=
  let slot := s.slots nr
  if slot.active && hasMotion slot.profile then
    let report : BatteryReport := ⟨nr, percent, flags⟩
    let s := s.setSlot nr (slot.keepBattery report)
    if s.pending then s else s.submit reply (State.receiveBattery levels nr report)
  else s

/-- The state that is reported, with `ds4_back_as_touchpad_click` if it applies. -/
def withTouchpad (slot : Slot) (backAsTouchpad : Bool) (state : NormalizedState) :
    NormalizedState :=
  if slot.profile = .dualshock4 ∧ backAsTouchpad = true ∧ state.buttonFlags &&& back ≠ 0 then
    { state with buttonFlags := state.buttonFlags ||| touchpadButton }
  else state

/-- `update`; `backAsTouchpad` is the configuration. -/
def update (s : State Level) (nr : Nr) (state : NormalizedState) (backAsTouchpad : Bool)
    (reply : Reply) (now : ℕ) : State Level :=
  let slot := s.slots nr
  if slot.active then
    let report := makeInputState nr (withTouchpad slot backAsTouchpad state)
    let slot := slot.keepInput report
    if s.pending then s.setSlot nr slot
    else
      (s.setSlot nr
        (if reply = .success then
          { slot with maintenance := slot.maintenance.reportSent now, submitFailed := false }
        else { slot with submitFailed := true })).submit reply (State.receiveInput nr report)
  else s

/-! ## The worker -/

/-- What the driver returns in a recovery. -/
structure AttemptReplies where
  connecting : Reply
  creating : Nr → Reply
  input : Nr → Reply
  seed : Nr → Reply
  battery : Nr → Reply

/-- A call of a recovery, which stops at the first failure. -/
def State.tryCall (result : State Level × Bool) (reply : Reply)
    (f : State Level → State Level) : State Level × Bool :=
  if result.2 then (result.1.call reply f, reply = .success) else result

/-- The controller of one slot, with the reports that its slot has kept. -/
def recreate (s : State Level) (nr : Nr) (replies : AttemptReplies) : State Level × Bool :=
  let slot := s.slots nr
  let created := State.tryCall (s, true) (replies.creating nr)
    (State.create levels nr slot.profile)
  let withInput := match slot.lastInput with
    | some report => State.tryCall created (replies.input nr) (State.receiveInput nr report)
    | none => created
  let withSeed := match slot.batteryLevelSeed with
    | some report =>
        State.tryCall withInput (replies.seed nr) (State.receiveBattery levels nr report)
    | none => withInput
  match slot.lastBattery with
  | some report =>
      State.tryCall withSeed (replies.battery nr) (State.receiveBattery levels nr report)
  | none => withSeed

/-- The controllers of the active slots, up to the first failure. -/
def recreateAll (replies : AttemptReplies) : List Nr → State Level → State Level × Bool
  | [], s => (s, true)
  | nr :: nrs, s =>
      if (s.slots nr).active then
        match recreate levels s nr replies with
        | (s, true) => recreateAll replies nrs s
        | (s, false) => (s, false)
      else recreateAll replies nrs s

/-- The client is closed, and the active slots forget the device. -/
def State.beginAttempt (s : State Level) (now : ℕ) : State Level :=
  { s.close with
    retryAt := now + 1000
    slots := fun nr => if (s.slots nr).active then (s.slots nr).resetTransient now else s.slots nr }

/-- `connection_recovery_t::attempt`. -/
def attempt (s : State Level) (replies : AttemptReplies) (now : ℕ) : State Level :=
  if !s.pending || now < s.retryAt then s
  else
    let s := (s.beginAttempt now).connect replies.connecting
    if replies.connecting = .success then
      match recreateAll levels replies (List.finRange maxGamepads) s with
      | (s, true) => { s.resetRecovery with recovered := true }
      | (s, false) => s.close
    else s.close

/-- What the driver returns for one slot in a round of the worker. -/
structure SlotReplies where
  zeroGyro : Reply
  keepalive : Reply
  poll : Reply

/-- `if (!recovery.pending())` before a call. -/
def State.unlessPending (s : State Level) (f : State Level → State Level) : State Level :=
  if s.pending then s else f s

/-- The maintenance of one slot. -/
def maintain (s : State Level) (nr : Nr) (replies : SlotReplies) (now : ℕ) : State Level :=
  let slot := s.slots nr
  if slot.profile = .dualshock4 then
    let s := s.setSlot nr { slot with maintenance := slot.maintenance.poll now }
    let s := if slot.maintenance.clearGyro now then s.submit replies.zeroGyro id else s
    if slot.maintenance.keepalive now then
      s.unlessPending fun s => s.submit replies.keepalive
        (State.receiveInput nr (slot.lastInput.getD (makeInputState nr {})))
    else s
  else s

/-- The slots in order, until a removal is noticed. -/
def pollAll (replies : Nr → SlotReplies) (now : ℕ) : List Nr → State Level → State Level
  | [], s => s
  | nr :: nrs, s =>
      if s.pending then s
      else if (s.slots nr).active then
        let s := (maintain s nr (replies nr) now).unlessPending fun s =>
          s.submit (replies nr).poll id
        pollAll replies now nrs s
      else pollAll replies now nrs s

/-- A round of `feedback_loop` from where it has the lock.  `sawPending` is what it read before
that, `gate` whether it passed the gate between processes. -/
def feedbackRound (s : State Level) (sawPending gate : Bool) (recovery : AttemptReplies)
    (replies : Nr → SlotReplies) (now : ℕ) : State Level :=
  if sawPending then
    if gate then
      if s.activeCount = 0 then s.resetRecovery else attempt levels s recovery now
    else s
  else if s.connected && !s.pending then pollAll replies now (List.finRange maxGamepads) s
  else s

/-! ## Histories -/

/-- The calls of the clients and the rounds of the worker, with what the driver returns. -/
inductive Label where
  | alloc (nr : Nr) (desired : Desired) (offers : Profile → Bool)
      (connecting creating : Reply) (now : ℕ)
  | free (nr : Nr) (destroying : Reply) (now : ℕ)
  | touch (nr : Nr) (pointerId : UInt32) (event : TouchEvent) (reply : Reply)
  | motion (nr : Nr) (gyro : Option Bool) (reply : Reply) (now : ℕ)
  | battery (nr : Nr) (percent flags : UInt8) (reply : Reply)
  | update (nr : Nr) (state : NormalizedState) (backAsTouchpad : Bool) (reply : Reply) (now : ℕ)
  | feedbackRound (sawPending gate : Bool) (recovery : AttemptReplies)
      (replies : Nr → SlotReplies) (now : ℕ)

/-- What a call or a round leaves. -/
def State.perform (s : State Level) : Label → State Level
  | .alloc nr desired offers connecting creating now =>
      (Vhf.alloc levels s nr desired offers connecting creating now).2
  | .free nr destroying now => Vhf.free s nr destroying now
  | .touch nr pointerId event reply => Vhf.touch s nr pointerId event reply
  | .motion nr gyro reply now => Vhf.motion s nr gyro reply now
  | .battery nr percent flags reply => Vhf.battery levels s nr percent flags reply
  | .update nr state backAsTouchpad reply now => Vhf.update s nr state backAsTouchpad reply now
  | .feedbackRound sawPending gate recovery replies now =>
      Vhf.feedbackRound levels s sawPending gate recovery replies now

def step (s : State Level) (label : Label) : Option (State Level) :=
  some (State.perform levels { s with recovered := false } label)

end LuminalShine.Vhf
