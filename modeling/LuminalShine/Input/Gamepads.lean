import LuminalShine.Input.Batching
import LuminalShine.Lib.Ownership
import LuminalShine.Lib.Simulation
import Mathlib.Data.BitVec

/-!
# Gamepads

The virtual gamepads of `src/input.cpp`.  Every client has sixteen slots; a slot holds the
platform's number of its gamepad, or -1.  The numbers are bits of one mask: a controller
arrival or the first state of a controller takes one, the last state of a controller gives it
back at once, and the destructor of a slot leaves that to a task of the pool.

Everything but the destructor runs on the one thread of the task pool, where a handler or a
lambda is one step.  A lambda holds its client by a shared pointer, so that a client is
destroyed only when none is left; it finds the slot again by its index.

## Main definitions

* `Gamepad`, `State` — slots, mask, timers and pending releases.
* `arrival`, `multiController`, `backTimeout`, `guideCombo`, `release` — the handlers.
* `Update.Sound` — the sender owns the number it sends.
* `State.pool` — the numbers as a pool of identifiers.

## Main results

* `gamepads_run` — ownership holds in every run, and every update is sound exactly when no
  back-button timer fires for a slot without a gamepad.
-/

namespace LuminalShine.Input.Gamepads

open LuminalShine.Lib

/-! ## The platform's buttons -/

/-- `platf::MAX_GAMEPADS`; `input::MAX_GAMEPADS` is the least of it and the bits of a short. -/
def platfMaxGamepads : ℕ := 16

def maxGamepads : ℕ := min platfMaxGamepads 16

def dpadLeft : UInt32 := 0x0004
def dpadRight : UInt32 := 0x0008
def start : UInt32 := 0x0010
def back : UInt32 := 0x0020
def home : UInt32 := 0x0400
def x : UInt32 := 0x4000
def y : UInt32 := 0x8000

/-- `config::input`, as a handler reads it; the timeout is in milliseconds. -/
structure Config where
  controller : Bool
  backButtonTimeout : ℤ
  gamepadGuideButtonCombo : String
  deriving DecidableEq, Repr

def guideComboMask (conf : Config) : UInt32 :=
  if conf.gamepadGuideButtonCombo = "" ∨ conf.gamepadGuideButtonCombo = "disabled" then 0
  else if conf.gamepadGuideButtonCombo = "start_back" then start ||| back
  else if conf.gamepadGuideButtonCombo = "back_x" then back ||| x
  else if conf.gamepadGuideButtonCombo = "back_y" then back ||| y
  else if conf.gamepadGuideButtonCombo = "dpad_right_x" then dpadRight ||| x
  else if conf.gamepadGuideButtonCombo = "dpad_left_y" then dpadLeft ||| y
  else 0

/-! ## Slots -/

structure GamepadState where
  buttonFlags : UInt32 := 0
  lt : UInt8 := 0
  rt : UInt8 := 0
  lsX : Int16 := 0
  lsY : Int16 := 0
  rsX : Int16 := 0
  rsY : Int16 := 0
  deriving DecidableEq, Repr

inductive ButtonState where
  | none
  | down
  | up
  deriving DecidableEq, Repr

/-- `gamepad_t`; times are nanoseconds of the steady clock. -/
structure Gamepad where
  gamepadState : GamepadState := {}
  backTimeoutId : Option ℕ := none
  lastGuideComboTrigger : ℤ := 0
  id : ℤ := -1
  backButtonState : ButtonState := .none
  deriving DecidableEq, Repr

/-- A client and the index of the slot in its `gamepads`. -/
abbrev Slot := ℕ × ℕ

abbrev Slots := Slot → Gamepad

structure Timer where
  id : ℕ
  slot : Slot
  deriving DecidableEq, Repr

inductive Sender where
  | slot (slot : Slot)
  | release
  deriving DecidableEq, Repr

/-- A call of `platf::gamepad_update`, with the slots and the mask at that moment. -/
structure Update where
  sender : Sender
  id : ℤ
  state : GamepadState
  slots : Slots
  mask : Finset ℕ

/-- The number is no error value, and its sender owns it: the slot holds it, or it is used
and held by no slot. -/
def Update.Sound (update : Update) : Prop :=
  0 ≤ update.id ∧
    match update.sender with
    | .slot slot => (update.slots slot).id = update.id
    | .release => update.id.toNat ∈ update.mask ∧ ∀ slot, (update.slots slot).id ≠ update.id

/-- Whether the `input_t` of a client exists.  Its slots are destroyed one after the other. -/
inductive Client where
  | absent
  | live
  | destroyed
  deriving DecidableEq, Repr

/-- `guideTasks` and `releases` are tasks of the pool, `timers` delayed ones; `updates` is
history. -/
structure State where
  clients : ℕ → Client
  slots : Slots
  gamepadMask : Finset ℕ
  timers : List Timer
  nextTimer : ℕ
  guideTasks : List Slot
  releases : List ℕ
  updates : List Update

def State.initial : State := ⟨fun _ => .absent, fun _ => {}, ∅, [], 0, [], [], []⟩

def State.modify (s : State) (slot : Slot) (f : Gamepad → Gamepad) : State :=
  { s with slots := Function.update s.slots slot (f (s.slots slot)) }

/-- `platf::gamepad_update` -/
def State.send (s : State) (sender : Sender) (id : ℤ) (state : GamepadState) : State :=
  { s with updates := s.updates ++ [⟨sender, id, state, s.slots, s.gamepadMask⟩] }

/-! ## Handlers -/

/-- `alloc_id`; `none` is its -1. -/
def allocId (mask : Finset ℕ) : Option ℕ :=
  (List.range platfMaxGamepads).find? (· ∉ mask)

def freeId (s : State) (id : ℤ) : State :=
  { s with gamepadMask := s.gamepadMask.erase id.toNat }

def freeGamepad (s : State) (sender : Sender) (id : ℤ) : State :=
  freeId (s.send sender id {}) id

/-- Both handlers take a number like this; `fails` is the answer of `platf::alloc_gamepad`. -/
def allocGamepad (s : State) (slot : Slot) (fails : Bool) : State :=
  match allocId s.gamepadMask with
  | none => s
  | some id =>
      let taken := { s with gamepadMask := insert id s.gamepadMask }
      if fails then freeId taken id
      else taken.modify slot ({ · with id := id })

/-- `passthrough(PSS_CONTROLLER_ARRIVAL_PACKET)` -/
def arrival (conf : Config) (fails : Bool) (s : State) (client : ℕ)
    (packet : ControllerArrival) : State :=
  let slot := (client, packet.controllerNumber.toNat)
  if !conf.controller then s
  else if maxGamepads ≤ packet.controllerNumber.toNat then s
  else if 0 ≤ (s.slots slot).id then s
  else allocGamepad s slot fails

/-- The state a packet describes. -/
def packetState (packet : MultiController) : GamepadState where
  buttonFlags := packet.buttonFlags.toUInt16.toUInt32 |||
    packet.buttonFlags2.toInt32.toUInt32 <<< 16
  lt := packet.leftTrigger
  rt := packet.rightTrigger
  lsX := packet.leftStickX
  lsY := packet.leftStickY
  rsX := packet.rightStickX
  rsY := packet.rightStickY

/-- What the emulation of the home button makes of the back button. -/
def forceBack (state : ButtonState) (buttonFlags : UInt32) : ButtonState × UInt32 :=
  match state with
  | .up => (if back &&& buttonFlags = 0 then .none else .up, buttonFlags &&& ~~~back)
  | .down => (if back &&& buttonFlags ≠ 0 then .none else .down, buttonFlags ||| back)
  | .none => (.none, buttonFlags)

/-- The back button starts its timer when it goes down and cancels it when it goes up. -/
def backTransition (conf : Config) (s : State) (slot : Slot) (buttonFlags : UInt32) : State :=
  let gamepad := s.slots slot
  if back &&& (buttonFlags ^^^ gamepad.gamepadState.buttonFlags).toUInt16.toUInt32 = 0 then s
  else if back &&& buttonFlags ≠ 0 then
    if 0 ≤ conf.backButtonTimeout then
      let pushed : State := { s with
        timers := s.timers ++ [⟨s.nextTimer, slot⟩]
        nextTimer := s.nextTimer + 1 }
      pushed.modify slot ({ · with backTimeoutId := some s.nextTimer })
    else s
  else
    match gamepad.backTimeoutId with
    | none => s
    | some id =>
        let cancelled : State := { s with timers := s.timers.filter (·.id ≠ id) }
        cancelled.modify slot ({ · with backTimeoutId := none })

/-- `1s` -/
def guideCooldown : ℤ := 1000000000

def guideTrigger (conf : Config) (now : ℤ) (s : State) (slot : Slot) (buttonFlags : UInt32) :
    State :=
  let mask := guideComboMask conf
  let gamepad := s.slots slot
  if mask = 0 then s
  else if buttonFlags &&& mask = mask ∧ gamepad.gamepadState.buttonFlags &&& mask ≠ mask ∧
      guideCooldown ≤ now - gamepad.lastGuideComboTrigger then
    let pushed : State := { s with guideTasks := s.guideTasks ++ [slot] }
    pushed.modify slot ({ · with lastGuideComboTrigger := now })
  else s

/-- The handler from where the gamepad is known to exist. -/
def deliver (conf : Config) (now : ℤ) (s : State) (slot : Slot) (packet : MultiController) :
    State :=
  let forced := forceBack (s.slots slot).backButtonState (packetState packet).buttonFlags
  let state := { packetState packet with buttonFlags := forced.2 }
  let s := s.modify slot ({ · with backButtonState := forced.1 })
  let s := backTransition conf s slot forced.2
  let s := guideTrigger conf now s slot forced.2
  let s := s.send (.slot slot) (s.slots slot).id state
  s.modify slot ({ · with gamepadState := state })

/-- `passthrough(PNV_MULTI_CONTROLLER_PACKET)` -/
def multiController (conf : Config) (fails : Bool) (now : ℤ) (s : State) (client : ℕ)
    (packet : MultiController) : State :=
  let number := packet.controllerNumber.toInt.toNat
  let slot := (client, number)
  let active := packet.activeGamepadMask.toBitVec.getLsbD number
  if !conf.controller then s
  else if packet.controllerNumber < 0 ∨ maxGamepads ≤ number then s
  else if active ∧ (s.slots slot).id < 0 then
    let s := allocGamepad s slot fails
    if (s.slots slot).id < 0 then s else deliver conf now s slot packet
  else if ¬active ∧ 0 ≤ (s.slots slot).id then
    let s := freeGamepad s (.slot slot) (s.slots slot).id
    s.modify slot ({ · with id := -1 })
  else if (s.slots slot).id < 0 then s
  else deliver conf now s slot packet

/-- The buttons of a slot are changed and sent. -/
def press (s : State) (slot : Slot) (f : UInt32 → UInt32) : State :=
  let state := { (s.slots slot).gamepadState with
    buttonFlags := f (s.slots slot).gamepadState.buttonFlags }
  let s := s.modify slot ({ · with gamepadState := state })
  s.send (.slot slot) (s.slots slot).id state

/-- The lambda of the back button's timer. -/
def backTimeout (s : State) (slot : Slot) : State :=
  let s := s.modify slot ({ · with backButtonState := .up })
  let s := press s slot (· &&& ~~~back)
  let s := press s slot (· ||| home)
  let s := press s slot (· &&& ~~~home)
  s.modify slot ({ · with backTimeoutId := none })

/-- The lambda of the guide button combination. -/
def guideCombo (s : State) (slot : Slot) : State :=
  if (s.slots slot).id < 0 then s
  else press (press s slot (· ||| home)) slot (· &&& ~~~home)

/-! ## The system -/

/-- `platf::alloc_gamepad` may fail for any packet, and the settings and the time may be
others at each. -/
inductive Label where
  | connect (client : ℕ)
  | arrival (client : ℕ) (packet : ControllerArrival) (conf : Config) (fails : Bool)
  | multiController (client : ℕ) (packet : MultiController) (conf : Config) (fails : Bool)
      (now : ℤ)
  | backTimeout (timer : Timer)
  | guideCombo (slot : Slot)
  | destroy (client : ℕ)
  | destroySlot (slot : Slot)
  | release (id : ℕ)

/-- No lambda of the pool holds the client. -/
def State.unreferenced (s : State) (client : ℕ) : Bool :=
  s.timers.all (·.slot.1 ≠ client) && s.guideTasks.all (·.1 ≠ client)

/-- Slots are compared as the pairs they are. -/
local instance : LawfulBEq Slot := inferInstance

def step (s : State) : Label → Option State
  | .connect client =>
      if s.clients client = .absent then
        some { s with
          clients := Function.update s.clients client .live
          slots := fun slot => if slot.1 = client then {} else s.slots slot }
      else none
  | .arrival client packet conf fails =>
      if s.clients client = .live then some (arrival conf fails s client packet) else none
  | .multiController client packet conf fails now =>
      if s.clients client = .live then some (multiController conf fails now s client packet)
      else none
  | .backTimeout timer =>
      if timer ∈ s.timers then
        some (backTimeout { s with timers := s.timers.erase timer } timer.slot)
      else none
  | .guideCombo slot =>
      if slot ∈ s.guideTasks then
        some (guideCombo { s with guideTasks := s.guideTasks.erase slot } slot)
      else none
  | .destroy client =>
      if s.clients client = .live ∧ s.unreferenced client then
        some { s with clients := Function.update s.clients client .destroyed }
      else none
  | .destroySlot slot =>
      if s.clients slot.1 = .destroyed then
        some { s.modify slot (fun _ => {}) with
          releases := s.releases ++
            if 0 ≤ (s.slots slot).id then [(s.slots slot).id.toNat] else [] }
      else none
  | .release id =>
      if id ∈ s.releases then
        some (freeGamepad { s with releases := s.releases.erase id } .release id)
      else none

/-! ## The numbers as a pool -/

/-- -1 is no number. -/
def heldId (id : ℤ) : Option ℕ := if 0 ≤ id then some id.toNat else none

theorem heldId_eq_some {id : ℤ} {n : ℕ} : heldId id = some n ↔ id = n := by
  rw [heldId]
  split <;> simp <;> omega

theorem heldId_eq_none {id : ℤ} : heldId id = none ↔ id < 0 := by
  rw [heldId]
  split <;> simp <;> omega

@[simp] theorem heldId_natCast (n : ℕ) : heldId n = some n := heldId_eq_some.mpr rfl

def State.pool (s : State) : Pool Slot ℕ where
  holds slot := heldId (s.slots slot).id
  awaiting := s.releases
  used := s.gamepadMask

theorem notMem_of_allocId {mask : Finset ℕ} {id : ℕ} (h : allocId mask = some id) :
    id ∉ mask := by
  simpa using List.find?_some h

/-- Only buttons, timers and tasks change. -/
structure Keeps (s s' : State) : Prop where
  clients : s'.clients = s.clients
  ids : ∀ slot, (s'.slots slot).id = (s.slots slot).id
  releases : s'.releases = s.releases
  gamepadMask : s'.gamepadMask = s.gamepadMask

theorem Keeps.refl (s : State) : Keeps s s := ⟨rfl, fun _ => rfl, rfl, rfl⟩

theorem Keeps.trans {s s' s'' : State} (h : Keeps s s') (h' : Keeps s' s'') : Keeps s s'' :=
  ⟨h'.clients.trans h.clients, fun slot => (h'.ids slot).trans (h.ids slot),
    h'.releases.trans h.releases, h'.gamepadMask.trans h.gamepadMask⟩

theorem Keeps.pool {s s' : State} (h : Keeps s s') : s'.pool = s.pool := by
  simp [State.pool, h.ids, h.releases, h.gamepadMask]

variable {s s' : State} {slot : Slot}

theorem keeps_modify {f : Gamepad → Gamepad} (h : ∀ gamepad, (f gamepad).id = gamepad.id) :
    Keeps s (s.modify slot f) := by
  refine ⟨rfl, ?_, rfl, rfl⟩
  intro other
  by_cases hother : other = slot
  · subst hother
    simp [State.modify, h]
  · simp [State.modify, hother]

theorem keeps_send (sender : Sender) (id : ℤ) (state : GamepadState) :
    Keeps s (s.send sender id state) := ⟨rfl, fun _ => rfl, rfl, rfl⟩

theorem keeps_press (f : UInt32 → UInt32) : Keeps s (press s slot f) := by
  refine Keeps.trans (keeps_modify ?_) (keeps_send _ _ _)
  intro _
  rfl

theorem keeps_backTransition (conf : Config) (buttonFlags : UInt32) :
    Keeps s (backTransition conf s slot buttonFlags) := by
  rw [backTransition]
  dsimp only
  split
  · exact .refl s
  split
  · split
    · refine Keeps.trans ?_ (keeps_modify fun _ => rfl)
      exact ⟨rfl, fun _ => rfl, rfl, rfl⟩
    · exact .refl s
  · split
    · exact .refl s
    · refine Keeps.trans ?_ (keeps_modify fun _ => rfl)
      exact ⟨rfl, fun _ => rfl, rfl, rfl⟩

theorem keeps_guideTrigger (conf : Config) (now : ℤ) (buttonFlags : UInt32) :
    Keeps s (guideTrigger conf now s slot buttonFlags) := by
  rw [guideTrigger]
  dsimp only
  split
  · exact .refl s
  split
  · refine Keeps.trans ?_ (keeps_modify fun _ => rfl)
    exact ⟨rfl, fun _ => rfl, rfl, rfl⟩
  · exact .refl s

theorem keeps_deliver (conf : Config) (now : ℤ) (packet : MultiController) :
    Keeps s (deliver conf now s slot packet) := by
  rw [deliver]
  dsimp only
  refine Keeps.trans ?_ (keeps_modify fun _ => rfl)
  apply Keeps.trans _ (keeps_send _ _ _)
  apply Keeps.trans _ (keeps_guideTrigger _ _ _)
  refine Keeps.trans (keeps_modify ?_) (keeps_backTransition _ _)
  intro _
  rfl

theorem keeps_backTimeout : Keeps s (backTimeout s slot) := by
  rw [backTimeout]
  refine Keeps.trans ?_ (keeps_modify fun _ => rfl)
  apply Keeps.trans _ (keeps_press _)
  apply Keeps.trans _ (keeps_press _)
  refine Keeps.trans (keeps_modify ?_) (keeps_press _)
  intro _
  rfl

theorem keeps_guideCombo : Keeps s (guideCombo s slot) := by
  rw [guideCombo]
  split
  · exact .refl s
  · exact (keeps_press _).trans (keeps_press _)

/-! ## What is sent -/

def State.Sound (s : State) : Prop := ∀ update ∈ s.updates, update.Sound

theorem sound_send (s : State) (sender : Sender) (id : ℤ) (state : GamepadState) :
    (s.send sender id state).Sound ↔
      s.Sound ∧ Update.Sound ⟨sender, id, state, s.slots, s.gamepadMask⟩ := by
  simp [State.Sound, State.send, or_imp, forall_and]

/-- A slot that sends its own number is sound if that is one. -/
theorem sound_send_slot {id : ℤ} (state : GamepadState) (h : (s.slots slot).id = id) :
    (s.send (.slot slot) id state).Sound ↔ s.Sound ∧ 0 ≤ id := by
  simp [sound_send, Update.Sound, h]

@[simp] theorem sound_modify (f : Gamepad → Gamepad) : (s.modify slot f).Sound ↔ s.Sound :=
  Iff.rfl

theorem sound_press (f : UInt32 → UInt32) :
    (press s slot f).Sound ↔ s.Sound ∧ 0 ≤ (s.slots slot).id := by
  rw [press]
  rw [sound_send_slot _ rfl, sound_modify, (keeps_modify _).ids]
  intro _
  rfl

theorem sound_backTimeout :
    (backTimeout s slot).Sound ↔ s.Sound ∧ 0 ≤ (s.slots slot).id := by
  rw [backTimeout]
  simp only [sound_modify, sound_press, (keeps_press _).ids, and_assoc, and_self]
  rw [(keeps_modify _).ids]
  intro _
  rfl

theorem sound_guideCombo : (guideCombo s slot).Sound ↔ s.Sound := by
  rw [guideCombo]
  split
  · exact Iff.rfl
  · case isFalse h =>
      have hid : 0 ≤ (s.slots slot).id := by omega
      simp [sound_press, (keeps_press _).ids, hid]

theorem updates_backTransition (conf : Config) (buttonFlags : UInt32) :
    (backTransition conf s slot buttonFlags).updates = s.updates := by
  rw [backTransition]
  dsimp only
  split
  · rfl
  · split <;> split <;> rfl

theorem updates_guideTrigger (conf : Config) (now : ℤ) (buttonFlags : UInt32) :
    (guideTrigger conf now s slot buttonFlags).updates = s.updates := by
  rw [guideTrigger]
  dsimp only
  split
  · rfl
  · split <;> rfl

theorem sound_deliver (conf : Config) (now : ℤ) (packet : MultiController)
    (h : 0 ≤ (s.slots slot).id) : (deliver conf now s slot packet).Sound ↔ s.Sound := by
  rw [deliver]
  dsimp only
  rw [sound_modify, sound_send_slot _ rfl, (keeps_guideTrigger _ _ _).ids,
    (keeps_backTransition _ _).ids, (keeps_modify _).ids, State.Sound,
    updates_guideTrigger, updates_backTransition]
  · exact and_iff_left h
  · intro _
    rfl

/-! ## Ownership -/

/-- The numbers are a pool that is exactly accounted for, and a client that does not exist
yet holds none. -/
structure Inv (s : State) : Prop where
  exact : s.pool.Exact
  absent : ∀ slot : Slot, s.clients slot.1 = .absent → s.pool.holds slot = none

theorem inv_initial : Inv .initial := ⟨Pool.exact_empty, fun _ _ => rfl⟩

theorem Inv.keeps (h : Inv s) (hkeeps : Keeps s s') : Inv s' := by
  constructor
  · rw [hkeeps.pool]
    exact h.exact
  · rw [hkeeps.clients, hkeeps.pool]
    exact h.absent

theorem holds_modify (s : State) (slot : Slot) (f : Gamepad → Gamepad) :
    (s.modify slot f).pool.holds =
      Function.update s.pool.holds slot (heldId (f (s.slots slot)).id) := by
  ext other : 1
  by_cases hother : other = slot
  · subst hother
    simp [State.pool, State.modify]
  · simp [State.pool, State.modify, hother]

/-- A number that is free is taken for the slot, or nothing changes. -/
theorem allocGamepad_cases (s : State) (slot : Slot) (fails : Bool) :
    Keeps s (allocGamepad s slot fails) ∨
      ∃ id ∉ s.gamepadMask, (allocGamepad s slot fails).pool = s.pool.take slot id ∧
        (allocGamepad s slot fails).clients = s.clients := by
  rw [allocGamepad]
  cases hid : allocId s.gamepadMask with
  | none => exact Or.inl (.refl s)
  | some id =>
      have hfree := notMem_of_allocId hid
      cases fails with
      | true =>
          left
          refine ⟨rfl, fun _ => rfl, rfl, ?_⟩
          simp [freeId, Finset.erase_insert hfree]
      | false =>
          right
          refine ⟨id, hfree, ?_, rfl⟩
          have hholds := holds_modify s slot ({ · with id := id })
          simp only [heldId_natCast] at hholds
          simp only [Pool.take, ← hholds]
          rfl

theorem Inv.allocGamepad (h : Inv s) (fails : Bool) (hlive : s.clients slot.1 = .live)
    (hnone : (s.slots slot).id < 0) : Inv (allocGamepad s slot fails) := by
  have hholds : s.pool.holds slot = none := heldId_eq_none.mpr hnone
  rcases allocGamepad_cases s slot fails with hkeeps | ⟨id, hfree, hpool, hclients⟩
  · exact h.keeps hkeeps
  · constructor
    · rw [hpool]
      exact h.exact.take hfree hholds
    · intro other hother
      rw [hclients] at hother
      have hne : other ≠ slot := by
        rintro rfl
        rw [hlive] at hother
        cases hother
      rw [hpool, Pool.holds_take, Function.update_of_ne hne]
      exact h.absent other hother

theorem Inv.freeGamepad (h : Inv s) (hheld : 0 ≤ (s.slots slot).id) :
    Inv ((freeGamepad s (.slot slot) (s.slots slot).id).modify slot ({ · with id := -1 })) := by
  obtain ⟨n, hn⟩ := Int.eq_ofNat_of_zero_le hheld
  have hholds : s.pool.holds slot = some n := heldId_eq_some.mpr hn
  have hpool : ((Gamepads.freeGamepad s (.slot slot) (s.slots slot).id).modify slot
      ({ · with id := -1 })).pool = s.pool.giveBack slot n := by
    have hmodify := holds_modify (Gamepads.freeGamepad s (.slot slot) (s.slots slot).id) slot
      ({ · with id := -1 })
    rw [show heldId (-1) = none from rfl] at hmodify
    simp only [Pool.giveBack]
    rw [State.pool, State.pool] at hmodify ⊢
    simp only [Pool.mk.injEq]
    refine ⟨hmodify, rfl, ?_⟩
    simp [State.modify, Gamepads.freeGamepad, freeId, State.send, hn]
  constructor
  · rw [hpool]
    exact h.exact.giveBack hholds
  · intro other hother
    rw [hpool, Pool.holds_giveBack]
    by_cases hne : other = slot
    · subst hne
      simp
    · rw [Function.update_of_ne hne]
      exact h.absent other hother

theorem Inv.arrival (h : Inv s) {client : ℕ} (hlive : s.clients client = .live) (conf : Config)
    (fails : Bool) (packet : ControllerArrival) : Inv (arrival conf fails s client packet) := by
  rw [Gamepads.arrival]
  split_ifs with _ _ hid
  · exact h
  · exact h
  · exact h
  · exact h.allocGamepad fails hlive (by omega)

theorem Inv.multiController (h : Inv s) {client : ℕ} (hlive : s.clients client = .live)
    (conf : Config) (fails : Bool) (now : ℤ) (packet : MultiController) :
    Inv (multiController conf fails now s client packet) := by
  rw [Gamepads.multiController]
  dsimp only
  split_ifs with _ _ hnew _ hlast _
  · exact h
  · exact h
  · exact h.allocGamepad fails hlive hnew.2
  · exact (h.allocGamepad fails hlive hnew.2).keeps (keeps_deliver _ _ _)
  · exact h.freeGamepad hlast.2
  · exact h
  · exact h.keeps (keeps_deliver _ _ _)

theorem updates_allocGamepad (fails : Bool) : (allocGamepad s slot fails).updates = s.updates := by
  rw [allocGamepad]
  split
  · rfl
  · cases fails <;> rfl

theorem sound_arrival (conf : Config) (fails : Bool) (client : ℕ) (packet : ControllerArrival) :
    (arrival conf fails s client packet).Sound ↔ s.Sound := by
  rw [arrival]
  split_ifs
  · exact Iff.rfl
  · exact Iff.rfl
  · exact Iff.rfl
  · rw [State.Sound, updates_allocGamepad, State.Sound]

theorem sound_freeGamepad_slot (h : 0 ≤ (s.slots slot).id) :
    (freeGamepad s (.slot slot) (s.slots slot).id).Sound ↔ s.Sound := by
  exact (sound_send_slot {} rfl).trans (and_iff_left h)

theorem sound_multiController (conf : Config) (fails : Bool) (now : ℤ) (client : ℕ)
    (packet : MultiController) :
    (multiController conf fails now s client packet).Sound ↔ s.Sound := by
  rw [multiController]
  dsimp only
  split_ifs with _ _ _ hid hlast hid
  · exact Iff.rfl
  · exact Iff.rfl
  · rw [State.Sound, updates_allocGamepad, State.Sound]
  · rw [sound_deliver _ _ _ (by omega), State.Sound, updates_allocGamepad, State.Sound]
  · rw [sound_modify, sound_freeGamepad_slot hlast.2]
  · exact Iff.rfl
  · exact sound_deliver _ _ _ (by omega)

/-! ## Runs -/

theorem Inv.connect (h : Inv s) {client : ℕ} (hstep : step s (.connect client) = some s') :
    Inv s' ∧ (s'.Sound ↔ s.Sound) := by
  simp only [step] at hstep
  obtain ⟨habsent, rfl⟩ := guarded_eq_some.mp hstep
  have hpool : State.pool { s with
      clients := Function.update s.clients client .live
      slots := fun slot => if slot.1 = client then {} else s.slots slot } = s.pool := by
    simp only [State.pool, Pool.mk.injEq, and_true]
    ext slot : 1
    split
    · case isTrue hslot =>
        exact (h.absent slot (by rw [hslot, habsent])).symm
    · rfl
  refine ⟨⟨by rw [hpool]; exact h.exact, ?_⟩, Iff.rfl⟩
  intro slot hslot
  rw [hpool]
  apply h.absent
  dsimp only at hslot
  by_cases hclient : slot.1 = client
  · rw [hclient, habsent]
  · rwa [Function.update_of_ne hclient] at hslot

theorem Inv.destroySlot (h : Inv s) (hstep : step s (.destroySlot slot) = some s') :
    Inv s' ∧ (s'.Sound ↔ s.Sound) := by
  simp only [step] at hstep
  obtain ⟨hdestroyed, rfl⟩ := guarded_eq_some.mp hstep
  refine ⟨?_, Iff.rfl⟩
  have hmodify := holds_modify s slot fun _ => {}
  rw [show heldId ({} : Gamepad).id = none from rfl] at hmodify
  by_cases hid : 0 ≤ (s.slots slot).id
  · obtain ⟨n, hn⟩ := Int.eq_ofNat_of_zero_le hid
    have hholds : s.pool.holds slot = some n := heldId_eq_some.mpr hn
    have hpool : State.pool { s.modify slot (fun _ => {}) with releases := s.releases ++ [n] } =
        s.pool.handIn slot n := by
      simp only [Pool.handIn, ← hmodify]
      rfl
    rw [if_pos hid, hn, Int.toNat_natCast]
    constructor
    · rw [hpool]
      exact h.exact.handIn hholds
    · intro other hother
      rw [hpool, Pool.holds_handIn]
      by_cases hne : other = slot
      · subst hne
        simp
      · rw [Function.update_of_ne hne]
        exact h.absent other hother
  · have hholds : s.pool.holds slot = none := heldId_eq_none.mpr (by omega)
    rw [if_neg hid, List.append_nil]
    rw [Function.update_eq_self_iff.mpr hholds.symm] at hmodify
    have hpool : (s.modify slot fun _ => {}).pool = s.pool := by
      rw [Pool.mk.injEq]
      exact ⟨hmodify, rfl, rfl⟩
    constructor
    · exact hpool ▸ h.exact
    · intro other hother
      exact (congrFun hmodify other).trans (h.absent other hother)

theorem Inv.release (h : Inv s) {id : ℕ} (hstep : step s (.release id) = some s') :
    Inv s' ∧ (s'.Sound ↔ s.Sound) := by
  simp only [step] at hstep
  obtain ⟨hmem, rfl⟩ := guarded_eq_some.mp hstep
  have hpool : (Gamepads.freeGamepad { s with releases := s.releases.erase id } .release id).pool =
      s.pool.release id := rfl
  refine ⟨⟨?_, ?_⟩, ?_⟩
  · rw [hpool]
    exact h.exact.release hmem
  · intro other hother
    rw [hpool]
    exact h.absent other hother
  · have hused : id ∈ s.gamepadMask := (h.exact.used id).mpr (Or.inr hmem)
    have hunheld : ∀ slot, (s.slots slot).id ≠ (id : ℤ) := by
      intro slot hslot
      exact h.exact.disjoint (heldId_eq_some.mpr hslot) hmem
    have hsend := sound_send { s with releases := s.releases.erase id } .release id {}
    refine hsend.trans (and_iff_left ?_)
    exact ⟨by simp, by simpa using hused, hunheld⟩

/-- The timer of a back button finds a gamepad in its slot. -/
def TimerHasGamepad (s : State) : Label → Prop
  | .backTimeout timer => 0 ≤ (s.slots timer.slot).id
  | _ => True

theorem Inv.step (h : Inv s) {label : Label} (hstep : step s label = some s') :
    Inv s' ∧ (s'.Sound ↔ s.Sound ∧ TimerHasGamepad s label) := by
  cases label with
  | connect client => simpa [TimerHasGamepad] using h.connect hstep
  | arrival client packet conf fails =>
      simp only [Gamepads.step] at hstep
      obtain ⟨hlive, rfl⟩ := guarded_eq_some.mp hstep
      exact ⟨h.arrival hlive conf fails packet, by simp [sound_arrival, TimerHasGamepad]⟩
  | multiController client packet conf fails now =>
      simp only [Gamepads.step] at hstep
      obtain ⟨hlive, rfl⟩ := guarded_eq_some.mp hstep
      exact ⟨h.multiController hlive conf fails now packet,
        by simp [sound_multiController, TimerHasGamepad]⟩
  | backTimeout timer =>
      simp only [Gamepads.step] at hstep
      obtain ⟨-, rfl⟩ := guarded_eq_some.mp hstep
      have hfired : Inv { s with timers := s.timers.erase timer } :=
        h.keeps ⟨rfl, fun _ => rfl, rfl, rfl⟩
      refine ⟨hfired.keeps keeps_backTimeout, ?_⟩
      rw [sound_backTimeout]
      rfl
  | guideCombo slot =>
      simp only [Gamepads.step] at hstep
      obtain ⟨-, rfl⟩ := guarded_eq_some.mp hstep
      have hstarted : Inv { s with guideTasks := s.guideTasks.erase slot } :=
        h.keeps ⟨rfl, fun _ => rfl, rfl, rfl⟩
      refine ⟨hstarted.keeps keeps_guideCombo, ?_⟩
      rw [sound_guideCombo]
      simp [TimerHasGamepad, State.Sound]
  | destroy client =>
      simp only [Gamepads.step] at hstep
      obtain ⟨hlive, rfl⟩ := guarded_eq_some.mp hstep
      refine ⟨⟨h.exact, ?_⟩, by simp [TimerHasGamepad, State.Sound]⟩
      intro slot hslot
      apply h.absent
      dsimp only at hslot
      by_cases hclient : slot.1 = client
      · simp [hclient] at hslot
      · rwa [Function.update_of_ne hclient] at hslot
  | destroySlot slot => simpa [TimerHasGamepad] using h.destroySlot hstep
  | release id => simpa [TimerHasGamepad] using h.release hstep

instance (s : State) : ∀ label, Decidable (TimerHasGamepad s label)
  | .backTimeout timer => inferInstanceAs (Decidable (0 ≤ (s.slots timer.slot).id))
  | .connect _ | .arrival _ _ _ _ | .multiController _ _ _ _ _ | .guideCombo _ | .destroy _
  | .destroySlot _ | .release _ => isTrue trivial

/-- **Gamepads are owned.**  In every run the numbers of the slots are distinct and the mask
is the set of those held or awaiting their release; and every update carried a number its
sender owned exactly if no back-button timer fired for a slot without a gamepad. -/
theorem gamepads_run {labels : List Label} (hrun : run step .initial labels = some s) :
    (∀ slot other, 0 ≤ (s.slots slot).id → (s.slots slot).id = (s.slots other).id →
        slot = other) ∧
      (∀ id : ℕ, id ∈ s.gamepadMask ↔ (∃ slot, (s.slots slot).id = id) ∨ id ∈ s.releases) ∧
      (s.Sound ↔ RunMeets step TimerHasGamepad .initial labels) := by
  have hinv : Inv s := run_invariant (fun _ _ _ h hstep => (h.step hstep).1) inv_initial hrun
  refine ⟨?_, ?_, ?_⟩
  · intro slot other hheld heq
    obtain ⟨n, hn⟩ := Int.eq_ofNat_of_zero_le hheld
    exact hinv.exact.distinct (heldId_eq_some.mpr hn) (heldId_eq_some.mpr (heq ▸ hn))
  · intro id
    have hused := hinv.exact.used id
    simp only [State.pool, heldId_eq_some] at hused
    exact hused
  · have hverdict : s.Sound ↔
        State.initial.Sound ∧ RunMeets step TimerHasGamepad .initial labels :=
      run_verdict_iff (fun _ _ _ h hstep => (Inv.step h hstep).1)
        (fun _ _ _ h hstep => (Inv.step h hstep).2) inv_initial hrun
    exact hverdict.trans (and_iff_right nofun)

/-- The first controller of a client, active and with these buttons. -/
def buttons (buttonFlags : Int16) : MultiController := ⟨0, 1, buttonFlags, 0, 0, 0, 0, 0, 0, 0⟩

/-- The same controller, removed. -/
def removed : MultiController := ⟨0, 0, 0, 0, 0, 0, 0, 0, 0, 0⟩

def defaults : Config := ⟨true, 2000, "disabled"⟩

/-- The back button is held until the guide button is pressed for it; then the client goes. -/
def heldBack : List Label :=
  [.connect 7, .arrival 7 ⟨0, 1, 0, 0⟩ defaults false, .connect 8,
    .multiController 8 (buttons 0) defaults false 0,
    .multiController 7 (buttons 0x20) defaults false 0,
    .backTimeout ⟨0, (7, 0)⟩, .destroy 7, .destroySlot (7, 0), .release 0]

theorem gamepads_run_heldBack :
    ∃ s, run step .initial heldBack = some s ∧ s.updates.length = 6 ∧ s.gamepadMask = {1} ∧
      s.Sound := by
  obtain ⟨s, hrun, hs⟩ := (Option.any_eq_true _ _).mp
    (show (run step .initial heldBack).any (fun s => decide
      (s.updates.length = 6 ∧ s.gamepadMask = {1})) = true by rfl)
  obtain ⟨hlength, hmask⟩ := of_decide_eq_true hs
  exact ⟨s, hrun, hlength, hmask, (gamepads_run hrun).2.2.mpr (by decide)⟩

/-- The controller is removed while its back button is held, and the timer sends three
updates for gamepad -1. -/
theorem gamepads_stray_timer :
    ∃ s, run step .initial
        [.connect 0, .multiController 0 (buttons 0x20) defaults false 0,
          .multiController 0 removed defaults false 0, .backTimeout ⟨0, (0, 0)⟩] = some s ∧
      ∃ update ∈ s.updates, update.id < 0 := by
  obtain ⟨s, hrun, hs⟩ := (Option.any_eq_true _ _).mp
    (show (run step .initial
        [.connect 0, .multiController 0 (buttons 0x20) defaults false 0,
          .multiController 0 removed defaults false 0, .backTimeout ⟨0, (0, 0)⟩]).any
        (fun s => s.updates.any (·.id < 0)) = true by rfl)
  obtain ⟨update, hmem, hid⟩ := List.any_eq_true.mp hs
  exact ⟨s, hrun, update, hmem, of_decide_eq_true hid⟩

end LuminalShine.Input.Gamepads
