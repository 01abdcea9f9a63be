import LuminalShine.Input.Batching
import Mathlib.Data.Finset.Image
import Mathlib.Data.Finset.SDiff

/-!
# Keys and buttons held on the host

The keyboard and mouse button handlers of `src/input.cpp`, the key repeat, the delayed
release of the left button, and `reset`.

What is pressed is kept in two tables; the platform is told codes and buttons.  The two
drift apart where a code is not the key's own: a remapped key is released by `reset` under
the code it was not pressed with, two keys mapped to one code are one key to the platform,
and a synthetic modifier that is raised may be one that is held.  A button above the table
is in no table at all, and the delayed release of the left button lives in a timer that
`reset` cancels.

A run has one session; its tasks run one at a time on the pool's thread.  A task
identifier names one push.

## Main definitions

* `State`, `passthroughKeyboard`, `passthroughMouseButton`, `repeatKey`, `leftRelease`,
  `resetTask`, `reset` — the source's code.
* `Label`, `step` — packets, tasks and timers in any order.
* `Meets` — the steps that keep tables and platform together.

## Main results

* `held_run` — what the platform holds along a run of such steps, and at its end.
-/

namespace LuminalShine.Input.Held

open LuminalShine.Lib

/-! ## The tables -/

/-- `config::input`, as far as it matters here: `keyRepeat` says that
`key_repeat_delay` is above zero. -/
structure Settings where
  keyboard : Bool
  mouse : Bool
  keybindings : UInt16 → Option UInt16
  keyRepeat : Bool

/-- `map_keycode` -/
def mapKeycode (cfg : Settings) (keycode : UInt16) : UInt16 :=
  (cfg.keybindings keycode).getD keycode

/-- `key_press_id_t`: the key code and the flags of its packet. -/
structure KeyPressId where
  vk : UInt16
  flags : UInt8
  deriving DecidableEq, Repr

/-- Three modifiers: those held of a shortcut, or those a packet asks for on top. -/
structure Modifiers where
  shift : Bool
  ctrl : Bool
  alt : Bool
  deriving DecidableEq, Repr

def vkeyShift : UInt16 := 0x10
def vkeyLshift : UInt16 := 0xA0
def vkeyRshift : UInt16 := 0xA1
def vkeyControl : UInt16 := 0x11
def vkeyLcontrol : UInt16 := 0xA2
def vkeyRcontrol : UInt16 := 0xA3
def vkeyMenu : UInt16 := 0x12
def vkeyLmenu : UInt16 := 0xA4
def vkeyRmenu : UInt16 := 0xA5

/-- `BUTTON_LEFT`, `BUTTON_RIGHT` -/
def buttonLeft : ℕ := 1
def buttonRight : ℕ := 3

/-- `button > 0 && button < mouse_press.size()` -/
def tracked (button : ℕ) : Bool := decide (0 < button) && decide (button < 5)

/-- `mouse_left_button_timeout`: no timer and delays enabled, delays disabled, or the timer
last set. -/
inductive LeftTimeout where
  | enable
  | disable
  | task (id : ℕ)
  deriving DecidableEq, Repr

inductive Delayed where
  | repeatKey (key : KeyPressId) (synthetic : Modifiers)
  | leftRelease
  deriving DecidableEq, Repr

inductive Task where
  | passthroughNextMessage
  | resetTask
  deriving DecidableEq, Repr

/-- The platform's view, the tables, the input queue and the pool.  `keyPress` and
`mousePress` are the entries marked pressed. -/
structure State where
  heldKeys : Finset UInt16
  heldButtons : Finset ℕ
  keyPress : Finset KeyPressId
  mousePress : Finset ℕ
  shortcutFlags : Modifiers
  keyPressRepeatId : Option ℕ
  mouseLeftButtonTimeout : LeftTimeout
  queue : List Packet
  scheduled : Bool
  tasks : List Task
  delayed : List (ℕ × Delayed)
  nextId : ℕ
  resetCalled : Bool
  wasReset : Bool
  deriving DecidableEq

def State.initial : State where
  heldKeys := ∅
  heldButtons := ∅
  keyPress := ∅
  mousePress := ∅
  shortcutFlags := ⟨false, false, false⟩
  keyPressRepeatId := none
  mouseLeftButtonTimeout := .enable
  queue := []
  scheduled := false
  tasks := []
  delayed := []
  nextId := 0
  resetCalled := false
  wasReset := false

/-! ## The platform and the pool -/

/-- `platf::keyboard_update` -/
def keyboardUpdate (modcode : UInt16) (release : Bool) (s : State) : State :=
  { s with heldKeys := if release then s.heldKeys.erase modcode else insert modcode s.heldKeys }

/-- `platf::button_mouse` -/
def buttonMouse (button : ℕ) (release : Bool) (s : State) : State :=
  { s with heldButtons :=
      if release then s.heldButtons.erase button else insert button s.heldButtons }

/-- `task_pool.pushDelayed`; the task gets the number `nextId`. -/
def pushDelayed (task : Delayed) (s : State) : State :=
  { s with delayed := s.delayed ++ [(s.nextId, task)], nextId := s.nextId + 1 }

/-- `task_pool.cancel` -/
def cancel (id : Option ℕ) (s : State) : State :=
  { s with delayed := s.delayed.filter fun entry => some entry.1 ≠ id }

def LeftTimeout.id : LeftTimeout → Option ℕ
  | .task id => some id
  | _ => none

/-! ## The keyboard -/

/-- The blocks of `send_key_and_modifiers` that press and that raise synthetic modifiers. -/
def updateModifiers (synthetic : Modifiers) (release : Bool) (s : State) : State :=
  let s := if synthetic.shift then keyboardUpdate vkeyShift release s else s
  let s := if synthetic.ctrl then keyboardUpdate vkeyControl release s else s
  if synthetic.alt then keyboardUpdate vkeyMenu release s else s

/-- `send_key_and_modifiers` -/
def sendKeyAndModifiers (cfg : Settings) (keyCode : UInt16) (release : Bool)
    (synthetic : Modifiers) (s : State) : State :=
  let s := if release then s else updateModifiers synthetic false s
  let s := keyboardUpdate (mapKeycode cfg keyCode) release s
  if release then s else updateModifiers synthetic true s

/-- `update_shortcutFlags` -/
def updateShortcutFlags (flags : Modifiers) (keyCode : UInt16) (release : Bool) : Modifiers :=
  if keyCode = vkeyShift ∨ keyCode = vkeyLshift ∨ keyCode = vkeyRshift then
    { flags with shift := !release }
  else if keyCode = vkeyControl ∨ keyCode = vkeyLcontrol ∨ keyCode = vkeyRcontrol then
    { flags with ctrl := !release }
  else if keyCode = vkeyMenu ∨ keyCode = vkeyLmenu ∨ keyCode = vkeyRmenu then
    { flags with alt := !release }
  else flags

/-- `is_modifier` -/
def isModifier (keyCode : UInt16) : Bool :=
  [vkeyShift, vkeyLshift, vkeyRshift, vkeyControl, vkeyLcontrol, vkeyRcontrol, vkeyMenu,
    vkeyLmenu, vkeyRmenu].contains keyCode

/-- `apply_shortcut` takes the function keys up to F13, and `N`. -/
def applyShortcut (keyCode : UInt16) : Bool :=
  decide (0x70 ≤ keyCode ∧ keyCode ≤ 0x7C) || keyCode == 0x4E

/-- The modifiers the packet asks for (`MODIFIER_SHIFT`, `MODIFIER_CTRL`, `MODIFIER_ALT`)
that are not held. -/
def syntheticModifiers (flags : Modifiers) (release : Bool) (keyCode : UInt16)
    (modifiers : UInt8) : Modifiers :=
  if release || isModifier keyCode then ⟨false, false, false⟩
  else {
    shift := !flags.shift && modifiers &&& 1 != 0
    ctrl := !flags.ctrl && modifiers &&& 2 != 0
    alt := !flags.alt && modifiers &&& 4 != 0 }

/-- Arming the repeat of a key that was just pressed. -/
def armRepeat (cfg : Settings) (key : KeyPressId) (synthetic : Modifiers) (s : State) : State :=
  let s := cancel s.keyPressRepeatId s
  if cfg.keyRepeat then
    { pushDelayed (.repeatKey key synthetic) s with keyPressRepeatId := some s.nextId }
  else s

/-- What a packet makes of its key: nothing, a press or a release. -/
inductive KeyChange where
  | ignored
  | pressed
  | released
  deriving DecidableEq, Repr

/-- The conditions of `passthrough(PNV_KEYBOARD_PACKET)` up to the table's update. -/
def keyChange (cfg : Settings) (s : State) (release : Bool) (key : KeyPressId) : KeyChange :=
  if !cfg.keyboard then .ignored
  else if key ∈ s.keyPress then
    if release then .released else .ignored
  else if release then .ignored
  else if s.shortcutFlags = ⟨true, true, true⟩ && applyShortcut key.vk then .ignored
  else .pressed

/-- The end of `passthrough(PNV_KEYBOARD_PACKET)`. -/
def finishKey (cfg : Settings) (release : Bool) (key : KeyPressId) (synthetic : Modifiers)
    (s : State) : State :=
  let s := sendKeyAndModifiers cfg key.vk release synthetic s
  { s with shortcutFlags := updateShortcutFlags s.shortcutFlags (mapKeycode cfg key.vk) release }

/-- `passthrough(PNV_KEYBOARD_PACKET)` behind its synthetic modifiers. -/
def updateKey (cfg : Settings) (release : Bool) (key : KeyPressId) (synthetic : Modifiers)
    (s : State) : State :=
  match keyChange cfg s release key with
  | .ignored => s
  | .pressed =>
      let s := armRepeat cfg key synthetic s
      finishKey cfg release key synthetic { s with keyPress := insert key s.keyPress }
  | .released => finishKey cfg release key synthetic { s with keyPress := s.keyPress.erase key }

/-- `passthrough(PNV_KEYBOARD_PACKET)` -/
def passthroughKeyboard (cfg : Settings) (release : Bool) (flags : UInt8) (keyCode : UInt16)
    (modifiers : UInt8) (s : State) : State :=
  updateKey cfg release ⟨keyCode &&& 0xFF, flags⟩
    (syntheticModifiers s.shortcutFlags release (keyCode &&& 0xFF) modifiers) s

/-- `repeat_key` -/
def repeatKey (cfg : Settings) (key : KeyPressId) (synthetic : Modifiers) (s : State) : State :=
  if key ∈ s.keyPress then
    let s := sendKeyAndModifiers cfg key.vk false synthetic s
    { pushDelayed (.repeatKey key synthetic) s with keyPressRepeatId := some s.nextId }
  else { s with keyPressRepeatId := none }

/-! ## The mouse -/

/-- `mouse_press[button] = !release`, where there is such an entry. -/
def updateMousePress (release : Bool) (button : ℕ) (s : State) : State :=
  if tracked button then
    { s with mousePress :=
        if release then s.mousePress.erase button else insert button s.mousePress }
  else s

/-- `passthrough(PNV_MOUSE_BUTTON_PACKET)` -/
def passthroughMouseButton (cfg : Settings) (release : Bool) (button : ℕ) (s : State) : State :=
  if !cfg.mouse then s
  else if tracked button && (decide (button ∈ s.mousePress) != release) then s
  else
    let s := updateMousePress release button s
    if button = buttonLeft ∧ release ∧ s.mouseLeftButtonTimeout = .enable then
      { pushDelayed .leftRelease s with mouseLeftButtonTimeout := .task s.nextId }
    else if button = buttonRight ∧ !release ∧ s.mouseLeftButtonTimeout.id.isSome then
      let s := buttonMouse buttonRight true (buttonMouse buttonRight false s)
      { s with mousePress := s.mousePress.erase buttonRight }
    else buttonMouse button release s

/-- The delayed release: it does nothing when the button is pressed again. -/
def leftRelease (s : State) : State :=
  if buttonLeft ∈ s.mousePress then s
  else
    let s := buttonMouse buttonLeft true s
    { s with mousePress := s.mousePress.erase buttonLeft, mouseLeftButtonTimeout := .enable }

/-- `passthrough(PNV_REL_MOUSE_MOVE_PACKET)` and its absolute sibling, as far as the delay of
the left button goes. -/
def passthroughRelMouseMove (cfg : Settings) (s : State) : State :=
  if cfg.mouse then { s with mouseLeftButtonTimeout := .disable } else s

def passthroughAbsMouseMove (cfg : Settings) (s : State) : State :=
  if cfg.mouse ∧ s.mouseLeftButtonTimeout = .disable then
    { s with mouseLeftButtonTimeout := .enable }
  else s

/-! ## Tasks -/

/-- The dispatcher of `passthrough_next_message`; the other messages touch no key and no
button. -/
def dispatch (cfg : Settings) (payload : Packet) (s : State) : State :=
  match payload with
  | .relMouseMove _ _ => passthroughRelMouseMove cfg s
  | .absMouseMove _ _ _ _ => passthroughAbsMouseMove cfg s
  | .mouseButton release button => passthroughMouseButton cfg release button s
  | .keyboard release flags keyCode modifiers =>
      passthroughKeyboard cfg release flags keyCode modifiers s
  | _ => s

/-- `passthrough_next_message` -/
def passthroughNextMessage (cfg : Settings) (s : State) : State :=
  match s.queue with
  | [] => { s with scheduled := false }
  | dest :: queue =>
      let s := dispatch cfg (batchLoop dest queue).1 { s with queue := (batchLoop dest queue).2 }
      if s.queue.isEmpty then { s with scheduled := false }
      else { s with tasks := s.tasks ++ [.passthroughNextMessage] }

/-- The task `reset` pushes; in which order the tables are walked makes no difference. -/
def resetTask (s : State) : State :=
  { s with
    heldKeys := s.heldKeys \ s.keyPress.image fun key => key.vk &&& 0x00FF
    heldButtons := s.heldButtons \ s.mousePress
    keyPress := ∅
    mousePress := ∅
    wasReset := true }

/-- `reset` -/
def reset (s : State) : State :=
  let s := cancel s.keyPressRepeatId s
  let s := cancel s.mouseLeftButtonTimeout.id s
  { s with tasks := s.tasks ++ [.resetTask], resetCalled := true }

/-- The `passthrough` of the control thread. -/
def enqueue (packet : Packet) (s : State) : State :=
  { s with
    queue := s.queue ++ [packet]
    scheduled := true
    tasks := if s.scheduled then s.tasks else s.tasks ++ [.passthroughNextMessage] }

/-- A packet arrives, the pool runs its next task or a timer that is due, or the session
ends.  No packet arrives behind the end. -/
inductive Label where
  | enqueue (packet : Packet)
  | runTask
  | fire (id : ℕ)
  | reset
  deriving DecidableEq, Repr

def runDelayed (cfg : Settings) (task : Delayed) (s : State) : State :=
  match task with
  | .repeatKey key synthetic => repeatKey cfg key synthetic s
  | .leftRelease => leftRelease s

def step (cfg : Settings) (s : State) : Label → Option State
  | .enqueue packet => if s.resetCalled then none else some (enqueue packet s)
  | .runTask =>
      match s.tasks with
      | [] => none
      | .passthroughNextMessage :: tasks => some (passthroughNextMessage cfg { s with tasks })
      | .resetTask :: tasks => some (resetTask { s with tasks })
  | .fire id =>
      match s.delayed.find? (fun entry => entry.1 = id) with
      | none => none
      | some (_, task) => some (runDelayed cfg task (cancel (some id) s))
  | .reset => if s.resetCalled then none else some (reset s)

/-! ## What goes wrong -/

/-- The remapped codes of the entries marked pressed. -/
def mappedCodes (cfg : Settings) (keyPress : Finset KeyPressId) : Finset UInt16 :=
  keyPress.image fun key => mapKeycode cfg key.vk

/-- The codes of the synthetic modifiers. -/
def modifierCodes (synthetic : Modifiers) : Finset UInt16 :=
  (if synthetic.shift then {vkeyShift} else ∅) ∪ (if synthetic.ctrl then {vkeyControl} else ∅) ∪
    (if synthetic.alt then {vkeyMenu} else ∅)

/-- No pressed key is sent as one of these modifiers. -/
def Apart (cfg : Settings) (synthetic : Modifiers) (keyPress : Finset KeyPressId) : Prop :=
  ∀ key ∈ keyPress, mapKeycode cfg key.vk ∉ modifierCodes synthetic

instance (cfg : Settings) (synthetic : Modifiers) (keyPress : Finset KeyPressId) :
    Decidable (Apart cfg synthetic keyPress) :=
  inferInstanceAs (Decidable (∀ _ ∈ _, _))

/-- A key goes down before the reset task and apart from its modifiers; a key that goes up
has its code for itself. -/
def KeyMeets (cfg : Settings) (s : State) (key : KeyPressId) (synthetic : Modifiers) :
    KeyChange → Prop
  | .ignored => True
  | .pressed => s.wasReset = false ∧ Apart cfg synthetic (insert key s.keyPress)
  | .released => ∀ other ∈ s.keyPress.erase key, mapKeycode cfg other.vk ≠ mapKeycode cfg key.vk

instance (cfg : Settings) (s : State) (key : KeyPressId) (synthetic : Modifiers) :
    (change : KeyChange) → Decidable (KeyMeets cfg s key synthetic change)
  | .ignored => isTrue trivial
  | .pressed => inferInstanceAs (Decidable (_ ∧ _))
  | .released => inferInstanceAs (Decidable (∀ _ ∈ _, _))

def DispatchMeets (cfg : Settings) (s : State) : Packet → Prop
  | .mouseButton release _ => cfg.mouse = true → release = false → s.wasReset = false
  | .keyboard release flags keyCode modifiers =>
      KeyMeets cfg s ⟨keyCode &&& 0xFF, flags⟩
        (syntheticModifiers s.shortcutFlags release (keyCode &&& 0xFF) modifiers)
        (keyChange cfg s release ⟨keyCode &&& 0xFF, flags⟩)
  | _ => True

instance (cfg : Settings) (s : State) (payload : Packet) :
    Decidable (DispatchMeets cfg s payload) := by
  unfold DispatchMeets
  split <;> infer_instance

/-- The reset task releases every key under the code it was pressed with, up to the order of
the keys, and every button that is down has a place in the table. -/
def ResetTaskMeets (cfg : Settings) (s : State) : Prop :=
  (∀ key ∈ s.keyPress, ∃ other ∈ s.keyPress, other.vk &&& 0x00FF = mapKeycode cfg key.vk) ∧
    ∀ button ∈ s.heldButtons, tracked button = true

instance (cfg : Settings) (s : State) : Decidable (ResetTaskMeets cfg s) :=
  inferInstanceAs (Decidable (_ ∧ _))

def TaskMeets (cfg : Settings) (s : State) : Prop :=
  match s.tasks, s.queue with
  | .passthroughNextMessage :: _, dest :: queue => DispatchMeets cfg s (batchLoop dest queue).1
  | .resetTask :: _, _ => ResetTaskMeets cfg s
  | _, _ => True

instance (cfg : Settings) (s : State) : Decidable (TaskMeets cfg s) := by
  unfold TaskMeets
  split <;> infer_instance

def DelayedMeets (cfg : Settings) (s : State) : Delayed → Prop
  | .repeatKey key synthetic => key ∈ s.keyPress → Apart cfg synthetic s.keyPress
  | .leftRelease => True

instance (cfg : Settings) (s : State) : (task : Delayed) → Decidable (DelayedMeets cfg s task)
  | .repeatKey _ _ => inferInstanceAs (Decidable (_ → _))
  | .leftRelease => isTrue trivial

def isLeftRelease (entry : ℕ × Delayed) : Bool := entry.2 = .leftRelease

/-- The timer that `reset` cancels is not all that a held left button waits for. -/
def ResetMeets (s : State) : Prop :=
  buttonLeft ∈ s.heldButtons → buttonLeft ∈ s.mousePress ∨
    ∃ entry ∈ s.delayed, isLeftRelease entry = true ∧ some entry.1 ≠ s.mouseLeftButtonTimeout.id

instance (s : State) : Decidable (ResetMeets s) := inferInstanceAs (Decidable (_ → _))

/-- The step keeps what is held to what is pressed. -/
def Meets (cfg : Settings) (s : State) : Label → Prop
  | .enqueue _ => True
  | .runTask => TaskMeets cfg s
  | .fire id => ∀ entry ∈ s.delayed, entry.1 = id → DelayedMeets cfg s entry.2
  | .reset => ResetMeets s

instance (cfg : Settings) (s : State) : (label : Label) → Decidable (Meets cfg s label)
  | .enqueue _ => isTrue trivial
  | .runTask => inferInstanceAs (Decidable (TaskMeets cfg s))
  | .fire _ => inferInstanceAs (Decidable (∀ _ ∈ _, _))
  | .reset => inferInstanceAs (Decidable (ResetMeets s))

/-! ## What the functions change -/

variable {cfg : Settings} {s s' : State}

theorem updateModifiers_eq (synthetic : Modifiers) (release : Bool) :
    updateModifiers synthetic release s = { s with
      heldKeys :=
        if release then s.heldKeys \ modifierCodes synthetic
        else s.heldKeys ∪ modifierCodes synthetic } := by
  have hcodes : (updateModifiers synthetic release s).heldKeys =
      if release then s.heldKeys \ modifierCodes synthetic
      else s.heldKeys ∪ modifierCodes synthetic := by
    ext code
    obtain ⟨shift, ctrl, alt⟩ := synthetic
    cases release <;> cases shift <;> cases ctrl <;> cases alt <;>
      simp [updateModifiers, keyboardUpdate, modifierCodes] <;> tauto
  rw [← hcodes]
  obtain ⟨shift, ctrl, alt⟩ := synthetic
  cases shift <;> cases ctrl <;> cases alt <;> rfl

theorem sendKeyAndModifiers_press (keyCode : UInt16) (synthetic : Modifiers) :
    sendKeyAndModifiers cfg keyCode false synthetic s = { s with
      heldKeys := insert (mapKeycode cfg keyCode) s.heldKeys \ modifierCodes synthetic } := by
  have hcodes : insert (mapKeycode cfg keyCode) (s.heldKeys ∪ modifierCodes synthetic) \
      modifierCodes synthetic =
      insert (mapKeycode cfg keyCode) s.heldKeys \ modifierCodes synthetic := by
    ext code
    simp only [Finset.mem_sdiff, Finset.mem_insert, Finset.mem_union]
    tauto
  simp [sendKeyAndModifiers, updateModifiers_eq, keyboardUpdate, hcodes]

theorem sendKeyAndModifiers_release (keyCode : UInt16) (synthetic : Modifiers) :
    sendKeyAndModifiers cfg keyCode true synthetic s = { s with
      heldKeys := s.heldKeys.erase (mapKeycode cfg keyCode) } := rfl

/-! ## Timers -/

/-- A release of the left button is on its way. -/
def ReleasePending (s : State) : Prop := ∃ entry ∈ s.delayed, isLeftRelease entry = true

structure Timers (s : State) : Prop where
  fresh : ∀ entry ∈ s.delayed, entry.1 < s.nextId
  unique : ∀ entry ∈ s.delayed, ∀ other ∈ s.delayed, entry.1 = other.1 → entry = other
  repeatId : ∀ id, s.keyPressRepeatId = some id → id < s.nextId ∧
    ∀ entry ∈ s.delayed, entry.1 = id → isLeftRelease entry = false

theorem mem_cancel {id : Option ℕ} {entry : ℕ × Delayed} :
    entry ∈ (cancel id s).delayed ↔ entry ∈ s.delayed ∧ some entry.1 ≠ id := by
  simp [cancel]

theorem Timers.cancel (h : Timers s) (id : Option ℕ) : Timers (cancel id s) where
  fresh := by
    intro entry hentry
    exact h.fresh entry (mem_cancel.mp hentry).1
  unique := by
    intro entry hentry other hother
    exact h.unique entry (mem_cancel.mp hentry).1 other (mem_cancel.mp hother).1
  repeatId := by
    intro id' hid'
    exact ⟨(h.repeatId id' hid').1,
      fun entry hentry => (h.repeatId id' hid').2 entry (mem_cancel.mp hentry).1⟩

/-- A new timer; it may be the repeat that is remembered, if it is one. -/
theorem Timers.pushDelayed (h : Timers s) (task : Delayed) :
    Timers (pushDelayed task s) where
  fresh := by
    intro entry hentry
    simp only [Held.pushDelayed, List.mem_append, List.mem_singleton] at hentry ⊢
    rcases hentry with hentry | rfl
    · exact Nat.lt_succ_of_lt (h.fresh entry hentry)
    · exact Nat.lt_succ_self _
  unique := by
    intro entry hentry other hother heq
    simp only [Held.pushDelayed, List.mem_append, List.mem_singleton] at hentry hother
    rcases hentry with hentry | rfl <;> rcases hother with hother | rfl
    · exact h.unique entry hentry other hother heq
    · exact absurd heq (h.fresh entry hentry).ne
    · exact absurd heq.symm (h.fresh other hother).ne
    · rfl
  repeatId := by
    intro id hid
    have hold := h.repeatId id hid
    refine ⟨Nat.lt_succ_of_lt hold.1, ?_⟩
    intro entry hentry heq
    simp only [Held.pushDelayed, List.mem_append, List.mem_singleton] at hentry
    rcases hentry with hentry | rfl
    · exact hold.2 entry hentry heq
    · exact absurd heq hold.1.ne'

theorem Timers.pushRepeat (h : Timers s) (key : KeyPressId) (synthetic : Modifiers) :
    Timers { Held.pushDelayed (.repeatKey key synthetic) s with
      keyPressRepeatId := some s.nextId } where
  fresh := (h.pushDelayed _).fresh
  unique := (h.pushDelayed _).unique
  repeatId := by
    intro id hid
    rw [← Option.some.inj hid]
    refine ⟨Nat.lt_succ_self _, ?_⟩
    intro entry hentry heq
    simp only [Held.pushDelayed, List.mem_append, List.mem_singleton] at hentry
    rcases hentry with hentry | rfl
    · exact absurd heq (h.fresh entry hentry).ne
    · rfl

theorem ReleasePending.pushDelayed (h : ReleasePending s) (task : Delayed) :
    ReleasePending (pushDelayed task s) := by
  obtain ⟨entry, hentry, hleft⟩ := h
  exact ⟨entry, List.mem_append_left _ hentry, hleft⟩

/-- Cancelling the repeat leaves the release of the left button. -/
theorem Timers.releasePending_cancel (h : Timers s) (hpending : ReleasePending s) :
    ReleasePending (Held.cancel s.keyPressRepeatId s) := by
  obtain ⟨entry, hentry, hleft⟩ := hpending
  refine ⟨entry, mem_cancel.mpr ⟨hentry, ?_⟩, hleft⟩
  intro heq
  have hfalse := (h.repeatId entry.1 heq.symm).2 entry hentry rfl
  simp [hleft] at hfalse

/-! ## The invariant -/

structure Inv (cfg : Settings) (s : State) : Prop where
  keys : s.heldKeys = mappedCodes cfg s.keyPress
  timers : Timers s
  buttons : ∀ button ∈ s.heldButtons, tracked button = true →
    button ∈ s.mousePress ∨ button = buttonLeft ∧ ReleasePending s
  ended : s.wasReset = true →
    s.keyPress = ∅ ∧ s.mousePress = ∅ ∧ ∀ button ∈ s.heldButtons, tracked button = true

theorem inv_initial : Inv cfg .initial where
  keys := rfl
  timers := ⟨by simp [State.initial], by simp [State.initial], by simp [State.initial]⟩
  buttons := by simp [State.initial]
  ended := by simp [State.initial]

/-! ## The keyboard keeps it -/

theorem Timers.armRepeat (h : Timers s) (key : KeyPressId) (synthetic : Modifiers) :
    Timers (armRepeat cfg key synthetic s) := by
  rw [Held.armRepeat]
  split
  · exact (h.cancel s.keyPressRepeatId).pushRepeat key synthetic
  · exact h.cancel s.keyPressRepeatId

theorem Timers.releasePending_armRepeat (h : Timers s) (hpending : ReleasePending s)
    (key : KeyPressId) (synthetic : Modifiers) :
    ReleasePending (Held.armRepeat cfg key synthetic s) := by
  have hcancel := h.releasePending_cancel hpending
  rw [Held.armRepeat]
  split
  · exact hcancel.pushDelayed (.repeatKey key synthetic)
  · exact hcancel

/-- Arming the repeat touches the timers alone. -/
theorem armRepeat_frame (key : KeyPressId) (synthetic : Modifiers) :
    (armRepeat cfg key synthetic s).heldKeys = s.heldKeys ∧
      (armRepeat cfg key synthetic s).heldButtons = s.heldButtons ∧
      (armRepeat cfg key synthetic s).keyPress = s.keyPress ∧
      (armRepeat cfg key synthetic s).mousePress = s.mousePress ∧
      (armRepeat cfg key synthetic s).wasReset = s.wasReset := by
  rw [armRepeat]
  split <;> simp [pushDelayed, cancel]

theorem keyChange_pressed {release : Bool} {key : KeyPressId}
    (h : keyChange cfg s release key = .pressed) : release = false := by
  grind [keyChange]

theorem keyChange_released {release : Bool} {key : KeyPressId}
    (h : keyChange cfg s release key = .released) : release = true := by
  grind [keyChange]

/-- Raising modifiers no pressed key is sent as takes no pressed key away. -/
theorem Apart.sdiff {synthetic : Modifiers} {keyPress : Finset KeyPressId}
    (h : Apart cfg synthetic keyPress) :
    mappedCodes cfg keyPress \ modifierCodes synthetic = mappedCodes cfg keyPress := by
  rw [Finset.sdiff_eq_self_iff_disjoint, Finset.disjoint_left]
  intro code hcode
  obtain ⟨key, hkey, rfl⟩ := Finset.mem_image.mp hcode
  exact h key hkey

theorem mappedCodes_insert (key : KeyPressId) (keyPress : Finset KeyPressId) :
    mappedCodes cfg (insert key keyPress) =
      insert (mapKeycode cfg key.vk) (mappedCodes cfg keyPress) :=
  Finset.image_insert _ _ _

theorem mappedCodes_erase {keyPress : Finset KeyPressId} {key : KeyPressId}
    (h : ∀ other ∈ keyPress.erase key, mapKeycode cfg other.vk ≠ mapKeycode cfg key.vk) :
    mappedCodes cfg (keyPress.erase key) =
      (mappedCodes cfg keyPress).erase (mapKeycode cfg key.vk) := by
  ext code
  simp only [mappedCodes, Finset.mem_erase, Finset.mem_image]
  constructor
  · rintro ⟨other, hother, rfl⟩
    exact ⟨h other (Finset.mem_erase.mpr hother), other, hother.2, rfl⟩
  · rintro ⟨hne, other, hother, rfl⟩
    exact ⟨other, ⟨fun heq => hne (by rw [heq]), hother⟩, rfl⟩

theorem Inv.updateKey (h : Inv cfg s) {release : Bool} {key : KeyPressId}
    {synthetic : Modifiers}
    (hmeets : KeyMeets cfg s key synthetic (keyChange cfg s release key)) :
    Inv cfg (updateKey cfg release key synthetic s) := by
  rw [Held.updateKey]
  cases hchange : keyChange cfg s release key with
  | ignored => exact h
  | pressed =>
      rw [hchange] at hmeets
      obtain ⟨hreset, hapart⟩ := hmeets
      obtain ⟨hheld, hbuttons, hkeys, hmouse, hended⟩ :=
        @armRepeat_frame cfg s key synthetic
      have htimers := @Timers.armRepeat cfg s h.timers key synthetic
      simp only [finishKey, keyChange_pressed hchange, sendKeyAndModifiers_press]
      constructor
      · dsimp only
        rw [hheld, hkeys, h.keys, ← mappedCodes_insert, hapart.sdiff]
      · exact { htimers with }
      · intro button hbutton htracked
        dsimp only at hbutton ⊢
        rw [hbuttons] at hbutton
        rw [hmouse]
        exact (h.buttons button hbutton htracked).imp_right fun hleft =>
          ⟨hleft.1, h.timers.releasePending_armRepeat hleft.2 key synthetic⟩
      · intro hafter
        dsimp only at hafter
        rw [hended, hreset] at hafter
        cases hafter
  | released =>
      rw [hchange] at hmeets
      simp only [finishKey, keyChange_released hchange, sendKeyAndModifiers_release]
      constructor
      · dsimp only
        rw [h.keys, mappedCodes_erase hmeets]
      · exact { h.timers with }
      · exact h.buttons
      · intro hafter
        obtain ⟨hkeys, hmouse, htracked⟩ := h.ended hafter
        exact ⟨by simp [hkeys], hmouse, htracked⟩

theorem Inv.repeatKey (h : Inv cfg s) {key : KeyPressId} {synthetic : Modifiers}
    (hmeets : DelayedMeets cfg s (.repeatKey key synthetic)) :
    Inv cfg (repeatKey cfg key synthetic s) := by
  rw [Held.repeatKey]
  split
  · case isTrue hkey =>
      simp only [sendKeyAndModifiers_press]
      constructor
      · dsimp only [Held.pushDelayed]
        rw [h.keys, ← mappedCodes_insert, Finset.insert_eq_of_mem hkey, (hmeets hkey).sdiff]
      · exact { h.timers.pushRepeat key synthetic with }
      · intro button hbutton htracked
        exact (h.buttons button hbutton htracked).imp_right fun hleft =>
          ⟨hleft.1, hleft.2.pushDelayed (.repeatKey key synthetic)⟩
      · exact h.ended
  · exact { h with timers := { h.timers with repeatId := fun id hid => by cases hid } }

/-! ## The mouse keeps it -/

/-- Only the table changes. -/
theorem updateMousePress_frame (release : Bool) (button : ℕ) :
    updateMousePress release button s =
      { s with mousePress := (updateMousePress release button s).mousePress } := by
  rw [updateMousePress]
  split <;> rfl

theorem mem_updateMousePress {release : Bool} {button other : ℕ} (h : tracked other = true) :
    other ∈ (updateMousePress release button s).mousePress ↔
      if other = button then release = false else other ∈ s.mousePress := by
  rw [updateMousePress]
  by_cases heq : other = button
  · subst heq
    cases release <;> simp [h]
  · cases release <;> cases tracked button <;> simp [heq]

/-- A release only takes out of the table. -/
theorem updateMousePress_release {button : ℕ} (h : s.mousePress = ∅) :
    (updateMousePress true button s).mousePress = ∅ := by
  rw [updateMousePress]
  split <;> simp [h]

theorem Inv.passthroughMouseButton (h : Inv cfg s) {release : Bool} {button : ℕ}
    (hmeets : DispatchMeets cfg s (.mouseButton release button)) :
    Inv cfg (passthroughMouseButton cfg release button s) := by
  rw [Held.passthroughMouseButton]
  split
  · exact h
  split
  · exact h
  case isFalse hmouse _ =>
  have hpress : release = false → s.wasReset = false := hmeets (by simpa using hmouse)
  have hmem := @mem_updateMousePress s release button
  have hnone : s.wasReset = true → (updateMousePress release button s).mousePress = ∅ := by
    intro hafter
    cases release with
    | true => exact updateMousePress_release (h.ended hafter).2.1
    | false => simp [hpress rfl] at hafter
  rw [updateMousePress_frame]
  generalize (updateMousePress release button s).mousePress = mousePress at hmem hnone ⊢
  dsimp only
  split
  · case isTrue hleft =>
      -- the release is left to the timer
      obtain ⟨rfl, rfl, -⟩ := hleft
      refine ⟨h.keys, { h.timers.pushDelayed .leftRelease with }, ?_, ?_⟩
      · intro other hother htracked
        by_cases heq : other = buttonLeft
        · exact Or.inr ⟨heq, _, List.mem_append_right _ List.mem_cons_self, rfl⟩
        · have hpressed := (h.buttons other hother htracked).resolve_right fun hr => heq hr.1
          exact Or.inl ((hmem htracked).mpr (by simpa [heq] using hpressed))
      · intro hafter
        exact ⟨(h.ended hafter).1, hnone hafter, (h.ended hafter).2.2⟩
  split
  · case isTrue hright =>
      -- the button goes down and up at once
      obtain ⟨rfl, hdown, -⟩ := hright
      have hrelease : release = false := by simpa using hdown
      refine ⟨h.keys, { h.timers with }, ?_, ?_⟩
      · intro other hother htracked
        have hup : other ≠ buttonRight ∧ other ∈ insert buttonRight s.heldButtons :=
          Finset.mem_erase.mp hother
        have hheld := Finset.mem_of_mem_insert_of_ne hup.2 hup.1
        refine (h.buttons other hheld htracked).imp_left fun hpressed => ?_
        exact Finset.mem_erase.mpr ⟨hup.1, (hmem htracked).mpr (by simpa [hup.1] using hpressed)⟩
      · intro hafter
        exact absurd hafter (by simp [buttonMouse, hpress hrelease])
  · refine ⟨h.keys, { h.timers with }, ?_, ?_⟩
    · intro other hother htracked
      by_cases heq : other = button
      · have hdown : release = false := by
          cases release with
          | true => exact absurd heq (Finset.mem_erase.mp hother).1
          | false => rfl
        exact Or.inl ((hmem htracked).mpr (by simpa [heq] using hdown))
      · have hheld : other ∈ s.heldButtons := by
          cases release with
          | true => exact Finset.mem_of_mem_erase hother
          | false => exact Finset.mem_of_mem_insert_of_ne hother heq
        refine (h.buttons other hheld htracked).imp_left fun hpressed => ?_
        exact (hmem htracked).mpr (by simpa [heq] using hpressed)
    · intro hafter
      refine ⟨(h.ended hafter).1, hnone hafter, ?_⟩
      intro other hother
      cases release with
      | true => exact (h.ended hafter).2.2 other (Finset.mem_of_mem_erase hother)
      | false => exact absurd hafter (by simp [buttonMouse, hpress rfl])

/-- A release that came due makes up for its timer. -/
theorem Inv.leftRelease (h : Inv cfg s) (id : ℕ) : Inv cfg (leftRelease (cancel (some id) s)) := by
  rw [Held.leftRelease]
  split
  · case isTrue hdown =>
      refine ⟨h.keys, h.timers.cancel _, ?_, h.ended⟩
      intro other hother htracked
      rcases h.buttons other hother htracked with hpressed | ⟨rfl, -⟩
      · exact Or.inl hpressed
      · exact Or.inl hdown
  · refine ⟨h.keys, { h.timers.cancel (some id) with }, ?_, ?_⟩
    · intro other hother htracked
      have hheld := Finset.mem_erase.mp hother
      have hpressed := (h.buttons other hheld.2 htracked).resolve_right fun hr => hheld.1 hr.1
      exact Or.inl (Finset.mem_erase.mpr ⟨hheld.1, hpressed⟩)
    · intro hafter
      obtain ⟨hkeys, hmouse, htracked⟩ := h.ended hafter
      refine ⟨hkeys, by simp [buttonMouse, cancel, hmouse], ?_⟩
      intro other hother
      exact htracked other (Finset.mem_of_mem_erase hother)

theorem Inv.dispatch (h : Inv cfg s) {payload : Packet} (hmeets : DispatchMeets cfg s payload) :
    Inv cfg (dispatch cfg payload s) := by
  cases payload with
  | relMouseMove deltaX deltaY =>
      simp only [Held.dispatch, passthroughRelMouseMove]
      split
      · exact { h with timers := { h.timers with } }
      · exact h
  | absMouseMove x y width height =>
      simp only [Held.dispatch, passthroughAbsMouseMove]
      split
      · exact { h with timers := { h.timers with } }
      · exact h
  | mouseButton release button => exact h.passthroughMouseButton hmeets
  | keyboard release flags keyCode modifiers => exact h.updateKey hmeets
  | _ => exact h

/-! ## Tasks keep it -/

/-- The queue and the list of tasks play no part. -/
theorem Inv.tasks (h : Inv cfg s) (queue : List Packet) (scheduled : Bool) (tasks : List Task) :
    Inv cfg { s with queue, scheduled, tasks } :=
  { h with timers := { h.timers with } }

theorem Inv.passthroughNextMessage (h : Inv cfg s)
    (hmeets : ∀ dest queue, s.queue = dest :: queue →
      DispatchMeets cfg s (batchLoop dest queue).1) :
    Inv cfg (passthroughNextMessage cfg s) := by
  rw [Held.passthroughNextMessage]
  split
  · exact h.tasks _ false _
  · case h_2 dest queue hqueue =>
      have hdispatch := @Inv.dispatch cfg _ (h.tasks (batchLoop dest queue).2 s.scheduled s.tasks)
        (batchLoop dest queue).1 (hmeets dest queue hqueue)
      dsimp only
      split
      · exact hdispatch.tasks _ false _
      · exact hdispatch.tasks _ _ _

theorem Inv.resetTask (h : Inv cfg s) (hmeets : ResetTaskMeets cfg s) :
    Inv cfg (resetTask s) := by
  have hheld : ∀ button, button ∈ s.heldButtons \ s.mousePress →
      button ∈ s.heldButtons ∧ button ∉ s.mousePress := fun _ => Finset.mem_sdiff.mp
  refine ⟨?_, { h.timers with }, ?_, ?_⟩
  · have hcover : mappedCodes cfg s.keyPress ⊆ s.keyPress.image fun key => key.vk &&& 0x00FF := by
      intro code hcode
      obtain ⟨key, hkey, rfl⟩ := Finset.mem_image.mp hcode
      obtain ⟨other, hother, heq⟩ := hmeets.1 key hkey
      exact Finset.mem_image.mpr ⟨other, hother, heq⟩
    simp only [Held.resetTask, h.keys, Finset.sdiff_eq_empty_iff_subset.mpr hcover]
    rfl
  · intro button hbutton htracked
    obtain ⟨hdown, hup⟩ := hheld button hbutton
    exact Or.inr ((h.buttons button hdown htracked).resolve_left hup)
  · intro _
    exact ⟨rfl, rfl, fun button hbutton => hmeets.2 button (hheld button hbutton).1⟩

theorem Inv.reset (h : Inv cfg s) (hmeets : ResetMeets s) : Inv cfg (reset s) := by
  refine ⟨h.keys, { (h.timers.cancel _).cancel _ with }, ?_, h.ended⟩
  intro button hbutton htracked
  rcases h.buttons button hbutton htracked with hpressed | ⟨rfl, -⟩
  · exact Or.inl hpressed
  · refine (hmeets hbutton).imp_right fun ⟨entry, hentry, hleft, hne⟩ => ⟨rfl, entry, ?_, hleft⟩
    refine mem_cancel.mpr ⟨mem_cancel.mpr ⟨hentry, ?_⟩, hne⟩
    intro heq
    have hfalse := (h.timers.repeatId entry.1 heq.symm).2 entry hentry rfl
    simp [hleft] at hfalse

/-- A repeat that comes due leaves the release of the left button. -/
theorem Inv.cancelRepeat (h : Inv cfg s) {id : ℕ} {key : KeyPressId} {synthetic : Modifiers}
    (hentry : (id, .repeatKey key synthetic) ∈ s.delayed) : Inv cfg (cancel (some id) s) := by
  refine ⟨h.keys, h.timers.cancel _, ?_, h.ended⟩
  intro button hbutton htracked
  refine (h.buttons button hbutton htracked).imp_right ?_
  rintro ⟨heq, entry, hpending, hleft⟩
  refine ⟨heq, entry, mem_cancel.mpr ⟨hpending, ?_⟩, hleft⟩
  intro hid
  rw [h.timers.unique entry hpending _ hentry (Option.some.inj hid)] at hleft
  cases hleft

theorem Inv.fire (h : Inv cfg s) {id : ℕ} {task : Delayed} (hentry : (id, task) ∈ s.delayed)
    (hmeets : DelayedMeets cfg s task) : Inv cfg (runDelayed cfg task (cancel (some id) s)) := by
  cases task with
  | repeatKey key synthetic => exact (h.cancelRepeat hentry).repeatKey hmeets
  | leftRelease => exact h.leftRelease id

theorem Inv.step (h : Inv cfg s) {label : Label} (hmeets : Meets cfg s label)
    (hstep : step cfg s label = some s') : Inv cfg s' := by
  cases label with
  | enqueue packet =>
      simp only [Held.step] at hstep
      split at hstep
      · cases hstep
      · rw [← Option.some.inj hstep]
        exact h.tasks _ true _
  | runTask =>
      simp only [Held.step] at hstep
      split at hstep
      · cases hstep
      · case h_2 tasks htasks =>
          rw [← Option.some.inj hstep]
          refine (h.tasks s.queue s.scheduled tasks).passthroughNextMessage ?_
          intro dest queue hqueue
          have hqueue' : s.queue = dest :: queue := hqueue
          have hdispatch : DispatchMeets cfg s (batchLoop dest queue).1 := by
            simpa [Meets, TaskMeets, htasks, hqueue'] using hmeets
          exact hdispatch
      · case h_3 tasks htasks =>
          rw [← Option.some.inj hstep]
          have hreset : ResetTaskMeets cfg s := by
            simpa [Meets, TaskMeets, htasks] using hmeets
          exact (h.tasks s.queue s.scheduled tasks).resetTask hreset
  | fire id =>
      simp only [Held.step] at hstep
      split at hstep
      · cases hstep
      · case h_2 id' task hfind =>
          rw [← Option.some.inj hstep]
          have hid : id' = id := by simpa using List.find?_some hfind
          subst hid
          have hentry := List.mem_of_find?_eq_some hfind
          exact h.fire hentry (hmeets _ hentry rfl)
  | reset =>
      simp only [Held.step] at hstep
      split at hstep
      · cases hstep
      · rw [← Option.some.inj hstep]
        exact h.reset hmeets

/-- **Nothing stays held.**  In a run whose steps all meet the condition the platform holds the
remapped codes of the entries marked pressed, and once the reset task has run and the pool is
drained it holds no key and no button. -/
theorem held_run {labels : List Label} (hrun : run (step cfg) .initial labels = some s)
    (hmeets : RunMeets (step cfg) (Meets cfg) .initial labels) :
    s.heldKeys = mappedCodes cfg s.keyPress ∧
      (s.wasReset = true → s.tasks = [] → s.delayed = [] →
        s.heldKeys = ∅ ∧ s.heldButtons = ∅) := by
  have hinv : Inv cfg s := run_invariant_of_meets (fun s label s' h hmeets hstep =>
    h.step hmeets hstep) inv_initial hmeets hrun
  refine ⟨hinv.keys, ?_⟩
  intro hreset _ hdelayed
  obtain ⟨hkeys, hmouse, htracked⟩ := hinv.ended hreset
  constructor
  · rw [hinv.keys, hkeys]
    rfl
  · rw [Finset.eq_empty_iff_forall_notMem]
    intro button hbutton
    rcases hinv.buttons button hbutton (htracked button hbutton) with hpressed | ⟨-, entry, hentry, -⟩
    · simp [hmouse] at hpressed
    · simp [hdelayed] at hentry

/-- The bindings the source starts with: each modifier goes to its left twin. -/
def defaultKeybindings (keycode : UInt16) : Option UInt16 :=
  if keycode = vkeyShift then some vkeyLshift
  else if keycode = vkeyControl then some vkeyLcontrol
  else if keycode = vkeyMenu then some vkeyLmenu
  else none

def defaults : Settings := ⟨true, true, defaultKeybindings, true⟩

/-- A capital `A` is held through its repeat, the left button is clicked at an absolute
position, and the right button goes down; then the session ends. -/
def heldUntilReset : List Label :=
  [.enqueue (.keyboard false 0 0x8041 1), .runTask, .enqueue (.absMouseMove 1 1 100 100),
    .runTask, .enqueue (.mouseButton false 1), .enqueue (.mouseButton true 1), .runTask, .runTask,
    .fire 0, .fire 1, .enqueue (.mouseButton false 3), .runTask, .reset, .runTask]

theorem held_run_heldUntilReset :
    ∃ s, run (step defaults) .initial heldUntilReset = some s ∧ s.heldKeys = ∅ ∧
      s.heldButtons = ∅ := by
  obtain ⟨s, hrun, hs⟩ := (Option.any_eq_true _ _).mp
    (show (run (step defaults) .initial heldUntilReset).any (fun s => s.wasReset &&
      decide (s.tasks = []) && decide (s.delayed = [])) = true by rfl)
  simp only [Bool.and_eq_true, decide_eq_true_eq] at hs
  exact ⟨s, hrun, (held_run hrun (by decide)).2 hs.1.1 hs.1.2 hs.2⟩

/-- Shift that is down when the session ends stays down: it was pressed as left Shift and is
released as Shift.  So does the left button, released at an absolute position just before. -/
theorem held_after_reset :
    (∃ s, run (step defaults) .initial
        [.enqueue (.keyboard false 0 0x8010 0), .runTask, .reset, .runTask] = some s ∧
      s.tasks = [] ∧ s.delayed = [] ∧ s.heldKeys = {vkeyLshift}) ∧
    ∃ s, run (step defaults) .initial
        [.enqueue (.mouseButton false 1), .runTask, .enqueue (.mouseButton true 1), .runTask,
          .reset, .runTask] = some s ∧
      s.tasks = [] ∧ s.delayed = [] ∧ s.heldButtons = {buttonLeft} := by
  constructor
  · obtain ⟨s, hrun, hs⟩ := (Option.any_eq_true _ _).mp
      (show (run (step defaults) .initial
          [.enqueue (.keyboard false 0 0x8010 0), .runTask, .reset, .runTask]).any (fun s =>
            decide (s.tasks = []) && decide (s.delayed = []) &&
            decide (s.heldKeys = {vkeyLshift})) = true by rfl)
    simp only [Bool.and_eq_true, decide_eq_true_eq] at hs
    exact ⟨s, hrun, hs.1.1, hs.1.2, hs.2⟩
  · obtain ⟨s, hrun, hs⟩ := (Option.any_eq_true _ _).mp
      (show (run (step defaults) .initial
          [.enqueue (.mouseButton false 1), .runTask, .enqueue (.mouseButton true 1), .runTask,
            .reset, .runTask]).any (fun s =>
            decide (s.tasks = []) && decide (s.delayed = []) &&
            decide (s.heldButtons = {buttonLeft})) = true by rfl)
    simp only [Bool.and_eq_true, decide_eq_true_eq] at hs
    exact ⟨s, hrun, hs.1.1, hs.1.2, hs.2⟩

end LuminalShine.Input.Held
