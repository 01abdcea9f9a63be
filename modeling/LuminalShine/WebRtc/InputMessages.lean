import LuminalShine.Lib.JsonReads
import LuminalShine.Lib.Run
import Mathlib.Data.Int.Notation

/-!
# Input messages of the data channel

A text message on the input channel is one JSON value.  `handle_input_message` reads the fields
of its type and passes packets on to the input context.  A typed read of a value of another type
raises, and so does any read of a message that is not an object; what has been done by then
stays.

The packets are given by what their makers are called with.  The state keeps a history: what has
been passed on, which controllers were disconnected, and whether anything was raised out of the
callback.

## Main definitions

* `Packet`, `Event`, `State`.
* `handleInputMessage` — the handler, one definition for each type of message.
* `onTextMessage` — one message that the callback receives.
-/

namespace LuminalShine.WebRtc.InputMessages

open LuminalShine.Lib
open LuminalShine.Lib.JsonValue (getString getBoolean getDouble getInt)

/-- The number of a controller that has a bit in `webrtc_gamepads`. -/
abbrev Controller := Fin 16

inductive Packet where
  | absMouseMove (x y : Float)
  | mouseButton (button : ℤ) (release : Bool)
  | scroll (amount : ℤ)
  | hscroll (amount : ℤ)
  | keyboard (keyCode : ℤ) (release : Bool) (modifiers : UInt8)
  | arrival (controller : Controller) (type : UInt8) (capabilities : UInt16)
      (supportedButtons : UInt32)
  | gamepadState (controller : Controller) (activeMask : UInt16) (buttons : UInt32)
      (leftTrigger rightTrigger : UInt8) (lsX lsY rsX rsY : Int16)
  | gamepadMotion (controller : Controller) (type : UInt8) (x y z : Float32)

inductive Event where
  | passed (packet : Packet)
  | disconnected (controller : Controller)
  /-- The input context was replaced, which resets every controller. -/
  | renewed

/-- `log` has the newest event first. -/
structure State where
  gamepads : Controller → Bool := fun _ => false
  log : List Event := []
  raised : Bool := false

/-- An arrival packet for the controller has been passed on since its last disconnect. -/
def arrived : List Event → Controller → Bool
  | [], _ => false
  | .passed (.arrival c _ _ _) :: log, c' => c == c' || arrived log c'
  | .passed _ :: log, c' => arrived log c'
  | .disconnected c :: log, c' => c != c' && arrived log c'
  | .renewed :: _, _ => false

namespace State

def pass (s : State) (packet : Packet) : State := { s with log := .passed packet :: s.log }

def connect (s : State) (c : Controller) : State :=
  { s with gamepads := fun c' => c == c' || s.gamepads c' }

def disconnect (s : State) (c : Controller) : State :=
  { s with gamepads := fun c' => c != c' && s.gamepads c', log := .disconnected c :: s.log }

def renew (s : State) : State :=
  { s with gamepads := fun _ => false, log := .renewed :: s.log }

end State

/-- What is raised is not looked at; the state stays as it was. -/
abbrev Handle := EStateM Unit State

/-! ## Reads -/

def field {α : Type} (get : JsonValue → Option α) (key : String) (default : α)
    (message : JsonValue) : Handle α :=
  match message.value get key default with
  | some a => pure a
  | none => throw ()

def text (key : String) : JsonValue → Handle String := field getString key ""

def flag (key : String) : JsonValue → Handle Bool := field getBoolean key false

def number (key : String) : JsonValue → Handle Float := field getDouble key 0

def integer (key : String) (default : ℤ) : JsonValue → Handle ℤ := field getInt key default

def passthrough (packet : Packet) : Handle Unit := modify fun s => s.pass packet

/-- `static_cast<int>(std::lround(x))` -/
def lround (x : Float) : ℤ := x.round.toInt64.toInt.bmod 4294967296

/-! ## Mouse -/

def mapMouseButton (button : ℤ) : ℤ := if 0 ≤ button ∧ button ≤ 4 then button + 1 else -1

def mouseMove (message : JsonValue) : Handle Unit := do
  let x ← number "x" message
  let y ← number "y" message
  passthrough (.absMouseMove x y)

/-- Where the message says that the pointer is, if it has both coordinates. -/
def mousePosition (message : JsonValue) : Handle Unit :=
  if message.contains "x" && message.contains "y" then mouseMove message else pure ()

def mouseButton (release : Bool) (message : JsonValue) : Handle Unit := do
  mousePosition message
  let button ← integer "button" (-1) message
  if 0 < mapMouseButton button then passthrough (.mouseButton (mapMouseButton button) release)

def passNonzero (amount : ℤ) (packet : Packet) : Handle Unit :=
  if amount = 0 then pure () else passthrough packet

def wheel (message : JsonValue) : Handle Unit := do
  let dx ← number "dx" message
  let dy ← number "dy" message
  let vscroll := lround (-dy * 120)
  let hscroll := lround (dx * 120)
  passNonzero vscroll (.scroll vscroll)
  passNonzero hscroll (.hscroll hscroll)

/-! ## Keyboard -/

def isspace (c : Char) : Bool := c == ' ' || '\t' ≤ c && c ≤ '\r'

def digitsValue (cs : List Char) : ℤ :=
  ((cs.takeWhile Char.isDigit).foldl (fun n c => 10 * n + (c.toNat - 48)) 0 : ℕ)

/-- `std::atoi` of a text that is short. -/
def atoi (cs : List Char) : ℤ :=
  match cs.dropWhile isspace with
  | '-' :: rest => -digitsValue rest
  | '+' :: rest => digitsValue rest
  | rest => digitsValue rest

/-- The codes with names of their own, up to the function keys. -/
def namedCodes : List (String × ℤ) :=
  [("Space", 0x20), ("Enter", 0x0D), ("Tab", 0x09), ("Escape", 0x1B), ("Backspace", 0x08),
    ("Delete", 0x2E), ("Insert", 0x2D), ("Home", 0x24), ("End", 0x23), ("PageUp", 0x21),
    ("PageDown", 0x22), ("ArrowLeft", 0x25), ("ArrowUp", 0x26), ("ArrowRight", 0x27),
    ("ArrowDown", 0x28), ("CapsLock", 0x14), ("ShiftLeft", 0xA0), ("ShiftRight", 0xA1),
    ("ControlLeft", 0xA2), ("ControlRight", 0xA3), ("AltLeft", 0xA4), ("AltRight", 0xA5),
    ("MetaLeft", 0x5B), ("MetaRight", 0x5C), ("ContextMenu", 0x5D), ("PrintScreen", 0x2C),
    ("ScrollLock", 0x91), ("Pause", 0x13), ("NumLock", 0x90)]

def numpadCodes : List (String × ℤ) :=
  [("NumpadAdd", 0x6B), ("NumpadSubtract", 0x6D), ("NumpadMultiply", 0x6A),
    ("NumpadDivide", 0x6F), ("NumpadDecimal", 0x6E), ("NumpadEnter", 0x0D)]

def signCodes : List (String × ℤ) :=
  [("Minus", 0xBD), ("Equal", 0xBB), ("BracketLeft", 0xDB), ("BracketRight", 0xDD),
    ("Backslash", 0xDC), ("Semicolon", 0xBA), ("Quote", 0xDE), ("Backquote", 0xC0),
    ("Comma", 0xBC), ("Period", 0xBE), ("Slash", 0xBF)]

/-- The fourth byte of `Key?`. -/
def letterKey (code : String) : Option ℤ :=
  match code.toList with
  | ['K', 'e', 'y', letter] => if letter.toNat < 128 then some letter.toUpper.toNat else none
  | _ => none

def digitKey (code : String) : Option ℤ :=
  match code.toList with
  | ['D', 'i', 'g', 'i', 't', digit] => if digit.isDigit then some digit.toNat else none
  | _ => none

def functionKey (code : String) : Option ℤ :=
  match code.toList with
  | 'F' :: rest =>
      if 2 ≤ code.utf8ByteSize ∧ code.utf8ByteSize ≤ 3 ∧ 1 ≤ atoi rest ∧ atoi rest ≤ 24 then
        some (0x70 + (atoi rest - 1))
      else none
  | _ => none

def numpadKey (code : String) : Option ℤ :=
  match code.toList with
  | ['N', 'u', 'm', 'p', 'a', 'd', digit] =>
      if digit.isDigit then some (0x60 + (digit.toNat - 48 : ℕ)) else none
  | _ => numpadCodes.lookup code

/-- A key that is one letter or digit stands for itself. -/
def typedKey (key : String) : Option ℤ :=
  match key.toList with
  | [ch] => if ch.isAlphanum then some ch.toUpper.toNat else none
  | _ => none

def mapDomCodeToVk (code key : String) : Option ℤ :=
  letterKey code <|> digitKey code <|> namedCodes.lookup code <|> functionKey code <|>
    numpadKey code <|> signCodes.lookup code <|> typedKey key

def modifiersFromJson (input : JsonValue) : Handle UInt8 := do
  let shift ← flag "shift" input
  let ctrl ← flag "ctrl" input
  let alt ← flag "alt" input
  let win ← flag "meta" input
  pure (shift.toUInt8 ||| ctrl.toUInt8 <<< 1 ||| alt.toUInt8 <<< 2 ||| win.toUInt8 <<< 3)

/-- Modifiers that are not an object are left alone. -/
def modifiersOf (message : JsonValue) : Handle UInt8 :=
  match message.find? "modifiers" with
  | some (.object fields) => modifiersFromJson (.object fields)
  | _ => pure 0

def keyboard (release : Bool) (message : JsonValue) : Handle Unit := do
  let code ← text "code" message
  let key ← text "key" message
  match mapDomCodeToVk code key with
  | none => pure ()
  | some keyCode => do
      let mods ← modifiersOf message
      passthrough (.keyboard keyCode release mods)

/-! ## Gamepads -/

/-- `parse_gamepad_type`, which looks at the type of the value before it reads it. -/
def parseGamepadType (message : JsonValue) : UInt8 :=
  match message.find? "gamepadType" with
  | some (.integer n) => .ofInt n
  | some (.string "xbox") => 1
  | some (.string "playstation") | some (.string "ps") => 2
  | some (.string "nintendo") | some (.string "switch") => 3
  | _ => 0

def motionAccel : UInt8 := 1

def motionGyro : UInt8 := 2

/-- `parse_motion_type`. -/
def parseMotionType (message : JsonValue) : UInt8 :=
  match message.find? "motionType" with
  | some (.integer n) => .ofInt n
  | some (.string "gyro") => motionGyro
  | some (.string "accel") => motionAccel
  | _ => 0

/-- The controller of that number, if it has a bit. -/
def controller? (id : ℤ) : Option Controller :=
  if h : 0 ≤ id ∧ id < 16 then some ⟨id.toNat, by omega⟩ else none

/-- The part that every message about a gamepad starts with. -/
def withController (message : JsonValue) (body : Controller → Handle Unit) : Handle Unit := do
  let id ← integer "id" (-1) message
  match controller? id with
  | none => pure ()
  | some c => body c

def sendArrival (c : Controller) (message : JsonValue) : Handle Unit := do
  let capabilities ← integer "capabilities" 0 message
  let supportedButtons ← integer "supportedButtons" 0 message
  passthrough (.arrival c (parseGamepadType message) (.ofInt capabilities)
    (.ofInt supportedButtons))

/-- The bit is set before the fields of the arrival packet are read. -/
def announce (c : Controller) (message : JsonValue) : Handle Unit := do
  let s ← get
  if s.gamepads c then pure ()
  else do
    set (s.connect c)
    sendArrival c message

def gamepadConnect (message : JsonValue) : Handle Unit :=
  withController message fun c => announce c message

def clampU8 (value : ℤ) : UInt8 := .ofInt (max 0 (min 255 value))

def clampI16 (value : ℤ) : Int16 := .ofInt (max (-32768) (min 32767 value))

def gamepadState (message : JsonValue) : Handle Unit :=
  withController message fun c => do
    announce c message
    let activeMask ← integer "activeMask" 0 message
    let buttons ← integer "buttons" 0 message
    let lt ← number "lt" message
    let rt ← number "rt" message
    let lsX ← number "lsX" message
    let lsY ← number "lsY" message
    let rsX ← number "rsX" message
    let rsY ← number "rsY" message
    passthrough (.gamepadState c (.ofInt activeMask) (.ofInt buttons) (clampU8 (lround lt))
      (clampU8 (lround rt)) (clampI16 (lround lsX)) (clampI16 (lround lsY))
      (clampI16 (lround rsX)) (clampI16 (lround rsY)))

def gamepadDisconnect (message : JsonValue) : Handle Unit :=
  withController message fun c => do
    modify fun s => s.disconnect c
    let activeMask ← integer "activeMask" 0 message
    passthrough (.gamepadState c (.ofInt activeMask) 0 0 0 0 0 0 0)

def sendMotion (c : Controller) (message : JsonValue) : Handle Unit := do
  let x ← number "x" message
  let y ← number "y" message
  let z ← number "z" message
  if x.toFloat32.isFinite && y.toFloat32.isFinite && z.toFloat32.isFinite then
    passthrough (.gamepadMotion c (parseMotionType message) x.toFloat32 y.toFloat32 z.toFloat32)

def isMotion (message : JsonValue) : Bool :=
  parseMotionType message == motionGyro || parseMotionType message == motionAccel

def gamepadMotion (message : JsonValue) : Handle Unit :=
  withController message fun c => if isMotion message then sendMotion c message else pure ()

/-! ## Messages -/

/-- A type that is not known is ignored. -/
def handleType (type : String) (message : JsonValue) : Handle Unit :=
  if type = "mouse_move" then mouseMove message
  else if type = "mouse_down" ∨ type = "mouse_up" then mouseButton (type = "mouse_up") message
  else if type = "wheel" then wheel message
  else if type = "key_down" ∨ type = "key_up" then keyboard (type = "key_up") message
  else if type = "gamepad_connect" then gamepadConnect message
  else if type = "gamepad_state" then gamepadState message
  else if type = "gamepad_disconnect" then gamepadDisconnect message
  else if type = "gamepad_motion" then gamepadMotion message
  else pure ()

/-- `handle_input_message` behind the parser. -/
def handleInputMessage (message : JsonValue) : Handle Unit := do
  let type ← text "type" message
  handleType type message

/-- What the callback receives.  `renewed` says that the capture has brought a new mail since the
last message, and with it a new input context. -/
structure Receipt where
  payload : List UInt8
  renewed : Bool := false

/-- `current_input_context`, which always has a context to return. -/
def currentInputContext (s : State) (r : Receipt) : State := if r.renewed then s.renew else s

/-- One text message through `on_data_channel_message`, which has no handler of its own.  `parse`
is the parser of the JSON library. -/
def onTextMessage (parse : List UInt8 → Option JsonValue) (s : State) (r : Receipt) :
    Option State :=
  if r.payload = [] then some s
  else
    match parse r.payload with
    | none => some s
    | some message =>
        match (handleInputMessage message).run (currentInputContext s r) with
        | .ok _ s' => some s'
        | .error _ s' => some { s' with raised := true }

end LuminalShine.WebRtc.InputMessages
