import LuminalShine.Lib.Ends
import LuminalShine.WebRtc.InputMessages
import Mathlib.Data.Int.Order.Basic

/-!
# When input messages keep the gamepad bits true

The condition of a message is on its fields: each field that a message of its type reads is
absent or of the type that it is read as.  Which fields are read depends on the controller's bit,
since only a new controller's arrival packet is made.

## Main definitions

* `Kind`, `Typed` — fields and their types; `fieldsRead` — what a message of each type reads.
* `WellTyped` — the condition.
* `Consistent` — nothing was raised and the bits are those of the history.

## Main results

* `handleInputMessage_ends` — a message is handled to its end exactly when it is well typed.
* `messages_consistent_iff`
-/

namespace LuminalShine.WebRtc.InputMessages

open LuminalShine.Lib
open LuminalShine.Lib.JsonValue (getString getBoolean getDouble getInt)

/-! ## The condition -/

inductive Kind where
  | text
  | flag
  | number
  | integer

/-- An integer may be given as a boolean or as any number. -/
def Kind.fits : Kind → JsonValue → Bool
  | text, .string _ => true
  | flag, .boolean _ => true
  | number, .integer _ | number, .float _ => true
  | integer, .boolean _ | integer, .integer _ | integer, .float _ => true
  | _, _ => false

/-- Each of the fields is absent or of its kind. -/
def Typed (message : JsonValue) (fields : List (String × Kind)) : Prop :=
  ∀ f ∈ fields, ∀ v, message.find? f.1 = some v → f.2.fits v = true

/-- The value of a field that can be read. -/
def valueOf {α : Type} (get : JsonValue → Option α) (key : String) (default : α)
    (message : JsonValue) : α :=
  (message.value get key default).getD default

abbrev textOf (key : String) (message : JsonValue) : String := valueOf getString key "" message

def controllerOf (message : JsonValue) : Option Controller :=
  controller? (valueOf getInt "id" (-1) message)

def moveFields : List (String × Kind) := [("x", .number), ("y", .number)]

def buttonFields (message : JsonValue) : List (String × Kind) :=
  (if message.contains "x" && message.contains "y" then moveFields else []) ++
    [("button", .integer)]

def wheelFields : List (String × Kind) := [("dx", .number), ("dy", .number)]

def keyFields : List (String × Kind) := [("code", .text), ("key", .text)]

def modifierFields : List (String × Kind) :=
  [("shift", .flag), ("ctrl", .flag), ("alt", .flag), ("meta", .flag)]

def arrivalFields (connected : Bool) : List (String × Kind) :=
  if connected then [] else [("capabilities", .integer), ("supportedButtons", .integer)]

def stateFields : List (String × Kind) :=
  [("activeMask", .integer), ("buttons", .integer), ("lt", .number), ("rt", .number),
    ("lsX", .number), ("lsY", .number), ("rsX", .number), ("rsY", .number)]

def motionFields : List (String × Kind) := [("x", .number), ("y", .number), ("z", .number)]

/-- The fields of a message about a gamepad: its controller and, if that has a bit, the others. -/
def controllerFields (message : JsonValue) (fields : Controller → List (String × Kind)) :
    List (String × Kind) :=
  ("id", .integer) :: (controllerOf message).elim [] fields

/-- What a message of that type reads behind its type. -/
def fieldsRead (gamepads : Controller → Bool) (type : String) (message : JsonValue) :
    List (String × Kind) :=
  if type = "mouse_move" then moveFields
  else if type = "mouse_down" ∨ type = "mouse_up" then buttonFields message
  else if type = "wheel" then wheelFields
  else if type = "key_down" ∨ type = "key_up" then keyFields
  else if type = "gamepad_connect" then
    controllerFields message fun c => arrivalFields (gamepads c)
  else if type = "gamepad_state" then
    controllerFields message fun c => arrivalFields (gamepads c) ++ stateFields
  else if type = "gamepad_disconnect" then
    controllerFields message fun _ => [("activeMask", .integer)]
  else if type = "gamepad_motion" then
    controllerFields message fun _ => if isMotion message then motionFields else []
  else []

/-- The modifiers are read of a key that has a code, if they are an object. -/
def ModifiersTyped (message : JsonValue) : Prop :=
  (mapDomCodeToVk (textOf "code" message) (textOf "key" message)).isSome = true →
    ∀ fields, message.find? "modifiers" = some (.object fields) →
      Typed (.object fields) modifierFields

/-- The condition behind the type. -/
structure TypedBehind (gamepads : Controller → Bool) (type : String) (message : JsonValue) :
    Prop where
  fields : Typed message (fieldsRead gamepads type message)
  modifiers : type = "key_down" ∨ type = "key_up" → ModifiersTyped message

/-- The condition of a message that is received while the controllers have these bits. -/
structure WellTyped (gamepads : Controller → Bool) (message : JsonValue) : Prop where
  object : ∃ fields, message = .object fields
  type : Typed message [("type", .text)]
  behind : TypedBehind gamepads (textOf "type" message) message

/-- Nothing was raised out of the callback, and a bit is set exactly when the controller has
arrived. -/
structure Consistent (s : State) : Prop where
  quiet : s.raised = false
  agrees : ∀ c, s.gamepads c = arrived s.log c

/-! ## Fields -/

section Fields

variable {message : JsonValue} {fs gs : List (String × Kind)}

@[simp] theorem typed_nil : Typed message [] := by
  simp [Typed]

@[simp] theorem typed_cons_cons (f g : String × Kind) : Typed message (f :: g :: fs) ↔
    Typed message [f] ∧ Typed message (g :: fs) := by
  simp [Typed]

theorem typed_cons (f : String × Kind) : Typed message (f :: fs) ↔
    Typed message [f] ∧ Typed message fs := by
  simp [Typed]

@[simp] theorem typed_append : Typed message (fs ++ gs) ↔ Typed message fs ∧ Typed message gs := by
  simp only [Typed, List.mem_append]
  constructor
  · intro h
    exact ⟨fun f hf => h f (.inl hf), fun f hf => h f (.inr hf)⟩
  · rintro ⟨h, h'⟩ f (hf | hf)
    · exact h f hf
    · exact h' f hf

/-- A read of an object does not raise exactly when the field is absent or fits. -/
theorem isSome_value_iff {α : Type} {get : JsonValue → Option α} {kind : Kind}
    (hget : ∀ v, (get v).isSome = kind.fits v) (key : String) (default : α)
    (fields : List (String × JsonValue)) :
    ((JsonValue.object fields).value get key default).isSome = true ↔
      Typed (.object fields) [(key, kind)] := by
  cases hv : fields.lookup key <;> simp [JsonValue.value, JsonValue.find?, Typed, hv, hget]

theorem ends_field {α : Type} {get : JsonValue → Option α} {kind : Kind}
    (hget : ∀ v, (get v).isSome = kind.fits v) (key : String) (default : α)
    (fields : List (String × JsonValue)) (s : State) :
    Ends (field get key default (.object fields)) s (Typed (.object fields) [(key, kind)])
      fun a s' => s' = s ∧ a = valueOf get key default (.object fields) := by
  rw [← isSome_value_iff hget key default fields, field, valueOf]
  cases (JsonValue.object fields).value get key default with
  | none => simpa using Ends.throw (q := fun a s' => s' = s ∧ a = default) ()
  | some a => simpa using Ends.pure a (q := fun a' s' => s' = s ∧ a' = a) ⟨rfl, rfl⟩

variable (fields : List (String × JsonValue)) (key : String) (s : State)

theorem ends_text : Ends (text key (.object fields)) s (Typed (.object fields) [(key, .text)])
    fun a s' => s' = s ∧ a = valueOf getString key "" (.object fields) :=
  ends_field (by rintro (_ | _ | _ | _ | _ | _ | _) <;> rfl) key "" fields s

theorem ends_flag : Ends (flag key (.object fields)) s (Typed (.object fields) [(key, .flag)])
    fun a s' => s' = s ∧ a = valueOf getBoolean key false (.object fields) :=
  ends_field (by rintro (_ | _ | _ | _ | _ | _ | _) <;> rfl) key false fields s

theorem ends_number : Ends (number key (.object fields)) s
    (Typed (.object fields) [(key, .number)])
    fun a s' => s' = s ∧ a = valueOf getDouble key 0 (.object fields) :=
  ends_field (by rintro (_ | _ | _ | _ | _ | _ | _) <;> rfl) key 0 fields s

theorem ends_integer (default : ℤ) : Ends (integer key default (.object fields)) s
    (Typed (.object fields) [(key, .integer)])
    fun a s' => s' = s ∧ a = valueOf getInt key default (.object fields) :=
  ends_field (by rintro (_ | _ | _ | _ | _ | _ | _) <;> rfl) key default fields s

theorem ends_passthrough (packet : Packet) :
    Ends (passthrough packet) s True fun _ s' => s' = s.pass packet :=
  Ends.modify _ s

theorem modifiersOf_ends : Ends (modifiersOf (.object fields)) s
    (∀ mods, (JsonValue.object fields).find? "modifiers" = some (.object mods) →
      Typed (.object mods) modifierFields) fun _ s' => s' = s := by
  rw [modifiersOf]
  split
  · rename_i mods hmods
    refine ((ends_flag mods "shift" s).read fun _ => (ends_flag mods "ctrl" s).read fun _ =>
      (ends_flag mods "alt" s).read fun _ => (ends_flag mods "meta" s).read fun _ => by
        exact Ends.pure _ rfl).congr ?_
    simp [hmods, modifierFields]
  · rename_i hmods
    refine Ends.congr (p := True) ?_ (iff_of_true trivial fun mods h => absurd h (hmods mods))
    exact Ends.pure _ rfl

end Fields

/-! ## Messages, type by type -/

section Handlers

variable {fields : List (String × JsonValue)} {s : State} (h : Consistent s)
include h

/-- A packet that is not an arrival says nothing about the bits. -/
theorem ends_passthrough_consistent {packet : Packet}
    (hpacket : ∀ log, arrived (.passed packet :: log) = arrived log) :
    Ends (passthrough packet) s True fun _ s' => Consistent s' := by
  refine (ends_passthrough s packet).mono Iff.rfl fun _ s' hs' => ?_
  rw [hs']
  refine ⟨h.quiet, fun c => ?_⟩
  rw [State.pass, hpacket]
  exact h.agrees c

theorem mouseMove_ends : Ends (mouseMove (.object fields)) s (Typed (.object fields) moveFields)
    fun _ s' => Consistent s' := by
  refine ((ends_number fields "x" s).read fun _ => (ends_number fields "y" s).read fun _ =>
    ends_passthrough_consistent h fun _ => rfl).congr ?_
  simp [moveFields]

theorem mousePosition_ends : Ends (mousePosition (.object fields)) s
    (Typed (.object fields)
      (if (JsonValue.object fields).contains "x" && (JsonValue.object fields).contains "y" then
        moveFields else [])) fun _ s' => Consistent s' := by
  rw [mousePosition]
  split
  · exact mouseMove_ends h
  · exact (Ends.pure () h).congr (by simp)

theorem mouseButton_ends (release : Bool) : Ends (mouseButton release (.object fields)) s
    (Typed (.object fields) (buttonFields (.object fields))) fun _ s' => Consistent s' := by
  refine ((mousePosition_ends h).bind fun _ _ s' hs' => (ends_integer fields "button" s' (-1)).read
    fun _ => (ends_passthrough_consistent hs' fun _ => rfl).either (Ends.pure () hs')).congr ?_
  simp [buttonFields]

theorem wheel_ends : Ends (wheel (.object fields)) s (Typed (.object fields) wheelFields)
    fun _ s' => Consistent s' := by
  refine ((ends_number fields "dx" s).read fun _ => (ends_number fields "dy" s).read fun _ =>
    Ends.bind ((Ends.pure () h).either (ends_passthrough_consistent h fun _ => rfl))
      fun _ _ s' hs' => ((Ends.pure () hs').either
        (ends_passthrough_consistent hs' fun _ => rfl))).congr ?_
  simp [wheelFields]

theorem keyboard_ends (release : Bool) : Ends (keyboard release (.object fields)) s
    (Typed (.object fields) keyFields ∧ ModifiersTyped (.object fields))
    fun _ s' => Consistent s' := by
  refine ((ends_text fields "code" s).read fun _ => (ends_text fields "key" s).read fun _ =>
    show Ends _ s (ModifiersTyped (.object fields)) _ from ?_).congr ?_
  · rw [ModifiersTyped]
    split
    · rename_i hcode
      exact (Ends.pure () h).congr (by simp [hcode])
    · rename_i hcode
      refine ((modifiersOf_ends fields s).andThen fun _ _ =>
        ends_passthrough_consistent h fun _ => rfl).congr ?_
      simp [hcode]
  · simp [keyFields, and_assoc]

omit h in
theorem sendArrival_ends (c : Controller) : Ends (sendArrival c (.object fields)) s
    (Typed (.object fields) (arrivalFields false))
    fun _ s' => ∃ type caps buttons, s' = s.pass (.arrival c type caps buttons) := by
  refine ((ends_integer fields "capabilities" s 0).read fun _ =>
    (ends_integer fields "supportedButtons" s 0).read fun _ =>
      (ends_passthrough s _).mono Iff.rfl fun _ s' hs' => ⟨_, _, _, hs'⟩).congr ?_
  simp [arrivalFields]

/-- A controller that is new gets its bit, and then its arrival packet. -/
theorem announce_ends (c : Controller) : Ends (announce c (.object fields)) s
    (Typed (.object fields) (arrivalFields (s.gamepads c))) fun _ s' => Consistent s' := by
  refine ((Ends.get s).read fun _ =>
    show Ends _ s (Typed (.object fields) (arrivalFields (s.gamepads c))) _ from ?_).congr ?_
  · split
    · rename_i hbit
      exact (Ends.pure () h).congr (by simp [hbit, arrivalFields])
    · rename_i hbit
      refine ((Ends.set s (s.connect c)).andThen fun _ _ =>
        (sendArrival_ends c).mono Iff.rfl ?_).congr (by simp [hbit])
      rintro _ s' ⟨type, caps, buttons, rfl⟩
      exact ⟨h.quiet, fun c' => by simp [State.pass, State.connect, arrived, h.agrees c']⟩
  · simp

omit h in
theorem withController_ends {body : Controller → Handle Unit}
    {fs : Controller → List (String × Kind)} {q : Unit → State → Prop}
    (hbody : ∀ c, Ends (body c) s (Typed (.object fields) (fs c)) q) (hq : q () s) :
    Ends (withController (.object fields) body) s
      (Typed (.object fields) (controllerFields (.object fields) fs)) q := by
  refine ((ends_integer fields "id" s (-1)).read fun _ =>
    show Ends _ s (Typed (.object fields) ((controllerOf (.object fields)).elim [] fs)) _
      from ?_).congr ?_
  · rw [controllerOf]
    split
    · rename_i hc
      exact (Ends.pure () hq).congr (by simp [hc])
    · rename_i c hc
      exact (hbody c).congr (by simp [hc])
  · exact (typed_cons _).symm

theorem gamepadConnect_ends : Ends (gamepadConnect (.object fields)) s
    (Typed (.object fields) (controllerFields (.object fields) fun c =>
      arrivalFields (s.gamepads c))) fun _ s' => Consistent s' :=
  withController_ends (fun c => announce_ends h c) h

theorem gamepadState_ends : Ends (gamepadState (.object fields)) s
    (Typed (.object fields) (controllerFields (.object fields) fun c =>
      arrivalFields (s.gamepads c) ++ stateFields)) fun _ s' => Consistent s' := by
  refine withController_ends (fun c => ?_) h
  refine ((announce_ends h c).bind fun _ _ s' hs' =>
    (ends_integer fields "activeMask" s' 0).read fun _ =>
    (ends_integer fields "buttons" s' 0).read fun _ =>
    (ends_number fields "lt" s').read fun _ => (ends_number fields "rt" s').read fun _ =>
    (ends_number fields "lsX" s').read fun _ => (ends_number fields "lsY" s').read fun _ =>
    (ends_number fields "rsX" s').read fun _ => (ends_number fields "rsY" s').read fun _ =>
      ends_passthrough_consistent hs' fun _ => rfl).congr ?_
  simp [stateFields]

theorem gamepadDisconnect_ends : Ends (gamepadDisconnect (.object fields)) s
    (Typed (.object fields) (controllerFields (.object fields) fun _ =>
      [("activeMask", .integer)])) fun _ s' => Consistent s' := by
  refine withController_ends (fun c => ?_) h
  have hconsistent : Consistent (s.disconnect c) :=
    ⟨h.quiet, fun c' => by simp [State.disconnect, arrived, h.agrees c']⟩
  refine ((Ends.modify _ s).andThen fun _ _ => (ends_integer fields "activeMask" _ 0).read fun _ =>
    ends_passthrough_consistent hconsistent fun _ => rfl).congr ?_
  simp

theorem sendMotion_ends (c : Controller) : Ends (sendMotion c (.object fields)) s
    (Typed (.object fields) motionFields) fun _ s' => Consistent s' := by
  refine ((ends_number fields "x" s).read fun _ => (ends_number fields "y" s).read fun _ =>
    (ends_number fields "z" s).read fun _ =>
      (ends_passthrough_consistent h fun _ => rfl).either (Ends.pure () h)).congr ?_
  simp [motionFields]

theorem gamepadMotion_ends : Ends (gamepadMotion (.object fields)) s
    (Typed (.object fields) (controllerFields (.object fields) fun _ =>
      if isMotion (.object fields) then motionFields else [])) fun _ s' => Consistent s' := by
  refine withController_ends (fun c => ?_) h
  split
  · exact sendMotion_ends h c
  · exact (Ends.pure () h).congr (by simp)

end Handlers

/-! ## Every message -/

section Messages

variable {s : State}

theorem typedBehind_of_not_key {gamepads : Controller → Bool} {type : String}
    {message : JsonValue} (hkey : ¬(type = "key_down" ∨ type = "key_up")) :
    TypedBehind gamepads type message ↔ Typed message (fieldsRead gamepads type message) :=
  ⟨fun h => h.fields, fun h => ⟨h, fun hk => absurd hk hkey⟩⟩

theorem handleType_ends (h : Consistent s) (type : String) (fields : List (String × JsonValue)) :
    Ends (handleType type (.object fields)) s (TypedBehind s.gamepads type (.object fields))
      fun _ s' => Consistent s' := by
  by_cases hkey : type = "key_down" ∨ type = "key_up"
  · have hfields : fieldsRead s.gamepads type (.object fields) = keyFields := by
      rcases hkey with rfl | rfl <;> simp [fieldsRead]
    have hrun : handleType type (.object fields) = keyboard (type = "key_up") (.object fields) := by
      rcases hkey with rfl | rfl <;> simp [handleType]
    rw [hrun]
    refine (keyboard_ends h _).congr ⟨fun ht => ⟨hfields ▸ ht.1, fun _ => ht.2⟩, fun ht => ?_⟩
    exact ⟨hfields ▸ ht.fields, ht.modifiers hkey⟩
  · refine Ends.congr ?_ (typedBehind_of_not_key hkey).symm
    rw [handleType, fieldsRead, if_neg hkey, if_neg hkey]
    split
    · exact mouseMove_ends h
    split
    · exact mouseButton_ends h _
    split
    · exact wheel_ends h
    split
    · exact gamepadConnect_ends h
    split
    · exact gamepadState_ends h
    split
    · exact gamepadDisconnect_ends h
    split
    · exact gamepadMotion_ends h
    · exact (Ends.pure () h).congr (by simp)

/-- **A message is handled to its end exactly when it is well typed**, and then the bits are still
those of the history. -/
theorem handleInputMessage_ends (h : Consistent s) (message : JsonValue) :
    Ends (handleInputMessage message) s (WellTyped s.gamepads message)
      fun _ s' => Consistent s' := by
  by_cases hobject : ∃ fields, message = .object fields
  · obtain ⟨fields, rfl⟩ := hobject
    refine ((ends_text fields "type" s).read fun _ => handleType_ends h _ fields).congr ?_
    exact ⟨fun hm => ⟨⟨fields, rfl⟩, hm.1, hm.2⟩, fun hm => ⟨hm.type, hm.behind⟩⟩
  · have htext : Ends (text "type" message) s False fun _ _ => False := by
      cases message with
      | object fields => exact absurd ⟨fields, rfl⟩ hobject
      | _ => exact Ends.throw ()
    exact htext.bind_raises.congr ⟨False.elim, fun hm => hobject hm.object⟩

/-- The condition of what the callback receives: the payload is no JSON, or its message is well
typed for the controllers that the context has. -/
def Meets (parse : List UInt8 → Option JsonValue) (s : State) (r : Receipt) : Prop :=
  r.payload ≠ [] → ∀ message, parse r.payload = some message →
    WellTyped (currentInputContext s r).gamepads message

theorem consistent_currentInputContext (h : Consistent s) (r : Receipt) :
    Consistent (currentInputContext s r) := by
  rw [currentInputContext]
  split
  · exact ⟨h.quiet, fun _ => rfl⟩
  · exact h

variable (parse : List UInt8 → Option JsonValue)

/-- One message keeps everything consistent exactly under its condition. -/
theorem onTextMessage_consistent_iff (h : Consistent s) (r : Receipt) {s' : State}
    (hstep : onTextMessage parse s r = some s') : Consistent s' ↔ Meets parse s r := by
  rw [onTextMessage] at hstep
  split at hstep
  · rename_i hempty
    obtain rfl := Option.some.inj hstep
    exact iff_of_true h fun hne => absurd hempty hne
  · rename_i hne
    cases hparse : parse r.payload with
    | none =>
        rw [hparse] at hstep
        obtain rfl := Option.some.inj hstep
        exact iff_of_true h fun _ message hmessage => by simp [hparse] at hmessage
    | some message =>
        rw [hparse] at hstep
        have hends := handleInputMessage_ends (consistent_currentInputContext h r) message
        have hmeets : Meets parse s r ↔
            WellTyped (currentInputContext s r).gamepads message := by
          simp [Meets, hne, hparse]
        rw [hmeets, ← hends.ok_iff]
        cases hrun : (handleInputMessage message).run (currentInputContext s r) with
        | ok a t =>
            simp only [hrun, Option.some.injEq] at hstep
            obtain rfl := hstep
            exact iff_of_true (hends.of_run hrun) ⟨a, t, rfl⟩
        | error e t =>
            simp only [hrun, Option.some.injEq] at hstep
            obtain rfl := hstep
            exact iff_of_false (fun hc => by simpa using hc.quiet) (by simp)

theorem onTextMessage_total (s : State) (r : Receipt) :
    ∃ s', onTextMessage parse s r = some s' := by
  rw [onTextMessage]
  repeat' split
  all_goals exact ⟨_, rfl⟩

/-- From any consistent state, a sequence of messages is safe all along exactly when every message
meets the condition where it is received. -/
theorem always_consistent_iff (h : Consistent s) (rs : List Receipt) :
    Always (onTextMessage parse) Consistent s rs ↔
      RunMeets (onTextMessage parse) (Meets parse) s rs := by
  obtain ⟨t, ht⟩ := exists_run (onTextMessage_total parse) s rs
  refine always_iff_runMeets (fun _ hs => hs) ?_ ?_ h ht
  · intro s r s' hs hmeets hstep
    exact (onTextMessage_consistent_iff parse hs r hstep).mpr hmeets
  · intro s r s' hs hmeets hstep
    exact fun hs' => hmeets ((onTextMessage_consistent_iff parse hs r hstep).mp hs')

/-- **The bits over every sequence of messages.**  Nothing is raised out of the callback and the
bits are those of the history all along exactly when every message is well typed where it is
received. -/
theorem messages_consistent_iff (rs : List Receipt) :
    Always (onTextMessage parse) Consistent {} rs ↔
      RunMeets (onTextMessage parse) (Meets parse) {} rs :=
  always_consistent_iff parse ⟨rfl, fun _ => rfl⟩ rs

/-- A new controller whose capabilities are a text. -/
def badConnect : JsonValue :=
  .object [("type", .string "gamepad_connect"), ("id", .integer 0), ("capabilities", .string "x")]

def badConnectText : List UInt8 :=
  "\x7b\"type\":\"gamepad_connect\",\"id\":0,\"capabilities\":\"x\"\x7d".toUTF8.data.toList

/-- The message is raised out of the callback, and the controller has its bit without an arrival
packet. -/
theorem badConnect_raises : ∃ s, run (onTextMessage fun payload =>
      if payload = badConnectText then some badConnect else none) {} [⟨badConnectText, false⟩] =
        some s ∧ s.raised = true ∧ s.gamepads 0 = true ∧ arrived s.log 0 = false := by
  have hrun : (handleInputMessage badConnect).run {} = .error () (State.connect {} 0) := rfl
  have hne : badConnectText ≠ [] := by decide
  refine ⟨{ State.connect {} 0 with raised := true }, ?_, rfl, rfl, rfl⟩
  simp [run, onTextMessage, currentInputContext, hne, hrun]

end Messages

end LuminalShine.WebRtc.InputMessages
