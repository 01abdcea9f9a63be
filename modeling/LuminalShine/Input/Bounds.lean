import LuminalShine.Control.Dispatch
import LuminalShine.Lib.Access
import Mathlib.Algebra.Group.Int.Defs
import Mathlib.Algebra.Group.Nat.Defs

/-!
# The bytes of an input message

`print`, `batch`, `passthrough` and `passthrough_next_message` of `src/input.cpp` on the bytes of a
message.  A message is cast to the structure its magic names, and nothing compares its length
with the size of that structure, nor the text of a unicode message with what is there.

Every read and every write goes through a view and is recorded.  Where the fields of a
structure lie, how long it is and what the magics are comes from a header that is a
parameter.  Which of its fields a handler comes to read depends on the configuration, the touch
port and the gamepads; a session says which.

## Main definitions

* `Layout` — the structures of the header.
* `print`, `batch`, `passthrough`, `passthroughNextMessage` — the source's functions.
* `Whole` — the messages that are as long as they have to be.

## Main results

* `safe_iff_whole` — a message is read within its bytes exactly when it is whole.
-/

namespace LuminalShine.Input.Bounds

open LuminalShine.Lib
open LuminalShine.Control (little big int32)

abbrev Bytes := List UInt8

/-! ## Structures -/

/-- The structures a message is cast to. -/
inductive Kind
  | relMouseMove
  | absMouseMove
  | mouseButton
  | scroll
  | hscroll
  | keyboard
  | unicode
  | multiController
  | touch
  | pen
  | controllerArrival
  | controllerTouch
  | controllerMotion
  | controllerBattery
  deriving DecidableEq, Repr

/-- The fields that are read or written. -/
inductive Name
  | deltaX | deltaY | x | y | z | width | height | button | scrollAmt1 | scrollAmt2 | scrollAmount
  | keyCode | modifiers | flags | controllerNumber | activeGamepadMask | buttonFlags
  | buttonFlags2 | leftTrigger | rightTrigger | leftStickX | leftStickY | rightStickX
  | rightStickY | eventType | pointerId | pressureOrDistance | contactAreaMajor
  | contactAreaMinor | rotation | toolType | penButtons | tilt | type | capabilities
  | supportedButtonFlags | pressure | motionType | batteryState | batteryPercentage
  deriving DecidableEq, Repr

/-- What `print` reads of a structure, in its order. -/
def printed : Kind → List Name
  | .relMouseMove => [.deltaX, .deltaY]
  | .absMouseMove => [.x, .y, .width, .height]
  | .mouseButton => [.button]
  | .scroll => [.scrollAmt1]
  | .hscroll => [.scrollAmount]
  | .keyboard => [.keyCode, .modifiers, .flags]
  | .unicode => []
  | .multiController =>
      [.controllerNumber, .activeGamepadMask, .buttonFlags, .buttonFlags2, .leftTrigger,
        .rightTrigger, .leftStickX, .leftStickY, .rightStickX, .rightStickY]
  | .touch =>
      [.eventType, .pointerId, .x, .y, .pressureOrDistance, .contactAreaMajor,
        .contactAreaMinor, .rotation]
  | .pen =>
      [.eventType, .toolType, .penButtons, .x, .y, .pressureOrDistance, .contactAreaMajor,
        .contactAreaMinor, .rotation, .tilt]
  | .controllerArrival => [.controllerNumber, .type, .capabilities, .supportedButtonFlags]
  | .controllerTouch => [.controllerNumber, .eventType, .pointerId, .x, .y, .pressure]
  | .controllerMotion => [.controllerNumber, .motionType, .x, .y, .z]
  | .controllerBattery => [.controllerNumber, .batteryState, .batteryPercentage]

/-- What the handlers may read, in their order. -/
def passed : Kind → List Name
  | .relMouseMove => [.deltaX, .deltaY]
  | .absMouseMove => [.x, .y, .width, .height]
  | .mouseButton => [.button]
  | .scroll => [.scrollAmt1]
  | .hscroll => [.scrollAmount]
  | .keyboard => [.keyCode, .modifiers, .flags]
  | .unicode => []
  | .multiController =>
      [.controllerNumber, .activeGamepadMask, .buttonFlags, .buttonFlags2, .leftTrigger,
        .rightTrigger, .leftStickX, .leftStickY, .rightStickX, .rightStickY]
  | .touch =>
      [.x, .y, .rotation, .contactAreaMajor, .contactAreaMinor, .eventType, .pointerId,
        .pressureOrDistance]
  | .pen =>
      [.x, .y, .rotation, .contactAreaMajor, .contactAreaMinor, .eventType, .toolType,
        .penButtons, .tilt, .pressureOrDistance]
  | .controllerArrival => [.controllerNumber, .type, .capabilities, .supportedButtonFlags]
  | .controllerTouch => [.controllerNumber, .eventType, .pointerId, .x, .y, .pressure]
  | .controllerMotion => [.controllerNumber, .motionType, .x, .y, .z]
  | .controllerBattery => [.controllerNumber, .batteryState, .batteryPercentage]

theorem passed_subset_printed (kind : Kind) : passed kind ⊆ printed kind := by
  cases kind <;> decide

/-- The fields of a structure, those that are only written included. -/
def fields (kind : Kind) : List Name :=
  printed kind ++ if kind = .scroll then [.scrollAmt2] else []

structure Span where
  offset : ℕ
  len : ℕ
  deriving DecidableEq, Repr

def Span.stop (span : Span) : ℕ := span.offset + span.len

/-- The numbers that are added up when messages are merged. -/
def isShort : Name → Bool
  | .deltaX | .deltaY | .scrollAmt1 | .scrollAmt2 | .scrollAmount => true
  | _ => false

/-- The header with the structures: each begins with its size and its magic, and its fields are
behind them. -/
structure Layout where
  headerSize : Span
  magic : Span
  kindOf : ℕ → Option Kind
  sizeof : Kind → ℕ
  place : Kind → Name → Span
  text : ℕ
  /-- `LI_TOUCH_EVENT_MOVE`, `LI_TOUCH_EVENT_HOVER` -/
  touchEventMove : ℕ
  touchEventHover : ℕ
  headerSize_pos : 0 < headerSize.len
  headerSize_le : headerSize.stop ≤ magic.stop
  magic_pos : 0 < magic.len
  place_pos : ∀ kind, ∀ n ∈ fields kind, 0 < (place kind n).len
  place_behind : ∀ kind, ∀ n ∈ fields kind, magic.stop ≤ (place kind n).offset
  place_within : ∀ kind, ∀ n ∈ fields kind, (place kind n).stop ≤ sizeof kind
  place_short : ∀ kind, ∀ n ∈ fields kind, isShort n = true → (place kind n).len = 2

variable (layout : Layout)

/-! ## Reading and printing -/

def readMagic (m : Bytes) : Traced ℕ := do
  let magic ← (View.whole m).read layout.magic.offset layout.magic.len
  pure (little magic)

/-- `header.size` -/
def readSize (m : Bytes) : Traced ℕ := do
  let size ← (View.whole m).read layout.headerSize.offset layout.headerSize.len
  pure (big size)

def readField (kind : Kind) (n : Name) (m : Bytes) : Traced Bytes :=
  (View.whole m).read (layout.place kind n).offset (layout.place kind n).len

def readFields (kind : Kind) (m : Bytes) : List Name → Traced Unit
  | [] => pure ()
  | n :: names => do
      let _ ← readField layout kind n m
      readFields kind m names

/-- `print`, and whether it returns.  The text is copied whatever the level of the log is; the
length of a header that says less than four wraps, and `std::string` throws. -/
def print (verbose : Bool) (m : Bytes) : Traced Bool := do
  let magic ← readMagic layout m
  match layout.kindOf magic with
  | none => pure true
  | some .unicode => do
      let size ← readSize layout m
      if size < 4 then pure false
      else do
        let _ ← (View.whole m).read layout.text (size - 4)
        pure true
  | some kind => do
      if verbose then readFields layout kind m (printed kind) else pure ()
      pure true

/-- The configuration, and which of its fields a handler comes to read. -/
structure Session where
  verbose : Bool
  keyboard : Bool
  reads : Kind → Bytes → Name → Bool

/-- The fourteen `passthrough`. -/
def passthrough (session : Session) (m : Bytes) : Traced Unit := do
  let magic ← readMagic layout m
  match layout.kindOf magic with
  | none => pure ()
  | some .unicode =>
      if !session.keyboard then pure ()
      else do
        let size ← readSize layout m
        let _ ← (View.whole m).read layout.text (int32 (size - 4)).toNat
        pure ()
  | some kind => readFields layout kind m ((passed kind).filter (session.reads kind m))

/-! ## Batching -/

/-- `batch_result_e`, with the bytes of `dest` after a merge. -/
inductive BatchResult
  | batched (dest : Bytes)
  | notBatchable
  | terminateBatch

/-- A 16-bit number in network order. -/
def short (bytes : Bytes) : ℤ := Int.bmod (big bytes) (2 ^ 16)

def shortBytes (n : ℤ) : Bytes :=
  [UInt8.ofNat ((n % 2 ^ 16).toNat / 256), UInt8.ofNat ((n % 2 ^ 16).toNat % 256)]

/-- The fields are equal. -/
def sameField (kind : Kind) (n : Name) (dest src : Bytes) : Traced Bool := do
  let d ← readField layout kind n dest
  let s ← readField layout kind n src
  pure (d == s)

/-- The event is a move or a hover. -/
def isMove (kind : Kind) (m : Bytes) : Traced Bool := do
  let eventType ← readField layout kind .eventType m
  pure (little eventType == layout.touchEventMove || little eventType == layout.touchEventHover)

/-- What `!__builtin_add_overflow(…)` lets through: the wrapped sum of a sum that does not fit. -/
def wrappedSum (kind : Kind) (n : Name) (dest src : Bytes) : Traced (Option ℤ) := do
  let d ← readField layout kind n dest
  let s ← readField layout kind n src
  let sum := short d + short s
  pure (if sum < -32768 ∨ 32767 < sum then some (Int.bmod sum (2 ^ 16)) else none)

def writeShort (kind : Kind) (n : Name) (value : ℤ) (dest : Bytes) : Traced Bytes :=
  (View.whole dest).write (layout.place kind n).offset (shortBytes value)

/-- `*dest = *src` -/
def copyStruct (kind : Kind) (dest src : Bytes) : Traced BatchResult := do
  let bytes ← (View.whole src).read 0 (layout.sizeof kind)
  let dest ← (View.whole dest).write 0 bytes
  pure (.batched dest)

def batchRelMouseMove (dest src : Bytes) : Traced BatchResult := do
  match ← wrappedSum layout .relMouseMove .deltaX dest src with
  | none => pure .terminateBatch
  | some deltaX =>
      match ← wrappedSum layout .relMouseMove .deltaY dest src with
      | none => pure .terminateBatch
      | some deltaY => do
          let dest ← writeShort layout .relMouseMove .deltaX deltaX dest
          let dest ← writeShort layout .relMouseMove .deltaY deltaY dest
          pure (.batched dest)

def batchAbsMouseMove (dest src : Bytes) : Traced BatchResult := do
  if !(← sameField layout .absMouseMove .width dest src) then pure .terminateBatch
  else if !(← sameField layout .absMouseMove .height dest src) then pure .terminateBatch
  else copyStruct layout .absMouseMove dest src

def batchScroll (dest src : Bytes) : Traced BatchResult := do
  match ← wrappedSum layout .scroll .scrollAmt1 dest src with
  | none => pure .terminateBatch
  | some amount => do
      let dest ← writeShort layout .scroll .scrollAmt1 amount dest
      let dest ← writeShort layout .scroll .scrollAmt2 amount dest
      pure (.batched dest)

def batchHscroll (dest src : Bytes) : Traced BatchResult := do
  match ← wrappedSum layout .hscroll .scrollAmount dest src with
  | none => pure .terminateBatch
  | some amount => do
      let dest ← writeShort layout .hscroll .scrollAmount amount dest
      pure (.batched dest)

def batchMultiController (dest src : Bytes) : Traced BatchResult := do
  if !(← sameField layout .multiController .activeGamepadMask dest src) then pure .terminateBatch
  else if !(← sameField layout .multiController .controllerNumber dest src) then
    pure .notBatchable
  else if !(← sameField layout .multiController .buttonFlags dest src) then pure .terminateBatch
  else if !(← sameField layout .multiController .buttonFlags2 dest src) then pure .terminateBatch
  else copyStruct layout .multiController dest src

def batchTouch (dest src : Bytes) : Traced BatchResult := do
  if !(← isMove layout .touch dest) then pure .terminateBatch
  else if !(← isMove layout .touch src) then pure .terminateBatch
  else if !(← sameField layout .touch .pointerId dest src) then pure .notBatchable
  else if !(← sameField layout .touch .eventType dest src) then pure .terminateBatch
  else copyStruct layout .touch dest src

def batchPen (dest src : Bytes) : Traced BatchResult := do
  if !(← isMove layout .pen dest) then pure .terminateBatch
  else if !(← sameField layout .pen .eventType dest src) then pure .terminateBatch
  else if !(← sameField layout .pen .penButtons dest src) then pure .terminateBatch
  else if !(← sameField layout .pen .toolType dest src) then pure .terminateBatch
  else copyStruct layout .pen dest src

def batchControllerTouch (dest src : Bytes) : Traced BatchResult := do
  if !(← isMove layout .controllerTouch dest) then pure .terminateBatch
  else if !(← sameField layout .controllerTouch .controllerNumber dest src) then
    pure .notBatchable
  else if !(← isMove layout .controllerTouch src) then pure .terminateBatch
  else if !(← sameField layout .controllerTouch .pointerId dest src) then pure .notBatchable
  else if !(← sameField layout .controllerTouch .eventType dest src) then pure .terminateBatch
  else copyStruct layout .controllerTouch dest src

def batchControllerMotion (dest src : Bytes) : Traced BatchResult := do
  if !(← sameField layout .controllerMotion .controllerNumber dest src) then pure .notBatchable
  else if !(← sameField layout .controllerMotion .motionType dest src) then pure .notBatchable
  else copyStruct layout .controllerMotion dest src

/-- `batch` -/
def batch (dest src : Bytes) : Traced BatchResult := do
  let destMagic ← readMagic layout dest
  let srcMagic ← readMagic layout src
  if destMagic ≠ srcMagic then pure .terminateBatch
  else match layout.kindOf destMagic with
    | some .relMouseMove => batchRelMouseMove layout dest src
    | some .absMouseMove => batchAbsMouseMove layout dest src
    | some .scroll => batchScroll layout dest src
    | some .hscroll => batchHscroll layout dest src
    | some .multiController => batchMultiController layout dest src
    | some .touch => batchTouch layout dest src
    | some .pen => batchPen layout dest src
    | some .controllerTouch => batchControllerTouch layout dest src
    | some .controllerMotion => batchControllerMotion layout dest src
    | _ => pure .terminateBatch

/-- The loop of `passthrough_next_message`: the message to send, and the queue behind it. -/
def batchLoop (dest : Bytes) : List Bytes → Traced (Bytes × List Bytes)
  | [] => pure (dest, [])
  | src :: queue => do
      match ← batch layout dest src with
      | .terminateBatch => pure (dest, src :: queue)
      | .batched dest => batchLoop dest queue
      | .notBatchable => do
          let (dest, queue) ← batchLoop dest queue
          pure (dest, src :: queue)

/-- `passthrough_next_message`, and the queue after it. -/
def passthroughNextMessage (session : Session) : List Bytes → Traced (List Bytes)
  | [] => pure []
  | entry :: queue => do
      let (payload, queue) ← batchLoop layout entry queue
      let returns ← print layout session.verbose payload
      if returns then passthrough layout session payload else pure ()
      pure queue

/-! ## Long enough -/

/-- A structure is copied whole when two messages are merged.  Of the events of a touch and of a
pen only moves are. -/
def copies (kind : Kind) (m : Bytes) : Bool :=
  match kind with
  | .absMouseMove | .multiController | .controllerMotion => true
  | .touch | .pen | .controllerTouch => (isMove layout kind m).val
  | _ => false

/-- As long as what is done with a structure of the kind asks for. -/
structure Has (kind : Kind) (m : Bytes) : Prop where
  reads : ∀ n ∈ printed kind, (layout.place kind n).stop ≤ m.length
  copy : copies layout kind m = true → layout.sizeof kind ≤ m.length
  scroll : kind = .scroll → short (readField layout .scroll .scrollAmt1 m).val ≠ 0 →
    (layout.place .scroll .scrollAmt2).stop ≤ m.length
  text : kind = .unicode → 4 < (readSize layout m).val →
    layout.text + ((readSize layout m).val - 4) ≤ m.length

/-- A message with a header and, if its magic is a known one, with what its kind needs. -/
structure Whole (m : Bytes) : Prop where
  header : layout.magic.stop ≤ m.length
  has : ∀ kind, layout.kindOf (readMagic layout m).val = some kind → Has layout kind m

variable {layout}
variable {kind : Kind} {n : Name} {m dest src : Bytes}

theorem mem_fields_of_printed (h : n ∈ printed kind) : n ∈ fields kind :=
  List.mem_append_left _ h

/-- A message as long as its structure has every field of it. -/
theorem has_of_sizeof (htext : kind ≠ .unicode) (h : layout.sizeof kind ≤ m.length) :
    Has layout kind m where
  reads n hn := Nat.le_trans (layout.place_within kind n (mem_fields_of_printed hn)) h
  copy _ := h
  scroll heq _ := by
    subst heq
    exact Nat.le_trans (layout.place_within .scroll .scrollAmt2 (by decide)) h
  text heq := absurd heq htext

/-- A structure with a field is longer than the header. -/
theorem stop_le_sizeof (hn : n ∈ fields kind) : layout.magic.stop ≤ layout.sizeof kind := by
  have hbehind := layout.place_behind kind n hn
  have hwithin := layout.place_within kind n hn
  simp only [Span.stop] at hwithin
  omega

theorem safe_readField_iff (hn : n ∈ fields kind) :
    (readField layout kind n m).Safe ↔ (layout.place kind n).stop ≤ m.length := by
  simp only [readField, Span.stop]
  rw [View.safe_read (layout.place_pos kind n hn)]
  simp only [View.whole, Nat.zero_add]

theorem safe_readMagic_iff : (readMagic layout m).Safe ↔ layout.magic.stop ≤ m.length := by
  simp only [readMagic, Span.stop]
  simp only [Traced.safe_bind, Traced.safe_pure, and_true, View.safe_read layout.magic_pos,
    View.whole, Nat.zero_add]

theorem safe_readSize (h : layout.magic.stop ≤ m.length) : (readSize layout m).Safe := by
  have hle := layout.headerSize_le
  simp only [Span.stop] at hle
  simp only [readSize, Traced.safe_bind, Traced.safe_pure, and_true,
    View.safe_read layout.headerSize_pos, View.whole, Nat.zero_add]
  simp only [Span.stop] at h
  omega

theorem safe_readFields_iff {names : List Name} (hnames : names ⊆ fields kind) :
    (readFields layout kind m names).Safe ↔
      ∀ n ∈ names, (layout.place kind n).stop ≤ m.length := by
  induction names with
  | nil => simp [readFields]
  | cons n names ih =>
      have hn : n ∈ fields kind := hnames List.mem_cons_self
      simp only [readFields, Traced.safe_bind, safe_readField_iff hn, List.forall_mem_cons]
      rw [ih (List.subset_of_cons_subset hnames)]

theorem Has.safe_readField (h : Has layout kind m) (hn : n ∈ printed kind) :
    (readField layout kind n m).Safe :=
  (safe_readField_iff (mem_fields_of_printed hn)).mpr (h.reads n hn)

theorem Has.safe_sameField (hd : Has layout kind dest) (hs : Has layout kind src)
    (hn : n ∈ printed kind) : (sameField layout kind n dest src).Safe := by
  simp [sameField, hd.safe_readField hn, hs.safe_readField hn]

theorem Has.safe_isMove (h : Has layout kind m) (hn : .eventType ∈ printed kind) :
    (isMove layout kind m).Safe := by
  simp [isMove, h.safe_readField hn]

theorem Has.safe_wrappedSum (hd : Has layout kind dest) (hs : Has layout kind src)
    (hn : n ∈ printed kind) : (wrappedSum layout kind n dest src).Safe := by
  simp [wrappedSum, hd.safe_readField hn, hs.safe_readField hn]

/-! ## Merging -/

variable (layout) in
/-- A whole message of the kind. -/
structure WholeOf (kind : Kind) (m : Bytes) : Prop where
  header : layout.magic.stop ≤ m.length
  kindOf : layout.kindOf (readMagic layout m).val = some kind
  has : Has layout kind m

theorem WholeOf.whole (h : WholeOf layout kind m) : Whole layout m where
  header := h.header
  has other hother := by
    rw [h.kindOf, Option.some.injEq] at hother
    subst hother
    exact h.has

theorem Whole.of (h : Whole layout m)
    (hkind : layout.kindOf (readMagic layout m).val = some kind) : WholeOf layout kind m :=
  ⟨h.header, hkind, h.has kind hkind⟩

variable (layout) in
/-- The messages are read within their bytes, and merged they are whole. -/
structure Merges (out : Traced BatchResult) : Prop where
  safe : out.Safe
  whole : ∀ bytes, out.val = .batched bytes → Whole layout bytes

theorem merges_pure {result : BatchResult}
    (h : ∀ bytes, result = .batched bytes → Whole layout bytes) :
    Merges layout (pure result) := ⟨Traced.safe_pure _, h⟩

theorem merges_terminate : Merges layout (pure .terminateBatch) := merges_pure (by simp)

theorem merges_bind {α : Type} {x : Traced α} {f : α → Traced BatchResult} (hx : x.Safe)
    (hf : Merges layout (f x.val)) : Merges layout (x >>= f) :=
  ⟨(Traced.safe_bind x f).mpr ⟨hx, hf.safe⟩, hf.whole⟩

theorem merges_unless {test : Traced Bool} {result : BatchResult} {next : Traced BatchResult}
    (hresult : ∀ bytes, result ≠ .batched bytes) (htest : test.Safe)
    (hnext : test.val = true → Merges layout next) :
    Merges layout (test >>= fun holds => if (!holds) = true then pure result else next) := by
  refine merges_bind htest ?_
  cases hholds : test.val
  · exact merges_pure fun bytes heq => absurd heq (hresult bytes)
  · exact hnext hholds

theorem merges_orTerminate {test : Traced Bool} {next : Traced BatchResult} (htest : test.Safe)
    (hnext : test.val = true → Merges layout next) : Merges layout
      (test >>= fun holds => if (!holds) = true then pure .terminateBatch else next) :=
  merges_unless (by simp) htest hnext

theorem merges_orSkip {test : Traced Bool} {next : Traced BatchResult} (htest : test.Safe)
    (hnext : test.val = true → Merges layout next) : Merges layout
      (test >>= fun holds => if (!holds) = true then pure .notBatchable else next) :=
  merges_unless (by simp) htest hnext

theorem readMagic_congr
    (h : ((View.whole m).read layout.magic.offset layout.magic.len).val =
      ((View.whole dest).read layout.magic.offset layout.magic.len).val) :
    (readMagic layout m).val = (readMagic layout dest).val := by
  simp only [readMagic, Traced.val_bind, Traced.val_pure, h]

/-- The copy has the length of one message and the magic of the other. -/
theorem merges_copyStruct (hs : WholeOf layout kind src) (htext : kind ≠ .unicode)
    (hn : n ∈ fields kind) (hdest : layout.sizeof kind ≤ dest.length)
    (hsrc : layout.sizeof kind ≤ src.length) : Merges layout (copyStruct layout kind dest src) := by
  have hstop : layout.magic.offset + layout.magic.len ≤ layout.sizeof kind := stop_le_sizeof hn
  have hpos := layout.magic_pos
  have hread : ((View.whole src).read 0 (layout.sizeof kind)).Safe :=
    View.safe_read_of_le (by simpa only [View.whole, Nat.zero_add] using hsrc)
  have hlen := View.length_read hsrc
  have hwrite : (View.whole dest).start + 0 +
      ((View.whole src).read 0 (layout.sizeof kind)).val.length ≤
        (View.whole dest).buffer.length := by
    rw [hlen]
    simpa only [View.whole, Nat.zero_add] using hdest
  refine merges_bind hread (merges_bind ?_ (merges_pure ?_))
  · exact (View.safe_write (List.ne_nil_of_length_pos (by omega))).mpr hwrite
  · intro bytes hbytes
    rw [BatchResult.batched.injEq] at hbytes
    subst hbytes
    have hlength := View.length_write hwrite
    have hlong : layout.sizeof kind ≤ _ := Nat.le_trans hdest (Nat.le_of_eq hlength.symm)
    have hmagic := readMagic_congr (View.val_read_copy dest hstop hsrc)
    exact WholeOf.whole ⟨Nat.le_trans hstop hlong, by rw [hmagic]; exact hs.kindOf,
      has_of_sizeof htext hlong⟩

variable (layout) in
/-- The length and the magic stay. -/
structure KeepsHeader (m m' : Bytes) : Prop where
  length : m'.length = m.length
  magic : (readMagic layout m').val = (readMagic layout m).val

theorem KeepsHeader.trans {m m' m'' : Bytes} (h : KeepsHeader layout m m')
    (h' : KeepsHeader layout m' m'') : KeepsHeader layout m m'' :=
  ⟨h'.length.trans h.length, h'.magic.trans h.magic⟩

theorem WholeOf.keepsHeader (h : WholeOf layout kind dest) (hkeeps : KeepsHeader layout dest m)
    (hhas : Has layout kind m) : Whole layout m :=
  WholeOf.whole
    ⟨by rw [hkeeps.length]; exact h.header, by rw [hkeeps.magic]; exact h.kindOf, hhas⟩

theorem length_shortBytes (value : ℤ) : (shortBytes value).length = 2 := rfl

theorem safe_writeShort_iff (hn : n ∈ fields kind) (hshort : isShort n = true) (value : ℤ) :
    (writeShort layout kind n value m).Safe ↔ (layout.place kind n).stop ≤ m.length := by
  have hlen := layout.place_short kind n hn hshort
  simp only [writeShort, Span.stop]
  rw [View.safe_write (show shortBytes value ≠ [] from List.cons_ne_nil _ _), length_shortBytes,
    hlen]
  simp only [View.whole, Nat.zero_add]

theorem keepsHeader_writeShort (hn : n ∈ fields kind) (hshort : isShort n = true) (value : ℤ)
    (hle : (layout.place kind n).stop ≤ m.length) :
    KeepsHeader layout m (writeShort layout kind n value m).val := by
  have hlen := layout.place_short kind n hn hshort
  have hbehind := layout.place_behind kind n hn
  simp only [Span.stop] at hle hbehind
  constructor
  · apply View.length_write
    rw [length_shortBytes]
    simp only [View.whole, Nat.zero_add]
    omega
  · exact readMagic_congr (View.val_read_write_of_le hbehind (by omega))

theorem has_of_length (hkind : kind = .relMouseMove ∨ kind = .hscroll) (h : Has layout kind dest)
    (hlen : m.length = dest.length) : Has layout kind m := by
  rcases hkind with rfl | rfl
  all_goals exact ⟨by rw [hlen]; exact h.reads, by simp [copies], by simp, by simp⟩

theorem merges_batchRelMouseMove (hd : WholeOf layout .relMouseMove dest)
    (hs : WholeOf layout .relMouseMove src) :
    Merges layout (batchRelMouseMove layout dest src) := by
  refine merges_bind (hd.has.safe_wrappedSum hs.has (by decide)) ?_
  cases (wrappedSum layout .relMouseMove .deltaX dest src).val with
  | none => exact merges_terminate
  | some deltaX =>
      refine merges_bind (hd.has.safe_wrappedSum hs.has (by decide)) ?_
      cases (wrappedSum layout .relMouseMove .deltaY dest src).val with
      | none => exact merges_terminate
      | some deltaY =>
          have hx := hd.has.reads .deltaX (by decide)
          have hwriteX := keepsHeader_writeShort (by decide) rfl deltaX hx
          have hy : (layout.place .relMouseMove .deltaY).stop ≤ _ :=
            Nat.le_trans (hd.has.reads .deltaY (by decide)) (Nat.le_of_eq hwriteX.length.symm)
          have hkeeps := hwriteX.trans (keepsHeader_writeShort (by decide) rfl deltaY hy)
          refine merges_bind ((safe_writeShort_iff (by decide) rfl _).mpr hx)
            (merges_bind ((safe_writeShort_iff (by decide) rfl _).mpr hy) (merges_pure ?_))
          intro bytes hbytes
          rw [BatchResult.batched.injEq] at hbytes
          subst hbytes
          exact hd.keepsHeader hkeeps (has_of_length (.inl rfl) hd.has hkeeps.length)

theorem merges_batchHscroll (hd : WholeOf layout .hscroll dest)
    (hs : WholeOf layout .hscroll src) : Merges layout (batchHscroll layout dest src) := by
  refine merges_bind (hd.has.safe_wrappedSum hs.has (by decide)) ?_
  cases (wrappedSum layout .hscroll .scrollAmount dest src).val with
  | none => exact merges_terminate
  | some amount =>
      have hle := hd.has.reads .scrollAmount (by decide)
      have hkeeps := keepsHeader_writeShort (by decide) rfl amount hle
      refine merges_bind ((safe_writeShort_iff (by decide) rfl _).mpr hle) (merges_pure ?_)
      intro bytes hbytes
      rw [BatchResult.batched.injEq] at hbytes
      subst hbytes
      exact hd.keepsHeader hkeeps (has_of_length (.inr rfl) hd.has hkeeps.length)

theorem short_bounds (bytes : Bytes) : -32768 ≤ short bytes ∧ short bytes ≤ 32767 := by
  unfold short
  have hle := Int.le_bmod (x := big bytes) (m := 2 ^ 16) (by decide)
  have hlt := Int.bmod_lt (x := big bytes) (m := 2 ^ 16) (by decide)
  omega

/-- A sum that wraps has two numbers in it. -/
theorem short_ne_zero_of_wrappedSum {amount : ℤ}
    (h : (wrappedSum layout kind n dest src).val = some amount) :
    short (readField layout kind n dest).val ≠ 0 := by
  intro hzero
  have hbounds := short_bounds (readField layout kind n src).val
  simp only [wrappedSum, Traced.val_bind, Traced.val_pure, hzero, Int.zero_add] at h
  rw [if_neg (by omega)] at h
  exact absurd h (by simp)

theorem merges_batchScroll (hd : WholeOf layout .scroll dest) (hs : WholeOf layout .scroll src) :
    Merges layout (batchScroll layout dest src) := by
  refine merges_bind (hd.has.safe_wrappedSum hs.has (by decide)) ?_
  cases hsum : (wrappedSum layout .scroll .scrollAmt1 dest src).val with
  | none => exact merges_terminate
  | some amount =>
      have hfirst := hd.has.reads .scrollAmt1 (by decide)
      have hwrite := keepsHeader_writeShort (by decide) rfl amount hfirst
      have hsecond := hd.has.scroll rfl (short_ne_zero_of_wrappedSum hsum)
      rw [← hwrite.length] at hsecond
      have hkeeps := hwrite.trans (keepsHeader_writeShort (by decide) rfl amount hsecond)
      refine merges_bind ((safe_writeShort_iff (by decide) rfl _).mpr hfirst)
        (merges_bind ((safe_writeShort_iff (by decide) rfl _).mpr hsecond) (merges_pure ?_))
      intro bytes hbytes
      rw [BatchResult.batched.injEq] at hbytes
      subst hbytes
      refine hd.keepsHeader hkeeps ⟨?_, by simp [copies], ?_, by simp⟩
      · rw [hkeeps.length]
        exact hd.has.reads
      · intro _ _
        rw [hkeeps.length, ← hwrite.length]
        exact hsecond

/-- Two messages that are copied over each other are as long as their structure. -/
theorem merges_copy (hd : WholeOf layout kind dest) (hs : WholeOf layout kind src)
    (htext : kind ≠ .unicode) (hn : n ∈ fields kind) (hdest : copies layout kind dest = true)
    (hsrc : copies layout kind src = true) : Merges layout (copyStruct layout kind dest src) :=
  merges_copyStruct hs htext hn (hd.has.copy hdest) (hs.has.copy hsrc)

theorem merges_batchAbsMouseMove (hd : WholeOf layout .absMouseMove dest)
    (hs : WholeOf layout .absMouseMove src) :
    Merges layout (batchAbsMouseMove layout dest src) := by
  refine merges_orTerminate (hd.has.safe_sameField hs.has (by decide)) fun _ => ?_
  refine merges_orTerminate (hd.has.safe_sameField hs.has (by decide)) fun _ => ?_
  exact merges_copy (n := .x) hd hs (by decide) (by decide) rfl rfl

theorem merges_batchMultiController (hd : WholeOf layout .multiController dest)
    (hs : WholeOf layout .multiController src) :
    Merges layout (batchMultiController layout dest src) := by
  refine merges_orTerminate (hd.has.safe_sameField hs.has (by decide)) fun _ => ?_
  refine merges_orSkip (hd.has.safe_sameField hs.has (by decide)) fun _ => ?_
  refine merges_orTerminate (hd.has.safe_sameField hs.has (by decide)) fun _ => ?_
  refine merges_orTerminate (hd.has.safe_sameField hs.has (by decide)) fun _ => ?_
  exact merges_copy (n := .buttonFlags) hd hs (by decide) (by decide) rfl rfl

theorem merges_batchTouch (hd : WholeOf layout .touch dest) (hs : WholeOf layout .touch src) :
    Merges layout (batchTouch layout dest src) := by
  refine merges_orTerminate (hd.has.safe_isMove (by decide)) fun hdest => ?_
  refine merges_orTerminate (hs.has.safe_isMove (by decide)) fun hsrc => ?_
  refine merges_orSkip (hd.has.safe_sameField hs.has (by decide)) fun _ => ?_
  refine merges_orTerminate (hd.has.safe_sameField hs.has (by decide)) fun _ => ?_
  exact merges_copy (n := .eventType) hd hs (by decide) (by decide) hdest hsrc

theorem isMove_of_sameField (h : (sameField layout kind .eventType dest src).val = true)
    (hdest : (isMove layout kind dest).val = true) : (isMove layout kind src).val = true := by
  simp only [sameField, Traced.val_bind, Traced.val_pure, beq_iff_eq] at h
  simpa only [isMove, Traced.val_bind, Traced.val_pure, h] using hdest

/-- Only the event of the first message is looked at; the other one has the same. -/
theorem merges_batchPen (hd : WholeOf layout .pen dest) (hs : WholeOf layout .pen src) :
    Merges layout (batchPen layout dest src) := by
  refine merges_orTerminate (hd.has.safe_isMove (by decide)) fun hdest => ?_
  refine merges_orTerminate (hd.has.safe_sameField hs.has (by decide)) fun hsame => ?_
  refine merges_orTerminate (hd.has.safe_sameField hs.has (by decide)) fun _ => ?_
  refine merges_orTerminate (hd.has.safe_sameField hs.has (by decide)) fun _ => ?_
  have hsrc := isMove_of_sameField hsame hdest
  exact merges_copy (n := .eventType) hd hs (by decide) (by decide) hdest hsrc

theorem merges_batchControllerTouch (hd : WholeOf layout .controllerTouch dest)
    (hs : WholeOf layout .controllerTouch src) :
    Merges layout (batchControllerTouch layout dest src) := by
  refine merges_orTerminate (hd.has.safe_isMove (by decide)) fun hdest => ?_
  refine merges_orSkip (hd.has.safe_sameField hs.has (by decide)) fun _ => ?_
  refine merges_orTerminate (hs.has.safe_isMove (by decide)) fun hsrc => ?_
  refine merges_orSkip (hd.has.safe_sameField hs.has (by decide)) fun _ => ?_
  refine merges_orTerminate (hd.has.safe_sameField hs.has (by decide)) fun _ => ?_
  exact merges_copy (n := .eventType) hd hs (by decide) (by decide) hdest hsrc

theorem merges_batchControllerMotion (hd : WholeOf layout .controllerMotion dest)
    (hs : WholeOf layout .controllerMotion src) :
    Merges layout (batchControllerMotion layout dest src) := by
  refine merges_orSkip (hd.has.safe_sameField hs.has (by decide)) fun _ => ?_
  refine merges_orSkip (hd.has.safe_sameField hs.has (by decide)) fun _ => ?_
  exact merges_copy (n := .motionType) hd hs (by decide) (by decide) rfl rfl

/-- Whole messages are merged within their bytes. -/
theorem merges_batch (hd : Whole layout dest) (hs : Whole layout src) :
    Merges layout (batch layout dest src) := by
  refine merges_bind (safe_readMagic_iff.mpr hd.header)
    (merges_bind (safe_readMagic_iff.mpr hs.header) ?_)
  split
  · exact merges_terminate
  · case isFalse hmagic =>
      have hsame : (readMagic layout dest).val = (readMagic layout src).val := not_not.mp hmagic
      cases hkind : layout.kindOf (readMagic layout dest).val with
      | none => exact merges_terminate
      | some kind =>
          have hdest := hd.of hkind
          have hsrc := hs.of (hsame ▸ hkind)
          cases kind with
          | relMouseMove => exact merges_batchRelMouseMove hdest hsrc
          | absMouseMove => exact merges_batchAbsMouseMove hdest hsrc
          | scroll => exact merges_batchScroll hdest hsrc
          | hscroll => exact merges_batchHscroll hdest hsrc
          | multiController => exact merges_batchMultiController hdest hsrc
          | touch => exact merges_batchTouch hdest hsrc
          | pen => exact merges_batchPen hdest hsrc
          | controllerTouch => exact merges_batchControllerTouch hdest hsrc
          | controllerMotion => exact merges_batchControllerMotion hdest hsrc
          | _ => exact merges_terminate

theorem batchLoop_whole {queue : List Bytes} (hd : Whole layout dest)
    (hqueue : ∀ src ∈ queue, Whole layout src) :
    (batchLoop layout dest queue).Safe ∧ Whole layout (batchLoop layout dest queue).val.1 := by
  induction queue generalizing dest with
  | nil => exact ⟨Traced.safe_pure _, hd⟩
  | cons src queue ih =>
      rw [List.forall_mem_cons] at hqueue
      have hmerges := merges_batch hd hqueue.1
      simp only [batchLoop, Traced.safe_bind, Traced.val_bind]
      cases hbatch : (batch layout dest src).val with
      | batched bytes =>
          have hloop := ih (hmerges.whole bytes hbatch) hqueue.2
          exact ⟨⟨hmerges.safe, hloop.1⟩, hloop.2⟩
      | notBatchable =>
          have hloop := ih hd hqueue.2
          refine ⟨⟨hmerges.safe, ?_⟩, hloop.2⟩
          exact (Traced.safe_bind _ _).mpr ⟨hloop.1, Traced.safe_pure _⟩
      | terminateBatch => exact ⟨⟨hmerges.safe, Traced.safe_pure _⟩, hd⟩

/-! ## Printing and handing on -/

variable (layout) in
/-- What `print` asks of a structure. -/
structure Prints (verbose : Bool) (kind : Kind) (m : Bytes) : Prop where
  reads : verbose = true → ∀ n ∈ printed kind, (layout.place kind n).stop ≤ m.length
  text : kind = .unicode → 4 < (readSize layout m).val →
    layout.text + ((readSize layout m).val - 4) ≤ m.length

theorem safe_readText_iff {len : ℕ} :
    ((View.whole m).read layout.text len).Safe ↔ (0 < len → layout.text + len ≤ m.length) := by
  by_cases hlen : 0 < len
  · rw [View.safe_read hlen]
    simp only [View.whole, Nat.zero_add, hlen, true_imp_iff]
  · have hzero : len = 0 := by omega
    subst hzero
    simp [Traced.Safe, View.read, Access.InBounds]

theorem safe_printFields_iff {verbose : Bool} (htext : kind ≠ .unicode) :
    (if verbose then do readFields layout kind m (printed kind); pure true
      else pure true : Traced Bool).Safe ↔ Prints layout verbose kind m := by
  have hprints : Prints layout verbose kind m ↔
      (verbose = true → ∀ n ∈ printed kind, (layout.place kind n).stop ≤ m.length) :=
    ⟨Prints.reads, fun h => ⟨h, fun heq => absurd heq htext⟩⟩
  rw [hprints]
  have hreads : (readFields layout kind m (printed kind)).Safe ↔ _ :=
    safe_readFields_iff (List.subset_append_left _ _)
  cases verbose <;> simp [hreads]

theorem safe_printText_iff {verbose : Bool} :
    (if (readSize layout m).val < 4 then pure false
      else do
        let _ ← (View.whole m).read layout.text ((readSize layout m).val - 4)
        pure true : Traced Bool).Safe ↔ Prints layout verbose .unicode m := by
  have hprints : Prints layout verbose .unicode m ↔ (4 < (readSize layout m).val →
      layout.text + ((readSize layout m).val - 4) ≤ m.length) :=
    ⟨fun h => h.text rfl, fun h => ⟨by simp [printed], fun _ => h⟩⟩
  rw [hprints]
  split
  · case isTrue hsize =>
      have hshort : ¬4 < (readSize layout m).val := by omega
      simp [hshort]
  · rw [Traced.safe_bind, safe_readText_iff, and_iff_left (Traced.safe_pure _), Nat.sub_pos_iff_lt]

theorem safe_print_iff {verbose : Bool} :
    (print layout verbose m).Safe ↔ layout.magic.stop ≤ m.length ∧
      ∀ kind, layout.kindOf (readMagic layout m).val = some kind →
        Prints layout verbose kind m := by
  rw [print]
  rw [Traced.safe_bind, safe_readMagic_iff]
  refine and_congr_right fun hheader => ?_
  cases hkind : layout.kindOf (readMagic layout m).val with
  | none => simp
  | some kind =>
      simp only [Option.some.injEq, forall_eq']
      cases kind
      case unicode =>
        rw [Traced.safe_bind, and_iff_right (safe_readSize hheader)]
        exact safe_printText_iff
      all_goals exact safe_printFields_iff (by decide)

theorem Whole.safe_print (h : Whole layout m) (verbose : Bool) :
    (print layout verbose m).Safe :=
  safe_print_iff.mpr ⟨h.header, fun kind hkind =>
    ⟨fun _ => (h.has kind hkind).reads, (h.has kind hkind).text⟩⟩

theorem bmod_toNat_le (n modulus : ℕ) : (Int.bmod n modulus).toNat ≤ n := by
  have hmod := Nat.mod_le n modulus
  rw [Int.bmod_def, ← Int.natCast_emod]
  split <;> omega

/-- Nothing is handed on that was not printed. -/
theorem Whole.safe_passthrough (h : Whole layout m) (session : Session) :
    (passthrough layout session m).Safe := by
  rw [passthrough]
  rw [Traced.safe_bind, safe_readMagic_iff]
  refine ⟨h.header, ?_⟩
  cases hkind : layout.kindOf (readMagic layout m).val with
  | none => exact Traced.safe_pure _
  | some kind =>
      have hhas := h.has kind hkind
      have hreads :
          (readFields layout kind m ((passed kind).filter (session.reads kind m))).Safe := by
        have hsub : (passed kind).filter (session.reads kind m) ⊆ printed kind :=
          List.Subset.trans List.filter_sublist.subset (passed_subset_printed kind)
        rw [safe_readFields_iff (List.Subset.trans hsub (List.subset_append_left _ _))]
        exact fun n hn => hhas.reads n (hsub hn)
      cases kind
      case unicode =>
        dsimp only
        split
        · exact Traced.safe_pure _
        · rw [Traced.safe_bind, and_iff_right (safe_readSize h.header), Traced.safe_bind,
            and_iff_left (Traced.safe_pure _), safe_readText_iff]
          intro hlen
          have hle : (int32 ((readSize layout m).val - 4)).toNat ≤ _ := bmod_toNat_le _ (2 ^ 32)
          have htext := hhas.text rfl (by omega)
          omega
      all_goals exact hreads

/-- A queue of whole messages is taken within their bytes. -/
theorem passthroughNextMessage_safe {queue : List Bytes} (h : ∀ m ∈ queue, Whole layout m)
    (session : Session) : (passthroughNextMessage layout session queue).Safe := by
  cases queue with
  | nil => exact Traced.safe_pure _
  | cons entry queue =>
      rw [List.forall_mem_cons] at h
      have hloop := batchLoop_whole h.1 h.2
      rw [passthroughNextMessage]
      rw [Traced.safe_bind, and_iff_right hloop.1, Traced.safe_bind,
        and_iff_right (hloop.2.safe_print session.verbose)]
      split
      · exact (Traced.safe_bind _ _).mpr ⟨hloop.2.safe_passthrough session, Traced.safe_pure _⟩
      · exact Traced.safe_pure _

/-! ## Too short -/

theorem readField_append (rest : Bytes) (h : (layout.place kind n).stop ≤ m.length) :
    (readField layout kind n (m ++ rest)).val = (readField layout kind n m).val :=
  View.val_read_append rest h

theorem readMagic_append (rest : Bytes) (h : layout.magic.stop ≤ m.length) :
    (readMagic layout (m ++ rest)).val = (readMagic layout m).val :=
  readMagic_congr (View.val_read_append rest h)

theorem exists_printed (htext : kind ≠ .unicode) : ∃ n, n ∈ printed kind := by
  cases kind
  case unicode => exact absurd rfl htext
  all_goals exact ⟨_, List.mem_cons_self⟩

/-- Behind enough bytes a message of a structure is whole. -/
theorem wholeOf_append {rest : Bytes} (hheader : layout.magic.stop ≤ m.length)
    (hkind : layout.kindOf (readMagic layout m).val = some kind) (htext : kind ≠ .unicode)
    (hrest : layout.sizeof kind ≤ rest.length) : WholeOf layout kind (m ++ rest) where
  header := by
    rw [List.length_append]
    omega
  kindOf := by rw [readMagic_append rest hheader, hkind]
  has := has_of_sizeof htext (by rw [List.length_append]; omega)

theorem safe_of_unless {test : Traced Bool} {result : BatchResult} {next : Traced BatchResult}
    (htest : test.val = true)
    (h : (test >>= fun holds => if (!holds) = true then pure result else next).Safe) :
    next.Safe := by
  rw [Traced.safe_bind, htest] at h
  exact h.2

theorem sizeof_le_of_safe (hn : n ∈ fields kind) (hsrc : layout.sizeof kind ≤ src.length)
    (h : (copyStruct layout kind dest src).Safe) : layout.sizeof kind ≤ dest.length := by
  have hpos : 0 < layout.sizeof kind := by
    have hstop : layout.magic.stop ≤ layout.sizeof kind := stop_le_sizeof hn
    have hmagic := layout.magic_pos
    simp only [Span.stop] at hstop
    omega
  have hlen := View.length_read hsrc
  have hwrite := ((Traced.safe_bind _ _).mp ((Traced.safe_bind _ _).mp h).2).1
  rw [View.safe_write (List.ne_nil_of_length_pos (by omega)), hlen] at hwrite
  simpa only [View.whole, Nat.zero_add] using hwrite

/-- The merge with a longer message of the same fields copies the structure. -/
theorem safe_copyStruct_of_batch {rest : Bytes} (hheader : layout.magic.stop ≤ m.length)
    (hkind : layout.kindOf (readMagic layout m).val = some kind)
    (hreads : ∀ n ∈ printed kind, (layout.place kind n).stop ≤ m.length)
    (hcopies : copies layout kind m = true) (h : (batch layout m (m ++ rest)).Safe) :
    (copyStruct layout kind m (m ++ rest)).Safe := by
  have hfield : ∀ n ∈ printed kind, (readField layout kind n (m ++ rest)).val =
      (readField layout kind n m).val := fun n hn => readField_append rest (hreads n hn)
  have hsame : ∀ n ∈ printed kind, (sameField layout kind n m (m ++ rest)).val = true := by
    intro n hn
    simp only [sameField, Traced.val_bind, Traced.val_pure, hfield n hn, beq_self_eq_true]
  have hmove (hevent : Name.eventType ∈ printed kind) :
      (isMove layout kind (m ++ rest)).val = (isMove layout kind m).val := by
    simp only [isMove, Traced.val_bind, Traced.val_pure, hfield _ hevent]
  rw [batch] at h
  rw [Traced.safe_bind, Traced.safe_bind, readMagic_append rest hheader, hkind] at h
  replace h := h.2.2
  rw [if_neg (not_not.mpr rfl)] at h
  cases kind
  case absMouseMove =>
    exact safe_of_unless (hsame _ (by decide)) (safe_of_unless (hsame _ (by decide)) h)
  case multiController =>
    have hmask := safe_of_unless (hsame _ (by decide)) h
    have hnumber := safe_of_unless (hsame _ (by decide)) hmask
    exact safe_of_unless (hsame _ (by decide)) (safe_of_unless (hsame _ (by decide)) hnumber)
  case touch =>
    have hdest := safe_of_unless hcopies h
    have hsrc := safe_of_unless ((hmove (by decide)).trans hcopies) hdest
    exact safe_of_unless (hsame _ (by decide)) (safe_of_unless (hsame _ (by decide)) hsrc)
  case pen =>
    have hdest := safe_of_unless hcopies h
    have hevent := safe_of_unless (hsame _ (by decide)) hdest
    exact safe_of_unless (hsame _ (by decide)) (safe_of_unless (hsame _ (by decide)) hevent)
  case controllerTouch =>
    have hdest := safe_of_unless hcopies h
    have hnumber := safe_of_unless (hsame _ (by decide)) hdest
    have hsrc := safe_of_unless ((hmove (by decide)).trans hcopies) hnumber
    exact safe_of_unless (hsame _ (by decide)) (safe_of_unless (hsame _ (by decide)) hsrc)
  case controllerMotion =>
    exact safe_of_unless (hsame _ (by decide)) (safe_of_unless (hsame _ (by decide)) h)
  all_goals exact absurd hcopies Bool.false_ne_true

/-- The farthest number in the direction of an amount. -/
def far (amount : ℤ) : ℤ := if 0 < amount then 32767 else -32768

theorem short_shortBytes_far (amount : ℤ) : short (shortBytes (far amount)) = far amount := by
  rw [far]
  split <;> decide

/-- A message like the first that scrolls as far as it goes. -/
def scrollPartner (layout : Layout) (m : Bytes) : Bytes :=
  (writeShort layout .scroll .scrollAmt1
      (far (short (readField layout .scroll .scrollAmt1 m).val)) m).val ++
    List.replicate (layout.sizeof .scroll) 0

theorem val_read_writeShort (hn : n ∈ fields kind) (hshort : isShort n = true) (value : ℤ)
    (hle : (layout.place kind n).stop ≤ m.length) :
    (readField layout kind n (writeShort layout kind n value m).val).val = shortBytes value := by
  have hlen := layout.place_short kind n hn hshort
  simp only [Span.stop] at hle
  rw [readField, hlen]
  exact View.val_read_write (show 0 + 2 ≤ (shortBytes value).length from Nat.le_refl 2)
    (show (layout.place kind n).offset ≤ m.length by omega)

/-- Header, magic and amount of the partner. -/
theorem scrollPartner_spec (hheader : layout.magic.stop ≤ m.length)
    (hkind : layout.kindOf (readMagic layout m).val = some .scroll)
    (h : (layout.place .scroll .scrollAmt1).stop ≤ m.length) :
    WholeOf layout .scroll (scrollPartner layout m) ∧
      (readMagic layout (scrollPartner layout m)).val = (readMagic layout m).val ∧
      short (readField layout .scroll .scrollAmt1 (scrollPartner layout m)).val =
        far (short (readField layout .scroll .scrollAmt1 m).val) := by
  have hkeeps := keepsHeader_writeShort (by decide) rfl
    (far (short (readField layout .scroll .scrollAmt1 m).val)) h
  have hheader' := hheader
  rw [← hkeeps.length] at hheader'
  refine ⟨wholeOf_append hheader' (by rw [hkeeps.magic, hkind]) (by decide) (by simp), ?_, ?_⟩
  · exact (readMagic_append _ hheader').trans hkeeps.magic
  · rw [scrollPartner, readField_append _ (by rw [hkeeps.length]; exact h),
      val_read_writeShort (by decide) rfl _ h, short_shortBytes_far]

/-- The merge with the partner writes the second amount. -/
theorem stop_le_of_batch_scrollPartner (hheader : layout.magic.stop ≤ m.length)
    (hkind : layout.kindOf (readMagic layout m).val = some .scroll)
    (hle : (layout.place .scroll .scrollAmt1).stop ≤ m.length)
    (hne : short (readField layout .scroll .scrollAmt1 m).val ≠ 0)
    (h : (batch layout m (scrollPartner layout m)).Safe) :
    (layout.place .scroll .scrollAmt2).stop ≤ m.length := by
  obtain ⟨-, hmagic, hamount⟩ := scrollPartner_spec hheader hkind hle
  rw [batch] at h
  rw [Traced.safe_bind, Traced.safe_bind, hmagic, hkind] at h
  replace h := h.2.2
  rw [if_neg (not_not.mpr rfl)] at h
  have hsum : ∃ amount, (wrappedSum layout .scroll .scrollAmt1 m (scrollPartner layout m)).val =
      some amount := by
    simp only [wrappedSum, Traced.val_bind, Traced.val_pure, hamount]
    rw [if_pos]
    · exact ⟨_, rfl⟩
    · rw [far]
      split <;> omega
  obtain ⟨amount, hamount⟩ := hsum
  change (batchScroll layout m (scrollPartner layout m)).Safe at h
  rw [batchScroll] at h
  rw [Traced.safe_bind, hamount] at h
  have hwrite := ((Traced.safe_bind _ _).mp ((Traced.safe_bind _ _).mp h.2).2).1
  rw [safe_writeShort_iff (by decide) rfl] at hwrite
  rwa [(keepsHeader_writeShort (by decide) rfl amount hle).length] at hwrite

/-- A queue of two is merged first. -/
theorem safe_batch_of_passthroughNextMessage {session : Session}
    (h : (passthroughNextMessage layout session [m, src]).Safe) : (batch layout m src).Safe := by
  rw [passthroughNextMessage, batchLoop] at h
  exact ((Traced.safe_bind _ _).mp ((Traced.safe_bind _ _).mp h).1).1

/-- **Messages are read within their bytes** exactly when they are whole: a queue with a message
in it, whatever the session and the other whole messages. -/
theorem safe_iff_whole (layout : Layout) (m : Bytes) :
    (∀ session before after, (∀ other ∈ before ++ after, Whole layout other) →
      (passthroughNextMessage layout session (before ++ m :: after)).Safe) ↔ Whole layout m := by
  constructor
  · intro h
    have hprint := h ⟨true, false, fun _ _ _ => false⟩ [] [] (by simp)
    have hfirst : (print layout true m).Safe :=
      ((Traced.safe_bind _ _).mp ((Traced.safe_bind _ _).mp hprint).2).1
    obtain ⟨hheader, hprints⟩ := safe_print_iff.mp hfirst
    have hmerge : ∀ src, Whole layout src → (batch layout m src).Safe := by
      intro src hsrc
      have hpair := h ⟨true, false, fun _ _ _ => false⟩ [] [src] (by simpa using hsrc)
      exact safe_batch_of_passthroughNextMessage hpair
    refine ⟨hheader, fun kind hkind => ?_⟩
    have hreads := (hprints kind hkind).reads rfl
    refine ⟨hreads, ?_, ?_, (hprints kind hkind).text⟩
    · intro hcopies
      have htext : kind ≠ .unicode := by
        rintro rfl
        exact Bool.false_ne_true hcopies
      obtain ⟨n, hn⟩ := exists_printed htext
      have hpartner : WholeOf layout kind (m ++ List.replicate (layout.sizeof kind) 0) :=
        wholeOf_append hheader hkind htext (by simp)
      have hcopy := safe_copyStruct_of_batch hheader hkind hreads hcopies
        (hmerge _ hpartner.whole)
      exact sizeof_le_of_safe (mem_fields_of_printed hn) (by simp) hcopy
    · rintro rfl hne
      have hle := hreads .scrollAmt1 (by decide)
      exact stop_le_of_batch_scrollPartner hheader hkind hle hne
        (hmerge _ (scrollPartner_spec hheader hkind hle).1.whole)
  · intro h session before after hothers
    refine passthroughNextMessage_safe ?_ session
    intro other hother
    rw [List.mem_append, List.mem_cons] at hother
    rcases hother with hbefore | rfl | hafter
    · exact hothers other (List.mem_append_left _ hbefore)
    · exact h
    · exact hothers other (List.mem_append_right _ hafter)

/-- A header with its fields at multiples of four bytes, and the magic of a touch. -/
def aligned : Layout where
  headerSize := ⟨0, 4⟩
  magic := ⟨4, 4⟩
  kindOf magic := if magic = 0x55000002 then some .touch else none
  sizeof kind := 8 + 4 * (fields kind).length
  place kind n := ⟨8 + 4 * (fields kind).idxOf n, if isShort n then 2 else 4⟩
  text := 8
  touchEventMove := 3
  touchEventHover := 0
  headerSize_pos := by decide
  headerSize_le := by decide
  magic_pos := by decide
  place_pos := by intro kind; cases kind <;> decide
  place_behind := by intro kind; cases kind <;> decide
  place_within := by intro kind; cases kind <;> decide
  place_short := by intro kind; cases kind <;> decide

/-- The header of a touch and nothing behind it: every field is read past the end. -/
theorem headerOnly_not_safe :
    ¬(passthroughNextMessage aligned ⟨false, true, fun _ _ _ => true⟩
      [[0, 0, 0, 4, 0x02, 0, 0, 0x55]]).Safe := by
  decide

end LuminalShine.Input.Bounds
