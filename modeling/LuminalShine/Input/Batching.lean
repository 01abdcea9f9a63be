import LuminalShine.Lib.Run
import LuminalShine.Lib.Thinning
import Mathlib

/-!
# Input batching

The input queue of `src/input.cpp`.  The control thread appends messages; a task of the pool
takes the first one, merges later ones into it and hands it on to the platform.  The scan
goes on past messages of the same type that belong to another pointer, controller or
sensor, so that a merged message overtakes them.

The additive types test their sums with `!__builtin_add_overflow(…)`, which is true when
there is *no* overflow: two messages are merged exactly when their sums do not fit, and the
wrapped sums are what is delivered.

## Main definitions

* `Packet`, `batch`, `batchLoop` — the messages and the nine merge rules.
* `InputQueue`, `step` — the queue and its task.
* `Superseded` — an update that the next one of its device makes superfluous.
* `Device`, `concerns` — the messages of a device, with the events that change its state.

## Main results

* `batching_run` — what every run that meets no overflow delivers.
-/

namespace LuminalShine.Input

open LuminalShine.Lib

/-! ## Messages -/

structure MultiController where
  controllerNumber : Int16
  activeGamepadMask : Int16
  buttonFlags : Int16
  buttonFlags2 : Int16
  leftTrigger : UInt8
  rightTrigger : UInt8
  leftStickX : Int16
  leftStickY : Int16
  rightStickX : Int16
  rightStickY : Int16
  deriving DecidableEq, Repr

/-- `LI_TOUCH_EVENT_MOVE`, `LI_TOUCH_EVENT_HOVER` or another number. -/
inductive TouchEvent where
  | move
  | hover
  | other (eventType : UInt8)
  deriving DecidableEq, Repr

/-- A `netfloat` is kept as its four bytes. -/
structure Touch where
  eventType : TouchEvent
  rotation : UInt16
  pointerId : UInt32
  x : UInt32
  y : UInt32
  pressureOrDistance : UInt32
  contactAreaMajor : UInt32
  contactAreaMinor : UInt32
  deriving DecidableEq, Repr

structure Pen where
  eventType : TouchEvent
  toolType : UInt8
  penButtons : UInt8
  x : UInt32
  y : UInt32
  pressureOrDistance : UInt32
  rotation : UInt16
  tilt : UInt8
  contactAreaMajor : UInt32
  contactAreaMinor : UInt32
  deriving DecidableEq, Repr

structure ControllerArrival where
  controllerNumber : UInt8
  type : UInt8
  capabilities : UInt16
  supportedButtonFlags : UInt32
  deriving DecidableEq, Repr

structure ControllerTouch where
  controllerNumber : UInt8
  eventType : TouchEvent
  pointerId : UInt32
  x : UInt32
  y : UInt32
  pressure : UInt32
  deriving DecidableEq, Repr

structure ControllerMotion where
  controllerNumber : UInt8
  motionType : UInt8
  x : UInt32
  y : UInt32
  z : UInt32
  deriving DecidableEq, Repr

structure ControllerBattery where
  controllerNumber : UInt8
  batteryState : UInt8
  batteryPercentage : UInt8
  deriving DecidableEq, Repr

/-- A message by its magic, numbers in host order; `unknown` is one the dispatcher does not
name. -/
inductive Packet where
  | relMouseMove (deltaX deltaY : Int16)
  | absMouseMove (x y width height : Int16)
  | mouseButton (release : Bool) (button : ℕ)
  | scroll (scrollAmt1 scrollAmt2 : Int16)
  | hscroll (scrollAmount : Int16)
  | keyboard (release : Bool) (flags : UInt8) (keyCode : UInt16) (modifiers : UInt8)
  | unicode (text : List UInt8)
  | multiController (packet : MultiController)
  | touch (packet : Touch)
  | pen (packet : Pen)
  | controllerArrival (packet : ControllerArrival)
  | controllerTouch (packet : ControllerTouch)
  | controllerMotion (packet : ControllerMotion)
  | controllerBattery (packet : ControllerBattery)
  | unknown (magic : UInt32) (body : List UInt8)
  deriving DecidableEq, Repr

def isMove (eventType : TouchEvent) : Bool := eventType == .move || eventType == .hover

/-! ## Merging -/

/-- `batch_result_e`; a merge gives the new contents of `dest`. -/
inductive BatchResult where
  | batched (dest : Packet)
  | notBatchable
  | terminateBatch
  deriving DecidableEq, Repr

/-- `__builtin_add_overflow` of two shorts; what it stores is `a + b`. -/
def addOverflow (a b : Int16) : Bool :=
  a.toInt + b.toInt < -32768 || 32767 < a.toInt + b.toInt

/-- `batch`, by the magic of both messages. -/
def batch : Packet → Packet → BatchResult
  | .relMouseMove dx dy, .relMouseMove sx sy =>
      if !addOverflow dx sx then .terminateBatch
      else if !addOverflow dy sy then .terminateBatch
      else .batched (.relMouseMove (dx + sx) (dy + sy))
  | .absMouseMove _ _ dw dh, .absMouseMove sx sy sw sh =>
      if dw ≠ sw ∨ dh ≠ sh then .terminateBatch else .batched (.absMouseMove sx sy sw sh)
  | .scroll d _, .scroll s _ =>
      if !addOverflow d s then .terminateBatch else .batched (.scroll (d + s) (d + s))
  | .hscroll d, .hscroll s =>
      if !addOverflow d s then .terminateBatch else .batched (.hscroll (d + s))
  | .multiController d, .multiController s =>
      if d.activeGamepadMask ≠ s.activeGamepadMask then .terminateBatch
      else if d.controllerNumber ≠ s.controllerNumber then .notBatchable
      else if d.buttonFlags ≠ s.buttonFlags ∨ d.buttonFlags2 ≠ s.buttonFlags2 then
        .terminateBatch
      else .batched (.multiController s)
  | .touch d, .touch s =>
      if !isMove d.eventType then .terminateBatch
      else if !isMove s.eventType then .terminateBatch
      else if d.pointerId ≠ s.pointerId then .notBatchable
      else if d.eventType ≠ s.eventType then .terminateBatch
      else .batched (.touch s)
  | .pen d, .pen s =>
      if !isMove d.eventType then .terminateBatch
      else if d.eventType ≠ s.eventType then .terminateBatch
      else if d.penButtons ≠ s.penButtons then .terminateBatch
      else if d.toolType ≠ s.toolType then .terminateBatch
      else .batched (.pen s)
  | .controllerTouch d, .controllerTouch s =>
      if !isMove d.eventType then .terminateBatch
      else if d.controllerNumber ≠ s.controllerNumber then .notBatchable
      else if !isMove s.eventType then .terminateBatch
      else if d.pointerId ≠ s.pointerId then .notBatchable
      else if d.eventType ≠ s.eventType then .terminateBatch
      else .batched (.controllerTouch s)
  | .controllerMotion d, .controllerMotion s =>
      if d.controllerNumber ≠ s.controllerNumber then .notBatchable
      else if d.motionType ≠ s.motionType then .notBatchable
      else .batched (.controllerMotion s)
  | _, _ => .terminateBatch

/-- The loop of `passthrough_next_message`: the message to send, and the queue behind it. -/
def batchLoop (dest : Packet) : List Packet → Packet × List Packet
  | [] => (dest, [])
  | src :: queue =>
      match batch dest src with
      | .terminateBatch => (dest, src :: queue)
      | .batched dest => batchLoop dest queue
      | .notBatchable => ((batchLoop dest queue).1, src :: (batchLoop dest queue).2)

/-! ## The queue and its task -/

/-- Where the input task is.  `input_queue_task_scheduled` is false when it is idle. -/
inductive Phase where
  | idle
  | queued
  | sending (payload : Packet)
  | finishing
  deriving DecidableEq, Repr

/-- `sent` and `delivered` are history. -/
structure InputQueue where
  queue : List Packet
  phase : Phase
  sent : List Packet
  delivered : List Packet
  deriving DecidableEq, Repr

def InputQueue.initial : InputQueue := ⟨[], .idle, [], []⟩

/-- `enqueue` is the `passthrough` of the control thread; the task takes the lock twice, and
sends in between. -/
inductive Label where
  | enqueue (packet : Packet)
  | pop
  | send
  | finish
  deriving DecidableEq, Repr

def step (s : InputQueue) : Label → Option InputQueue
  | .enqueue packet => some { s with
      queue := s.queue ++ [packet]
      phase := if s.phase = .idle then .queued else s.phase
      sent := s.sent ++ [packet] }
  | .pop =>
      match s.phase, s.queue with
      | .queued, [] => some { s with phase := .idle }
      | .queued, dest :: queue => some { s with
          queue := (batchLoop dest queue).2
          phase := .sending (batchLoop dest queue).1 }
      | _, _ => none
  | .send =>
      match s.phase with
      | .sending payload => some { s with
          phase := .finishing
          delivered := s.delivered ++ [payload] }
      | _ => none
  | .finish =>
      if s.phase = .finishing then
        some { s with phase := if s.queue.isEmpty then .idle else .queued }
      else none

/-- What is on its way to the platform. -/
def InputQueue.undelivered (s : InputQueue) : List Packet :=
  match s.phase with
  | .sending payload => payload :: s.queue
  | _ => s.queue

/-! ## What batching owes -/

/-- The state that stays the same while updates of this kind go on. -/
inductive Steady where
  | absMouse (width height : Int16)
  | controller (number mask buttonFlags buttonFlags2 : Int16)
  | touch (pointerId : UInt32) (eventType : TouchEvent)
  | pen (eventType : TouchEvent) (penButtons toolType : UInt8)
  | controllerTouch (number : UInt8) (pointerId : UInt32) (eventType : TouchEvent)
  | motion (number motionType : UInt8)
  deriving DecidableEq, Repr

/-- Absolute positions, controller states with their buttons, moves and hovers, and sensor
readings are updates; everything else is an event. -/
def steady : Packet → Option Steady
  | .absMouseMove _ _ width height => some (.absMouse width height)
  | .multiController p =>
      some (.controller p.controllerNumber p.activeGamepadMask p.buttonFlags p.buttonFlags2)
  | .touch p => if isMove p.eventType then some (.touch p.pointerId p.eventType) else none
  | .pen p =>
      if isMove p.eventType then some (.pen p.eventType p.penButtons p.toolType) else none
  | .controllerTouch p =>
      if isMove p.eventType then some (.controllerTouch p.controllerNumber p.pointerId p.eventType)
      else none
  | .controllerMotion p => some (.motion p.controllerNumber p.motionType)
  | _ => none

/-- Two updates of the same device in the same state. -/
def Superseded (p q : Packet) : Prop := ∃ c, steady p = some c ∧ steady q = some c

inductive Device where
  | mouse
  | keyboard
  | controller (number : ℕ)
  | sensor (number : ℕ) (motionType : UInt8)
  | pointer (pointerId : UInt32)
  | controllerPointer (number : ℕ) (pointerId : UInt32)
  | pen
  deriving DecidableEq, Repr

/-- The events that change the state of a controller. -/
def changesController (number : ℕ) : Packet → Bool
  | .multiController p => p.controllerNumber.toInt == number
  | .controllerArrival p => p.controllerNumber.toNat == number
  | .controllerBattery p => p.controllerNumber.toNat == number
  | .controllerTouch p => p.controllerNumber.toNat == number && !isMove p.eventType
  | _ => false

/-- The messages of a device, together with the events that change its state. -/
def concerns : Device → Packet → Bool
  | .mouse, .relMouseMove _ _ | .mouse, .absMouseMove _ _ _ _ | .mouse, .mouseButton _ _
  | .mouse, .scroll _ _ | .mouse, .hscroll _ => true
  | .keyboard, .keyboard _ _ _ _ | .keyboard, .unicode _ => true
  | .controller number, p => changesController number p
  | .sensor number motionType, .controllerMotion p =>
      p.controllerNumber.toNat == number && p.motionType == motionType
  | .sensor number _, p => changesController number p
  | .pointer pointerId, .touch p => p.pointerId == pointerId || !isMove p.eventType
  | .controllerPointer number pointerId, .controllerTouch p =>
      p.controllerNumber.toNat == number && (p.pointerId == pointerId || !isMove p.eventType)
  | .controllerPointer number _, p => changesController number p
  | .pen, .pen _ => true
  | _, _ => false

/-- Sums of what was asked for, as integers. -/
def relMotion (packets : List Packet) : ℤ × ℤ :=
  ((packets.map fun | .relMouseMove x _ => x.toInt | _ => 0).sum,
    (packets.map fun | .relMouseMove _ y => y.toInt | _ => 0).sum)

def verticalScroll (packets : List Packet) : ℤ :=
  (packets.map fun | .scroll amount _ => amount.toInt | _ => 0).sum

def horizontalScroll (packets : List Packet) : ℤ :=
  (packets.map fun | .hscroll amount => amount.toInt | _ => 0).sum

def isAbs : Packet → Bool
  | .absMouseMove _ _ _ _ => true
  | _ => false

/-- The last absolute position. -/
def absPosition (packets : List Packet) : Option Packet := (packets.filter isAbs).getLast?

/-- The sums a merge would wrap. -/
def overflows : Packet → Packet → Bool
  | .relMouseMove dx dy, .relMouseMove sx sy => addOverflow dx sx && addOverflow dy sy
  | .scroll d _, .scroll s _ => addOverflow d s
  | .hscroll d, .hscroll s => addOverflow d s
  | _, _ => false

/-- The message the task takes and the one behind it do not overflow. -/
def NoOverflow (s : InputQueue) : Label → Prop
  | .pop => (match s.queue with | dest :: src :: _ => overflows dest src | _ => false) = false
  | _ => True

instance (s : InputQueue) : (label : Label) → Decidable (NoOverflow s label)
  | .pop => inferInstanceAs (Decidable (_ = _))
  | .enqueue _ | .send | .finish => isTrue trivial

/-! ## The merge rules -/

theorem superseded_symm (p q : Packet) (h : Superseded p q) : Superseded q p := by
  obtain ⟨c, hp, hq⟩ := h
  exact ⟨c, hq, hp⟩

theorem superseded_trans (p q r : Packet) (h : Superseded p q) (h' : Superseded q r) :
    Superseded p r := by
  obtain ⟨c, hp, hq⟩ := h
  obtain ⟨c', hq', hr⟩ := h'
  rw [hq, Option.some.injEq] at hq'
  exact ⟨c, hp, hq' ▸ hr⟩

theorem superseded_of_steady {p q : Packet} (hsome : (steady q).isSome = true)
    (heq : steady p = steady q) : Superseded p q := by
  obtain ⟨c, hc⟩ := Option.isSome_iff_exists.mp hsome
  exact ⟨c, heq.trans hc, hc⟩

/-- A merge keeps the later of two updates, or adds sums that do not fit. -/
theorem batch_batched {dest src merged : Packet} (h : batch dest src = .batched merged) :
    overflows dest src = true ∨ merged = src ∧ Superseded dest src := by
  have hkind : overflows dest src = true ∨
      merged = src ∧ (steady src).isSome = true ∧ steady dest = steady src := by
    unfold batch at h
    split at h
    case h_1 => grind [overflows]
    case h_2 => grind [steady]
    case h_3 => grind [overflows]
    case h_4 => grind [overflows]
    case h_5 => grind [steady]
    case h_6 => grind [steady]
    case h_7 => grind [steady]
    case h_8 => grind [steady]
    case h_9 => grind [steady]
    case h_10 => cases h
  rcases hkind with hkind | ⟨hmerged, hsome, heq⟩
  · exact Or.inl hkind
  · exact Or.inr ⟨hmerged, superseded_of_steady hsome heq⟩

/-- A message is passed only by one that concerns no common device. -/
theorem batch_notBatchable {dest src : Packet} (h : batch dest src = .notBatchable)
    (device : Device) : ¬ (concerns device dest = true ∧ concerns device src = true) := by
  unfold batch at h
  split at h
  case h_5 d s =>
    have hnumber : d.controllerNumber ≠ s.controllerNumber := by grind
    have hint : d.controllerNumber.toInt ≠ s.controllerNumber.toInt :=
      fun heq => hnumber (Int16.toInt_inj.mp heq)
    cases device <;> simp [concerns, changesController] <;> omega
  case h_6 d s =>
    obtain ⟨hd, hs, hpointer⟩ : isMove d.eventType = true ∧ isMove s.eventType = true ∧
        d.pointerId ≠ s.pointerId := by grind
    cases device <;> simp [concerns, changesController, hd, hs]
    rintro rfl
    exact hpointer.symm
  case h_8 d s =>
    obtain ⟨hd, hother⟩ : isMove d.eventType = true ∧
        (d.controllerNumber ≠ s.controllerNumber ∨
          isMove s.eventType = true ∧ d.pointerId ≠ s.pointerId) := by grind
    rw [ne_eq, ← UInt8.toNat_inj] at hother
    cases device <;> simp [concerns, changesController, hd]
    grind
  case h_9 d s =>
    have hother : d.controllerNumber ≠ s.controllerNumber ∨ d.motionType ≠ s.motionType := by grind
    rw [ne_eq, ← UInt8.toNat_inj] at hother
    cases device <;> simp [concerns, changesController]
    grind
  all_goals grind

/-- Whom an update concerns, by its kind. -/
def concernsSteady : Device → Steady → Bool
  | .mouse, .absMouse _ _ => true
  | .controller number, .controller n _ _ _ => n.toInt == number
  | .sensor number motionType, .motion n t => n.toNat == number && t == motionType
  | .sensor number _, .controller n _ _ _ => n.toInt == number
  | .pointer pointerId, .touch p _ => p == pointerId
  | .controllerPointer number pointerId, .controllerTouch n p _ =>
      n.toNat == number && p == pointerId
  | .controllerPointer number _, .controller n _ _ _ => n.toInt == number
  | .pen, .pen _ _ _ => true
  | _, _ => false

theorem concerns_of_steady {p : Packet} {c : Steady} (h : steady p = some c) (device : Device) :
    concerns device p = concernsSteady device c := by
  cases p <;> simp only [steady, reduceCtorEq, Option.some.injEq, Option.ite_none_right_eq_some]
    at h
  case absMouseMove =>
    subst h
    cases device <;> rfl
  case multiController p =>
    subst h
    cases device <;> rfl
  case controllerMotion p =>
    subst h
    cases device <;> rfl
  case touch p =>
    obtain ⟨hmove, rfl⟩ := h
    cases device <;> simp [concerns, changesController, concernsSteady, hmove]
  case pen p =>
    obtain ⟨hmove, rfl⟩ := h
    cases device <;> rfl
  case controllerTouch p =>
    obtain ⟨hmove, rfl⟩ := h
    cases device <;> simp [concerns, changesController, concernsSteady, hmove]

theorem concerns_superseded {p q : Packet} (h : Superseded p q) (device : Device) :
    concerns device p = concerns device q := by
  obtain ⟨c, hp, hq⟩ := h
  rw [concerns_of_steady hp, concerns_of_steady hq]

/-- Sums are never updates. -/
theorem overflows_of_steady {dest src : Packet} (h : (steady dest).isSome = true) :
    overflows dest src = false := by
  cases dest <;> simp [steady] at h <;> cases src <;> rfl

theorem overflows_of_notBatchable {dest src other : Packet}
    (h : batch dest src = .notBatchable) : overflows dest other = false := by
  unfold batch at h
  split at h <;> first | (cases other <;> rfl) | grind

/-! ## One task -/

/-- A selection of messages that the scan keeps in order: no message of it passes another
one, and an update is in it with all of its kind. -/
structure Tracks (select : Packet → Bool) : Prop where
  passes : ∀ {dest src}, batch dest src = .notBatchable →
    ¬ (select dest = true ∧ select src = true)
  same : ∀ {p q}, Superseded p q → select p = select q

theorem tracks_concerns (device : Device) : Tracks (concerns device) :=
  ⟨fun h => batch_notBatchable h device, fun h => concerns_superseded h device⟩

theorem tracks_isAbs : Tracks isAbs := by
  constructor
  · intro dest src h
    unfold batch at h
    split at h <;> grind [isAbs]
  · intro p q h
    obtain ⟨c, hp, hq⟩ := h
    unfold steady at hp hq
    split at hp <;> split at hq <;> grind [isAbs]

/-- What the scan does to such a selection: the merged message stands for those it replaces,
and passes none of them. -/
theorem batchLoop_thins {select : Packet → Bool} (htracks : Tracks select) {dest : Packet}
    {queue : List Packet} (hoverflow : ∀ src ∈ queue.head?, overflows dest src = false) :
    select (batchLoop dest queue).1 = select dest ∧
      Thins Superseded ((dest :: queue).filter select)
        (((batchLoop dest queue).1 :: (batchLoop dest queue).2).filter select) := by
  induction queue generalizing dest with
  | nil => exact ⟨rfl, .refl _⟩
  | cons src queue ih =>
      rw [batchLoop]
      cases hbatch : batch dest src with
      | terminateBatch => exact ⟨rfl, .refl _⟩
      | batched merged =>
          rcases batch_batched hbatch with h | ⟨hmerged, hsuperseded⟩
          · rw [hoverflow src rfl] at h
            cases h
          · rw [hmerged]
            have hsame := htracks.same hsuperseded
            have hsome : (steady src).isSome = true := by
              obtain ⟨c, -, hc⟩ := hsuperseded
              rw [hc]
              rfl
            obtain ⟨hselect, hthins⟩ :=
              @ih src fun _ _ => overflows_of_steady hsome
            refine ⟨hselect.trans hsame.symm, ?_⟩
            cases hsrc : select src with
            | true =>
                rw [List.filter_cons_of_pos hsrc] at hthins
                rw [List.filter_cons_of_pos (hsame.trans hsrc), List.filter_cons_of_pos hsrc]
                exact .drop hsuperseded hthins
            | false =>
                rw [List.filter_cons_of_neg (by simp [hsame, hsrc])]
                exact hthins
      | notBatchable =>
          obtain ⟨hselect, hthins⟩ :=
            @ih dest fun _ _ => overflows_of_notBatchable hbatch
          refine ⟨hselect, ?_⟩
          dsimp only
          cases hsrc : select src with
          | true =>
              -- then neither the message nor what it becomes is selected
              have hdest : select dest = false := by
                cases hdest : select dest with
                | false => rfl
                | true => exact absurd ⟨hdest, hsrc⟩ (htracks.passes hbatch)
              have hmerged := hselect.trans hdest
              simp only [List.filter_cons, hdest, hmerged, hsrc, Bool.false_eq_true, if_false,
                if_true] at hthins ⊢
              exact .keep src hthins
          | false =>
              simpa [List.filter_cons, hsrc] using hthins

/-! ## Runs -/

structure Inv (s : InputQueue) : Prop where
  idle : s.phase = .idle → s.queue = []
  thins : ∀ {select}, Tracks select →
    Thins Superseded (s.sent.filter select) ((s.delivered ++ s.undelivered).filter select)

theorem inv_initial : Inv .initial := ⟨fun _ => rfl, fun _ => .nil⟩

theorem undelivered_append (s : InputQueue) (packet : Packet) (phase : Phase)
    (hphase : phase = s.phase ∨ s.phase = .idle ∧ phase = .queued) :
    InputQueue.undelivered { s with
      queue := s.queue ++ [packet], phase, sent := s.sent ++ [packet] } =
      s.undelivered ++ [packet] := by
  rcases hphase with rfl | ⟨hidle, rfl⟩
  · cases h : s.phase <;> simp [InputQueue.undelivered, h]
  · simp [InputQueue.undelivered, hidle]

variable {s s' : InputQueue}

theorem Inv.enqueue (h : Inv s) {packet : Packet} (hstep : step s (.enqueue packet) = some s') :
    Inv s' := by
  rw [← Option.some.inj hstep]
  constructor
  · intro hidle
    dsimp only at hidle
    split at hidle
    · cases hidle
    · case isFalse hne => exact absurd hidle hne
  · intro select htracks
    have hphase : (if s.phase = .idle then Phase.queued else s.phase) = s.phase ∨
        s.phase = .idle ∧ (if s.phase = .idle then Phase.queued else s.phase) = .queued := by
      by_cases hidle : s.phase = .idle <;> simp [hidle]
    rw [undelivered_append s packet _ hphase, ← List.append_assoc, List.filter_append,
      List.filter_append _ [packet]]
    exact (h.thins htracks).append (.refl _)

theorem Inv.pop (h : Inv s) (hoverflow : NoOverflow s .pop) (hstep : step s .pop = some s') :
    Inv s' := by
  simp only [step] at hstep
  split at hstep
  · case h_1 hphase hqueue =>
      rw [← Option.some.inj hstep]
      refine ⟨fun _ => hqueue, fun htracks => ?_⟩
      have hthins := h.thins htracks
      simpa [InputQueue.undelivered, hphase] using hthins
  · case h_2 dest queue hphase hqueue =>
      rw [← Option.some.inj hstep]
      refine ⟨fun hidle => (by cases hidle), fun {select} htracks => ?_⟩
      have hbefore := h.thins htracks
      have hhead : ∀ src ∈ queue.head?, overflows dest src = false := by
        intro src hsrc
        cases queue with
        | nil => cases hsrc
        | cons src' queue =>
            rw [List.head?_cons, Option.mem_some_iff] at hsrc
            subst hsrc
            simpa [NoOverflow, hqueue] using hoverflow
      have hpop := (batchLoop_thins htracks hhead).2
      simp only [InputQueue.undelivered, hphase, hqueue, List.filter_append] at hbefore ⊢
      exact hbefore.trans superseded_symm superseded_trans ((Thins.refl _).append hpop)
  · cases hstep

theorem Inv.send (h : Inv s) (hstep : step s .send = some s') : Inv s' := by
  simp only [step] at hstep
  split at hstep
  · case h_1 payload hphase =>
      rw [← Option.some.inj hstep]
      refine ⟨fun hidle => (by cases hidle), fun htracks => ?_⟩
      have hthins := h.thins htracks
      simpa [InputQueue.undelivered, hphase] using hthins
  · cases hstep

theorem Inv.finish (h : Inv s) (hstep : step s .finish = some s') : Inv s' := by
  simp only [step] at hstep
  obtain ⟨hphase, rfl⟩ := guarded_eq_some.mp hstep
  constructor
  · intro hidle
    dsimp only at hidle ⊢
    split at hidle
    · case isTrue hempty => exact List.isEmpty_iff.mp hempty
    · cases hidle
  · intro select htracks
    have hthins := h.thins htracks
    cases hempty : s.queue.isEmpty <;>
      simpa [InputQueue.undelivered, hphase, hempty] using hthins

theorem Inv.step (h : Inv s) {label : Label} (hoverflow : NoOverflow s label)
    (hstep : step s label = some s') : Inv s' := by
  cases label with
  | enqueue packet => exact h.enqueue hstep
  | pop => exact h.pop hoverflow hstep
  | send => exact h.send hstep
  | finish => exact h.finish hstep

/-! ## Sums -/

/-- A sum over the messages of the mouse that updates do not enter survives thinning. -/
theorem sum_thins {l l' : List Packet} (f : Packet → ℤ) (hf : ∀ p, (steady p).isSome → f p = 0)
    (h : Thins Superseded l l') : (l.map f).sum = (l'.map f).sum := by
  induction h with
  | nil => rfl
  | keep a _ ih => rw [List.map_cons, List.map_cons, List.sum_cons, List.sum_cons, ih]
  | drop hab _ ih =>
      obtain ⟨c, hc, -⟩ := hab
      rw [List.map_cons, List.sum_cons, hf _ (by rw [hc]; rfl), zero_add, ih]

theorem sum_filter_mouse (l : List Packet) (f : Packet → ℤ)
    (hf : ∀ p, concerns .mouse p = false → f p = 0) :
    ((l.filter (concerns .mouse)).map f).sum = (l.map f).sum := by
  induction l with
  | nil => rfl
  | cons p l ih =>
      cases hp : concerns .mouse p with
      | true => rw [List.filter_cons_of_pos hp, List.map_cons, List.map_cons, List.sum_cons,
          List.sum_cons, ih]
      | false => rw [List.filter_cons_of_neg (by simp [hp]), List.map_cons, List.sum_cons,
          hf p hp, zero_add, ih]

theorem Inv.sum (h : Inv s) (f : Packet → ℤ) (hsteady : ∀ p, (steady p).isSome → f p = 0)
    (hmouse : ∀ p, concerns .mouse p = false → f p = 0) :
    ((s.delivered ++ s.undelivered).map f).sum = (s.sent.map f).sum := by
  rw [← sum_filter_mouse _ f hmouse, ← sum_filter_mouse s.sent f hmouse]
  exact (sum_thins f hsteady (h.thins (tracks_concerns .mouse))).symm

/-- **Batching preserves input.**  In a run whose task never finds an overflow behind the
message it takes, what was delivered together with what is on its way has the sums and the
last position of what was sent, and for every device, among its messages and the events
that change its state, only superseded updates are left out and nothing is moved.  An idle
task has nothing on its way. -/
theorem batching_run {labels : List Label} (hrun : run step .initial labels = some s)
    (hmeets : RunMeets step NoOverflow .initial labels) :
    (s.phase = .idle → s.undelivered = []) ∧
      relMotion (s.delivered ++ s.undelivered) = relMotion s.sent ∧
      verticalScroll (s.delivered ++ s.undelivered) = verticalScroll s.sent ∧
      horizontalScroll (s.delivered ++ s.undelivered) = horizontalScroll s.sent ∧
      absPosition (s.delivered ++ s.undelivered) = absPosition s.sent ∧
      ∀ device, Thins Superseded (s.sent.filter (concerns device))
        ((s.delivered ++ s.undelivered).filter (concerns device)) := by
  have hinv : Inv s := run_invariant_of_meets (fun s label s' h hoverflow hstep =>
    h.step hoverflow hstep) inv_initial hmeets hrun
  refine ⟨?_, ?_, ?_, ?_, ?_, fun device => hinv.thins (tracks_concerns device)⟩
  · intro hidle
    simp [InputQueue.undelivered, hidle, hinv.idle hidle]
  · unfold relMotion
    rw [hinv.sum _ ?_ ?_, hinv.sum _ ?_ ?_] <;>
      · intro p hp
        cases p <;> simp_all [steady, concerns]
  · refine hinv.sum _ ?_ ?_ <;>
      · intro p hp
        cases p <;> simp_all [steady, concerns]
  · refine hinv.sum _ ?_ ?_ <;>
      · intro p hp
        cases p <;> simp_all [steady, concerns]
  · exact (hinv.thins tracks_isAbs).getLast?_eq.symm

/-- A move of one finger, of another and of the first again, before the task runs. -/
def twoFingers : List Label :=
  [.enqueue (.touch ⟨.move, 0, 1, 10, 10, 0, 0, 0⟩),
    .enqueue (.touch ⟨.move, 0, 2, 20, 20, 0, 0, 0⟩),
    .enqueue (.touch ⟨.move, 0, 1, 11, 11, 0, 0, 0⟩), .pop, .send, .finish, .pop, .send, .finish]

theorem batching_run_twoFingers :
    ∃ s, run step .initial twoFingers = some s ∧ s.phase = .idle ∧
      s.delivered = [.touch ⟨.move, 0, 1, 11, 11, 0, 0, 0⟩, .touch ⟨.move, 0, 2, 20, 20, 0, 0, 0⟩] ∧
      Thins Superseded (s.sent.filter (concerns (.pointer 1)))
        ((s.delivered ++ s.undelivered).filter (concerns (.pointer 1))) := by
  obtain ⟨s, hrun, hs⟩ := (Option.any_eq_true _ _).mp
    (show (run step .initial twoFingers).any (fun s => decide (s.phase = .idle) && decide
      (s.delivered =
        [.touch ⟨.move, 0, 1, 11, 11, 0, 0, 0⟩, .touch ⟨.move, 0, 2, 20, 20, 0, 0, 0⟩])) = true by
      rfl)
  simp only [Bool.and_eq_true, decide_eq_true_eq] at hs
  exact ⟨s, hrun, hs.1, hs.2,
    (batching_run hrun (by decide)).2.2.2.2.2 (.pointer 1)⟩

/-- Two fast moves of the mouse to the lower right become one to the upper left. -/
theorem batching_wraps :
    ∃ s, run step .initial
        [.enqueue (.relMouseMove 30000 30000), .enqueue (.relMouseMove 30000 30000), .pop, .send,
          .finish] = some s ∧ s.phase = .idle ∧
      s.delivered = [.relMouseMove (-5536) (-5536)] ∧
      relMotion s.delivered ≠ relMotion s.sent := by
  obtain ⟨s, hrun, hs⟩ := (Option.any_eq_true _ _).mp
    (show (run step .initial
        [.enqueue (.relMouseMove 30000 30000), .enqueue (.relMouseMove 30000 30000), .pop, .send,
          .finish]).any (fun s => decide (s.phase = .idle) &&
            decide (s.delivered = [.relMouseMove (-5536) (-5536)]) &&
            decide (relMotion s.delivered ≠ relMotion s.sent)) = true by rfl)
  simp only [Bool.and_eq_true, decide_eq_true_eq] at hs
  exact ⟨s, hrun, hs.1.1, hs.1.2, hs.2⟩

end LuminalShine.Input
