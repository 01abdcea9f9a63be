import LuminalShine.Lib.Run
import Mathlib.Algebra.Group.Nat.Defs
import Mathlib.Data.Int.Notation
import Mathlib.Data.List.Basic
import Mathlib.Data.Nat.Notation

/-!
# Deferred display configurations

`SessionDeferralManager` of `src/platform/windows/display_helper_session_deferral.cpp`.  A
request waits in one slot until the user session is ready and its delay is over.  It is then
handed out to be applied, and put back by `reschedule` when that fails.

While it is out, the manager knows nothing of it: `clear` empties a slot that is empty
already, and the request comes back behind it.

Times are nanoseconds of the steady clock.  `reschedule` takes its request by value, so a
caller may put back any request it was ever handed.

## Main definitions

* `PendingApplyState`, `makeState`, `takeReady`, `reschedule`, `retryDelay` — the source's.
* `Session`, `Call`, `step` — a manager with the requests that were handed out.
* `Orderly` — no request is put back over a clear, nor as an old copy.

## Main results

* `deferral_run` — what runs of orderly calls keep.
-/

namespace LuminalShine.DisplayHelper

open LuminalShine.Lib

/-! ## The manager -/

/-- `std::chrono::milliseconds` on the clock. -/
def ms (n : ℕ) : ℕ := n * 1000000

/-- `kDeferredApplyInitialDelay` -/
def deferredApplyInitialDelay : ℕ := ms 2000

/-- `kDeferredApplyRetryBase` -/
def deferredApplyRetryBase : ℕ := ms 500

/-- `kDeferredApplyRetryMax` -/
def deferredApplyRetryMax : ℕ := ms 10000

/-- `kMaxDeferredApplyAttempts` -/
def maxDeferredApplyAttempts : ℕ := 6

structure PendingSessionSnapshot where
  width : ℤ := 0
  height : ℤ := 0
  fps : ℤ := 0
  enableHdr : Bool := false
  enableSops : Bool := false
  virtualDisplay : Bool := false
  virtualDisplayDeviceId : String := ""
  virtualDisplayReadySince : Option ℕ := none
  framegenRefreshRate : Option ℤ := none
  gen1FramegenFix : Bool := false
  gen2FramegenFix : Bool := false
  deriving DecidableEq, Repr

/-- The fields of `launch_session_t` that are kept. -/
structure LaunchSession extends PendingSessionSnapshot where
  id : UInt32
  deriving DecidableEq, Repr

/-- `C` stands for the fields of a request the manager passes on. -/
structure DisplayApplyRequest (C : Type) where
  fields : C
  session : Option LaunchSession
  deriving DecidableEq, Repr

structure PendingApplyState (C : Type) where
  request : DisplayApplyRequest C
  sessionSnapshot : PendingSessionSnapshot
  sessionId : UInt32
  hasSession : Bool
  attempts : ℕ
  readySince : Option ℕ
  nextAttempt : ℕ
  deriving DecidableEq, Repr

inductive TakeStatus where
  | noPending
  | sessionNotReady
  | delayStarted
  | delayPending
  | ready
  | droppedMaxAttempts
  deriving DecidableEq, Repr

structure RescheduleResult where
  requeued : Bool := false
  droppedForNewer : Bool := false
  droppedMaxAttempts : Bool := false
  attempts : ℕ := 0
  delay : ℕ := 0
  deriving DecidableEq, Repr

section Manager

variable {C : Type}

/-- `make_state`: the session is copied, and the pointer to it dropped. -/
def makeState (request : DisplayApplyRequest C) : PendingApplyState C where
  request := { request with session := none }
  sessionSnapshot := (request.session.map (·.toPendingSessionSnapshot)).getD {}
  sessionId := (request.session.map (·.id)).getD 0
  hasSession := request.session.isSome
  attempts := 0
  readySince := none
  nextAttempt := 0

/-- `retry_delay` -/
def retryDelay (attempts : ℕ) : ℕ :=
  if attempts = 0 then deferredApplyRetryBase
  else min (deferredApplyRetryBase * 2 ^ min (attempts - 1) 5) deferredApplyRetryMax

/-- `take_ready`: its result, and the slot after it. -/
def takeReady (slot : Option (PendingApplyState C)) (sessionReady : Bool) (now : ℕ) :
    (TakeStatus × Option (PendingApplyState C)) × Option (PendingApplyState C) :=
  match slot with
  | none => ((.noPending, none), none)
  | some state =>
      if !sessionReady then ((.sessionNotReady, none), some state)
      else match state.readySince with
        | none =>
            ((.delayStarted, none), some { state with
              readySince := some now
              nextAttempt := now + deferredApplyInitialDelay })
        | some _ =>
            if now < state.nextAttempt then ((.delayPending, none), some state)
            else if maxDeferredApplyAttempts ≤ state.attempts then
              ((.droppedMaxAttempts, none), none)
            else ((.ready, some state), none)

/-- `reschedule`: its result, and the slot after it.  The clock is read twice. -/
def reschedule (slot : Option (PendingApplyState C)) (pending : PendingApplyState C)
    (now later : ℕ) : RescheduleResult × Option (PendingApplyState C) :=
  if maxDeferredApplyAttempts ≤ pending.attempts then
    ({ droppedMaxAttempts := true }, slot)
  else
    let attempts := pending.attempts + 1
    let delay := retryDelay attempts
    let pending := { pending with
      attempts
      nextAttempt := now + delay
      readySince := some (pending.readySince.getD later) }
    match slot with
    | some newer => ({ droppedForNewer := true, attempts, delay }, some newer)
    | none => ({ requeued := true, attempts, delay }, some pending)

/-- What waits is never replaced. -/
theorem reschedule_some (newer pending : PendingApplyState C) (now later : ℕ) :
    (reschedule (some newer) pending now later).2 = some newer := by
  unfold reschedule
  split <;> rfl

theorem reschedule_none (pending : PendingApplyState C) (now later : ℕ) :
    (reschedule none pending now later).2 =
      if maxDeferredApplyAttempts ≤ pending.attempts then none
      else some { pending with
        attempts := pending.attempts + 1
        nextAttempt := now + retryDelay (pending.attempts + 1)
        readySince := some (pending.readySince.getD later) } := by
  unfold reschedule
  split <;> rfl

end Manager

/-! ## Calls in any order -/

/-- What happened, with the number of the `set_pending` call that brought the request. -/
inductive Event where
  | set (serial : ℕ)
  | seenReady (serial now : ℕ)
  | delivered (serial now : ℕ)
  | cleared
  deriving DecidableEq, Repr

/-- Requests are numbered as they are set.  `deliveries` are the states handed out, in
order; the newest event of `history` stands first. -/
structure Session (C : Type) where
  clock : ℕ
  slot : Option (PendingApplyState (ℕ × C))
  sets : ℕ
  deliveries : List (PendingApplyState (ℕ × C))
  history : List Event
  deriving DecidableEq, Repr

inductive Call (C : Type) where
  | setPending (request : DisplayApplyRequest C)
  | takeReady (sessionReady : Bool) (now : ℕ)
  | reschedule (delivery now later : ℕ)
  | clear
  deriving DecidableEq, Repr

variable {C : Type}

def Session.initial : Session C := ⟨0, none, 0, [], []⟩

def serial (state : PendingApplyState (ℕ × C)) : ℕ := state.request.fields.1

/-- The events of one `take_ready`, newest first. -/
def takeEvents (slot taken : Option (PendingApplyState (ℕ × C))) (sessionReady : Bool)
    (now : ℕ) : List Event :=
  (taken.toList.map fun state => .delivered (serial state) now) ++
    if sessionReady then slot.toList.map fun state => .seenReady (serial state) now else []

def step (s : Session C) : Call C → Option (Session C)
  | .setPending request =>
      some { s with
        slot := some (makeState ⟨(s.sets, request.fields), request.session⟩)
        sets := s.sets + 1
        history := .set s.sets :: s.history }
  | .takeReady sessionReady now =>
      if s.clock ≤ now then
        let ((_, taken), slot) := takeReady s.slot sessionReady now
        some { s with
          clock := now
          slot
          deliveries := s.deliveries ++ taken.toList
          history := takeEvents s.slot taken sessionReady now ++ s.history }
      else none
  | .reschedule delivery now later =>
      match s.deliveries[delivery]? with
      | none => none
      | some pending =>
          if s.clock ≤ now ∧ now ≤ later then
            some { s with clock := later, slot := (reschedule s.slot pending now later).2 }
          else none
  | .clear => some { s with slot := none, history := .cleared :: s.history }

/-- A put-back that takes effect puts back the newest copy of its request, and the request
was not set before a clear. -/
def Orderly (s : Session C) : Call C → Prop
  | .reschedule delivery _ _ =>
      ∀ pending ∈ s.deliveries[delivery]?, s.slot.isNone →
        pending.attempts < maxDeferredApplyAttempts →
        (∀ other ∈ s.deliveries.drop (delivery + 1), serial other ≠ serial pending) ∧
          ¬ [.cleared, .set (serial pending)].Sublist s.history
  | _ => True

instance (s : Session C) : (call : Call C) → Decidable (Orderly s call)
  | .reschedule delivery _ _ => inferInstanceAs (Decidable (∀ pending ∈ s.deliveries[delivery]?,
      s.slot.isNone → pending.attempts < maxDeferredApplyAttempts →
      (∀ other ∈ s.deliveries.drop (delivery + 1), serial other ≠ serial pending) ∧
        ¬ [.cleared, .set (serial pending)].Sublist s.history))
  | .setPending _ | .takeReady _ _ | .clear => isTrue trivial

/-- The times one request was handed out, newest first. -/
def times (n : ℕ) (history : List Event) : List ℕ :=
  history.filterMap fun
    | .delivered m now => if m = n then some now else none
    | _ => none

/-- When the session was first seen ready while the request waited. -/
def firstSeenReady (n : ℕ) (history : List Event) : Option ℕ :=
  (history.filterMap fun
    | .seenReady m now => if m = n then some now else none
    | _ => none).getLast?

/-- Each delivery comes the retry delay of its attempt after the one before it. -/
def Spaced : List ℕ → Prop
  | t' :: t :: ts => t + retryDelay (ts.length + 1) ≤ t' ∧ Spaced (t :: ts)
  | _ => True

/-! ## Events -/

section Events

variable (n m t : ℕ) (history : List Event)

@[simp] theorem times_set : times n (.set m :: history) = times n history := rfl

@[simp] theorem times_cleared : times n (.cleared :: history) = times n history := rfl

@[simp] theorem times_seenReady : times n (.seenReady m t :: history) = times n history := rfl

@[simp] theorem times_delivered :
    times n (.delivered m t :: history) =
      if m = n then t :: times n history else times n history := by
  by_cases h : m = n <;> simp [times, h]

@[simp] theorem firstSeenReady_set :
    firstSeenReady n (.set m :: history) = firstSeenReady n history := rfl

@[simp] theorem firstSeenReady_cleared :
    firstSeenReady n (.cleared :: history) = firstSeenReady n history := rfl

@[simp] theorem firstSeenReady_delivered :
    firstSeenReady n (.delivered m t :: history) = firstSeenReady n history := rfl

@[simp] theorem firstSeenReady_seenReady :
    firstSeenReady n (.seenReady m t :: history) =
      if m = n then some ((firstSeenReady n history).getD t) else firstSeenReady n history := by
  by_cases h : m = n <;> simp [firstSeenReady, h, List.getLast?_cons]

end Events

/-- A pattern that does not begin with the newest event was there before it. -/
theorem sublist_of_cons_ne {a e : Event} {l history : List Event} (hne : a ≠ e)
    (h : (a :: l).Sublist (e :: history)) : (a :: l).Sublist history := by
  rcases List.sublist_cons_iff.mp h with h | ⟨r, hr, -⟩
  · exact h
  · simp only [List.cons.injEq] at hr
    exact absurd hr.1 hne

theorem sublist_of_cons {e : Event} {l history : List Event}
    (h : (e :: l).Sublist (e :: history)) : l.Sublist history := List.cons_sublist_cons.mp h

/-! ## The invariant -/

/-- What the history of one request looks like. -/
structure Timed (n : ℕ) (history : List Event) : Prop where
  spaced : Spaced (times n history)
  bounded : (times n history).length ≤ maxDeferredApplyAttempts
  delayed : ∀ t ∈ times n history,
    ∃ t₀, firstSeenReady n history = some t₀ ∧ t₀ + deferredApplyInitialDelay ≤ t

/-- A request in the slot counts its deliveries, and waits for its delay. -/
structure Waits (history : List Event) (p : PendingApplyState (ℕ × C)) : Prop where
  attempts : p.attempts = (times (serial p) history).length
  ready : p.readySince = firstSeenReady (serial p) history
  initial : ∀ t₀, p.readySince = some t₀ → t₀ + deferredApplyInitialDelay ≤ p.nextAttempt
  retry : ∀ t ∈ (times (serial p) history).head?, t + retryDelay p.attempts ≤ p.nextAttempt
  current : ¬ [.cleared, .set (serial p)].Sublist history

/-- The newest copy of a request that was handed out. -/
structure Out (history : List Event) (p : PendingApplyState (ℕ × C)) : Prop where
  attempts : p.attempts + 1 = (times (serial p) history).length
  ready : p.readySince = firstSeenReady (serial p) history
  seen : p.readySince.isSome

structure Inv (s : Session C) : Prop where
  clock : ∀ n, ∀ t ∈ times n s.history, t ≤ s.clock
  fresh : ∀ n, s.sets ≤ n → times n s.history = [] ∧ firstSeenReady n s.history = none
  below : ∀ n, .set n ∈ s.history → n < s.sets
  slotBelow : ∀ p, s.slot = some p → serial p < s.sets
  takenBelow : ∀ p ∈ s.deliveries, serial p < s.sets
  slot : ∀ p, s.slot = some p → Waits s.history p
  taken : ∀ i p, s.deliveries[i]? = some p →
    (∀ other ∈ s.deliveries.drop (i + 1), serial other ≠ serial p) → Out s.history p
  timed : ∀ n, Timed n s.history
  uncleared : ∀ n t, ¬ [.delivered n t, .cleared, .set n].Sublist s.history

theorem inv_initial : Inv (Session.initial : Session C) where
  clock := by simp [Session.initial, times]
  fresh := by simp [Session.initial, times, firstSeenReady]
  below := by simp [Session.initial]
  slotBelow := by simp [Session.initial]
  takenBelow := by simp [Session.initial]
  slot := by simp [Session.initial]
  taken := by simp [Session.initial]
  timed := fun n => ⟨trivial, by simp [Session.initial, times], by simp [Session.initial, times]⟩
  uncleared := by simp [Session.initial]

variable {s s' : Session C}

theorem Inv.setPending (h : Inv s) (request : DisplayApplyRequest C) :
    Inv { s with
      slot := some (makeState ⟨(s.sets, request.fields), request.session⟩)
      sets := s.sets + 1
      history := .set s.sets :: s.history } where
  clock := h.clock
  fresh n hn := h.fresh n (Nat.le_of_succ_le hn)
  below n hn := by
    rcases List.mem_cons.mp hn with hn | hn
    · rw [Event.set.injEq] at hn
      exact hn ▸ Nat.lt_succ_self _
    · exact Nat.lt_succ_of_lt (h.below n hn)
  slotBelow p hp := by
    rw [Option.some.injEq] at hp
    subst hp
    exact Nat.lt_succ_self _
  takenBelow p hp := Nat.lt_succ_of_lt (h.takenBelow p hp)
  slot p hp := by
    rw [Option.some.injEq] at hp
    subst hp
    obtain ⟨htimes, hseen⟩ := h.fresh s.sets (Nat.le_refl _)
    refine ⟨?_, ?_, by simp [makeState], ?_, ?_⟩
    · simp [makeState, serial, htimes]
    · simp [makeState, serial, hseen]
    · simp [makeState, serial, htimes]
    · intro hsub
      have := sublist_of_cons_ne (by simp) hsub
      exact absurd (h.below _ (this.subset (by simp [makeState, serial]))) (Nat.lt_irrefl _)
  taken i p hp hlatest := by
    obtain ⟨hattempts, hready, hseen⟩ := h.taken i p hp hlatest
    exact ⟨hattempts, hready, hseen⟩
  timed n := by
    obtain ⟨hspaced, hbounded, hdelayed⟩ := h.timed n
    exact ⟨hspaced, hbounded, hdelayed⟩
  uncleared n t hsub := h.uncleared n t (sublist_of_cons_ne (by simp) hsub)

theorem Inv.clear (h : Inv s) :
    Inv { s with slot := none, history := .cleared :: s.history } where
  clock := h.clock
  fresh := h.fresh
  below n hn := h.below n (by simpa using hn)
  slotBelow p hp := by simp at hp
  takenBelow := h.takenBelow
  slot p hp := by simp at hp
  taken i p hp hlatest := by
    obtain ⟨hattempts, hready, hseen⟩ := h.taken i p hp hlatest
    exact ⟨hattempts, hready, hseen⟩
  timed n := by
    obtain ⟨hspaced, hbounded, hdelayed⟩ := h.timed n
    exact ⟨hspaced, hbounded, hdelayed⟩
  uncleared n t hsub := h.uncleared n t (sublist_of_cons_ne (by simp) hsub)

/-- Time passes. -/
theorem Inv.tick (h : Inv s) {now : ℕ} (hnow : s.clock ≤ now) : Inv { s with clock := now } :=
  { h with clock := fun n t ht => Nat.le_trans (h.clock n t ht) hnow }

theorem Inv.dropSlot (h : Inv s) : Inv { s with slot := none } :=
  { h with
    slotBelow := fun p hp => by simp at hp
    slot := fun p hp => by simp at hp }

/-- Seeing the session ready once more changes nothing. -/
theorem Inv.seenAgain (h : Inv s) {p : PendingApplyState (ℕ × C)} (hslot : s.slot = some p)
    (hready : p.readySince.isSome) (now : ℕ) :
    Inv { s with history := .seenReady (serial p) now :: s.history } := by
  have hsame : ∀ n, firstSeenReady n (.seenReady (serial p) now :: s.history) =
      firstSeenReady n s.history := by
    intro n
    rw [firstSeenReady_seenReady]
    by_cases hn : serial p = n
    · subst hn
      rw [(h.slot p hslot).ready, Option.isSome_iff_exists] at hready
      obtain ⟨t₀, ht₀⟩ := hready
      simp [ht₀]
    · rw [if_neg hn]
  refine { h with fresh := ?_, below := ?_, slot := ?_, taken := ?_, timed := ?_, uncleared := ?_ }
  · intro n hn
    rw [hsame]
    exact h.fresh n hn
  · intro n hn
    exact h.below n (by simpa using hn)
  · intro q hq
    obtain ⟨hattempts, hready, hinitial, hretry, hcurrent⟩ := h.slot q hq
    exact ⟨hattempts, by rw [hsame]; exact hready, hinitial, hretry,
      fun hsub => hcurrent (sublist_of_cons_ne (by simp) hsub)⟩
  · intro i q hq hlatest
    obtain ⟨hattempts, hready, hseen⟩ := h.taken i q hq hlatest
    exact ⟨hattempts, by rw [hsame]; exact hready, hseen⟩
  · intro n
    obtain ⟨hspaced, hbounded, hdelayed⟩ := h.timed n
    exact ⟨hspaced, hbounded, by rw [hsame]; exact hdelayed⟩
  · intro n t hsub
    exact h.uncleared n t (sublist_of_cons_ne (by simp) hsub)

/-- The delay begins when the session is first seen ready. -/
theorem Inv.delayStarted (h : Inv s) {p : PendingApplyState (ℕ × C)} (hslot : s.slot = some p)
    (hready : p.readySince = none) (now : ℕ) :
    Inv { s with
      slot := some { p with
        readySince := some now
        nextAttempt := now + deferredApplyInitialDelay }
      history := .seenReady (serial p) now :: s.history } := by
  have hwaits := h.slot p hslot
  have hnever : firstSeenReady (serial p) s.history = none := by rw [← hwaits.ready, hready]
  have hnone : times (serial p) s.history = [] := by
    rw [List.eq_nil_iff_forall_not_mem]
    intro t ht
    obtain ⟨t₀, ht₀, -⟩ := (h.timed (serial p)).delayed t ht
    simp [hnever] at ht₀
  have hother : ∀ n, serial p ≠ n →
      firstSeenReady n (.seenReady (serial p) now :: s.history) = firstSeenReady n s.history := by
    intro n hn
    rw [firstSeenReady_seenReady, if_neg hn]
  refine { h with
    fresh := ?_, below := ?_, slotBelow := ?_, slot := ?_, taken := ?_, timed := ?_,
    uncleared := ?_ }
  · intro n hn
    have hlt := h.slotBelow p hslot
    dsimp only at hn ⊢
    rw [hother n (by omega)]
    exact h.fresh n hn
  · intro n hn
    exact h.below n (by simpa using hn)
  · intro q hq
    rw [Option.some.injEq] at hq
    subst hq
    exact h.slotBelow p hslot
  · intro q hq
    rw [Option.some.injEq] at hq
    subst hq
    refine ⟨hwaits.attempts, ?_, ?_, ?_, ?_⟩
    · change some now = firstSeenReady (serial p) (.seenReady (serial p) now :: s.history)
      rw [firstSeenReady_seenReady, if_pos rfl, hnever, Option.getD_none]
    · intro t₀ ht₀
      rw [Option.some.injEq] at ht₀
      exact Nat.le_of_eq (by rw [ht₀])
    · intro t ht
      have : t ∈ (times (serial p) s.history).head? := ht
      simp [hnone] at this
    · intro hsub
      exact hwaits.current (sublist_of_cons_ne (by simp) hsub)
  · intro i q hq hlatest
    obtain ⟨hattempts, hq, hseen⟩ := h.taken i q hq hlatest
    by_cases hserial : serial p = serial q
    · rw [hq, ← hserial, hnever] at hseen
      simp at hseen
    · exact ⟨hattempts, by rw [hother _ hserial]; exact hq, hseen⟩
  · intro n
    obtain ⟨hspaced, hbounded, hdelayed⟩ := h.timed n
    refine ⟨hspaced, hbounded, ?_⟩
    intro t ht
    by_cases hserial : serial p = n
    · subst hserial
      rw [times_seenReady, hnone] at ht
      simp at ht
    · rw [hother n hserial]
      exact hdelayed t ht
  · intro n t hsub
    exact h.uncleared n t (sublist_of_cons_ne (by simp) hsub)

theorem spaced_cons {t : ℕ} {ts : List ℕ} (h : Spaced ts)
    (hhead : ∀ t' ∈ ts.head?, t' + retryDelay ts.length ≤ t) : Spaced (t :: ts) := by
  cases ts with
  | nil => trivial
  | cons t' ts => exact ⟨hhead t' rfl, h⟩

/-- Handing the request out, with its delay over. -/
theorem Inv.deliver (h : Inv s) {p : PendingApplyState (ℕ × C)} (hslot : s.slot = some p)
    (hready : p.readySince.isSome) (hnow : p.nextAttempt ≤ s.clock)
    (hattempts : p.attempts < maxDeferredApplyAttempts) :
    Inv { s with
      slot := none
      deliveries := s.deliveries ++ [p]
      history := .delivered (serial p) s.clock :: s.history } := by
  have hwaits := h.slot p hslot
  have hother : ∀ n, serial p ≠ n →
      times n (.delivered (serial p) s.clock :: s.history) = times n s.history := by
    intro n hn
    rw [times_delivered, if_neg hn]
  have hself : times (serial p) (.delivered (serial p) s.clock :: s.history) =
      s.clock :: times (serial p) s.history := by
    rw [times_delivered, if_pos rfl]
  have hbelow := h.slotBelow p hslot
  refine { h with
    clock := ?_, fresh := ?_, below := ?_, slotBelow := ?_, takenBelow := ?_, slot := ?_,
    taken := ?_, timed := ?_, uncleared := ?_ }
  · intro n t ht
    by_cases hn : serial p = n
    · subst hn
      rw [hself] at ht
      rcases List.mem_cons.mp ht with rfl | ht
      · exact Nat.le_refl _
      · exact h.clock _ t ht
    · rw [hother n hn] at ht
      exact h.clock n t ht
  · intro n hn
    dsimp only at hn ⊢
    rw [hother n (by omega)]
    exact h.fresh n hn
  · intro n hn
    exact h.below n (by simpa using hn)
  · intro q hq
    simp at hq
  · intro q hq
    rcases List.mem_append.mp hq with hq | hq
    · exact h.takenBelow q hq
    · rw [List.mem_singleton] at hq
      exact hq ▸ hbelow
  · intro q hq
    simp at hq
  · intro i q hq hlatest
    dsimp only at hq hlatest
    by_cases hi : i < s.deliveries.length
    · rw [List.getElem?_append_left hi] at hq
      rw [List.drop_append_of_le_length (by omega)] at hlatest
      have hne : serial p ≠ serial q := hlatest p (by simp)
      obtain ⟨hcount, hfirst, hseen⟩ :=
        h.taken i q hq fun other hmem => hlatest other (List.mem_append_left _ hmem)
      exact ⟨by rw [hother _ hne]; exact hcount, hfirst, hseen⟩
    · rw [List.getElem?_append_right (by omega)] at hq
      have hqp : q = p := by
        rw [List.getElem?_singleton] at hq
        split at hq
        · exact (Option.some.inj hq).symm
        · cases hq
      subst hqp
      refine ⟨?_, hwaits.ready, hready⟩
      rw [hself, List.length_cons, hwaits.attempts]
  · intro n
    obtain ⟨hspaced, hbounded, hdelayed⟩ := h.timed n
    by_cases hn : serial p = n
    · subst hn
      refine ⟨?_, ?_, ?_⟩
      · rw [hself]
        refine spaced_cons hspaced fun t ht => ?_
        have := hwaits.retry t ht
        rw [hwaits.attempts] at this
        omega
      · rw [hself, List.length_cons, ← hwaits.attempts]
        omega
      · intro t ht
        rw [hself] at ht
        rw [firstSeenReady_delivered]
        rcases List.mem_cons.mp ht with rfl | ht
        · obtain ⟨t₀, ht₀⟩ := Option.isSome_iff_exists.mp hready
          refine ⟨t₀, by rw [← hwaits.ready, ht₀], ?_⟩
          have := hwaits.initial t₀ ht₀
          omega
        · exact hdelayed t ht
    · exact ⟨by rw [hother n hn]; exact hspaced, by rw [hother n hn]; exact hbounded,
        by rw [hother n hn]; exact hdelayed⟩
  · intro n t hsub
    by_cases heq : Event.delivered n t = .delivered (serial p) s.clock
    · rw [Event.delivered.injEq] at heq
      rw [heq.1, heq.2] at hsub
      exact hwaits.current (sublist_of_cons hsub)
    · exact h.uncleared n t (sublist_of_cons_ne heq hsub)

/-- What `take_ready` can do: nothing, start the delay, give a request up, or hand it out. -/
theorem takeReady_cases (slot : Option (PendingApplyState C)) (sessionReady : Bool) (now : ℕ) :
    (∃ status, takeReady slot sessionReady now = ((status, none), slot) ∧
        (sessionReady = true → ∀ p, slot = some p → p.readySince.isSome)) ∨
      ∃ p, slot = some p ∧ sessionReady = true ∧
        (p.readySince = none ∧
            takeReady slot sessionReady now = ((.delayStarted, none), some { p with
              readySince := some now
              nextAttempt := now + deferredApplyInitialDelay }) ∨
          p.readySince.isSome ∧
            takeReady slot sessionReady now = ((.droppedMaxAttempts, none), none) ∨
          p.readySince.isSome ∧ p.nextAttempt ≤ now ∧ p.attempts < maxDeferredApplyAttempts ∧
            takeReady slot sessionReady now = ((.ready, some p), none)) := by
  cases slot with
  | none => exact Or.inl ⟨.noPending, rfl, by simp⟩
  | some p =>
      cases sessionReady with
      | false => exact Or.inl ⟨.sessionNotReady, rfl, by simp⟩
      | true =>
          cases hready : p.readySince with
          | none => exact Or.inr ⟨p, rfl, rfl, Or.inl ⟨hready, by simp [takeReady, hready]⟩⟩
          | some t₀ =>
              by_cases hnow : now < p.nextAttempt
              · refine Or.inl ⟨.delayPending, by simp [takeReady, hready, hnow], ?_⟩
                intro _ q hq
                rw [← Option.some.inj hq, hready]
                rfl
              · by_cases hattempts : maxDeferredApplyAttempts ≤ p.attempts
                · refine Or.inr ⟨p, rfl, rfl, Or.inr (Or.inl ⟨by rw [hready]; rfl, ?_⟩)⟩
                  simp [takeReady, hready, hnow, hattempts]
                · refine Or.inr ⟨p, rfl, rfl, Or.inr (Or.inr ⟨by rw [hready]; rfl, by omega,
                    by omega, ?_⟩)⟩
                  simp [takeReady, hready, hnow, hattempts]

theorem Inv.takeReady (h : Inv s) {sessionReady : Bool} {now : ℕ}
    (hstep : step s (.takeReady sessionReady now) = some s') : Inv s' := by
  simp only [step] at hstep
  obtain ⟨hnow, rfl⟩ := guarded_eq_some.mp hstep
  have htick := h.tick hnow
  rcases takeReady_cases s.slot sessionReady now with
    ⟨status, htake, hagain⟩ | ⟨p, hslot, rfl, hcases⟩
  · rw [htake]
    cases sessionReady with
    | false => simpa [takeEvents] using htick
    | true =>
        cases hslot : s.slot with
        | none => simpa [takeEvents, hslot] using htick
        | some p =>
            have := htick.seenAgain (p := p) hslot (hagain rfl p hslot) now
            simpa [takeEvents, hslot] using this
  · rcases hcases with ⟨hready, htake⟩ | ⟨hready, htake⟩ | ⟨hready, hdue, hattempts, htake⟩
    · have := htick.delayStarted (p := p) hslot hready now
      rw [htake]
      simpa [takeEvents, hslot] using this
    · have := (htick.seenAgain (p := p) hslot hready now).dropSlot
      rw [htake]
      simpa [takeEvents, hslot] using this
    · have := (htick.seenAgain (p := p) hslot hready now).deliver (p := p) hslot hready hdue
        hattempts
      rw [htake]
      simpa [takeEvents, hslot] using this

/-- Putting the newest copy back, with no clear since it was set. -/
theorem Inv.reschedule (h : Inv s) {delivery now later : ℕ}
    (horderly : Orderly s (.reschedule delivery now later))
    (hstep : step s (.reschedule delivery now later) = some s') : Inv s' := by
  simp only [step] at hstep
  cases hdelivery : s.deliveries[delivery]? with
  | none => simp [hdelivery] at hstep
  | some pending =>
      rw [hdelivery] at hstep
      obtain ⟨⟨hnow, hlater⟩, rfl⟩ := guarded_eq_some.mp hstep
      have htick := h.tick (Nat.le_trans hnow hlater)
      cases hslot : s.slot with
      | some newer =>
          rw [reschedule_some, ← hslot]
          exact htick
      | none =>
          rw [reschedule_none]
          split
          · rw [← hslot]
            exact htick
          · case isFalse hattempts =>
              obtain ⟨hlatest, hcurrent⟩ := horderly pending hdelivery (by rw [hslot]; rfl)
                (by omega)
              obtain ⟨hcount, hready, hseen⟩ := h.taken delivery pending hdelivery hlatest
              obtain ⟨t₀, ht₀⟩ := Option.isSome_iff_exists.mp hseen
              have hmem : pending ∈ s.deliveries := List.mem_of_getElem? hdelivery
              refine { htick with slotBelow := ?_, slot := ?_ }
              · intro q hq
                rw [← Option.some.inj hq]
                exact h.takenBelow pending hmem
              · intro q hq
                rw [← Option.some.inj hq]
                have hdelay : ∀ t ∈ times (serial pending) s.history, t ≤ now :=
                  fun t ht => Nat.le_trans (h.clock _ t ht) hnow
                refine ⟨hcount, ?_, ?_, ?_, hcurrent⟩
                · rw [ht₀, Option.getD_some]
                  exact ht₀ ▸ hready
                · intro t ht
                  rw [ht₀, Option.getD_some, Option.some.injEq] at ht
                  subst ht
                  -- the request was handed out before, so its initial delay is over
                  obtain ⟨t₁, ht₁⟩ := List.exists_mem_of_length_pos
                    (l := times (serial pending) s.history) (by omega)
                  obtain ⟨t₀', ht₀', hle⟩ := (h.timed (serial pending)).delayed t₁ ht₁
                  rw [← hready, ht₀, Option.some.injEq] at ht₀'
                  have := hdelay t₁ ht₁
                  dsimp only
                  omega
                · intro t ht
                  have := hdelay t (List.mem_of_mem_head? ht)
                  dsimp only
                  omega

theorem Inv.step (h : Inv s) {call : Call C} (horderly : Orderly s call)
    (hstep : step s call = some s') : Inv s' := by
  cases call with
  | setPending request =>
      rw [← Option.some.inj hstep]
      exact h.setPending request
  | takeReady sessionReady now => exact h.takeReady hstep
  | reschedule delivery now later => exact h.reschedule horderly hstep
  | clear =>
      rw [← Option.some.inj hstep]
      exact h.clear

/-- **Runs of orderly calls.**  A put-back never replaces what waits; nothing set before a
clear is handed out behind it; a request is handed out at most `kMaxDeferredApplyAttempts`
times, the initial delay after the session was first seen ready, and the retry delays
apart. -/
theorem deferral_run {calls : List (Call C)} (hrun : run step .initial calls = some s)
    (horderly : RunMeets step Orderly .initial calls) :
    (∀ delivery now later s', step s (.reschedule delivery now later) = some s' →
        s.slot.isSome → s'.slot = s.slot) ∧
      (∀ n t, ¬ [.delivered n t, .cleared, .set n].Sublist s.history) ∧
      (∀ n, (times n s.history).length ≤ maxDeferredApplyAttempts) ∧
      (∀ n, ∀ t ∈ times n s.history, ∃ t₀, firstSeenReady n s.history = some t₀ ∧
        t₀ + deferredApplyInitialDelay ≤ t) ∧
      ∀ n, Spaced (times n s.history) := by
  have hinv : Inv s := run_invariant_of_meets (fun s call s' h horderly hstep =>
    h.step horderly hstep) inv_initial horderly hrun
  refine ⟨?_, hinv.uncleared, fun n => (hinv.timed n).bounded, fun n => (hinv.timed n).delayed,
    fun n => (hinv.timed n).spaced⟩
  intro delivery now later s' hstep hsome
  obtain ⟨newer, hslot⟩ := Option.isSome_iff_exists.mp hsome
  simp only [DisplayHelper.step] at hstep
  split at hstep
  · cases hstep
  · obtain ⟨-, rfl⟩ := guarded_eq_some.mp hstep
    rw [hslot]
    exact reschedule_some newer _ now later

/-- A request that fails once and is tried again. -/
def retryCalls : List (Call Unit) :=
  [.setPending ⟨(), none⟩, .takeReady true 0, .takeReady true (ms 2000),
    .reschedule 0 (ms 2000) (ms 2000), .takeReady true (ms 2500)]

theorem deferral_run_retryCalls :
    ∃ s, run step .initial retryCalls = some s ∧ times 0 s.history = [ms 2500, ms 2000] ∧
      Spaced (times 0 s.history) := by
  obtain ⟨s, hrun, htimes⟩ := (Option.any_eq_true _ _).mp
    (show (run step .initial retryCalls).any
      (fun s => times 0 s.history == [ms 2500, ms 2000]) = true by decide)
  exact ⟨s, hrun, by simpa using htimes, (deferral_run hrun (by decide)).2.2.2.2 0⟩

/-- The request is out when everything is cleared, comes back behind it and is handed out
again. -/
theorem delivered_after_clear :
    ∃ s, run step (.initial : Session Unit)
        [.setPending ⟨(), none⟩, .takeReady true 0, .takeReady true (ms 2000), .clear,
          .reschedule 0 (ms 2000) (ms 2000), .takeReady true (ms 2500)] = some s ∧
      [.delivered 0 (ms 2500), .cleared, .set 0].Sublist s.history := by
  obtain ⟨s, hrun, hsub⟩ := (Option.any_eq_true _ _).mp
    (show (run step (.initial : Session Unit)
        [.setPending ⟨(), none⟩, .takeReady true 0, .takeReady true (ms 2000), .clear,
          .reschedule 0 (ms 2000) (ms 2000), .takeReady true (ms 2500)]).any
      (fun s => decide ([.delivered 0 (ms 2500), .cleared, .set 0].Sublist s.history)) = true by
      decide)
  exact ⟨s, hrun, of_decide_eq_true hsub⟩

end LuminalShine.DisplayHelper
