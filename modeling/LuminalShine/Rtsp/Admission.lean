import LuminalShine.Lib.Run
import Mathlib

/-!
# Admission of a pending RTSP launch

`src/rtsp.cpp` keeps one pending launch in `launch_event`.  ANNOUNCE requests, the
expiry timer, `/cancel`, the control-stream connect (`session_clear`) and the next
launch race for it.  Two mutexes order them: the timer mutex guards the slot and the
timer generation, the admission mutex of each launch guards its policy and is held by
an ANNOUNCE from its last test until the claim.

A launch is named by the object that represents it; `idOf` gives the identifier some
paths compare instead.  Each critical section is one step; what happens to a popped
launch between two of them is a pending `Discard`.  The latch that keeps browsers out,
`moonlight_launch_begin` and `moonlight_launch_end`, is a counter; every begin is
numbered and the number travels with whatever owes the end.

## Main definitions

* `AdmissionPolicy` — `admission_state_policy_t`.
* `State`, `Label`, `step` — the transition system.
* `Ordered`, `Balanced`, `Single`, `Current` — its invariants.
* `launch_admission` — what every run satisfies.
-/

namespace LuminalShine.Rtsp

open LuminalShine.Lib

/-- `admission_state_policy_t`. -/
structure AdmissionPolicy where
  cancelled : Bool := false
  claimed : Bool := false
  deriving DecidableEq, Repr

namespace AdmissionPolicy

def canStart (p : AdmissionPolicy) : Bool := !p.cancelled && !p.claimed

def markClaimed (p : AdmissionPolicy) : AdmissionPolicy × Bool :=
  if !p.canStart then (p, false) else ({ p with claimed := true }, true)

/-- A timeout loses to an admission that already completed; an explicit cancel
retires both. -/
def retire (explicitCancel : Bool) (p : AdmissionPolicy) : AdmissionPolicy × Bool :=
  if p.claimed && !explicitCancel then (p, false) else ({ p with cancelled := true }, true)

theorem canStart_iff {p : AdmissionPolicy} :
    p.canStart = true ↔ p.cancelled = false ∧ p.claimed = false := by
  simp [canStart]

theorem markClaimed_of_canStart {p : AdmissionPolicy} (h : p.canStart = true) :
    p.markClaimed = ({ p with claimed := true }, true) := by
  simp [markClaimed, h]

@[simp] theorem retire_claimed (explicitCancel : Bool) (p : AdmissionPolicy) :
    (p.retire explicitCancel).1.claimed = p.claimed := by
  simp only [retire]
  split <;> rfl

theorem retire_cancelled {p : AdmissionPolicy} (explicitCancel : Bool)
    (h : p.cancelled = true) : (p.retire explicitCancel).1.cancelled = true := by
  simp only [retire]
  split
  · exact h
  · rfl

/-- A launch that a timeout retires was not claimed, and is cancelled from then on. -/
theorem retire_false {p : AdmissionPolicy} (h : (p.retire false).2 = true) :
    p.claimed = false ∧ (p.retire false).1.cancelled = true := by
  simp only [retire] at h ⊢
  cases hc : p.claimed <;> simp [hc] at h ⊢

end AdmissionPolicy

/-- A popped launch on its way to `reconcile_discarded_launch`.  With rollback the
number of the begin that was made for it comes along. -/
structure Discard where
  launch : ℕ
  explicitCancel : Bool
  rollbackUnclaimed : Option ℕ
  deriving DecidableEq, Repr

/-- Where an ANNOUNCE is.  `admitted` and `started` hold the admission mutex;
`rejected` is about to run its fail guard. -/
inductive Announce where
  | idle
  | checking (launch : ℕ)
  | admitted (launch : ℕ)
  | started (launch : ℕ)
  | rejected (launch : ℕ)
  | completed
  deriving DecidableEq, Repr

/-- What an observer of the launches sees. -/
inductive Event where
  | started (launch : ℕ)
  | claimed (launch : ℕ)
  | rollback (launch : ℕ)
  deriving DecidableEq, Repr

structure State where
  launchEvent : Option ℕ
  policy : ℕ → AdmissionPolicy
  admissionLock : ℕ → Option ℕ
  timerGeneration : ℕ
  timers : List ℕ
  announce : ℕ → Announce
  discards : List Discard
  clearing : List ℕ
  retired : List ℕ
  rollbacks : List (ℕ × ℕ)
  handlers : List ℕ
  launchesInFlight : ℕ
  /-- History: the launches raised, the generation armed for the pending one, the
  begins made, the begins ended, and the observable events. -/
  raised : List ℕ
  raisedAt : ℕ
  begins : ℕ
  ended : List ℕ
  log : List Event

def State.initial : State where
  launchEvent := none
  policy := fun _ => {}
  admissionLock := fun _ => none
  timerGeneration := 0
  timers := []
  announce := fun _ => .idle
  discards := []
  clearing := []
  retired := []
  rollbacks := []
  handlers := []
  launchesInFlight := 0
  raised := []
  raisedAt := 0
  begins := 0
  ended := []
  log := []

/-- The actors' atomic actions.  `timer` fires the handler armed with a generation,
`aborted` when the wait was cancelled in time; the outcome of validation, of
`session::start` and of a rollback attempt is part of the label. -/
inductive Label where
  | raise (launch : ℕ)
  | timer (generation : ℕ) (aborted : Bool)
  | cancel
  | announceEnter (thread launch : ℕ)
  | announceReject (thread : ℕ)
  | announceLock (thread : ℕ)
  | announceAbort (thread : ℕ)
  | announceStart (thread : ℕ)
  | announceClaim (thread : ℕ)
  | announceExtend (thread : ℕ)
  | announceDone (thread : ℕ)
  | announceGuard (thread : ℕ)
  | clearView (launchSessionId : ℕ)
  | clearRetire (launch : ℕ)
  | clearPop (launch : ℕ)
  | reconcile (discard : Discard)
  | rollback (launch token : ℕ) (retry : Bool)
  | handlerBegin
  | handlerEnd (token : ℕ)
  deriving DecidableEq, Repr

namespace State

/-! ## Building blocks -/

/-- `arm_launch_timer_locked`. -/
def armLaunchTimer (s : State) : State :=
  { s with
    timerGeneration := s.timerGeneration + 1
    timers := s.timers ++ [s.timerGeneration + 1] }

/-- Pop the pending launch for `reconcile_discarded_launch`; with rollback the latch
is taken first. -/
def popPending (s : State) (launch : ℕ) (explicitCancel rollbackUnclaimed : Bool) : State :=
  if rollbackUnclaimed then
    { s with
      launchEvent := none
      discards := ⟨launch, explicitCancel, some s.begins⟩ :: s.discards
      launchesInFlight := s.launchesInFlight + 1
      begins := s.begins + 1 }
  else
    { s with
      launchEvent := none
      discards := ⟨launch, explicitCancel, none⟩ :: s.discards }

/-- `moonlight_launch_end` for the begin with this number; the counter never goes
below zero. -/
def launchEnd (s : State) (token : ℕ) : State :=
  { s with launchesInFlight := s.launchesInFlight - 1, ended := token :: s.ended }

/-- The locked part of `cancel_pending_launch`. -/
def cancelPendingLaunch (idOf : ℕ → ℕ) (s : State) (expectedId : Option ℕ)
    (rollbackUnclaimed explicitCancel : Bool) : State :=
  match s.launchEvent with
  | none => s
  | some pending =>
      if expectedId.isSome && expectedId ≠ some (idOf pending) then s
      else
        { s.popPending pending explicitCancel rollbackUnclaimed with
          timerGeneration := s.timerGeneration + 1 }

/-- `reconcile_discarded_launch` under the admission mutex: retire, and either end
the begin, schedule the rollback that inherits it, or be done. -/
def reconcile (s : State) (d : Discard) : State :=
  let r := (s.policy d.launch).retire d.explicitCancel
  let s' := { s with
    policy := Function.update s.policy d.launch r.1
    discards := s.discards.erase d }
  match d.rollbackUnclaimed with
  | none => s'
  | some token =>
      if r.2 then
        { s' with
          rollbacks := (d.launch, token) :: s'.rollbacks
          log := s'.log ++ [.rollback d.launch] }
      else s'.launchEnd token

end State

/-- `idOf` is the `id` field of a launch; distinct launches may share it. -/
def step (idOf : ℕ → ℕ) (s : State) : Label → Option State
  | .raise launch =>
      if launch ∈ s.raised then none
      else match s.launchEvent with
        | some _ => some s
        | none => some
            { s.armLaunchTimer with
              launchEvent := some launch
              raised := launch :: s.raised
              raisedAt := s.timerGeneration + 1 }
  | .timer generation aborted =>
      if generation ∈ s.timers then
        let s' := { s with timers := s.timers.erase generation }
        if !aborted && generation = s.timerGeneration then
          match s.launchEvent with
          | none => some s'
          | some pending => some (s'.popPending pending false true)
        else some s'
      else none
  | .cancel => some (s.cancelPendingLaunch idOf none false true)
  | .announceEnter thread launch =>
      if s.announce thread = .idle ∧ launch ∈ s.raised ∧ s.admissionLock launch = none then
        some { s with
          announce := Function.update s.announce thread
            (if (s.policy launch).canStart then .checking launch else .rejected launch) }
      else none
  | .announceReject thread =>
      match s.announce thread with
      | .checking launch =>
          some { s with announce := Function.update s.announce thread (.rejected launch) }
      | _ => none
  | .announceLock thread =>
      match s.announce thread with
      | .checking launch =>
          if s.admissionLock launch = none then
            if (s.policy launch).canStart then
              some { s with
                announce := Function.update s.announce thread (.admitted launch)
                admissionLock := Function.update s.admissionLock launch (some thread) }
            else some { s with announce := Function.update s.announce thread (.rejected launch) }
          else none
      | _ => none
  | .announceAbort thread =>
      match s.announce thread with
      | .admitted launch =>
          some { s with
            announce := Function.update s.announce thread (.rejected launch)
            admissionLock := Function.update s.admissionLock launch none }
      | _ => none
  | .announceStart thread =>
      match s.announce thread with
      | .admitted launch =>
          some { s with
            announce := Function.update s.announce thread (.started launch)
            log := s.log ++ [.started launch] }
      | _ => none
  | .announceClaim thread =>
      match s.announce thread with
      | .started launch =>
          let r := (s.policy launch).markClaimed
          let s' := { s with
            policy := Function.update s.policy launch r.1
            admissionLock := Function.update s.admissionLock launch none }
          if r.2 then
            some { s' with
              announce := Function.update s.announce thread .completed
              log := s.log ++ [.claimed launch] }
          else some { s' with announce := Function.update s.announce thread (.rejected launch) }
      | _ => none
  | .announceExtend thread =>
      match s.announce thread with
      | .completed => some s.armLaunchTimer
      | _ => none
  | .announceDone thread =>
      match s.announce thread with
      | .completed => some { s with announce := Function.update s.announce thread .idle }
      | _ => none
  | .announceGuard thread =>
      match s.announce thread with
      | .rejected launch =>
          some ({ s with announce := Function.update s.announce thread .idle }.cancelPendingLaunch
            idOf (some (idOf launch)) true false)
      | _ => none
  | .clearView launchSessionId =>
      match s.launchEvent with
      | none => some s
      | some pending =>
          if idOf pending ≠ launchSessionId then some s
          else some { s with clearing := pending :: s.clearing }
  | .clearRetire launch =>
      if launch ∈ s.clearing ∧ s.admissionLock launch = none then
        some { s with
          policy := Function.update s.policy launch ((s.policy launch).retire true).1
          clearing := s.clearing.erase launch
          retired := launch :: s.retired }
      else none
  | .clearPop launch =>
      if launch ∈ s.retired then
        let s' := { s with retired := s.retired.erase launch }
        if s.launchEvent = some launch then
          some { s' with launchEvent := none, timerGeneration := s.timerGeneration + 1 }
        else some s'
      else none
  | .reconcile discard =>
      if discard ∈ s.discards ∧ s.admissionLock discard.launch = none then
        some (s.reconcile discard)
      else none
  | .rollback launch token retry =>
      if (launch, token) ∈ s.rollbacks then
        if retry then some s
        else some ({ s with rollbacks := s.rollbacks.erase (launch, token) }.launchEnd token)
      else none
  | .handlerBegin =>
      some { s with
        handlers := s.begins :: s.handlers
        launchesInFlight := s.launchesInFlight + 1
        begins := s.begins + 1 }
  | .handlerEnd token =>
      if token ∈ s.handlers then
        some ({ s with handlers := s.handlers.erase token }.launchEnd token)
      else none

/-! ## A launch is in one place -/

def rolledBack : Event → Option ℕ
  | .rollback launch => some launch
  | _ => none

/-- The launches that are pending, popped, or rolled back. -/
def State.places (s : State) : List ℕ :=
  s.launchEvent.toList ++ s.discards.map Discard.launch ++ s.log.filterMap rolledBack

/-- No launch is in two places, and only raised launches are in any. -/
structure Single (s : State) : Prop where
  nodup : s.places.Nodup
  raised : ∀ launch ∈ s.places, launch ∈ s.raised

namespace Single

variable {s s' : State}

theorem of_same (h : Single s) (hplaces : s'.places = s.places) (hraised : s'.raised = s.raised) :
    Single s' :=
  ⟨hplaces ▸ h.nodup, by rw [hplaces, hraised]; exact h.raised⟩

/-- A launch that leaves its place for another one, or for good. -/
theorem of_perm_cons (h : Single s) (dropped : List ℕ)
    (hperm : s.places.Perm (dropped ++ s'.places)) (hraised : s'.raised = s.raised) :
    Single s' where
  nodup := (List.nodup_append.mp (hperm.nodup_iff.mp h.nodup)).2.1
  raised := by
    intro launch hl
    rw [hraised]
    exact h.raised launch (hperm.mem_iff.mpr (List.mem_append_right _ hl))

theorem popPending (h : Single s) {launch : ℕ} (hl : s.launchEvent = some launch)
    (explicitCancel rollbackUnclaimed : Bool) :
    Single (s.popPending launch explicitCancel rollbackUnclaimed) := by
  cases rollbackUnclaimed <;>
    exact h.of_same (by simp [State.places, State.popPending, hl]) rfl

theorem cancelPendingLaunch (h : Single s) (idOf : ℕ → ℕ) (expectedId : Option ℕ)
    (rollbackUnclaimed explicitCancel : Bool) :
    Single (s.cancelPendingLaunch idOf expectedId rollbackUnclaimed explicitCancel) := by
  simp only [State.cancelPendingLaunch]
  split
  · exact h
  · rename_i pending hpending
    split
    · exact h
    · exact (h.popPending hpending explicitCancel rollbackUnclaimed).of_same rfl rfl

theorem discards_perm {d : Discard} {ds : List Discard} (hd : d ∈ ds) :
    (ds.map Discard.launch).Perm (d.launch :: (ds.erase d).map Discard.launch) :=
  (List.perm_cons_erase hd).map Discard.launch

theorem reconcile (h : Single s) {d : Discard} (hd : d ∈ s.discards) :
    Single (s.reconcile d) := by
  have hperm := discards_perm hd
  have hdrop : s.places.Perm ([d.launch] ++ (s.launchEvent.toList
      ++ (s.discards.erase d).map Discard.launch ++ s.log.filterMap rolledBack)) := by
    refine ((hperm.append_left _).append_right _).trans ?_
    simp only [List.append_assoc, List.cons_append, List.nil_append]
    exact List.perm_middle
  simp only [State.reconcile]
  cases hr : d.rollbackUnclaimed with
  | none => exact h.of_perm_cons _ hdrop rfl
  | some token =>
      dsimp only
      split
      · refine h.of_perm_cons [] (hdrop.trans ?_) rfl
        simp only [State.places, List.filterMap_append, List.filterMap_cons, rolledBack,
          List.filterMap_nil, List.nil_append, List.singleton_append, ← List.append_assoc]
        exact (List.perm_append_singleton _ _).symm
      · exact h.of_perm_cons _ hdrop rfl

theorem raise (h : Single s) {launch : ℕ} (hfresh : launch ∉ s.raised)
    (hempty : s.launchEvent = none) :
    Single { s.armLaunchTimer with
      launchEvent := some launch
      raised := launch :: s.raised
      raisedAt := s.timerGeneration + 1 } where
  nodup := by
    have hplaces := h.nodup
    simp only [State.places, hempty, Option.toList_none, List.nil_append] at hplaces
    refine List.nodup_cons.mpr ⟨fun hmem => hfresh (h.raised launch ?_), hplaces⟩
    simpa [State.places, State.armLaunchTimer, hempty] using hmem
  raised := by
    intro x hx
    rcases List.mem_cons.mp hx with rfl | hx
    · exact List.mem_cons_self
    · refine List.mem_cons_of_mem _ (h.raised x ?_)
      simpa [State.places, State.armLaunchTimer, hempty] using hx

end Single

/-! ## Every begin has one end -/

/-- The begins that still owe an end, by who carries them. -/
def State.carried (s : State) : List ℕ :=
  s.handlers ++ s.discards.filterMap Discard.rollbackUnclaimed ++ s.rollbacks.map Prod.snd

/-- Every begin has ended once or is carried once; the latch counts the latter. -/
structure Balanced (s : State) : Prop where
  matched : (s.ended ++ s.carried).Perm (List.range s.begins)
  counted : s.launchesInFlight = s.carried.length

namespace Balanced

variable {s s' : State}

theorem of_same (h : Balanced s) (hcarried : s'.carried = s.carried) (hended : s'.ended = s.ended)
    (hbegins : s'.begins = s.begins) (hcount : s'.launchesInFlight = s.launchesInFlight) :
    Balanced s' :=
  ⟨by rw [hcarried, hended, hbegins]; exact h.matched, by rw [hcarried, hcount]; exact h.counted⟩

/-- The carrier may change as long as the begin is carried on. -/
theorem of_perm (h : Balanced s) (hcarried : s'.carried.Perm s.carried)
    (hended : s'.ended = s.ended) (hbegins : s'.begins = s.begins)
    (hcount : s'.launchesInFlight = s.launchesInFlight) : Balanced s' where
  matched := by
    rw [hended, hbegins]
    exact (hcarried.append_left _).trans h.matched
  counted := by rw [hcount, hcarried.length_eq, h.counted]

/-- A begin hands its number to a carrier. -/
theorem of_begin (h : Balanced s) (hcarried : s'.carried.Perm (s.begins :: s.carried))
    (hended : s'.ended = s.ended) (hbegins : s'.begins = s.begins + 1)
    (hcount : s'.launchesInFlight = s.launchesInFlight + 1) : Balanced s' where
  matched := by
    rw [hended, hbegins, List.range_succ]
    refine (hcarried.append_left _).trans (List.perm_middle.trans ?_)
    exact ((h.matched.cons s.begins).trans (List.perm_append_singleton _ _).symm)
  counted := by rw [hcount, hcarried.length_eq, List.length_cons, h.counted]

/-- An end takes its number from the carrier. -/
theorem of_end (h : Balanced s) {token : ℕ} (hcarried : s.carried.Perm (token :: s'.carried))
    (hended : s'.ended = token :: s.ended) (hbegins : s'.begins = s.begins)
    (hcount : s'.launchesInFlight = s.launchesInFlight - 1) : Balanced s' where
  matched := by
    rw [hended, hbegins, List.cons_append]
    exact (List.perm_middle.symm.trans (hcarried.symm.append_left _)).trans h.matched
  counted := by
    have hlength := hcarried.length_eq
    rw [List.length_cons] at hlength
    rw [hcount, h.counted, hlength, Nat.add_sub_cancel]

theorem popPending (h : Balanced s) (launch : ℕ) (explicitCancel rollbackUnclaimed : Bool) :
    Balanced (s.popPending launch explicitCancel rollbackUnclaimed) := by
  cases rollbackUnclaimed with
  | false => exact h.of_same (by simp [State.carried, State.popPending]) rfl rfl rfl
  | true =>
      refine h.of_begin ?_ rfl rfl rfl
      simp only [State.carried, State.popPending, if_true, List.filterMap_cons,
        List.append_assoc, List.cons_append]
      exact List.perm_middle

theorem cancelPendingLaunch (h : Balanced s) (idOf : ℕ → ℕ) (expectedId : Option ℕ)
    (rollbackUnclaimed explicitCancel : Bool) :
    Balanced (s.cancelPendingLaunch idOf expectedId rollbackUnclaimed explicitCancel) := by
  simp only [State.cancelPendingLaunch]
  split
  · exact h
  · rename_i pending hpending
    split
    · exact h
    · exact (h.popPending pending explicitCancel rollbackUnclaimed).of_same rfl rfl rfl rfl

/-- The number a popped launch carried goes to its rollback, or its begin ends. -/
theorem reconcile (h : Balanced s) {d : Discard} (hd : d ∈ s.discards) :
    Balanced (s.reconcile d) := by
  have hperm : (s.discards.filterMap Discard.rollbackUnclaimed).Perm
      ((d :: s.discards.erase d).filterMap Discard.rollbackUnclaimed) :=
    (List.perm_cons_erase hd).filterMap _
  simp only [State.reconcile]
  cases hr : d.rollbackUnclaimed with
  | none =>
      refine h.of_perm ?_ rfl rfl rfl
      rw [List.filterMap_cons_none hr] at hperm
      exact (hperm.symm.append_left _).append_right _
  | some token =>
      rw [List.filterMap_cons_some hr] at hperm
      have hcarried : s.carried.Perm (token :: (s.handlers
          ++ (s.discards.erase d).filterMap Discard.rollbackUnclaimed
          ++ s.rollbacks.map Prod.snd)) := by
        refine ((hperm.append_left _).append_right _).trans ?_
        simp only [List.append_assoc, List.cons_append]
        exact List.perm_middle
      dsimp only
      split
      · refine h.of_perm (List.Perm.trans ?_ hcarried.symm) rfl rfl rfl
        simp only [State.carried, List.map_cons]
        exact List.perm_middle
      · exact h.of_end hcarried rfl rfl rfl

theorem endRollback (h : Balanced s) {launch token : ℕ} (hr : (launch, token) ∈ s.rollbacks) :
    Balanced ({ s with rollbacks := s.rollbacks.erase (launch, token) }.launchEnd token) := by
  refine h.of_end ?_ rfl rfl rfl
  have hperm := (List.perm_cons_erase hr).map Prod.snd
  exact (hperm.append_left _).trans List.perm_middle

theorem endHandler (h : Balanced s) {token : ℕ} (ht : token ∈ s.handlers) :
    Balanced ({ s with handlers := s.handlers.erase token }.launchEnd token) := by
  refine h.of_end ?_ rfl rfl rfl
  exact ((List.perm_cons_erase ht).append_right _).append_right _

end Balanced

/-! ## Order of the events -/

/-- The launch whose admission mutex an ANNOUNCE holds. -/
def Announce.holds : Announce → Option ℕ
  | .admitted launch => some launch
  | .started launch => some launch
  | _ => none

/-- Two events that may come in this order: a launch is claimed at most once, claim
and rollback exclude each other, and no start follows a rollback. -/
def Compatible : Event → Event → Prop
  | .claimed a, .claimed b => a ≠ b
  | .claimed a, .rollback b => a ≠ b
  | .rollback a, .started b => a ≠ b
  | .rollback a, .claimed b => a ≠ b
  | .rollback a, .rollback b => a ≠ b
  | _, _ => True

/-- A holder of the admission mutex keeps its launch startable, the policy remembers
what happened, and the events came in order. -/
structure Ordered (s : State) : Prop where
  locked : ∀ thread launch, (s.announce thread).holds = some launch →
    s.admissionLock launch = some thread
  startable : ∀ thread launch, (s.announce thread).holds = some launch →
    (s.policy launch).canStart = true
  claimed_set : ∀ launch, Event.claimed launch ∈ s.log → (s.policy launch).claimed = true
  rollback_set : ∀ launch, Event.rollback launch ∈ s.log → (s.policy launch).cancelled = true
  compatible : s.log.Pairwise Compatible
  implicit : ∀ d ∈ s.discards, d.rollbackUnclaimed ≠ none → d.explicitCancel = false

namespace Ordered

variable {s s' : State}

theorem of_same (h : Ordered s) (hannounce : s'.announce = s.announce)
    (hlock : s'.admissionLock = s.admissionLock) (hpolicy : s'.policy = s.policy)
    (hlog : s'.log = s.log)
    (hdiscards : ∀ d ∈ s'.discards, d.rollbackUnclaimed ≠ none → d.explicitCancel = false) :
    Ordered s' where
  locked := by rw [hannounce, hlock]; exact h.locked
  startable := by rw [hannounce, hpolicy]; exact h.startable
  claimed_set := by rw [hlog, hpolicy]; exact h.claimed_set
  rollback_set := by rw [hlog, hpolicy]; exact h.rollback_set
  compatible := hlog ▸ h.compatible
  implicit := hdiscards

theorem popPending (h : Ordered s) (launch : ℕ) {explicitCancel rollbackUnclaimed : Bool}
    (himp : rollbackUnclaimed = true → explicitCancel = false) :
    Ordered (s.popPending launch explicitCancel rollbackUnclaimed) := by
  cases rollbackUnclaimed with
  | false =>
      refine h.of_same rfl rfl rfl rfl fun d hd hr => ?_
      rcases List.mem_cons.mp hd with rfl | hd
      · exact absurd rfl hr
      · exact h.implicit d hd hr
  | true =>
      refine h.of_same rfl rfl rfl rfl fun d hd hr => ?_
      rcases List.mem_cons.mp hd with rfl | hd
      · exact himp rfl
      · exact h.implicit d hd hr

theorem cancelPendingLaunch (h : Ordered s) (idOf : ℕ → ℕ) (expectedId : Option ℕ)
    {rollbackUnclaimed explicitCancel : Bool}
    (himp : rollbackUnclaimed = true → explicitCancel = false) :
    Ordered (s.cancelPendingLaunch idOf expectedId rollbackUnclaimed explicitCancel) := by
  simp only [State.cancelPendingLaunch]
  split
  · exact h
  · rename_i pending hpending
    split
    · exact h
    · have hpop := h.popPending pending himp
      exact hpop.of_same rfl rfl rfl rfl hpop.implicit

/-- No ANNOUNCE holds a launch whose admission mutex is free. -/
theorem not_holds_of_free (h : Ordered s) {launch : ℕ} (hfree : s.admissionLock launch = none)
    (thread : ℕ) : (s.announce thread).holds ≠ some launch := by
  intro hholds
  rw [h.locked thread launch hholds] at hfree
  cases hfree

/-- At most one ANNOUNCE holds a launch. -/
theorem holder_unique (h : Ordered s) {a b launch : ℕ}
    (ha : (s.announce a).holds = some launch) (hb : (s.announce b).holds = some launch) :
    a = b :=
  Option.some.inj ((h.locked a launch ha).symm.trans (h.locked b launch hb))

/-- An ANNOUNCE that goes on without a mutex. -/
theorem moveOn (h : Ordered s) (thread : ℕ) {next : Announce} (hnext : next.holds = none) :
    Ordered { s with announce := Function.update s.announce thread next } := by
  have hother : ∀ t launch, (Function.update s.announce thread next t).holds = some launch →
      (s.announce t).holds = some launch := by
    intro t launch ht
    by_cases heq : t = thread
    · subst heq
      rw [Function.update_self, hnext] at ht
      cases ht
    · rwa [Function.update_of_ne heq] at ht
  exact ⟨fun t l ht => h.locked t l (hother t l ht), fun t l ht => h.startable t l (hother t l ht),
    h.claimed_set, h.rollback_set, h.compatible, h.implicit⟩

/-- The last test of an ANNOUNCE succeeds and it keeps the mutex. -/
theorem lock (h : Ordered s) {thread launch : ℕ} (hfree : s.admissionLock launch = none)
    (hcan : (s.policy launch).canStart = true) :
    Ordered { s with
      announce := Function.update s.announce thread (.admitted launch)
      admissionLock := Function.update s.admissionLock launch (some thread) } where
  locked := by
    intro t l ht
    dsimp only at ht ⊢
    by_cases heq : t = thread
    · subst heq
      rw [Function.update_self] at ht
      obtain rfl : launch = l := Option.some.inj ht
      exact Function.update_self _ _ _
    · rw [Function.update_of_ne heq] at ht
      have hne : l ≠ launch := by
        rintro rfl
        exact h.not_holds_of_free hfree t ht
      rw [Function.update_of_ne hne]
      exact h.locked t l ht
  startable := by
    intro t l ht
    dsimp only at ht
    by_cases heq : t = thread
    · subst heq
      rw [Function.update_self] at ht
      obtain rfl : launch = l := Option.some.inj ht
      exact hcan
    · rw [Function.update_of_ne heq] at ht
      exact h.startable t l ht
  claimed_set := h.claimed_set
  rollback_set := h.rollback_set
  compatible := h.compatible
  implicit := h.implicit

/-- An ANNOUNCE gives the mutex back; nobody else had it. -/
theorem unlock (h : Ordered s) {thread launch : ℕ}
    (hholds : (s.announce thread).holds = some launch) (next : Announce)
    (hnext : next.holds = none) :
    Ordered { s with
      announce := Function.update s.announce thread next
      admissionLock := Function.update s.admissionLock launch none } where
  locked := by
    intro t l ht
    dsimp only at ht ⊢
    by_cases heq : t = thread
    · subst heq
      rw [Function.update_self, hnext] at ht
      cases ht
    · rw [Function.update_of_ne heq] at ht
      have hne : l ≠ launch := by
        rintro rfl
        exact heq (h.holder_unique ht hholds)
      rw [Function.update_of_ne hne]
      exact h.locked t l ht
  startable := (h.moveOn thread hnext).startable
  claimed_set := h.claimed_set
  rollback_set := h.rollback_set
  compatible := h.compatible
  implicit := h.implicit

/-- What an ANNOUNCE that holds the mutex knows about the past of its launch. -/
theorem not_logged_of_holds (h : Ordered s) {thread launch : ℕ}
    (hholds : (s.announce thread).holds = some launch) :
    Event.rollback launch ∉ s.log ∧ Event.claimed launch ∉ s.log := by
  obtain ⟨hcancelled, hclaimed⟩ := AdmissionPolicy.canStart_iff.mp (h.startable _ _ hholds)
  constructor
  · intro hmem
    rw [h.rollback_set launch hmem] at hcancelled
    cases hcancelled
  · intro hmem
    rw [h.claimed_set launch hmem] at hclaimed
    cases hclaimed

/-- `session::start` succeeds. -/
theorem start (h : Ordered s) {thread launch : ℕ} (hpc : s.announce thread = .admitted launch) :
    Ordered { s with
      announce := Function.update s.announce thread (.started launch)
      log := s.log ++ [.started launch] } := by
  have hholds : (s.announce thread).holds = some launch := by rw [hpc]; rfl
  have hsame : ∀ t, (Function.update s.announce thread (.started launch) t).holds
      = (s.announce t).holds := by
    intro t
    by_cases heq : t = thread
    · subst heq
      rw [Function.update_self, hholds]
      rfl
    · rw [Function.update_of_ne heq]
  refine ⟨fun t l ht => h.locked t l (hsame t ▸ ht), fun t l ht => h.startable t l (hsame t ▸ ht),
    fun l hl => h.claimed_set l ?_, fun l hl => h.rollback_set l ?_, ?_, h.implicit⟩
  · simpa using hl
  · simpa using hl
  · refine List.pairwise_append.mpr ⟨h.compatible, List.pairwise_singleton _ _, ?_⟩
    intro e he e' he'
    rw [List.mem_singleton.mp he']
    cases e with
    | started l => trivial
    | claimed l => trivial
    | rollback l =>
        rintro rfl
        exact (h.not_logged_of_holds hholds).1 he

/-- `mark_claimed`, still under the mutex. -/
theorem claim (h : Ordered s) {thread launch : ℕ} (hpc : s.announce thread = .started launch) :
    Ordered { s with
      policy := Function.update s.policy launch { s.policy launch with claimed := true }
      admissionLock := Function.update s.admissionLock launch none
      announce := Function.update s.announce thread .completed
      log := s.log ++ [.claimed launch] } := by
  have hholds : (s.announce thread).holds = some launch := by rw [hpc]; rfl
  have hunlock := h.unlock hholds .completed rfl
  obtain ⟨hrollback, hclaimed⟩ := h.not_logged_of_holds hholds
  refine ⟨hunlock.locked, fun t l ht => ?_, fun l hl => ?_, fun l hl => ?_, ?_, h.implicit⟩
  · have hlocked := hunlock.locked t l ht
    have hne : l ≠ launch := by
      rintro rfl
      simp at hlocked
    simp only [Function.update_of_ne hne]
    exact hunlock.startable t l ht
  · by_cases heq : l = launch
    · simp [heq]
    · simp only [Function.update_of_ne heq]
      exact h.claimed_set l (by simpa [heq] using hl)
  · by_cases heq : l = launch
    · subst heq
      exact absurd (by simpa using hl) hrollback
    · simp only [Function.update_of_ne heq]
      exact h.rollback_set l (by simpa using hl)
  · refine List.pairwise_append.mpr ⟨h.compatible, List.pairwise_singleton _ _, ?_⟩
    intro e he e' he'
    rw [List.mem_singleton.mp he']
    cases e with
    | started l => trivial
    | claimed l =>
        rintro rfl
        exact hclaimed he
    | rollback l =>
        rintro rfl
        exact hrollback he

/-- Retiring a launch nobody is admitting. -/
theorem retire (h : Ordered s) {launch : ℕ} (hfree : s.admissionLock launch = none)
    (explicitCancel : Bool) :
    Ordered { s with
      policy := Function.update s.policy launch ((s.policy launch).retire explicitCancel).1 } := by
  refine ⟨h.locked, fun t l ht => ?_, fun l hl => ?_, fun l hl => ?_, h.compatible, h.implicit⟩
  · have hne : l ≠ launch := by
      rintro rfl
      exact h.not_holds_of_free hfree t ht
    simp only [Function.update_of_ne hne]
    exact h.startable t l ht
  · by_cases heq : l = launch
    · subst heq
      simpa using h.claimed_set l hl
    · simp only [Function.update_of_ne heq]
      exact h.claimed_set l hl
  · by_cases heq : l = launch
    · subst heq
      simpa using AdmissionPolicy.retire_cancelled explicitCancel (h.rollback_set l hl)
    · simp only [Function.update_of_ne heq]
      exact h.rollback_set l hl

/-- Scheduling the rollback of a launch that is retired, unclaimed and not rolled
back before. -/
theorem logRollback (h : Ordered s) (launch : ℕ)
    (hcancelled : (s.policy launch).cancelled = true)
    (hclaimed : Event.claimed launch ∉ s.log) (hnew : Event.rollback launch ∉ s.log) :
    Ordered { s with log := s.log ++ [.rollback launch] } := by
  refine ⟨h.locked, h.startable, fun l hl => h.claimed_set l (by simpa using hl), fun l hl => ?_, ?_,
    h.implicit⟩
  · by_cases heq : l = launch
    · exact heq ▸ hcancelled
    · exact h.rollback_set l (by simpa [heq] using hl)
  · refine List.pairwise_append.mpr ⟨h.compatible, List.pairwise_singleton _ _, ?_⟩
    intro e he e' he'
    rw [List.mem_singleton.mp he']
    cases e with
    | started l => trivial
    | claimed l =>
        rintro rfl
        exact hclaimed he
    | rollback l =>
        rintro rfl
        exact hnew he

theorem reconcile (h : Ordered s) (hsingle : Single s) {d : Discard} (hd : d ∈ s.discards)
    (hfree : s.admissionLock d.launch = none) : Ordered (s.reconcile d) := by
  have hretire := h.retire hfree d.explicitCancel
  have himplicit : ∀ x ∈ s.discards.erase d, x.rollbackUnclaimed ≠ none →
      x.explicitCancel = false := fun x hx => h.implicit x (List.mem_of_mem_erase hx)
  simp only [State.reconcile]
  cases hr : d.rollbackUnclaimed with
  | none => exact hretire.of_same rfl rfl rfl rfl himplicit
  | some token =>
      dsimp only
      have hexplicit : d.explicitCancel = false := h.implicit d hd (by simp [hr])
      split
      · rename_i hretired
        rw [hexplicit] at hretired hretire
        obtain ⟨hclaimed, hcancelled⟩ := AdmissionPolicy.retire_false hretired
        have hnotclaimed : Event.claimed d.launch ∉ s.log := by
          intro hmem
          rw [h.claimed_set _ hmem] at hclaimed
          cases hclaimed
        have hnew : Event.rollback d.launch ∉ s.log := by
          intro hmem
          have hdisjoint := (List.nodup_append.mp hsingle.nodup).2.2
          exact hdisjoint d.launch (List.mem_append_right _ (List.mem_map_of_mem hd)) d.launch
            (List.mem_filterMap.mpr ⟨_, hmem, rfl⟩) rfl
        rw [hexplicit]
        have hlog := hretire.logRollback d.launch (by simpa using hcancelled)
          hnotclaimed hnew
        exact hlog.of_same rfl rfl rfl rfl himplicit
      · exact hretire.of_same rfl rfl rfl rfl himplicit

end Ordered

/-! ## Whole runs -/

/-- **The invariant of the pending launch.**  `current`: the pending launch was
raised at a generation the timer has reached. -/
structure Invariant (s : State) : Prop where
  single : Single s
  balanced : Balanced s
  ordered : Ordered s
  current : s.raisedAt ≤ s.timerGeneration

theorem invariant_initial : Invariant State.initial where
  single := ⟨List.nodup_nil, fun _ h => absurd h List.not_mem_nil⟩
  balanced := ⟨List.Perm.refl _, rfl⟩
  ordered := ⟨fun _ _ h => (nomatch h), fun _ _ h => (nomatch h),
    fun _ h => absurd h List.not_mem_nil, fun _ h => absurd h List.not_mem_nil,
    List.Pairwise.nil, fun _ h => absurd h List.not_mem_nil⟩
  current := Nat.le_refl _

namespace Invariant

variable {s s' : State}

theorem popPending (h : Invariant s) {launch : ℕ} (hl : s.launchEvent = some launch)
    {explicitCancel rollbackUnclaimed : Bool}
    (himp : rollbackUnclaimed = true → explicitCancel = false) :
    Invariant (s.popPending launch explicitCancel rollbackUnclaimed) where
  single := h.single.popPending hl explicitCancel rollbackUnclaimed
  balanced := h.balanced.popPending launch explicitCancel rollbackUnclaimed
  ordered := h.ordered.popPending launch himp
  current := by cases rollbackUnclaimed <;> exact h.current

theorem cancelPendingLaunch (h : Invariant s) (idOf : ℕ → ℕ) (expectedId : Option ℕ)
    {rollbackUnclaimed explicitCancel : Bool}
    (himp : rollbackUnclaimed = true → explicitCancel = false) :
    Invariant (s.cancelPendingLaunch idOf expectedId rollbackUnclaimed explicitCancel) where
  single := h.single.cancelPendingLaunch idOf expectedId rollbackUnclaimed explicitCancel
  balanced := h.balanced.cancelPendingLaunch idOf expectedId rollbackUnclaimed explicitCancel
  ordered := h.ordered.cancelPendingLaunch idOf expectedId himp
  current := by
    simp only [State.cancelPendingLaunch]
    split
    · exact h.current
    · split
      · exact h.current
      · cases rollbackUnclaimed <;> exact Nat.le_succ_of_le h.current

/-- A step that touches neither the latch nor the places of a launch. -/
theorem of_ordered (h : Invariant s) (hordered : Ordered s') (hplaces : s'.places = s.places)
    (hraised : s'.raised = s.raised) (hcarried : s'.carried = s.carried)
    (hended : s'.ended = s.ended) (hbegins : s'.begins = s.begins)
    (hcount : s'.launchesInFlight = s.launchesInFlight)
    (hcurrent : s'.raisedAt ≤ s'.timerGeneration) : Invariant s' :=
  ⟨h.single.of_same hplaces hraised, h.balanced.of_same hcarried hended hbegins hcount, hordered,
    hcurrent⟩

end Invariant

/-- Every action of every actor keeps the invariant. -/
theorem step_invariant {idOf : ℕ → ℕ} (s : State) (label : Label) (s' : State) (h : Invariant s)
    (hstep : step idOf s label = some s') : Invariant s' := by
  cases label with
  | raise launch =>
      simp only [step] at hstep
      split at hstep
      · cases hstep
      · split at hstep <;> cases hstep
        · exact h
        · exact ⟨h.single.raise (by assumption) (by assumption),
            h.balanced.of_same rfl rfl rfl rfl,
            h.ordered.of_same rfl rfl rfl rfl h.ordered.implicit, Nat.le_refl _⟩
  | timer generation aborted =>
      simp only [step] at hstep
      have hfired : Invariant { s with timers := s.timers.erase generation } :=
        h.of_ordered (h.ordered.of_same rfl rfl rfl rfl h.ordered.implicit) rfl rfl rfl rfl rfl rfl
          h.current
      split at hstep
      · split at hstep
        · split at hstep <;> cases hstep
          · exact hfired
          · exact hfired.popPending (by assumption) (fun _ => rfl)
        · cases hstep
          exact hfired
      · cases hstep
  | cancel =>
      cases hstep
      exact h.cancelPendingLaunch idOf none (fun hr => Bool.noConfusion hr)
  | announceEnter thread launch =>
      obtain ⟨-, rfl⟩ := guarded_eq_some.mp hstep
      refine h.of_ordered (h.ordered.moveOn thread ?_) rfl rfl rfl rfl rfl rfl h.current
      split <;> rfl
  | announceReject thread =>
      simp only [step] at hstep
      split at hstep <;> cases hstep
      exact h.of_ordered (h.ordered.moveOn thread rfl) rfl rfl rfl rfl rfl rfl h.current
  | announceLock thread =>
      simp only [step] at hstep
      split at hstep
      · split at hstep
        · split at hstep <;> cases hstep
          · exact h.of_ordered (h.ordered.lock (by assumption) (by assumption)) rfl rfl rfl rfl rfl
              rfl h.current
          · exact h.of_ordered (h.ordered.moveOn thread rfl) rfl rfl rfl rfl rfl rfl h.current
        · cases hstep
      · cases hstep
  | announceAbort thread =>
      simp only [step] at hstep
      split at hstep <;> cases hstep
      rename_i launch hpc
      have hholds : (s.announce thread).holds = some launch := by rw [hpc]; rfl
      exact h.of_ordered (h.ordered.unlock hholds _ rfl) rfl rfl rfl rfl rfl rfl h.current
  | announceStart thread =>
      simp only [step] at hstep
      split at hstep <;> cases hstep
      exact h.of_ordered (h.ordered.start (by assumption)) (by simp [State.places, rolledBack]) rfl
        rfl rfl rfl rfl h.current
  | announceClaim thread =>
      simp only [step] at hstep
      split at hstep
      · rename_i launch hpc
        have hholds : (s.announce thread).holds = some launch := by rw [hpc]; rfl
        rw [AdmissionPolicy.markClaimed_of_canStart (h.ordered.startable _ _ hholds)] at hstep
        cases hstep
        exact h.of_ordered (h.ordered.claim hpc) (by simp [State.places, rolledBack]) rfl rfl rfl
          rfl rfl h.current
      · cases hstep
  | announceExtend thread =>
      simp only [step] at hstep
      split at hstep <;> cases hstep
      exact h.of_ordered (h.ordered.of_same rfl rfl rfl rfl h.ordered.implicit) rfl rfl rfl rfl rfl
        rfl (Nat.le_succ_of_le h.current)
  | announceDone thread =>
      simp only [step] at hstep
      split at hstep <;> cases hstep
      exact h.of_ordered (h.ordered.moveOn thread rfl) rfl rfl rfl rfl rfl rfl h.current
  | announceGuard thread =>
      simp only [step] at hstep
      split at hstep <;> cases hstep
      have hidle : Invariant { s with announce := Function.update s.announce thread .idle } :=
        h.of_ordered (h.ordered.moveOn thread rfl) rfl rfl rfl rfl rfl rfl h.current
      exact hidle.cancelPendingLaunch idOf _ (fun _ => rfl)
  | clearView launchSessionId =>
      simp only [step] at hstep
      split at hstep
      · cases hstep
        exact h
      · split at hstep <;> cases hstep
        · exact h
        · exact h.of_ordered (h.ordered.of_same rfl rfl rfl rfl h.ordered.implicit) rfl rfl rfl rfl
            rfl rfl h.current
  | clearRetire launch =>
      obtain ⟨hguard, rfl⟩ := guarded_eq_some.mp hstep
      have hretire := h.ordered.retire hguard.2 true
      exact h.of_ordered (hretire.of_same rfl rfl rfl rfl hretire.implicit) rfl rfl rfl rfl rfl rfl
        h.current
  | clearPop launch =>
      simp only [step] at hstep
      split at hstep
      · split at hstep <;> cases hstep
        · rename_i hevent
          refine ⟨h.single.of_perm_cons [launch] ?_ rfl,
            h.balanced.of_same rfl rfl rfl rfl,
            h.ordered.of_same rfl rfl rfl rfl h.ordered.implicit, Nat.le_succ_of_le h.current⟩
          simp [State.places, hevent]
        · exact h.of_ordered (h.ordered.of_same rfl rfl rfl rfl h.ordered.implicit) rfl rfl rfl rfl
            rfl rfl h.current
      · cases hstep
  | reconcile discard =>
      obtain ⟨hguard, rfl⟩ := guarded_eq_some.mp hstep
      refine ⟨h.single.reconcile hguard.1, h.balanced.reconcile hguard.1,
        h.ordered.reconcile h.single hguard.1 hguard.2, ?_⟩
      unfold State.reconcile
      split
      · exact h.current
      · dsimp only
        split <;> exact h.current
  | rollback launch token retry =>
      simp only [step] at hstep
      split at hstep
      · split at hstep <;> cases hstep
        · exact h
        · exact ⟨h.single.of_same rfl rfl, h.balanced.endRollback (by assumption),
            h.ordered.of_same rfl rfl rfl rfl h.ordered.implicit, h.current⟩
      · cases hstep
  | handlerBegin =>
      cases hstep
      exact ⟨h.single.of_same rfl rfl, h.balanced.of_begin (List.Perm.refl _) rfl rfl rfl,
        h.ordered.of_same rfl rfl rfl rfl h.ordered.implicit, h.current⟩
  | handlerEnd token =>
      obtain ⟨hguard, rfl⟩ := guarded_eq_some.mp hstep
      exact ⟨h.single.of_same rfl rfl, h.balanced.endHandler hguard,
        h.ordered.of_same rfl rfl rfl rfl h.ordered.implicit, h.current⟩

/-! ## What the log says -/

theorem count_claimed_le_one {log : List Event} (h : log.Pairwise Compatible) (launch : ℕ) :
    log.count (.claimed launch) ≤ 1 := by
  induction log with
  | nil => simp
  | cons e log ih =>
      obtain ⟨hhead, htail⟩ := List.pairwise_cons.mp h
      by_cases he : e = .claimed launch
      · subst he
        have hnot : Event.claimed launch ∉ log := fun hmem => hhead _ hmem rfl
        simp [List.count_eq_zero.mpr hnot]
      · rw [List.count_cons_of_ne he]
        exact ih htail

theorem not_claimed_of_rollback {log : List Event} (h : log.Pairwise Compatible) {launch : ℕ}
    (hrollback : Event.rollback launch ∈ log) : Event.claimed launch ∉ log := by
  intro hclaimed
  induction log with
  | nil => cases hrollback
  | cons e log ih =>
      obtain ⟨hhead, htail⟩ := List.pairwise_cons.mp h
      rcases List.mem_cons.mp hrollback with rfl | hrest
      · rcases List.mem_cons.mp hclaimed with hne | hlater
        · cases hne
        · exact hhead _ hlater rfl
      · rcases List.mem_cons.mp hclaimed with rfl | hlater
        · exact hhead _ hrest rfl
        · exact ih htail hrest hlater

/-- A handler armed before the pending launch was raised does nothing. -/
theorem stale_timer {idOf : ℕ → ℕ} {s s' : State} (h : Invariant s) {generation : ℕ}
    {aborted : Bool} (hold : generation < s.raisedAt)
    (hstep : step idOf s (.timer generation aborted) = some s') :
    s' = { s with timers := s.timers.erase generation } := by
  have hne : generation ≠ s.timerGeneration := by
    have := h.current
    omega
  simp only [step] at hstep
  split at hstep
  · split at hstep
    · rename_i hguard
      simp [hne] at hguard
    · exact (Option.some.inj hstep).symm
  · cases hstep

/-- **Admission of a pending launch.**  After every interleaving of ANNOUNCE requests,
timer handlers, cancels, control connects, new launches and rollback attempts: a
launch was claimed at most once; a launch that was rolled back was not claimed; once
its rollback was scheduled no ANNOUNCE started it and it was not rolled back again; a
timer handler older than the pending launch changes nothing but the list of handlers;
and every begin of the browser latch has ended once or is carried by one actor that
still ends it, which is what the latch counts. -/
theorem launch_admission {idOf : ℕ → ℕ} {labels : List Label} {s : State}
    (hrun : run (step idOf) State.initial labels = some s) :
    (∀ launch, s.log.count (.claimed launch) ≤ 1) ∧
      (∀ launch, Event.rollback launch ∈ s.log → Event.claimed launch ∉ s.log) ∧
      (∀ launch before after, s.log = before ++ .rollback launch :: after →
        Event.started launch ∉ after ∧ Event.rollback launch ∉ after) ∧
      (∀ generation aborted s', generation < s.raisedAt →
        step idOf s (.timer generation aborted) = some s' →
        s' = { s with timers := s.timers.erase generation }) ∧
      (s.ended ++ s.carried).Perm (List.range s.begins) ∧
      s.launchesInFlight = s.carried.length := by
  have h : Invariant s := run_invariant step_invariant invariant_initial hrun
  refine ⟨count_claimed_le_one h.ordered.compatible,
    fun launch => not_claimed_of_rollback h.ordered.compatible, fun launch before after hlog => ?_,
    fun _ _ _ => stale_timer h, h.balanced.matched, h.balanced.counted⟩
  have hcompatible := h.ordered.compatible
  rw [hlog] at hcompatible
  have hafter := (List.pairwise_cons.mp (List.pairwise_append.mp hcompatible).2.1).1
  exact ⟨fun hmem => hafter _ hmem rfl, fun hmem => hafter _ hmem rfl⟩

/-- Launch 7 expires while an ANNOUNCE for it is being validated, and launch 8 is
raised after it; the first timer is stale by then. -/
theorem launch_admission_expired :
    let labels := [Label.raise 7, .announceEnter 0 7, .timer 1 false,
      .reconcile ⟨7, false, some 0⟩, .announceLock 0, .announceGuard 0, .raise 8]
    ∃ s, run (step id) State.initial labels = some s ∧ s.log = [.rollback 7] ∧
      s.launchEvent = some 8 ∧ Event.claimed 7 ∉ s.log ∧
      s.launchesInFlight = 1 := by
  intro labels
  refine ⟨_, rfl, rfl, rfl, ?_, ?_⟩
  · exact (@launch_admission id labels _ rfl).2.1 7 (by decide)
  · rfl

end LuminalShine.Rtsp
