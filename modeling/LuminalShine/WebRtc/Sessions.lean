import LuminalShine.Lib.Run
import LuminalShine.Lib.Threads

/-!
# Browser sessions and the media thread

`create_session`, `set_remote_offer`, `close_session`, `shutdown_all_sessions` and the delayed
idle shutdown of `src/webrtc_stream.cpp`, in any number of threads.  Everything that holds
`session_mutex` from beginning to end is one step, except the offer: it starts the media thread
under the lock, while other threads stop it without the lock.  The session of an offer is kept
with the lock.  What a peer, a track or the factory needs to succeed is an input, and so is the
reason why a session is closed.  `submit_audio_frame`, which starts the thread as well, and the
process exit are left out.

## Main definitions

* `Place` — where a thread is outside the lock.
* `State`, `Label`, `step` — the transition system.
* `Meets` — the condition on the steps.

## Main results

* `sessions_consistent` — the counters and the media thread whenever no operation is in progress.
-/

namespace LuminalShine.WebRtc.Sessions

open LuminalShine.Lib

/-! ## The state -/

structure Session where
  id : ℕ
  hasPeer : Bool := false
  attached : Bool := false
  deriving DecidableEq, Repr

/-- The `std::thread` of the media loop; `finished` is not joined yet. -/
inductive MediaThread where
  | none
  | alive
  | finished
  deriving DecidableEq, Repr

/-- `set_remote_offer` under `session_mutex`: before and after it has a peer, and in
`ensure_media_thread` after it has set `webrtc_media_running`. -/
inductive OfferPlace where
  | entered
  | attaching (createdPeer : Bool)
  | clearShutdown
  | startThread
  deriving DecidableEq, Repr

structure Offer where
  session : Session
  place : OfferPlace
  deriving DecidableEq, Repr

/-- Who called `close_session`. -/
inductive Caller where
  | client
  | shutdownAll (ids : List ℕ)
  deriving DecidableEq, Repr

/-- Who called `stop_media_thread`. -/
inductive Stopper where
  | lastClose (caller : Caller)
  | shutdownAll
  deriving DecidableEq, Repr

/-- Where a thread is that does not hold `session_mutex`. -/
inductive Place where
  -- `close_session`
  | releasePeer (hasPeer lastSession : Bool) (caller : Caller)
  | schedule (caller : Caller)
  -- `shutdown_all_sessions`
  | closing (ids : List ℕ)
  -- `stop_media_thread`
  | testRunning (stopper : Stopper)
  | storeShutdown (stopper : Stopper)
  | lockThread (stopper : Stopper)
  | joinThread (stopper : Stopper)
  | clearRunning (stopper : Stopper)
  -- `reset_webrtc_factory`
  | resetFactory
  deriving DecidableEq, Repr

structure State where
  sessions : List Session := []
  nextId : ℕ := 0
  sessionMutex : Option Offer := none
  activeSessions : ℕ := 0
  activePeers : ℕ := 0
  mediaRunning : Bool := false
  mediaShutdown : Bool := false
  mediaThread : MediaThread := .none
  mediaThreadMutex : Bool := false
  factory : Bool := false
  idleShutdownToken : ℕ := 0
  idleTasks : List ℕ := []
  places : List Place := []

def State.initial : State := {}

/-- No operation is in progress. -/
def State.Quiescent (s : State) : Prop := s.places = [] ∧ s.sessionMutex = none

instance (s : State) : Decidable s.Quiescent :=
  inferInstanceAs (Decidable (s.places = [] ∧ s.sessionMutex = none))

/-! ## The steps -/

/-- `close_session` returns. -/
def Caller.resume : Caller → List Place
  | .client => []
  | .shutdownAll ids => [.closing ids]

/-- `stop_media_thread` returns. -/
def Stopper.resume : Stopper → List Place
  | .lastClose caller => [.schedule caller]
  | .shutdownAll => [.resetFactory]

namespace State

/-- The thread at `place` moves on. -/
def goto (s : State) (place : Place) (next : List Place) : State :=
  { s with places := next ++ s.places.erase place }

/-- The critical section of `close_session`. -/
def eraseSession (s : State) (session : Session) : State :=
  { s with
    sessions := s.sessions.erase session
    activeSessions := s.activeSessions - 1 }

/-- What `close_session` has read there. -/
def closed (s : State) (session : Session) (caller : Caller) : Place :=
  .releasePeer session.hasPeer (s.activeSessions = 1) caller

/-- The offer returns and gives the lock back. -/
def endOffer (s : State) (session : Session) : State :=
  { s with sessions := session :: s.sessions, sessionMutex := none }

/-- One step of a thread outside the lock. -/
def advance (s : State) (place : Place) : Option State :=
  match place with
  | .releasePeer hasPeer lastSession caller =>
      let next := if lastSession then [.testRunning (.lastClose caller)] else caller.resume
      some { s.goto place next with activePeers := s.activePeers - hasPeer.toNat }
  | .schedule caller =>
      some { s.goto place caller.resume with
        idleShutdownToken := s.idleShutdownToken + 1
        idleTasks := (s.idleShutdownToken + 1) :: s.idleTasks }
  | .closing (id :: ids) =>
      if s.sessionMutex = none then
        match s.sessions.find? (·.id = id) with
        | none => some (s.goto place [.closing ids])
        | some session =>
            some ((s.eraseSession session).goto place [s.closed session (.shutdownAll ids)])
      else none
  | .closing [] =>
      if s.sessionMutex = none then
        if s.sessions = [] then
          some { s.goto place [.testRunning .shutdownAll] with
            idleShutdownToken := s.idleShutdownToken + 1 }
        else some (s.goto place [])
      else none
  | .testRunning stopper =>
      some (s.goto place (if s.mediaRunning then [.storeShutdown stopper] else stopper.resume))
  | .storeShutdown stopper =>
      some { s.goto place [.lockThread stopper] with mediaShutdown := true }
  | .lockThread stopper =>
      if s.mediaThreadMutex = false then
        some { s.goto place [.joinThread stopper] with mediaThreadMutex := true }
      else none
  | .joinThread stopper =>
      if s.mediaThread ≠ .alive then
        some { s.goto place [.clearRunning stopper] with
          mediaThread := .none
          mediaThreadMutex := false }
      else none
  | .clearRunning stopper =>
      some { s.goto place stopper.resume with mediaRunning := false }
  | .resetFactory => some { s.goto place [] with factory := false }

/-- One step of the offer that holds the lock; `fails` is a codec that is not offered, a peer
that is not created or a track that is not attached. -/
def advanceOffer (s : State) (offer : Offer) (fails : Bool) : Option State :=
  let session := offer.session
  match offer.place with
  | .entered =>
      if fails then some (s.endOffer session)
      else if session.hasPeer then
        some { s with sessionMutex := some ⟨session, .attaching false⟩ }
      else
        some { s with
          factory := true
          activePeers := s.activePeers + 1
          sessionMutex := some ⟨{ session with hasPeer := true }, .attaching true⟩ }
  | .attaching createdPeer =>
      if fails then
        if createdPeer then
          some { s.endOffer { session with hasPeer := false } with
            activePeers := s.activePeers - 1 }
        else some (s.endOffer session)
      else if s.mediaRunning then
        some { s.endOffer { session with attached := true } with factory := true }
      else
        some { s with
          factory := true
          mediaRunning := true
          sessionMutex := some ⟨session, .clearShutdown⟩ }
  | .clearShutdown =>
      some { s with mediaShutdown := false, sessionMutex := some ⟨session, .startThread⟩ }
  -- a thread that is not joined would end the process here
  | .startThread =>
      if s.mediaThreadMutex = false ∧ s.mediaThread = .none then
        some { s.endOffer { session with attached := true } with mediaThread := .alive }
      else none

end State

inductive Label where
  | createSession
  | setRemoteOffer (session : Session)
  | offer (fails : Bool)
  | closeSession (session : Session)
  | shutdownAllSessions
  | idleTask (token : ℕ)
  | threadExit
  | threadFails
  | advance (place : Place)
  deriving DecidableEq, Repr

def step (s : State) : Label → Option State
  | .createSession =>
      if s.sessionMutex = none then
        some { s with
          sessions := ⟨s.nextId, false, false⟩ :: s.sessions
          nextId := s.nextId + 1
          activeSessions := s.activeSessions + 1 }
      else none
  | .setRemoteOffer session =>
      if s.sessionMutex = none ∧ session ∈ s.sessions then
        some { s with
          sessions := s.sessions.erase session
          sessionMutex := some ⟨session, .entered⟩ }
      else none
  | .offer fails =>
      match s.sessionMutex with
      | none => none
      | some offer => s.advanceOffer offer fails
  | .closeSession session =>
      if s.sessionMutex = none ∧ session ∈ s.sessions then
        some { s.eraseSession session with places := s.closed session .client :: s.places }
      else none
  | .shutdownAllSessions =>
      if s.sessionMutex = none then
        some { s with places := .closing (s.sessions.map (·.id)) :: s.places }
      else none
  | .idleTask token =>
      if token ∈ s.idleTasks then
        some { s with
          idleTasks := s.idleTasks.erase token
          places :=
            if token = s.idleShutdownToken ∧ s.activeSessions = 0 ∧ s.activePeers = 0 then
              .resetFactory :: s.places
            else s.places }
      else none
  | .threadExit =>
      if s.mediaThread = .alive ∧ s.mediaShutdown = true then
        some { s with mediaThread := .finished }
      else none
  -- the exception barrier of `media_thread_main`: `webrtc_media_running` stays set
  | .threadFails =>
      if s.mediaThread = .alive then some { s with mediaThread := .finished } else none
  | .advance place => if place ∈ s.places then s.advance place else none

/-! ## The condition -/

/-- An offer is starting the media thread. -/
def Offer.starts (offer : Offer) : Bool :=
  match offer.place with
  | .clearShutdown | .startThread => true
  | .entered | .attaching _ => false

/-- The thread is in `stop_media_thread`, past its test. -/
def Place.stops : Place → Bool
  | .storeShutdown _ | .lockThread _ | .joinThread _ | .clearRunning _ => true
  | _ => false

/-- A stop is in progress. -/
def State.Stopping (s : State) : Prop := ∃ place ∈ s.places, place.stops = true

instance (s : State) : Decidable s.Stopping :=
  inferInstanceAs (Decidable (∃ place ∈ s.places, place.stops = true))

/-- No session has its tracks attached, nor does that of an offer. -/
def State.Detached (s : State) : Prop :=
  (∀ session ∈ s.sessions, session.attached = false) ∧
    ∀ offer ∈ s.sessionMutex, offer.session.attached = false

instance (s : State) : Decidable s.Detached := inferInstanceAs (Decidable (_ ∧ _))

/-- The tracks of the offer are being attached. -/
def Offer.attaches (offer : Offer) : Bool :=
  match offer.place with
  | .attaching _ => true
  | _ => false

/-- When a stop clears `webrtc_media_running`, no session has its tracks attached and no offer
is starting the thread.  Outside a stop, the thread ends by an exception only when no session has
its tracks attached, and an offer that finds the flag set finds the thread alive. -/
def Meets (s : State) : Label → Prop
  | .advance (.clearRunning _) => s.Detached ∧ ∀ offer ∈ s.sessionMutex, offer.starts = false
  | .threadFails => s.Stopping ∨ s.Detached
  | .offer false =>
      (∃ offer ∈ s.sessionMutex, offer.attaches = true) → s.mediaRunning = true →
        s.Stopping ∨ s.mediaThread = .alive
  | _ => True

instance (s : State) : ∀ label, Decidable (Meets s label)
  | .advance (.clearRunning _) => inferInstanceAs (Decidable (_ ∧ _))
  | .threadFails => inferInstanceAs (Decidable (_ ∨ _))
  | .offer false => inferInstanceAs (Decidable (_ → _))
  | .advance (.releasePeer _ _ _) | .advance (.schedule _) | .advance (.closing _)
  | .advance (.testRunning _) | .advance (.storeShutdown _) | .advance (.lockThread _)
  | .advance (.joinThread _) | .advance .resetFactory => isTrue trivial
  | .createSession | .setRemoteOffer _ | .offer true | .closeSession _ | .shutdownAllSessions
  | .idleTask _ | .threadExit => isTrue trivial

/-! ## The invariant -/

/-- The thread is in `close_session` with a peer that is still counted. -/
def Place.owesPeer : Place → Bool
  | .releasePeer hasPeer _ _ => hasPeer
  | _ => false

/-- The peers of the session that is kept with the lock. -/
def heldPeers : Option Offer → ℕ
  | none => 0
  | some offer => offer.session.hasPeer.toNat

/-- The media thread runs, and the flag says so. -/
def State.MediaRuns (s : State) : Prop := s.mediaRunning = true ∧ s.mediaThread = .alive

/-- How far the offer is that holds the lock. -/
def OfferReady (s : State) : Option Offer → Prop
  | none => s.mediaRunning = true → s.mediaShutdown = false
  | some ⟨_, .clearShutdown⟩ => s.mediaRunning = true ∧ s.Detached
  | some ⟨_, .startThread⟩ => s.mediaRunning = true ∧ s.mediaShutdown = false
  | some ⟨session, _⟩ =>
      (session.attached = true → s.MediaRuns) ∧ (s.mediaRunning = true → s.mediaShutdown = false)

/-- Between two stops, the thread runs while a session has its tracks attached, and it is not
asked to end while the flag is set. -/
structure Healthy (s : State) : Prop where
  attached : ∀ session ∈ s.sessions, session.attached = true → s.MediaRuns
  offer : OfferReady s s.sessionMutex

structure Inv (s : State) : Prop where
  active : s.activeSessions = s.sessions.length + s.sessionMutex.toList.length
  peers : s.activePeers = s.sessions.countP (·.hasPeer) + heldPeers s.sessionMutex +
    s.places.countP (·.owesPeer)
  offered : ∀ offer, s.sessionMutex = some offer →
    offer.session.hasPeer = true ∨ offer.place = .entered
  media : s.places.countP (·.stops) = 0 → Healthy s

theorem inv_initial : Inv .initial where
  active := rfl
  peers := rfl
  offered := by simp [State.initial]
  media _ := ⟨by simp [State.initial], by simp [State.initial, OfferReady]⟩

variable {s s' : State}

/-! ## Outside the lock -/

theorem countP_goto (p : Place → Bool) {place : Place} (hplace : place ∈ s.places)
    (next : List Place) :
    (next ++ s.places.erase place).countP p + (p place).toNat =
      s.places.countP p + next.countP p := by
  have hleave := Threads.countP_leave p hplace
  rw [List.countP_append]
  omega

/-- A thread moves on without touching the media thread. -/
theorem Inv.goto (h : Inv s) {place : Place} (hplace : place ∈ s.places) {next : List Place}
    {activePeers idleShutdownToken : ℕ} {idleTasks : List ℕ} {factory : Bool}
    (hpeers : activePeers + place.owesPeer.toNat = s.activePeers + next.countP (·.owesPeer))
    (hstops : next.countP (·.stops) = place.stops.toNat) :
    Inv { s.goto place next with activePeers, idleShutdownToken, idleTasks, factory } := by
  have howes := countP_goto (·.owesPeer) hplace next
  have hcount := countP_goto (·.stops) hplace next
  refine ⟨h.active, ?_, h.offered, ?_⟩
  · have hbefore := h.peers
    simp only [State.goto]
    omega
  · intro hnone
    simp only [State.goto] at hnone
    have hmedia := h.media (by omega)
    exact ⟨hmedia.attached, hmedia.offer⟩

/-- While a thread is in `stop_media_thread`, nothing is known of the media thread. -/
theorem Inv.stop (h : Inv s) {place next : Place} (hplace : place ∈ s.places)
    (hpeer : place.owesPeer = false) (hpeer' : next.owesPeer = false) (hstops : next.stops = true)
    {mediaShutdown mediaThreadMutex : Bool} {mediaThread : MediaThread} :
    Inv { s.goto place [next] with mediaShutdown, mediaThreadMutex, mediaThread } := by
  have howes := countP_goto (·.owesPeer) hplace [next]
  refine ⟨h.active, ?_, h.offered, ?_⟩
  · have hbefore := h.peers
    rw [List.countP_singleton, hpeer, hpeer', if_neg Bool.false_ne_true, Bool.toNat_false] at howes
    simp only [State.goto]
    omega
  · intro hnone
    simp [State.goto, hstops] at hnone

@[simp] theorem countP_owesPeer_resume (caller : Caller) :
    caller.resume.countP (·.owesPeer) = 0 := by
  cases caller <;> rfl

@[simp] theorem countP_stops_resume (caller : Caller) :
    caller.resume.countP (·.stops) = 0 := by
  cases caller <;> rfl

@[simp] theorem countP_owesPeer_stopper (stopper : Stopper) :
    stopper.resume.countP (·.owesPeer) = 0 := by
  cases stopper <;> rfl

@[simp] theorem countP_stops_stopper (stopper : Stopper) :
    stopper.resume.countP (·.stops) = 0 := by
  cases stopper <;> rfl

/-- A session leaves the map with its peer. -/
theorem Inv.close (h : Inv s) (hmutex : s.sessionMutex = none) {session : Session}
    (hsession : session ∈ s.sessions) {places : List Place}
    (hpeers : places.countP (·.owesPeer) =
      s.places.countP (·.owesPeer) + session.hasPeer.toNat)
    (hstops : places.countP (·.stops) = s.places.countP (·.stops)) :
    Inv { s.eraseSession session with places } := by
  have hlength := Threads.length_leave hsession
  have hcount := Threads.countP_leave (·.hasPeer) hsession
  refine ⟨?_, ?_, h.offered, ?_⟩
  · have hactive := h.active
    simp only [State.eraseSession, hmutex] at hactive ⊢
    simp at hactive ⊢
    omega
  · have hbefore := h.peers
    simp only [State.eraseSession]
    omega
  · intro hnone
    have hmedia := h.media (hstops ▸ hnone)
    have hoffer := hmedia.offer
    refine ⟨fun other hother => hmedia.attached other (List.mem_of_mem_erase hother), ?_⟩
    simp only [State.eraseSession, hmutex] at hoffer ⊢
    exact hoffer

theorem Inv.clearRunning (h : Inv s) {stopper : Stopper}
    (hplace : Place.clearRunning stopper ∈ s.places)
    (hmeets : Meets s (.advance (.clearRunning stopper))) :
    Inv { s.goto (.clearRunning stopper) stopper.resume with mediaRunning := false } := by
  have howes := countP_goto (·.owesPeer) hplace stopper.resume
  have hpeer : (Place.clearRunning stopper).owesPeer = false := rfl
  rw [countP_owesPeer_stopper, hpeer, Bool.toNat_false] at howes
  refine ⟨h.active, ?_, h.offered, ?_⟩
  · have hbefore := h.peers
    simp only [State.goto]
    omega
  · intro _
    refine ⟨?_, ?_⟩
    · intro session hsession hattached
      simp [hmeets.1.1 session hsession] at hattached
    · simp only [State.goto]
      cases hmutex : s.sessionMutex with
      | none => simp [OfferReady]
      | some offer =>
          obtain ⟨session, place⟩ := offer
          have hheld := hmeets.1.2 _ hmutex
          have hstarts := hmeets.2 _ hmutex
          cases place <;> simp_all [OfferReady, Offer.starts]

theorem Inv.advance (h : Inv s) {place : Place} (hplace : place ∈ s.places)
    (hmeets : Meets s (.advance place)) (hstep : s.advance place = some s') : Inv s' := by
  cases place with
  | releasePeer hasPeer lastSession caller =>
      cases hstep
      have hcounted := Threads.countP_leave (·.owesPeer) hplace
      have hbefore := h.peers
      have hpeer : (Place.releasePeer hasPeer lastSession caller).owesPeer = hasPeer := rfl
      have hnext : (if lastSession = true then [Place.testRunning (.lastClose caller)]
          else caller.resume).countP (·.owesPeer) = 0 := by
        cases lastSession with
        | true => rfl
        | false => exact countP_owesPeer_resume caller
      apply h.goto hplace
      · rw [hnext, hpeer]
        rw [hpeer] at hcounted
        omega
      · cases lastSession with
        | true => rfl
        | false => exact countP_stops_resume caller
  | schedule caller =>
      cases hstep
      exact h.goto hplace (by rw [countP_owesPeer_resume]; rfl) (countP_stops_resume caller)
  | closing ids =>
      cases ids with
      | nil =>
          simp only [State.advance] at hstep
          split at hstep
          · split at hstep <;> cases hstep <;> exact h.goto hplace rfl rfl
          · cases hstep
      | cons id ids =>
          simp only [State.advance] at hstep
          split at hstep
          · case isTrue hmutex =>
              split at hstep
              · cases hstep
                exact h.goto hplace rfl rfl
              · case h_2 session hfind =>
                  cases hstep
                  have hsession := List.mem_of_find?_eq_some hfind
                  apply h.close hmutex hsession
                  · exact Threads.countP_move (·.owesPeer) hplace _
                  · exact Threads.countP_move_eq hplace rfl
          · cases hstep
  | testRunning stopper =>
      cases hstep
      cases hrunning : s.mediaRunning with
      | true => exact h.stop hplace rfl rfl rfl
      | false =>
          apply h.goto hplace _ (countP_stops_stopper stopper)
          rw [countP_owesPeer_stopper]
          rfl
  | storeShutdown stopper =>
      cases hstep
      exact h.stop hplace rfl rfl rfl
  | lockThread stopper =>
      obtain ⟨-, rfl⟩ := guarded_eq_some.mp hstep
      exact h.stop hplace rfl rfl rfl
  | joinThread stopper =>
      obtain ⟨-, rfl⟩ := guarded_eq_some.mp hstep
      exact h.stop hplace rfl rfl rfl
  | clearRunning stopper =>
      cases hstep
      exact h.clearRunning hplace hmeets
  | resetFactory =>
      cases hstep
      exact h.goto hplace rfl rfl

/-! ## Under the lock -/

/-- The session of an offer changes while the lock is held. -/
theorem Inv.hold (h : Inv s) {offer offer' : Offer} (hmutex : s.sessionMutex = some offer)
    {activePeers : ℕ} {mediaRunning mediaShutdown factory : Bool}
    (hoffered : offer'.session.hasPeer = true)
    (hpeers : activePeers + offer.session.hasPeer.toNat =
      s.activePeers + offer'.session.hasPeer.toNat)
    (hmedia : Healthy s → Healthy { s with
      activePeers, mediaRunning, mediaShutdown, factory, sessionMutex := some offer' }) :
    Inv { s with
      activePeers, mediaRunning, mediaShutdown, factory, sessionMutex := some offer' } := by
  have hactive := h.active
  have hbefore := h.peers
  rw [hmutex] at hactive hbefore
  refine ⟨hactive, ?_, ?_, fun hnone => hmedia (h.media hnone)⟩
  · simp only [heldPeers] at hbefore ⊢
    omega
  · rintro other hother
    cases hother
    exact Or.inl hoffered

/-- The session of an offer goes back into the map. -/
theorem Inv.giveBack (h : Inv s) {offer : Offer} (hmutex : s.sessionMutex = some offer)
    {session : Session} {activePeers : ℕ} {factory : Bool} {mediaThread : MediaThread}
    (hpeers : activePeers + offer.session.hasPeer.toNat =
      s.activePeers + session.hasPeer.toNat)
    (hmedia : s.places.countP (·.stops) = 0 → Healthy s →
      Healthy { s.endOffer session with activePeers, factory, mediaThread }) :
    Inv { s.endOffer session with activePeers, factory, mediaThread } := by
  have hactive := h.active
  have hbefore := h.peers
  rw [hmutex] at hactive hbefore
  refine ⟨?_, ?_, by simp [State.endOffer], fun hnone => hmedia hnone (h.media hnone)⟩
  · simp [State.endOffer] at hactive ⊢
    omega
  · simp only [heldPeers] at hbefore
    simp only [State.endOffer, heldPeers, Threads.countP_start]
    omega

/-- What is known of the session of an offer before it starts the thread. -/
theorem Healthy.ready (h : Healthy s) {session : Session} {place : OfferPlace}
    (hmutex : s.sessionMutex = some ⟨session, place⟩)
    (hstart : Offer.starts ⟨session, place⟩ = false) :
    (session.attached = true → s.MediaRuns) ∧
      (s.mediaRunning = true → s.mediaShutdown = false) := by
  have hoffer := h.offer
  rw [hmutex] at hoffer
  cases place with
  | entered => exact hoffer
  | attaching createdPeer => exact hoffer
  | clearShutdown => cases hstart
  | startThread => cases hstart

/-- An offer that ends where the thread runs, or without tracks. -/
theorem Healthy.giveBack (h : Healthy s) {session session' : Session} {place : OfferPlace}
    (hmutex : s.sessionMutex = some ⟨session, place⟩)
    (hstart : Offer.starts ⟨session, place⟩ = false)
    (hattached : session'.attached = true → s.MediaRuns)
    {activePeers : ℕ} {factory : Bool} :
    Healthy { s.endOffer session' with activePeers, factory } where
  attached := by
    intro other hother
    rcases List.mem_cons.mp hother with rfl | hother
    · exact hattached
    · exact h.attached other hother
  offer := (h.ready hmutex hstart).2

/-- Nothing is attached where the flag is not set. -/
theorem Healthy.sessions_detached (h : Healthy s) (hrunning : s.mediaRunning ≠ true) :
    ∀ session ∈ s.sessions, session.attached = false := by
  intro session hsession
  rw [Bool.eq_false_iff]
  exact fun hattached => hrunning (h.attached session hsession hattached).1

/-- No stop is in progress. -/
theorem not_stopping (hnone : s.places.countP (·.stops) = 0) : ¬ s.Stopping := by
  rintro ⟨place, hplace, hstops⟩
  exact List.countP_eq_zero.mp hnone place hplace hstops

theorem Inv.advanceOffer (h : Inv s) {offer : Offer} (hmutex : s.sessionMutex = some offer)
    {fails : Bool} (hmeets : Meets s (.offer fails))
    (hstep : s.advanceOffer offer fails = some s') : Inv s' := by
  obtain ⟨session, place⟩ := offer
  simp only [State.advanceOffer] at hstep
  cases place with
  | entered =>
      dsimp only at hstep
      split at hstep
      · cases hstep
        refine h.giveBack hmutex rfl ?_
        intro _ hmedia
        exact hmedia.giveBack hmutex rfl (hmedia.ready hmutex rfl).1
      · split at hstep
        · case isTrue hpeer =>
            cases hstep
            refine h.hold hmutex hpeer rfl ?_
            intro hmedia
            exact ⟨hmedia.attached, hmedia.ready hmutex rfl⟩
        · case isFalse hpeer =>
            cases hstep
            refine h.hold hmutex rfl ?_ ?_
            · simp [hpeer]
            · intro hmedia
              have hready := hmedia.ready hmutex rfl
              exact ⟨hmedia.attached, hready⟩
  | attaching createdPeer =>
      have hpeer : session.hasPeer = true := (h.offered _ hmutex).resolve_right (by simp)
      dsimp only at hstep
      split at hstep
      · split at hstep
        · cases hstep
          refine h.giveBack hmutex ?_ ?_
          · have hcounted := h.peers
            rw [hmutex] at hcounted
            simp only [heldPeers] at hcounted
            simp [hpeer] at hcounted ⊢
            omega
          · intro _ hmedia
            refine hmedia.giveBack hmutex rfl ?_
            exact (hmedia.ready hmutex rfl).1
        · cases hstep
          refine h.giveBack hmutex rfl ?_
          intro _ hmedia
          exact hmedia.giveBack hmutex rfl (hmedia.ready hmutex rfl).1
      · case isFalse hsucceeds =>
        split at hstep
        · case isTrue hrunning =>
            cases hstep
            refine h.giveBack hmutex rfl ?_
            intro hnone hmedia
            rw [Bool.not_eq_true] at hsucceeds
            subst hsucceeds
            -- no stop is in progress, so the flag is that of a living thread
            have halive := (hmeets ⟨_, hmutex, rfl⟩ hrunning).resolve_left (not_stopping hnone)
            exact hmedia.giveBack hmutex rfl (fun _ => ⟨hrunning, halive⟩)
        · case isFalse hrunning =>
            cases hstep
            refine h.hold hmutex hpeer rfl ?_
            intro hmedia
            have hsession : session.attached = false := by
              rw [Bool.eq_false_iff]
              exact fun hattached => hrunning ((hmedia.ready hmutex rfl).1 hattached).1
            have hdetached := hmedia.sessions_detached hrunning
            refine ⟨?_, rfl, hdetached, ?_⟩
            · intro other hother hattached
              simp [hdetached other hother] at hattached
            · rintro _ ⟨⟩
              exact hsession
  | clearShutdown =>
      cases hstep
      have hpeer := (h.offered _ hmutex).resolve_right (by simp)
      refine h.hold hmutex hpeer rfl ?_
      intro hmedia
      have hoffer := hmedia.offer
      rw [hmutex] at hoffer
      exact ⟨hmedia.attached, hoffer.1, rfl⟩
  | startThread =>
      obtain ⟨-, rfl⟩ := guarded_eq_some.mp hstep
      refine h.giveBack hmutex rfl ?_
      intro _ hmedia
      have hoffer := hmedia.offer
      rw [hmutex] at hoffer
      exact ⟨fun _ _ _ => ⟨hoffer.1, rfl⟩, fun _ => hoffer.2⟩

theorem Inv.setRemoteOffer (h : Inv s) (hmutex : s.sessionMutex = none) {session : Session}
    (hsession : session ∈ s.sessions) :
    Inv { s with
      sessions := s.sessions.erase session
      sessionMutex := some ⟨session, .entered⟩ } := by
  have hactive := h.active
  have hpeers := h.peers
  have hlength := Threads.length_leave hsession
  have hcount := Threads.countP_leave (·.hasPeer) hsession
  rw [hmutex] at hactive hpeers
  refine ⟨?_, ?_, ?_, ?_⟩
  · simp at hactive ⊢
    omega
  · simp only [heldPeers] at hpeers ⊢
    omega
  · rintro offer hoffer
    cases hoffer
    exact Or.inr rfl
  · intro hnone
    have hmedia := h.media hnone
    have hoffer := hmedia.offer
    rw [hmutex] at hoffer
    refine ⟨?_, hmedia.attached session hsession, hoffer⟩
    intro other hother
    exact hmedia.attached other (List.mem_of_mem_erase hother)

/-! ## Every run -/

/-- A thread starts outside the lock. -/
theorem Inv.start (h : Inv s) {place : Place} (hpeer : place.owesPeer = false)
    (hstops : place.stops = false) {idleTasks : List ℕ} :
    Inv { s with idleTasks, places := place :: s.places } := by
  refine ⟨h.active, ?_, h.offered, ?_⟩
  · simp only [Threads.countP_start, hpeer]
    exact h.peers
  · intro hnone
    simp only [Threads.countP_start, hstops] at hnone
    exact ⟨(h.media hnone).attached, (h.media hnone).offer⟩

/-- Nothing asks the media thread to exit while tracks are attached, between two stops. -/
theorem Healthy.detached (h : Healthy s) (hshutdown : s.mediaShutdown = true) : s.Detached := by
  have hclear : (s.mediaRunning = true → s.mediaShutdown = false) → s.mediaRunning ≠ true := by
    intro hready hrunning
    simp [hready hrunning] at hshutdown
  have hoffer := h.offer
  cases hmutex : s.sessionMutex with
  | none =>
      rw [hmutex] at hoffer
      exact ⟨h.sessions_detached (hclear hoffer), by simp [hmutex]⟩
  | some offer =>
      obtain ⟨session, place⟩ := offer
      rw [hmutex] at hoffer
      cases hstart : Offer.starts ⟨session, place⟩ with
      | false =>
          obtain ⟨hattached, hready⟩ := h.ready hmutex hstart
          refine ⟨h.sessions_detached (hclear hready), ?_⟩
          rw [hmutex]
          rintro _ ⟨⟩
          rw [Bool.eq_false_iff]
          exact fun hsession => hclear hready (hattached hsession).1
      | true =>
          cases place with
          | entered => cases hstart
          | attaching createdPeer => cases hstart
          | clearShutdown => exact hoffer.2
          | startThread => simp [hoffer.2] at hshutdown

/-- The thread ends where nothing is attached. -/
theorem Healthy.finish (h : Healthy s) (hdetached : s.Detached) :
    Healthy { s with mediaThread := .finished } := by
  refine ⟨?_, ?_⟩
  · intro session hsession hattached
    simp [hdetached.1 session hsession] at hattached
  · have hoffer := h.offer
    cases hmutex : s.sessionMutex with
    | none =>
        rw [hmutex] at hoffer
        exact hoffer
    | some offer =>
        obtain ⟨session, place⟩ := offer
        have hsession : session.attached = false := hdetached.2 _ hmutex
        rw [hmutex] at hoffer
        cases place with
        | entered => exact ⟨by simp [hsession], hoffer.2⟩
        | attaching createdPeer => exact ⟨by simp [hsession], hoffer.2⟩
        | clearShutdown =>
            refine ⟨hoffer.1, hdetached.1, ?_⟩
            rintro _ ⟨⟩
            exact hsession
        | startThread => exact hoffer

theorem Inv.step (h : Inv s) {label : Label} (hmeets : Meets s label)
    (hstep : step s label = some s') : Inv s' := by
  cases label with
  | createSession =>
      obtain ⟨hmutex, rfl⟩ := guarded_eq_some.mp hstep
      have hactive := h.active
      have hpeers := h.peers
      refine ⟨?_, ?_, h.offered, ?_⟩
      · simp only [List.length_cons]
        omega
      · simp only [Threads.countP_start]
        simpa using hpeers
      · intro hnone
        have hmedia := h.media hnone
        have hoffer := hmedia.offer
        refine ⟨?_, ?_⟩
        · intro other hother hattached
          rcases List.mem_cons.mp hother with rfl | hother
          · cases hattached
          · exact hmedia.attached other hother hattached
        · simp only [hmutex] at hoffer ⊢
          exact hoffer
  | setRemoteOffer session =>
      obtain ⟨⟨hmutex, hsession⟩, rfl⟩ := guarded_eq_some.mp hstep
      exact h.setRemoteOffer hmutex hsession
  | offer fails =>
      simp only [Sessions.step] at hstep
      cases hmutex : s.sessionMutex with
      | none => simp [hmutex] at hstep
      | some offer =>
          rw [hmutex] at hstep
          exact h.advanceOffer hmutex hmeets hstep
  | closeSession session =>
      obtain ⟨⟨hmutex, hsession⟩, rfl⟩ := guarded_eq_some.mp hstep
      apply h.close hmutex hsession
      · exact Threads.countP_start Place.owesPeer _ _
      · exact Threads.countP_start Place.stops _ _
  | shutdownAllSessions =>
      obtain ⟨-, rfl⟩ := guarded_eq_some.mp hstep
      exact h.start rfl rfl
  | idleTask token =>
      obtain ⟨-, rfl⟩ := guarded_eq_some.mp hstep
      split
      · exact h.start rfl rfl
      · exact ⟨h.active, h.peers, h.offered, fun hnone => ⟨(h.media hnone).1, (h.media hnone).2⟩⟩
  | threadExit =>
      obtain ⟨⟨-, hshutdown⟩, rfl⟩ := guarded_eq_some.mp hstep
      refine ⟨h.active, h.peers, h.offered, ?_⟩
      intro hnone
      have hmedia := h.media hnone
      exact hmedia.finish (hmedia.detached hshutdown)
  | threadFails =>
      obtain ⟨-, rfl⟩ := guarded_eq_some.mp hstep
      refine ⟨h.active, h.peers, h.offered, ?_⟩
      intro hnone
      exact (h.media hnone).finish (hmeets.resolve_left (not_stopping hnone))
  | advance place =>
      simp only [Sessions.step] at hstep
      split at hstep
      · case isTrue hplace => exact h.advance hplace hmeets hstep
      · cases hstep

/-- **The sessions and what they share.**  In a run whose steps meet the condition, whenever no
operation is in progress, the counters are exact, and the media thread runs if a session has its
tracks attached. -/
theorem sessions_consistent {labels : List Label} (hrun : run step .initial labels = some s)
    (hmeets : RunMeets step Meets .initial labels) (hquiescent : s.Quiescent) :
    s.activeSessions = s.sessions.length ∧ s.activePeers = s.sessions.countP (·.hasPeer) ∧
      ((∃ session ∈ s.sessions, session.attached = true) →
        s.mediaThread = .alive ∧ s.mediaShutdown = false) := by
  have hinv : Inv s := run_invariant_of_meets
    (fun _ _ _ h hmeets hstep => Inv.step h hmeets hstep) inv_initial hmeets hrun
  obtain ⟨hplaces, hmutex⟩ := hquiescent
  refine ⟨?_, ?_, ?_⟩
  · have hactive := hinv.active
    rw [hmutex] at hactive
    simpa using hactive
  · have hpeers := hinv.peers
    rw [hmutex, hplaces] at hpeers
    exact hpeers
  · rintro ⟨session, hsession, hattached⟩
    have hmedia := hinv.media (by rw [hplaces]; rfl)
    have hoffer := hmedia.offer
    rw [hmutex] at hoffer
    obtain ⟨hrunning, halive⟩ := hmedia.attached session hsession hattached
    exact ⟨halive, hoffer hrunning⟩

/-- One session with its tracks attached. -/
def connected (id : ℕ) : List Label :=
  [.createSession, .setRemoteOffer ⟨id, false, false⟩, .offer false, .offer false]

/-- A session comes and goes, then another connects. -/
def inTurn : List Label :=
  connected 0 ++ ([.offer false, .offer false, .closeSession ⟨0, true, true⟩,
    .advance (.releasePeer true true .client), .advance (.testRunning (.lastClose .client)),
    .advance (.storeShutdown (.lastClose .client)), .advance (.lockThread (.lastClose .client)),
    .threadExit, .advance (.joinThread (.lastClose .client)),
    .advance (.clearRunning (.lastClose .client)), .advance (.schedule .client)] : List Label) ++
    connected 1 ++ ([.offer false, .offer false] : List Label)

theorem sessions_consistent_inTurn :
    ∃ s, run step .initial inTurn = some s ∧ s.Quiescent ∧ s.sessions = [⟨1, true, true⟩] ∧
      s.activeSessions = s.sessions.length ∧ s.activePeers = s.sessions.countP (·.hasPeer) ∧
      ((∃ session ∈ s.sessions, session.attached = true) →
        s.mediaThread = .alive ∧ s.mediaShutdown = false) := by
  obtain ⟨s, hrun, hs⟩ := (Option.any_eq_true _ _).mp
    (show (run step .initial inTurn).any (fun s => decide
      (s.Quiescent ∧ s.sessions = [⟨1, true, true⟩])) = true by rfl)
  have hend := of_decide_eq_true hs
  exact ⟨s, hrun, hend.1, hend.2, sessions_consistent hrun (by decide) hend.1⟩

/-- A session connects while the last one is being closed. -/
def overtaken : List Label :=
  connected 0 ++
    ([.offer false, .offer false, .closeSession ⟨0, true, true⟩] : List Label) ++ connected 1 ++
    ([.advance (.releasePeer true true .client), .advance (.testRunning (.lastClose .client)),
      .advance (.storeShutdown (.lastClose .client)), .advance (.lockThread (.lastClose .client)),
      .threadExit, .advance (.joinThread (.lastClose .client)),
      .advance (.clearRunning (.lastClose .client)), .advance (.schedule .client)] : List Label)

/-- The offer finds `webrtc_media_running` set, and the close stops the thread behind it. -/
theorem sessions_not_consistent :
    ∃ s, run step .initial overtaken = some s ∧ s.Quiescent ∧ s.sessions = [⟨1, true, true⟩] ∧
      s.mediaThread = .none := by
  obtain ⟨s, hrun, hs⟩ := (Option.any_eq_true _ _).mp
    (show (run step .initial overtaken).any (fun s => decide
      (s.Quiescent ∧ s.sessions = [⟨1, true, true⟩] ∧ s.mediaThread = .none)) = true by
        rfl)
  exact ⟨s, hrun, of_decide_eq_true hs⟩

end LuminalShine.WebRtc.Sessions
