import LuminalShine.Lib.Records
import LuminalShine.Lib.Run
import Mathlib.Data.Int.Notation
import Mathlib.Data.List.Perm.Basic

/-!
# The session set and the session threads

ANNOUNCE publishes a session in the RTSP server's set and then starts it;
`clear` and `disconnect_client` take sessions out of the set under its lock and stop
and join them afterwards, outside the lock.  `session::start` and `session::stop` are
several atomic operations each, and other threads run between them: the threads are
created, `active_sessions` is incremented, the state becomes RUNNING, and
`running_sessions` is incremented; a stop exchanges the state and then decrements
`active_sessions`; a join ends with the decrement of `running_sessions`.
`session_clear` retires the pending launch and touches no session.

The counters are unsigned atomics in the source.  They are integers here, so that a
decrement below zero would be seen.

## Main definitions

* `Session`, `State`, `Label`, `step` — the transition system.
* `CollectsStarted` — a removal takes only sessions whose start has completed.
* `Tracked` — the invariant.
* `session_set_tracks_threads` — the run theorem.
-/

namespace LuminalShine.Rtsp.Sessions

open LuminalShine.Lib

/-- `state_e`. -/
inductive SessionState where
  | stopped
  | stopping
  | starting
  | running
  deriving DecidableEq, Repr

/-- How far `session::start` has come. -/
inductive Stage where
  | allocated
  | failed
  | threads
  | counted
  | published
  | complete
  deriving DecidableEq, Repr

/-- The part of `session_t` the set and the counters depend on.  `decrementOwed` is
set between the two operations of `session::stop`. -/
structure Session where
  state : SessionState := .stopped
  stage : Stage := .allocated
  decrementOwed : Bool := false
  joined : Bool := false
  clientUuid : Option ℕ := none
  deriving DecidableEq, Repr

structure State where
  session : ℕ → Session
  /-- The server's set, the vectors of the removal paths, and the calls of `join`
  that have not returned. -/
  sessions : List ℕ
  toCleanup : List ℕ
  joining : List ℕ
  activeSessions : ℤ
  runningSessions : ℤ
  /-- History: the sessions ever inserted, and the calls of `join`. -/
  inserted : List ℕ
  joins : List ℕ

def State.initial : State where
  session := fun _ => {}
  sessions := []
  toCleanup := []
  joining := []
  activeSessions := 0
  runningSessions := 0
  inserted := []
  joins := []

inductive Label where
  | insert (session : ℕ) (clientUuid : Option ℕ)
  | startFailed (session : ℕ)
  | startThreads (session : ℕ)
  | countActive (session : ℕ)
  | storeRunning (session : ℕ)
  | countRunning (session : ℕ)
  | stop (session : ℕ)
  | countStopped (session : ℕ)
  | clear (all : Bool)
  | disconnectClient (clientUuid : ℕ)
  | join (session : ℕ)
  | joinReturns (session : ℕ)
  deriving DecidableEq, Repr

namespace State

def update (s : State) (i : ℕ) (x : Session) : State :=
  { s with session := Function.update s.session i x }

/-- The sessions a `clear` takes: all of them, or those that are stopping. -/
def clears (s : State) (all : Bool) (i : ℕ) : Bool := all || (s.session i).state = .stopping

def belongsTo (s : State) (clientUuid i : ℕ) : Bool := (s.session i).clientUuid = some clientUuid

/-- Take sessions out of the set for a later stop and join. -/
def collect (s : State) (p : ℕ → Bool) : State :=
  { s with
    sessions := s.sessions.filter fun i => !p i
    toCleanup := s.sessions.filter p ++ s.toCleanup }

end State

def step (s : State) : Label → Option State
  | .insert i clientUuid =>
      if i ∈ s.inserted then none
      else some
        { s with
          session := Function.update s.session i { clientUuid := clientUuid }
          sessions := i :: s.sessions
          inserted := i :: s.inserted }
  | .startFailed i =>
      if i ∈ s.inserted ∧ (s.session i).stage = .allocated then
        some { s.update i { s.session i with stage := .failed } with
          sessions := s.sessions.erase i }
      else none
  | .startThreads i =>
      if i ∈ s.inserted ∧ (s.session i).stage = .allocated then
        some (s.update i { s.session i with stage := .threads })
      else none
  | .countActive i =>
      if i ∈ s.inserted ∧ (s.session i).stage = .threads then
        some { s.update i { s.session i with stage := .counted } with
          activeSessions := s.activeSessions + 1 }
      else none
  | .storeRunning i =>
      if i ∈ s.inserted ∧ (s.session i).stage = .counted then
        some (s.update i { s.session i with stage := .published, state := .running })
      else none
  | .countRunning i =>
      if i ∈ s.inserted ∧ (s.session i).stage = .published then
        some { s.update i { s.session i with stage := .complete } with
          runningSessions := s.runningSessions + 1 }
      else none
  | .stop i =>
      if (s.session i).state = .running then
        some (s.update i { s.session i with state := .stopping, decrementOwed := true })
      else some s
  | .countStopped i =>
      if (s.session i).decrementOwed = true then
        some { s.update i { s.session i with decrementOwed := false } with
          activeSessions := s.activeSessions - 1 }
      else none
  | .clear all => some (s.collect (s.clears all))
  | .disconnectClient clientUuid => some (s.collect (s.belongsTo clientUuid))
  | .join i =>
      if i ∈ s.toCleanup ∧ (s.session i).state ≠ .running then
        some { s with
          toCleanup := s.toCleanup.erase i
          joining := i :: s.joining
          joins := s.joins ++ [i] }
      else none
  | .joinReturns i =>
      if i ∈ s.joining ∧ (s.session i).state = .stopping then
        some { s.update i { s.session i with joined := true } with
          joining := s.joining.erase i
          runningSessions := s.runningSessions - 1 }
      else none

/-- The condition on the removals: what they take has completed `session::start`. -/
def CollectsStarted (s : State) : Label → Prop
  | .clear all => ∀ i ∈ s.sessions, s.clears all i = true → (s.session i).stage = .complete
  | .disconnectClient clientUuid =>
      ∀ i ∈ s.sessions, s.belongsTo clientUuid i = true → (s.session i).stage = .complete
  | _ => True

instance (s : State) : ∀ label, Decidable (CollectsStarted s label)
  | .clear all => inferInstanceAs (Decidable (∀ i ∈ s.sessions, s.clears all i = true → _ = _))
  | .disconnectClient clientUuid =>
      inferInstanceAs (Decidable (∀ i ∈ s.sessions, s.belongsTo clientUuid i = true → _ = _))
  | .insert .. | .startFailed _ | .startThreads _ | .countActive _ | .storeRunning _
  | .countRunning _ | .stop _ | .countStopped _ | .join _ | .joinReturns _ => isTrue trivial

/-! ## The invariant -/

def State.places (s : State) : List ℕ := s.sessions ++ s.toCleanup ++ s.joining

/-- RUNNING or STOPPING, and not joined. -/
def Session.live (x : Session) : Bool := (x.state = .running || x.state = .stopping) && !x.joined

/-- What `active_sessions` counts: RUNNING sessions, and those between the counter
operation and the state operation of a start or a stop. -/
def Session.active (x : Session) : Bool :=
  x.stage = .counted || x.state = .running || x.decrementOwed

/-- What `running_sessions` counts: started and not joined. -/
def Session.unjoined (x : Session) : Bool := x.stage = .complete && !x.joined

/-- `session::start` has neither failed nor completed. -/
def Stage.inProgress (stage : Stage) : Bool := stage ≠ .failed && stage ≠ .complete

/-- What `start`, `stop` and `join` can have made of one session. -/
structure Session.Coherent (x : Session) : Prop where
  stopped_iff : x.state = .stopped ↔ x.stage ≠ .published ∧ x.stage ≠ .complete
  not_starting : x.state ≠ .starting
  owed_stopping : x.decrementOwed = true → x.state = .stopping
  joined_complete : x.joined = true → x.stage = .complete

namespace Session.Coherent

variable {x : Session}

/-- A session whose threads are not published is untouched by stop and join. -/
theorem early (h : x.Coherent) (hp : x.stage ≠ .published) (hc : x.stage ≠ .complete) :
    x.state = .stopped ∧ x.decrementOwed = false ∧ x.joined = false := by
  have hstopped : x.state = .stopped := h.stopped_iff.mpr ⟨hp, hc⟩
  refine ⟨hstopped, Bool.eq_false_iff.mpr fun hd => ?_, Bool.eq_false_iff.mpr fun hj => ?_⟩
  · have := h.owed_stopping hd
    simp [hstopped] at this
  · exact hc (h.joined_complete hj)

theorem late (h : x.Coherent) (hstate : x.state ≠ .stopped) :
    x.stage = .published ∨ x.stage = .complete := by
  by_contra hnot
  obtain ⟨hp, hc⟩ := not_or.mp hnot
  exact hstate (h.early hp hc).1

end Session.Coherent

/-- **The invariant.**  A session that is not joined is in one place at most, and is
in one while it runs or stops; what the removal paths hold has completed its start;
the counters agree with the sessions. -/
structure Tracked (s : State) : Prop where
  coherent : ∀ i, (s.session i).Coherent
  inserted_nodup : s.inserted.Nodup
  unknown : ∀ i, i ∉ s.inserted → (s.session i).stage = .allocated
  places_nodup : s.places.Nodup
  places_sub : ∀ i ∈ s.places, i ∈ s.inserted ∧ (s.session i).joined = false
  live_placed : ∀ i, (s.session i).live = true → i ∈ s.places
  starting_in_set : ∀ i ∈ s.inserted, (s.session i).stage.inProgress = true → i ∈ s.sessions
  removed_complete : ∀ i, i ∈ s.toCleanup ∨ i ∈ s.joining → (s.session i).stage = .complete
  joins_nodup : s.joins.Nodup
  joins_done : ∀ i ∈ s.joins, i ∈ s.joining ∨ (s.session i).joined = true
  active_eq : s.activeSessions = (s.inserted.countP fun i => (s.session i).active : ℕ)
  running_eq : s.runningSessions = (s.inserted.countP fun i => (s.session i).unjoined : ℕ)

theorem tracked_initial : Tracked State.initial where
  coherent := fun _ => ⟨by simp [State.initial], by simp [State.initial], by simp [State.initial],
    by simp [State.initial]⟩
  inserted_nodup := List.nodup_nil
  unknown := fun _ _ => rfl
  places_nodup := List.nodup_nil
  places_sub := fun _ h => absurd h List.not_mem_nil
  live_placed := fun _ h => absurd h (by simp [State.initial, Session.live])
  starting_in_set := fun _ h => absurd h List.not_mem_nil
  removed_complete := fun _ h => absurd h (by simp [State.initial])
  joins_nodup := List.nodup_nil
  joins_done := fun _ h => absurd h List.not_mem_nil
  active_eq := rfl
  running_eq := rfl

/-! ## One session changes -/

namespace Tracked

variable {s : State} {i : ℕ}

/-- A session that is no longer as allocated was inserted. -/
theorem mem_inserted (h : Tracked s) (hstage : (s.session i).stage ≠ .allocated) :
    i ∈ s.inserted := by
  by_contra hnot
  exact hstage (h.unknown i hnot)

/-- The sessions other than `i` are where they were. -/
def OthersStay (s s' : State) (i : ℕ) : Prop :=
  ∀ j, j ≠ i → (j ∈ s'.sessions ↔ j ∈ s.sessions) ∧ (j ∈ s'.toCleanup ↔ j ∈ s.toCleanup) ∧
    (j ∈ s'.joining ↔ j ∈ s.joining)

theorem OthersStay.mem_places {s s' : State} (h : OthersStay s s' i) {j : ℕ} (hj : j ≠ i) :
    j ∈ s'.places ↔ j ∈ s.places := by
  obtain ⟨hsessions, hcleanup, hjoining⟩ := h j hj
  simp only [State.places, List.mem_append, hsessions, hcleanup, hjoining]

/-- **One session changes**, itself and possibly its place. -/
theorem of_change (h : Tracked s) (hi : i ∈ s.inserted) {s' : State} {x : Session}
    (hsession : s'.session = Function.update s.session i x) (hinserted : s'.inserted = s.inserted)
    (hjoins : s'.joins = s.joins) (hothers : OthersStay s s' i) (hnodup : s'.places.Nodup)
    (hx : x.Coherent) (hplace : i ∈ s'.places → x.joined = false)
    (hlive : x.live = true → i ∈ s'.places)
    (hprogress : x.stage.inProgress = true → i ∈ s'.sessions)
    (hremoved : i ∈ s'.toCleanup ∨ i ∈ s'.joining → x.stage = .complete)
    (hdone : i ∈ s.joins → i ∈ s'.joining ∨ x.joined = true)
    (ha : s'.activeSessions + (s.session i).active.toNat = s.activeSessions + x.active.toNat)
    (hr : s'.runningSessions + (s.session i).unjoined.toNat
      = s.runningSessions + x.unjoined.toNat) : Tracked s' := by
  have hself : s'.session i = x := by rw [hsession, Function.update_self]
  have hsame : ∀ j, j ≠ i → s'.session j = s.session j := by
    intro j hj
    rw [hsession, Function.update_of_ne hj]
  refine ⟨?_, hinserted ▸ h.inserted_nodup, ?_, hnodup, ?_, ?_, ?_, ?_, hjoins ▸ h.joins_nodup, ?_, ?_,
    ?_⟩
  · intro j
    by_cases hji : j = i
    · rw [hji, hself]
      exact hx
    · rw [hsame j hji]
      exact h.coherent j
  · intro j hj
    rw [hinserted] at hj
    rw [hsame j fun hji => hj (hji ▸ hi)]
    exact h.unknown j hj
  · intro j hj
    rw [hinserted]
    by_cases hji : j = i
    · rw [hji, hself]
      exact ⟨hi, hplace (hji ▸ hj)⟩
    · rw [hsame j hji]
      exact h.places_sub j ((hothers.mem_places hji).mp hj)
  · intro j hj
    by_cases hji : j = i
    · rw [hji, hself] at hj
      exact hji ▸ hlive hj
    · rw [hsame j hji] at hj
      exact (hothers.mem_places hji).mpr (h.live_placed j hj)
  · intro j hj hp
    rw [hinserted] at hj
    by_cases hji : j = i
    · rw [hji, hself] at hp
      exact hji ▸ hprogress hp
    · rw [hsame j hji] at hp
      exact (hothers j hji).1.mpr (h.starting_in_set j hj hp)
  · intro j hj
    by_cases hji : j = i
    · rw [hji, hself]
      exact hremoved (hji ▸ hj)
    · rw [hsame j hji]
      exact h.removed_complete j (hj.imp (hothers j hji).2.1.mp (hothers j hji).2.2.mp)
  · intro j hj
    rw [hjoins] at hj
    by_cases hji : j = i
    · rw [hji, hself]
      exact hdone (hji ▸ hj)
    · rw [hsame j hji]
      exact (h.joins_done j hj).imp_left (hothers j hji).2.2.mpr
  · have hcount := countP_update h.inserted_nodup hi s.session x Session.active
    have hold := h.active_eq
    rw [hinserted, hsession]
    omega
  · have hcount := countP_update h.inserted_nodup hi s.session x Session.unjoined
    have hold := h.running_eq
    rw [hinserted, hsession]
    omega

/-- A start, a stop or one of their counter operations on a session that keeps its
place. -/
theorem of_update (h : Tracked s) (hi : i ∈ s.inserted) (x : Session) (a r : ℤ)
    (hx : x.Coherent) (hjoined : x.joined = (s.session i).joined)
    (hlive : x.live = true → i ∈ s.places)
    (hprogress : x.stage.inProgress = true → (s.session i).stage.inProgress = true)
    (hcomplete : (s.session i).stage = .complete → x.stage = .complete)
    (ha : a + (s.session i).active.toNat = s.activeSessions + x.active.toNat)
    (hr : r + (s.session i).unjoined.toNat = s.runningSessions + x.unjoined.toNat) :
    Tracked { s.update i x with activeSessions := a, runningSessions := r } := by
  refine h.of_change hi rfl rfl rfl (fun _ _ => ⟨.rfl, .rfl, .rfl⟩) h.places_nodup hx ?_ hlive ?_ ?_ ?_
    ha hr
  · intro hplace
    exact hjoined.trans (h.places_sub i hplace).2
  · intro hp
    exact h.starting_in_set i hi (hprogress hp)
  · intro hplace
    exact hcomplete (h.removed_complete i hplace)
  · intro hj
    rw [hjoined]
    exact h.joins_done i hj

theorem mem_places_of_starting (h : Tracked s) (hi : i ∈ s.inserted)
    (hp : (s.session i).stage.inProgress = true) : i ∈ s.places :=
  List.mem_append_left _ (List.mem_append_left _ (h.starting_in_set i hi hp))

/-! ## Steps of `session::start` -/

theorem startThreads (h : Tracked s) (hi : i ∈ s.inserted)
    (hstage : (s.session i).stage = .allocated) :
    Tracked (s.update i { s.session i with stage := .threads }) := by
  have hc := h.coherent i
  obtain ⟨hstopped, howed, hjoined⟩ := hc.early (by simp [hstage]) (by simp [hstage])
  refine h.of_update hi { s.session i with stage := .threads } s.activeSessions
    s.runningSessions ⟨?_, ?_, ?_, ?_⟩ rfl ?_ ?_ ?_ ?_ ?_ <;>
    simp [Session.live, Session.active, Session.unjoined, Stage.inProgress, *]

theorem countActive (h : Tracked s) (hi : i ∈ s.inserted)
    (hstage : (s.session i).stage = .threads) :
    Tracked { s.update i { s.session i with stage := .counted } with
      activeSessions := s.activeSessions + 1 } := by
  have hc := h.coherent i
  obtain ⟨hstopped, howed, hjoined⟩ := hc.early (by simp [hstage]) (by simp [hstage])
  refine h.of_update hi { s.session i with stage := .counted } (s.activeSessions + 1)
    s.runningSessions ⟨?_, ?_, ?_, ?_⟩ rfl ?_ ?_ ?_ ?_ ?_ <;>
    simp [Session.live, Session.active, Session.unjoined, Stage.inProgress, *]

theorem storeRunning (h : Tracked s) (hi : i ∈ s.inserted)
    (hstage : (s.session i).stage = .counted) :
    Tracked (s.update i { s.session i with stage := .published, state := .running }) := by
  have hc := h.coherent i
  obtain ⟨hstopped, howed, hjoined⟩ := hc.early (by simp [hstage]) (by simp [hstage])
  have hplaced := h.mem_places_of_starting hi (by simp [Stage.inProgress, hstage])
  refine h.of_update hi { s.session i with stage := .published, state := .running }
    s.activeSessions s.runningSessions ⟨?_, ?_, ?_, ?_⟩ rfl (fun _ => hplaced) ?_ ?_ ?_ ?_ <;>
    simp [Session.active, Session.unjoined, Stage.inProgress, *]

theorem countRunning (h : Tracked s) (hi : i ∈ s.inserted)
    (hstage : (s.session i).stage = .published) :
    Tracked { s.update i { s.session i with stage := .complete } with
      runningSessions := s.runningSessions + 1 } := by
  have hc := h.coherent i
  have hnotstopped : (s.session i).state ≠ .stopped :=
    fun hstopped => (hc.stopped_iff.mp hstopped).1 hstage
  have hjoined : (s.session i).joined = false :=
    Bool.eq_false_iff.mpr fun hj => by simpa [hstage] using hc.joined_complete hj
  have hplaced := h.mem_places_of_starting hi (by simp [Stage.inProgress, hstage])
  refine h.of_update hi { s.session i with stage := .complete } s.activeSessions
    (s.runningSessions + 1) ⟨?_, hc.not_starting, hc.owed_stopping, ?_⟩ rfl (fun _ => hplaced)
    ?_ ?_ ?_ ?_ <;>
    simp [Session.active, Session.unjoined, Stage.inProgress, *]

/-! ## Steps of `session::stop` -/

theorem stop (h : Tracked s) (hstate : (s.session i).state = .running) :
    Tracked (s.update i { s.session i with state := .stopping, decrementOwed := true }) := by
  have hc := h.coherent i
  have hlate := hc.late (by simp [hstate])
  have hi : i ∈ s.inserted := h.mem_inserted (by rcases hlate with hs | hs <;> simp [hs])
  refine h.of_update hi { s.session i with state := .stopping, decrementOwed := true }
    s.activeSessions s.runningSessions ⟨?_, by simp, by simp, hc.joined_complete⟩ rfl ?_ id id ?_
    rfl
  · rcases hlate with hs | hs <;> simp [hs]
  · intro hlive
    refine h.live_placed i ?_
    simpa [Session.live, hstate] using hlive
  · simp [Session.active, hstate]

theorem countStopped (h : Tracked s) (howed : (s.session i).decrementOwed = true) :
    Tracked { s.update i { s.session i with decrementOwed := false } with
      activeSessions := s.activeSessions - 1 } := by
  have hc := h.coherent i
  have hstate := hc.owed_stopping howed
  have hlate := hc.late (by simp [hstate])
  have hi : i ∈ s.inserted := h.mem_inserted (by rcases hlate with hs | hs <;> simp [hs])
  refine h.of_update hi { s.session i with decrementOwed := false } (s.activeSessions - 1)
    s.runningSessions ⟨hc.stopped_iff, hc.not_starting, by simp, hc.joined_complete⟩ rfl
    (fun hlive => h.live_placed i hlive) id id ?_ rfl
  rcases hlate with hs | hs <;> simp [Session.active, hs, hstate, howed]

/-! ## Insertion, removal and join -/

theorem insert (h : Tracked s) (hnew : i ∉ s.inserted) (clientUuid : Option ℕ) :
    Tracked { s with
      session := Function.update s.session i { clientUuid := clientUuid }
      sessions := i :: s.sessions
      inserted := i :: s.inserted } := by
  have hsame : ∀ j ∈ s.inserted,
      Function.update s.session i { clientUuid := clientUuid } j = s.session j := by
    intro j hj
    refine Function.update_of_ne ?_ _ _
    rintro rfl
    exact hnew hj
  have hself : Function.update s.session i { clientUuid := clientUuid } i
      = { clientUuid := clientUuid } := Function.update_self _ _ _
  have hplaces : i ∉ s.places := fun hp => hnew (h.places_sub i hp).1
  have hremoved : ∀ j, j ∈ s.toCleanup ∨ j ∈ s.joining → j ∈ s.places := by
    rintro j (hj | hj)
    · exact List.mem_append_left _ (List.mem_append_right _ hj)
    · exact List.mem_append_right _ hj
  have hjoin : ∀ j ∈ s.joins, j ∈ s.inserted := by
    intro j hj
    rcases h.joins_done j hj with hd | hd
    · exact (h.places_sub j (hremoved j (.inr hd))).1
    · refine h.mem_inserted ?_
      rw [(h.coherent j).joined_complete hd]
      exact Stage.noConfusion
  refine ⟨fun j => ?_, List.nodup_cons.mpr ⟨hnew, h.inserted_nodup⟩, fun j hj => ?_,
    List.nodup_cons.mpr ⟨hplaces, h.places_nodup⟩, fun j hj => ?_, fun j hj => ?_,
    fun j hj hp => ?_, fun j hj => ?_, h.joins_nodup, fun j hj => ?_, ?_, ?_⟩ <;>
    dsimp only at *
  · by_cases hji : j = i
    · rw [hji, hself]
      exact ⟨by simp, by simp, by simp, by simp⟩
    · rw [Function.update_of_ne hji]
      exact h.coherent j
  · obtain ⟨hji, hj⟩ := not_or.mp (mt List.mem_cons.mpr hj)
    rw [Function.update_of_ne hji]
    exact h.unknown j hj
  · rcases List.mem_cons.mp hj with rfl | hj
    · exact ⟨List.mem_cons_self, by rw [hself]⟩
    · obtain ⟨hm, hjoined⟩ := h.places_sub j hj
      exact ⟨List.mem_cons_of_mem _ hm, by rw [hsame j hm, hjoined]⟩
  · by_cases hji : j = i
    · exact hji ▸ List.mem_cons_self
    · rw [Function.update_of_ne hji] at hj
      exact List.mem_cons_of_mem _ (h.live_placed j hj)
  · rcases List.mem_cons.mp hj with rfl | hj
    · exact List.mem_cons_self
    · rw [hsame j hj] at hp
      exact List.mem_cons_of_mem _ (h.starting_in_set j hj hp)
  · rw [hsame j (h.places_sub j (hremoved j hj)).1]
    exact h.removed_complete j hj
  · rw [hsame j (hjoin j hj)]
    exact h.joins_done j hj
  · rw [List.countP_cons, countP_update_of_notMem hnew s.session _ Session.active, hself,
      h.active_eq]
    simp [Session.active]
  · rw [List.countP_cons, countP_update_of_notMem hnew s.session _ Session.unjoined, hself,
      h.running_eq]
    simp [Session.unjoined]

/-- A start that fails before it creates a thread takes its session out again. -/
theorem startFailed (h : Tracked s) (hi : i ∈ s.inserted)
    (hstage : (s.session i).stage = .allocated) :
    Tracked { s.update i { s.session i with stage := .failed } with
      sessions := s.sessions.erase i } := by
  have hc := h.coherent i
  obtain ⟨hstopped, howed, hjoined⟩ := hc.early (by simp [hstage]) (by simp [hstage])
  have hsub : (s.sessions.erase i ++ s.toCleanup ++ s.joining).Sublist s.places :=
    ((List.erase_sublist).append_right _).append_right _
  -- nothing removed the session while its start was under way
  have hremoved : i ∈ s.toCleanup ∨ i ∈ s.joining → Stage.failed = .complete := by
    intro hplace
    have hcomplete := h.removed_complete i hplace
    simp [hstage] at hcomplete
  refine h.of_change hi rfl rfl rfl ?_ (hsub.nodup h.places_nodup) ⟨?_, ?_, ?_, ?_⟩
    (fun _ => hjoined) ?_ ?_ hremoved (h.joins_done i) ?_ ?_
  · intro j hji
    exact ⟨List.mem_erase_of_ne hji, .rfl, .rfl⟩
  all_goals simp [Session.live, Session.active, Session.unjoined, Stage.inProgress, State.update, *]

/-- A removal moves sessions whose start has completed from the set to its vector. -/
theorem collect (h : Tracked s) (p : ℕ → Bool)
    (hp : ∀ j ∈ s.sessions, p j = true → (s.session j).stage = .complete) :
    Tracked (s.collect p) := by
  have hsplit : (s.sessions.filter (fun j => !p j) ++ s.sessions.filter p).Perm s.sessions :=
    List.perm_append_comm.trans (List.filter_append_perm p s.sessions)
  have hperm : (s.collect p).places.Perm s.places := by
    simp only [State.places, State.collect, ← List.append_assoc]
    exact (hsplit.append_right _).append_right _
  refine ⟨h.coherent, h.inserted_nodup, h.unknown, hperm.nodup_iff.mpr h.places_nodup,
    fun j hj => h.places_sub j (hperm.mem_iff.mp hj),
    fun j hj => hperm.mem_iff.mpr (h.live_placed j hj), fun j hj hprog => ?_, fun j hj => ?_,
    h.joins_nodup, h.joins_done, h.active_eq, h.running_eq⟩
  · have hmem := h.starting_in_set j hj hprog
    refine List.mem_filter.mpr ⟨hmem, ?_⟩
    cases hpj : p j with
    | false => rfl
    | true =>
        have hprog' : (s.session j).stage.inProgress = true := hprog
        rw [hp j hmem hpj] at hprog'
        cases hprog'
  · rcases hj with hj | hj
    · rcases List.mem_append.mp hj with hj | hj
      · obtain ⟨hmem, hpj⟩ := List.mem_filter.mp hj
        exact hp j hmem hpj
      · exact h.removed_complete j (.inl hj)
    · exact h.removed_complete j (.inr hj)

theorem join (h : Tracked s) (hi : i ∈ s.toCleanup) :
    Tracked { s with
      toCleanup := s.toCleanup.erase i
      joining := i :: s.joining
      joins := s.joins ++ [i] } := by
  have hplace : i ∈ s.places := List.mem_append_left _ (List.mem_append_right _ hi)
  have hperm : (s.sessions ++ s.toCleanup.erase i ++ i :: s.joining).Perm s.places := by
    refine List.perm_middle.trans ?_
    rw [State.places, ← List.cons_append]
    refine List.Perm.append_right _ ?_
    exact List.perm_middle.symm.trans ((List.perm_cons_erase hi).symm.append_left _)
  have hnew : i ∉ s.joins := by
    intro hj
    rcases h.joins_done i hj with hjoining | hjoined
    · have hdisjoint := (List.nodup_append.mp h.places_nodup).2.2
      exact hdisjoint i (List.mem_append_right _ hi) i hjoining rfl
    · rw [(h.places_sub i hplace).2] at hjoined
      cases hjoined
  refine ⟨h.coherent, h.inserted_nodup, h.unknown, hperm.nodup_iff.mpr h.places_nodup,
    fun j hj => h.places_sub j (hperm.mem_iff.mp hj),
    fun j hj => hperm.mem_iff.mpr (h.live_placed j hj), h.starting_in_set, fun j hj => ?_,
    ?_, fun j hj => ?_, h.active_eq, h.running_eq⟩
  · rcases hj with hj | hj
    · exact h.removed_complete j (.inl (List.mem_of_mem_erase hj))
    · rcases List.mem_cons.mp hj with rfl | hj
      · exact h.removed_complete j (.inl hi)
      · exact h.removed_complete j (.inr hj)
  · refine List.nodup_append.mpr ⟨h.joins_nodup, List.nodup_singleton i, ?_⟩
    rintro a ha b hb rfl
    exact hnew (List.mem_singleton.mp hb ▸ ha)
  · rcases List.mem_append.mp hj with hj | hj
    · exact (h.joins_done j hj).imp_left (List.mem_cons_of_mem _)
    · exact .inl (List.mem_singleton.mp hj ▸ List.mem_cons_self)

theorem joinReturns (h : Tracked s) (hi : i ∈ s.joining) :
    Tracked { s.update i { s.session i with joined := true } with
      joining := s.joining.erase i
      runningSessions := s.runningSessions - 1 } := by
  obtain ⟨hins, hjoined⟩ := h.places_sub i (List.mem_append_right _ hi)
  have hcomplete := h.removed_complete i (.inr hi)
  have hc := h.coherent i
  have hperm : s.places.Perm (i :: (s.sessions ++ s.toCleanup ++ s.joining.erase i)) :=
    ((List.perm_cons_erase hi).append_left _).trans List.perm_middle
  obtain ⟨hgone, hnodup⟩ := List.nodup_cons.mp (hperm.nodup_iff.mp h.places_nodup)
  refine h.of_change hins rfl rfl rfl ?_ hnodup
    ⟨hc.stopped_iff, hc.not_starting, hc.owed_stopping, fun _ => hcomplete⟩
    (fun hplace => absurd hplace hgone) ?_ ?_ (fun _ => hcomplete) (fun _ => .inr rfl) rfl ?_
  · intro j hji
    exact ⟨.rfl, .rfl, List.mem_erase_of_ne hji⟩
  · simp [Session.live]
  · simp [Stage.inProgress, hcomplete]
  · simp [Session.unjoined, hcomplete, hjoined]

end Tracked

/-- Every action that meets the condition keeps the invariant. -/
theorem step_tracked (s : State) (label : Label) (s' : State) (h : Tracked s)
    (hguard : CollectsStarted s label) (hstep : step s label = some s') : Tracked s' := by
  cases label with
  | insert i clientUuid =>
      simp only [step] at hstep
      split at hstep <;> cases hstep
      exact h.insert (by assumption) clientUuid
  | startFailed i =>
      obtain ⟨⟨hi, hstage⟩, rfl⟩ := guarded_eq_some.mp hstep
      exact h.startFailed hi hstage
  | startThreads i =>
      obtain ⟨⟨hi, hstage⟩, rfl⟩ := guarded_eq_some.mp hstep
      exact h.startThreads hi hstage
  | countActive i =>
      obtain ⟨⟨hi, hstage⟩, rfl⟩ := guarded_eq_some.mp hstep
      exact h.countActive hi hstage
  | storeRunning i =>
      obtain ⟨⟨hi, hstage⟩, rfl⟩ := guarded_eq_some.mp hstep
      exact h.storeRunning hi hstage
  | countRunning i =>
      obtain ⟨⟨hi, hstage⟩, rfl⟩ := guarded_eq_some.mp hstep
      exact h.countRunning hi hstage
  | stop i =>
      simp only [step] at hstep
      split at hstep <;> cases hstep
      · exact h.stop (by assumption)
      · exact h
  | countStopped i =>
      obtain ⟨howed, rfl⟩ := guarded_eq_some.mp hstep
      exact h.countStopped howed
  | clear all =>
      cases hstep
      exact h.collect _ hguard
  | disconnectClient clientUuid =>
      cases hstep
      exact h.collect _ hguard
  | join i =>
      obtain ⟨⟨hi, -⟩, rfl⟩ := guarded_eq_some.mp hstep
      exact h.join hi
  | joinReturns i =>
      obtain ⟨⟨hi, -⟩, rfl⟩ := guarded_eq_some.mp hstep
      exact h.joinReturns hi

theorem Tracked.joins_complete {s : State} (h : Tracked s) {i : ℕ} (hi : i ∈ s.joins) :
    (s.session i).stage = .complete := by
  rcases h.joins_done i hi with hj | hj
  · exact h.removed_complete i (.inr hj)
  · exact (h.coherent i).joined_complete hj

/-- A session that runs or stops is in exactly one place. -/
theorem Tracked.count_places {s : State} (h : Tracked s) {i : ℕ}
    (hlive : (s.session i).live = true) :
    s.sessions.count i + s.toCleanup.count i + s.joining.count i = 1 := by
  have hcount := List.count_eq_one_of_mem h.places_nodup (h.live_placed i hlive)
  rwa [State.places, List.count_append, List.count_append] at hcount

/-- With no start or stop between its two operations, the active sessions are the
RUNNING ones. -/
theorem Tracked.active_eq_running {s : State} (h : Tracked s)
    (hquiet : ∀ i ∈ s.inserted,
      (s.session i).stage ≠ .counted ∧ (s.session i).decrementOwed = false) :
    s.activeSessions
      = (s.inserted.countP fun i => (s.session i).state = .running : ℕ) := by
  rw [h.active_eq]
  congr 1
  refine List.countP_congr fun i hi => ?_
  obtain ⟨hstage, howed⟩ := hquiet i hi
  simp [Session.active, hstage, howed]

/-- **The session set tracks the session threads.**  In every state of every run in
which the removal paths take only sessions whose start has completed: `join` was
called only on such sessions and once on each; a session that runs or stops and is
not joined is in the set or with exactly one removal path, which has yet to join it;
`running_sessions` is the number of started sessions not joined yet, and
`active_sessions` the number of RUNNING ones plus those between the two operations of
a start or stop, so neither is negative. -/
theorem session_set_tracks_threads {labels : List Label} {s : State}
    (hmeets : RunMeets step CollectsStarted State.initial labels)
    (hrun : run step State.initial labels = some s) :
    (∀ i ∈ s.joins, (s.session i).stage = .complete) ∧ s.joins.Nodup ∧
      (∀ i, (s.session i).live = true →
        s.sessions.count i + s.toCleanup.count i + s.joining.count i = 1) ∧
      s.runningSessions = (s.inserted.countP fun i => (s.session i).unjoined : ℕ) ∧
      s.activeSessions = (s.inserted.countP fun i => (s.session i).active : ℕ) ∧
      ((∀ i ∈ s.inserted,
          (s.session i).stage ≠ .counted ∧ (s.session i).decrementOwed = false) →
        s.activeSessions = (s.inserted.countP fun i => (s.session i).state = .running : ℕ)) := by
  have h : Tracked s := run_invariant_of_meets step_tracked tracked_initial hmeets hrun
  exact ⟨fun _ => h.joins_complete, h.joins_nodup, fun _ => h.count_places, h.running_eq,
    h.active_eq, h.active_eq_running⟩

/-- Session 1 is started, stops, and is taken by the clear loop. -/
theorem session_set_tracks_threads_clear :
    let labels := [Label.insert 1 none, .startThreads 1, .countActive 1, .storeRunning 1,
      .countRunning 1, .stop 1, .countStopped 1, .clear false, .join 1]
    RunMeets step CollectsStarted State.initial labels ∧
      ∃ s, run step State.initial labels = some s ∧ s.joins = [1] ∧
        (s.session 1).stage = .complete ∧
        s.sessions.count 1 + s.toCleanup.count 1 + s.joining.count 1 = 1 := by
  intro labels
  have hmeets : RunMeets step CollectsStarted State.initial labels := by decide
  have h := session_set_tracks_threads hmeets rfl
  exact ⟨hmeets, _, rfl, rfl, h.1 1 (by decide), h.2.2.1 1 rfl⟩

/-- A RUNNING session that `clear` takes has left the set before it is joined, and
once it is stopped the active sessions are one fewer than the sessions not joined. -/
theorem cleared_session_leaves_set :
    let labels := [Label.insert 1 none, .startThreads 1, .countActive 1, .storeRunning 1,
      .countRunning 1, .clear true]
    ∃ s, run step State.initial labels = some s ∧ (s.session 1).state = .running ∧
      (s.session 1).joined = false ∧ 1 ∉ s.sessions ∧
      ∃ s', run step s [.stop 1, .countStopped 1] = some s' ∧
        (s'.session 1).unjoined = true ∧ s'.activeSessions = 0 := by
  exact ⟨_, rfl, rfl, rfl, by decide, _, rfl, rfl, rfl⟩

end LuminalShine.Rtsp.Sessions
