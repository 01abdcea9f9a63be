import LuminalShine.Pairing.Authorisation
import LuminalShine.Lib.Assoc

/-!
# What changes hands in a critical section

A critical section moves sessions, outcomes, held responses and answers around.  The desk is
the part of the state they lie on, together with what the thread that works at it has in its
hand: the response of its own request, the identifier drawn for it, and the answers that
could not be written.

Every critical section is a chain of `Move`s at the desk (`step_moves`); what holds of every
move holds of every run.

## Main definitions

* `Desk`, `State.desk` — where things lie.
* `Move` — one hand-over.
* `Waits` — a held response belongs to an exchange that waits for its PIN.
* `step_moves` — critical sections are chains of moves.
-/

namespace LuminalShine.Pairing

open LuminalShine.Lib

variable {X509 : Type}

/-- The pending sessions, the outcomes, the answers and the deliveries, and the hand of the
thread at work. -/
structure Desk where
  sessions : AList fun _ : PairingKey => PairSession
  outcomes : AList fun _ : Bytes => PairingOutcome
  outbox : List (ℕ × Reply)
  deliveries : List Delivery
  inHand : List ℕ
  drawn : List Bytes
  lost : List ℕ

/-- The desk of a state. -/
def State.desk (s : State X509) (inHand : List ℕ) (drawn : List Bytes) (lost : List ℕ) : Desk :=
  ⟨s.mapIdSess, s.pairingOutcomes, s.outbox, s.deliveries, inHand, drawn, lost⟩

/-- The errors a held response is answered with. -/
def releaseReplies : List Reply :=
  [.error 409 "Pairing request superseded by retry", .error 408 "Pairing request expired",
    .error 400 "Pairing exchange invalidated", .error 410 "Host pairing state was reset"]

/-- The answers to a submitted PIN. -/
def pinReplies (conf : Config) : List Reply :=
  [{ paired := some 1, plaincert := some conf.servercert, statusCode := some 200 },
    .error 400 "Salt too short"]

/-- How many pending sessions an address has. -/
def peerPending (sessions : AList fun _ : PairingKey => PairSession) (address : Bytes) : ℕ :=
  sessions.entries.countP fun entry => entry.2.clientAddress = address

/-- Two sessions of one exchange. -/
structure SameIdentity (sess sess' : PairSession) : Prop where
  key : sess'.key = sess.key
  pairingId : sess'.pairingId = sess.pairingId

/-- One hand-over at the desk. -/
inductive Move (conf : Config) : Desk → Desk → Prop
  /-- An exchange goes on. -/
  | write (d : Desk) {key : PairingKey} {sess sess' : PairSession}
      (hlookup : d.sessions.lookup key = some sess) (hsame : SameIdentity sess sess')
      (hresponse : sess'.response = sess.response)
      (hwaits : sess'.response ≠ none → sess'.lastPhase = .none) :
      Move conf d { d with sessions := d.sessions.insert key sess' }
  /-- The request's response is put on hold. -/
  | hold (d : Desk) {key : PairingKey} {sess sess' : PairSession} {r : ℕ} {rest : List ℕ}
      (hlookup : d.sessions.lookup key = some sess) (hsame : SameIdentity sess sess')
      (hfree : sess.response = none) (hresponse : sess'.response = some r)
      (hwaits : sess'.lastPhase = .none) (hhand : d.inHand = r :: rest) :
      Move conf d { d with sessions := d.sessions.insert key sess', inHand := rest }
  /-- A held response is answered with an error. -/
  | release (d : Desk) {key : PairingKey} {sess : PairSession} {reply : Reply}
      (hlookup : d.sessions.lookup key = some sess) (hreply : reply ∈ releaseReplies) :
      Move conf d
        { d with
          sessions := d.sessions.insert key { sess with response := none }
          outbox := d.outbox ++ sess.response.toList.map fun r => (r, reply) }
  /-- A held response is taken to be answered with the outcome of a PIN. -/
  | send (d : Desk) {key : PairingKey} {sess : PairSession} {reply : Reply}
      (hlookup : d.sessions.lookup key = some sess)
      (hreply : sess.response ≠ none → reply ∈ pinReplies conf) :
      Move conf d
        { d with
          sessions := d.sessions.insert key { sess with response := none }
          deliveries := d.deliveries ++
            [⟨sess.response, reply, sess.pairingId, sess.phaseOneGeneration⟩] }
  /-- An exchange is opened within the limits. -/
  | opened (d : Desk) {sess : PairSession} {rest : List Bytes}
      (hlookup : d.sessions.lookup sess.key = none)
      (hlimit : d.sessions.entries.length < kMaxPendingPairings)
      (hpeer : peerPending d.sessions sess.clientAddress < kMaxPendingPairingsPerPeer)
      (hfree : sess.response = none) (hdrawn : d.drawn = sess.pairingId :: rest) :
      Move conf d { d with sessions := d.sessions.insert sess.key sess, drawn := rest }
  /-- An exchange that holds nothing is closed, and its outcome may be recorded. -/
  | retire (d : Desk) {key : PairingKey} {sess : PairSession} (outcome : Option PairingOutcome)
      (hlookup : d.sessions.lookup key = some sess) (hfree : sess.response = none) :
      Move conf d
        { d with
          sessions := d.sessions.erase key
          outcomes := outcome.elim d.outcomes fun o => d.outcomes.insert sess.pairingId o }
  /-- Outcomes are forgotten. -/
  | forget (d : Desk) {outcomes : AList fun _ : Bytes => PairingOutcome}
      (hsub : ∀ id, id ∈ outcomes → id ∈ d.outcomes) :
      Move conf d { d with outcomes := outcomes }
  /-- The request is answered. -/
  | reply (d : Desk) {r : ℕ} {rest : List ℕ} (reply : Reply) (hhand : d.inHand = r :: rest) :
      Move conf d { d with outbox := d.outbox ++ [(r, reply)], inHand := rest }
  /-- The answer to a PIN is written. -/
  | delivered (d : Desk) {delivery : Delivery} (hmem : delivery ∈ d.deliveries) :
      Move conf d
        { d with
          deliveries := d.deliveries.erase delivery
          outbox := d.outbox ++ delivery.response.toList.map fun r => (r, delivery.reply) }
  /-- The answer to a PIN cannot be written. -/
  | undelivered (d : Desk) {delivery : Delivery} (hmem : delivery ∈ d.deliveries) :
      Move conf d
        { d with
          deliveries := d.deliveries.erase delivery
          lost := d.lost ++ delivery.response.toList }

/-- A chain of moves. -/
abbrev Moves (conf : Config) : Desk → Desk → Prop := Relation.ReflTransGen (Move conf)

/-- A held response belongs to an exchange that waits for its PIN. -/
def Waits (sessions : AList fun _ : PairingKey => PairSession) : Prop :=
  ∀ key sess, sessions.lookup key = some sess → sess.response ≠ none → sess.lastPhase = .none

/-- Sessions are stored under their own keys. -/
def Keyed (sessions : AList fun _ : PairingKey => PairSession) : Prop :=
  ∀ key sess, sessions.lookup key = some sess → sess.key = key

/-! ## The phases -/

section Phases

variable {s s' : State X509} {key : PairingKey} {sess : PairSession}

/-- What a phase function does to the desk: the session is written back, or it is gone and
its outcome may be recorded. -/
structure PhaseEffect (key : PairingKey) (sess : PairSession) (s s' : State X509) : Prop where
  outbox : s'.outbox = s.outbox
  deliveries : s'.deliveries = s.deliveries
  session : (∃ sess', SameIdentity sess sess' ∧ sess'.response = sess.response ∧
      s'.mapIdSess = s.mapIdSess.insert key sess' ∧ s'.pairingOutcomes = s.pairingOutcomes) ∨
    s'.mapIdSess = s.mapIdSess.erase key ∧ ∃ outcome : Option PairingOutcome,
      s'.pairingOutcomes =
        outcome.elim s.pairingOutcomes fun o => s.pairingOutcomes.insert sess.pairingId o

/-- `record_pairing_outcome_locked` touches the outcomes only. -/
theorem recordPairingOutcome_eq (s : State X509) (now : ℕ) (sess : PairSession)
    (state : PairingState) (deviceUuid : Bytes) :
    ∃ outcome : Option PairingOutcome, s.recordPairingOutcome now sess state deviceUuid =
      { s with
        pairingOutcomes :=
          outcome.elim s.pairingOutcomes fun o => s.pairingOutcomes.insert sess.pairingId o } := by
  simp only [State.recordPairingOutcome]
  split
  · exact ⟨none, rfl⟩
  · exact ⟨some _, rfl⟩

/-- A phase that fails closes the exchange. -/
theorem failPair_phaseEffect {stored : PairSession} (now : ℕ) (hown : stored.key = key)
    (hid : stored.pairingId = sess.pairingId) (statusMsg : String) :
    PhaseEffect key sess s ((s.put key stored).failPair now stored statusMsg).1 := by
  obtain ⟨outcome, houtcome⟩ :=
    recordPairingOutcome_eq (s.put key stored) now stored .failed []
  subst hown
  rw [State.failPair, houtcome]
  refine ⟨rfl, rfl, .inr ⟨erase_insert_self _ _ _, outcome, ?_⟩⟩
  rw [← hid]
  rfl

variable (C : Crypto X509) (conf : Config) (s)

theorem getservercert_phaseEffect (hown : sess.key = key) (now : ℕ) (pin : Bytes) :
    PhaseEffect key sess s (getservercert C conf now pin key sess s).1 := by
  simp only [getservercert]
  split
  · exact failPair_phaseEffect now (by exact hown) (by rfl) _
  · split
    · exact failPair_phaseEffect now (by exact hown) (by rfl) _
    · exact ⟨rfl, rfl, .inl ⟨_, by exact ⟨rfl, rfl⟩, by rfl, rfl, rfl⟩⟩

theorem clientchallenge_phaseEffect (hown : sess.key = key) (now : ℕ)
    (challenge serversecret serverchallenge : Bytes) :
    PhaseEffect key sess s
      (clientchallenge C conf now challenge serversecret serverchallenge key sess s).1 := by
  simp only [clientchallenge]
  split
  · exact failPair_phaseEffect now (by exact hown) (by rfl) _
  · split
    · exact failPair_phaseEffect now (by exact hown) (by rfl) _
    · exact ⟨rfl, rfl, .inl ⟨_, by exact ⟨rfl, rfl⟩, by rfl, rfl, rfl⟩⟩

theorem serverchallengeresp_phaseEffect (hown : sess.key = key) (now : ℕ)
    (encryptedResponse : Bytes) :
    PhaseEffect key sess s
      (serverchallengeresp C conf now encryptedResponse key sess s).1 := by
  simp only [serverchallengeresp]
  split
  · exact failPair_phaseEffect now (by exact hown) (by rfl) _
  · split
    · exact failPair_phaseEffect now (by exact hown) (by rfl) _
    · split
      · exact failPair_phaseEffect now (by exact hown) (by rfl) _
      · exact ⟨rfl, rfl, .inl ⟨_, by exact ⟨rfl, rfl⟩, by rfl, rfl, rfl⟩⟩

/-- The last phase ends with the session gone, whether or not it authorises. -/
theorem clientpairingsecret_phaseEffect (hown : sess.key = key) (now : ℕ)
    (clientPairingSecret deviceUuid : Bytes) :
    PhaseEffect key sess s
      (clientpairingsecret C now clientPairingSecret deviceUuid key sess s).1 := by
  subst hown
  simp only [clientpairingsecret]
  split
  · exact failPair_phaseEffect now (by rfl) (by rfl) _
  · split
    · exact failPair_phaseEffect now (by rfl) (by rfl) _
    · split
      · exact failPair_phaseEffect now (by rfl) (by rfl) _
      · split
        · obtain ⟨outcome, houtcome⟩ := recordPairingOutcome_eq
            { s with
              toCore := (s.write sess.key { sess with
                  lastPhase := .clientpairingsecret, updatedAt := now }
                  (.clientPairingSecret (clientPairingSecret.take 16)
                    (clientPairingSecret.drop 16))).addAuthorizedClient _
                ⟨sess.name, sess.cert, deviceUuid⟩ }
            now { sess with lastPhase := .clientpairingsecret, updatedAt := now } .paired deviceUuid
          rw [houtcome]
          exact ⟨rfl, rfl, .inr ⟨erase_insert_self _ _ _, outcome, rfl⟩⟩
        · obtain ⟨outcome, houtcome⟩ := recordPairingOutcome_eq
            (s.put sess.key { sess with lastPhase := .clientpairingsecret, updatedAt := now })
            now { sess with lastPhase := .clientpairingsecret, updatedAt := now } .failed []
          rw [houtcome]
          exact ⟨rfl, rfl, .inr ⟨erase_insert_self _ _ _, outcome, rfl⟩⟩

end Phases

/-! ## Handlers are chains of moves -/

section Handlers

variable {C : Crypto X509} {conf : Config} {s s' : State X509} {key : PairingKey}
  {sess : PairSession} {hand : List ℕ} {drawn : List Bytes} {lost : List ℕ} {now : ℕ}

/-- The session under `key` is replaced; everything else lies as in `s`. -/
def State.deskWith (s : State X509) (key : PairingKey) (stored : PairSession) (hand : List ℕ)
    (drawn : List Bytes) (lost : List ℕ) : Desk :=
  { s.desk hand drawn lost with sessions := s.mapIdSess.insert key stored }

/-- A phase, from a desk where its session holds nothing. -/
theorem PhaseEffect.moves_of_desk (h : PhaseEffect key sess s s') {d : Desk}
    {stored : PairSession} (hsessions : d.sessions = s.mapIdSess.insert key stored)
    (houtcomes : d.outcomes = s.pairingOutcomes) (hsame : SameIdentity stored sess)
    (hstored : stored.response = none) (hfree : sess.response = none) :
    Moves conf d { d with sessions := s'.mapIdSess, outcomes := s'.pairingOutcomes } := by
  have hlookup : d.sessions.lookup key = some stored := by
    rw [hsessions]
    exact AList.lookup_insert _
  rcases h.session with ⟨sess', hsame', hresponse, hwritten, hkept⟩ |
    ⟨herased, outcome, hrecorded⟩
  · have hmove : Move conf d _ :=
      Move.write d hlookup ⟨hsame'.key.trans hsame.key, hsame'.pairingId.trans hsame.pairingId⟩
        (by rw [hresponse, hfree, hstored]) (fun hheld => absurd (hresponse.trans hfree) hheld)
    rw [hsessions, AList.insert_insert] at hmove
    rw [hwritten, hkept, ← houtcomes]
    exact .single hmove
  · have hmove : Move conf d _ := Move.retire d outcome hlookup hstored
    rw [hsessions, erase_insert_self] at hmove
    rw [herased, hrecorded, hsame.pairingId, ← houtcomes]
    exact .single hmove

theorem PhaseEffect.moves (h : PhaseEffect key sess s s') {stored : PairSession}
    (hsame : SameIdentity stored sess) (hstored : stored.response = none)
    (hfree : sess.response = none) :
    Moves conf (s.deskWith key stored hand drawn lost) (s'.desk hand drawn lost) := by
  have hdesk : s'.desk hand drawn lost =
      { s.deskWith key stored hand drawn lost with
        sessions := s'.mapIdSess, outcomes := s'.pairingOutcomes } := by
    simp only [State.desk, State.deskWith, h.outbox, h.deliveries]
  rw [hdesk]
  exact h.moves_of_desk rfl rfl hsame hstored hfree

/-- The request is answered from its own hand. -/
theorem answer_moves (s : State X509) (r : ℕ) (reply : Reply) :
    Moves conf (s.desk (r :: hand) drawn lost) ((s.answer (some r) reply).desk hand drawn lost) :=
  .single (.reply _ reply rfl)

/-- A held response is answered before its session goes on. -/
theorem release_moves (hlookup : s.mapIdSess.lookup key = some sess) {reply : Reply}
    (hreply : reply ∈ releaseReplies) :
    Moves conf (s.desk hand drawn lost)
      ((s.answer sess.response reply).deskWith key { sess with response := none } hand drawn
        lost) :=
  .single (.release _ hlookup hreply)

/-- A later phase first answers the response its session may still hold. -/
theorem invalidateThen_moves (hlookup : s.mapIdSess.lookup key = some sess) (req : PairRequest)
    (phase : PairSession → State X509 → State X509 × Reply)
    (hphase : ∀ s : State X509, PhaseEffect key { sess with response := none } s
      (phase { sess with response := none } s).1) :
    Moves conf (s.desk (req.response :: hand) drawn lost)
      ((invalidateThen req sess s phase).desk hand drawn lost) := by
  have hrelease : Moves conf (s.desk (req.response :: hand) drawn lost) _ :=
    release_moves hlookup
      (by decide : Reply.error 400 "Pairing exchange invalidated" ∈ releaseReplies)
  refine hrelease.trans ?_
  refine Relation.ReflTransGen.trans ((hphase _).moves ⟨rfl, rfl⟩ rfl rfl) ?_
  exact answer_moves _ _ _

theorem pairLaterPhase_moves (hkeyed : Keyed s.mapIdSess) (req : PairRequest)
    (key : PairingKey) :
    Moves conf (s.desk (req.response :: hand) drawn lost)
      ((pairLaterPhase C conf req key s).desk hand drawn lost) := by
  simp only [pairLaterPhase]
  split
  · exact answer_moves _ _ _
  · rename_i sess hlookup
    have hown : sess.key = key := hkeyed key sess hlookup
    split
    · exact invalidateThen_moves hlookup req _
        (fun s => clientchallenge_phaseEffect s C conf (by exact hown) _ _ _ _)
    · exact invalidateThen_moves hlookup req _
        (fun s => serverchallengeresp_phaseEffect s C conf (by exact hown) _ _)
    · exact invalidateThen_moves hlookup req _
        (fun s => clientpairingsecret_phaseEffect s C (by exact hown) _ _ _)
    · exact answer_moves _ _ _

/-! ### Phase one -/

/-- The end of phase one, from a desk where the session holds nothing. -/
theorem storePhaseOne_moves (req : PairRequest) (clientCert salt : Bytes) (hown : sess.key = key)
    (hfree : sess.response = none) (hphase : sess.lastPhase = .none) {stored : PairSession}
    (hsame : SameIdentity stored sess) (hstored : stored.response = none) :
    Moves conf (s.deskWith key stored (req.response :: hand) drawn lost)
      ((storePhaseOne C conf req clientCert salt key sess s).desk hand drawn lost) := by
  simp only [storePhaseOne]
  split
  · refine Relation.ReflTransGen.trans ?_ (answer_moves _ req.response _)
    set filled : PairSession := { sess with
      cert := clientCert
      salt := salt
      phaseOneGeneration := sess.phaseOneGeneration + 1 }
    set written : State X509 := { s with
      toCore := s.write key filled (.phaseOne clientCert salt) }
    have hdesk : s.deskWith key stored (req.response :: hand) drawn lost =
        written.deskWith key stored (req.response :: hand) drawn lost := by
      simp only [State.deskWith, State.desk, written, Core.write, AList.insert_insert]
    rw [hdesk]
    have hfilled : filled.key = key := hown
    exact (getservercert_phaseEffect written C conf hfilled req.now req.stdinPin).moves
      ⟨hsame.key, hsame.pairingId⟩ hstored hfree
  · set held : PairSession := { sess with
      cert := clientCert
      salt := salt
      phaseOneGeneration := sess.phaseOneGeneration + 1
      response := some req.response }
    have hheld : SameIdentity stored held := ⟨hsame.key, hsame.pairingId⟩
    have hmove : Move conf (s.deskWith key stored (req.response :: hand) drawn lost) _ :=
      Move.hold _ (AList.lookup_insert _) hheld hstored rfl hphase rfl
    rw [State.deskWith, AList.insert_insert] at hmove
    exact .single hmove

theorem retryPhaseOne_moves (hwaits : Waits s.mapIdSess) (hown : sess.key = key)
    (hlookup : s.mapIdSess.lookup key = some sess) (req : PairRequest) (clientCert salt : Bytes) :
    Moves conf (s.desk (req.response :: hand) drawn lost)
      ((retryPhaseOne C conf req clientCert salt key sess s).desk hand drawn lost) := by
  simp only [retryPhaseOne]
  split
  · split
    · refine Relation.ReflTransGen.trans (.single ?_) (answer_moves _ req.response _)
      exact Move.write _ hlookup (by exact ⟨rfl, rfl⟩) (by rfl) (hwaits key sess hlookup)
    · exact answer_moves _ _ _
  · rename_i hphase
    split
    · exact answer_moves _ _ _
    · have hrelease : Moves conf (s.desk (req.response :: hand) drawn lost) _ :=
        release_moves hlookup
          (by decide : Reply.error 409 "Pairing request superseded by retry" ∈ releaseReplies)
      refine hrelease.trans ?_
      exact storePhaseOne_moves req clientCert salt (by exact hown) (by rfl)
        (by exact not_not.mp hphase) (by exact ⟨rfl, rfl⟩) (by rfl)

/-- Counting in the order of the map is counting. -/
theorem countP_inOrder (s : State X509) (address : Bytes) :
    (s.inOrder.countP fun entry => entry.2.clientAddress = address) =
      peerPending s.mapIdSess address := by
  rw [Core.inOrder, (List.perm_insertionSort _ _).countP_eq, List.countP_map]
  rfl

theorem openPhaseOne_moves (req : PairRequest) (haddress : key.address = req.address)
    (hlookup : s.mapIdSess.lookup key = none) (clientCert salt : Bytes) :
    ∃ rest, Moves conf (s.desk (req.response :: hand) [req.pairingId] lost)
      ((openPhaseOne C conf req clientCert salt key s).desk hand rest lost) := by
  simp only [openPhaseOne]
  split
  · exact ⟨_, answer_moves _ _ _⟩
  · rename_i hlimit
    split
    · exact ⟨_, answer_moves _ _ _⟩
    · rename_i hpeer
      rw [countP_inOrder, ← haddress] at hpeer
      set fresh : PairSession :=
        { uniqueId := key.uniqueId
          pairingId := req.pairingId
          createdAt := req.now
          updatedAt := req.now
          clientAddress := key.address }
      have hfresh : fresh.key = key := rfl
      have hnone : (s.desk (req.response :: hand) [req.pairingId] lost).sessions.lookup fresh.key =
          none := hlookup
      have hopened : Move conf (s.desk (req.response :: hand) [req.pairingId] lost) _ :=
        Move.opened _ hnone (Nat.lt_of_not_le hlimit) (Nat.lt_of_not_le hpeer) rfl rfl
      refine ⟨[], Relation.ReflTransGen.head hopened ?_⟩
      have hsame : SameIdentity fresh fresh := ⟨rfl, rfl⟩
      let opened : State X509 := { s with log := (key, .opened) :: s.log }
      have hstore : Moves conf (opened.deskWith key fresh (req.response :: hand) [] lost)
          ((storePhaseOne C conf req clientCert salt key fresh opened).desk hand [] lost) :=
        storePhaseOne_moves req clientCert salt hfresh rfl rfl hsame rfl
      exact hstore

theorem pairPhaseOne_moves (hwaits : Waits s.mapIdSess) (hkeyed : Keyed s.mapIdSess)
    (req : PairRequest) (haddress : key.address = req.address) :
    ∃ rest, Moves conf (s.desk (req.response :: hand) [req.pairingId] lost)
      ((pairPhaseOne C conf req key s).desk hand rest lost) := by
  simp only [pairPhaseOne]
  split
  · split
    · rename_i sess hlookup
      exact ⟨_, retryPhaseOne_moves hwaits (hkeyed key sess hlookup) hlookup req _ _⟩
    · rename_i hlookup
      exact openPhaseOne_moves req haddress hlookup _ _
  · exact ⟨_, answer_moves _ _ _⟩

/-! ### Sweeps -/

theorem mem_dropOldest {outcomes : AList fun _ : Bytes => PairingOutcome} {fuel : ℕ} {id : Bytes}
    (h : id ∈ State.dropOldest outcomes fuel) : id ∈ outcomes := by
  induction fuel generalizing outcomes with
  | zero => exact h
  | succ fuel ih =>
      rw [State.dropOldest] at h
      split at h
      · exact h
      · split at h
        · exact h
        · exact (AList.mem_erase.mp (ih h)).2

theorem mem_foldl_erase {p : (Sigma fun _ : Bytes => PairingOutcome) → Prop} [DecidablePred p]
    (entries : List (Sigma fun _ : Bytes => PairingOutcome))
    {outcomes : AList fun _ : Bytes => PairingOutcome} {id : Bytes}
    (h : id ∈ entries.foldl (fun kept entry => if p entry then kept.erase entry.1 else kept)
      outcomes) : id ∈ outcomes := by
  induction entries generalizing outcomes with
  | nil => exact h
  | cons entry entries ih =>
      have hnext := ih h
      dsimp only at hnext
      split at hnext
      · exact (AList.mem_erase.mp hnext).2
      · exact hnext

theorem prunePairingOutcomes_moves (s : State X509) (now : ℕ) :
    Moves conf (s.desk hand drawn lost) ((s.prunePairingOutcomes now).desk hand drawn lost) := by
  refine .single (Move.forget _ ?_)
  intro id hid
  exact mem_foldl_erase _ (mem_dropOldest hid)

/-- A loop that closes the sessions it visits. -/
theorem foldl_moves (body : State X509 → PairingKey × PairSession → State X509)
    (hbody : ∀ s entry, s.mapIdSess.lookup entry.1 = some entry.2 →
      Moves conf (s.desk hand drawn lost) ((body s entry).desk hand drawn lost) ∧
        (body s entry).mapIdSess = s.mapIdSess.erase entry.1)
    (entries : List (PairingKey × PairSession)) (hnodup : (entries.map Prod.fst).Nodup)
    (s : State X509) (hmem : ∀ entry ∈ entries, s.mapIdSess.lookup entry.1 = some entry.2) :
    Moves conf (s.desk hand drawn lost) ((entries.foldl body s).desk hand drawn lost) := by
  induction entries generalizing s with
  | nil => exact .refl
  | cons entry entries ih =>
      obtain ⟨hnot, hrest⟩ := List.nodup_cons.mp hnodup
      obtain ⟨hmoves, herase⟩ := hbody s entry (hmem entry (List.mem_cons_self ..))
      refine hmoves.trans (ih hrest (body s entry) ?_)
      intro entry' hentry'
      have hne : entry'.1 ≠ entry.1 := by
        intro heq
        exact hnot (heq ▸ List.mem_map_of_mem hentry')
      rw [herase, AList.lookup_erase_ne hne]
      exact hmem entry' (List.mem_cons_of_mem _ hentry')

/-- The map holds a key once. -/
theorem nodup_inOrder (s : State X509) : (s.inOrder.map Prod.fst).Nodup := by
  have hperm : (s.inOrder.map Prod.fst).Perm s.mapIdSess.keys := by
    refine ((List.perm_insertionSort _ _).map Prod.fst).trans ?_
    rw [List.map_map]
    exact List.Perm.refl _
  exact hperm.nodup_iff.mpr s.mapIdSess.keys_nodup

theorem expire_moves (now : ℕ) (s : State X509) (entry : PairingKey × PairSession)
    (hlookup : s.mapIdSess.lookup entry.1 = some entry.2) :
    Moves conf (s.desk hand drawn lost) ((State.expire now s entry).desk hand drawn lost) ∧
      (State.expire now s entry).mapIdSess = s.mapIdSess.erase entry.1 := by
  obtain ⟨outcome, houtcome⟩ := recordPairingOutcome_eq s now entry.2 .expired []
  have hrelease : Moves conf (s.desk hand drawn lost) _ := release_moves hlookup
    (by decide : Reply.error 408 "Pairing request expired" ∈ releaseReplies)
  refine ⟨hrelease.trans ?_, ?_⟩
  · have hmove : Move conf ((s.answer entry.2.response
        (.error 408 "Pairing request expired")).deskWith entry.1
          { entry.2 with response := none } hand drawn lost) _ :=
      Move.retire _ outcome (AList.lookup_insert _) rfl
    rw [State.deskWith, erase_insert_self] at hmove
    rw [State.expire, houtcome]
    exact .single hmove
  · rw [State.expire, houtcome]
    rfl

theorem pruneExpiredPairings_moves (s : State X509) (now : ℕ) :
    Moves conf (s.desk hand drawn lost) ((s.pruneExpiredPairings now).desk hand drawn lost) := by
  refine (prunePairingOutcomes_moves s now).trans ?_
  refine Relation.ReflTransGen.trans ?_ (prunePairingOutcomes_moves _ now)
  refine foldl_moves (State.expire now) (expire_moves now) _ ?_ _ ?_
  · exact (nodup_inOrder _).sublist (List.filter_sublist.map Prod.fst)
  · intro entry hentry
    exact Core.mem_inOrder.mp (List.mem_filter.mp hentry).1

theorem resetPairings_moves (s : State X509) :
    Moves conf (s.desk hand drawn lost) ((resetPairings s).desk hand drawn lost) := by
  refine Relation.ReflTransGen.tail (foldl_moves _ ?_ s.inOrder (nodup_inOrder s) s ?_)
    (Move.forget _ ?_)
  · intro s entry hlookup
    have hrelease : Moves conf (s.desk hand drawn lost) _ := release_moves hlookup
      (by decide : Reply.error 410 "Host pairing state was reset" ∈ releaseReplies)
    refine ⟨hrelease.trans ?_, rfl⟩
    have hmove : Move conf ((s.answer entry.2.response
        (.error 410 "Host pairing state was reset")).deskWith entry.1
          { entry.2 with response := none } hand drawn lost) _ :=
      Move.retire _ none (AList.lookup_insert _) rfl
    rw [State.deskWith, erase_insert_self] at hmove
    exact .single hmove
  · intro entry hentry
    exact Core.mem_inOrder.mp hentry
  · intro id hid
    exact absurd hid (AList.notMem_empty id)

/-! ### PIN submissions -/

/-- Phase one answers a waiting client with the certificate, or with an error. -/
theorem getservercert_reply (hphase : sess.lastPhase = .none) (now : ℕ) (pin : Bytes)
    (s : State X509) : (getservercert C conf now pin key sess s).2 ∈ pinReplies conf := by
  simp only [getservercert, hphase, ne_eq, not_true_eq_false, if_false]
  split
  · exact List.mem_cons_of_mem _ (List.mem_singleton_self _)
  · exact List.mem_cons_self ..

/-- The held response is taken, and phase one runs on the session without it. -/
theorem sendPin_moves (hlookup : s.mapIdSess.lookup key = some sess)
    (hwaits : sess.response ≠ none → sess.lastPhase = .none) (hown : sess.key = key)
    (pin name : Bytes) :
    let result := getservercert C conf now pin key
      { sess with response := none, name := trimCopy name } s
    let delivery : Delivery :=
      ⟨sess.response, result.2, sess.pairingId, sess.phaseOneGeneration⟩
    Moves conf (s.desk hand drawn lost)
      ({ result.1 with deliveries := result.1.deliveries ++ [delivery] }.desk hand drawn lost) := by
  set taken : PairSession := { sess with response := none, name := trimCopy name }
  have htaken : taken.key = key := hown
  have heffect := getservercert_phaseEffect s C conf htaken now pin
  intro result delivery
  let sent : State X509 := { s with deliveries := s.deliveries ++ [delivery] }
  let stored : PairSession := { sess with response := none }
  have hsend : Move conf (s.desk hand drawn lost) (sent.deskWith key stored hand drawn lost) :=
    Move.send _ hlookup (fun hheld => getservercert_reply (by exact hwaits hheld) _ _ _)
  have hphase : Moves conf (sent.deskWith key stored hand drawn lost)
      { sent.deskWith key stored hand drawn lost with
        sessions := result.1.mapIdSess, outcomes := result.1.pairingOutcomes } :=
    heffect.moves_of_desk rfl rfl ⟨rfl, rfl⟩ rfl rfl
  have hdesk : { result.1 with deliveries := result.1.deliveries ++ [delivery] }.desk
      hand drawn lost =
      { sent.deskWith key stored hand drawn lost with
        sessions := result.1.mapIdSess, outcomes := result.1.pairingOutcomes } := by
    simp only [State.desk, State.deskWith, heffect.outbox, heffect.deliveries, result, sent]
  rw [hdesk]
  exact .head hsend hphase

theorem submitPin_moves (hpruned : Waits (s.pruneExpiredPairings now).mapIdSess)
    (hkeyed : Keyed (s.pruneExpiredPairings now).mapIdSess) (pin name : Bytes)
    (pairingId : Option Bytes) :
    Moves conf (s.desk hand drawn lost)
      ((submitPin C conf pin name pairingId now s).1.desk hand drawn lost) := by
  have hprune : Moves conf (s.desk hand drawn lost)
      ((s.pruneExpiredPairings now).desk hand drawn lost) := pruneExpiredPairings_moves s now
  simp only [submitPin]
  split
  · exact .refl
  · split
    · exact hprune
    · split
      · exact hprune
      · rename_i key sess hfind
        have hlookup : (s.pruneExpiredPairings now).mapIdSess.lookup key = some sess :=
          Core.mem_inOrder.mp (List.mem_of_find?_eq_some hfind)
        refine hprune.trans ?_
        exact sendPin_moves hlookup (hpruned key sess hlookup) (hkeyed key sess hlookup) pin name
    · exact hprune

/-- A failed delivery closes its exchange only while it is the current one. -/
theorem deliveryFailed_moves (hwaits : Waits s.mapIdSess) (now : ℕ) (delivery : Delivery) :
    Moves conf (s.desk hand drawn lost)
      ((deliveryFailed now delivery s).1.desk hand drawn lost) := by
  simp only [deliveryFailed]
  split
  · rename_i key sess hfind
    have hlookup : s.mapIdSess.lookup key = some sess :=
      Core.mem_inOrder.mp (List.mem_of_find?_eq_some hfind)
    split
    · rename_i hcurrent
      have hphase : sess.lastPhase = .getservercert := by
        simp only [phaseOneDeliveryIsCurrent, Bool.and_eq_true, decide_eq_true_iff] at hcurrent
        exact hcurrent.1
      have hfree : sess.response = none := by
        by_contra hheld
        rw [hwaits key sess hlookup hheld] at hphase
        cases hphase
      obtain ⟨outcome, houtcome⟩ := recordPairingOutcome_eq s now sess .failed []
      rw [houtcome]
      exact .single (Move.retire _ outcome hlookup hfree)
    · exact .refl
  · split <;> exact .refl

end Handlers

/-! ## Moves keep sessions keyed and waiting -/

section Kept

variable {conf : Config} {d d' : Desk}

theorem Move.waits (h : Move conf d d') (hwaits : Waits d.sessions) : Waits d'.sessions := by
  cases h with
  | write _ _ _ hkept => exact forall_insert hwaits hkept
  | hold _ _ _ _ hnone _ => exact forall_insert hwaits fun _ => hnone
  | release _ _ => exact forall_insert hwaits fun hheld => absurd rfl hheld
  | send _ _ => exact forall_insert hwaits fun hheld => absurd rfl hheld
  | opened _ _ _ hfree _ => exact forall_insert hwaits fun hheld => absurd hfree hheld
  | retire _ _ => exact forall_erase hwaits
  | forget | reply | delivered | undelivered => exact hwaits

/-- What a move does to the sessions: nothing, or it replaces one by another of the same
identity, opens one within the limits, or takes one away. -/
theorem Move.sessions_cases (h : Move conf d d') :
    d'.sessions = d.sessions ∨
      (∃ key sess sess', d.sessions.lookup key = some sess ∧ SameIdentity sess sess' ∧
        d'.sessions = d.sessions.insert key sess') ∨
      (∃ sess : PairSession, d.sessions.lookup sess.key = none ∧
        d.sessions.entries.length < kMaxPendingPairings ∧
        peerPending d.sessions sess.clientAddress < kMaxPendingPairingsPerPeer ∧
        d'.sessions = d.sessions.insert sess.key sess) ∨
      ∃ key, d'.sessions = d.sessions.erase key := by
  cases h with
  | write hlookup hsame _ _ => exact .inr (.inl ⟨_, _, _, hlookup, hsame, rfl⟩)
  | hold hlookup hsame _ _ _ _ => exact .inr (.inl ⟨_, _, _, hlookup, hsame, rfl⟩)
  | release hlookup _ => exact .inr (.inl ⟨_, _, _, hlookup, by exact ⟨rfl, rfl⟩, rfl⟩)
  | send hlookup _ => exact .inr (.inl ⟨_, _, _, hlookup, by exact ⟨rfl, rfl⟩, rfl⟩)
  | opened hlookup hlimit hpeer _ _ =>
      exact .inr (.inr (.inl ⟨_, hlookup, hlimit, hpeer, rfl⟩))
  | retire _ _ => exact .inr (.inr (.inr ⟨_, rfl⟩))
  | forget | reply | delivered | undelivered => exact .inl rfl

theorem Move.keyed (h : Move conf d d') (hkeyed : Keyed d.sessions) : Keyed d'.sessions := by
  rcases h.sessions_cases with hsame | ⟨key, sess, sess', hlookup, hsame, hnext⟩ |
    ⟨sess, -, -, -, hnext⟩ | ⟨key, hnext⟩
  · exact hsame ▸ hkeyed
  · rw [hnext]
    exact forall_insert hkeyed (hsame.key.trans (hkeyed key sess hlookup))
  · rw [hnext]
    exact forall_insert hkeyed rfl
  · rw [hnext]
    exact forall_erase hkeyed

/-- **What every move keeps, a chain of moves keeps.** -/
theorem Moves.induct {P : Desk → Prop} (hmove : ∀ d d', Move conf d d' → P d → P d')
    (h : Moves conf d d') (hd : P d) : P d' := by
  induction h with
  | refl => exact hd
  | tail _ hlast ih => exact hmove _ _ hlast ih

theorem Moves.waits (h : Moves conf d d') (hwaits : Waits d.sessions) : Waits d'.sessions :=
  Moves.induct (P := fun d => Waits d.sessions) (fun _ _ hm => hm.waits) h hwaits

theorem Moves.keyed (h : Moves conf d d') (hkeyed : Keyed d.sessions) : Keyed d'.sessions :=
  Moves.induct (P := fun d => Keyed d.sessions) (fun _ _ hm => hm.keyed) h hkeyed

end Kept

/-! ## Critical sections -/

/-- The response a label brings. -/
def Label.responses : Label → List ℕ
  | .pair req => [req.response]
  | _ => []

/-- The identifier drawn for it. -/
def Label.drawn : Label → List Bytes
  | .pair req => [req.pairingId]
  | _ => []

/-- The response whose answer it fails to write. -/
def Label.undelivered : Label → List ℕ
  | .deliver delivery false _ => delivery.response.toList
  | _ => []

/-- **Every critical section is a chain of moves**, from a hand with what the label brings to
an empty one. -/
theorem step_moves {C : Crypto X509} {conf : Config} {s s' : State X509} {label : Label}
    (hwaits : Waits s.mapIdSess) (hkeyed : Keyed s.mapIdSess)
    (hstep : step C conf s label = some s') :
    ∃ rest, Moves conf (s.desk label.responses label.drawn [])
      (s'.desk [] rest label.undelivered) := by
  cases label with
  | pair req =>
      obtain rfl : pair C conf req s = s' := Option.some.inj hstep
      simp only [pair, Label.responses, Label.drawn, Label.undelivered]
      split
      · exact ⟨_, answer_moves _ _ _⟩
      · rename_i uniqID _
        have haddress : (⟨uniqID, req.address⟩ : PairingKey).address = req.address := rfl
        have hprune : Moves conf (s.desk [req.response] [req.pairingId] [])
            ((s.pruneExpiredPairings req.now).desk [req.response] [req.pairingId] []) :=
          pruneExpiredPairings_moves s req.now
        have hpruned := hprune.waits hwaits
        have hstored := hprune.keyed hkeyed
        split
        · obtain ⟨rest, hmoves⟩ := pairPhaseOne_moves hpruned hstored req haddress
          exact ⟨rest, hprune.trans hmoves⟩
        · exact ⟨_, hprune.trans (answer_moves _ _ _)⟩
        · exact ⟨_, hprune.trans (pairLaterPhase_moves hstored req _)⟩
  | submitPin pin name pairingId now =>
      obtain rfl := Option.some.inj hstep
      have hprune : Moves conf (s.desk [] [] []) ((s.pruneExpiredPairings now).desk [] [] []) :=
        pruneExpiredPairings_moves s now
      exact ⟨_, submitPin_moves (hprune.waits hwaits) (hprune.keyed hkeyed) pin name pairingId⟩
  | deliver delivery delivered now =>
      simp only [step] at hstep
      split at hstep
      · rename_i hmem
        split at hstep
        · rename_i hdelivered
          obtain rfl := Option.some.inj hstep
          rw [hdelivered]
          exact ⟨_, .single (Move.delivered _ hmem)⟩
        · rename_i hfailed
          obtain rfl := Option.some.inj hstep
          rw [Bool.not_eq_true] at hfailed
          rw [hfailed]
          let taken : State X509 := { s with deliveries := s.deliveries.erase delivery }
          have hfailure : Moves conf (taken.desk [] [] delivery.response.toList)
              ((deliveryFailed now delivery taken).1.desk [] [] delivery.response.toList) :=
            deliveryFailed_moves (by exact hwaits) now delivery
          exact ⟨[], .head (Move.undelivered _ hmem) hfailure⟩
      · cases hstep
  | sweep now =>
      obtain rfl := Option.some.inj hstep
      exact ⟨_, pruneExpiredPairings_moves s now⟩
  | reset =>
      obtain rfl := Option.some.inj hstep
      exact ⟨_, resetPairings_moves s⟩
  | unpairClient uuid =>
      obtain rfl := Option.some.inj hstep
      exact ⟨_, .refl⟩
  | eraseAllClients =>
      obtain rfl := Option.some.inj hstep
      exact ⟨_, .refl⟩

/-- Every reachable state has its sessions keyed and waiting. -/
theorem kept_of_run {C : Crypto X509} {conf : Config} {namedDevices : List NamedCert}
    {addCert : List X509} {labels : List Label} {s : State X509}
    (hrun : run (step C conf) (State.initial namedDevices addCert) labels = some s) :
    Waits s.mapIdSess ∧ Keyed s.mapIdSess := by
  refine run_invariant (P := fun s : State X509 => Waits s.mapIdSess ∧ Keyed s.mapIdSess)
    ?_ ?_ hrun
  · intro s label s' hs hstep
    obtain ⟨rest, hmoves⟩ := step_moves hs.1 hs.2 hstep
    exact ⟨hmoves.waits hs.1, hmoves.keyed hs.2⟩
  · constructor <;> intro key sess hlookup <;> simp [State.initial] at hlookup

end LuminalShine.Pairing
