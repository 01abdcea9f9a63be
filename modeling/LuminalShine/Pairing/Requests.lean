import LuminalShine.Pairing.Session
import LuminalShine.Lib.Run

/-!
# Pairing requests

The critical sections that work on the pending exchanges: a `/pair` request, the two
halves of a PIN submission, the sweep that precedes every listing, and a reset.  Each
runs under `map_id_sess_mutex` and is one step; the HTTP writes come after it.  Clients
are removed from the authorised list under a mutex of its own.

## Main definitions

* `pair` — the `/pair` handler.
* `submitPin`, `deliver` — `submit_pin` before and after the write to the client.
* `Label`, `step` — the transition system they form.
-/

namespace LuminalShine.Pairing

variable {X509 : Type}

/-- The values of `phrase` the handler knows. -/
inductive Phrase where
  | getservercert
  | pairchallenge
  | other
  deriving DecidableEq, Repr

/-- The query values `pair` looks up. -/
structure Args where
  uniqueid : Option Bytes := none
  phrase : Option Phrase := none
  clientcert : Option Bytes := none
  salt : Option Bytes := none
  clientchallenge : Option Bytes := none
  serverchallengeresp : Option Bytes := none
  clientpairingsecret : Option Bytes := none
  deriving DecidableEq, Repr

/-- A `/pair` request: its query, the peer's normalised address, the response object, the
time, and what the generators and the console return while it is handled. -/
structure PairRequest where
  args : Args
  address : Bytes
  response : ℕ
  now : ℕ
  pairingId : Bytes := []
  deviceUuid : Bytes := []
  serversecret : Bytes := []
  serverchallenge : Bytes := []
  stdinPin : Bytes := []
  deriving DecidableEq, Repr

variable (C : Crypto X509) (conf : Config)

/-! ## `/pair` -/

/-- The end of phase one: the request's data goes into the session; the PIN is asked for
on the console, or the response is held until it is submitted. -/
def storePhaseOne (req : PairRequest) (clientCert salt : Bytes) (key : PairingKey)
    (sess : PairSession) (s : State X509) : State X509 :=
  let sess := { sess with
    cert := clientCert
    salt := salt
    phaseOneGeneration := sess.phaseOneGeneration + 1 }
  if conf.pinStdin then
    let s := { s with toCore := s.write key sess (.phaseOne clientCert salt) }
    let result := getservercert C conf req.now req.stdinPin key sess s
    result.1.answer (some req.response) result.2
  else
    let sess := { sess with response := some req.response }
    { s with toCore := s.write key sess (.phaseOne clientCert salt) }

/-- A phase-one request whose key has a session.  Once its PIN was applied only an exact
retransmission is answered, and nothing is replaced. -/
def retryPhaseOne (req : PairRequest) (clientCert salt : Bytes) (key : PairingKey)
    (sess : PairSession) (s : State X509) : State X509 :=
  let isRetry := phaseOneRetryMatches sess.clientAddress sess.cert sess.salt req.address
    clientCert salt sess.lastPhase
  if sess.lastPhase ≠ .none then
    if sess.lastPhase = .getservercert ∧ isRetry = true then
      let sess := { sess with
        phaseOneGeneration := sess.phaseOneGeneration + 1
        updatedAt := req.now }
      { s with toCore := s.write key sess .retried }.answer (some req.response)
        { paired := some 1, plaincert := some conf.servercert, statusCode := some 200 }
    else s.answer (some req.response) (.error 409 "Pairing exchange already in progress")
  else if isRetry = false then
    s.answer (some req.response) (.error 409 "Pairing request identity mismatch")
  else
    storePhaseOne C conf req clientCert salt key
      { sess with response := none, updatedAt := req.now }
      (s.answer sess.response (.error 409 "Pairing request superseded by retry"))

/-- A phase-one request whose key has none. -/
def openPhaseOne (req : PairRequest) (clientCert salt : Bytes) (key : PairingKey)
    (s : State X509) : State X509 :=
  if kMaxPendingPairings ≤ s.mapIdSess.entries.length then
    s.answer (some req.response) (.error 503 "Too many pending pairing requests")
  else if kMaxPendingPairingsPerPeer ≤
      s.inOrder.countP fun entry => entry.2.clientAddress = req.address then
    s.answer (some req.response) (.error 503 "Too many pending pairing requests from this peer")
  else
    storePhaseOne C conf req clientCert salt key
      { uniqueId := key.uniqueId
        pairingId := req.pairingId
        createdAt := req.now
        updatedAt := req.now
        clientAddress := key.address }
      { s with log := (key, .opened) :: s.log }

/-- `phrase=getservercert`.  A missing parameter makes `get_arg` throw, which leaves the
empty answer to the fail guard. -/
def pairPhaseOne (req : PairRequest) (key : PairingKey) (s : State X509) : State X509 :=
  match req.args.clientcert, req.args.salt with
  | some clientcert, some salt =>
      match s.mapIdSess.lookup key with
      | some sess => retryPhaseOne C conf req (fromHexVec clientcert) salt key sess s
      | none => openPhaseOne C conf req (fromHexVec clientcert) salt key s
  | _, _ => s.answer (some req.response) {}

/-- `detach_held_response`, then the phase function. -/
def invalidateThen (req : PairRequest) (sess : PairSession) (s : State X509)
    (phase : PairSession → State X509 → State X509 × Reply) : State X509 :=
  let s := s.answer sess.response (.error 400 "Pairing exchange invalidated")
  let result := phase { sess with response := none } s
  result.1.answer (some req.response) result.2

/-- Every other request: the session must exist, and the first of three parameters that
is present selects the phase. -/
def pairLaterPhase (req : PairRequest) (key : PairingKey) (s : State X509) : State X509 :=
  match s.mapIdSess.lookup key with
  | none =>
      s.answer (some req.response)
        { statusCode := some 400, statusMessage := some "Invalid uniqueid" }
  | some sess =>
      match req.args.clientchallenge, req.args.serverchallengeresp,
          req.args.clientpairingsecret with
      | some challenge, _, _ =>
          invalidateThen req sess s (clientchallenge C conf req.now (fromHexVec challenge)
            req.serversecret req.serverchallenge key)
      | none, some response, _ =>
          invalidateThen req sess s
            (serverchallengeresp C conf req.now (fromHexVec response) key)
      | none, none, some secret =>
          invalidateThen req sess s
            (clientpairingsecret C req.now (fromHexVec secret) req.deviceUuid key)
      | none, none, none =>
          s.answer (some req.response)
            { statusCode := some 404, statusMessage := some "Invalid pairing request" }

/-- `pair`. -/
def pair (req : PairRequest) (s : State X509) : State X509 :=
  match req.args.uniqueid with
  | none =>
      s.answer (some req.response)
        { statusCode := some 400, statusMessage := some "Missing uniqueid parameter" }
  | some uniqID =>
      let pendingKey : PairingKey := ⟨uniqID, req.address⟩
      let s := s.pruneExpiredPairings req.now
      match req.args.phrase with
      | some .getservercert => pairPhaseOne C conf req pendingKey s
      | some .pairchallenge =>
          s.answer (some req.response) { paired := some 1, statusCode := some 200 }
      | _ => pairLaterPhase C conf req pendingKey s

/-! ## `submit_pin` -/

inductive PinResult where
  | pinDelivered
  | alreadySubmitted
  | alreadyPaired
  | noPendingRequest
  | ambiguousRequest
  | unknownPairingId
  | expired
  | invalidPin
  | responseUnavailable
  | deliveryFailed
  | pairingFailed
  deriving DecidableEq, Repr

structure Candidate where
  pairingId : Bytes
  awaitingPin : Bool
  responseAvailable : Bool
  deriving DecidableEq, Repr

def outcomePinResult : PairingState → PinResult
  | .paired => .alreadyPaired
  | .expired => .expired
  | .failed => .pairingFailed
  | _ => .unknownPairingId

/-- Without an identifier the request must be the only one that waits for a PIN. -/
def selectCandidate (candidates : List Candidate) (pairingId : Option Bytes) :
    PinResult × Bytes :=
  let deliverTo (selected : Candidate) : PinResult × Bytes :=
    if selected.responseAvailable then (.pinDelivered, selected.pairingId)
    else (.responseUnavailable, selected.pairingId)
  match pairingId with
  | some (c :: cs) =>
      match candidates.find? fun candidate => candidate.pairingId = c :: cs with
      | none => (.unknownPairingId, c :: cs)
      | some selected =>
          if selected.awaitingPin then deliverTo selected
          else (.alreadySubmitted, selected.pairingId)
  | _ =>
      match candidates.filter (·.awaitingPin) with
      | [] => (.noPendingRequest, [])
      | [selected] => deliverTo selected
      | _ => (.ambiguousRequest, [])

/-- What is known about a request that is no longer pending. -/
def State.outcomeResult (s : State X509) (pairingId : Bytes) : PinResult :=
  match s.pairingOutcomes.lookup pairingId with
  | some outcome => outcomePinResult outcome.state
  | none => .unknownPairingId

/-- The session with this pairing identifier. -/
def State.findPairing (s : State X509) (pairingId : Bytes) : Option (PairingKey × PairSession) :=
  s.inOrder.find? fun entry => entry.2.pairingId = pairingId

/-- `submit_pin` up to the write of the answer, which becomes a `Delivery`. -/
def submitPin (pin name : Bytes) (pairingId : Option Bytes) (now : ℕ) (s : State X509) :
    State X509 × PinResult :=
  if validPin pin = false then (s, .invalidPin)
  else
    let s := s.pruneExpiredPairings now
    let selection := selectCandidate
      (s.inOrder.map fun entry =>
        ⟨entry.2.pairingId, entry.2.lastPhase = .none, entry.2.response.isSome⟩) pairingId
    match selection.1 with
    | .unknownPairingId => (s, s.outcomeResult (pairingId.getD []))
    | .pinDelivered =>
        match s.findPairing selection.2 with
        | none => (s, .unknownPairingId)
        | some (key, sess) =>
            let result := getservercert C conf now pin key
              { sess with response := none, name := trimCopy name } s
            ({ result.1 with
                deliveries := result.1.deliveries ++
                  [⟨sess.response, result.2, sess.pairingId, sess.phaseOneGeneration⟩] },
              if result.2.paired = some 1 then .pinDelivered else .pairingFailed)
    | refused => (s, refused)

/-- The critical section after a failed write: the session is deleted only while the
failed answer is still the current one. -/
def deliveryFailed (now : ℕ) (d : Delivery) (s : State X509) : State X509 × PinResult :=
  match s.findPairing d.pairingId with
  | some (key, sess) =>
      if phaseOneDeliveryIsCurrent sess.lastPhase sess.phaseOneGeneration
          d.phaseOneGeneration then
        let s := s.recordPairingOutcome now sess .failed []
        ({ s with toCore := s.close key }, .deliveryFailed)
      else (s, .alreadySubmitted)
  | none =>
      match s.outcomeResult d.pairingId with
      | .unknownPairingId => (s, .deliveryFailed)
      | result => (s, result)

/-! ## The system -/

/-- The pairing part of `reset_state`. -/
def resetPairings (s : State X509) : State X509 :=
  let s := s.inOrder.foldl (fun s entry =>
    { s.answer entry.2.response (.error 410 "Host pairing state was reset") with
      toCore := s.close entry.1 }) s
  { s with pairingOutcomes := ∅ }

/-- `deliver` is the write of a PIN answer and whether it succeeded; `sweep` is
`get_pairing_requests`.  The last two are the removals of `unpair_client`, `erase_all_clients` and
`reset_state` from the list in memory; what `unpair_client` loads behind its own, where clients of
the old format may come in again, is not one of them. -/
inductive Label where
  | pair (req : PairRequest)
  | submitPin (pin name : Bytes) (pairingId : Option Bytes) (now : ℕ)
  | deliver (d : Delivery) (delivered : Bool) (now : ℕ)
  | sweep (now : ℕ)
  | reset
  | unpairClient (uuid : Bytes)
  | eraseAllClients
  deriving DecidableEq, Repr

def step (s : State X509) : Label → Option (State X509)
  | .pair req => some (pair C conf req s)
  | .submitPin pin name pairingId now => some (submitPin C conf pin name pairingId now s).1
  | .deliver d delivered now =>
      if d ∈ s.deliveries then
        let s := { s with deliveries := s.deliveries.erase d }
        if delivered then some (s.answer d.response d.reply)
        else some (deliveryFailed now d s).1
      else none
  | .sweep now => some (s.pruneExpiredPairings now)
  | .reset => some (resetPairings s)
  | .unpairClient uuid => some { s with namedDevices := s.namedDevices.filter (·.uuid ≠ uuid) }
  | .eraseAllClients => some { s with namedDevices := [] }

/-- The clients authorised before the host started are whatever was loaded. -/
def State.initial (namedDevices : List NamedCert) (addCert : List X509) : State X509 where
  mapIdSess := ∅
  namedDevices := namedDevices
  addCert := addCert
  log := []
  pairingOutcomes := ∅
  outbox := []
  deliveries := []

end LuminalShine.Pairing
