import Mathlib.Data.List.AList
import Mathlib.Data.List.Sort
import Mathlib.Data.Nat.Notation

/-!
# Pending pairing exchanges

`src/nvhttp.cpp` keeps the exchanges that are not finished in `map_id_sess`, one
session for each pair of a client's `uniqueid` and the address it came from.  Four
phase functions move a session through the GameStream pairing protocol; each of them
deletes the session when it is called out of order or its data is unusable.

The cryptographic primitives are a parameter.  A held HTTP response is a number, the
clock of a critical section is read once, and what the random generator returned is an
argument.

## Main definitions

* `Crypto`, `Config` — the primitives and the host's own credentials.
* `PairSession` — `pair_session_t`.
* `Core`, `State` — the pending exchanges, the authorised clients and the rest.
* `getservercert`, `clientchallenge`, `serverchallengeresp`, `clientpairingsecret`.
-/

namespace LuminalShine.Pairing

abbrev Bytes := List UInt8

/-! ## Text helpers -/

/-- A character that `from_hex` takes for a digit: every letter qualifies, also beyond
`f`. -/
def isConvertable (ch : UInt8) : Bool :=
  (48 ≤ ch && ch ≤ 57) || (97 ≤ (ch ||| 32) && (ch ||| 32) ≤ 122)

def convert (ch : UInt8) : UInt8 :=
  if 48 ≤ ch && ch ≤ 57 then ch - 48 else (ch ||| 32) - 97 + 10

def joinDigits : Bytes → Bytes
  | l :: r :: rest => (l <<< 4 ||| r) :: joinDigits rest
  | _ => []

/-- `util::from_hex_vec(hex, true)`: the digits are paired from the end, so an odd one
at the front is dropped. -/
def fromHexVec (hex : Bytes) : Bytes :=
  let digits := (hex.filter isConvertable).map convert
  joinDigits (digits.drop (digits.length % 2))

/-- `util::from_hex<std::array<uint8_t, n>>(hex, true)`: missing bytes are zeros at the
front. -/
def fromHex (n : ℕ) (hex : Bytes) : Bytes :=
  List.replicate (n - (fromHexVec hex).length) 0 ++ fromHexVec hex

def isSpace (ch : UInt8) : Bool := ch = 32 || (9 ≤ ch && ch ≤ 13)

/-- `boost::algorithm::trim_copy`. -/
def trimCopy (value : Bytes) : Bytes :=
  ((value.dropWhile isSpace).reverse.dropWhile isSpace).reverse

/-! ## Data -/

/-- The primitives of `src/crypto.cpp`.  `x509` is absent when the text does not parse. -/
structure Crypto (X509 : Type) where
  hash : Bytes → Bytes
  encrypt : Bytes → Bytes → Bytes
  decrypt : Bytes → Bytes → Bytes
  x509 : Bytes → Option X509
  signature : X509 → Bytes
  sign256 : Bytes → Bytes → Bytes
  verify256 : X509 → Bytes → Bytes → Bool

/-- `crypto::gen_aes_key`. -/
def Crypto.genAesKey {X509 : Type} (C : Crypto X509) (salt pin : Bytes) : Bytes :=
  (C.hash (salt ++ pin)).take 16

/-- The key an exchange with this salt text and PIN works with. -/
def Crypto.exchangeKey {X509 : Type} (C : Crypto X509) (salt pin : Bytes) : Bytes :=
  C.genAesKey (fromHex 16 (salt.take 32)) pin

/-- `conf_intern` and the flag that moves the PIN prompt to the console. -/
structure Config where
  servercert : Bytes
  pkey : Bytes
  pinStdin : Bool
  deriving DecidableEq, Repr

inductive PairPhase where
  | none
  | getservercert
  | clientchallenge
  | serverchallengeresp
  | clientpairingsecret
  deriving DecidableEq, Repr

inductive PairingState where
  | pendingPin
  | awaitingClient
  | paired
  | failed
  | expired
  deriving DecidableEq, Repr

/-- `pairing_key_t`. -/
structure PairingKey where
  uniqueId : Bytes
  address : Bytes
  deriving DecidableEq, Repr

/-- The order of `std::map<pairing_key_t, …>`. -/
def PairingKey.le (a b : PairingKey) : Bool :=
  a.uniqueId < b.uniqueId || (a.uniqueId = b.uniqueId && !(b.address < a.address))

/-- `pair_session_t`; `response` is the HTTP response on hold. -/
structure PairSession where
  uniqueId : Bytes
  cert : Bytes := []
  name : Bytes := []
  cipherKey : Option Bytes := none
  clienthash : Bytes := []
  serversecret : Bytes := []
  serverchallenge : Bytes := []
  response : Option ℕ := none
  salt : Bytes := []
  pairingId : Bytes
  clientAddress : Bytes
  createdAt : ℕ
  updatedAt : ℕ
  phaseOneGeneration : ℕ := 0
  lastPhase : PairPhase := .none
  deriving DecidableEq, Repr

/-- The key `remove_session` computes from the session itself. -/
def PairSession.key (sess : PairSession) : PairingKey := ⟨sess.uniqueId, sess.clientAddress⟩

/-- `pairing_outcome_t`; the request's identifier is its key. -/
structure PairingOutcome where
  clientAddress : Bytes
  state : PairingState
  deviceUuid : Bytes
  updatedAt : ℕ
  deriving DecidableEq, Repr

/-- An entry of `client_root.named_devices`, as far as pairing fills it in. -/
structure NamedCert where
  name : Bytes
  cert : Bytes
  uuid : Bytes
  deriving DecidableEq, Repr

/-- The XML answer: `root.paired`, the two status attributes, and the bytes sent in
hexadecimal. -/
structure Reply where
  paired : Option ℕ := none
  statusCode : Option ℕ := none
  statusMessage : Option String := none
  plaincert : Option Bytes := none
  challengeresponse : Option Bytes := none
  pairingsecret : Option Bytes := none
  deriving DecidableEq, Repr

/-- `pairing_error_xml`, and the answers that look like it. -/
def Reply.error (statusCode : ℕ) (statusMessage : String) : Reply :=
  { paired := some 0, statusCode := some statusCode, statusMessage := some statusMessage }

/-- What happens to one pending exchange.  This is history: no handler reads it. -/
inductive Event where
  | opened
  | phaseOne (cert salt : Bytes)
  | pinApplied (pin cert salt : Bytes)
  | retried
  | clientChallenge (challenge serversecret serverchallenge : Bytes)
  | serverChallengeResp (encryptedResponse : Bytes)
  | clientPairingSecret (secret sign : Bytes)
  | closed
  deriving DecidableEq, Repr

/-- The part of the state that decides who gets authorised: `map_id_sess`,
`client_root.named_devices`, the `add_cert` queue, and the history, newest first. -/
structure Core (X509 : Type) where
  mapIdSess : AList fun _ : PairingKey => PairSession
  namedDevices : List NamedCert
  addCert : List X509
  log : List (PairingKey × Event)

/-- A PIN answer that is being written to its client, outside the lock. -/
structure Delivery where
  response : Option ℕ
  reply : Reply
  pairingId : Bytes
  phaseOneGeneration : ℕ
  deriving DecidableEq, Repr

/-- `outbox` holds the responses whose answer is written once the lock is released. -/
structure State (X509 : Type) extends Core X509 where
  pairingOutcomes : AList fun _ : Bytes => PairingOutcome
  outbox : List (ℕ × Reply)
  deliveries : List Delivery

variable {X509 : Type}

namespace Core

/-- Write a session back under its key, and say what it went through. -/
def write (c : Core X509) (key : PairingKey) (sess : PairSession) (event : Event) : Core X509 :=
  { c with mapIdSess := c.mapIdSess.insert key sess, log := (key, event) :: c.log }

/-- Erase the session under a key. -/
def close (c : Core X509) (key : PairingKey) : Core X509 :=
  { c with mapIdSess := c.mapIdSess.erase key, log := (key, .closed) :: c.log }

/-- `map_id_sess` in the order a C++ loop visits it. -/
def inOrder (c : Core X509) : List (PairingKey × PairSession) :=
  (c.mapIdSess.entries.map fun entry => (entry.1, entry.2)).insertionSort fun a b => a.1.le b.1

theorem mem_inOrder {c : Core X509} {key : PairingKey} {sess : PairSession} :
    (key, sess) ∈ c.inOrder ↔ c.mapIdSess.lookup key = some sess := by
  rw [inOrder, List.mem_insertionSort, List.mem_map, ← Option.mem_def, AList.mem_lookup_iff]
  constructor
  · rintro ⟨⟨k, v⟩, hmem, heq⟩
    cases heq
    exact hmem
  · intro hmem
    exact ⟨⟨key, sess⟩, hmem, rfl⟩

end Core

/-! ## `pairing_detail` -/

def kPairingSessionTtl : ℕ := 5 * 60 * 1000000000
def kPairingOutcomeTtl : ℕ := 5 * 60 * 1000000000
def kMaxPendingPairings : ℕ := 32
def kMaxPendingPairingsPerPeer : ℕ := 2
def kMaxPairingOutcomes : ℕ := 64

def validPin (pin : Bytes) : Bool := pin.length = 4 && pin.all fun c => 48 ≤ c && c ≤ 57

def sessionExpired (updatedAt now : ℕ) : Bool := kPairingSessionTtl ≤ now - updatedAt

/-- Before the PIN is consumed a retry may bring a fresh salt; afterwards the salt is
part of the exchange. -/
def phaseOneRetryMatches (expectedAddress expectedCertificate expectedSalt receivedAddress
    receivedCertificate receivedSalt : Bytes) (currentPhase : PairPhase) : Bool :=
  if expectedAddress = [] ∨ expectedAddress ≠ receivedAddress ∨
      expectedCertificate ≠ receivedCertificate then false
  else currentPhase = .none || expectedSalt = receivedSalt

def phaseOneDeliveryIsCurrent (currentPhase : PairPhase)
    (currentGeneration attemptedGeneration : ℕ) : Bool :=
  currentPhase = .getservercert && currentGeneration = attemptedGeneration

theorem cert_eq_of_phaseOneRetryMatches {a c s a' c' s' : Bytes} {phase : PairPhase}
    (h : phaseOneRetryMatches a c s a' c' s' phase = true) : c = c' := by
  simp only [phaseOneRetryMatches] at h
  split at h
  · cases h
  · rename_i hne
    by_contra hc
    exact hne (.inr (.inr hc))

/-! ## Outcomes and expiry -/

namespace State

/-- `record_pairing_outcome_locked`. -/
def recordPairingOutcome (s : State X509) (now : ℕ) (sess : PairSession) (state : PairingState)
    (deviceUuid : Bytes) : State X509 :=
  if sess.pairingId = [] then s
  else
    { s with
      pairingOutcomes :=
        s.pairingOutcomes.insert sess.pairingId ⟨sess.clientAddress, state, deviceUuid, now⟩ }

@[simp] theorem recordPairingOutcome_toCore (s : State X509) (now : ℕ) (sess : PairSession)
    (state : PairingState) (deviceUuid : Bytes) :
    (s.recordPairingOutcome now sess state deviceUuid).toCore = s.toCore := by
  simp only [recordPairingOutcome]
  split <;> rfl

/-- The entry `std::min_element` picks. -/
def oldestOutcome (outcomes : List (Sigma fun _ : Bytes => PairingOutcome)) : Option Bytes :=
  (outcomes.minOn? fun entry => entry.2.updatedAt).map (·.1)

/-- Erase the oldest outcomes until `kMaxPairingOutcomes` are left. -/
def dropOldest (outcomes : AList fun _ : Bytes => PairingOutcome) :
    ℕ → AList fun _ : Bytes => PairingOutcome
  | 0 => outcomes
  | fuel + 1 =>
      if outcomes.entries.length ≤ kMaxPairingOutcomes then outcomes
      else match oldestOutcome outcomes.entries with
        | none => outcomes
        | some id => dropOldest (outcomes.erase id) fuel

/-- `prune_pairing_outcomes_locked`. -/
def prunePairingOutcomes (s : State X509) (now : ℕ) : State X509 :=
  let fresh := s.pairingOutcomes.entries.foldl (fun kept entry =>
    if kPairingOutcomeTtl ≤ now - entry.2.updatedAt then kept.erase entry.1 else kept)
    s.pairingOutcomes
  { s with pairingOutcomes := dropOldest fresh fresh.entries.length }

/-- Answer a response that is no longer on hold, if there is one. -/
def answer (s : State X509) (response : Option ℕ) (reply : Reply) : State X509 :=
  { s with outbox := s.outbox ++ response.toList.map fun r => (r, reply) }

@[simp] theorem answer_toCore (s : State X509) (response : Option ℕ) (reply : Reply) :
    (s.answer response reply).toCore = s.toCore := rfl

/-- One expired session leaves the map. -/
def expire (now : ℕ) (s : State X509) (entry : PairingKey × PairSession) : State X509 :=
  let s := s.recordPairingOutcome now entry.2 .expired []
  { s.answer entry.2.response (.error 408 "Pairing request expired") with
    toCore := s.close entry.1 }

/-- `prune_expired_pairings_locked`, with `finish_expired_pairing_responses` queued. -/
def pruneExpiredPairings (s : State X509) (now : ℕ) : State X509 :=
  let s := s.prunePairingOutcomes now
  let s := (s.inOrder.filter fun entry => sessionExpired entry.2.updatedAt now).foldl
    (expire now) s
  s.prunePairingOutcomes now

/-! ## The four phases -/

/-- `remove_session`. -/
def removeSession (s : State X509) (sess : PairSession) : State X509 :=
  { s with toCore := s.close sess.key }

/-- Write a session back without a phase to report. -/
def put (s : State X509) (key : PairingKey) (sess : PairSession) : State X509 :=
  { s with mapIdSess := s.mapIdSess.insert key sess }

/-- `fail_pair`. -/
def failPair (s : State X509) (now : ℕ) (sess : PairSession) (statusMsg : String) :
    State X509 × Reply :=
  ((s.recordPairingOutcome now sess .failed []).removeSession sess, .error 400 statusMsg)

end State

variable (C : Crypto X509) (conf : Config)

/-- Phase one, once the PIN is known.  The session is the one stored under `key`. -/
def getservercert (now : ℕ) (pin : Bytes) (key : PairingKey) (sess : PairSession)
    (s : State X509) : State X509 × Reply :=
  if sess.lastPhase ≠ .none then
    (s.put key sess).failPair now sess "Out of order call to getservercert"
  else
    let sess := { sess with lastPhase := .getservercert, updatedAt := now }
    if sess.salt.length < 32 then (s.put key sess).failPair now sess "Salt too short"
    else
      let sess := { sess with cipherKey := some (C.exchangeKey sess.salt pin) }
      ({ s with toCore := s.write key sess (.pinApplied pin sess.cert sess.salt) },
        { paired := some 1, plaincert := some conf.servercert, statusCode := some 200 })

/-- Phase two.  `serversecret` and `serverchallenge` are fresh random bytes. -/
def clientchallenge (now : ℕ) (challenge serversecret serverchallenge : Bytes)
    (key : PairingKey) (sess : PairSession) (s : State X509) : State X509 × Reply :=
  if sess.lastPhase ≠ .getservercert then
    (s.put key sess).failPair now sess "Out of order call to clientchallenge"
  else
    let sess := { sess with lastPhase := .clientchallenge, updatedAt := now }
    match sess.cipherKey with
    | none => (s.put key sess).failPair now sess "Cipher key not set"
    | some cipherKey =>
        let sign := ((C.x509 conf.servercert).map C.signature).getD []
        let hash := C.hash (C.decrypt cipherKey challenge ++ sign ++ serversecret)
        let sess := { sess with serversecret := serversecret, serverchallenge := serverchallenge }
        ({ s with
            toCore := s.write key sess (.clientChallenge challenge serversecret serverchallenge) },
          { paired := some 1
            challengeresponse := some (C.encrypt cipherKey (hash ++ serverchallenge))
            statusCode := some 200 })

/-- Phase three. -/
def serverchallengeresp (now : ℕ) (encryptedResponse : Bytes)
    (key : PairingKey) (sess : PairSession) (s : State X509) : State X509 × Reply :=
  if sess.lastPhase ≠ .clientchallenge then
    (s.put key sess).failPair now sess "Out of order call to serverchallengeresp"
  else
    let sess := { sess with lastPhase := .serverchallengeresp, updatedAt := now }
    match sess.cipherKey with
    | none => (s.put key sess).failPair now sess "Cipher key or serversecret not set"
    | some cipherKey =>
        if sess.serversecret = [] then
          (s.put key sess).failPair now sess "Cipher key or serversecret not set"
        else
          let sess := { sess with clienthash := C.decrypt cipherKey encryptedResponse }
          ({ s with toCore := s.write key sess (.serverChallengeResp encryptedResponse) },
            { paired := some 1
              pairingsecret :=
                some (sess.serversecret ++ C.sign256 conf.pkey sess.serversecret)
              statusCode := some 200 })

/-- `add_authorized_client`, together with the certificate raised on `add_cert`. -/
def Core.addAuthorizedClient (c : Core X509) (x509 : X509) (client : NamedCert) : Core X509 :=
  { c with namedDevices := c.namedDevices ++ [client], addCert := c.addCert ++ [x509] }

/-- Phase four. -/
def clientpairingsecret (now : ℕ) (clientPairingSecret deviceUuid : Bytes)
    (key : PairingKey) (sess : PairSession) (s : State X509) : State X509 × Reply :=
  if sess.lastPhase ≠ .serverchallengeresp then
    (s.put key sess).failPair now sess "Out of order call to clientpairingsecret"
  else
    let sess := { sess with lastPhase := .clientpairingsecret, updatedAt := now }
    if clientPairingSecret.length ≤ 16 then
      (s.put key sess).failPair now sess "Client pairing secret too short"
    else
      let secret := clientPairingSecret.take 16
      let sign := clientPairingSecret.drop 16
      match C.x509 sess.cert with
      | none => (s.put key sess).failPair now sess "Invalid client certificate"
      | some x509 =>
          let hash := C.hash (sess.serverchallenge ++ C.signature x509 ++ secret)
          if hash = sess.clienthash ∧ C.verify256 x509 secret sign = true then
            let core := s.write key sess (.clientPairingSecret secret sign)
            let s := { s with
              toCore := core.addAuthorizedClient x509 ⟨sess.name, sess.cert, deviceUuid⟩ }
            ((s.recordPairingOutcome now sess .paired deviceUuid).removeSession sess,
              { paired := some 1, statusCode := some 200 })
          else
            (((s.put key sess).recordPairingOutcome now sess .failed []).removeSession sess,
              { paired := some 0, statusCode := some 200 })

end LuminalShine.Pairing
