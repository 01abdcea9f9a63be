import LuminalShine.Lib.Assoc
import LuminalShine.Lib.Run
import Mathlib.Data.List.Nodup

/-!
# The certificates of the peers

The store of `src/nvhttp.cpp` that files the certificate of a verified handshake under the
endpoint of its connection.  A map holds the certificates and a queue the order of their
endpoints; the oldest endpoint leaves both when there are too many.

An endpoint may come back with another connection.  Then the certificate is replaced, and the
endpoint keeps its place in the queue.

## Main definitions

* `storePeerCertificate`, `certificateFor` — the source's functions.
* `verify` — the callback that runs after a handshake.
* `Sound` — the map, the queue, and what a request is told.

## Main results

* `peerCerts_sound` — after any handshakes and requests.
* `certificateFor_stored` — a certificate is found right after it was stored.
-/

namespace LuminalShine.Pairing.PeerCerts

open LuminalShine.Lib

/-! ## Endpoints -/

inductive Address where
  | v4 (bytes : BitVec 32)
  | v6 (bytes : BitVec 128) (scope : ℕ)
  deriving DecidableEq, Repr

def Address.isUnspecified : Address → Bool
  | .v4 bytes => bytes = 0
  | .v6 bytes _ => bytes = 0

structure Endpoint where
  address : Address
  port : UInt16
  deriving DecidableEq, Repr

/-- `is_usable_peer_key` -/
def isUsablePeerKey (ep : Endpoint) : Bool := !ep.address.isUnspecified && ep.port ≠ 0

/-! ## The store -/

def kMaxTrackedPeerCerts : ℕ := 64

variable {Cert : Type}

/-- `peer_certs` and `peer_cert_order` -/
structure Store (Cert : Type) where
  certs : AList fun _ : Endpoint => Cert
  order : List Endpoint

namespace Store

def empty : Store Cert := ⟨∅, []⟩

/-- The loop that evicts. -/
def evict (certs : AList fun _ : Endpoint => Cert) : List Endpoint → Store Cert
  | [] => ⟨certs, []⟩
  | front :: rest =>
      if kMaxTrackedPeerCerts < (front :: rest).length then evict (certs.erase front) rest
      else ⟨certs, front :: rest⟩

/-- `store_peer_certificate` -/
def storePeerCertificate (s : Store Cert) (ep : Endpoint) (cert : Option Cert) : Store Cert :=
  if !isUsablePeerKey ep then s
  else match cert with
    | none => s
    | some cert =>
        evict (s.certs.insert ep cert) (if ep ∈ s.certs then s.order else s.order ++ [ep])

/-- The look-up of `get_client_uuid_from_request`. -/
def certificateFor (s : Store Cert) (ep : Endpoint) : Option Cert :=
  if !isUsablePeerKey ep then none else s.certs.lookup ep

/-- `get_client_uuid_from_request`; `uuidOf` is `get_client_uuid_from_peer_cert`. -/
def clientUuid (s : Store Cert) (uuidOf : Cert → String) (ep : Endpoint) : String :=
  match s.certificateFor ep with
  | none => ""
  | some cert => uuidOf cert

end Store

/-- A handshake: the peer's certificate, whether the chain accepts it, and the paired client it is
found to be of. -/
structure Handshake (Cert : Type) where
  peer : Endpoint
  cert : Option Cert
  chainAccepts : Bool
  uuid : String

/-- The callback `verify` of the server, and what it returns. -/
def verify (s : Store Cert) (h : Handshake Cert) : Store Cert × Bool :=
  if h.cert.isNone then (s, false)
  else if !h.chainAccepts then (s, false)
  else if h.uuid = "" then (s, false)
  else (s.storePeerCertificate h.peer h.cert, true)

/-! ## The invariant of the two containers -/

/-- The keys of the map are those of the queue, each once. -/
structure Inv (s : Store Cert) : Prop where
  keys : ∀ ep, ep ∈ s.certs ↔ ep ∈ s.order
  nodup : s.order.Nodup
  length : s.order.length ≤ kMaxTrackedPeerCerts

section

variable {s : Store Cert} {ep : Endpoint} {cert : Cert}

theorem Inv.empty : Inv (Store.empty : Store Cert) where
  keys ep := by simp [Store.empty]
  nodup := List.nodup_nil
  length := Nat.zero_le _

theorem Inv.card_le (h : Inv s) : s.certs.keys.length ≤ kMaxTrackedPeerCerts := by
  have hperm : s.certs.keys.Perm s.order :=
    (List.perm_ext_iff_of_nodup s.certs.nodupKeys h.nodup).mpr h.keys
  rw [hperm.length_eq]
  exact h.length

theorem evict_of_le {certs : AList fun _ : Endpoint => Cert} {order : List Endpoint}
    (h : order.length ≤ kMaxTrackedPeerCerts) : Store.evict certs order = ⟨certs, order⟩ := by
  cases order with
  | nil => rfl
  | cons front rest => rw [Store.evict, if_neg (Nat.not_lt.mpr h)]

/-- A new certificate for an endpoint that is there. -/
theorem store_of_mem (h : Inv s) (husable : isUsablePeerKey ep = true) (hmem : ep ∈ s.certs) :
    s.storePeerCertificate ep (some cert) = ⟨s.certs.insert ep cert, s.order⟩ := by
  simp only [Store.storePeerCertificate, husable, Bool.not_true, Bool.false_eq_true, if_false,
    if_pos hmem]
  exact evict_of_le h.length

/-- A new endpoint goes to the end, and the oldest one leaves if there is no room. -/
theorem store_of_notMem (h : Inv s) (husable : isUsablePeerKey ep = true)
    (hmem : ep ∉ s.certs) :
    s.storePeerCertificate ep (some cert) = ⟨s.certs.insert ep cert, s.order ++ [ep]⟩ ∧
        s.order.length < kMaxTrackedPeerCerts ∨
      ∃ front rest, s.order = front :: rest ∧ s.order.length = kMaxTrackedPeerCerts ∧
        s.storePeerCertificate ep (some cert) =
          ⟨(s.certs.insert ep cert).erase front, rest ++ [ep]⟩ := by
  have hstore : s.storePeerCertificate ep (some cert) =
      Store.evict (s.certs.insert ep cert) (s.order ++ [ep]) := by
    simp only [Store.storePeerCertificate, husable, Bool.not_true, Bool.false_eq_true, if_false,
      if_neg hmem]
  rw [hstore]
  have hlength := h.length
  rcases Nat.lt_or_eq_of_le hlength with hlt | hfull
  · refine .inl ⟨evict_of_le ?_, hlt⟩
    rw [List.length_append, List.length_singleton]
    exact hlt
  · cases horder : s.order with
    | nil =>
        rw [horder] at hfull
        cases hfull
    | cons front rest =>
        rw [horder, List.length_cons] at hfull
        refine .inr ⟨front, rest, rfl, hfull, ?_⟩
        rw [List.cons_append, Store.evict, if_pos, evict_of_le]
        · rw [List.length_append, List.length_singleton, hfull]
        · rw [List.length_cons, List.length_append, List.length_singleton, hfull]
          exact Nat.lt_succ_self _

/-- What storing leaves: the certificate under its endpoint, and no certificate of another
endpoint that was not there. -/
structure Stored (s : Store Cert) (ep : Endpoint) (cert : Cert) (s' : Store Cert) : Prop where
  inv : Inv s'
  here : s'.certs.lookup ep = some cert
  others : ∀ ep' c, ep' ≠ ep → s'.certs.lookup ep' = some c → s.certs.lookup ep' = some c

theorem nodup_concat {order : List Endpoint} (h : order.Nodup) (hnew : ep ∉ order) :
    (order ++ [ep]).Nodup := by
  simpa using h.concat hnew

theorem stored_of_mem (h : Inv s) (hmem : ep ∈ s.certs) :
    Stored s ep cert ⟨s.certs.insert ep cert, s.order⟩ where
  inv := by
    refine ⟨fun ep' => ?_, h.nodup, h.length⟩
    rw [AList.mem_insert, h.keys]
    constructor
    · rintro (rfl | hmem')
      · exact (h.keys _).mp hmem
      · exact hmem'
    · exact .inr
  here := AList.lookup_insert _
  others ep' c hne hlookup := by
    rwa [AList.lookup_insert_ne hne] at hlookup

theorem stored_of_lt (h : Inv s) (hnew : ep ∉ s.order)
    (hlt : s.order.length < kMaxTrackedPeerCerts) :
    Stored s ep cert ⟨s.certs.insert ep cert, s.order ++ [ep]⟩ where
  inv := by
    refine ⟨fun ep' => ?_, nodup_concat h.nodup hnew, ?_⟩
    · rw [AList.mem_insert, h.keys, List.mem_append, List.mem_singleton, or_comm]
    · rw [List.length_append, List.length_singleton]
      exact hlt
  here := AList.lookup_insert _
  others ep' c hne hlookup := by
    rwa [AList.lookup_insert_ne hne] at hlookup

theorem stored_of_full (h : Inv s) {front : Endpoint} {rest : List Endpoint}
    (horder : s.order = front :: rest) (hnew : ep ∉ front :: rest)
    (hfull : s.order.length = kMaxTrackedPeerCerts) :
    Stored s ep cert ⟨(s.certs.insert ep cert).erase front, rest ++ [ep]⟩ := by
  have hnodup := h.nodup
  rw [horder, List.nodup_cons] at hnodup
  rw [List.mem_cons, not_or] at hnew
  refine ⟨⟨fun ep' => ?_, nodup_concat hnodup.2 hnew.2, ?_⟩, ?_, fun ep' c hne hlookup => ?_⟩
  · rw [AList.mem_erase, AList.mem_insert, h.keys, horder, List.mem_append, List.mem_cons,
      List.mem_singleton]
    constructor
    · rintro ⟨hfront, rfl | rfl | hrest⟩
      · exact .inr rfl
      · exact absurd rfl hfront
      · exact .inl hrest
    · rintro (hrest | rfl)
      · refine ⟨?_, .inr (.inr hrest)⟩
        rintro rfl
        exact hnodup.1 hrest
      · exact ⟨hnew.1, .inl rfl⟩
  · rw [List.length_append, List.length_singleton, ← hfull, horder, List.length_cons]
  · rw [AList.lookup_erase_ne hnew.1, AList.lookup_insert]
  · rw [lookup_erase_eq_some, AList.lookup_insert_ne hne] at hlookup
    exact hlookup.2

theorem Inv.store (h : Inv s) (husable : isUsablePeerKey ep = true) (cert : Cert) :
    Stored s ep cert (s.storePeerCertificate ep (some cert)) := by
  by_cases hmem : ep ∈ s.certs
  · rw [store_of_mem h husable hmem]
    exact stored_of_mem h hmem
  · have hnew : ep ∉ s.order := fun hin => hmem ((h.keys ep).mpr hin)
    rcases store_of_notMem h husable hmem with ⟨hstore, hlt⟩ | ⟨front, rest, horder, hfull, hstore⟩
    · rw [hstore]
      exact stored_of_lt h hnew hlt
    · rw [hstore]
      exact stored_of_full h horder (horder ▸ hnew) hfull

/-- A certificate is found right after it was stored. -/
theorem certificateFor_stored (h : Inv s) (husable : isUsablePeerKey ep = true) (cert : Cert) :
    (s.storePeerCertificate ep (some cert)).certificateFor ep = some cert := by
  rw [Store.certificateFor, husable]
  exact (h.store husable cert).here

end

/-! ## Runs -/

/-- The store, and the certificates of the verified handshakes under their endpoints, the newest
first. -/
structure Server (Cert : Type) where
  store : Store Cert
  verified : List (Endpoint × Cert)

def Server.init : Server Cert := ⟨Store.empty, []⟩

inductive Label (Cert : Type) where
  | handshake (h : Handshake Cert)
  | request (ep : Endpoint)

/-- The verified handshakes after one more; one without a usable endpoint is not filed. -/
def Server.noted (s : Server Cert) (h : Handshake Cert) : List (Endpoint × Cert) :=
  match h.cert with
  | none => s.verified
  | some cert =>
      if (verify s.store h).2 && isUsablePeerKey h.peer then (h.peer, cert) :: s.verified
      else s.verified

def step (s : Server Cert) : Label Cert → Option (Server Cert)
  | .handshake h => some ⟨(verify s.store h).1, s.noted h⟩
  | .request _ => some s

/-- The certificate of the latest verified handshake from an endpoint. -/
def Server.latest (s : Server Cert) (ep : Endpoint) : Option Cert :=
  (s.verified.find? fun entry => entry.1 = ep).map Prod.snd

/-- The map and the queue agree, within the limit, and a request is told the latest certificate
of its own endpoint or none. -/
structure Sound (s : Server Cert) : Prop where
  keys : ∀ ep, ep ∈ s.store.certs ↔ ep ∈ s.store.order
  nodup : s.store.order.Nodup
  length : s.store.order.length ≤ kMaxTrackedPeerCerts
  card : s.store.certs.keys.length ≤ kMaxTrackedPeerCerts
  latest : ∀ ep, s.store.certificateFor ep = none ∨ s.store.certificateFor ep = s.latest ep

section

variable {s s' : Server Cert}

/-- What is stored under an endpoint is its latest certificate. -/
structure RunInv (s : Server Cert) : Prop where
  inv : Inv s.store
  latest : ∀ ep c, s.store.certs.lookup ep = some c → s.latest ep = some c

theorem RunInv.init : RunInv (Server.init : Server Cert) where
  inv := Inv.empty
  latest ep c h := by cases h

theorem RunInv.handshake (hs : RunInv s) (h : Handshake Cert) :
    RunInv ⟨(verify s.store h).1, s.noted h⟩ := by
  cases hcert : h.cert with
  | none =>
      have hverify : verify s.store h = (s.store, false) := by simp [verify, hcert]
      simp only [Server.noted, hcert, hverify]
      exact hs
  | some cert =>
      by_cases hdenied : h.chainAccepts = false ∨ h.uuid = ""
      · have hverify : verify s.store h = (s.store, false) := by
          rcases hdenied with hchain | huuid
          · simp [verify, hcert, hchain]
          · simp [verify, hcert, huuid]
        simp only [Server.noted, hcert, hverify, Bool.false_and, Bool.false_eq_true, if_false]
        exact hs
      · rw [not_or, Bool.not_eq_false] at hdenied
        have hverify : verify s.store h =
            (s.store.storePeerCertificate h.peer (some cert), true) := by
          simp [verify, hcert, hdenied]
        cases husable : isUsablePeerKey h.peer with
        | false =>
            have hsame : s.store.storePeerCertificate h.peer (some cert) = s.store := by
              simp [Store.storePeerCertificate, husable]
            simp only [Server.noted, hcert, hverify, hsame, husable, Bool.and_false,
              Bool.false_eq_true, if_false]
            exact hs
        | true =>
            have hstored := hs.inv.store husable cert
            simp only [Server.noted, hcert, hverify, husable, Bool.and_self, if_true]
            refine ⟨hstored.inv, fun ep c hlookup => ?_⟩
            by_cases hep : ep = h.peer
            · subst hep
              have hhere := hstored.here
              rw [hlookup] at hhere
              simp [Server.latest, hhere]
            · have hold := hs.latest ep c (hstored.others ep c hep hlookup)
              rw [Server.latest] at hold ⊢
              rw [List.find?_cons_of_neg (by simpa using Ne.symm hep)]
              exact hold

theorem RunInv.step {label : Label Cert} (hs : RunInv s) (hstep : step s label = some s') :
    RunInv s' := by
  cases label with
  | handshake h =>
      simp only [PeerCerts.step, Option.some.injEq] at hstep
      subst hstep
      exact hs.handshake h
  | request ep =>
      simp only [PeerCerts.step, Option.some.injEq] at hstep
      subst hstep
      exact hs

theorem RunInv.sound (hs : RunInv s) : Sound s where
  keys := hs.inv.keys
  nodup := hs.inv.nodup
  length := hs.inv.length
  card := hs.inv.card_le
  latest ep := by
    unfold Store.certificateFor
    split
    · exact .inl rfl
    · cases hlookup : s.store.certs.lookup ep with
      | none => exact .inl rfl
      | some c => exact .inr (hs.latest ep c hlookup).symm

/-- **The store stays sound** over any handshakes and requests. -/
theorem peerCerts_sound {labels : List (Label Cert)}
    (hrun : run PeerCerts.step Server.init labels = some s) : Sound s :=
  (run_invariant (fun _ _ _ hs hstep => hs.step hstep) RunInv.init hrun).sound

/-- An endpoint that comes back with another client. -/
def reused : Endpoint := ⟨.v4 1, 1⟩

def reusedLabels : List (Label ℕ) :=
  [.handshake ⟨reused, some 1, true, "a"⟩, .handshake ⟨reused, some 2, true, "b"⟩,
    .request reused]

theorem peerCerts_sound_reused : ∃ s,
    run PeerCerts.step Server.init reusedLabels = some s ∧
      s.store.certificateFor reused = some 2 ∧ Sound s := by
  refine ⟨_, rfl, rfl, ?_⟩
  exact peerCerts_sound (show run PeerCerts.step Server.init reusedLabels = some _ from rfl)

end

end LuminalShine.Pairing.PeerCerts
