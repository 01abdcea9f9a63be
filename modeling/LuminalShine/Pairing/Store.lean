import LuminalShine.Pairing.Moves

/-!
# The store of pending exchanges

What holds of `map_id_sess` and `pairing_outcomes` in every reachable state: sessions are
stored under their own keys, their number is limited, and no identifier names two requests.

The limits are checked where an exchange is opened.  Every other move replaces a session by
one of the same identity, or takes one away.

## Main definitions

* `Limited`, `Distinct` — the invariants of a desk.
* `FreshIds` — the identifiers drawn in a run are not in use when they are drawn.
* `pending_store_invariant` — the run theorem.
-/

namespace LuminalShine.Pairing

open LuminalShine.Lib

variable {X509 : Type}

/-! ## Limits -/

/-- The number of pending sessions, of all peers and of one. -/
structure Limited (sessions : AList fun _ : PairingKey => PairSession) : Prop where
  total : sessions.entries.length ≤ kMaxPendingPairings
  perPeer : ∀ address, peerPending sessions address ≤ kMaxPendingPairingsPerPeer

section Limits

variable {sessions : AList fun _ : PairingKey => PairSession} {key : PairingKey}
  {sess sess' : PairSession}

theorem length_entries_insert (sessions : AList fun _ : PairingKey => PairSession)
    (key : PairingKey) (sess : PairSession) :
    (sessions.insert key sess).entries.length = (sessions.erase key).entries.length + 1 := by
  rw [AList.entries_insert, List.length_cons]
  rfl

theorem length_entries_of_lookup (h : sessions.lookup key = some sess) :
    sessions.entries.length = (sessions.erase key).entries.length + 1 := by
  have hcount := countP_entries_of_lookup (fun _ => true) h
  simp only [List.countP_true] at hcount
  exact hcount

theorem SameIdentity.clientAddress (h : SameIdentity sess sess') :
    sess'.clientAddress = sess.clientAddress :=
  congrArg PairingKey.address h.key

/-- A session replaced by one of the same identity counts as before. -/
theorem Limited.replace (h : Limited sessions) (hlookup : sessions.lookup key = some sess)
    (hsame : SameIdentity sess sess') : Limited (sessions.insert key sess') := by
  constructor
  · rw [length_entries_insert, ← length_entries_of_lookup hlookup]
    exact h.total
  · intro address
    have hpeer := h.perPeer address
    have hbefore := countP_entries_of_lookup
      (fun entry => decide (entry.2.clientAddress = address)) hlookup
    simp only [peerPending] at hpeer ⊢
    rw [countP_entries_insert, hsame.clientAddress, ← hbefore]
    exact hpeer

theorem Limited.erase (h : Limited sessions) (key : PairingKey) : Limited (sessions.erase key) := by
  have hsub : (sessions.erase key).entries.Sublist sessions.entries :=
    List.kerase_sublist key sessions.entries
  constructor
  · exact Nat.le_trans hsub.length_le h.total
  · intro address
    exact Nat.le_trans (hsub.countP_le) (h.perPeer address)

theorem Limited.opened (h : Limited sessions) (hlookup : sessions.lookup sess.key = none)
    (hlimit : sessions.entries.length < kMaxPendingPairings)
    (hpeer : peerPending sessions sess.clientAddress < kMaxPendingPairingsPerPeer) :
    Limited (sessions.insert sess.key sess) := by
  constructor
  · rw [length_entries_insert, erase_of_lookup_none hlookup]
    exact hlimit
  · intro address
    have hbefore := h.perPeer address
    simp only [peerPending] at hbefore hpeer ⊢
    rw [countP_entries_insert, erase_of_lookup_none hlookup]
    by_cases haddress : sess.clientAddress = address
    · rw [← haddress, decide_eq_true rfl]
      exact hpeer
    · rw [decide_eq_false haddress]
      exact hbefore

/-- **Every move keeps the limits.** -/
theorem Move.limited {conf : Config} {d d' : Desk} (h : Move conf d d')
    (hd : Limited d.sessions) : Limited d'.sessions := by
  rcases h.sessions_cases with hsame | ⟨key, sess, sess', hlookup, hsame, hnext⟩ |
    ⟨sess, hlookup, hlimit, hpeer, hnext⟩ | ⟨key, hnext⟩
  · exact hsame ▸ hd
  · exact hnext ▸ hd.replace hlookup hsame
  · exact hnext ▸ hd.opened hlookup hlimit hpeer
  · exact hnext ▸ hd.erase key

end Limits

/-! ## Identifiers -/

/-- No identifier names two requests: not two pending ones, not a pending and a recorded one,
and the ones drawn for the request at work are not in use. -/
structure Distinct (d : Desk) : Prop where
  pending : ∀ key sess, d.sessions.lookup key = some sess → ∀ key' sess',
    d.sessions.lookup key' = some sess' → sess.pairingId = sess'.pairingId → key = key'
  recorded : ∀ key sess, d.sessions.lookup key = some sess → sess.pairingId ∉ d.outcomes
  unused : ∀ id ∈ d.drawn, id ∉ d.outcomes ∧
    ∀ key sess, d.sessions.lookup key = some sess → sess.pairingId ≠ id
  drawn_nodup : d.drawn.Nodup

section Identifiers

variable {conf : Config} {d d' : Desk} {key : PairingKey} {sess sess' : PairSession}

/-- A session replaced by one of the same identity keeps its identifier. -/
theorem Distinct.replace (h : Distinct d) (hlookup : d.sessions.lookup key = some sess)
    (hsame : SameIdentity sess sess') {next : Desk}
    (hsessions : next.sessions = d.sessions.insert key sess')
    (houtcomes : next.outcomes = d.outcomes) (hdrawn : next.drawn = d.drawn) : Distinct next := by
  -- Whatever is stored now was stored before under the same key with the same identifier.
  have hback : ∀ k v, next.sessions.lookup k = some v →
      ∃ v', d.sessions.lookup k = some v' ∧ v'.pairingId = v.pairingId := by
    rw [hsessions]
    refine forall_insert ?_ ?_
    · intro k v hv
      exact ⟨v, hv, rfl⟩
    · exact ⟨sess, hlookup, hsame.pairingId.symm⟩
  constructor
  · intro k v hv k' v' hv' hid
    obtain ⟨w, hw, hwid⟩ := hback k v hv
    obtain ⟨w', hw', hwid'⟩ := hback k' v' hv'
    exact h.pending k w hw k' w' hw' (by rw [hwid, hwid', hid])
  · intro k v hv
    obtain ⟨w, hw, hwid⟩ := hback k v hv
    rw [houtcomes, ← hwid]
    exact h.recorded k w hw
  · intro id hid
    rw [hdrawn] at hid
    obtain ⟨hout, hnot⟩ := h.unused id hid
    refine ⟨houtcomes ▸ hout, ?_⟩
    intro k v hv
    obtain ⟨w, hw, hwid⟩ := hback k v hv
    rw [← hwid]
    exact hnot k w hw
  · rw [hdrawn]
    exact h.drawn_nodup

/-- A drawn identifier becomes that of a pending session. -/
theorem Distinct.opened (h : Distinct d) {rest : List Bytes}
    (hdrawn : d.drawn = sess.pairingId :: rest) :
    Distinct { d with sessions := d.sessions.insert sess.key sess, drawn := rest } := by
  obtain ⟨hout, hunused⟩ := h.unused sess.pairingId (by rw [hdrawn]; exact List.mem_cons_self ..)
  have hnodup := h.drawn_nodup
  rw [hdrawn, List.nodup_cons] at hnodup
  constructor
  · have hold : ∀ k v, d.sessions.lookup k = some v → v.pairingId ≠ sess.pairingId := hunused
    refine forall_insert ?_ (forall_insert ?_ fun _ => rfl)
    · intro k v hv
      exact forall_insert (h.pending k v hv) fun hid => absurd hid (hold k v hv)
    · intro k v hv hid
      exact absurd hid.symm (hold k v hv)
  · exact forall_insert h.recorded hout
  · intro id hid
    obtain ⟨hidout, hnot⟩ := h.unused id (by rw [hdrawn]; exact List.mem_cons_of_mem _ hid)
    refine ⟨hidout, forall_insert hnot ?_⟩
    intro heq
    exact hnodup.1 (heq ▸ hid)
  · exact hnodup.2

/-- The identifier of a session that goes away may be recorded. -/
theorem Distinct.retire (h : Distinct d) (hlookup : d.sessions.lookup key = some sess)
    (outcome : Option PairingOutcome) :
    Distinct
      { d with
        sessions := d.sessions.erase key
        outcomes := outcome.elim d.outcomes fun o => d.outcomes.insert sess.pairingId o } := by
  have hnew : ∀ id, id ∈ (outcome.elim d.outcomes fun o => d.outcomes.insert sess.pairingId o) →
      id ∈ d.outcomes ∨ id = sess.pairingId := by
    intro id hid
    cases outcome with
    | none => exact .inl hid
    | some o => exact ((AList.mem_insert _).mp hid).symm
  constructor
  · refine forall_erase ?_
    intro k v hv
    exact forall_erase (h.pending k v hv)
  · intro k v hv hid
    have hne : k ≠ key := by
      intro heq
      rw [heq, AList.lookup_erase] at hv
      cases hv
    rw [AList.lookup_erase_ne hne] at hv
    rcases hnew _ hid with hold | heq
    · exact h.recorded k v hv hold
    · exact hne (h.pending k v hv key sess hlookup heq)
  · intro id hid
    obtain ⟨hout, hnot⟩ := h.unused id hid
    refine ⟨?_, forall_erase hnot⟩
    intro hrecorded
    rcases hnew id hrecorded with hold | heq
    · exact hout hold
    · exact hnot key sess hlookup heq.symm
  · exact h.drawn_nodup

/-- **Every move keeps the identifiers distinct.** -/
theorem Move.distinct (h : Move conf d d') (hd : Distinct d) : Distinct d' := by
  cases h with
  | write hlookup hsame _ _ => exact hd.replace hlookup hsame rfl rfl rfl
  | hold hlookup hsame _ _ _ _ => exact hd.replace hlookup hsame rfl rfl rfl
  | @release key sess _ hlookup _ =>
      have hsame : SameIdentity sess { sess with response := none } := ⟨rfl, rfl⟩
      exact hd.replace hlookup hsame rfl rfl rfl
  | @send key sess _ hlookup _ =>
      have hsame : SameIdentity sess { sess with response := none } := ⟨rfl, rfl⟩
      exact hd.replace hlookup hsame rfl rfl rfl
  | opened _ _ _ _ hdrawn => exact hd.opened hdrawn
  | retire outcome hlookup _ => exact hd.retire hlookup outcome
  | forget hsub =>
      constructor
      · exact hd.pending
      · intro key sess hlookup hid
        exact hd.recorded key sess hlookup (hsub _ hid)
      · intro id hid
        obtain ⟨hout, hnot⟩ := hd.unused id hid
        exact ⟨fun hid' => hout (hsub _ hid'), hnot⟩
      · exact hd.drawn_nodup
  | reply | delivered | undelivered =>
      exact ⟨hd.pending, hd.recorded, hd.unused, hd.drawn_nodup⟩

end Identifiers

/-! ## Pruned outcomes -/

/-- The oldest of some outcomes is one of them. -/
theorem oldestOutcome_mem {outcomes : AList fun _ : Bytes => PairingOutcome}
    (hpos : 0 < outcomes.entries.length) :
    ∃ id, State.oldestOutcome outcomes.entries = some id ∧ id ∈ outcomes := by
  have hne : outcomes.entries ≠ [] := List.length_pos_iff.mp hpos
  obtain ⟨entry, hentry⟩ := Option.isSome_iff_exists.mp
    (List.isSome_minOn?_iff.mpr hne :
      (outcomes.entries.minOn? fun entry => entry.2.updatedAt).isSome)
  refine ⟨entry.1, ?_, ?_⟩
  · rw [State.oldestOutcome, hentry, Option.map_some]
  · exact List.mem_map_of_mem (List.minOn?_mem hentry)

/-- The loop leaves no more than the limit, if it may run once for each outcome above it. -/
theorem length_dropOldest_le {outcomes : AList fun _ : Bytes => PairingOutcome} {fuel : ℕ}
    (hfuel : outcomes.entries.length ≤ fuel + kMaxPairingOutcomes) :
    (State.dropOldest outcomes fuel).entries.length ≤ kMaxPairingOutcomes := by
  induction fuel generalizing outcomes with
  | zero => simpa [State.dropOldest] using hfuel
  | succ fuel ih =>
      rw [State.dropOldest]
      split
      · assumption
      · rename_i hmany
        have hpos : 0 < outcomes.entries.length := by omega
        obtain ⟨id, hid, hmem⟩ := oldestOutcome_mem hpos
        rw [hid]
        dsimp only
        obtain ⟨outcome, hlookup⟩ := Option.isSome_iff_exists.mp (AList.lookup_isSome.mpr hmem)
        have hcount := countP_entries_of_lookup (fun _ => true) hlookup
        simp only [List.countP_true, Bool.toNat_true] at hcount
        exact ih (by omega)

theorem length_prunePairingOutcomes_le (s : State X509) (now : ℕ) :
    (s.prunePairingOutcomes now).pairingOutcomes.entries.length ≤ kMaxPairingOutcomes :=
  length_dropOldest_le (Nat.le_add_right _ _)

/-! ## Every run -/

/-- The identifier drawn for a request names no pending session and no outcome. -/
def FreshIds (s : State X509) (label : Label) : Prop :=
  ∀ id ∈ label.drawn, id ∉ s.pairingOutcomes ∧
    ∀ entry ∈ s.mapIdSess.entries, entry.2.pairingId ≠ id

instance (s : State X509) (label : Label) : Decidable (FreshIds s label) :=
  inferInstanceAs (Decidable (∀ id ∈ label.drawn, id ∉ s.pairingOutcomes ∧
    ∀ entry ∈ s.mapIdSess.entries, entry.2.pairingId ≠ id))

section Runs

variable {C : Crypto X509} {conf : Config} {s s' : State X509} {label : Label}
  {namedDevices : List NamedCert} {addCert : List X509} {labels : List Label}

theorem nodup_drawn (label : Label) : label.drawn.Nodup := by
  cases label <;> simp [Label.drawn]

/-- What is drawn joins the identifiers in use. -/
theorem Distinct.draw (h : Distinct (s.desk [] [] [])) (hfresh : FreshIds s label)
    (hand : List ℕ) : Distinct (s.desk hand label.drawn []) := by
  constructor
  · exact h.pending
  · exact h.recorded
  · intro id hid
    obtain ⟨hout, hnot⟩ := hfresh id hid
    refine ⟨hout, ?_⟩
    intro key sess hlookup
    exact hnot ⟨key, sess⟩ (AList.mem_lookup_iff.mp hlookup)
  · exact nodup_drawn label

theorem step_distinct (hwaits : Waits s.mapIdSess) (hkeyed : Keyed s.mapIdSess)
    (h : Distinct (s.desk [] [] [])) (hfresh : FreshIds s label)
    (hstep : step C conf s label = some s') : Distinct (s'.desk [] [] []) := by
  obtain ⟨rest, hmoves⟩ := step_moves hwaits hkeyed hstep
  have hnext : Distinct (s'.desk [] rest label.undelivered) :=
    Moves.induct (fun _ _ hm => hm.distinct) hmoves (h.draw hfresh _)
  exact ⟨hnext.pending, hnext.recorded, nofun, List.nodup_nil⟩

theorem limited_of_run
    (hrun : run (step C conf) (State.initial namedDevices addCert) labels = some s) :
    Limited s.mapIdSess := by
  have hall := run_invariant (P := fun s : State X509 =>
    Waits s.mapIdSess ∧ Keyed s.mapIdSess ∧ Limited s.mapIdSess) ?_ ?_ hrun
  · exact hall.2.2
  · intro s label s' hs hstep
    obtain ⟨hwaits, hkeyed, hlimited⟩ := hs
    obtain ⟨rest, hmoves⟩ := step_moves hwaits hkeyed hstep
    refine ⟨hmoves.waits hwaits, hmoves.keyed hkeyed, ?_⟩
    exact Moves.induct (P := fun d => Limited d.sessions) (fun _ _ hm => hm.limited) hmoves
      hlimited
  · refine ⟨?_, ?_, ?_, ?_⟩
    · intro key sess hlookup
      simp [State.initial] at hlookup
    · intro key sess hlookup
      simp [State.initial] at hlookup
    · exact Nat.zero_le _
    · intro address
      exact Nat.zero_le _

theorem distinct_of_run
    (hfresh : RunMeets (step C conf) FreshIds (State.initial namedDevices addCert) labels)
    (hrun : run (step C conf) (State.initial namedDevices addCert) labels = some s) :
    Distinct (s.desk [] [] []) := by
  have hall := run_invariant_of_meets (P := fun s : State X509 =>
    Waits s.mapIdSess ∧ Keyed s.mapIdSess ∧ Distinct (s.desk [] [] [])) ?_ ?_ hfresh hrun
  · exact hall.2.2
  · intro s label s' hs hfresh hstep
    obtain ⟨hwaits, hkeyed, hdistinct⟩ := hs
    obtain ⟨rest, hmoves⟩ := step_moves hwaits hkeyed hstep
    exact ⟨hmoves.waits hwaits, hmoves.keyed hkeyed,
      step_distinct hwaits hkeyed hdistinct hfresh hstep⟩
  · have hempty : ∀ key sess,
        (State.initial namedDevices addCert).mapIdSess.lookup key ≠ some sess := by
      intro key sess hlookup
      simp [State.initial] at hlookup
    refine ⟨?_, ?_, ?_, ?_, ?_, List.nodup_nil⟩
    · exact fun key sess hlookup => absurd hlookup (hempty key sess)
    · exact fun key sess hlookup => absurd hlookup (hempty key sess)
    · exact fun key sess hlookup => absurd hlookup (hempty key sess)
    · exact fun key sess hlookup => absurd hlookup (hempty key sess)
    · intro id hid
      cases hid

/-- **The store of pending exchanges.**  In every reachable state each session is stored under
the key of its own `uniqueid` and address, at most 32 are pending and at most two of one
address; as long as no identifier is drawn that is in use, the pending identifiers are
distinct and none of them is recorded; and every prune leaves at most 64 outcomes. -/
theorem pending_store_invariant (C : Crypto X509) (conf : Config) (namedDevices : List NamedCert)
    (addCert : List X509) (labels : List Label) (s : State X509)
    (hrun : run (step C conf) (State.initial namedDevices addCert) labels = some s) :
    (∀ key sess, s.mapIdSess.lookup key = some sess →
        key = ⟨sess.uniqueId, sess.clientAddress⟩) ∧
      s.mapIdSess.entries.length ≤ 32 ∧
      (∀ address, peerPending s.mapIdSess address ≤ 2) ∧
      (RunMeets (step C conf) FreshIds (State.initial namedDevices addCert) labels →
        (∀ key sess, s.mapIdSess.lookup key = some sess → ∀ key' sess',
          s.mapIdSess.lookup key' = some sess' → sess.pairingId = sess'.pairingId → key = key') ∧
        ∀ key sess, s.mapIdSess.lookup key = some sess → sess.pairingId ∉ s.pairingOutcomes) ∧
      ∀ now, (s.prunePairingOutcomes now).pairingOutcomes.entries.length ≤ 64 ∧
        (s.pruneExpiredPairings now).pairingOutcomes.entries.length ≤ 64 := by
  have hkeyed := (kept_of_run hrun).2
  have hlimited := limited_of_run hrun
  refine ⟨?_, hlimited.total, hlimited.perPeer, ?_, ?_⟩
  · intro key sess hlookup
    exact (hkeyed key sess hlookup).symm
  · intro hfresh
    have hdistinct := distinct_of_run hfresh hrun
    exact ⟨hdistinct.pending, hdistinct.recorded⟩
  · intro now
    exact ⟨length_prunePairingOutcomes_le s now, length_prunePairingOutcomes_le _ now⟩

/-- Two clients at one address, with their own identifiers. -/
def twoRequests : List Label :=
  let request (uniqueid response : ℕ) : Label :=
    .pair
      { args :=
          { uniqueid := some [UInt8.ofNat uniqueid]
            phrase := some .getservercert
            clientcert := some [48, 49]
            salt := some (List.replicate 32 48) }
        address := [9]
        response := response
        now := response
        pairingId := [UInt8.ofNat (80 + response)] }
  [request 65 1, request 66 2]

theorem twoRequests_stored :
    ∃ s : State Bytes,
      run (step plainCrypto ⟨[3], [4], false⟩) (State.initial [] []) twoRequests = some s ∧
      s.mapIdSess.entries.length = 2 ∧ peerPending s.mapIdSess [9] = 2 ∧
      ∀ key sess, s.mapIdSess.lookup key = some sess → ∀ key' sess',
        s.mapIdSess.lookup key' = some sess' → sess.pairingId = sess'.pairingId → key = key' := by
  refine ⟨_, rfl, rfl, rfl, ?_⟩
  exact ((pending_store_invariant plainCrypto ⟨[3], [4], false⟩ [] [] twoRequests _ rfl).2.2.2.1
    (by decide)).1

end Runs

end LuminalShine.Pairing
