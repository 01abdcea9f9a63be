import LuminalShine.Pairing.Moves

/-!
# Held responses are answered once

A response put on hold is an obligation.  It lies in one place at a time: in a session, in
the hand of a request, in the delivery of a PIN, among the answers, or among the answers
that could not be written.  Every move hands it over from one place to another, so the
number of places does not change.

## Main definitions

* `held`, `inFlight`, `answered` — how often a response lies where.
* `step_conserves`, `run_conserves` — what a response's places sum up to.
* `held_response_answered_once` — the run theorem.
-/

namespace LuminalShine.Pairing

open LuminalShine.Lib

variable {X509 : Type}

/-- How many pending sessions hold the response. -/
def held (sessions : AList fun _ : PairingKey => PairSession) (r : ℕ) : ℕ :=
  sessions.entries.countP fun entry => entry.2.response = some r

/-- How many PIN answers to it are being written. -/
def inFlight (deliveries : List Delivery) (r : ℕ) : ℕ :=
  deliveries.countP fun delivery => delivery.response = some r

/-- How often it was answered. -/
def answered (outbox : List (ℕ × Reply)) (r : ℕ) : ℕ :=
  outbox.countP fun answer => answer.1 = r

/-- The places of a response at a desk. -/
def Desk.places (d : Desk) (r : ℕ) : ℕ :=
  held d.sessions r + inFlight d.deliveries r + answered d.outbox r + d.inHand.count r +
    d.lost.count r

/-! ## Counting -/

section Counting

variable {sessions : AList fun _ : PairingKey => PairSession} {key : PairingKey}
  {sess sess' : PairSession} {r : ℕ}

/-- A session is replaced, and so is what it holds. -/
theorem held_insert (hlookup : sessions.lookup key = some sess) (sess' : PairSession) (r : ℕ) :
    held (sessions.insert key sess') r + (decide (sess.response = some r)).toNat =
      held sessions r + (decide (sess'.response = some r)).toNat := by
  have hbefore := countP_entries_of_lookup
    (fun entry => decide (entry.2.response = some r)) hlookup
  dsimp only at hbefore
  simp only [held]
  rw [countP_entries_insert, hbefore]
  exact Nat.add_right_comm _ _ _

/-- A session that holds nothing goes away. -/
theorem held_erase (hlookup : sessions.lookup key = some sess) (hfree : sess.response = none)
    (r : ℕ) : held (sessions.erase key) r = held sessions r := by
  have hbefore := countP_entries_of_lookup
    (fun entry => decide (entry.2.response = some r)) hlookup
  rw [hfree, decide_eq_false (by simp)] at hbefore
  simp only [held]
  exact hbefore.symm

/-- A session that holds nothing is added. -/
theorem held_insert_new (hlookup : sessions.lookup key = none) (hfree : sess.response = none)
    (r : ℕ) : held (sessions.insert key sess) r = held sessions r := by
  simp only [held]
  rw [countP_entries_insert, erase_of_lookup_none hlookup, hfree, decide_eq_false (by simp)]
  rfl

/-- A response that is answered. -/
theorem answered_append (outbox : List (ℕ × Reply)) (response : Option ℕ) (reply : Reply)
    (r : ℕ) :
    answered (outbox ++ response.toList.map fun r => (r, reply)) r =
      answered outbox r + (decide (response = some r)).toNat := by
  simp only [answered, List.countP_append]
  cases response with
  | none => rfl
  | some r' =>
      by_cases heq : r' = r
      · subst heq
        simp
      · simp [heq]

theorem count_toList (response : Option ℕ) (r : ℕ) :
    response.toList.count r = (decide (response = some r)).toNat := by
  cases response with
  | none => rfl
  | some r' =>
      by_cases heq : r' = r
      · subst heq
        simp
      · simp [heq]

theorem count_hand (r' : ℕ) (rest : List ℕ) (r : ℕ) :
    (r' :: rest).count r = rest.count r + (decide (some r' = some r)).toNat := by
  by_cases heq : r' = r
  · subst heq
    simp
  · simp [heq]

theorem inFlight_append (deliveries : List Delivery) (delivery : Delivery) (r : ℕ) :
    inFlight (deliveries ++ [delivery]) r =
      inFlight deliveries r + (decide (delivery.response = some r)).toNat := by
  simp only [inFlight, List.countP_append, List.countP_singleton]
  cases decide (delivery.response = some r) <;> rfl

/-- A delivery that is taken out of the ones under way. -/
theorem inFlight_erase {deliveries : List Delivery} {delivery : Delivery}
    (hmem : delivery ∈ deliveries) (r : ℕ) :
    inFlight (deliveries.erase delivery) r + (decide (delivery.response = some r)).toNat =
      inFlight deliveries r := by
  have hperm := (List.perm_cons_erase hmem).countP_eq
    (fun delivery => decide (delivery.response = some r))
  simp only [inFlight]
  rw [hperm, List.countP_cons]
  cases decide (delivery.response = some r) <;> rfl

end Counting

/-- **A move conserves the places of every response.** -/
theorem Move.places {conf : Config} {d d' : Desk} (h : Move conf d d') (r : ℕ) :
    d'.places r = d.places r := by
  cases h with
  | @write key sess sess' hlookup _ hresponse _ =>
      have hheld := held_insert hlookup sess' r
      rw [hresponse] at hheld
      simp only [Desk.places]
      omega
  | @hold key sess sess' r' rest hlookup _ hfree hresponse _ hhand =>
      have hheld := held_insert hlookup sess' r
      rw [hresponse, hfree, decide_eq_false (by simp)] at hheld
      simp only [Desk.places, hhand, count_hand]
      simp only [Bool.toNat_false] at hheld
      omega
  | @release key sess reply hlookup _ =>
      have hheld := held_insert hlookup { sess with response := none } r
      simp only [reduceCtorEq, decide_false, Bool.toNat_false] at hheld
      simp only [Desk.places, answered_append]
      omega
  | @send key sess reply hlookup _ =>
      have hheld := held_insert hlookup { sess with response := none } r
      simp only [reduceCtorEq, decide_false, Bool.toNat_false] at hheld
      simp only [Desk.places, inFlight_append]
      omega
  | opened hlookup _ _ hfree _ =>
      simp only [Desk.places, held_insert_new hlookup hfree]
  | retire _ hlookup hfree =>
      simp only [Desk.places, held_erase hlookup hfree]
  | forget _ => rfl
  | @reply r' rest reply hhand =>
      have hanswered := answered_append d.outbox (some r') reply r
      simp only [Option.toList_some, List.map_cons, List.map_nil] at hanswered
      simp only [Desk.places, hhand, count_hand, hanswered]
      omega
  | @delivered delivery hmem =>
      have htaken := inFlight_erase hmem r
      simp only [Desk.places, answered_append]
      omega
  | @undelivered delivery hmem =>
      have htaken := inFlight_erase hmem r
      simp only [Desk.places, List.count_append, count_toList]
      omega

theorem Moves.places {conf : Config} {d d' : Desk} (h : Moves conf d d') (r : ℕ) :
    d'.places r = d.places r :=
  Moves.induct (P := fun e => e.places r = d.places r) (fun _ _ hm he => (hm.places r).trans he) h
    rfl

/-! ## Every run -/

section Runs

variable {C : Crypto X509} {conf : Config} {s s' t : State X509} {label : Label}
  {labels : List Label}

/-- The places of a response between two critical sections. -/
def State.places (s : State X509) (r : ℕ) : ℕ :=
  held s.mapIdSess r + inFlight s.deliveries r + answered s.outbox r

/-- A critical section adds a place for the response it brings, and loses the one whose answer
it fails to write. -/
theorem step_conserves (hwaits : Waits s.mapIdSess) (hkeyed : Keyed s.mapIdSess)
    (hstep : step C conf s label = some s') (r : ℕ) :
    s'.places r + label.undelivered.count r = s.places r + label.responses.count r := by
  obtain ⟨rest, hmoves⟩ := step_moves hwaits hkeyed hstep
  have hplaces := hmoves.places r
  simp only [Desk.places, State.desk, List.count_nil] at hplaces
  simp only [State.places]
  omega

theorem run_conserves (hwaits : Waits s.mapIdSess) (hkeyed : Keyed s.mapIdSess)
    (hrun : run (step C conf) s labels = some t) (r : ℕ) :
    t.places r + (labels.flatMap Label.undelivered).count r =
      s.places r + (labels.flatMap Label.responses).count r := by
  induction labels generalizing s with
  | nil =>
      rw [run_nil, Option.some.injEq] at hrun
      rw [hrun]
      rfl
  | cons label labels ih =>
      obtain ⟨s', hstep, hrest⟩ := run_cons_eq_some.mp hrun
      obtain ⟨rest, hmoves⟩ := step_moves hwaits hkeyed hstep
      have hone := step_conserves hwaits hkeyed hstep r
      have hmany := ih (hmoves.waits hwaits) (hmoves.keyed hkeyed) hrest
      simp only [List.flatMap_cons, List.count_append]
      omega

end Runs

/-! ## What the answer is -/

/-- The answers to a held response. -/
def heldReplies (conf : Config) : List Reply := releaseReplies ++ pinReplies conf

/-- A response that was put on hold: it is in no hand, and what it is or will be answered with
is one of `heldReplies`. -/
structure WasHeld (conf : Config) (r : ℕ) (d : Desk) : Prop where
  notInHand : r ∉ d.inHand
  outbox : ∀ reply, (r, reply) ∈ d.outbox → reply ∈ heldReplies conf
  deliveries : ∀ delivery ∈ d.deliveries, delivery.response = some r →
    delivery.reply ∈ heldReplies conf

section Replies

variable {C : Crypto X509} {conf : Config} {d d' : Desk} {r : ℕ}

/-- Answers to a response with one of `heldReplies`. -/
theorem forall_mem_append_answer {outbox : List (ℕ × Reply)}
    (h : ∀ reply, (r, reply) ∈ outbox → reply ∈ heldReplies conf) {response : Option ℕ}
    {reply : Reply} (hnew : response = some r → reply ∈ heldReplies conf) :
    ∀ reply', (r, reply') ∈ outbox ++ response.toList.map (fun r => (r, reply)) →
      reply' ∈ heldReplies conf := by
  intro reply' hmem
  rcases List.mem_append.mp hmem with hold | hadded
  · exact h reply' hold
  · obtain ⟨r', hr', heq⟩ := List.mem_map.mp hadded
    cases heq
    exact hnew (Option.mem_toList.mp hr')

/-- **A move answers a response that was held with nothing else.** -/
theorem Move.wasHeld (h : Move conf d d') (hd : WasHeld conf r d) : WasHeld conf r d' := by
  cases h with
  | write | opened | retire | forget => exact ⟨hd.1, hd.2, hd.3⟩
  | hold _ _ _ _ _ hhand =>
      have hnot := hd.notInHand
      rw [hhand, List.mem_cons, not_or] at hnot
      exact ⟨hnot.2, hd.2, hd.3⟩
  | release _ hreply =>
      exact ⟨hd.1, forall_mem_append_answer hd.2 fun _ => List.mem_append_left _ hreply, hd.3⟩
  | send _ hreply =>
      refine ⟨hd.1, hd.2, ?_⟩
      intro delivery hmem hresponse
      rcases List.mem_append.mp hmem with hold | hadded
      · exact hd.3 delivery hold hresponse
      · cases List.mem_singleton.mp hadded
        refine List.mem_append_right _ (hreply ?_)
        intro hnone
        exact absurd (hresponse.symm.trans hnone) (Option.some_ne_none r)
  | @reply r' rest reply hhand =>
      have hnot := hd.notInHand
      rw [hhand, List.mem_cons, not_or] at hnot
      refine ⟨hnot.2, ?_, hd.3⟩
      intro reply' hmem
      rcases List.mem_append.mp hmem with hold | hadded
      · exact hd.2 reply' hold
      · cases List.mem_singleton.mp hadded
        exact absurd rfl hnot.1
  | delivered hmem =>
      refine ⟨hd.1, forall_mem_append_answer hd.2 (hd.3 _ hmem), ?_⟩
      intro delivery' hmem'
      exact hd.3 delivery' (List.mem_of_mem_erase hmem')
  | undelivered hmem =>
      refine ⟨hd.1, hd.2, ?_⟩
      intro delivery' hmem'
      exact hd.3 delivery' (List.mem_of_mem_erase hmem')

theorem run_wasHeld {s t : State X509} {labels : List Label} (hwaits : Waits s.mapIdSess)
    (hkeyed : Keyed s.mapIdSess) (hd : WasHeld conf r (s.desk [] [] []))
    (hnot : r ∉ labels.flatMap Label.responses)
    (hrun : run (step C conf) s labels = some t) : WasHeld conf r (t.desk [] [] []) := by
  induction labels generalizing s with
  | nil =>
      rw [run_nil, Option.some.injEq] at hrun
      exact hrun ▸ hd
  | cons label labels ih =>
      obtain ⟨s', hstep, hrest⟩ := run_cons_eq_some.mp hrun
      obtain ⟨rest, hmoves⟩ := step_moves hwaits hkeyed hstep
      rw [List.flatMap_cons, List.mem_append, not_or] at hnot
      have hstart : WasHeld conf r (s.desk label.responses label.drawn []) :=
        ⟨hnot.1, hd.2, hd.3⟩
      have hnext : WasHeld conf r (s'.desk [] rest label.undelivered) :=
        Moves.induct (fun _ _ hm => hm.wasHeld) hmoves hstart
      exact ih (hmoves.waits hwaits) (hmoves.keyed hkeyed) ⟨nofun, hnext.2, hnext.3⟩ hnot.2 hrest

end Replies

/-! ## A failed delivery -/

/-- A failed delivery touches no exchange but the one it belongs to, in the generation it
belongs to. -/
theorem deliveryFailed_lookup {s : State X509} (now : ℕ) (delivery : Delivery)
    {key : PairingKey} {sess : PairSession} (hlookup : s.mapIdSess.lookup key = some sess)
    (hother : sess.pairingId ≠ delivery.pairingId ∨
      sess.phaseOneGeneration ≠ delivery.phaseOneGeneration) :
    (deliveryFailed now delivery s).1.mapIdSess.lookup key = some sess := by
  simp only [deliveryFailed]
  split
  · rename_i key' sess' hfind
    have hlookup' : s.mapIdSess.lookup key' = some sess' :=
      Core.mem_inOrder.mp (List.mem_of_find?_eq_some hfind)
    have hid : sess'.pairingId = delivery.pairingId := by
      simpa using List.find?_some hfind
    split
    · rename_i hcurrent
      simp only [phaseOneDeliveryIsCurrent, Bool.and_eq_true, decide_eq_true_iff] at hcurrent
      have hne : key ≠ key' := by
        intro heq
        subst heq
        cases Option.some.inj (hlookup.symm.trans hlookup')
        exact hother.elim (fun h => h hid) (fun h => h hcurrent.2)
      simp only [State.recordPairingOutcome_toCore, Core.close]
      rw [AList.lookup_erase_ne hne]
      exact hlookup
    · exact hlookup
  · split <;> exact hlookup

/-! ## The obligation -/

section Obligation

variable {C : Crypto X509} {conf : Config} {s t : State X509} {r : ℕ}

/-- A response that a session holds is counted. -/
theorem held_pos (hheld : ∃ key sess, s.mapIdSess.lookup key = some sess ∧
    sess.response = some r) : 0 < held s.mapIdSess r := by
  obtain ⟨key, sess, hlookup, hresponse⟩ := hheld
  rw [held, List.countP_pos_iff]
  exact ⟨⟨key, sess⟩, AList.mem_lookup_iff.mp hlookup, decide_eq_true hresponse⟩

/-- A response that lies in a session only. -/
theorem wasHeld_of_held (hheld : held s.mapIdSess r = s.places r) :
    WasHeld conf r (s.desk [] [] []) := by
  rw [State.places] at hheld
  have houtbox : answered s.outbox r = 0 := by omega
  have hdeliveries : inFlight s.deliveries r = 0 := by omega
  rw [answered, List.countP_eq_zero] at houtbox
  rw [inFlight, List.countP_eq_zero] at hdeliveries
  refine ⟨nofun, ?_, ?_⟩
  · intro reply hmem
    exact absurd (decide_eq_true rfl) (houtbox (r, reply) hmem)
  · intro delivery hmem hresponse
    exact absurd (decide_eq_true hresponse) (hdeliveries delivery hmem)

/-- **A held response is answered once.**  Whatever requests, PINs, retries, sweeps, resets
and deliveries come before and after, with one response object for each request: a response
that was on hold lies in exactly one place, which is a pending session, the delivery of a PIN,
the answers, or the answers that could not be written; its answer is the certificate, a PIN
that could not be applied, or the error of a retry, an expiry, an invalidation or a reset.
And a delivery that fails leaves every exchange but its own, and its own in every later
generation, as it is. -/
theorem held_response_answered_once (C : Crypto X509) (conf : Config)
    (namedDevices : List NamedCert) (addCert : List X509) (before after : List Label)
    (s t : State X509) (r : ℕ)
    (hbefore : run (step C conf) (State.initial namedDevices addCert) before = some s)
    (hafter : run (step C conf) s after = some t)
    (hdistinct : ((before ++ after).flatMap Label.responses).Nodup)
    (hheld : ∃ key sess, s.mapIdSess.lookup key = some sess ∧ sess.response = some r) :
    held t.mapIdSess r + inFlight t.deliveries r + answered t.outbox r +
        (after.flatMap Label.undelivered).count r = 1 ∧
      (∀ reply, (r, reply) ∈ t.outbox → reply ∈ heldReplies conf) ∧
      ∀ delivery now t', step C conf t (.deliver delivery false now) = some t' →
        ∀ key sess, t.mapIdSess.lookup key = some sess →
          sess.pairingId ≠ delivery.pairingId ∨
            sess.phaseOneGeneration ≠ delivery.phaseOneGeneration →
          t'.mapIdSess.lookup key = some sess := by
  obtain ⟨hwaits, hkeyed⟩ := kept_of_run hbefore
  have hempty : ∀ key sess,
      (State.initial namedDevices addCert).mapIdSess.lookup key ≠ some sess := by
    intro key sess hlookup
    simp [State.initial] at hlookup
  have hcount := run_conserves (fun key sess h => absurd h (hempty key sess))
    (fun key sess h => absurd h (hempty key sess)) hbefore r
  have hzero : (State.initial namedDevices addCert).places r = 0 := rfl
  have hpos := held_pos hheld
  have hplaces : held s.mapIdSess r ≤ s.places r := by
    rw [State.places]
    omega
  rw [List.flatMap_append] at hdistinct
  have hone := List.nodup_iff_count_le_one.mp hdistinct r
  rw [List.count_append] at hone
  have hnone : (after.flatMap Label.responses).count r = 0 := by omega
  have hconserved := run_conserves hwaits hkeyed hafter r
  have hwas : WasHeld conf r (t.desk [] [] []) :=
    run_wasHeld hwaits hkeyed (wasHeld_of_held (by omega)) (List.count_eq_zero.mp hnone) hafter
  refine ⟨?_, hwas.outbox, ?_⟩
  · rw [State.places] at hconserved
    omega
  · intro delivery now t' hstep key sess hlookup hother
    simp only [step] at hstep
    split at hstep
    · obtain rfl := Option.some.inj hstep
      exact deliveryFailed_lookup now delivery hlookup hother
    · cases hstep

/-- The phase-one request of a client at address `9`, with the given salt. -/
def heldRequest (salt : Bytes) : Label :=
  .pair
    { args :=
        { uniqueid := some [65]
          phrase := some .getservercert
          clientcert := some [48, 49]
          salt := some salt }
      address := [9]
      response := 1
      now := 1
      pairingId := [80] }

/-- A PIN for it, and its delivery with the given answer. -/
def pinDelivered (reply : Reply) : List Label :=
  [.submitPin [49, 50, 51, 52] [77] none 2, .deliver ⟨some 1, reply, [80], 1⟩ true 3]

theorem heldRequest_answered :
    ∃ s t : State Bytes,
      run (step plainCrypto ⟨[3], [4], false⟩) (State.initial [] [])
        [heldRequest (List.replicate 32 48)] = some s ∧
      run (step plainCrypto ⟨[3], [4], false⟩) s (pinDelivered
        { paired := some 1, plaincert := some [3], statusCode := some 200 }) = some t ∧
      held s.mapIdSess 1 = 1 ∧ answered t.outbox 1 = 1 ∧
      ∀ reply, (1, reply) ∈ t.outbox → reply ∈ heldReplies ⟨[3], [4], false⟩ := by
  refine ⟨_, _, rfl, rfl, rfl, rfl, ?_⟩
  exact (held_response_answered_once plainCrypto ⟨[3], [4], false⟩ [] []
    [heldRequest (List.replicate 32 48)]
    (pinDelivered { paired := some 1, plaincert := some [3], statusCode := some 200 })
    _ _ 1 rfl rfl (by decide) ⟨⟨[65], [9]⟩, _, rfl, rfl⟩).2.1

/-- With a salt that is too short, the held response is answered with the error of the PIN:
neither the certificate nor a superseded, expired or invalidated error. -/
theorem heldRequest_short_salt :
    ∃ s t : State Bytes,
      run (step plainCrypto ⟨[3], [4], false⟩) (State.initial [] []) [heldRequest [48]] = some s ∧
      run (step plainCrypto ⟨[3], [4], false⟩) s
        (pinDelivered (.error 400 "Salt too short")) = some t ∧
      held s.mapIdSess 1 = 1 ∧ held t.mapIdSess 1 = 0 ∧
      (1, Reply.error 400 "Salt too short") ∈ t.outbox ∧
      Reply.error 400 "Salt too short" ∉
        [{ paired := some 1, plaincert := some [3], statusCode := some 200 },
          Reply.error 409 "Pairing request superseded by retry",
          Reply.error 408 "Pairing request expired",
          Reply.error 400 "Pairing exchange invalidated"] := by
  refine ⟨_, _, rfl, rfl, rfl, rfl, ?_, by decide⟩
  exact List.mem_singleton_self _

end Obligation

end LuminalShine.Pairing
