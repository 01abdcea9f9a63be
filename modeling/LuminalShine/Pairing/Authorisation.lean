import LuminalShine.Pairing.Requests
import LuminalShine.Lib.KeyedLog
import Mathlib.Logic.Relation

/-!
# Who gets authorised

A client certificate enters the authorised list only at the end of one complete
exchange.  The abstract view of an exchange is a history and the stage it has reached;
`Reaches` lists the histories there are, and an exchange that has reached its last stage
has a history of one shape only.

The handlers are connected to it once: every critical section is a chain of `Effect`s on
single exchanges, followed by at most one authorisation (`step_effects`).

## Main definitions

* `exchange key log` — the history of the exchange open under a key.
* `Stage`, `Reaches` — what an exchange has agreed on, and how it got there.
* `Tracks` — a stored session is at the stage its history reached.
* `Effect`, `Authorises` — everything a critical section can do.
-/

namespace LuminalShine.Pairing

open LuminalShine.Lib

variable {X509 : Type}

/-! ## Histories -/

/-- The history of the exchange open under `key`, newest first. -/
def exchange (key : PairingKey) (log : List (PairingKey × Event)) : List Event :=
  backTo (fun e => e = .opened) (ofKey key log)

theorem exchange_cons_self {key : PairingKey} {e : Event} (he : e ≠ .opened)
    (log : List (PairingKey × Event)) :
    exchange key ((key, e) :: log) = e :: exchange key log := by
  rw [exchange, ofKey_cons_self, backTo_cons_of_neg (by simpa using he), exchange]

theorem exchange_cons_opened (key : PairingKey) (log : List (PairingKey × Event)) :
    exchange key ((key, .opened) :: log) = [.opened] := by
  rw [exchange, ofKey_cons_self, backTo_cons_of_pos (by simp)]

theorem exchange_cons_ne {key key' : PairingKey} (h : key' ≠ key) (e : Event)
    (log : List (PairingKey × Event)) :
    exchange key ((key', e) :: log) = exchange key log := by
  rw [exchange, ofKey_cons_ne h, exchange]

/-- What an open exchange has settled so far. -/
inductive Stage where
  | awaitingPin (cert salt : Bytes)
  | keyed (pin cert salt : Bytes)
  | challenged (pin cert salt serverchallenge : Bytes)
  | responded (pin cert salt serverchallenge clienthash : Bytes)

/-- The histories of open exchanges.  A retry before the PIN keeps the certificate; one
after it changes nothing; every phase needs the one before. -/
inductive Reaches (C : Crypto X509) : List Event → Stage → Prop
  | opened (cert salt : Bytes) :
      Reaches C [.phaseOne cert salt, .opened] (.awaitingPin cert salt)
  | again {h : List Event} {cert salt : Bytes} (salt' : Bytes) :
      Reaches C h (.awaitingPin cert salt) →
      Reaches C (.phaseOne cert salt' :: h) (.awaitingPin cert salt')
  | pin {h : List Event} {cert salt : Bytes} (pin : Bytes) :
      Reaches C h (.awaitingPin cert salt) →
      Reaches C (.pinApplied pin cert salt :: h) (.keyed pin cert salt)
  | retried {h : List Event} {pin cert salt : Bytes} :
      Reaches C h (.keyed pin cert salt) → Reaches C (.retried :: h) (.keyed pin cert salt)
  | challenge {h : List Event} {pin cert salt : Bytes}
      (challenge serversecret serverchallenge : Bytes) :
      Reaches C h (.keyed pin cert salt) →
      Reaches C (.clientChallenge challenge serversecret serverchallenge :: h)
        (.challenged pin cert salt serverchallenge)
  | response {h : List Event} {pin cert salt serverchallenge : Bytes} (response : Bytes) :
      Reaches C h (.challenged pin cert salt serverchallenge) →
      Reaches C (.serverChallengeResp response :: h)
        (.responded pin cert salt serverchallenge (C.decrypt (C.exchangeKey salt pin) response))

namespace Reaches

variable {C : Crypto X509} {h : List Event} {pin cert salt serverchallenge clienthash : Bytes}

/-- Before the PIN there are only phase-one requests, all with the same certificate. -/
theorem awaitingPin_shape (hr : Reaches C h (.awaitingPin cert salt)) :
    ∃ earlier : List Bytes,
      h = Event.phaseOne cert salt :: (earlier.map (Event.phaseOne cert) ++ [Event.opened]) := by
  generalize hst : Stage.awaitingPin cert salt = st at hr
  induction hr generalizing cert salt with
  | opened c s =>
      cases hst
      exact ⟨[], rfl⟩
  | @again h c s s' _ ih =>
      cases hst
      obtain ⟨earlier, rfl⟩ := ih rfl
      exact ⟨s :: earlier, rfl⟩
  | pin | retried | challenge | response => cases hst

/-- The PIN was applied once, to the certificate and salt of the last request. -/
theorem keyed_shape (hr : Reaches C h (.keyed pin cert salt)) :
    ∃ (retries : ℕ) (earlier : List Bytes),
      h = List.replicate retries Event.retried ++
        Event.pinApplied pin cert salt :: Event.phaseOne cert salt ::
          (earlier.map (Event.phaseOne cert) ++ [Event.opened]) := by
  generalize hst : Stage.keyed pin cert salt = st at hr
  induction hr generalizing pin cert salt with
  | pin p hr _ =>
      cases hst
      obtain ⟨earlier, rfl⟩ := hr.awaitingPin_shape
      exact ⟨0, earlier, rfl⟩
  | retried _ ih =>
      cases hst
      obtain ⟨retries, earlier, rfl⟩ := ih rfl
      exact ⟨retries + 1, earlier, rfl⟩
  | opened | again | challenge | response => cases hst

/-- **An exchange that has responded went through every phase once, in order.** -/
theorem responded_shape (hr : Reaches C h (.responded pin cert salt serverchallenge clienthash)) :
    ∃ (response challenge serversecret : Bytes) (retries : ℕ) (earlier : List Bytes),
      h = Event.serverChallengeResp response ::
        Event.clientChallenge challenge serversecret serverchallenge ::
        (List.replicate retries Event.retried ++
          Event.pinApplied pin cert salt :: Event.phaseOne cert salt ::
            (earlier.map (Event.phaseOne cert) ++ [Event.opened])) ∧
      clienthash = C.decrypt (C.exchangeKey salt pin) response := by
  cases hr with
  | response response hr =>
      cases hr with
      | challenge challenge serversecret _ hr =>
          obtain ⟨retries, earlier, rfl⟩ := hr.keyed_shape
          exact ⟨response, challenge, serversecret, retries, earlier, rfl, rfl⟩

end Reaches

/-- A stored session is at the stage its history reached.  No session rests in the last
phase: the request that enters it also removes the session. -/
def Tracks (C : Crypto X509) (sess : PairSession) (h : List Event) : Prop :=
  match sess.lastPhase with
  | .none => Reaches C h (.awaitingPin sess.cert sess.salt)
  | .getservercert =>
      ∃ pin, sess.cipherKey = some (C.exchangeKey sess.salt pin) ∧
        Reaches C h (.keyed pin sess.cert sess.salt)
  | .clientchallenge =>
      ∃ pin, sess.cipherKey = some (C.exchangeKey sess.salt pin) ∧
        Reaches C h (.challenged pin sess.cert sess.salt sess.serverchallenge)
  | .serverchallengeresp =>
      ∃ pin, Reaches C h
        (.responded pin sess.cert sess.salt sess.serverchallenge sess.clienthash)
  | .clientpairingsecret => False

/-- Every pending session is stored under its own key and tracks its history. -/
def Inv (C : Crypto X509) (c : Core X509) : Prop :=
  ∀ key sess, c.mapIdSess.lookup key = some sess →
    sess.key = key ∧ Tracks C sess (exchange key c.log)

/-! ## Effects -/

/-- What a critical section does to one exchange, short of authorising it. -/
inductive Effect (C : Crypto X509) : Core X509 → Core X509 → Prop
  | close (c : Core X509) (key : PairingKey) : Effect C c (c.close key)
  | opened (c : Core X509) {key : PairingKey} {sess : PairSession} (hkey : sess.key = key)
      (hphase : sess.lastPhase = .none) :
      Effect C c ({ c with log := (key, .opened) :: c.log }.write key sess
        (.phaseOne sess.cert sess.salt))
  | again (c : Core X509) {key : PairingKey} {sess sess' : PairSession}
      (hlookup : c.mapIdSess.lookup key = some sess) (hphase : sess.lastPhase = .none)
      (hkey : sess'.key = sess.key) (hcert : sess'.cert = sess.cert)
      (hphase' : sess'.lastPhase = .none) :
      Effect C c (c.write key sess' (.phaseOne sess'.cert sess'.salt))
  | pin (c : Core X509) {key : PairingKey} {sess sess' : PairSession} (pin : Bytes)
      (hlookup : c.mapIdSess.lookup key = some sess) (hphase : sess.lastPhase = .none)
      (hkey : sess'.key = sess.key) (hcert : sess'.cert = sess.cert)
      (hsalt : sess'.salt = sess.salt) (hphase' : sess'.lastPhase = .getservercert)
      (hcipher : sess'.cipherKey = some (C.exchangeKey sess'.salt pin)) :
      Effect C c (c.write key sess' (.pinApplied pin sess'.cert sess'.salt))
  | retried (c : Core X509) {key : PairingKey} {sess sess' : PairSession}
      (hlookup : c.mapIdSess.lookup key = some sess) (hphase : sess.lastPhase = .getservercert)
      (hkey : sess'.key = sess.key) (hcert : sess'.cert = sess.cert)
      (hsalt : sess'.salt = sess.salt) (hphase' : sess'.lastPhase = .getservercert)
      (hcipher : sess'.cipherKey = sess.cipherKey) :
      Effect C c (c.write key sess' .retried)
  | challenge (c : Core X509) {key : PairingKey} {sess sess' : PairSession} (challenge : Bytes)
      (hlookup : c.mapIdSess.lookup key = some sess) (hphase : sess.lastPhase = .getservercert)
      (hkey : sess'.key = sess.key) (hcert : sess'.cert = sess.cert)
      (hsalt : sess'.salt = sess.salt) (hphase' : sess'.lastPhase = .clientchallenge)
      (hcipher : sess'.cipherKey = sess.cipherKey) :
      Effect C c (c.write key sess'
        (.clientChallenge challenge sess'.serversecret sess'.serverchallenge))
  | response (c : Core X509) {key : PairingKey} {sess sess' : PairSession}
      {cipherKey : Bytes} (response : Bytes)
      (hlookup : c.mapIdSess.lookup key = some sess) (hphase : sess.lastPhase = .clientchallenge)
      (hkey : sess'.key = sess.key) (hcert : sess'.cert = sess.cert)
      (hsalt : sess'.salt = sess.salt) (hphase' : sess'.lastPhase = .serverchallengeresp)
      (hchallenge : sess'.serverchallenge = sess.serverchallenge)
      (hcipher : sess.cipherKey = some cipherKey)
      (hhash : sess'.clienthash = C.decrypt cipherKey response) :
      Effect C c (c.write key sess' (.serverChallengeResp response))

/-- The end of a complete exchange: both checks of the last phase succeeded, its
certificate is authorised and the session is gone. -/
def Authorises (C : Crypto X509) (key : PairingKey) (c c' : Core X509) : Prop :=
  ∃ (sess : PairSession) (secret sign : Bytes) (x509 : X509) (client : NamedCert),
    c.mapIdSess.lookup key = some sess ∧ sess.lastPhase = .serverchallengeresp ∧
    secret.length = 16 ∧ C.x509 sess.cert = some x509 ∧
    C.hash (sess.serverchallenge ++ C.signature x509 ++ secret) = sess.clienthash ∧
    C.verify256 x509 secret sign = true ∧ client.cert = sess.cert ∧
    c' =
      { mapIdSess := c.mapIdSess.erase key
        namedDevices := c.namedDevices ++ [client]
        addCert := c.addCert ++ [x509]
        log := (key, .closed) :: (key, .clientPairingSecret secret sign) :: c.log }

/-- Clients leave the authorised list. -/
def Removes (c c' : Core X509) : Prop :=
  ∃ devices : List NamedCert, devices.Sublist c.namedDevices ∧ c' = { c with namedDevices := devices }

/-- A chain of effects. -/
abbrev Effects (C : Crypto X509) : Core X509 → Core X509 → Prop :=
  Relation.ReflTransGen (Effect C)

/-! ### Effects keep the invariant -/

section Preservation

variable {C : Crypto X509} {c c' : Core X509}

theorem Inv.close (hI : Inv C c) (key : PairingKey) : Inv C (c.close key) := by
  intro key' sess hlookup
  by_cases hk : key' = key
  · subst hk
    simp [Core.close] at hlookup
  · have hlookup' : c.mapIdSess.lookup key' = some sess := by
      simpa [Core.close, AList.lookup_erase_ne hk] using hlookup
    have hlog : exchange key' (c.close key).log = exchange key' c.log :=
      exchange_cons_ne (Ne.symm hk) _ _
    rw [hlog]
    exact hI key' sess hlookup'

/-- Writing a session back keeps the invariant if its extended history explains it. -/
theorem Inv.write (hI : Inv C c) {key : PairingKey} {sess : PairSession} {e : Event}
    (hkey : sess.key = key) (he : e ≠ .opened) (htracks : Tracks C sess (e :: exchange key c.log)) :
    Inv C (c.write key sess e) := by
  intro key' sess' hlookup
  by_cases hk : key' = key
  · subst hk
    have hsess : sess = sess' := by simpa [Core.write] using hlookup
    have hlog : exchange key' (c.write key' sess e).log = e :: exchange key' c.log :=
      exchange_cons_self he _
    rw [hlog, ← hsess]
    exact ⟨hkey, htracks⟩
  · have hlookup' : c.mapIdSess.lookup key' = some sess' := by
      simpa [Core.write, AList.lookup_insert_ne hk] using hlookup
    have hlog : exchange key' (c.write key sess e).log = exchange key' c.log :=
      exchange_cons_ne (Ne.symm hk) _ _
    rw [hlog]
    exact hI key' sess' hlookup'

/-- Opening an exchange forgets the history under its key; the session written next is
the one that counts. -/
theorem Inv.opened (hI : Inv C c) {key : PairingKey} {sess : PairSession}
    (hkey : sess.key = key) (hphase : sess.lastPhase = .none) :
    Inv C ({ c with log := (key, .opened) :: c.log }.write key sess
      (.phaseOne sess.cert sess.salt)) := by
  intro key' sess' hlookup
  by_cases hk : key' = key
  · subst hk
    have hsess : sess = sess' := by simpa [Core.write] using hlookup
    subst hsess
    refine ⟨hkey, ?_⟩
    have hlog : exchange key' ((key', Event.phaseOne sess.cert sess.salt) ::
        (key', .opened) :: c.log) = [.phaseOne sess.cert sess.salt, .opened] := by
      rw [exchange_cons_self (by simp), exchange_cons_opened]
    show Tracks C sess (exchange key' (_ :: _ :: c.log))
    rw [hlog, Tracks, hphase]
    exact .opened _ _
  · have hlookup' : c.mapIdSess.lookup key' = some sess' := by
      simpa [Core.write, AList.lookup_insert_ne hk] using hlookup
    show sess'.key = key' ∧ Tracks C sess' (exchange key' (_ :: _ :: c.log))
    rw [exchange_cons_ne (Ne.symm hk), exchange_cons_ne (Ne.symm hk)]
    exact hI key' sess' hlookup'

/-- **Every effect keeps the invariant.** -/
theorem Effect.inv (h : Effect C c c') (hI : Inv C c) : Inv C c' := by
  cases h with
  | close key => exact hI.close key
  | opened hkey hphase => exact hI.opened hkey hphase
  | @again key sess sess' hlookup hphase hkey hcert hphase' =>
      obtain ⟨hown, htracks⟩ := hI key sess hlookup
      refine hI.write (hkey.trans hown) (by simp) ?_
      rw [Tracks, hphase] at htracks
      rw [Tracks, hphase', hcert]
      exact .again _ htracks
  | @pin key sess sess' pin hlookup hphase hkey hcert hsalt hphase' hcipher =>
      obtain ⟨hown, htracks⟩ := hI key sess hlookup
      refine hI.write (hkey.trans hown) (by simp) ?_
      rw [Tracks, hphase] at htracks
      rw [Tracks, hphase']
      refine ⟨pin, hcipher, ?_⟩
      rw [hcert, hsalt]
      exact .pin pin htracks
  | @retried key sess sess' hlookup hphase hkey hcert hsalt hphase' hcipher =>
      obtain ⟨hown, htracks⟩ := hI key sess hlookup
      refine hI.write (hkey.trans hown) (by simp) ?_
      rw [Tracks, hphase] at htracks
      obtain ⟨pin, hkeyed, hr⟩ := htracks
      rw [Tracks, hphase']
      refine ⟨pin, ?_, ?_⟩
      · rw [hcipher, hkeyed, hsalt]
      · rw [hcert, hsalt]
        exact .retried hr
  | @challenge key sess sess' challenge hlookup hphase hkey hcert hsalt hphase' hcipher =>
      obtain ⟨hown, htracks⟩ := hI key sess hlookup
      refine hI.write (hkey.trans hown) (by simp) ?_
      rw [Tracks, hphase] at htracks
      obtain ⟨pin, hkeyed, hr⟩ := htracks
      rw [Tracks, hphase']
      refine ⟨pin, ?_, ?_⟩
      · rw [hcipher, hkeyed, hsalt]
      · rw [hcert, hsalt]
        exact .challenge challenge _ _ hr
  | @response key sess sess' cipherKey response hlookup hphase hkey hcert hsalt hphase'
      hchallenge hcipher hhash =>
      obtain ⟨hown, htracks⟩ := hI key sess hlookup
      refine hI.write (hkey.trans hown) (by simp) ?_
      rw [Tracks, hphase] at htracks
      obtain ⟨pin, hkeyed, hr⟩ := htracks
      have hcipherKey : cipherKey = C.exchangeKey sess.salt pin :=
        Option.some.inj (hcipher.symm.trans hkeyed)
      rw [Tracks, hphase']
      refine ⟨pin, ?_⟩
      rw [hcert, hsalt, hchallenge, hhash, hcipherKey]
      exact .response response hr

theorem Effects.inv (h : Effects C c c') (hI : Inv C c) : Inv C c' := by
  induction h with
  | refl => exact hI
  | tail _ he ih => exact he.inv ih

/-- Effects do not touch the authorised clients. -/
theorem Effects.devices (h : Effects C c c') :
    c'.namedDevices = c.namedDevices ∧ c'.addCert = c.addCert := by
  induction h with
  | refl => exact ⟨rfl, rfl⟩
  | tail _ he ih => cases he <;> exact ih

theorem Removes.inv (h : Removes c c') (hI : Inv C c) : Inv C c' := by
  obtain ⟨_, _, rfl⟩ := h
  exact hI

theorem Removes.devices (h : Removes c c') :
    c'.namedDevices.Sublist c.namedDevices ∧ c'.addCert = c.addCert := by
  obtain ⟨devices, hsub, rfl⟩ := h
  exact ⟨hsub, rfl⟩

end Preservation

/-! ### Critical sections are effects -/

section Handlers

variable {C : Crypto X509} {conf : Config} {s : State X509} {key : PairingKey}
  {sess : PairSession}

theorem failPair_toCore (now : ℕ) (hown : sess.key = key) (statusMsg : String) :
    ((s.put key sess).failPair now sess statusMsg).1.toCore = s.toCore.close key := by
  subst hown
  simp [State.failPair, State.removeSession, State.put, Core.close]

theorem failPair_effects (now : ℕ) (hown : sess.key = key) (statusMsg : String) :
    Effects C s.toCore ((s.put key sess).failPair now sess statusMsg).1.toCore := by
  rw [failPair_toCore now hown]
  exact .single (.close _ _)

/-- The caller of a phase may have renamed the client and taken the held response, but
nothing the exchange depends on. -/
structure SameExchange (sess sess' : PairSession) : Prop where
  key : sess'.key = sess.key
  cert : sess'.cert = sess.cert
  salt : sess'.salt = sess.salt
  cipherKey : sess'.cipherKey = sess.cipherKey
  serverchallenge : sess'.serverchallenge = sess.serverchallenge
  clienthash : sess'.clienthash = sess.clienthash
  lastPhase : sess'.lastPhase = sess.lastPhase

theorem SameExchange.refl (sess : PairSession) : SameExchange sess sess :=
  ⟨rfl, rfl, rfl, rfl, rfl, rfl, rfl⟩

variable {sess' : PairSession} (s)

/-- Phase one applies its PIN or closes the exchange. -/
theorem getservercert_effects (hown : sess.key = key)
    (hlookup : s.mapIdSess.lookup key = some sess) (hsame : SameExchange sess sess') (now : ℕ)
    (pin : Bytes) :
    Effects C s.toCore (getservercert C conf now pin key sess' s).1.toCore := by
  have hown' : sess'.key = key := hsame.key.trans hown
  simp only [getservercert]
  split
  · exact failPair_effects now (by exact hown') _
  · rename_i hphase
    split
    · exact failPair_effects now (by exact hown') _
    · have hphase' : sess.lastPhase = .none := hsame.lastPhase.symm.trans (not_not.mp hphase)
      exact .single (.pin _ pin hlookup hphase' hsame.key hsame.cert hsame.salt rfl rfl)

theorem clientchallenge_effects (hown : sess.key = key)
    (hlookup : s.mapIdSess.lookup key = some sess) (hsame : SameExchange sess sess') (now : ℕ)
    (challenge serversecret serverchallenge : Bytes) :
    Effects C s.toCore (clientchallenge C conf now challenge serversecret serverchallenge key
      sess' s).1.toCore := by
  have hown' : sess'.key = key := hsame.key.trans hown
  simp only [clientchallenge]
  split
  · exact failPair_effects now (by exact hown') _
  · rename_i hphase
    split
    · exact failPair_effects now (by exact hown') _
    · have hphase' : sess.lastPhase = .getservercert :=
        hsame.lastPhase.symm.trans (not_not.mp hphase)
      exact .single (.challenge _ challenge hlookup hphase' hsame.key hsame.cert hsame.salt rfl
        hsame.cipherKey)

theorem serverchallengeresp_effects (hown : sess.key = key)
    (hlookup : s.mapIdSess.lookup key = some sess) (hsame : SameExchange sess sess') (now : ℕ)
    (encryptedResponse : Bytes) :
    Effects C s.toCore (serverchallengeresp C conf now encryptedResponse key sess' s).1.toCore := by
  have hown' : sess'.key = key := hsame.key.trans hown
  simp only [serverchallengeresp]
  split
  · exact failPair_effects now (by exact hown') _
  · rename_i hphase
    split
    · exact failPair_effects now (by exact hown') _
    · rename_i cipherKey hcipher
      split
      · exact failPair_effects now (by exact hown') _
      · have hphase' : sess.lastPhase = .clientchallenge :=
          hsame.lastPhase.symm.trans (not_not.mp hphase)
        exact .single (.response _ encryptedResponse hlookup hphase' hsame.key hsame.cert
          hsame.salt rfl hsame.serverchallenge (hsame.cipherKey.symm.trans hcipher) rfl)

/-- Phase four closes the exchange, and authorises it only after both checks. -/
theorem clientpairingsecret_effects (hown : sess.key = key)
    (hlookup : s.mapIdSess.lookup key = some sess) (hsame : SameExchange sess sess') (now : ℕ)
    (clientPairingSecret deviceUuid : Bytes) :
    Effects C s.toCore
      (clientpairingsecret C now clientPairingSecret deviceUuid key sess' s).1.toCore ∨
    Authorises C key s.toCore
      (clientpairingsecret C now clientPairingSecret deviceUuid key sess' s).1.toCore := by
  have hown' : sess'.key = key := hsame.key.trans hown
  simp only [clientpairingsecret]
  split
  · exact .inl (failPair_effects now (by exact hown') _)
  · rename_i hphase
    split
    · exact .inl (failPair_effects now (by exact hown') _)
    · rename_i hlength
      split
      · exact .inl (failPair_effects now (by exact hown') _)
      · rename_i x509 hx509
        split
        · rename_i hchecks
          right
          refine ⟨sess, clientPairingSecret.take 16, clientPairingSecret.drop 16, x509,
            ⟨sess'.name, sess.cert, deviceUuid⟩, hlookup,
            hsame.lastPhase.symm.trans (not_not.mp hphase), ?_, ?_, ?_, hchecks.2, rfl, ?_⟩
          · rw [List.length_take]
            omega
          · rw [← hsame.cert]
            exact hx509
          · rw [← hsame.serverchallenge, ← hsame.clienthash]
            exact hchecks.1
          · rw [← hsame.cert, ← hown']
            simp only [State.removeSession, State.recordPairingOutcome_toCore,
              Core.addAuthorizedClient, Core.write, Core.close, PairSession.key, erase_insert_self]
        · left
          refine .single ?_
          rw [← hown']
          simp only [State.removeSession, State.recordPairingOutcome_toCore, State.put,
            Core.close, PairSession.key, erase_insert_self]
          exact .close _ _

variable {s}

theorem expire_toCore (now : ℕ) (s : State X509) (entry : PairingKey × PairSession) :
    (State.expire now s entry).toCore = s.toCore.close entry.1 := by
  simp [State.expire]

/-- Closing sessions one by one is a chain of effects, whatever else the loop does. -/
theorem foldl_close_effects (body : State X509 → PairingKey × PairSession → State X509)
    (hbody : ∀ s entry, (body s entry).toCore = s.toCore.close entry.1)
    (entries : List (PairingKey × PairSession)) (s : State X509) :
    Effects C s.toCore (entries.foldl body s).toCore := by
  induction entries generalizing s with
  | nil => exact .refl
  | cons entry entries ih =>
      refine .head ?_ (ih (body s entry))
      rw [hbody]
      exact .close _ _

theorem pruneExpiredPairings_effects (s : State X509) (now : ℕ) :
    Effects C s.toCore (s.pruneExpiredPairings now).toCore :=
  foldl_close_effects (State.expire now) (expire_toCore now) _ (s.prunePairingOutcomes now)

/-- The session phase one fills in. -/
theorem storePhaseOne_effects {c : Core X509} (req : PairRequest) (clientCert salt : Bytes)
    (hown : sess.key = key)
    (hwrite : ∀ sess' : PairSession, sess'.key = sess.key → sess'.cert = clientCert →
      sess'.salt = salt → sess'.lastPhase = sess.lastPhase →
      Effect C c (s.toCore.write key sess' (.phaseOne clientCert salt))) :
    Effects C c (storePhaseOne C conf req clientCert salt key sess s).toCore := by
  have hstored := fun response => hwrite { sess with
    cert := clientCert
    salt := salt
    phaseOneGeneration := sess.phaseOneGeneration + 1
    response := response } rfl rfl rfl rfl
  simp only [storePhaseOne]
  split
  · refine .head (hstored sess.response) ?_
    rw [State.answer_toCore]
    exact getservercert_effects { s with toCore := s.toCore.write key _ _ } (by exact hown)
      (AList.lookup_insert _) (.refl _) req.now req.stdinPin
  · exact .single (hstored (some req.response))

theorem retryPhaseOne_effects (hown : sess.key = key)
    (hlookup : s.mapIdSess.lookup key = some sess) (req : PairRequest) (clientCert salt : Bytes) :
    Effects C s.toCore (retryPhaseOne C conf req clientCert salt key sess s).toCore := by
  simp only [retryPhaseOne]
  split
  · split
    · rename_i hretry
      exact .single (.retried _ hlookup hretry.1 rfl rfl rfl hretry.1 rfl)
    · exact .refl
  · rename_i hphase
    split
    · exact .refl
    · rename_i hmatches
      have hcert := cert_eq_of_phaseOneRetryMatches (Bool.not_eq_false _ ▸ hmatches)
      refine storePhaseOne_effects req clientCert salt hown ?_
      intro sess' hkey hcert' hsalt' hphase'
      subst hcert' hsalt'
      exact .again _ hlookup (not_not.mp hphase) hkey hcert.symm
        (hphase'.trans (not_not.mp hphase))

theorem openPhaseOne_effects (req : PairRequest) (clientCert salt : Bytes) (key : PairingKey) :
    Effects C s.toCore (openPhaseOne C conf req clientCert salt key s).toCore := by
  simp only [openPhaseOne]
  split
  · exact .refl
  · split
    · exact .refl
    · refine storePhaseOne_effects req clientCert salt rfl ?_
      intro sess' hkey hcert' hsalt' hphase'
      subst hcert' hsalt'
      exact .opened _ hkey hphase'

theorem pairPhaseOne_effects (hI : Inv C s.toCore) (req : PairRequest) (key : PairingKey) :
    Effects C s.toCore (pairPhaseOne C conf req key s).toCore := by
  simp only [pairPhaseOne]
  split
  · split
    · rename_i sess hlookup
      exact retryPhaseOne_effects (hI key sess hlookup).1 hlookup req _ _
    · exact openPhaseOne_effects req _ _ key
  · exact .refl

theorem pairLaterPhase_effects (hI : Inv C s.toCore) (req : PairRequest) (key : PairingKey) :
    Effects C s.toCore (pairLaterPhase C conf req key s).toCore ∨
      Authorises C key s.toCore (pairLaterPhase C conf req key s).toCore := by
  simp only [pairLaterPhase]
  split
  · exact .inl .refl
  · rename_i sess hlookup
    have hown := (hI key sess hlookup).1
    have hsame : SameExchange sess { sess with response := none } :=
      ⟨rfl, rfl, rfl, rfl, rfl, rfl, rfl⟩
    let detached := s.answer sess.response (.error 400 "Pairing exchange invalidated")
    split
    · exact .inl (clientchallenge_effects detached hown hlookup hsame _ _ _ _)
    · exact .inl (serverchallengeresp_effects detached hown hlookup hsame _ _)
    · exact clientpairingsecret_effects detached hown hlookup hsame _ _ _
    · exact .inl .refl

theorem submitPin_effects (hI : Inv C s.toCore) (pin name : Bytes) (pairingId : Option Bytes)
    (now : ℕ) : Effects C s.toCore (submitPin C conf pin name pairingId now s).1.toCore := by
  have hprune : Effects C s.toCore (s.pruneExpiredPairings now).toCore :=
    pruneExpiredPairings_effects s now
  simp only [submitPin]
  split
  · exact .refl
  · split
    · exact hprune
    · split
      · exact hprune
      · rename_i key sess hfind
        have hlookup : (s.pruneExpiredPairings now).mapIdSess.lookup key = some sess :=
          Core.mem_inOrder.mp (List.mem_of_find?_eq_some hfind)
        have hsame : SameExchange sess { sess with response := none, name := trimCopy name } :=
          ⟨rfl, rfl, rfl, rfl, rfl, rfl, rfl⟩
        refine hprune.trans ?_
        exact getservercert_effects _ (hprune.inv hI key sess hlookup).1 hlookup hsame now pin
    · exact hprune

theorem deliveryFailed_effects (now : ℕ) (d : Delivery) (s : State X509) :
    Effects C s.toCore (deliveryFailed now d s).1.toCore := by
  simp only [deliveryFailed]
  split
  · split
    · refine .single ?_
      simp only [State.recordPairingOutcome_toCore]
      exact .close _ _
    · exact .refl
  · split <;> exact .refl

theorem resetPairings_effects (s : State X509) :
    Effects C s.toCore (resetPairings s).toCore :=
  foldl_close_effects _ (fun _ _ => rfl) _ s

/-- **Everything a critical section does.**  Only a `/pair` request authorises, and only
the exchange of its own `uniqueid` and address; a removal touches no exchange. -/
theorem step_effects {s' : State X509} {label : Label} (hI : Inv C s.toCore)
    (hstep : step C conf s label = some s') :
    Effects C s.toCore s'.toCore ∨ Removes s.toCore s'.toCore ∨
      ∃ (req : PairRequest) (uniqID : Bytes) (c : Core X509),
        label = .pair req ∧ req.args.uniqueid = some uniqID ∧ Effects C s.toCore c ∧
        Authorises C ⟨uniqID, req.address⟩ c s'.toCore := by
  cases label with
  | pair req =>
      obtain rfl : pair C conf req s = s' := Option.some.inj hstep
      simp only [pair]
      split
      · exact .inl .refl
      · rename_i uniqID huniqID
        have hprune : Effects C s.toCore (s.pruneExpiredPairings req.now).toCore :=
          pruneExpiredPairings_effects s req.now
        have hI' := hprune.inv hI
        split
        · exact .inl (hprune.trans (pairPhaseOne_effects hI' req _))
        · exact .inl hprune
        · rcases pairLaterPhase_effects hI' req ⟨uniqID, req.address⟩ with h | h
          · exact .inl (hprune.trans h)
          · exact .inr (.inr ⟨req, uniqID, _, rfl, huniqID, hprune, h⟩)
  | submitPin pin name pairingId now =>
      obtain rfl := Option.some.inj hstep
      exact .inl (submitPin_effects hI pin name pairingId now)
  | deliver d delivered now =>
      simp only [step] at hstep
      split at hstep
      · split at hstep
        · obtain rfl := Option.some.inj hstep
          exact .inl .refl
        · obtain rfl := Option.some.inj hstep
          exact .inl (deliveryFailed_effects now d { s with deliveries := s.deliveries.erase d })
      · cases hstep
  | sweep now =>
      obtain rfl := Option.some.inj hstep
      exact .inl (pruneExpiredPairings_effects s now)
  | reset =>
      obtain rfl := Option.some.inj hstep
      exact .inl (resetPairings_effects s)
  | unpairClient uuid =>
      obtain rfl := Option.some.inj hstep
      exact .inr (.inl ⟨_, List.filter_sublist, rfl⟩)
  | eraseAllClients =>
      obtain rfl := Option.some.inj hstep
      exact .inr (.inl ⟨[], List.nil_sublist _, rfl⟩)

end Handlers

/-! ## Every run -/

section Runs

variable {C : Crypto X509} {conf : Config} {s s' : State X509}

/-- An authorisation leaves the other exchanges as they were. -/
theorem Authorises.inv {key : PairingKey} {c c' : Core X509} (h : Authorises C key c c')
    (hI : Inv C c) : Inv C c' := by
  obtain ⟨_, secret, sign, _, _, _, _, _, _, _, _, _, rfl⟩ := h
  intro key' sess' hlookup
  by_cases hk : key' = key
  · subst hk
    simp at hlookup
  · rw [exchange_cons_ne (Ne.symm hk), exchange_cons_ne (Ne.symm hk)]
    exact hI key' sess' (by simpa [AList.lookup_erase_ne hk] using hlookup)

theorem step_inv {label : Label} (hI : Inv C s.toCore) (hstep : step C conf s label = some s') :
    Inv C s'.toCore := by
  rcases step_effects hI hstep with h | h | ⟨_, _, _, _, _, heffects, h⟩
  · exact h.inv hI
  · exact h.inv hI
  · exact h.inv (heffects.inv hI)

theorem inv_of_run {namedDevices : List NamedCert} {addCert : List X509} {labels : List Label}
    (hrun : run (step C conf) (State.initial namedDevices addCert) labels = some s) :
    Inv C s.toCore := by
  refine run_invariant (P := fun s : State X509 => Inv C s.toCore)
    (fun _ _ _ hI hstep => step_inv hI hstep) ?_ hrun
  intro key sess hlookup
  simp [State.initial] at hlookup

/-- **Pairing authorises complete exchanges only.**  Whatever the requests, PINs, sweeps,
resets and removals before it, a critical section adds nobody to the authorised clients,
or it is a `/pair` request that adds one client, and then the exchange of that request's `uniqueid`
and address has just been closed with a history of one shape: it was opened; its
phase-one requests all named the same certificate; one PIN was applied, to that
certificate; phases two, three and four followed once each, at most interrupted by
retransmissions of phase one that were answered and changed nothing.  The certificate
added is that one, and the hash and the signature of the last phase were checked against
what this exchange agreed on. -/
theorem pairing_authorisation_sound (C : Crypto X509) (conf : Config)
    (namedDevices : List NamedCert) (addCert : List X509) (labels : List Label) (label : Label)
    (s s' : State X509)
    (hrun : run (step C conf) (State.initial namedDevices addCert) labels = some s)
    (hstep : step C conf s label = some s') :
    (s'.namedDevices.Sublist s.namedDevices ∧ s'.addCert = s.addCert) ∨
    ∃ (req : PairRequest) (key : PairingKey) (client : NamedCert) (x509 : X509)
      (secret sign response challenge serversecret serverchallenge pin salt : Bytes)
      (retries : ℕ) (earlierSalts : List Bytes),
      label = .pair req ∧ req.args.uniqueid = some key.uniqueId ∧ req.address = key.address ∧
      s'.namedDevices = s.namedDevices ++ [client] ∧ s'.addCert = s.addCert ++ [x509] ∧
      exchange key s'.log =
        .closed :: .clientPairingSecret secret sign :: .serverChallengeResp response ::
        .clientChallenge challenge serversecret serverchallenge ::
        (List.replicate retries .retried ++ .pinApplied pin client.cert salt ::
          .phaseOne client.cert salt ::
          (earlierSalts.map (Event.phaseOne client.cert) ++ [.opened])) ∧
      secret.length = 16 ∧ C.x509 client.cert = some x509 ∧
      C.hash (serverchallenge ++ C.signature x509 ++ secret) =
        C.decrypt (C.exchangeKey salt pin) response ∧
      C.verify256 x509 secret sign = true := by
  have hI : Inv C s.toCore := inv_of_run hrun
  rcases step_effects hI hstep with heffects | hremoves |
    ⟨req, uniqID, c, rfl, huniqID, heffects, hauth⟩
  · obtain ⟨hdevices, hadded⟩ := heffects.devices
    exact .inl ⟨hdevices ▸ List.Sublist.refl _, hadded⟩
  · exact .inl hremoves.devices
  · right
    obtain ⟨hdevices, hadded⟩ := heffects.devices
    obtain ⟨sess, secret, sign, x509, client, hlookup, hphase, hlength, hx509, hhash, hverify,
      hcert, hs'⟩ := hauth
    -- the session is in its third phase, so its history is a complete exchange
    have htracks := (heffects.inv hI _ sess hlookup).2
    rw [Tracks, hphase] at htracks
    obtain ⟨pin, hreaches⟩ := htracks
    obtain ⟨response, challenge, serversecret, retries, earlier, hshape, hclienthash⟩ :=
      hreaches.responded_shape
    have hlog : s'.log = (⟨uniqID, req.address⟩, .closed) ::
        (⟨uniqID, req.address⟩, .clientPairingSecret secret sign) :: c.log :=
      congrArg Core.log hs'
    refine ⟨req, ⟨uniqID, req.address⟩, client, x509, secret, sign, response, challenge,
      serversecret, sess.serverchallenge, pin, sess.salt, retries, earlier, rfl, huniqID, rfl,
      ?_, ?_, ?_, hlength, hcert ▸ hx509, hhash.trans hclienthash, hverify⟩
    · exact (congrArg Core.namedDevices hs').trans (by rw [hdevices])
    · exact (congrArg Core.addCert hs').trans (by rw [hadded])
    · rw [hlog, exchange_cons_self (by simp), exchange_cons_self (by simp), hshape, hcert]

/-- Primitives that do no more than keep the messages apart. -/
def plainCrypto : Crypto Bytes where
  hash data := data
  encrypt _ data := data
  decrypt _ data := data
  x509 cert := if cert = [] then none else some cert
  signature cert := cert
  sign256 pkey data := pkey ++ data
  verify256 cert _ sign := sign = cert

/-- Phase one, the PIN `1234`, phase two and phase three of a client at address `9` with
certificate `1`. -/
def honestExchange : List Label :=
  let request (response : ℕ) (args : Args) : Label :=
    .pair { args := args, address := [9], response := response, now := response,
            pairingId := [80], serversecret := [5], serverchallenge := [7] }
  [ request 1 { uniqueid := some [65], phrase := some .getservercert, clientcert := some [48, 49],
                salt := some (List.replicate 32 48) },
    .submitPin [49, 50, 51, 52] [32, 77] none 2,
    request 3 { uniqueid := some [65], clientchallenge := some [48, 51] },
    request 4 { uniqueid := some [65],
                serverchallengeresp := some ([48, 55, 48, 49] ++ List.replicate 32 48) } ]

/-- Phase four of that client: sixteen zero bytes and a signature. -/
def honestSecret : PairRequest :=
  { args :=
      { uniqueid := some [65]
        clientpairingsecret := some (List.replicate 32 48 ++ [48, 49]) }
    address := [9]
    response := 5
    now := 5
    deviceUuid := [85] }

theorem honestExchange_authorised :
    ∃ s s' : State Bytes,
      run (step plainCrypto ⟨[3], [4], false⟩) (State.initial [] []) honestExchange = some s ∧
      step plainCrypto ⟨[3], [4], false⟩ s (.pair honestSecret) = some s' ∧
      s.namedDevices = [] ∧ s'.namedDevices = [⟨[77], [1], [85]⟩] ∧
      ∃ (key : PairingKey) (client : NamedCert), s'.namedDevices = s.namedDevices ++ [client] ∧
        .opened ∈ exchange key s'.log ∧ plainCrypto.x509 client.cert ≠ none := by
  refine ⟨_, _, rfl, rfl, rfl, rfl, ?_⟩
  rcases pairing_authorisation_sound plainCrypto ⟨[3], [4], false⟩ [] [] honestExchange
    (.pair honestSecret) _ _ rfl rfl with ⟨hsame, _⟩ | ⟨_, key, client, _, _, _, _, _, _, _, _, _,
      _, _, _, _, _, hadded, _, hexchange, _, hx509, _⟩
  · exact absurd hsame.length_le (by decide)
  · refine ⟨key, client, hadded, ?_, ?_⟩
    · rw [hexchange]
      simp
    · rw [hx509]
      simp

end Runs

end LuminalShine.Pairing
