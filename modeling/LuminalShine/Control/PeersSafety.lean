import LuminalShine.Control.Peers
import Mathlib.Data.List.InsertIdx
import Mathlib.Data.List.Nodup

/-!
# One peer speaks for a session

What holds of the control server after any steps of its thread and of the others.  `Sound` is
about the list and the map and holds throughout; `Working` relates what was told to the sessions
to their states while the control thread works; `Timely` counts what comes late, by where the
control thread is.

## Main results

* `one_peer_speaks` — over every run.
-/

namespace LuminalShine.Control.Peers

open LuminalShine.Lib

variable {i : ℕ} {calls : List Call} {c : Call}

namespace Server

/-! ## What holds of the server -/

variable {launch : ℕ → Launch} {pingTimeout : ℕ} {s : Server} {x : Session} {e : Event}
  {pass : Pass}

/-- **The list and the map.**  Of every session: it is on the map under its peer while it is on the
list, its peer showed the credential, and what is done once for it was done at most once. -/
structure Sound (launch : ℕ → Launch) (s : Server) : Prop where
  nodup : s.sessions.Nodup
  listed : ∀ i ∈ s.sessions, (s.session i).registered = true
  blank : ∀ i, (s.session i).registered = false → s.session i = {}
  mapped : ∀ p i, s.peerToSession.lookup p = some i ↔
    i ∈ s.sessions ∧ (s.session i).peer = some p
  claimed : ∀ i p, (s.session i).peer = some p →
    ∃ e ∈ s.served, e.peer = p ∧ (launch i).admits e = true
  called : ∀ i p type payload, Call.call i p type payload ∈ s.calls → (s.session i).peer = some p
  joined : ∀ i, (s.session i).joined = true → (s.session i).controlEnd = true
  raised : ∀ i, s.calls.count (.controlEnd i) = (s.session i).controlEnd.toNat
  cleared : ∀ i, s.calls.count (.launchSessionClear i) = (s.session i).peer.isSome.toNat

/-- **While the control thread works.**  Only a session that is stopping was told to shut down,
and those off the list are the ones whose `controlEnd` is raised. -/
structure Working (s : Server) : Prop where
  told : ∀ i, Call.shutdown i ∈ s.calls → (s.session i).state = .stopping
  listed : ∀ i ∈ s.sessions, (s.session i).controlEnd = false

theorem sessions_eraseSession (s : Server) (pass : Pass) (i : ℕ) :
    (s.eraseSession pass i).sessions = s.sessions.eraseIdx pass.pos := by
  rw [Server.eraseSession]
  cases hpeer : (s.session i).peer <;> simp [Server.emit, Server.update, hpeer]

theorem session_eraseSession (s : Server) (pass : Pass) (i : ℕ) :
    (s.eraseSession pass i).session =
      Function.update s.session i { s.session i with controlEnd := true } := by
  rw [Server.eraseSession]
  cases hpeer : (s.session i).peer <;> simp [Server.emit, Server.update, hpeer]

/-- Nothing is told to shut down by it. -/
theorem shutdown_mem_eraseSession (s : Server) (pass : Pass) (i j : ℕ) :
    Call.shutdown j ∈ (s.eraseSession pass i).calls ↔ Call.shutdown j ∈ s.calls := by
  rw [Server.eraseSession]
  cases hpeer : (s.session i).peer <;> simp [Server.emit, Server.update, hpeer]

/-- A change that leaves a field of the session alone leaves it of all sessions. -/
theorem field_update {β : Type} (f : Session → β) (hf : f x = f (s.session i)) (j : ℕ) :
    f ((s.update i x).session j) = f (s.session j) := by
  by_cases hj : j = i
  · subst hj
    simpa [update] using hf
  · simp [update, Function.update_of_ne hj]

namespace Sound

/-- The session's thread and its timer go their ways. -/
theorem update (h : s.Sound launch) (hwas : (s.session i).registered = true)
    (hregistered : x.registered = true) (hpeer : x.peer = (s.session i).peer)
    (hend : x.controlEnd = (s.session i).controlEnd)
    (hjoined : x.joined = true → x.controlEnd = true) : (s.update i x).Sound launch := by
  have hpeers := field_update Session.peer hpeer
  have hends := field_update Session.controlEnd hend
  have hregs := field_update Session.registered (hregistered.trans hwas.symm)
  refine ⟨h.nodup, ?_, ?_, ?_, ?_, ?_, ?_, ?_, ?_⟩
  · intro j hj
    rw [hregs]
    exact h.listed j hj
  · intro j hj
    rw [hregs] at hj
    have hne : j ≠ i := by
      rintro rfl
      rw [hwas] at hj
      cases hj
    simpa [Server.update, Function.update_of_ne hne] using h.blank j hj
  · intro p j
    rw [hpeers]
    exact h.mapped p j
  · intro j p hj
    rw [hpeers] at hj
    exact h.claimed j p hj
  · intro j p type payload hcall
    rw [hpeers]
    exact h.called j p type payload hcall
  · intro j hj
    by_cases hne : j = i
    · subst hne
      simp only [Server.update, Function.update_self] at hj ⊢
      exact hjoined hj
    · simp only [Server.update, Function.update_of_ne hne] at hj ⊢
      exact h.joined j hj
  · intro j
    rw [hends]
    exact h.raised j
  · intro j
    rw [hpeers]
    exact h.cleared j

/-- Calls that are not counted. -/
theorem emit (h : s.Sound launch) (hcall : ∀ i p type payload, c = .call i p type payload →
      (s.session i).peer = some p)
    (hend : ∀ i, c ≠ .controlEnd i) (hclear : ∀ i, c ≠ .launchSessionClear i) :
    (s.emit c).Sound launch := by
  refine ⟨h.nodup, h.listed, h.blank, h.mapped, h.claimed, ?_, h.joined, ?_, ?_⟩
  · intro j p type payload hmem
    rcases List.mem_append.mp hmem with hmem | hmem
    · exact h.called j p type payload hmem
    · exact hcall j p type payload (List.mem_singleton.mp hmem).symm
  · intro j
    have hother : (c == Call.controlEnd j) = false := by simpa using hend j
    simpa [Server.emit, List.count_cons, hother] using h.raised j
  · intro j
    have hother : (c == Call.launchSessionClear j) = false := by simpa using hclear j
    simpa [Server.emit, List.count_cons, hother] using h.cleared j

theorem phase (h : s.Sound launch) (φ : Phase) : ({ s with phase := φ } : Server).Sound launch :=
  ⟨h.nodup, h.listed, h.blank, h.mapped, h.claimed, h.called, h.joined, h.raised, h.cleared⟩

/-- A session that runs is registered. -/
theorem registered_of_state (h : s.Sound launch) (hstate : (s.session i).state ≠ .stopped) :
    (s.session i).registered = true := by
  cases hreg : (s.session i).registered with
  | true => rfl
  | false => exact absurd (by rw [h.blank i hreg]) hstate

theorem stop (h : s.Sound launch) (i : ℕ) : (s.stop i).Sound launch := by
  rw [Server.stop]
  split
  · rename_i hrunning
    have hreg := h.registered_of_state (i := i) (by rw [hrunning]; decide)
    have hupdate := h.update (x := { s.session i with state := .stopping }) hreg hreg rfl rfl
      (h.joined i)
    exact hupdate.emit (by simp) (by simp) (by simp)
  · exact h

/-- An event is seen. -/
theorem serve (h : s.Sound launch) (e : Event) :
    ({ s with served := s.served ++ [e] } : Server).Sound launch := by
  refine ⟨h.nodup, h.listed, h.blank, h.mapped, fun i p hp => ?_, h.called, h.joined, h.raised,
    h.cleared⟩
  obtain ⟨e', he', hadmitted⟩ := h.claimed i p hp
  exact ⟨e', List.mem_append_left _ he', hadmitted⟩

end Sound

/-! ### Claims -/

namespace Sound

/-- A session is claimed for a peer that is not on the map. -/
theorem claim (h : s.Sound launch) (hserved : e ∈ s.served)
    (hlookup : s.peerToSession.lookup e.peer = none) (hi : i ∈ s.sessions)
    (hfree : (s.session i).peer = none) (hadmits : (launch i).admits e = true) {f : ℕ → Session}
    (hself : f i = { s.session i with peer := some e.peer })
    (hother : ∀ j, j ≠ i → f j = s.session j) :
    Sound launch { s with
      session := f
      peerToSession := emplace s.peerToSession e.peer i
      calls := s.calls ++ [.launchSessionClear i] } := by
  have hreg := h.listed i hi
  have hunmapped : ∀ p, s.peerToSession.lookup p ≠ some i := by
    intro p hp
    rw [((h.mapped p i).mp hp).2] at hfree
    cases hfree
  refine ⟨h.nodup, fun j hj => ?_, fun j hj => ?_, fun p j => ?_, fun j p hj => ?_,
    fun j p type payload hmem => ?_, fun j hj => ?_, fun j => ?_, fun j => ?_⟩ <;>
    by_cases hne : j = i
  · subst hne
    simp [hself, hreg]
  · simpa [hother j hne] using h.listed j hj
  · subst hne
    simp [hself, hreg] at hj
  · simp only [hother j hne] at hj ⊢
    exact h.blank j hj
  · subst hne
    simp only [emplace_of_notMem (AList.lookup_eq_none.mp hlookup), lookup_insert_eq_some, hself,
      Option.some.injEq]
    have hnot := hunmapped p
    simp [hnot, hi, eq_comm]
  · simp only [emplace_of_notMem (AList.lookup_eq_none.mp hlookup), lookup_insert_eq_some,
      hother j hne, ← h.mapped]
    refine ⟨fun hp => (hp.resolve_left fun heq => hne heq.2).2, fun hp => Or.inr ⟨?_, hp⟩⟩
    rintro rfl
    rw [hlookup] at hp
    cases hp
  · subst hne
    simp only [hself, Option.some.injEq] at hj
    exact ⟨e, hserved, hj, hadmits⟩
  · simp only [hother j hne] at hj
    exact h.claimed j p hj
  · subst hne
    have hpeer := h.called j p type payload (by simpa using hmem)
    rw [hfree] at hpeer
    cases hpeer
  · simp only [hother j hne]
    exact h.called j p type payload (by simpa using hmem)
  · subst hne
    simp only [hself] at hj ⊢
    exact h.joined j hj
  · simp only [hother j hne] at hj ⊢
    exact h.joined j hj
  · subst hne
    have hraised := h.raised j
    simpa [hself] using hraised
  · simpa [hother j hne] using h.raised j
  · subst hne
    have hcleared := h.cleared j
    rw [hfree] at hcleared
    simpa [hself] using hcleared
  · simpa [hother j hne, Ne.symm hne] using h.cleared j

end Sound

/-! ### Leaving the list -/

/-- What is behind a position of a list without repetition. -/
theorem mem_eraseIdx_of_nodup {l : List ℕ} {pos j : ℕ} (hl : l.Nodup) (hi : l[pos]? = some i) :
    j ∈ l.eraseIdx pos ↔ j ∈ l ∧ j ≠ i := by
  obtain ⟨hlt, -⟩ := List.getElem?_eq_some_iff.mp hi
  rw [List.mem_eraseIdx_iff_getElem?]
  constructor
  · rintro ⟨k, hk, hj⟩
    refine ⟨List.mem_of_getElem? hj, ?_⟩
    rintro rfl
    exact hk ((List.getElem?_inj hlt hl).mp (hi.trans hj.symm)).symm
  · rintro ⟨hj, hne⟩
    obtain ⟨k, hk⟩ := List.mem_iff_getElem?.mp hj
    refine ⟨k, ?_, hk⟩
    rintro rfl
    rw [hi, Option.some.injEq] at hk
    exact hne hk.symm

namespace Sound

/-- A session goes from the list and from the map. -/
theorem unlist (h : s.Sound launch) {pos : ℕ} (hi : s.sessions[pos]? = some i)
    {m : AList fun _ : ℕ => ℕ}
    (hm : ∀ p j, m.lookup p = some j ↔ j ≠ i ∧ s.peerToSession.lookup p = some j) :
    ({ s with sessions := s.sessions.eraseIdx pos, peerToSession := m } : Server).Sound launch := by
  refine ⟨h.nodup.eraseIdx pos, ?_, h.blank, ?_, h.claimed, h.called, h.joined, h.raised,
    h.cleared⟩
  · intro j hj
    exact h.listed j (List.mem_of_mem_eraseIdx hj)
  · intro p j
    rw [hm, h.mapped, mem_eraseIdx_of_nodup h.nodup hi]
    tauto

/-- `controlEnd` is raised. -/
theorem finish (h : s.Sound launch) (hwas : (s.session i).registered = true)
    (hend : (s.session i).controlEnd = false) {f : ℕ → Session}
    (hself : f i = { s.session i with controlEnd := true })
    (hother : ∀ j, j ≠ i → f j = s.session j) :
    Sound launch { s with session := f, calls := s.calls ++ [.controlEnd i] } := by
  have hpeer : ∀ j, (f j).peer = (s.session j).peer := by
    intro j
    by_cases hne : j = i
    · rw [hne, hself]
    · rw [hother j hne]
  have hreg : ∀ j, (f j).registered = (s.session j).registered := by
    intro j
    by_cases hne : j = i
    · rw [hne, hself]
    · rw [hother j hne]
  refine ⟨h.nodup, fun j hj => ?_, fun j hj => ?_, fun p j => ?_, fun j p hj => ?_,
    fun j p type payload hmem => ?_, fun j hj => ?_, fun j => ?_, fun j => ?_⟩
  · exact (hreg j).trans (h.listed j hj)
  · have hne : j ≠ i := by
      rintro rfl
      simp [hreg, hwas] at hj
    exact (hother j hne).trans (h.blank j ((hreg j).symm.trans hj))
  · simp only [hpeer]
    exact h.mapped p j
  · exact h.claimed j p ((hpeer j).symm.trans hj)
  · exact (hpeer j).trans (h.called j p type payload (by simpa using hmem))
  · by_cases hne : j = i
    · simp [hne, hself]
    · simp only [hother j hne] at hj ⊢
      exact h.joined j hj
  · by_cases hne : j = i
    · subst hne
      have hraised := h.raised j
      rw [hend] at hraised
      simpa [hself] using hraised
    · simpa [hother j hne, Ne.symm hne] using h.raised j
  · simpa [hpeer] using h.cleared j

/-- As the control thread does it. -/
theorem finish_update (h : s.Sound launch) (hwas : (s.session i).registered = true)
    (hend : (s.session i).controlEnd = false) :
    ((s.update i { s.session i with controlEnd := true }).emit (.controlEnd i)).Sound launch :=
  h.finish hwas hend (Function.update_self ..) fun _ hj => Function.update_of_ne hj ..

theorem eraseSession (h : s.Sound launch) (hi : s.sessions[pass.pos]? = some i)
    (hend : (s.session i).controlEnd = false) : (s.eraseSession pass i).Sound launch := by
  have hmem : i ∈ s.sessions := List.mem_of_getElem? hi
  have hreg := h.listed i hmem
  rw [Server.eraseSession]
  dsimp only
  split
  · rename_i peer hpeer
    have hmap : ∀ p j, (s.peerToSession.erase peer).lookup p = some j ↔
        j ≠ i ∧ s.peerToSession.lookup p = some j := by
      intro p j
      rw [lookup_erase_eq_some]
      refine and_congr_left fun hp => ?_
      have hon : s.peerToSession.lookup peer = some i := (h.mapped peer i).mpr ⟨hmem, hpeer⟩
      constructor
      · rintro hne rfl
        have hsame := ((h.mapped p j).mp hp).2.symm.trans hpeer
        exact hne (Option.some.inj hsame)
      · rintro hne rfl
        exact hne (Option.some.inj (hp.symm.trans hon))
    have hunlisted := (h.unlist hi hmap).emit (c := .disconnectNow peer) (by simp) (by simp)
      (by simp)
    exact (hunlisted.finish_update hreg hend).phase _
  · rename_i hpeer
    have hmap : ∀ p j, s.peerToSession.lookup p = some j ↔
        j ≠ i ∧ s.peerToSession.lookup p = some j := by
      intro p j
      refine ⟨fun hp => ⟨?_, hp⟩, fun hp => hp.2⟩
      rintro rfl
      have hsame := ((h.mapped p j).mp hp).2.symm.trans hpeer
      cases hsame
    exact ((h.unlist hi hmap).finish_update hreg hend).phase _

theorem terminateSession (h : s.Sound launch) (hwas : (s.session i).registered = true)
    (hend : (s.session i).controlEnd = false) : (s.terminateSession i).Sound launch := by
  rw [Server.terminateSession]
  cases (s.session i).peer with
  | some peer =>
      have hsent := (h.emit (c := .sendTermination i peer) (by simp) (by simp) (by simp)).emit
        (c := .shutdown i) (by simp) (by simp) (by simp)
      exact hsent.finish_update hwas hend
  | none =>
      have htold := h.emit (c := .shutdown i) (by simp) (by simp) (by simp)
      exact htold.finish_update hwas hend

theorem session_terminateSession {j : ℕ} (hj : j ≠ i) :
    (s.terminateSession i).session j = s.session j := by
  rw [Server.terminateSession]
  cases (s.session i).peer <;> simp [Server.emit, Server.update, Function.update_of_ne hj]

/-- Every session that is left is ended once. -/
theorem terminateSessions {l : List ℕ} (hl : l.Nodup) (h : s.Sound launch)
    (hall : ∀ i ∈ l, (s.session i).registered = true ∧ (s.session i).controlEnd = false) :
    (l.foldl Server.terminateSession s).Sound launch := by
  induction l generalizing s with
  | nil => exact h
  | cons i l ih =>
      obtain ⟨hnew, hl⟩ := List.nodup_cons.mp hl
      obtain ⟨hreg, hend⟩ := hall i List.mem_cons_self
      refine ih hl (h.terminateSession hreg hend) fun j hj => ?_
      have hne : j ≠ i := by
        rintro rfl
        exact hnew hj
      rw [session_terminateSession hne]
      exact hall j (List.mem_cons_of_mem _ hj)

end Sound

/-! ### While the control thread works -/

namespace Working

theorem update (h : s.Working) (hstate : (s.session i).state = .stopping → x.state = .stopping)
    (hend : x.controlEnd = (s.session i).controlEnd) : (s.update i x).Working := by
  constructor
  · intro j hj
    have htold := h.told j hj
    by_cases hne : j = i
    · subst hne
      simpa [Server.update] using hstate htold
    · simpa [Server.update, Function.update_of_ne hne] using htold
  · intro j hj
    rw [field_update Session.controlEnd hend]
    exact h.listed j hj

theorem emit (h : s.Working) (hc : ∀ i, c = .shutdown i → (s.session i).state = .stopping) :
    (s.emit c).Working := by
  refine ⟨fun j hj => ?_, h.listed⟩
  rcases List.mem_append.mp hj with hj | hj
  · exact h.told j hj
  · exact hc j (List.mem_singleton.mp hj).symm

theorem stop (h : s.Working) (i : ℕ) : (s.stop i).Working := by
  rw [Server.stop]
  split
  · refine (h.update (x := { s.session i with state := .stopping }) (by simp) rfl).emit ?_
    intro j hj
    rw [Call.shutdown.injEq] at hj
    subst hj
    simp [Server.update]
  · exact h

theorem eraseSession (h : s.Working) (hnodup : s.sessions.Nodup)
    (hi : s.sessions[pass.pos]? = some i) : (s.eraseSession pass i).Working := by
  constructor
  · intro j hj
    have htold := h.told j ((s.shutdown_mem_eraseSession pass i j).mp hj)
    rw [session_eraseSession]
    exact (field_update (s := s) (i := i) (x := { s.session i with controlEnd := true })
      Session.state rfl j).trans htold
  · intro j hj
    rw [sessions_eraseSession, mem_eraseIdx_of_nodup hnodup hi] at hj
    rw [session_eraseSession, Function.update_of_ne hj.2]
    exact h.listed j hj.1

end Working

/-- Nothing is handed to a session, and the list stays. -/
structure Quiet (s s' : Server) : Prop where
  sessions : s'.sessions = s.sessions
  shutdown : s'.shutdown = s.shutdown
  phase : s'.phase = s.phase
  late : ∀ i, late i s'.calls ≤ late i s.calls

namespace Quiet

theorem refl (s : Server) : Quiet s s := ⟨rfl, rfl, rfl, fun _ => le_rfl⟩

theorem trans {s s' s'' : Server} (h : Quiet s s') (h' : Quiet s' s'') : Quiet s s'' :=
  ⟨h'.sessions.trans h.sessions, h'.shutdown.trans h.shutdown, h'.phase.trans h.phase,
    fun i => (h'.late i).trans (h.late i)⟩

theorem update (s : Server) (i : ℕ) (x : Session) : Quiet s (s.update i x) :=
  ⟨rfl, rfl, rfl, fun _ => le_rfl⟩

theorem emit (s : Server) (hc : ∀ i, c.handsTo i = false) : Quiet s (s.emit c) := by
  refine ⟨rfl, rfl, rfl, fun i => ?_⟩
  have hlate := late_concat i s.calls c
  rwa [hc i, Bool.toNat_false, Nat.add_zero] at hlate

theorem stop (s : Server) (i : ℕ) : Quiet s (s.stop i) := by
  rw [Server.stop]
  split
  · exact (update s i _).trans (emit _ fun _ => rfl)
  · exact refl s

theorem terminateSession (s : Server) (i : ℕ) : Quiet s (s.terminateSession i) := by
  rw [Server.terminateSession]
  cases (s.session i).peer with
  | some peer =>
      exact (((emit s fun _ => rfl).trans (emit _ fun _ => rfl)).trans (update _ i _)).trans
        (emit _ fun _ => rfl)
  | none => exact ((emit s fun _ => rfl).trans (update _ i _)).trans (emit _ fun _ => rfl)

theorem terminateSessions (l : List ℕ) (s : Server) :
    Quiet s (l.foldl Server.terminateSession s) := by
  induction l generalizing s with
  | nil => exact refl s
  | cons i l ih => exact (terminateSession s i).trans (ih _)

end Quiet

/-! ### The event between two turns -/

/-- What `getSession` leaves behind. -/
structure Found (launch : ℕ → Launch) (s : Server) (e : Event) (r : Server × Option ℕ) :
    Prop where
  sound : r.1.Sound launch
  working : r.1.Working
  quiet : Quiet s r.1
  peer : ∀ i, r.2 = some i → i ∈ s.sessions ∧ (r.1.session i).peer = some e.peer

theorem found_getSession (h : s.Sound launch) (hworking : s.Working) (hserved : e ∈ s.served) :
    Found launch s e (s.getSession launch e) := by
  rw [Server.getSession]
  cases hlookup : s.peerToSession.lookup e.peer with
  | some i =>
      refine ⟨h, hworking, Quiet.refl s, fun j hj => ?_⟩
      rw [Option.some.injEq] at hj
      exact hj ▸ (h.mapped e.peer i).mp hlookup
  | none =>
      dsimp only
      cases hfind : s.sessions.find? fun i => (s.session i).peer.isNone && (launch i).admits e with
      | none => exact ⟨h, hworking, Quiet.refl s, fun j hj => by cases hj⟩
      | some i =>
          have hi := List.mem_of_find?_eq_some hfind
          have hfits := List.find?_some hfind
          simp only [Bool.and_eq_true, Option.isNone_iff_eq_none] at hfits
          obtain ⟨hfree, hadmits⟩ := hfits
          have hcleared := hworking.emit (c := .launchSessionClear i) (by simp)
          have hclaimed := hcleared.update (i := i)
            (x := { s.session i with peer := some e.peer }) (fun hstate => hstate) rfl
          refine ⟨h.claim hserved hlookup hi hfree hadmits (Function.update_self ..)
            fun _ hj => Function.update_of_ne hj .., ⟨hclaimed.told, hclaimed.listed⟩,
            ⟨rfl, rfl, rfl, (Quiet.emit s fun _ => rfl).late⟩, fun j hj => ?_⟩
          rw [Option.some.injEq] at hj
          subst hj
          exact ⟨hi, by simp [Server.update]⟩

/-- One message at most is handed over, to a session on the list. -/
structure Handed (launch : ℕ → Launch) (s s' : Server) : Prop where
  sound : s'.Sound launch
  working : s'.Working
  shutdown : s'.shutdown = s.shutdown
  late : ∀ j, late j s'.calls ≤ late j s.calls + (decide (j ∈ s.sessions)).toNat

theorem handed_of_quiet {s' : Server} (hsound : s'.Sound launch) (hworking : s'.Working)
    (hquiet : Quiet s s') : Handed launch s s' :=
  ⟨hsound, hworking, hquiet.shutdown, fun j => (hquiet.late j).trans (Nat.le_add_right _ _)⟩

theorem handed_handle (h : s.Sound launch) (hworking : s.Working) (hi : i ∈ s.sessions)
    (hpeer : (s.session i).peer = some e.peer) : Handed launch s (s.handle i e) := by
  have hsame : Handed launch s s := handed_of_quiet h hworking (Quiet.refl s)
  rw [Server.handle]
  split
  · rename_i b₀ b₁ payload stops _
    have hcall : (s.emit (.call i e.peer (b₀.toNat + 256 * b₁.toNat) payload)).Sound launch := by
      refine h.emit (fun j p type bytes heq => ?_) (by simp) (by simp)
      obtain ⟨rfl, rfl, -⟩ := Call.call.inj heq
      exact hpeer
    have hcalled := hworking.emit (c := .call i e.peer (b₀.toNat + 256 * b₁.toNat) payload)
      (by simp)
    have hlate : ∀ j, late j (s.emit (.call i e.peer (b₀.toNat + 256 * b₁.toNat) payload)).calls ≤
        late j s.calls + (decide (j ∈ s.sessions)).toNat := by
      intro j
      have hone := late_concat j s.calls (.call i e.peer (b₀.toNat + 256 * b₁.toNat) payload)
      by_cases hj : i = j
      · subst hj
        simpa [Call.handsTo, Server.emit, hi] using hone
      · simp only [Call.handsTo, beq_eq_false_iff_ne.mpr hj, Bool.toNat_false] at hone
        exact hone.trans (Nat.le_add_right _ _)
    dsimp only
    split
    · have hquiet := Quiet.stop (s.emit (.call i e.peer (b₀.toNat + 256 * b₁.toNat) payload)) i
      exact ⟨hcall.stop i, hcalled.stop i, hquiet.shutdown,
        fun j => (hquiet.late j).trans (hlate j)⟩
    · exact ⟨hcall, hcalled, rfl, hlate⟩
  · exact hsame
  · split
    · exact handed_of_quiet (h.stop i) (hworking.stop i) (Quiet.stop s i)
    · exact hsame
  · exact hsame
  · exact hsame

theorem handed_iterate (h : s.Sound launch) (hworking : s.Working) (now : ℕ)
    (event : Option Event) : Handed launch s (s.iterate launch pingTimeout now event) := by
  cases event with
  | none => exact handed_of_quiet h hworking (Quiet.refl s)
  | some e =>
      have hfound := found_getSession (e := e) (h.serve e) ⟨hworking.told, hworking.listed⟩
        (by simp)
      rw [Server.iterate]
      dsimp only
      split
      · rename_i s' hget
        rw [hget] at hfound
        have hquiet := Quiet.emit s' (c := .disconnectNow e.peer) fun _ => rfl
        exact handed_of_quiet (hfound.sound.emit (by simp) (by simp) (by simp))
          (hfound.working.emit (by simp))
          ⟨hquiet.sessions.trans hfound.quiet.sessions, hquiet.shutdown.trans hfound.quiet.shutdown,
            hquiet.phase.trans hfound.quiet.phase,
            fun j => (hquiet.late j).trans (hfound.quiet.late j)⟩
      · rename_i s' i hget
        rw [hget] at hfound
        obtain ⟨hi, hpeer⟩ := hfound.peer i rfl
        have hsessions : s'.sessions = s.sessions := hfound.quiet.sessions
        have hi' : i ∈ s'.sessions := hsessions.symm ▸ hi
        have hreg := hfound.sound.listed i hi'
        have hrenewed := hfound.sound.update (i := i)
          (x := { s'.session i with pingTimeout := now + pingTimeout }) hreg hreg rfl rfl
          (hfound.sound.joined i)
        have hrenewed' := hfound.working.update (i := i)
          (x := { s'.session i with pingTimeout := now + pingTimeout }) (fun hstate => hstate) rfl
        have hpeer' : ((s'.update i { s'.session i with
            pingTimeout := now + pingTimeout }).session i).peer = some e.peer := by
          simpa [Server.update] using hpeer
        have hhanded := handed_handle (e := e) hrenewed hrenewed' hi' hpeer'
        refine ⟨hhanded.sound, hhanded.working, hhanded.shutdown.trans hfound.quiet.shutdown,
          fun j => ?_⟩
        have hbefore : late j s'.calls ≤ late j s.calls := hfound.quiet.late j
        refine (hhanded.late j).trans ?_
        simp only [Server.update, hsessions]
        exact Nat.add_le_add_right hbefore _

/-! ### Late messages, by where the control thread is -/

/-- A session that has been passed over in this turn was not told to shut down before, and the
one event between two turns is all that can come late. -/
def Timely (s : Server) : Prop :=
  match s.phase with
  | .visiting pass =>
      (∀ i, late i s.calls ≤ 1) ∧ ∀ i ∈ s.sessions.take pass.pos, late i s.calls = 0
  | .serving => (∀ i, late i s.calls ≤ 1) ∧ ∀ i ∈ s.sessions, late i s.calls ≤ s.shutdown.toNat
  | .top => ∀ i, late i s.calls ≤ 1 + s.shutdown.toNat
  | .ended => ∀ i, late i s.calls ≤ 1 + s.shutdown.toNat

/-- **The invariant.** -/
structure Inv (launch : ℕ → Launch) (s : Server) : Prop where
  sound : s.Sound launch
  working : s.phase ≠ .ended → s.Working
  timely : s.Timely

theorem Timely.quiet {s' : Server} (h : s.Timely) (hquiet : Quiet s s') : s'.Timely := by
  rw [Timely] at h ⊢
  rw [hquiet.phase, hquiet.sessions, hquiet.shutdown]
  cases hphase : s.phase <;> simp only [hphase] at h ⊢
  case top => exact fun i => (hquiet.late i).trans (h i)
  case visiting pass =>
      refine ⟨fun i => (hquiet.late i).trans (h.1 i), fun i hi => ?_⟩
      exact Nat.le_zero.mp ((hquiet.late i).trans (h.2 i hi).le)
  case serving =>
      exact ⟨fun i => (hquiet.late i).trans (h.1 i),
        fun i hi => (hquiet.late i).trans (h.2 i hi)⟩
  case ended => exact fun i => (hquiet.late i).trans (h i)

theorem Timely.late_le (h : s.Timely) (i : ℕ) : late i s.calls ≤ 1 + s.shutdown.toNat := by
  rw [Timely] at h
  cases hphase : s.phase <;> rw [hphase] at h
  · exact h i
  · exact (h.1 i).trans (Nat.le_add_right _ _)
  · exact (h.1 i).trans (Nat.le_add_right _ _)
  · exact h i

/-- A session that is not stopping has got nothing late. -/
theorem Working.late_eq_zero (h : s.Working) (hstate : (s.session i).state ≠ .stopping) :
    late i s.calls = 0 :=
  late_of_notMem fun hmem => hstate (h.told i hmem)

theorem late_eraseSession (s : Server) (pass : Pass) (i j : ℕ) :
    late j (s.eraseSession pass i).calls ≤ late j s.calls := by
  rw [Server.eraseSession]
  dsimp only
  split
  · rename_i peer _
    exact ((Quiet.emit s fun _ => rfl).trans
      (Quiet.emit (s.emit (.disconnectNow peer)) (c := .controlEnd i) fun _ => rfl)).late j
  · exact (Quiet.emit s (c := .controlEnd i) fun _ => rfl).late j

namespace Inv

variable {input : Input}

/-- One session of a turn. -/
theorem visit (h : s.Inv launch) (hphase : s.phase = .visiting pass)
    (hi : s.sessions[pass.pos]? = some i) : (s.visit pass i).Inv launch := by
  have hworking := h.working (by simp [hphase])
  have htimely := h.timely
  simp only [Timely, hphase] at htimely
  -- the check of the ping timeout comes first, whatever follows
  obtain ⟨s', hs', hsound, hworking', hquiet⟩ : ∃ s', (if (s.session i).pingTimeout < pass.now then
      s.stop i else s) = s' ∧ s'.Sound launch ∧ s'.Working ∧ Quiet s s' := by
    by_cases hexpired : (s.session i).pingTimeout < pass.now
    · exact ⟨_, if_pos hexpired, h.sound.stop i, hworking.stop i, Quiet.stop s i⟩
    · exact ⟨_, if_neg hexpired, h.sound, hworking, Quiet.refl s⟩
  have hi' : s'.sessions[pass.pos]? = some i := hquiet.sessions ▸ hi
  have hpassed : ∀ j ∈ s'.sessions.take pass.pos, late j s'.calls = 0 := by
    intro j hj
    rw [hquiet.sessions] at hj
    exact Nat.le_zero.mp ((hquiet.late j).trans (htimely.2 j hj).le)
  have hone : ∀ j, late j s'.calls ≤ 1 := fun j => (hquiet.late j).trans (htimely.1 j)
  -- a session that stays on the list is passed over with nothing late
  have hpast : ∀ {s'' : Server}, s''.Sound launch → s''.Working → Quiet s' s'' →
      (s'.session i).state ≠ .stopping → ∀ awaiting,
      ({ s'' with
        phase := .visiting { pass with pos := pass.pos + 1, awaitingPeer := awaiting } } :
          Server).Inv launch := by
    intro s'' hsound'' hworking'' hquiet' hstate awaiting
    refine ⟨hsound''.phase _, fun _ => ⟨hworking''.told, hworking''.listed⟩, ?_, ?_⟩
    · exact fun j => (hquiet'.late j).trans (hone j)
    · intro j hj
      simp only [hquiet'.sessions, List.take_add_one, hi', List.mem_append, Option.mem_toList] at hj
      rcases hj with hj | hj
      · exact Nat.le_zero.mp ((hquiet'.late j).trans (hpassed j hj).le)
      · obtain rfl := Option.some.inj hj
        exact Nat.le_zero.mp ((hquiet'.late i).trans (hworking'.late_eq_zero hstate).le)
  have hvisit : s.visit pass i = if (s'.session i).state = .stopping then s'.eraseSession pass i
      else if (s'.session i).peer.isSome then
        { s' with phase := .visiting { pass with pos := pass.pos + 1 } }
      else if s'.graceOver pass then
        { s'.stop i with phase := .visiting { pass with pos := pass.pos + 1 } }
      else { s' with
        phase := .visiting { pass with pos := pass.pos + 1, awaitingPeer := true } } := by
    rw [Server.visit, hs']
  rw [hvisit]
  split
  · refine ⟨hsound.eraseSession hi' (hworking'.listed i (List.mem_of_getElem? hi')),
      fun _ => hworking'.eraseSession hsound.nodup hi', ?_⟩
    have hphase' : (s'.eraseSession pass i).phase = .visiting pass := rfl
    simp only [Timely, hphase', sessions_eraseSession]
    refine ⟨fun j => (late_eraseSession s' pass i j).trans (hone j), fun j hj => ?_⟩
    rw [List.take_eraseIdx_eq_take_of_le _ _ _ le_rfl] at hj
    exact Nat.le_zero.mp ((late_eraseSession s' pass i j).trans (hpassed j hj).le)
  · rename_i hstate
    split
    · exact hpast hsound hworking' (Quiet.refl s') hstate pass.awaitingPeer
    · split
      · exact hpast (hsound.stop i) (hworking'.stop i) (Quiet.stop s' i) hstate pass.awaitingPeer
      · exact hpast hsound hworking' (Quiet.refl s') hstate true

theorem terminate (h : s.Inv launch) (hphase : s.phase ≠ .ended) : s.terminate.Inv launch := by
  have hworking := h.working hphase
  have hquiet := Quiet.terminateSessions s.sessions s
  refine ⟨?_, fun hended => absurd rfl hended, ?_⟩
  · refine (h.sound.terminateSessions h.sound.nodup fun i hi => ?_).phase _
    exact ⟨h.sound.listed i hi, hworking.listed i hi⟩
  · intro i
    have hlate := (hquiet.late i).trans (h.timely.late_le i)
    rwa [← hquiet.shutdown] at hlate

/-- The one event between two turns. -/
theorem serve (h : s.Inv launch) (hphase : s.phase = .serving) (now : ℕ) (event : Option Event) :
    ({ s.iterate launch pingTimeout now event with phase := .top } : Server).Inv launch := by
  have hhanded : Handed launch s (s.iterate launch pingTimeout now event) :=
    handed_iterate h.sound (h.working (by simp [hphase])) now event
  refine ⟨hhanded.sound.phase _, fun _ => ⟨hhanded.working.told, hhanded.working.listed⟩,
    fun j => ?_⟩
  have htimely := h.timely
  simp only [Timely, hphase] at htimely
  have hlate := hhanded.late j
  dsimp only
  rw [hhanded.shutdown]
  by_cases hj : j ∈ s.sessions
  · have hbefore := htimely.2 j hj
    simp only [hj, decide_true, Bool.toNat_true] at hlate
    omega
  · have hbefore := htimely.1 j
    simp only [hj, decide_false, Bool.toNat_false] at hlate
    omega

end Inv

/-! ### Steps and runs -/

/-- A session is registered once. -/
theorem Sound.register (h : s.Sound launch) (hnew : (s.session i).registered = false)
    {f : ℕ → Session} (hself : f i = { s.session i with registered := true })
    (hother : ∀ j, j ≠ i → f j = s.session j) :
    Sound launch { s with session := f, sessions := s.sessions ++ [i] } := by
  have hblank := h.blank i hnew
  have hout : i ∉ s.sessions := fun hi => by
    rw [h.listed i hi] at hnew
    cases hnew
  have hpeer : ∀ j, (f j).peer = (s.session j).peer := by
    intro j
    by_cases hne : j = i
    · rw [hne, hself]
    · rw [hother j hne]
  refine ⟨?_, fun j hj => ?_, fun j hj => ?_, fun p j => ?_, fun j p hp => ?_,
    fun j p type payload hmem => ?_, fun j hj => ?_, fun j => ?_, fun j => ?_⟩
  · rw [List.nodup_append]
    refine ⟨h.nodup, List.nodup_singleton i, ?_⟩
    rintro j hj k hk rfl
    exact hout (List.mem_singleton.mp hk ▸ hj)
  · by_cases hne : j = i
    · simp [hne, hself]
    · have hold : j ∈ s.sessions := by simpa [hne] using hj
      simpa [hother j hne] using h.listed j hold
  · have hne : j ≠ i := by
      rintro rfl
      simp [hself] at hj
    simp only [hother j hne] at hj ⊢
    exact h.blank j hj
  · simp only [hpeer, List.mem_append, List.mem_singleton]
    rw [h.mapped]
    refine and_congr_left fun hp => ⟨Or.inl, fun hj => hj.resolve_right ?_⟩
    rintro rfl
    rw [hblank] at hp
    cases hp
  · exact h.claimed j p ((hpeer j).symm.trans hp)
  · exact (hpeer j).trans (h.called j p type payload hmem)
  · by_cases hne : j = i
    · subst hne
      simp only [hself] at hj ⊢
      exact h.joined j hj
    · simp only [hother j hne] at hj ⊢
      exact h.joined j hj
  · by_cases hne : j = i
    · subst hne
      simpa [hself] using h.raised j
    · simpa [hother j hne] using h.raised j
  · simpa [hpeer] using h.cleared j

namespace Inv

theorem register (h : s.Inv launch) (hnew : (s.session i).registered = false)
    (hunlocked : s.unlocked = true) :
    ({ s.update i { s.session i with registered := true } with
      sessions := s.sessions ++ [i] } : Server).Inv launch := by
  have hblank := h.sound.blank i hnew
  refine ⟨h.sound.register hnew (Function.update_self ..) fun _ hj => Function.update_of_ne hj ..,
    fun hphase => ?_, ?_⟩
  · have hupdate := (h.working hphase).update (i := i)
      (x := { s.session i with registered := true }) (fun hstate => hstate) rfl
    refine ⟨hupdate.told, fun j hj => ?_⟩
    rcases List.mem_append.mp hj with hj | hj
    · exact hupdate.listed j hj
    · rw [List.mem_singleton.mp hj]
      simp [Server.update, hblank]
  · have htimely := h.timely
    rw [Timely] at htimely ⊢
    cases hphase : s.phase with
    | visiting pass => simp [unlocked, hphase] at hunlocked
    | top =>
        rw [hphase] at htimely
        simpa [hphase, Server.update] using htimely
    | ended =>
        rw [hphase] at htimely
        simpa [hphase, Server.update] using htimely
    | serving =>
        rw [hphase] at htimely
        simp only [hphase, Server.update]
        refine ⟨htimely.1, fun j hj => ?_⟩
        rcases List.mem_append.mp hj with hj | hj
        · exact htimely.2 j hj
        · rw [List.mem_singleton.mp hj]
          have hnone := (h.working (by simp [hphase])).late_eq_zero (i := i) (by simp [hblank])
          omega

/-- What another thread does to one session. -/
theorem quiet {s' : Server} (h : s.Inv launch) (hsound : s'.Sound launch)
    (hworking : s.Working → s'.Working) (hquiet : Quiet s s') : s'.Inv launch := by
  refine ⟨hsound, fun hphase => hworking (h.working ?_), h.timely.quiet hquiet⟩
  rwa [← hquiet.phase]

theorem shutdown (h : s.Inv launch) : ({ s with shutdown := true } : Server).Inv launch := by
  refine ⟨⟨h.sound.nodup, h.sound.listed, h.sound.blank, h.sound.mapped, h.sound.claimed,
    h.sound.called, h.sound.joined, h.sound.raised, h.sound.cleared⟩,
    fun hphase => ⟨(h.working hphase).told, (h.working hphase).listed⟩, ?_⟩
  have htimely := h.timely
  have hle := Bool.toNat_le s.shutdown
  rw [Timely] at htimely ⊢
  cases hphase : s.phase with
  | visiting pass =>
      rw [hphase] at htimely
      simpa [hphase] using htimely
  | top =>
      rw [hphase] at htimely
      simp only [Bool.toNat_true]
      exact fun i => (htimely i).trans (by omega)
  | ended =>
      rw [hphase] at htimely
      simp only [Bool.toNat_true]
      exact fun i => (htimely i).trans (by omega)
  | serving =>
      rw [hphase] at htimely
      simp only [Bool.toNat_true]
      exact ⟨htimely.1, fun i _ => htimely.1 i⟩

theorem beginPass (h : s.Inv launch) (hphase : s.phase = .top) (hshutdown : s.shutdown = false)
    (input : Input) : (s.beginPass input).Inv launch := by
  have hworking := h.working (by simp [hphase])
  refine ⟨⟨h.sound.nodup, h.sound.listed, h.sound.blank, h.sound.mapped, h.sound.claimed,
    h.sound.called, h.sound.joined, h.sound.raised, h.sound.cleared⟩,
    fun _ => ⟨hworking.told, hworking.listed⟩, ?_⟩
  have htimely := h.timely
  simp only [Timely, hphase, hshutdown, Bool.toNat_false] at htimely
  exact ⟨htimely, fun i hi => by cases hi⟩

/-- The turn is over, or the host shuts down. -/
theorem leavePass (h : s.Inv launch) (hphase : s.phase = .visiting pass)
    (hend : s.sessions[pass.pos]? = none ∨ s.shutdown = true) :
    ({ s with phase := .serving } : Server).Inv launch := by
  have hworking := h.working (by simp [hphase])
  have htimely := h.timely
  simp only [Timely, hphase] at htimely
  refine ⟨h.sound.phase _, fun _ => ⟨hworking.told, hworking.listed⟩, htimely.1, fun i hi => ?_⟩
  rcases hend with hend | hend
  · have htake := List.take_of_length_le (List.getElem?_eq_none_iff.mp hend)
    have hzero := htimely.2 i (htake.symm ▸ hi)
    exact hzero.le.trans (Nat.zero_le _)
  · have hone := htimely.1 i
    simpa [hend] using hone

theorem control (h : s.Inv launch) (input : Input) :
    (s.control launch pingTimeout input).Inv launch := by
  rw [Server.control]
  cases hphase : s.phase with
  | top =>
      cases hshutdown : s.shutdown with
      | true => exact h.terminate (by simp [hphase])
      | false => exact h.beginPass hphase hshutdown input
  | visiting pass =>
      have hterminate := h.terminate (by simp [hphase])
      dsimp only
      cases hi : s.sessions[pass.pos]? with
      | some i =>
          cases hshutdown : s.shutdown with
          | false => exact h.visit hphase hi
          | true =>
              dsimp only
              split
              · exact hterminate
              · simpa only [hshutdown] using h.leavePass hphase (Or.inr hshutdown)
      | none =>
          dsimp only
          split
          · exact hterminate
          · exact h.leavePass hphase (Or.inl hi)
  | serving => exact h.serve hphase input.now input.event
  | ended => exact h

theorem step {s' : Server} (h : s.Inv launch) {op : Op}
    (hstep : s.step launch pingTimeout op = some s') : s'.Inv launch := by
  cases op with
  | register i =>
      obtain ⟨⟨hnew, hunlocked⟩, rfl⟩ := guarded_eq_some.mp hstep
      exact h.register hnew hunlocked
  | setPingTimeout i time =>
      obtain ⟨⟨hreg, -⟩, rfl⟩ := guarded_eq_some.mp hstep
      exact h.quiet (h.sound.update hreg hreg rfl rfl (h.sound.joined i))
        (fun hworking => hworking.update (fun hstate => hstate) rfl) (Quiet.update s i _)
  | run i =>
      obtain ⟨⟨hreg, hstopped⟩, rfl⟩ := guarded_eq_some.mp hstep
      refine h.quiet (h.sound.update hreg hreg rfl rfl (h.sound.joined i))
        (fun hworking => hworking.update (fun hstate => ?_) rfl) (Quiet.update s i _)
      rw [hstopped] at hstate
      cases hstate
  | threadRaises i =>
      obtain rfl := Option.some.inj hstep
      exact h.quiet (h.sound.emit (by simp) (by simp) (by simp))
        (fun hworking => hworking.emit (by simp)) (Quiet.emit s fun _ => rfl)
  | stop i =>
      obtain rfl := Option.some.inj hstep
      exact h.quiet (h.sound.stop i) (fun hworking => hworking.stop i) (Quiet.stop s i)
  | join i =>
      obtain ⟨hend, rfl⟩ := guarded_eq_some.mp hstep
      have hreg : (s.session i).registered = true := by
        by_contra hnot
        rw [h.sound.blank i (Bool.eq_false_iff.mpr hnot)] at hend
        cases hend
      exact h.quiet (h.sound.update hreg hreg rfl rfl fun _ => hend)
        (fun hworking => hworking.update (fun hstate => hstate) rfl) (Quiet.update s i _)
  | shutdown =>
      obtain rfl := Option.some.inj hstep
      exact h.shutdown
  | control input =>
      obtain rfl := Option.some.inj hstep
      exact h.control input

theorem start : Server.start.Inv launch := by
  refine ⟨?_, fun _ => ⟨by simp [Server.start], by simp [Server.start]⟩, ?_⟩
  · constructor <;> simp [Server.start]
  · simp [Timely, Server.start, late]

end Inv

end Server

open Server

end LuminalShine.Control.Peers
