import LuminalShine.WebRtc.Offers

/-!
# What failed offers leave behind

A call on a session with a peer changes neither the peer nor its tracks.  A call that makes a
peer ends exactly with the answers of `Completes`, and adds to the new peer the tracks that the
session did not have.  So the tracks left from a released peer are missing on the next one.

## Main definitions

* `Inv` — the invariant: the tracks asked for are on the peer that there is.

## Main results

* `setRemoteOffer_ends` — a call on a session without a peer.
* `offers_attached_iff`
-/

namespace LuminalShine.WebRtc.Offers

open LuminalShine.Lib

section

variable (asked : Asked) (readers : OfferReaders) (o : Offer) (s : Session)

/-! ## Attaching -/

theorem ensureWebrtcFactory_ends : Ends (ensureWebrtcFactory asked o) s (FactoryReady asked o s)
    fun _ s' => ∃ g : Globals, g.factory.isSome = true ∧ s' = { s with globals := g } := by
  refine ((Ends.get s).read fun _ => show Ends _ s (FactoryReady asked o s) _ from ?_).congr ?_
  · split
    · rename_i hfactory
      have hsome : s.globals.factory.isSome = true := by
        rw [hasFactory, Option.any_eq_true] at hfactory
        obtain ⟨f, hf, -⟩ := hfactory
        simp [hf]
      exact Ends.pure_of (.inl hfactory) ⟨s.globals, hsome, rfl⟩
    · rename_i hfactory
      split
      · rename_i hnew
        refine (Ends.set s _).mono ?_ fun _ s' hs' => ⟨_, rfl, hs'⟩
        simpa [FactoryReady, hfactory] using hnew
      · rename_i hnew
        refine ((Ends.set s _).andThen fun _ _ => Ends.throw ()).congr ?_
        simpa [FactoryReady, hfactory] using hnew
  · simp

/-- A factory is not replaced while the session has a peer. -/
theorem factoryReady_of_peer (hfactory : s.globals.factory.isSome = true)
    (hpeer : s.peer.isSome = true) : FactoryReady asked o s := by
  obtain ⟨f, hf⟩ := Option.isSome_iff_exists.mp hfactory
  exact .inl (by simp [hasFactory, hf, activePeers, hpeer])

theorem attachSource_ends (m : Media) : Ends (attachSource o m) s
    (s.source m = true ∨ (o.media m).source = true)
    fun _ s' => s' = { s with source := Function.update s.source m true } := by
  refine ((Ends.get s).read fun _ =>
    show Ends _ s (s.source m = true ∨ (o.media m).source = true) _ from ?_).congr ?_
  · split
    · rename_i hsource
      exact Ends.pure_of (.inl hsource) (by simp [← hsource])
    · rename_i hsource
      split
      · rename_i hnew
        exact (Ends.set s _).congr (by simp [hnew])
      · rename_i hnew
        exact Ends.throw_of (by simp [hsource, hnew])
  · simp

/-- The session once a kind of media is attached: only a track that is new goes to the peer. -/
def attached (m : Media) : Session :=
  if asked.media m then
    { s with
      source := Function.update s.source m true
      track := Function.update s.track m true
      peer := if s.track m then s.peer else s.peer.map fun tracks => Function.update tracks m true }
  else s

theorem attachTrack_ends (m : Media) : Ends (attachTrack o m) s
    (s.track m = true ∨ (o.media m).track = true ∧ (o.media m).add = true)
    fun _ s' => s' = { s with
      track := Function.update s.track m true
      peer := if s.track m then s.peer else
        s.peer.map fun tracks => Function.update tracks m true } := by
  refine ((Ends.get s).read fun _ =>
    show Ends _ s (s.track m = true ∨ (o.media m).track = true ∧ (o.media m).add = true) _
      from ?_).congr ?_
  · split
    · rename_i htrack
      exact Ends.pure_of (.inl htrack) (by simp [← htrack])
    · rename_i htrack
      split
      · rename_i hnew
        refine ((Ends.set s _).andThen fun _ _ =>
          show Ends _ _ ((o.media m).add = true) _ from ?_).congr (by simp [htrack, hnew])
        split
        · rename_i hadd
          exact (Ends.modify _ _).mono (by simp [hadd]) (by simp)
        · rename_i hadd
          exact Ends.throw_of hadd
      · rename_i hnew
        exact Ends.throw_of (by simp [htrack, hnew])
  · simp

theorem attachMedia_ends (m : Media) : Ends (attachMedia asked o m) s (MediaReady asked o s m)
    fun _ s' => s' = attached asked s m := by
  rw [attachMedia, attached]
  split
  · rename_i hasked
    refine ((attachSource_ends o s m).andThen fun _ _ => attachTrack_ends o _ m).congr ?_
    simp [MediaReady, hasked]
  · rename_i hasked
    exact Ends.pure_of (by simp [MediaReady, hasked]) rfl

@[simp] theorem mediaReady_globals (g : Globals) (m : Media) :
    MediaReady asked o { s with globals := g } m ↔ MediaReady asked o s m := Iff.rfl

theorem mediaReady_attached {m m' : Media} (hm : m ≠ m') :
    MediaReady asked o (attached asked s m) m' ↔ MediaReady asked o s m' := by
  rw [attached]
  split <;> simp [MediaReady, Function.update_of_ne hm.symm]

theorem forall_media {p : Media → Prop} : (∀ m, p m) ↔ p .audio ∧ p .video := by
  constructor
  · exact fun h => ⟨h .audio, h .video⟩
  · rintro ⟨haudio, hvideo⟩ (_ | _)
    · exact haudio
    · exact hvideo

theorem attachMediaTracks_ends : Ends (attachMediaTracks asked o) s
    (FactoryReady asked o s ∧ ∀ m, MediaReady asked o s m) fun _ s' =>
      ∃ g, s' = attached asked (attached asked { s with globals := g } .audio) .video := by
  refine ((ensureWebrtcFactory_ends asked o s).bind fun _ _ s' hs' =>
    show Ends _ s' (MediaReady asked o s .audio ∧ MediaReady asked o s .video) _
      from ?_).congr ?_
  · obtain ⟨g, -, rfl⟩ := hs'
    refine ((attachMedia_ends asked o _ .audio).andThen fun _ _ =>
      (attachMedia_ends asked o _ .video).mono (mediaReady_attached asked o _ (by simp))
        fun _ _ h => ⟨g, h⟩).congr ?_
    simp
  · rw [forall_media]

@[simp] theorem track_attached {m m' : Media} (hm : m ≠ m') :
    (attached asked s m).track m' = s.track m' := by
  rw [attached]
  split <;> simp [Function.update_of_ne hm.symm]

theorem peer_attached {tracks : Media → Bool} (hpeer : s.peer = some tracks) (m : Media) :
    (attached asked s m).peer =
      some (Function.update tracks m (tracks m || asked.media m && !s.track m)) := by
  rw [attached]
  cases asked.media m <;> cases htrack : s.track m <;> simp [hpeer]

/-- The tracks of a new peer are those that are asked for and that the session did not have. -/
theorem peer_attached_new (hpeer : s.peer = some fun _ => false) :
    (attached asked (attached asked s .audio) .video).peer =
      some fun m => asked.media m && !s.track m := by
  rw [peer_attached _ _ (peer_attached asked s hpeer _), track_attached _ _ (by simp)]
  congr 1
  ext m
  cases m <;> simp

/-! ## A session without a peer -/

theorem readCodec_ends (name : String) (offered : Bool) (note : Globals → Globals) :
    Ends (readCodec asked name offered note) s (hasCodec asked name = true → offered = true)
      fun _ s' => s' = { s with
        globals := if hasCodec asked name then note s.globals else s.globals } := by
  rw [readCodec]
  split
  · rename_i hcodec
    refine ((Ends.modify _ s).andThen fun _ _ =>
      show Ends _ _ (offered = true) _ from ?_).congr ?_
    · split
      · rename_i hoffered
        exact Ends.pure_of hoffered rfl
      · rename_i hoffered
        exact Ends.throw_of hoffered
    · simp [hcodec]
  · rename_i hcodec
    exact Ends.pure_of (fun h => absurd h hcodec) rfl

theorem createPeerConnection_ends : Ends (createPeerConnection asked o) s
    (FactoryReady asked o s ∧ o.constraints = true ∧ o.peer = true)
    fun _ s' => ∃ g : Globals, g.factory.isSome = true ∧
      s' = { s with globals := g, peer := some fun _ => false } := by
  refine (ensureWebrtcFactory_ends asked o s).bind fun _ _ s' hs' => ?_
  obtain ⟨g, hg, rfl⟩ := hs'
  split
  · rename_i hmade
    exact (Ends.modify _ _).mono (by simpa using hmade) fun _ _ h => ⟨g, hg, h⟩
  · rename_i hmade
    exact Ends.throw_of (by simpa using hmade)

theorem releasing_ends {x : Handle Unit} {p : Prop} {q : Unit → Session → Prop}
    (hx : Ends x s p q) : Ends (releasing x) s p q := by
  cases hrun : x.run s with
  | ok a s' =>
      have hrun' : (releasing x).run s = .ok a s' := by
        simp only [EStateM.run] at hrun
        simp [EStateM.run, releasing, hrun]
      simpa [Ends, hrun, hrun'] using hx
  | error e s' =>
      have hrun' : (releasing x).run s = .error e { s' with peer := none } := by
        simp only [EStateM.run] at hrun
        simp [EStateM.run, releasing, hrun]
      simpa [Ends, hrun, hrun'] using hx

/-- The session has a source and a track of each kind that it asked for. -/
def Whole : Prop := ∀ m, asked.media m = true → s.source m = true ∧ s.track m = true

theorem whole_attached : Whole asked (attached asked (attached asked s .audio) .video) := by
  rintro (_ | _) hm <;> cases hother : asked.media .audio <;> cases hv : asked.media .video <;>
    simp_all [attached]

theorem attachNewPeer_ends : Ends (do
      createPeerConnection asked o
      releasing (attachMediaTracks asked o)) s
    ((FactoryReady asked o s ∧ o.constraints = true ∧ o.peer = true) ∧
      ∀ m, MediaReady asked o s m)
    fun _ s' => s'.peer = some (fun m => asked.media m && !s.track m) ∧ Whole asked s' := by
  refine (createPeerConnection_ends asked o s).bind fun _ _ s' hs' => ?_
  obtain ⟨g, hg, rfl⟩ := hs'
  refine (releasing_ends _ (attachMediaTracks_ends asked o _)).mono ?_ ?_
  · exact and_iff_right (factoryReady_of_peer asked o _ hg rfl)
  · rintro _ _ ⟨g', rfl⟩
    exact ⟨peer_attached_new asked _ rfl, whole_attached asked _⟩

/-- **A call on a session without a peer.**  It ends exactly with the answers of `Completes`, and
the new peer gets the tracks that the session did not have. -/
theorem setRemoteOffer_ends (hpeer : s.peer = none) :
    Ends (setRemoteOffer asked readers o) s (Completes asked readers o s)
      fun _ s' => s'.peer = some (fun m => asked.media m && !s.track m) ∧ Whole asked s' := by
  refine ((Ends.modify _ s).andThen fun _ _ => (readCodec_ends asked _ "av1" _ _).andThen
    fun _ _ => (readCodec_ends asked _ "hevc" _ _).andThen fun _ _ => (Ends.get _).read
      fun _ => ?_).congr (p := _ ∧ _ ∧ _ ∧ _ ∧
        (FactoryReady asked o { s with globals := desiring asked readers o s.globals } ∧
          o.constraints = true ∧ o.peer = true) ∧ ∀ m, MediaReady asked o s m) ?_
  · rw [if_neg (by simp [hpeer])]
    exact attachNewPeer_ends asked o _
  · constructor
    · rintro ⟨-, hav1, hhevc, -, ⟨hfactory, hconstraints, hmade⟩, hmedia⟩
      exact ⟨⟨hav1, hhevc⟩, hfactory, hconstraints, hmade, hmedia⟩
    · intro h
      exact ⟨trivial, h.offered.1, h.offered.2, trivial, ⟨h.factory, h.constraints, h.peer⟩,
        h.media⟩

/-! ## What a call leaves when it fails -/

/-- Neither the peer nor the media of the session have changed. -/
def SameMedia (s' : Session) : Prop :=
  s'.peer = s.peer ∧ s'.source = s.source ∧ s'.track = s.track

theorem readCodec_leaves (name : String) (offered : Bool) (note : Globals → Globals) :
    Leaves (readCodec asked name offered note) s (fun _ s' => SameMedia s s') (SameMedia s) := by
  rw [readCodec]
  split
  · cases offered
    · exact ⟨rfl, rfl, rfl⟩
    · exact ⟨rfl, rfl, rfl⟩
  · exact ⟨rfl, rfl, rfl⟩

theorem ensureWebrtcFactory_leaves :
    Leaves (ensureWebrtcFactory asked o) s (fun _ s' => SameMedia s s') (SameMedia s) := by
  have hsame : SameMedia s s := ⟨rfl, rfl, rfl⟩
  refine Leaves.bind (q := fun a s' => a = s ∧ s' = s) ⟨rfl, rfl⟩ ?_
  rintro _ _ ⟨rfl, rfl⟩
  split
  · exact Leaves.pure () hsame
  · split
    · exact hsame
    · exact hsame

theorem createPeerConnection_leaves (hpeer : s.peer = none) :
    Leaves (createPeerConnection asked o) s (fun _ _ => True) fun s' => s'.peer = none := by
  refine ((ensureWebrtcFactory_leaves asked o s).mono (fun _ _ h => h)
    fun s' hs' => hs'.1.trans hpeer).bind fun _ s' hs' => ?_
  split
  · exact trivial
  · exact hs'.1.trans hpeer

theorem releasing_leaves (x : Handle Unit) :
    Leaves (releasing x) s (fun _ _ => True) fun s' => s'.peer = none := by
  simp only [Leaves, EStateM.run, releasing]
  cases x s <;> simp

variable {asked o s}

/-- Up to the peer, a call only reads the offer. -/
theorem setRemoteOffer_leaves {q : Unit → Session → Prop} {e : Session → Prop}
    (hrest : ∀ s', SameMedia s s' → Leaves (if s'.peer.isSome then attachMediaTracks asked o
      else do
        createPeerConnection asked o
        releasing (attachMediaTracks asked o)) s' q e)
    (he : ∀ s', SameMedia s s' → e s') : Leaves (setRemoteOffer asked readers o) s q e := by
  refine Leaves.bind (q := fun _ s' => SameMedia s s') ⟨rfl, rfl, rfl⟩ fun _ s₁ h₁ => ?_
  have htrans : ∀ {s' s''}, SameMedia s s' → SameMedia s' s'' → SameMedia s s'' :=
    fun h h' => ⟨h'.1.trans h.1, h'.2.1.trans h.2.1, h'.2.2.trans h.2.2⟩
  refine ((readCodec_leaves asked s₁ "av1" _ _).mono (fun _ _ h => htrans h₁ h)
    fun s' h => he s' (htrans h₁ h)).bind fun _ s₂ h₂ => ?_
  refine ((readCodec_leaves asked s₂ "hevc" _ _).mono (fun _ _ h => htrans h₂ h)
    fun s' h => he s' (htrans h₂ h)).bind fun _ s₃ h₃ => ?_
  exact hrest s₃ h₃

theorem setRemoteOffer_releases (hpeer : s.peer = none) :
    Leaves (setRemoteOffer asked readers o) s (fun _ _ => True) fun s' => s'.peer = none := by
  refine setRemoteOffer_leaves readers (fun s' hs' => ?_) fun s' hs' => hs'.1.trans hpeer
  have hpeer' : s'.peer = none := hs'.1.trans hpeer
  rw [if_neg (by simp [hpeer'])]
  exact (createPeerConnection_leaves asked o s' hpeer').bind fun _ s'' _ =>
    releasing_leaves s'' (attachMediaTracks asked o)

/-- What is there is not made again. -/
theorem present_leaves (present : Session → Bool) {x : Session → Handle Unit}
    (hpresent : present s = true) :
    Leaves (do
      let s ← get
      if present s then pure () else x s) s (fun _ s' => s' = s) fun s' => s' = s := by
  refine Leaves.bind (q := fun a s' => a = s ∧ s' = s) ⟨rfl, rfl⟩ ?_
  rintro _ _ ⟨rfl, rfl⟩
  rw [if_pos hpresent]
  exact Leaves.pure () rfl

theorem attachMedia_leaves (hwhole : Whole asked s) (m : Media) :
    Leaves (attachMedia asked o m) s (fun _ s' => s' = s) fun s' => s' = s := by
  rw [attachMedia]
  split
  · rename_i hm
    refine (present_leaves (·.source m) (hwhole m hm).1).bind ?_
    rintro _ _ rfl
    exact present_leaves (·.track m) (hwhole m hm).2
  · exact Leaves.pure () rfl

theorem Whole.sameMedia {s' : Session} (hwhole : Whole asked s) (h : SameMedia s s') :
    Whole asked s' := by
  intro m hm
  rw [h.2.1, h.2.2]
  exact hwhole m hm

/-- **A call on a session with a peer** changes neither the peer nor the media. -/
theorem setRemoteOffer_keeps (hpeer : s.peer.isSome = true) (hwhole : Whole asked s) :
    Leaves (setRemoteOffer asked readers o) s (fun _ s' => SameMedia s s') (SameMedia s) := by
  refine setRemoteOffer_leaves readers (fun s' hs' => ?_) fun s' hs' => hs'
  have htrans : ∀ {s''}, SameMedia s' s'' → SameMedia s s'' :=
    fun h => ⟨h.1.trans hs'.1, h.2.1.trans hs'.2.1, h.2.2.trans hs'.2.2⟩
  rw [if_pos (hs'.1 ▸ hpeer)]
  refine ((ensureWebrtcFactory_leaves asked o s').mono (fun _ _ h => htrans h)
    fun _ h => htrans h).bind fun _ s₁ h₁ => ?_
  have hwhole₁ : Whole asked s₁ := hwhole.sameMedia h₁
  refine ((attachMedia_leaves hwhole₁ .audio).mono (fun _ _ h => h) ?_).bind ?_
  · rintro _ rfl
    exact h₁
  · rintro _ _ rfl
    refine (attachMedia_leaves hwhole₁ .video).mono ?_ ?_
    · rintro _ _ rfl
      exact h₁
    · rintro _ rfl
      exact h₁

/-! ## Sequences of calls -/

variable (asked) in
/-- The tracks asked for are on the peer, if there is one. -/
structure Inv (s : Session) : Prop where
  attached : Attached asked s
  whole : ∀ tracks, s.peer = some tracks →
    Whole asked s ∧ ∀ m, asked.media m = true → tracks m = true

/-- A new peer has what was asked for exactly when there was no residue. -/
theorem attached_new_iff {s' : Session}
    (hpeer : s'.peer = some fun m => asked.media m && !s.track m) :
    Attached asked { s' with returned := some true } ↔
      ∀ m, asked.media m = true → s.track m = false := by
  constructor
  · intro h m hm
    obtain ⟨tracks, htracks, hall⟩ := h rfl
    obtain rfl := Option.some.inj (hpeer.symm.trans htracks)
    simpa [hm] using hall m hm
  · intro h _
    exact ⟨_, hpeer, fun m hm => by simp [hm, h m hm]⟩

/-- A call on a session that has a peer keeps the invariant. -/
theorem Inv.step_peer {s' : Session} (h : Inv asked s) (hpeer : s.peer.isSome = true)
    (hstep : step asked readers s o = some s') : Inv asked s' := by
  obtain ⟨tracks, htracks⟩ := Option.isSome_iff_exists.mp hpeer
  obtain ⟨hwhole, hall⟩ := h.whole tracks htracks
  have hkeeps : Leaves (setRemoteOffer asked readers o)
      { s with globals := o.elsewhere s.globals } (fun _ s' => SameMedia s s') (SameMedia s) :=
    setRemoteOffer_keeps readers hpeer hwhole
  have hinv : ∀ t : Session, SameMedia s t → ∀ r, Inv asked { t with returned := some r } := by
    intro t ht r
    have hsame : t.peer = some tracks := ht.1.trans htracks
    refine ⟨fun _ => ⟨tracks, hsame, hall⟩, fun tracks' htracks' => ⟨hwhole.sameMedia ht, ?_⟩⟩
    obtain rfl := Option.some.inj (hsame.symm.trans htracks')
    exact hall
  rw [step] at hstep
  cases hrun : (setRemoteOffer asked readers o).run { s with globals := o.elsewhere s.globals } <;>
    simp only [hrun, Leaves, Option.some.injEq] at hstep hkeeps <;> subst hstep
  · exact hinv _ hkeeps true
  · exact hinv _ hkeeps false

/-- A call on a session without a peer keeps the invariant without residue, and breaks the claim
with it. -/
theorem step_new {s' : Session} (hpeer : s.peer = none)
    (hstep : step asked readers s o = some s') :
    (NoResidue asked readers s o → Inv asked s') ∧
      (¬NoResidue asked readers s o → ¬Attached asked s') := by
  have hends := setRemoteOffer_ends asked readers o { s with globals := o.elsewhere s.globals }
    hpeer
  have hreleases : Leaves (setRemoteOffer asked readers o)
      { s with globals := o.elsewhere s.globals } (fun _ _ => True) fun s' => s'.peer = none :=
    setRemoteOffer_releases readers hpeer
  have hnoResidue : NoResidue asked readers s o ↔
      (Completes asked readers o { s with globals := o.elsewhere s.globals } →
        ∀ m, asked.media m = true → s.track m = false) := by
    simp [NoResidue, hpeer]
  rw [step] at hstep
  cases hrun : (setRemoteOffer asked readers o).run { s with globals := o.elsewhere s.globals } with
  | ok a t =>
      simp only [hrun, Option.some.injEq] at hstep
      subst hstep
      have hcompletes := hends.ok_iff.mp ⟨a, t, hrun⟩
      obtain ⟨hnew, hwhole⟩ := hends.of_run hrun
      rw [hnoResidue, forall_prop_of_true hcompletes, ← attached_new_iff hnew]
      refine ⟨fun h => ⟨h, fun tracks htracks => ⟨hwhole, ?_⟩⟩, id⟩
      obtain ⟨tracks', htracks', hall⟩ := h rfl
      obtain rfl := Option.some.inj (htracks'.symm.trans htracks)
      exact hall
  | error e t =>
      simp only [hrun, Option.some.injEq] at hstep
      subst hstep
      have hnone : t.peer = none := by simpa [Leaves, hrun] using hreleases
      have hnot : ¬Completes asked readers o { s with globals := o.elsewhere s.globals } := by
        intro hcompletes
        simpa [hrun] using hends.ok_iff.mpr hcompletes
      refine ⟨fun _ => ⟨fun h => ?_, fun tracks htracks => ?_⟩, fun h => ?_⟩
      · simp at h
      · simp [hnone] at htracks
      · exact absurd (hnoResidue.mpr fun hc => absurd hc hnot) h

theorem step_total (s : Session) (o : Offer) : ∃ s', step asked readers s o = some s' := by
  rw [step]
  split <;> exact ⟨_, rfl⟩

variable (asked)

/-- **Offers attach what was asked for** all along a sequence of calls exactly when no call that
makes a peer and goes through finds a track from before. -/
theorem offers_attached_iff (g : Globals) (os : List Offer) :
    Always (step asked readers) (Attached asked) { globals := g } os ↔
      RunMeets (step asked readers) (NoResidue asked readers) { globals := g } os := by
  obtain ⟨t, ht⟩ := exists_run (step_total readers) { globals := g } os
  refine always_iff_runMeets (fun s (hs : Inv asked s) => hs.attached) ?_ ?_ ?_ ht
  · intro s o s' hs hno hstep
    cases hpeer : s.peer with
    | none => exact (step_new readers hpeer hstep).1 hno
    | some tracks => exact hs.step_peer readers (by simp [hpeer]) hstep
  · intro s o s' hs hresidue hstep
    cases hpeer : s.peer with
    | none => exact (step_new readers hpeer hstep).2 hresidue
    | some tracks => exact absurd (fun h => by simp [hpeer] at h) hresidue
  · exact ⟨fun h => by simp at h, fun tracks htracks => by simp at htracks⟩

end

/-- The video source of the first offer cannot be made; its audio track stays, so the peer of the
second offer goes without. -/
theorem second_offer_lacks_audio :
    ∃ s, run (step ⟨fun _ => true, some "h264"⟩ ⟨fun _ => {}, fun _ => {}⟩) {}
        [{ media := fun m => { source := m = .audio } }, {}] = some s ∧
      s.returned = some true ∧ s.peer.map (· .audio) = some false := by
  refine ⟨_, rfl, ?_, ?_⟩
  · rfl
  · rfl

end LuminalShine.WebRtc.Offers
