import LuminalShine.Lib.Ends
import LuminalShine.Lib.Run

/-!
# Remote offers

`set_remote_offer` makes the session's peer when there is none and attaches the tracks that the
session asked for.  Any native call may fail.  When attaching to a new peer fails, the peer is
released; the sources and tracks that were made by then stay in the session.

A peer is given by the tracks that have been added to it.  The readers of an offer's codec lines
are parameters.

## Main definitions

* `Session`, `Offer` — the session and one call with what the native calls answer.
* `attachMediaTracks`, `setRemoteOffer`.
* `step` — a call, which records what it returned.
* `Attached` — what a call that returned true should have left.
* `Completes` — the answers with which a call on a session without a peer returns true.
-/

namespace LuminalShine.WebRtc.Offers

open LuminalShine.Lib

inductive Media where
  | audio
  | video
  deriving DecidableEq, Repr

inductive Codec where
  | h264
  | h265
  | av1
  deriving DecidableEq, Repr

structure Av1FmtpParams where
  profile : String := "0"
  levelIdx : String := "5"
  tier : String := "0"
  deriving DecidableEq, Repr

/-- `Av1OfferInfo` and `HevcOfferInfo`. -/
structure CodecOffer (α : Type) where
  offered : Bool := false
  fmtp : Option α := none

/-- `parse_av1_offer` and `parse_hevc_offer`. -/
structure OfferReaders where
  av1 : String → CodecOffer Av1FmtpParams
  hevc : String → CodecOffer String

/-- What the session was created with. -/
structure Asked where
  media : Media → Bool
  codec : Option String

structure Factory where
  codec : Codec
  av1 : Option Av1FmtpParams
  hevc : Option String
  deriving DecidableEq, Repr

/-- What all sessions share. -/
structure Globals where
  factory : Option Factory := none
  desiredAv1 : Option Av1FmtpParams := none
  desiredHevc : Option String := none
  deriving DecidableEq, Repr

/-- `peer` has the tracks that were added to it.  `returned` is what the last call returned. -/
structure Session where
  globals : Globals := {}
  remoteOffer : Option (String × String) := none
  peer : Option (Media → Bool) := none
  source : Media → Bool := fun _ => false
  track : Media → Bool := fun _ => false
  returned : Option Bool := none

/-- What the native calls answer for one kind of media. -/
structure MediaAnswers where
  source : Bool := true
  track : Bool := true
  add : Bool := true
  deriving DecidableEq, Repr

/-- A call, with what the native calls answer if they are made.  `elsewhere` is what other sessions
have done since the last call, and `otherPeers` the number of peers that they have. -/
structure Offer where
  sdp : String := ""
  type : String := "offer"
  elsewhere : Globals → Globals := id
  otherPeers : ℕ := 0
  factoryCreate : Bool := true
  factoryInitialize : Bool := true
  constraints : Bool := true
  peer : Bool := true
  media : Media → MediaAnswers := fun _ => {}

/-- Raising is to return false. -/
abbrev Handle := EStateM Unit Session

/-- `boost::iequals` -/
def iequals (a b : String) : Bool := a.toList.map Char.toUpper == b.toList.map Char.toUpper

section

variable (asked : Asked) (readers : OfferReaders) (o : Offer)

def hasCodec (name : String) : Bool := asked.codec.any (iequals · name)

/-- `session_codec_to_lwrtc`. -/
def preferredCodec : Option Codec :=
  if hasCodec asked "hevc" then some .h265
  else if hasCodec asked "av1" then some .av1
  else if hasCodec asked "h264" then some .h264
  else none

/-! ## The factory -/

def activePeers (s : Session) : ℕ := o.otherPeers + if s.peer.isSome then 1 else 0

/-- The factory is for another codec, or for other parameters of the codec. -/
def isStale (g : Globals) (f : Factory) : Bool :=
  match preferredCodec asked with
  | none => false
  | some codec =>
      codec ≠ f.codec || codec = .av1 && g.desiredAv1 ≠ f.av1 ||
        codec = .h265 && g.desiredHevc ≠ f.hevc

/-- A stale factory is kept while any session has a peer. -/
def hasFactory (s : Session) : Bool :=
  s.globals.factory.any fun f => !(isStale asked s.globals f && activePeers o s == 0)

def newFactory (g : Globals) : Factory :=
  let codec := (preferredCodec asked).getD .h264
  { codec,
    av1 := if codec = .av1 then g.desiredAv1 else none
    hevc := if codec = .h265 then g.desiredHevc else none }

/-- `ensure_webrtc_factory_locked`. -/
def ensureWebrtcFactory : Handle Unit := do
  let s ← get
  if hasFactory asked o s then pure ()
  else if o.factoryCreate && o.factoryInitialize then
    set { s with globals := { s.globals with factory := some (newFactory asked s.globals) } }
  else do
    set { s with globals := { s.globals with factory := none } }
    throw ()

/-! ## Tracks -/

def attachSource (m : Media) : Handle Unit := do
  let s ← get
  if s.source m then pure ()
  else if (o.media m).source then set { s with source := Function.update s.source m true }
  else throw ()

/-- The track stays in the session when the peer does not take it. -/
def attachTrack (m : Media) : Handle Unit := do
  let s ← get
  if s.track m then pure ()
  else if (o.media m).track then do
    set { s with track := Function.update s.track m true }
    if (o.media m).add then
      modify fun s => { s with peer := s.peer.map fun tracks => Function.update tracks m true }
    else throw ()
  else throw ()

def attachMedia (m : Media) : Handle Unit :=
  if asked.media m then do
    attachSource o m
    attachTrack o m
  else pure ()

/-- `attach_media_tracks`, on a session with a peer. -/
def attachMediaTracks : Handle Unit := do
  ensureWebrtcFactory asked o
  attachMedia asked o .audio
  attachMedia asked o .video

/-! ## Offers -/

/-- A codec that the session asked for must be in the offer. -/
def readCodec (name : String) (offered : Bool) (note : Globals → Globals) : Handle Unit :=
  if hasCodec asked name then do
    modify fun s => { s with globals := note s.globals }
    if offered then pure () else throw ()
  else pure ()

def noteAv1 (g : Globals) : Globals := { g with desiredAv1 := (readers.av1 o.sdp).fmtp }

def noteHevc (g : Globals) : Globals := { g with desiredHevc := (readers.hevc o.sdp).fmtp }

def readAv1 : Handle Unit :=
  readCodec asked "av1" (readers.av1 o.sdp).offered (noteAv1 readers o)

def readHevc : Handle Unit :=
  readCodec asked "hevc" (readers.hevc o.sdp).offered (noteHevc readers o)

/-- `create_peer_connection`. -/
def createPeerConnection : Handle Unit := do
  ensureWebrtcFactory asked o
  if o.constraints && o.peer then modify fun s => { s with peer := some fun _ => false }
  else throw ()

/-- What fails on a new peer releases it. -/
def releasing (x : Handle Unit) : Handle Unit := fun s =>
  match x.run s with
  | .ok a s' => .ok a s'
  | .error e s' => .error e { s' with peer := none }

def setRemoteOffer : Handle Unit := do
  modify fun s => { s with remoteOffer := some (o.sdp, o.type) }
  readAv1 asked readers o
  readHevc asked readers o
  let s ← get
  if s.peer.isSome then attachMediaTracks asked o
  else do
    createPeerConnection asked o
    releasing (attachMediaTracks asked o)

def step (s : Session) (o : Offer) : Option Session :=
  match (setRemoteOffer asked readers o).run { s with globals := o.elsewhere s.globals } with
  | .ok _ s' => some { s' with returned := some true }
  | .error _ s' => some { s' with returned := some false }

/-! ## The property and its condition -/

/-- If the last call returned true, every track asked for is on the current peer. -/
def Attached (s : Session) : Prop :=
  s.returned = some true →
    ∃ tracks, s.peer = some tracks ∧ ∀ m, asked.media m = true → tracks m = true

/-- What all sessions share once the offer's codec lines are read. -/
def desiring (g : Globals) : Globals :=
  let g := if hasCodec asked "av1" then noteAv1 readers o g else g
  if hasCodec asked "hevc" then noteHevc readers o g else g

/-- The codec asked for is in the offer. -/
def Offered : Prop :=
  (hasCodec asked "av1" = true → (readers.av1 o.sdp).offered = true) ∧
    (hasCodec asked "hevc" = true → (readers.hevc o.sdp).offered = true)

def FactoryReady (s : Session) : Prop :=
  hasFactory asked o s = true ∨ o.factoryCreate = true ∧ o.factoryInitialize = true

/-- What a kind of media needs of the native calls: nothing for what is there. -/
def MediaReady (s : Session) (m : Media) : Prop :=
  asked.media m = true →
    (s.source m = true ∨ (o.media m).source = true) ∧
      (s.track m = true ∨ (o.media m).track = true ∧ (o.media m).add = true)

/-- Every native call that is made on a session without a peer succeeds. -/
structure Completes (s : Session) : Prop where
  offered : Offered asked readers o
  factory : FactoryReady asked o { s with globals := desiring asked readers o s.globals }
  constraints : o.constraints = true
  peer : o.peer = true
  media : ∀ m, MediaReady asked o s m

/-- The condition of a call: if it makes a peer and goes through, the session has none of the
tracks left that it asked for. -/
def NoResidue (s : Session) (o : Offer) : Prop :=
  s.peer = none → Completes asked readers o { s with globals := o.elsewhere s.globals } →
    ∀ m, asked.media m = true → s.track m = false

end

end LuminalShine.WebRtc.Offers
