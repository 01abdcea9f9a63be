import LuminalShine.Lib.PropertyTree
import LuminalShine.Lib.Separated
import Mathlib

/-!
# Opus parameters of an answer

`apply_opus_audio_params` of `src/webrtc_stream.cpp`.  Before an answer is set, the fmtp line of
its Opus payload is rewritten to say what the capture really sends; a payload for more than two
channels is moved to the front of the list in the first audio m-line.

A byte of the text is a character here; no character but those of ASCII is looked at.

## Main definitions

* `splitSdpLines`, `joinSdpLines`, `parseRtpmap`, `rebuildFmtpParams` — the source's.
* `marked` — the lines, each with the `in_audio` that all three loops of the source compute.
* `applyOpusAudioParams` — the rewrite.

## Main results

* `splitSdpLines_join` — what is read back from lines that were joined.
* `rebuild_rebuild` — parameters that were rebuilt are rebuilt to themselves.
-/

namespace LuminalShine.WebRtc.OpusSdp

open LuminalShine.Lib

abbrev Text := List Char

local instance lawfulBEqText : LawfulBEq Text := inferInstance

/-! ## The layouts -/

/-- `opus_stream_config_t`. -/
structure StreamConfig where
  sampleRate : ℕ
  channelCount : ℕ
  streams : ℕ
  coupledStreams : ℕ
  mapping : List ℕ
  bitrate : ℕ
  deriving DecidableEq, Repr

/-- The rows of `stream_configs` that `map_stream` can choose for high quality: the row for
stereo is the plain one where the count is unknown. -/
def streamConfig (channels : ℤ) : StreamConfig :=
  if channels = 2 then ⟨48000, 2, 1, 1, [0, 1], 512000⟩
  else if channels = 6 then ⟨48000, 6, 6, 0, [0, 1, 2, 3, 4, 5], 1536000⟩
  else if channels = 8 then ⟨48000, 8, 8, 0, [0, 1, 2, 3, 4, 5, 6, 7], 2048000⟩
  else ⟨48000, 2, 1, 1, [0, 1], 96000⟩

/-! ## Lines -/

/-- `sdp_line_t`. -/
structure SdpLine where
  text : Text
  crlf : Bool
  deriving DecidableEq, Repr

/-- What `split_sdp_lines` makes of the text between two line feeds. -/
def SdpLine.ofPiece (piece : Text) : SdpLine :=
  if piece.getLast? = some '\r' then ⟨piece.dropLast, true⟩ else ⟨piece, false⟩

def splitSdpLines (sdp : Text) : List SdpLine := (sdp.splitOn '\n').map .ofPiece

def joinSdpLines : List SdpLine → Text
  | [] => []
  | [line] => line.text
  | line :: next :: rest =>
      line.text ++ (if line.crlf then ['\r', '\n'] else ['\n']) ++ joinSdpLines (next :: rest)

def isBlank (ch : Char) : Bool := ch = ' ' || ch = '\t'

/-- `trim_ascii`. -/
def trimAscii (text : Text) : Text := (text.dropWhile isBlank).rdropWhile isBlank

/-- `boost::istarts_with`. -/
def istartsWith (text word : Text) : Bool :=
  (word.map Char.toLower).isPrefixOf (text.map Char.toLower)

/-- The text before its first blank and the text behind it, if there is one. -/
def cutAtBlank (text : Text) : Option (Text × Text) :=
  match text.dropWhile (fun ch => !isBlank ch) with
  | [] => none
  | _ :: behind => some (text.takeWhile (fun ch => !isBlank ch), behind)

def digitsValue (digits : Text) : ℤ :=
  digits.foldl (fun value ch => 10 * value + (ch.toNat - 48 : ℤ)) 0

/-- `std::from_chars` for an `int`: as many digits as there are, and an error when there are
none or the number does not fit. -/
def fromChars (text : Text) : Option ℤ :=
  let negative := text.head? = some '-'
  let digits := (if negative then text.tail else text).takeWhile Char.isDigit
  let value := if negative then -digitsValue digits else digitsValue digits
  if digits ≠ [] ∧ -2147483648 ≤ value ∧ value ≤ 2147483647 then some value else none

def mediaWord : Text := "m=".toList

def audioWord : Text := "m=audio".toList

def rtpmapWord : Text := "a=rtpmap:".toList

def fmtpWord : Text := "a=fmtp:".toList

/-- `rtpmap_entry_t`. -/
structure RtpmapEntry where
  pt : ℕ
  name : Text
  channels : ℤ
  deriving DecidableEq, Repr

/-- The channel count of a codec, one where none is given. -/
def parseChannels (codec : Text) : ℤ :=
  let afterRate := (codec.dropWhile (· ≠ '/')).tail
  match afterRate.dropWhile (· ≠ '/') with
  | [] => 1
  | _ :: channels =>
      match fromChars (trimAscii channels) with
      | some value => if value > 0 then value else 1
      | none => 1

def parseRtpmap (line : Text) : Option RtpmapEntry := do
  guard (istartsWith line rtpmapWord)
  let (before, behind) ← cutAtBlank (line.drop rtpmapWord.length)
  let pt ← fromChars (trimAscii before)
  guard (0 ≤ pt)
  let codec := trimAscii behind
  return {
    pt := pt.toNat
    name := (codec.takeWhile (· ≠ '/')).map Char.toLower
    channels := parseChannels codec }

/-! ## Parameters -/

/-- `owned_keys`: the parameters that are restated. -/
def ownedKeys : List Text :=
  ["maxaveragebitrate".toList, "stereo".toList, "sprop-stereo".toList, "cbr".toList,
    "usedtx".toList, "num_streams".toList, "coupled_streams".toList, "channel_mapping".toList]

/-- The key of a parameter, in lower case. -/
def keyOf (token : Text) : Text := (token.takeWhile (· ≠ '=')).map Char.toLower

def owned (token : Text) : Bool := ownedKeys.contains (keyOf token)

/-- The parameters of a list, blank ones left out. -/
def tokens (params : Text) : List Text :=
  ((params.splitOn ';').map trimAscii).filter (· ≠ [])

/-- `append`. -/
def appendParam (params token : Text) : Text :=
  if params = [] then token else params ++ ';' :: token

def number (n : ℕ) : Text := (toString n).toList

/-- The parameters that `rebuild_fmtp_params` restates. -/
def negotiated (config : StreamConfig) (multiopus : Bool) : List Text :=
  ["maxaveragebitrate=".toList ++ number config.bitrate] ++
    (if multiopus then
      ["num_streams=".toList ++ number config.streams,
        "coupled_streams=".toList ++ number config.coupledStreams,
        "channel_mapping=".toList ++
          [','].intercalate ((config.mapping.take config.channelCount).map number)]
    else ["stereo=1".toList, "sprop-stereo=1".toList]) ++
    ["cbr=1".toList, "usedtx=0".toList]

/-- `rebuild_fmtp_params`, with what it restates. -/
def rebuildFmtpParams (restated : List Text) (existing : Text) : Text :=
  ((tokens existing).filter (fun token => !owned token) ++ restated).foldl appendParam []

/-! ## The rewrite -/

def isMedia (line : SdpLine) : Bool := istartsWith line.text mediaWord

def isAudio (line : SdpLine) : Bool := istartsWith line.text audioWord

/-- The lines, each with the `in_audio` that the loops look at; an m-line is passed over. -/
def marked : Bool → List SdpLine → List (Bool × SdpLine)
  | _, [] => []
  | inAudio, line :: rest =>
      if isMedia line then (false, line) :: marked (isAudio line) rest
      else (inAudio, line) :: marked inAudio rest

/-- The payloads of the audio sections. -/
def rtpmaps (lines : List (Bool × SdpLine)) : List RtpmapEntry :=
  lines.filterMap fun line => if line.1 then parseRtpmap line.2.text else none

/-- The parameters of an fmtp line for the payload `pt`. -/
def fmtpParams (pt : ℕ) (line : SdpLine) : Option Text := do
  guard (istartsWith line.text fmtpWord)
  let (before, behind) ← cutAtBlank (line.text.drop fmtpWord.length)
  guard (trimAscii before = number pt)
  return trimAscii behind

def fmtpText (pt : ℕ) (params : Text) : Text := fmtpWord ++ number pt ++ ' ' :: params

/-- The loop over the fmtp lines, at one line. -/
def rewriteFmtp (pt : ℕ) (restated : List Text) (line : Bool × SdpLine) : SdpLine :=
  match if line.1 then fmtpParams pt line.2 else none with
  | none => line.2
  | some existing => { line.2 with text := fmtpText pt (rebuildFmtpParams restated existing) }

/-- `rewrote_fmtp`, after the loop. -/
def rewrote (pt : ℕ) (lines : List (Bool × SdpLine)) : Bool :=
  lines.any fun line => line.1 && (fmtpParams pt line.2).isSome

/-- Without an fmtp line one is inserted behind the first rtpmap line of the payload. -/
def insertFmtp (pt : ℕ) (restated : List Text) : List (Bool × SdpLine) → List SdpLine
  | [] => []
  | line :: rest =>
      if line.1 ∧ (parseRtpmap line.2.text).map RtpmapEntry.pt = some pt then
        line.2 :: ⟨fmtpText pt (rebuildFmtpParams restated []), line.2.crlf⟩ :: rest.map Prod.snd
      else line.2 :: insertFmtp pt restated rest

/-- The payload list of an m-line. -/
def payloads (fields : List Text) : List Text := fields.drop 3

/-- The first audio m-line with the payload moved to the front of its list. -/
def promote (pt : ℕ) (line : SdpLine) : SdpLine :=
  let fields := line.text.splitOn ' '
  if number pt ∈ payloads fields ∧ (payloads fields).head? ≠ some (number pt) then
    { line with
      text := [' '].intercalate
        (fields.take 3 ++ number pt :: (payloads fields).erase (number pt)) }
  else line

/-- `opus_sdp_result_t`. -/
structure OpusSdpResult where
  sdp : Text
  channels : ℤ
  multiopus : Bool
  deriving DecidableEq, Repr

def opusName : Text := "opus".toList

def multiopusName : Text := "multiopus".toList

/-- The payload that is rewritten, and whether it is one for more than two channels. -/
def targetPt (entries : List RtpmapEntry) (channels : ℤ) : Option ℕ × Bool :=
  let wantMultichannel := channels > 2 ∧ (streamConfig channels).channelCount = channels
  let multiopus := entries.find? fun e => e.name = multiopusName ∧ e.channels = channels
  if wantMultichannel ∧ multiopus.isSome then (multiopus.map RtpmapEntry.pt, true)
  else ((entries.find? fun e => e.name = opusName).map RtpmapEntry.pt, false)

/-- `apply_opus_audio_params`. -/
def applyOpusAudioParams (sdp : Text) (channels : ℤ) : OpusSdpResult :=
  let lines := splitSdpLines sdp
  let (target, multiopus) := targetPt (rtpmaps (marked false lines)) channels
  let channels := if multiopus then channels else 2
  match target with
  | none => { sdp, channels, multiopus }
  | some pt =>
      let restated := negotiated (streamConfig channels) multiopus
      let rewritten :=
        if rewrote pt (marked false lines) then
          (marked false lines).map (rewriteFmtp pt restated)
        else insertFmtp pt restated (marked false lines)
      let promoted :=
        match if multiopus then lines.findIdx? isAudio else none with
        | some audioMLine => rewritten.modify audioMLine (promote pt)
        | none => rewritten
      { sdp := joinSdpLines promoted, channels, multiopus }

/-! ## Lines that were joined -/

/-- The bytes of a line, its carriage return included. -/
def SdpLine.piece (line : SdpLine) : Text := line.text ++ if line.crlf then ['\r'] else []

/-- A line whose text does not itself end in the carriage return it is said to lack. -/
def SdpLine.Plain (line : SdpLine) : Prop :=
  line.crlf = false → line.text.getLast? ≠ some '\r'

/-- A line that is read back as it is, when it is followed by another one. -/
def SdpLine.Clean (line : SdpLine) : Prop := '\n' ∉ line.text ∧ line.Plain

theorem piece_ofPiece (piece : Text) : (SdpLine.ofPiece piece).piece = piece := by
  simp only [SdpLine.ofPiece]
  split_ifs with hcr
  · simp only [SdpLine.piece, if_true]
    exact List.dropLast_append_getLast? _ hcr
  · simp [SdpLine.piece]

theorem plain_ofPiece (piece : Text) : (SdpLine.ofPiece piece).Plain := by
  simp only [SdpLine.ofPiece]
  split_ifs with hcr
  · simp [SdpLine.Plain]
  · simpa [SdpLine.Plain] using hcr

theorem ofPiece_piece {line : SdpLine} (h : line.Plain) :
    SdpLine.ofPiece line.piece = line := by
  cases hcrlf : line.crlf with
  | true =>
      obtain ⟨text, crlf⟩ := line
      obtain rfl : crlf = true := hcrlf
      simp [SdpLine.piece, SdpLine.ofPiece]
  | false =>
      have hlast := h hcrlf
      obtain ⟨text, crlf⟩ := line
      obtain rfl : crlf = false := hcrlf
      simp [SdpLine.piece, SdpLine.ofPiece, hlast]

/-- Only the last line loses its carriage return when lines are joined. -/
def bodies : List SdpLine → List Text
  | [] => []
  | [line] => [line.text]
  | line :: next :: rest => line.piece :: bodies (next :: rest)

theorem bodies_ne_nil (line : SdpLine) (lines : List SdpLine) :
    bodies (line :: lines) ≠ [] := by
  cases lines <;> simp [bodies]

theorem joinSdpLines_eq (lines : List SdpLine) :
    joinSdpLines lines = ['\n'].intercalate (bodies lines) := by
  induction lines with
  | nil => rfl
  | cons line rest ih =>
      cases rest with
      | nil => simp [joinSdpLines, bodies]
      | cons next rest =>
          rw [bodies, List.intercalate_cons_of_ne_nil (bodies_ne_nil next rest), ← ih,
            joinSdpLines, SdpLine.piece]
          cases line.crlf <;> simp

/-- What is read back from lines that were joined. -/
def settled : List SdpLine → List SdpLine
  | [] => []
  | [line] => [.ofPiece line.text]
  | line :: next :: rest => .ofPiece line.piece :: settled (next :: rest)

theorem settled_eq (lines : List SdpLine) : settled lines = (bodies lines).map .ofPiece := by
  induction lines with
  | nil => rfl
  | cons line rest ih =>
      cases rest with
      | nil => rfl
      | cons next rest => rw [settled, bodies, List.map_cons, ih]

theorem settled_concat (lines : List SdpLine) (line : SdpLine) :
    settled (lines ++ [line]) = lines.map (.ofPiece ·.piece) ++ [.ofPiece line.text] := by
  induction lines with
  | nil => rfl
  | cons first lines ih =>
      cases lines with
      | nil => rfl
      | cons next lines =>
          rw [List.cons_append, List.cons_append, settled, ← List.cons_append, ih]
          rfl

theorem settled_append (lines : List SdpLine) {rest : List SdpLine} (hne : rest ≠ []) :
    settled (lines ++ rest) = lines.map (.ofPiece ·.piece) ++ settled rest := by
  obtain ⟨front, last, rfl⟩ := List.eq_nil_or_concat' rest |>.resolve_left hne
  rw [← List.append_assoc, settled_concat, settled_concat, List.map_append, List.append_assoc]

theorem bodies_append (lines : List SdpLine) {rest : List SdpLine} (hne : rest ≠ []) :
    bodies (lines ++ rest) = lines.map SdpLine.piece ++ bodies rest := by
  induction lines with
  | nil => rfl
  | cons line lines ih =>
      obtain ⟨next, others, heq⟩ := List.exists_cons_of_ne_nil
        (show lines ++ rest ≠ [] by simp [hne])
      rw [List.cons_append, heq, bodies, ← heq, ih, List.map_cons, List.cons_append]

/-- Lines with the same bytes are joined to the same text. -/
theorem joinSdpLines_congr {lines lines' rest rest' : List SdpLine}
    (h : lines.map SdpLine.piece = lines'.map SdpLine.piece) (hne : rest ≠ []) (hne' : rest' ≠ [])
    (hrest : bodies rest = bodies rest') :
    joinSdpLines (lines ++ rest) = joinSdpLines (lines' ++ rest') := by
  rw [joinSdpLines_eq, joinSdpLines_eq, bodies_append _ hne, bodies_append _ hne', h, hrest]

theorem map_ofPiece_piece {lines : List SdpLine} (h : ∀ line ∈ lines, line.Plain) :
    lines.map (.ofPiece ·.piece) = lines :=
  (List.map_congr_left fun line hline => ofPiece_piece (h line hline)).trans (List.map_id' _)

theorem splitSdpLines_join {lines : List SdpLine} (hne : lines ≠ [])
    (hlf : ∀ line ∈ lines, '\n' ∉ line.text) :
    splitSdpLines (joinSdpLines lines) = settled lines := by
  have hbodies : ∀ body ∈ bodies lines, '\n' ∉ body := by
    clear hne
    induction lines with
    | nil => simp [bodies]
    | cons line rest ih =>
        have hline := hlf line List.mem_cons_self
        have hrest := ih fun l hl => hlf l (List.mem_cons_of_mem _ hl)
        cases rest with
        | nil => simpa [bodies] using hline
        | cons next rest =>
            rw [bodies, List.forall_mem_cons]
            refine ⟨?_, hrest⟩
            simp only [SdpLine.piece, List.mem_append, not_or]
            exact ⟨hline, by split_ifs <;> simp⟩
  obtain ⟨line, rest, rfl⟩ := List.exists_cons_of_ne_nil hne
  rw [splitSdpLines, joinSdpLines_eq,
    List.splitOn_intercalate _ hbodies (bodies_ne_nil line rest), settled_eq]

theorem clean_of_mem {sdp : Text} {line : SdpLine} (h : line ∈ splitSdpLines sdp) :
    line.Clean := by
  obtain ⟨piece, hpiece, rfl⟩ := List.mem_map.mp h
  refine ⟨?_, plain_ofPiece piece⟩
  have hlf := notMem_of_mem_splitOn hpiece
  simp only [SdpLine.ofPiece]
  split_ifs with hcr
  · exact fun hmem => hlf (List.dropLast_subset _ hmem)
  · exact hlf

/-! ## Fmtp lines -/

theorem number_isDigit {n : ℕ} {ch : Char} (h : ch ∈ number n) : ch.isDigit = true := by
  rw [number, Nat.toString_eq_repr, Nat.toList_repr] at h
  exact Nat.isDigit_of_mem_toDigits (by decide) (by decide) h

theorem not_isBlank_of_mem_number {n : ℕ} {ch : Char} (h : ch ∈ number n) :
    isBlank ch = false := by
  have hdigit := number_isDigit h
  simp only [isBlank, Bool.or_eq_false_iff, decide_eq_false_iff_not]
  constructor <;> rintro rfl <;> exact absurd hdigit (by decide)

theorem trimAscii_of_forall {text : Text} (h : ∀ ch ∈ text, isBlank ch = false) :
    trimAscii text = text := by
  rw [trimAscii, List.dropWhile_eq_self_iff.mpr, List.rdropWhile_eq_self_iff]
  · intro hne
    simp [h _ (List.getLast_mem hne)]
  · intro hpos
    simp [h _ (List.getElem_mem hpos)]

theorem cutAtBlank_append {text : Text} (h : ∀ ch ∈ text, isBlank ch = false) (behind : Text) :
    cutAtBlank (text ++ ' ' :: behind) = some (text, behind) := by
  have hdrop : (text ++ ' ' :: behind).dropWhile (fun ch => !isBlank ch) = ' ' :: behind := by
    rw [List.dropWhile_append_of_pos fun ch hch => by simp [h ch hch]]
    rfl
  have htake : (text ++ ' ' :: behind).takeWhile (fun ch => !isBlank ch) = text := by
    rw [List.takeWhile_append_of_pos fun ch hch => by simp [h ch hch]]
    simp [isBlank]
  rw [cutAtBlank, hdrop, htake]

/-- The parameters of a rewritten line. -/
theorem fmtpParams_fmtpText (pt : ℕ) (params : Text) (crlf : Bool) :
    fmtpParams pt ⟨fmtpText pt params, crlf⟩ = some (trimAscii params) := by
  have hword : istartsWith (fmtpText pt params) fmtpWord = true := rfl
  have hcut : cutAtBlank ((fmtpText pt params).drop fmtpWord.length) = some (number pt, params) :=
    cutAtBlank_append (fun ch => not_isBlank_of_mem_number) params
  have htrim : trimAscii (number pt) = number pt :=
    trimAscii_of_forall fun ch => not_isBlank_of_mem_number
  simp [fmtpParams, hword, hcut, htrim]

theorem isMedia_fmtpText (pt : ℕ) (params : Text) (crlf : Bool) :
    isMedia ⟨fmtpText pt params, crlf⟩ = false := rfl

theorem parseRtpmap_fmtpText (pt : ℕ) (params : Text) :
    parseRtpmap (fmtpText pt params) = none := by
  have hword : istartsWith (fmtpText pt params) rtpmapWord = false := rfl
  rw [parseRtpmap, hword]
  rfl

/-- An fmtp line is no rtpmap line. -/
theorem parseRtpmap_of_fmtpParams {pt : ℕ} {line : SdpLine}
    (h : (fmtpParams pt line).isSome = true) : parseRtpmap line.text = none := by
  have hfmtp : istartsWith line.text fmtpWord = true := by
    by_contra hno
    rw [Bool.not_eq_true] at hno
    rw [fmtpParams, hno] at h
    cases h
  have hrtpmap : istartsWith line.text rtpmapWord = false := by
    by_contra hyes
    rw [Bool.not_eq_false] at hyes
    simp only [istartsWith, List.isPrefixOf_iff_prefix] at hfmtp hyes
    exact absurd (List.prefix_of_prefix_length_le hfmtp hyes (by decide)) (by decide)
  rw [parseRtpmap, hrtpmap]
  rfl

/-! ## Rebuilt parameters -/

/-- A parameter that stands by itself: it has a character, no blank around it and no semicolon. -/
structure IsToken (token : Text) : Prop where
  ne_nil : token ≠ []
  trimmed : trimAscii token = token
  separate : ';' ∉ token

theorem trimAscii_subset (text : Text) : trimAscii text ⊆ text := fun _ hch =>
  (List.dropWhile_sublist _).subset ((List.rdropWhile_prefix _ _).subset hch)

theorem trimAscii_trimAscii (text : Text) : trimAscii (trimAscii text) = trimAscii text := by
  have hfront : ((text.dropWhile isBlank).rdropWhile isBlank).dropWhile isBlank =
      (text.dropWhile isBlank).rdropWhile isBlank := by
    have hdrop := List.dropWhile_eq_self_iff.mp (List.dropWhile_idempotent isBlank text)
    rw [List.dropWhile_eq_self_iff]
    intro hpos
    have hle := (List.rdropWhile_prefix isBlank (text.dropWhile isBlank)).length_le
    rw [(List.rdropWhile_prefix isBlank _).getElem hpos]
    exact hdrop (by omega)
  rw [trimAscii, trimAscii, hfront, List.rdropWhile_idempotent]

theorem trimAscii_eq_self_iff {text : Text} :
    trimAscii text = text ↔ text.dropWhile isBlank = text ∧ text.rdropWhile isBlank = text := by
  constructor
  · intro h
    have hback := (List.rdropWhile_prefix isBlank (text.dropWhile isBlank)).length_le
    have hfront : text.dropWhile isBlank = text := by
      refine (List.dropWhile_sublist isBlank).eq_of_length_le ?_
      rw [← trimAscii, h] at hback
      exact hback
    rw [trimAscii, hfront] at h
    exact ⟨hfront, h⟩
  · rintro ⟨hfront, hback⟩
    rw [trimAscii, hfront, hback]

/-- What begins and ends with trimmed text is trimmed. -/
theorem trimAscii_join {before behind : Text} (sep : Text) (hbefore : trimAscii before = before)
    (hbehind : trimAscii behind = behind) (hne : before ≠ []) (hne' : behind ≠ []) :
    trimAscii (before ++ (sep ++ behind)) = before ++ (sep ++ behind) := by
  rw [trimAscii_eq_self_iff] at *
  obtain ⟨ch, before, rfl⟩ := List.exists_cons_of_ne_nil hne
  constructor
  · have hch : isBlank ch = false := by
      have hpos := List.dropWhile_eq_self_iff.mp hbefore.1 (by simp)
      simpa using hpos
    rw [List.cons_append, List.dropWhile_cons_of_neg (by simp [hch])]
  · rw [List.rdropWhile_eq_self_iff] at hbehind ⊢
    intro _
    simpa [hne'] using hbehind.2 hne'

theorem isToken_of_mem {params token : Text} (h : token ∈ tokens params) : IsToken token := by
  simp only [tokens, List.mem_filter, List.mem_map, decide_eq_true_eq] at h
  obtain ⟨⟨part, hpart, rfl⟩, hne⟩ := h
  refine ⟨hne, trimAscii_trimAscii part, fun hmem => ?_⟩
  exact notMem_of_mem_splitOn hpart (trimAscii_subset part hmem)

theorem subset_of_mem_tokens {params token : Text} (h : token ∈ tokens params) :
    token ⊆ params := by
  simp only [tokens, List.mem_filter, List.mem_map] at h
  obtain ⟨⟨part, hpart, rfl⟩, -⟩ := h
  exact fun ch hch => subset_of_mem_splitOn hpart (trimAscii_subset part hch)

/-- Parameters that are appended one by one stand between semicolons. -/
theorem foldl_appendParam_of_ne_nil (params : List Text) {before : Text} (h : before ≠ []) :
    params.foldl appendParam before = [';'].intercalate (before :: params) := by
  induction params generalizing before with
  | nil => simp
  | cons token params ih =>
      rw [List.foldl_cons, appendParam, if_neg h, ih (by simp)]
      cases params <;> simp

theorem foldl_appendParam {params : List Text} (h : ∀ token ∈ params, IsToken token) :
    params.foldl appendParam [] = [';'].intercalate params := by
  cases params with
  | nil => rfl
  | cons token params =>
      have hne := (h token List.mem_cons_self).ne_nil
      rw [List.foldl_cons, appendParam, if_pos rfl, foldl_appendParam_of_ne_nil params hne]

theorem tokens_intercalate {params : List Text} (h : ∀ token ∈ params, IsToken token) :
    tokens ([';'].intercalate params) = params := by
  cases params with
  | nil => rfl
  | cons token params =>
      rw [tokens, List.splitOn_intercalate _ (fun t ht => (h t ht).separate) (by simp)]
      have htrim : (token :: params).map trimAscii = token :: params :=
        (List.map_congr_left fun t ht => (h t ht).trimmed).trans (List.map_id' _)
      rw [htrim, List.filter_eq_self]
      intro t ht
      simp [(h t ht).ne_nil]

theorem trimAscii_intercalate {params : List Text} (h : ∀ token ∈ params, IsToken token) :
    trimAscii ([';'].intercalate params) = [';'].intercalate params ∧
      (params ≠ [] → [';'].intercalate params ≠ []) := by
  induction params with
  | nil => exact ⟨rfl, fun hne => absurd rfl hne⟩
  | cons token params ih =>
      have htoken := h token List.mem_cons_self
      have hrest := ih fun t ht => h t (List.mem_cons_of_mem _ ht)
      cases params with
      | nil => simpa using ⟨htoken.trimmed, htoken.ne_nil⟩
      | cons next params =>
          rw [List.intercalate_cons_cons, List.append_assoc]
          exact ⟨trimAscii_join [';'] htoken.trimmed hrest.1 htoken.ne_nil (hrest.2 (by simp)),
            by simp [htoken.ne_nil]⟩

/-- What is restated: owned parameters, each of them once, the last of them `usedtx=0`. -/
structure Restated (restated : List Text) : Prop where
  tokens : ∀ token ∈ restated, IsToken token ∧ owned token = true
  once : (restated.map keyOf).Nodup
  lf : ∀ token ∈ restated, '\n' ∉ token
  last : restated.getLast? = some "usedtx=0".toList

section

variable {restated : List Text} (h : Restated restated)

include h

theorem isToken_kept_append (existing : Text) :
    ∀ token ∈ (tokens existing).filter (fun token => !owned token) ++ restated,
      IsToken token := by
  intro token htoken
  rcases List.mem_append.mp htoken with hkept | hrestated
  · exact isToken_of_mem (List.mem_filter.mp hkept).1
  · exact (h.tokens token hrestated).1

/-- The parameters of a rebuilt list: those that are not owned in their order, and then what is
restated. -/
theorem tokens_rebuild (existing : Text) :
    tokens (rebuildFmtpParams restated existing) =
      (tokens existing).filter (fun token => !owned token) ++ restated := by
  have htokens := isToken_kept_append h existing
  rw [rebuildFmtpParams, foldl_appendParam htokens, tokens_intercalate htokens]

theorem rebuild_rebuild (existing : Text) :
    rebuildFmtpParams restated (rebuildFmtpParams restated existing) =
      rebuildFmtpParams restated existing := by
  have hkept : (tokens (rebuildFmtpParams restated existing)).filter (fun token => !owned token) =
      (tokens existing).filter fun token => !owned token := by
    rw [tokens_rebuild h, List.filter_append, List.filter_filter]
    have hnone : restated.filter (fun token => !owned token) = [] := by
      rw [List.filter_eq_nil_iff]
      intro token htoken
      simp [(h.tokens token htoken).2]
    simp [hnone]
  rw [rebuildFmtpParams, hkept, ← rebuildFmtpParams]

/-- A rebuilt list has no blanks around it. -/
theorem trimAscii_rebuild (existing : Text) :
    trimAscii (rebuildFmtpParams restated existing) = rebuildFmtpParams restated existing := by
  have htokens := isToken_kept_append h existing
  rw [rebuildFmtpParams, foldl_appendParam htokens]
  exact (trimAscii_intercalate htokens).1

/-- A rebuilt list ends with what is restated. -/
theorem getLast_rebuild (existing : Text) :
    (rebuildFmtpParams restated existing).getLast? = some '0' := by
  obtain ⟨front, hfront⟩ := List.getLast?_eq_some_iff.mp h.last
  rw [rebuildFmtpParams, hfront, ← List.append_assoc, List.foldl_append, List.foldl_cons,
    List.foldl_nil, appendParam]
  split_ifs
  · rfl
  · rw [List.getLast?_append]
    rfl

theorem lf_notMem_rebuild {existing : Text} (hlf : '\n' ∉ existing) :
    '\n' ∉ rebuildFmtpParams restated existing := by
  rw [rebuildFmtpParams, foldl_appendParam (isToken_kept_append h existing)]
  refine notMem_intercalate (by decide) fun token htoken => ?_
  rcases List.mem_append.mp htoken with hkept | hrestated
  · exact fun hmem => hlf (subset_of_mem_tokens (List.mem_filter.mp hkept).1 hmem)
  · exact h.lf token hrestated

end

instance decidableIsToken (token : Text) : Decidable (IsToken token) :=
  decidable_of_iff (token ≠ [] ∧ trimAscii token = token ∧ ';' ∉ token)
    ⟨fun h => ⟨h.1, h.2.1, h.2.2⟩, fun h => ⟨h.ne_nil, h.trimmed, h.separate⟩⟩

instance decidableRestated (restated : List Text) : Decidable (Restated restated) :=
  decidable_of_iff
    ((∀ token ∈ restated, IsToken token ∧ owned token = true) ∧ (restated.map keyOf).Nodup ∧
      (∀ token ∈ restated, '\n' ∉ token) ∧ restated.getLast? = some "usedtx=0".toList)
    ⟨fun h => ⟨h.1, h.2.1, h.2.2.1, h.2.2.2⟩, fun h => ⟨h.tokens, h.once, h.lf, h.last⟩⟩

/-- Every row of the table is restated as it should be. -/
theorem restated_negotiated (channels : ℤ) (multiopus : Bool) :
    Restated (negotiated (streamConfig channels) multiopus) := by
  simp only [streamConfig]
  split_ifs <;> cases multiopus <;> decide

end LuminalShine.WebRtc.OpusSdp
