import LuminalShine.WebRtc.OpusSdp
import Mathlib.Data.List.Forall2

/-!
# The edits of an answer

What the loops of `applyOpusAudioParams` do to the lines: nothing before the first audio m-line;
in that line a payload may be moved to the front of its list; behind it the fmtp lines of the
payload are rewritten, or one is inserted behind the line that maps the payload.

A promoted m-line can end in a carriage return that was inside its list.  It is then read back
with that carriage return as its line end, and promoting it again still changes no byte.

## Main definitions

* `Splits` — the lines, cut at the first audio m-line.
* `Maps` — the marked lines, cut at the line that maps the payload.
* `Promoted`, `Restates` — what is asked of the m-line and of the fmtp lines.

## Main results

* `promoted_ofPiece`, `piece_promote_ofPiece` — the m-line.
* `paramsOf_rewriteFmtp`, `rewriteFmtp_rewriteFmtp`, `rtpmaps_rewriteFmtp` — the fmtp lines.
-/

namespace LuminalShine.WebRtc.OpusSdp

open LuminalShine.Lib

/-! ## What is asked of a line -/

/-- A line as the frame sees it: the fmtp lines of the chosen payload are left open, but for
their line ends. -/
inductive Part
  | other (line : SdpLine)
  | fmtp (crlf : Bool)
  deriving DecidableEq, Repr

def Part.isOther : Part → Bool
  | .other _ => true
  | .fmtp _ => false

/-- The parameters of the fmtp line that this is, if it is one of the payload. -/
def paramsOf (pt : ℕ) (line : Bool × SdpLine) : Option Text :=
  if line.1 then fmtpParams pt line.2 else none

def partOf (pt : ℕ) (line : Bool × SdpLine) : Part :=
  if (paramsOf pt line).isSome then .fmtp line.2.crlf else .other line.2

/-- The lines behind the first audio m-line. -/
def behindAudio (lines : List SdpLine) : List SdpLine := (lines.dropWhile (!isAudio ·)).tail

/-- The payload list of the m-line is put in another order, with the payload in front; the other
fields and the line end stay. -/
def Promoted (pt : ℕ) (line line' : SdpLine) : Prop :=
  ∃ list, list.Perm (payloads (line.text.splitOn ' ')) ∧ list.head? = some (number pt) ∧
    line'.piece = [' '].intercalate ((line.text.splitOn ' ').take 3 ++ list) ++
      if line.crlf then ['\r'] else []

/-- The parameters that are owned are restated, each once; the others stay in their order. -/
structure Restates (restated : List Text) (existing params : Text) : Prop where
  owned_eq : (tokens params).filter owned = restated
  once : (((tokens params).filter owned).map keyOf).Nodup
  others : (tokens params).filter (fun token => !owned token) =
    (tokens existing).filter fun token => !owned token

/-- A line maps the payload. -/
def mapsTo (pt : ℕ) (line : Bool × SdpLine) : Bool :=
  line.1 && decide ((parseRtpmap line.2.text).map RtpmapEntry.pt = some pt)

/-! ## Marked lines -/

variable {lines before behind : List SdpLine} {line : SdpLine} {pt : ℕ}

theorem isMedia_of_isAudio (h : isAudio line = true) : isMedia line = true := by
  simp only [isAudio, isMedia, istartsWith, List.isPrefixOf_iff_prefix] at h ⊢
  exact (by decide : mediaWord.map Char.toLower <+: audioWord.map Char.toLower).trans h

@[simp] theorem marked_snd (inAudio : Bool) (lines : List SdpLine) :
    (marked inAudio lines).map Prod.snd = lines := by
  induction lines generalizing inAudio with
  | nil => rfl
  | cons line rest ih =>
      rw [marked]
      split_ifs <;> simp [ih]

theorem exists_marked_concat (inAudio : Bool) (lines : List SdpLine) (line : SdpLine) :
    ∃ mark, marked inAudio (lines ++ [line]) = marked inAudio lines ++ [(mark, line)] := by
  induction lines generalizing inAudio with
  | nil =>
      simp only [List.nil_append, marked]
      split_ifs
      · exact ⟨false, rfl⟩
      · exact ⟨inAudio, rfl⟩
  | cons first lines ih =>
      rw [List.cons_append, marked, marked]
      split_ifs
      · obtain ⟨mark, heq⟩ := ih (isAudio first)
        exact ⟨mark, by rw [heq, List.cons_append]⟩
      · obtain ⟨mark, heq⟩ := ih inAudio
        exact ⟨mark, by rw [heq, List.cons_append]⟩

/-- Nothing is marked before the first audio m-line. -/
theorem marked_append (h : ∀ line ∈ before, isAudio line = false) (behind : List SdpLine) :
    marked false (before ++ behind) = before.map (Prod.mk false) ++ marked false behind := by
  induction before with
  | nil => rfl
  | cons line before ih =>
      have hline := h line List.mem_cons_self
      have hrest := ih fun l hl => h l (List.mem_cons_of_mem _ hl)
      rw [List.cons_append, marked, hline, hrest]
      simp

theorem marked_audio (hline : isAudio line = true) (behind : List SdpLine) :
    marked false (line :: behind) = (false, line) :: marked true behind := by
  rw [marked, if_pos (isMedia_of_isAudio hline), hline]

theorem modify_append (before behind : List SdpLine) (line : SdpLine) (f : SdpLine → SdpLine) :
    (before ++ line :: behind).modify before.length f = before ++ f line :: behind := by
  induction before with
  | nil => simp
  | cons l before ih => simpa using ih

/-- The lines fall into those before the first audio m-line, that line, and those behind it. -/
structure Splits (lines before : List SdpLine) (line : SdpLine) (behind : List SdpLine) :
    Prop where
  eq : lines = before ++ line :: behind
  quiet : ∀ l ∈ before, isAudio l = false
  audio : isAudio line = true

theorem exists_splits (h : rtpmaps (marked false lines) ≠ []) :
    ∃ before line behind, Splits lines before line behind := by
  by_cases hany : ∃ line ∈ lines, isAudio line = true
  · obtain ⟨line, hfind⟩ := Option.isSome_iff_exists.mp (List.find?_isSome.mpr hany)
    obtain ⟨haudio, before, behind, heq, hquiet⟩ := List.find?_eq_some_iff_append.mp hfind
    exact ⟨before, line, behind, heq, fun l hl => by simpa using hquiet l hl, haudio⟩
  · have hquiet : ∀ line ∈ lines, isAudio line = false := by simpa using hany
    have hmarked := marked_append hquiet []
    rw [List.append_nil] at hmarked
    rw [hmarked] at h
    exact absurd (by simp [rtpmaps, marked]) h

namespace Splits

variable (h : Splits lines before line behind)

include h

theorem takeWhile_eq : lines.takeWhile (!isAudio ·) = before := by
  rw [h.eq, List.takeWhile_append_of_pos fun l hl => by simp [h.quiet l hl],
    List.takeWhile_cons_of_neg (by simp [h.audio]), List.append_nil]

theorem behind_eq : behindAudio lines = behind := by
  rw [behindAudio, h.eq, List.dropWhile_append_of_pos fun l hl => by simp [h.quiet l hl],
    List.dropWhile_cons_of_neg (by simp [h.audio]), List.tail_cons]

theorem find_eq : lines.find? isAudio = some line :=
  List.find?_eq_some_iff_append.mpr
    ⟨h.audio, before, behind, h.eq, fun l hl => by simp [h.quiet l hl]⟩

theorem findIdx_eq : lines.findIdx? isAudio = some before.length := by
  rw [h.eq, List.findIdx?_append, List.findIdx?_eq_none_iff.mpr fun l hl => h.quiet l hl,
    List.findIdx?_cons, h.audio]
  simp

theorem marked_eq : marked false lines =
    before.map (Prod.mk false) ++ (false, line) :: marked true behind := by
  rw [h.eq, marked_append h.quiet, marked_audio h.audio]

theorem rtpmaps_eq : rtpmaps (marked false lines) = rtpmaps (marked true behind) := by
  rw [h.marked_eq]
  simp [rtpmaps]

theorem rewrote_eq : rewrote pt (marked false lines) = rewrote pt (marked true behind) := by
  rw [h.marked_eq]
  simp [rewrote]

theorem map_rewriteFmtp (restated : List Text) :
    (marked false lines).map (rewriteFmtp pt restated) =
      before ++ line :: (marked true behind).map (rewriteFmtp pt restated) := by
  rw [h.marked_eq]
  simp [rewriteFmtp, Function.comp_def]

theorem insertFmtp_eq (restated : List Text) :
    insertFmtp pt restated (marked false lines) =
      before ++ line :: insertFmtp pt restated (marked true behind) := by
  rw [h.marked_eq]
  clear h
  induction before with
  | nil => simp [insertFmtp]
  | cons l before ih => simpa [insertFmtp] using ih

end Splits

/-! ## The rewritten lines -/

/-- Marks are a matter of the lines up to the marked one. -/
theorem marked_upto {inAudio : Bool} {front back : List (Bool × SdpLine)} {m : Bool × SdpLine}
    (h : marked inAudio lines = front ++ m :: back) (hm : m.1 = true) (rest : List SdpLine) :
    marked inAudio (front.map Prod.snd ++ m.2 :: rest) = front ++ m :: marked true rest := by
  induction front generalizing inAudio lines with
  | nil =>
      cases lines with
      | nil => simp [marked] at h
      | cons line lines =>
          rw [marked] at h
          split_ifs at h with hmedia
          · obtain ⟨rfl, -⟩ := List.cons.inj h
            cases hm
          · obtain ⟨rfl, -⟩ := List.cons.inj h
            obtain rfl : inAudio = true := hm
            simp [marked, hmedia]
  | cons n front ih =>
      cases lines with
      | nil => simp [marked] at h
      | cons line lines =>
          rw [marked] at h
          split_ifs at h with hmedia
          · obtain ⟨rfl, hrest⟩ := List.cons.inj h
            simp [marked, hmedia, ih hrest]
          · obtain ⟨rfl, hrest⟩ := List.cons.inj h
            simp [marked, hmedia, ih hrest]

/-- A rewritten line is where the line was. -/
theorem rewriteFmtp_cases (pt : ℕ) (restated : List Text) (m : Bool × SdpLine) :
    (paramsOf pt m = none ∧ rewriteFmtp pt restated m = m.2) ∨
      ∃ existing, paramsOf pt m = some existing ∧ rewriteFmtp pt restated m =
        ⟨fmtpText pt (rebuildFmtpParams restated existing), m.2.crlf⟩ := by
  rw [rewriteFmtp, ← paramsOf]
  cases hparams : paramsOf pt m with
  | none => exact Or.inl ⟨rfl, rfl⟩
  | some existing => exact Or.inr ⟨existing, rfl, rfl⟩

theorem marked_rewriteFmtp (restated : List Text) (inAudio : Bool) (lines : List SdpLine) :
    marked inAudio ((marked inAudio lines).map (rewriteFmtp pt restated)) =
      (marked inAudio lines).map fun m => (m.1, rewriteFmtp pt restated m) := by
  induction lines generalizing inAudio with
  | nil => rfl
  | cons line lines ih =>
      rw [marked]
      split_ifs with hmedia
      · have hsame : rewriteFmtp pt restated (false, line) = line := by simp [rewriteFmtp]
        simp [marked, hsame, hmedia, ih]
      · have hmedia' : isMedia (rewriteFmtp pt restated (inAudio, line)) = false := by
          rcases rewriteFmtp_cases pt restated (inAudio, line) with ⟨-, heq⟩ | ⟨existing, -, heq⟩
          · rw [heq]
            simpa using hmedia
          · rw [heq]
            rfl
        simp [marked, hmedia', ih]

/-! ## The first audio m-line -/

/-- A word without the character that ends a text starts the text or does not. -/
theorem istartsWith_append {word : Text} {ch : Char}
    (h : ch.toLower ∉ word.map Char.toLower) (text behind : Text) :
    istartsWith (text ++ ch :: behind) word = istartsWith text word := by
  rw [Bool.eq_iff_iff, istartsWith, istartsWith, List.isPrefixOf_iff_prefix,
    List.isPrefixOf_iff_prefix, List.map_append, List.map_cons]
  constructor
  · intro hword
    rcases Nat.lt_or_ge (text.map Char.toLower).length (word.map Char.toLower).length with
      hlt | hle
    · have hthrough : text.map Char.toLower ++ [ch.toLower] <+: word.map Char.toLower :=
        List.prefix_of_prefix_length_le ⟨behind.map Char.toLower, by simp⟩ hword
          (by simpa [Nat.succ_le_iff] using hlt)
      exact absurd (hthrough.subset (by simp)) h
    · exact List.prefix_of_prefix_length_le hword (List.prefix_append _ _) hle
  · exact fun hword => hword.trans (List.prefix_append _ _)

theorem istartsWith_ofPiece {word : Text} (h : '\r' ∉ word.map Char.toLower) (piece : Text) :
    istartsWith (SdpLine.ofPiece piece).text word = istartsWith piece word := by
  simp only [SdpLine.ofPiece]
  split_ifs with hcr
  · have hsplit := List.dropLast_append_getLast? '\r' hcr
    conv_rhs => rw [← hsplit]
    exact (istartsWith_append (by simpa using h) _ []).symm
  · rfl

/-- The list of an m-line that is promoted already, or does not have the payload. -/
theorem promote_of_not (h : number pt ∈ payloads (line.text.splitOn ' ') →
    (payloads (line.text.splitOn ' ')).head? = some (number pt)) : promote pt line = line := by
  rw [promote, if_neg]
  rintro ⟨hmem, hhead⟩
  exact hhead (h hmem)

/-- A promoted line has the payload in front of its list. -/
theorem promote_cases (pt : ℕ) (line : SdpLine) :
    (promote pt line = line ∧ (number pt ∈ payloads (line.text.splitOn ' ') →
        (payloads (line.text.splitOn ' ')).head? = some (number pt))) ∨
      ∃ a b d first rest, line.text.splitOn ' ' = a :: b :: d :: first :: rest ∧
        number pt ∈ first :: rest ∧ first ≠ number pt ∧
        promote pt line = { line with
          text := [' '].intercalate
            (a :: b :: d :: number pt :: first :: rest.erase (number pt)) } := by
  by_cases h : number pt ∈ payloads (line.text.splitOn ' ') ∧
      (payloads (line.text.splitOn ' ')).head? ≠ some (number pt)
  · right
    have hpromote : promote pt line = { line with
        text := [' '].intercalate ((line.text.splitOn ' ').take 3 ++
          number pt :: (payloads (line.text.splitOn ' ')).erase (number pt)) } := by
      rw [promote, if_pos h]
    rw [hpromote]
    rcases hfields : line.text.splitOn ' ' with - | ⟨a, - | ⟨b, - | ⟨d, - | ⟨first, rest⟩⟩⟩⟩
    all_goals simp only [hfields, payloads, List.drop_succ_cons, List.drop_zero, List.drop_nil,
      List.not_mem_nil, false_and] at h
    have hfirst : first ≠ number pt := by simpa using h.2
    refine ⟨a, b, d, first, rest, rfl, h.1, hfirst, ?_⟩
    simp [payloads, hfirst]
  · left
    have hhead : number pt ∈ payloads (line.text.splitOn ' ') →
        (payloads (line.text.splitOn ' ')).head? = some (number pt) := fun hmem => by
      by_contra hne
      exact h ⟨hmem, hne⟩
    exact ⟨promote_of_not hhead, hhead⟩

theorem isAudio_promote (h : isAudio line = true) : isAudio (promote pt line) = true := by
  rcases promote_cases pt line with ⟨heq, -⟩ | ⟨a, b, d, first, rest, hfields, -, -, heq⟩
  · rw [heq, h]
  · have htext : [' '].intercalate (line.text.splitOn ' ') = line.text :=
      List.intercalate_splitOn ' '
    rw [hfields, List.intercalate_cons_cons, List.append_assoc] at htext
    have hword : ' '.toLower ∉ audioWord.map Char.toLower := by decide
    have hold : istartsWith a audioWord = true := by
      rw [← istartsWith_append hword a _, ← List.singleton_append, htext]
      exact h
    rw [heq, isAudio, List.intercalate_cons_cons, List.append_assoc, List.singleton_append,
      istartsWith_append hword, hold]

theorem isAudio_ofPiece (piece : Text) :
    isAudio (.ofPiece piece) = istartsWith piece audioWord :=
  istartsWith_ofPiece (by decide) piece

theorem isAudio_piece (line : SdpLine) :
    isAudio (.ofPiece line.piece) = isAudio line := by
  rw [isAudio_ofPiece, isAudio, SdpLine.piece]
  split_ifs
  · exact istartsWith_append (by decide) _ []
  · rw [List.append_nil]

theorem lf_notMem_promote (h : '\n' ∉ line.text) : '\n' ∉ (promote pt line).text := by
  rcases promote_cases pt line with ⟨heq, -⟩ | ⟨a, b, d, first, rest, hfields, hmem, -, heq⟩
  · rwa [heq]
  · rw [heq]
    refine notMem_intercalate (by decide) fun field hfield hlf => h ?_
    have hold : field ∈ line.text.splitOn ' ' := by
      rw [hfields]
      simp only [List.mem_cons] at hfield hmem ⊢
      rcases hfield with rfl | rfl | rfl | rfl | rfl | hfield
      · simp
      · simp
      · simp
      · simpa using Or.inr (Or.inr (Or.inr hmem))
      · simp
      · exact Or.inr (Or.inr (Or.inr (Or.inr (List.mem_of_mem_erase hfield))))
    exact subset_of_mem_splitOn hold hlf

/-- The line that is read back has the payload in front, and nothing else is changed. -/
theorem promoted_ofPiece (h : number pt ∈ payloads (line.text.splitOn ' ')) :
    Promoted pt line (.ofPiece (promote pt line).piece) := by
  rw [Promoted, piece_ofPiece]
  rcases promote_cases pt line with
    ⟨heq, hhead⟩ | ⟨a, b, d, first, rest, hfields, hmem, hfirst, heq⟩
  · refine ⟨payloads (line.text.splitOn ' '), .refl _, hhead h, ?_⟩
    · rw [heq, payloads, List.take_append_drop, List.intercalate_splitOn, SdpLine.piece]
  · refine ⟨number pt :: first :: rest.erase (number pt), ?_, rfl, ?_⟩
    · rw [hfields]
      have hperm := List.perm_cons_erase hmem
      rw [List.erase_cons_tail (by simpa using hfirst)] at hperm
      exact hperm.symm
    · rw [heq, hfields]
      rfl

/-- A carriage return that is cut off stands behind the last blank. -/
theorem ofPiece_append (front behind : Text) :
    ∃ behind', (SdpLine.ofPiece (front ++ ' ' :: behind)).text = front ++ ' ' :: behind' := by
  simp only [SdpLine.ofPiece]
  split_ifs with hcr
  · have hne : behind ≠ [] := by
      rintro rfl
      simp at hcr
    exact ⟨behind.dropLast, by
      rw [List.dropLast_append_of_ne_nil (by simp), List.dropLast_cons_of_ne_nil hne]⟩
  · exact ⟨behind, rfl⟩

/-- A promoted line is promoted, also when its last field ends in a carriage return that is read
back as a part of the line end. -/
theorem piece_promote_ofPiece (h : line.Plain) :
    (promote pt (.ofPiece (promote pt line).piece)).piece = (promote pt line).piece := by
  rcases promote_cases pt line with ⟨heq, -⟩ | ⟨a, b, d, first, rest, hfields, -, -, heq⟩
  · rw [heq, ofPiece_piece h, heq]
  · have hfield : ∀ field ∈ line.text.splitOn ' ', ' ' ∉ field :=
      fun field => notMem_of_mem_splitOn
    simp only [hfields, List.mem_cons, forall_eq_or_imp] at hfield
    have hnumber : ' ' ∉ number pt := fun hmem =>
      absurd (not_isBlank_of_mem_number hmem) (by decide)
    have hpiece : (promote pt line).piece = (a ++ ' ' :: (b ++ ' ' :: (d ++ ' ' :: number pt))) ++
        ' ' :: ([' '].intercalate (first :: rest.erase (number pt)) ++
          if line.crlf then ['\r'] else []) := by
      rw [heq]
      simp [SdpLine.piece]
    obtain ⟨behind, hbehind⟩ := ofPiece_append (a ++ ' ' :: (b ++ ' ' :: (d ++ ' ' :: number pt)))
      ([' '].intercalate (first :: rest.erase (number pt)) ++ if line.crlf then ['\r'] else [])
    rw [← hpiece] at hbehind
    rw [promote_of_not, piece_ofPiece]
    intro _
    rw [hbehind]
    simp only [List.append_assoc, List.cons_append, payloads]
    rw [List.splitOn_append_cons_self_of_not_mem hfield.1,
      List.splitOn_append_cons_self_of_not_mem hfield.2.1,
      List.splitOn_append_cons_self_of_not_mem hfield.2.2.1,
      List.splitOn_append_cons_self_of_not_mem hnumber]
    rfl

/-! ## The fmtp lines -/

theorem paramsOf_subset {m : Bool × SdpLine} {existing : Text}
    (h : paramsOf pt m = some existing) : existing ⊆ m.2.text := by
  simp only [paramsOf] at h
  split_ifs at h
  simp only [fmtpParams, Option.bind_eq_bind, Option.bind_eq_some_iff] at h
  obtain ⟨-, -, ⟨before, behind⟩, hcut, -, -, hbehind⟩ := h
  obtain rfl := Option.some.inj hbehind
  intro ch hch
  have hin := trimAscii_subset behind hch
  rw [cutAtBlank] at hcut
  split at hcut
  · cases hcut
  · rename_i sep rest hdrop
    simp only [Option.some.injEq, Prod.mk.injEq] at hcut
    have hmem : ch ∈ sep :: rest := List.mem_cons_of_mem _ (hcut.2 ▸ hin)
    rw [← hdrop] at hmem
    exact List.mem_of_mem_drop ((List.dropWhile_sublist _).subset hmem)

section

variable {restated : List Text} (h : Restated restated)

include h

theorem getLast_fmtpText (pt : ℕ) (existing : Text) :
    (fmtpText pt (rebuildFmtpParams restated existing)).getLast? = some '0' := by
  have hparams := getLast_rebuild h existing
  simp [fmtpText, List.getLast?_append, List.getLast?_cons, hparams]

/-- What is read back of such a line that ends the text. -/
theorem ofPiece_fmtpText (pt : ℕ) (existing : Text) :
    SdpLine.ofPiece (fmtpText pt (rebuildFmtpParams restated existing)) =
      ⟨fmtpText pt (rebuildFmtpParams restated existing), false⟩ := by
  rw [SdpLine.ofPiece, getLast_fmtpText h, if_neg (by decide)]

/-- A line that was rewritten or inserted is read back as it is. -/
theorem clean_fmtpText (pt : ℕ) {existing : Text} (hlf : '\n' ∉ existing) (crlf : Bool) :
    SdpLine.Clean ⟨fmtpText pt (rebuildFmtpParams restated existing), crlf⟩ := by
  refine ⟨?_, fun _ => by rw [getLast_fmtpText h]; decide⟩
  have hnumber : '\n' ∉ number pt := fun hmem => absurd (number_isDigit hmem) (by decide)
  have hword : '\n' ∉ fmtpWord := by decide
  have hparams := lf_notMem_rebuild h hlf
  simp [fmtpText, hnumber, hword, hparams]

theorem paramsOf_fmtpText (pt : ℕ) (existing : Text) (crlf : Bool) :
    paramsOf pt (true, ⟨fmtpText pt (rebuildFmtpParams restated existing), crlf⟩) =
      some (rebuildFmtpParams restated existing) := by
  rw [paramsOf, if_pos rfl, fmtpParams_fmtpText, trimAscii_rebuild h]

theorem rewriteFmtp_fmtpText (pt : ℕ) (existing : Text) (crlf : Bool) :
    rewriteFmtp pt restated (true, ⟨fmtpText pt (rebuildFmtpParams restated existing), crlf⟩) =
      ⟨fmtpText pt (rebuildFmtpParams restated existing), crlf⟩ := by
  rw [rewriteFmtp, ← paramsOf, paramsOf_fmtpText h]
  simp [rebuild_rebuild h]

theorem restates_rebuild (existing : Text) :
    Restates restated existing (rebuildFmtpParams restated existing) := by
  have howned : ∀ token ∈ restated, owned token = true := fun t ht => (h.tokens t ht).2
  have hrestated : restated.filter owned = restated := List.filter_eq_self.mpr howned
  have hnone : restated.filter (fun token => !owned token) = [] := by
    rw [List.filter_eq_nil_iff]
    intro token htoken
    simp [howned token htoken]
  have hkept : ((tokens existing).filter (fun token => !owned token)).filter owned = [] := by
    rw [List.filter_eq_nil_iff]
    intro token htoken
    simpa using (List.mem_filter.mp htoken).2
  have hfiltered : (tokens (rebuildFmtpParams restated existing)).filter owned = restated := by
    rw [tokens_rebuild h, List.filter_append, hkept, hrestated, List.nil_append]
  refine ⟨hfiltered, by rw [hfiltered]; exact h.once, ?_⟩
  rw [tokens_rebuild h, List.filter_append, hnone, List.append_nil, List.filter_filter]
  simp

theorem paramsOf_rewriteFmtp (m : Bool × SdpLine) :
    paramsOf pt (m.1, rewriteFmtp pt restated m) =
      (paramsOf pt m).map (rebuildFmtpParams restated) := by
  rcases rewriteFmtp_cases pt restated m with ⟨hparams, heq⟩ | ⟨existing, hparams, heq⟩
  · rw [heq, hparams, Option.map_none]
  · have hm : m.1 = true := by
      by_contra hno
      simp [paramsOf, hno] at hparams
    rw [heq, hparams, hm, paramsOf_fmtpText h, Option.map_some]

theorem partOf_rewriteFmtp (m : Bool × SdpLine) :
    partOf pt (m.1, rewriteFmtp pt restated m) = partOf pt m := by
  rw [partOf, partOf, paramsOf_rewriteFmtp h, Option.isSome_map]
  rcases rewriteFmtp_cases pt restated m with ⟨hparams, heq⟩ | ⟨existing, hparams, heq⟩
  · simp [hparams, heq]
  · simp [hparams, heq]

theorem rewriteFmtp_rewriteFmtp (m : Bool × SdpLine) :
    rewriteFmtp pt restated (m.1, rewriteFmtp pt restated m) = rewriteFmtp pt restated m := by
  rcases rewriteFmtp_cases pt restated m with ⟨hparams, heq⟩ | ⟨existing, hparams, heq⟩
  · rw [heq]
    exact heq
  · have hm : m.1 = true := by
      by_contra hno
      simp [paramsOf, hno] at hparams
    rw [heq, hm, rewriteFmtp_fmtpText h]

end

theorem rtpmaps_rewriteFmtp (restated : List Text) (marks : List (Bool × SdpLine)) :
    rtpmaps (marks.map fun m => (m.1, rewriteFmtp pt restated m)) = rtpmaps marks := by
  rw [rtpmaps, rtpmaps, List.filterMap_map]
  refine List.filterMap_congr fun m _ => ?_
  rcases rewriteFmtp_cases pt restated m with ⟨hparams, heq⟩ | ⟨existing, hparams, heq⟩
  · simp [heq]
  · have hm : m.1 = true := by
      by_contra hno
      simp [paramsOf, hno] at hparams
    have hfmtp : (fmtpParams pt m.2).isSome = true := by
      rw [paramsOf, if_pos hm] at hparams
      simp [hparams]
    simp [hm, heq, parseRtpmap_of_fmtpParams hfmtp, parseRtpmap_fmtpText]

/-! ## An inserted line -/

variable {marks front back : List (Bool × SdpLine)} {m : Bool × SdpLine}

/-- The marked lines fall into those before the first that maps the payload, that line, and
those behind it. -/
structure Maps (pt : ℕ) (marks front : List (Bool × SdpLine)) (m : Bool × SdpLine)
    (back : List (Bool × SdpLine)) : Prop where
  eq : marks = front ++ m :: back
  quiet : ∀ n ∈ front, mapsTo pt n = false
  maps : mapsTo pt m = true

theorem exists_maps (h : ∃ entry ∈ rtpmaps marks, entry.pt = pt) :
    ∃ front m back, Maps pt marks front m back := by
  obtain ⟨entry, hentry, hpt⟩ := h
  obtain ⟨n, hn, hparse⟩ := List.mem_filterMap.mp hentry
  have hmaps : mapsTo pt n = true := by
    split_ifs at hparse with hmark
    simp [mapsTo, hmark, hparse, hpt]
  obtain ⟨m, hfind⟩ := Option.isSome_iff_exists.mp
    (List.find?_isSome.mpr ⟨n, hn, hmaps⟩)
  obtain ⟨hm, front, back, heq, hquiet⟩ := List.find?_eq_some_iff_append.mp hfind
  exact ⟨front, m, back, heq, fun l hl => by simpa using hquiet l hl, hm⟩

namespace Maps

variable (h : Maps pt marks front m back)

include h

theorem mark : m.1 = true := by
  have hmaps := h.maps
  simp only [mapsTo, Bool.and_eq_true] at hmaps
  exact hmaps.1

theorem insertFmtp_eq (restated : List Text) : insertFmtp pt restated marks =
    front.map Prod.snd ++
      m.2 :: ⟨fmtpText pt (rebuildFmtpParams restated []), m.2.crlf⟩ :: back.map Prod.snd := by
  obtain ⟨rfl, hquiet, hmaps⟩ := h
  induction front with
  | nil =>
      simp only [mapsTo, Bool.and_eq_true, decide_eq_true_eq] at hmaps
      simp [insertFmtp, hmaps]
  | cons n front ih =>
      have hn : ¬(n.1 = true ∧ (parseRtpmap n.2.text).map RtpmapEntry.pt = some pt) := by
        simpa [mapsTo] using hquiet n List.mem_cons_self
      have hrest := ih fun l hl => hquiet l (List.mem_cons_of_mem _ hl)
      rw [List.cons_append, insertFmtp, if_neg hn, hrest]
      rfl

/-- The line that maps the payload is the last one. -/
theorem findIdx_iff : marks.findIdx (mapsTo pt) + 1 = marks.length ↔ back = [] := by
  obtain ⟨rfl, hquiet, hmaps⟩ := h
  have hfront := List.findIdx_eq_length_of_false hquiet
  have hindex : (front ++ m :: back).findIdx (mapsTo pt) = front.length := by
    rw [List.findIdx_append, hfront, List.findIdx_cons, hmaps]
    simp
  rw [hindex, List.length_append, List.length_cons, ← List.length_eq_zero_iff]
  omega

end Maps

end LuminalShine.WebRtc.OpusSdp
