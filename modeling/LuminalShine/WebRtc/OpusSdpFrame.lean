import LuminalShine.WebRtc.OpusEdits

/-!
# What the rewrite of an answer leaves alone

Everything but the fmtp lines of the chosen payload and the list of the first audio m-line is to
stay as it was, line ends included, and a second rewrite is to change nothing.

`joinSdpLines` drops the carriage return of a last line that has no line feed, so a text that
ends in one loses it; and a payload that the first audio m-line does not list is not moved.

## Main definitions

* `Sound` — what the rewrite of one text is to do.
* `Whole` — the texts where it does it.

## Main results

* `Cut.split_rewritten` — the lines of the rewritten text.
* `outcome_settled` — they are read back as they were written.
-/

namespace LuminalShine.WebRtc.OpusSdp

open LuminalShine.Lib

/-! ## What is asked of a rewrite -/

/-- The lines behind the first audio m-line, marked. -/
def audioMarked (lines : List SdpLine) : List (Bool × SdpLine) := marked true (behindAudio lines)

/-- What becomes of the lines when the payload `pt` is chosen. -/
structure Framed (pt : ℕ) (multiopus : Bool) (restated : List Text)
    (lines lines' : List SdpLine) : Prop where
  before : lines'.takeWhile (!isAudio ·) = lines.takeWhile (!isAudio ·)
  audio : ∀ line ∈ lines.find? isAudio, ∃ line' ∈ lines'.find? isAudio,
    if multiopus then Promoted pt line line' else line' = line
  rewritten : rewrote pt (audioMarked lines) = true →
    (audioMarked lines').map (partOf pt) = (audioMarked lines).map (partOf pt) ∧
      List.Forall₂ (Restates restated) ((audioMarked lines).filterMap (paramsOf pt))
        ((audioMarked lines').filterMap (paramsOf pt))
  inserted : rewrote pt (audioMarked lines) = false →
    ((audioMarked lines').map (partOf pt)).filter Part.isOther =
        (audioMarked lines).map (partOf pt) ∧
      ∃ params, (audioMarked lines').filterMap (paramsOf pt) = [params] ∧
        Restates restated [] params

/-- The payload that is chosen for a text, and whether it has more than two channels. -/
def chosen (sdp : Text) (channels : ℤ) : Option ℕ × Bool :=
  targetPt (rtpmaps (marked false (splitSdpLines sdp))) channels

/-- What the rewrite of a text is to do. -/
structure Sound (sdp : Text) (channels : ℤ) : Prop where
  untouched : (chosen sdp channels).1 = none → (applyOpusAudioParams sdp channels).sdp = sdp
  framed : ∀ pt ∈ (chosen sdp channels).1,
    Framed pt (applyOpusAudioParams sdp channels).multiopus
      (negotiated (streamConfig (applyOpusAudioParams sdp channels).channels)
        (applyOpusAudioParams sdp channels).multiopus)
      (splitSdpLines sdp) (splitSdpLines (applyOpusAudioParams sdp channels).sdp)
  counted : (applyOpusAudioParams sdp channels).channels > 2 →
    ∃ entry ∈ rtpmaps (marked false (splitSdpLines sdp)), entry.name = multiopusName ∧
      entry.channels = (applyOpusAudioParams sdp channels).channels
  idempotent : (applyOpusAudioParams (applyOpusAudioParams sdp channels).sdp channels).sdp =
    (applyOpusAudioParams sdp channels).sdp

/-- The texts that are rewritten as they should be: there is no Opus payload; or the text does
not end in a carriage return, unless an fmtp line is put behind it, and a chosen payload for
more than two channels is listed in the first audio m-line. -/
def Whole (sdp : Text) (channels : ℤ) : Prop :=
  ∀ pt ∈ (chosen sdp channels).1,
    (sdp.getLast? = some '\r' →
      rewrote pt (audioMarked (splitSdpLines sdp)) = false ∧
        (audioMarked (splitSdpLines sdp)).findIdx (mapsTo pt) + 1 =
          (audioMarked (splitSdpLines sdp)).length) ∧
    ((chosen sdp channels).2 = true →
      ∃ line ∈ (splitSdpLines sdp).find? isAudio,
        number pt ∈ payloads (line.text.splitOn ' '))

variable {lines before behind : List SdpLine} {line : SdpLine} {pt : ℕ}
  {marks front back : List (Bool × SdpLine)} {m : Bool × SdpLine}

/-! ## The lines of the rewritten text -/

/-- The lines behind the first audio m-line, after both loops over the fmtp lines. -/
def rewritten (pt : ℕ) (restated : List Text) (marks : List (Bool × SdpLine)) : List SdpLine :=
  if rewrote pt marks then marks.map (rewriteFmtp pt restated) else insertFmtp pt restated marks

theorem rewrote_eq_false_iff :
    rewrote pt marks = false ↔ ∀ m ∈ marks, paramsOf pt m = none := by
  rw [rewrote, List.any_eq_false]
  refine forall₂_congr fun m _ => ?_
  cases hmark : m.1 <;> simp [paramsOf, hmark]

/-- What the rewrite makes of a text whose payload `pt` is chosen. -/
theorem apply_eq {sdp : Text} {channels : ℤ} {multiopus : Bool}
    (hchosen : chosen sdp channels = (some pt, multiopus))
    (hsplits : Splits (splitSdpLines sdp) before line behind) :
    applyOpusAudioParams sdp channels =
      { sdp := joinSdpLines (before ++ (if multiopus then promote pt line else line) ::
          rewritten pt (negotiated (streamConfig (if multiopus then channels else 2)) multiopus)
            (marked true behind))
        channels := if multiopus then channels else 2
        multiopus } := by
  have hlines : (if rewrote pt (marked false (splitSdpLines sdp)) then
      (marked false (splitSdpLines sdp)).map (rewriteFmtp pt
        (negotiated (streamConfig (if multiopus then channels else 2)) multiopus))
      else insertFmtp pt (negotiated (streamConfig (if multiopus then channels else 2)) multiopus)
        (marked false (splitSdpLines sdp))) = before ++ line ::
      rewritten pt (negotiated (streamConfig (if multiopus then channels else 2)) multiopus)
        (marked true behind) := by
    rw [hsplits.rewrote_eq, hsplits.map_rewriteFmtp, hsplits.insertFmtp_eq, rewritten]
    split_ifs <;> rfl
  rw [chosen] at hchosen
  simp only [applyOpusAudioParams, hchosen, hlines, hsplits.findIdx_eq]
  cases multiopus with
  | true => simp [modify_append]
  | false => simp

/-- A text without an Opus payload is returned. -/
theorem apply_of_none {sdp : Text} {channels : ℤ} (h : (chosen sdp channels).1 = none) :
    (applyOpusAudioParams sdp channels).sdp = sdp ∧
      (applyOpusAudioParams sdp channels).channels = 2 := by
  have hmulti : (chosen sdp channels).2 = false := by
    simp only [chosen, targetPt] at h ⊢
    split_ifs at h ⊢ with hwant
    · rw [Option.map_eq_none_iff] at h
      rw [h] at hwant
      simp at hwant
    · rfl
  have hpair : chosen sdp channels = (none, false) := by rw [← h, ← hmulti]
  rw [chosen] at hpair
  simp [applyOpusAudioParams, hpair]

/-- The chosen payload is in an audio section. -/
theorem exists_of_chosen {sdp : Text} {channels : ℤ} {multiopus : Bool}
    (hchosen : chosen sdp channels = (some pt, multiopus)) :
    ∃ entry ∈ rtpmaps (marked false (splitSdpLines sdp)), entry.pt = pt ∧
      (multiopus = true → entry.name = multiopusName ∧ entry.channels = channels) := by
  simp only [chosen, targetPt] at hchosen
  split_ifs at hchosen with hwant
  · simp only [Prod.mk.injEq, Option.map_eq_some_iff] at hchosen
    obtain ⟨⟨entry, hfind, hpt⟩, -⟩ := hchosen
    have hentry := List.find?_some hfind
    exact ⟨entry, List.mem_of_find?_eq_some hfind, hpt, fun _ => of_decide_eq_true hentry⟩
  · simp only [Prod.mk.injEq, Option.map_eq_some_iff] at hchosen
    obtain ⟨⟨entry, hfind, hpt⟩, rfl⟩ := hchosen
    exact ⟨entry, List.mem_of_find?_eq_some hfind, hpt, fun hno => by cases hno⟩

/-- The lines behind the first audio m-line as they are read back: the fmtp lines of the payload
are rewritten, or there is one more. -/
inductive Outcome (pt : ℕ) (restated : List Text) (marks : List (Bool × SdpLine)) :
    List SdpLine → Prop
  | rewritten (hrewrote : rewrote pt marks = true) :
      Outcome pt restated marks (marks.map (rewriteFmtp pt restated))
  | inserted {front back : List (Bool × SdpLine)} {m : Bool × SdpLine}
      (hrewrote : rewrote pt marks = false) (hmaps : Maps pt marks front m back) (crlf : Bool) :
      Outcome pt restated marks (front.map Prod.snd ++
        m.2 :: ⟨fmtpText pt (rebuildFmtpParams restated []), crlf⟩ :: back.map Prod.snd)

/-- The marks behind an inserted line are those there were. -/
theorem marked_insert (hmaps : Maps pt (marked true behind) front m back) (params : Text)
    (crlf : Bool) :
    marked true (front.map Prod.snd ++ m.2 :: ⟨fmtpText pt params, crlf⟩ :: back.map Prod.snd) =
      front ++ m :: (true, ⟨fmtpText pt params, crlf⟩) :: back := by
  have hbehind := marked_upto hmaps.eq hmaps.mark (back.map Prod.snd)
  have hsame : front.map Prod.snd ++ m.2 :: back.map Prod.snd = behind := by
    rw [← marked_snd true behind, hmaps.eq, List.map_append, List.map_cons]
  rw [hsame, hmaps.eq, List.append_cancel_left_eq, List.cons.injEq] at hbehind
  rw [marked_upto hmaps.eq hmaps.mark, marked, if_neg (by simp [isMedia_fmtpText]), ← hbehind.2]

namespace Outcome

variable {restated : List Text} {behind' : List SdpLine}
  (h : Outcome pt restated (marked true behind) behind')

include h

/-- The payloads are those there were. -/
theorem rtpmaps_eq : rtpmaps (marked true behind') = rtpmaps (marked true behind) := by
  cases h with
  | rewritten _ => rw [marked_rewriteFmtp, rtpmaps_rewriteFmtp]
  | inserted _ hmaps crlf =>
      rw [marked_insert hmaps, hmaps.eq]
      simp only [rtpmaps, List.filterMap_append, List.filterMap_cons, if_true,
        parseRtpmap_fmtpText]

variable (hrestated : Restated restated)

include hrestated

theorem rewritten_fields (hrewrote : rewrote pt (marked true behind) = true) :
    (marked true behind').map (partOf pt) = (marked true behind).map (partOf pt) ∧
      List.Forall₂ (Restates restated) ((marked true behind).filterMap (paramsOf pt))
        ((marked true behind').filterMap (paramsOf pt)) := by
  cases h with
  | inserted hno => simp [hno] at hrewrote
  | rewritten _ =>
      rw [marked_rewriteFmtp, List.map_map, List.filterMap_map]
      refine ⟨List.map_congr_left fun m _ => partOf_rewriteFmtp hrestated m, ?_⟩
      have hparams : (marked true behind).filterMap
          (paramsOf pt ∘ fun m => (m.1, rewriteFmtp pt restated m)) =
          ((marked true behind).filterMap (paramsOf pt)).map (rebuildFmtpParams restated) := by
        rw [List.map_filterMap]
        exact List.filterMap_congr fun m _ => paramsOf_rewriteFmtp hrestated m
      rw [hparams, List.forall₂_map_right_iff, List.forall₂_same]
      exact fun existing _ => restates_rebuild hrestated existing

theorem inserted_fields (hrewrote : rewrote pt (marked true behind) = false) :
    ((marked true behind').map (partOf pt)).filter Part.isOther =
        (marked true behind).map (partOf pt) ∧
      ∃ params, (marked true behind').filterMap (paramsOf pt) = [params] ∧
        Restates restated [] params := by
  cases h with
  | rewritten hyes => simp [hrewrote] at hyes
  | @inserted front back m _ hmaps crlf =>
      have hnone := rewrote_eq_false_iff.mp hrewrote
      rw [hmaps.eq] at hnone
      have hparams := paramsOf_fmtpText hrestated pt [] crlf
      have hpart : partOf pt (true, ⟨fmtpText pt (rebuildFmtpParams restated []), crlf⟩) =
          .fmtp crlf := by
        rw [partOf, hparams]
        rfl
      have hparts : ∀ marks : List (Bool × SdpLine), (∀ n ∈ marks, paramsOf pt n = none) →
          (marks.map (partOf pt)).filter Part.isOther = marks.map (partOf pt) := by
        intro marks hmarks
        rw [List.filter_eq_self]
        intro part hpart
        obtain ⟨n, hn, rfl⟩ := List.mem_map.mp hpart
        simp [partOf, hmarks n hn, Part.isOther]
      have hfront := hparts front fun n hn => hnone n (List.mem_append_left _ hn)
      have hback := hparts back fun n hn =>
        hnone n (List.mem_append_right _ (List.mem_cons_of_mem _ hn))
      have hm := hnone m (List.mem_append_right _ List.mem_cons_self)
      have hother : partOf pt m = .other m.2 := by simp [partOf, hm]
      rw [marked_insert hmaps, hmaps.eq]
      refine ⟨?_, rebuildFmtpParams restated [], ?_, restates_rebuild hrestated []⟩
      · simp only [List.map_append, List.map_cons, List.filter_append, List.filter_cons, hpart,
          hother, Part.isOther, if_true, Bool.false_eq_true, if_false, hfront, hback]
      · have hempty : ∀ n ∈ front ++ m :: back, paramsOf pt n = none := hnone
        rw [List.forall_mem_append, List.forall_mem_cons] at hempty
        rw [List.filterMap_append, List.filterMap_cons, List.filterMap_cons, hm, hparams,
          List.filterMap_eq_nil_iff.mpr hempty.1, List.filterMap_eq_nil_iff.mpr hempty.2.2]
        rfl

/-- There is an fmtp line of the payload then. -/
theorem rewrote_eq : rewrote pt (marked true behind') = true := by
  by_contra hno
  rw [Bool.not_eq_true, rewrote_eq_false_iff] at hno
  cases h with
  | rewritten hyes =>
      rw [marked_rewriteFmtp] at hno
      have hnone : rewrote pt (marked true behind) = false := by
        rw [rewrote_eq_false_iff]
        intro m hm
        have hparams := hno _ (List.mem_map_of_mem hm)
        rw [paramsOf_rewriteFmtp hrestated, Option.map_eq_none_iff] at hparams
        exact hparams
      rw [hnone] at hyes
      cases hyes
  | inserted _ hmaps crlf =>
      rw [marked_insert hmaps] at hno
      have hparams := hno _ (List.mem_append_right _ (List.mem_cons_of_mem _ List.mem_cons_self))
      rw [paramsOf_fmtpText hrestated] at hparams
      cases hparams

/-- Rewriting it again changes nothing. -/
theorem map_rewriteFmtp :
    (marked true behind').map (rewriteFmtp pt restated) = behind' := by
  cases h with
  | rewritten _ =>
      rw [marked_rewriteFmtp, List.map_map]
      exact List.map_congr_left fun m _ => rewriteFmtp_rewriteFmtp hrestated m
  | inserted hrewrote hmaps crlf =>
      have hnone := rewrote_eq_false_iff.mp hrewrote
      have hsame : ∀ n ∈ marked true behind, rewriteFmtp pt restated n = n.2 := by
        intro n hn
        rw [rewriteFmtp, ← paramsOf, hnone n hn]
      rw [hmaps.eq] at hsame
      rw [marked_insert hmaps, List.map_append, List.map_cons, List.map_cons,
        rewriteFmtp_fmtpText hrestated, hsame _ (List.mem_append_right _ List.mem_cons_self),
        List.map_congr_left fun n hn => hsame n (List.mem_append_left _ hn),
        List.map_congr_left fun n hn =>
          hsame n (List.mem_append_right _ (List.mem_cons_of_mem _ hn))]

end Outcome

/-! ## The last line -/

/-- The text ends in a carriage return when its last line has one. -/
theorem getLast_eq_cr_iff (sdp : Text) :
    sdp.getLast? = some '\r' ↔ ∃ line ∈ (splitSdpLines sdp).getLast?, line.crlf = true := by
  obtain ⟨front, last, hsplit⟩ := List.eq_nil_or_concat' (sdp.splitOn '\n')
    |>.resolve_left (List.splitOn_ne_nil _ _)
  have hsdp : sdp = ['\n'].intercalate (front ++ [last]) := by
    rw [← hsplit, List.intercalate_splitOn]
  have hends : sdp.getLast? = some '\r' ↔ last.getLast? = some '\r' := by
    obtain ⟨text, heq, htext⟩ := intercalate_concat '\n' front last
    rw [hsdp, heq, List.getLast?_append]
    cases hlast : last.getLast? with
    | some ch => simp
    | none => rcases htext with rfl | htext <;> simp [*]
  rw [hends, splitSdpLines, hsplit]
  by_cases hcr : last.getLast? = some '\r' <;> simp [SdpLine.ofPiece, hcr]

theorem snd_mem_of_mem_marked {inAudio : Bool} (h : m ∈ marked inAudio lines) : m.2 ∈ lines := by
  rw [← marked_snd inAudio lines]
  exact List.mem_map_of_mem h

section

variable {restated : List Text} (hrestated : Restated restated)
  (hclean : ∀ l ∈ behind, l.Clean)

include hrestated hclean

theorem clean_rewritten (hmaps : Maps pt (marked true behind) front m back) :
    ∀ l ∈ rewritten pt restated (marked true behind), l.Clean := by
  have hmarked : ∀ n ∈ marked true behind, n.2.Clean := fun n hn =>
    hclean n.2 (snd_mem_of_mem_marked hn)
  intro l hl
  rw [rewritten] at hl
  split_ifs at hl
  · obtain ⟨n, hn, rfl⟩ := List.mem_map.mp hl
    rcases rewriteFmtp_cases pt restated n with ⟨-, heq⟩ | ⟨existing, hparams, heq⟩
    · rw [heq]
      exact hmarked n hn
    · rw [heq]
      exact clean_fmtpText hrestated pt
        (fun hlf => (hmarked n hn).1 (paramsOf_subset hparams hlf)) _
  · rw [hmaps.insertFmtp_eq] at hl
    rw [hmaps.eq, List.forall_mem_append, List.forall_mem_cons] at hmarked
    simp only [List.mem_append, List.mem_cons, List.mem_map] at hl
    rcases hl with ⟨n, hn, rfl⟩ | rfl | rfl | ⟨n, hn, rfl⟩
    · exact hmarked.1 n hn
    · exact hmarked.2.1
    · exact clean_fmtpText hrestated pt (by simp) _
    · exact hmarked.2.2 n hn

end

theorem rewritten_ne_nil (restated : List Text)
    (hmaps : Maps pt (marked true behind) front m back) :
    rewritten pt restated (marked true behind) ≠ [] := by
  rw [rewritten, hmaps.insertFmtp_eq, hmaps.eq]
  split_ifs <;> simp

/-- Lines whose last one has no carriage return are read back as they are. -/
theorem settled_eq_self (hplain : ∀ l ∈ lines, l.Plain)
    (hlast : ∀ l ∈ lines.getLast?, l.crlf = false) : settled lines = lines := by
  rcases List.eq_nil_or_concat' lines with rfl | ⟨init, last, rfl⟩
  · rfl
  · have hinit : ∀ l ∈ init, l.Plain := fun l hl => hplain l (List.mem_append_left _ hl)
    have hbare : last.text = last.piece := by
      simp [SdpLine.piece, hlast last (by simp)]
    rw [settled_concat, map_ofPiece_piece hinit, hbare,
      ofPiece_piece (hplain last (by simp))]

theorem crlf_rewriteFmtp (restated : List Text) (m : Bool × SdpLine) :
    (rewriteFmtp pt restated m).crlf = m.2.crlf := by
  rcases rewriteFmtp_cases pt restated m with ⟨-, heq⟩ | ⟨existing, -, heq⟩ <;> rw [heq]

theorem getLast_marked (inAudio : Bool) (lines : List SdpLine) :
    (marked inAudio lines).getLast?.map Prod.snd = lines.getLast? := by
  rw [← List.getLast?_map, marked_snd]

/-- The lines behind the first audio m-line are read back as they were written, but for the line
end of an fmtp line that was put behind the text. -/
theorem outcome_settled {restated : List Text} (hrestated : Restated restated)
    (hclean : ∀ l ∈ behind, l.Clean) (hmaps : Maps pt (marked true behind) front m back)
    (hends : ∀ l ∈ behind.getLast?, l.crlf = true →
      rewrote pt (marked true behind) = false ∧ back = []) :
    Outcome pt restated (marked true behind)
        (settled (rewritten pt restated (marked true behind))) ∧
      bodies (settled (rewritten pt restated (marked true behind))) =
        bodies (rewritten pt restated (marked true behind)) := by
  have hplain := clean_rewritten hrestated hclean hmaps
  cases hrewrote : rewrote pt (marked true behind) with
  | true =>
      have heq : rewritten pt restated (marked true behind) =
          (marked true behind).map (rewriteFmtp pt restated) := by
        rw [rewritten, if_pos hrewrote]
      rw [heq] at hplain ⊢
      have hsettled := settled_eq_self (fun l hl => (hplain l hl).2) (by
        intro l hl
        rw [List.getLast?_map] at hl
        obtain ⟨n, hn, rfl⟩ := Option.map_eq_some_iff.mp hl
        have hlast : n.2 ∈ behind.getLast? := by
          rw [← getLast_marked true behind]
          exact Option.mem_map_of_mem _ hn
        rw [crlf_rewriteFmtp]
        by_contra hcrlf
        rw [Bool.not_eq_false] at hcrlf
        exact absurd (hends n.2 hlast hcrlf).1 (by simp [hrewrote]))
      rw [hsettled]
      exact ⟨.rewritten hrewrote, rfl⟩
  | false =>
      have heq : rewritten pt restated (marked true behind) =
          front.map Prod.snd ++ m.2 ::
            ⟨fmtpText pt (rebuildFmtpParams restated []), m.2.crlf⟩ :: back.map Prod.snd := by
        rw [rewritten, hrewrote, if_neg (by decide), hmaps.insertFmtp_eq]
      rw [heq] at hplain ⊢
      rcases List.eq_nil_or_concat' back with rfl | ⟨init, last, rfl⟩
      · -- the inserted line is the last one, and is read back without its line end
        have hinit : ∀ l ∈ front.map Prod.snd ++ [m.2], l.Plain := fun l hl =>
          (hplain l (by
            rcases List.mem_append.mp hl with hl | hl
            · exact List.mem_append_left _ hl
            · obtain rfl := List.mem_singleton.mp hl
              simp)).2
        have hsettled : settled (front.map Prod.snd ++
            m.2 :: [⟨fmtpText pt (rebuildFmtpParams restated []), m.2.crlf⟩]) =
            front.map Prod.snd ++
              m.2 :: [⟨fmtpText pt (rebuildFmtpParams restated []), false⟩] := by
          rw [List.append_cons, settled_concat, map_ofPiece_piece hinit,
            ofPiece_fmtpText hrestated, ← List.append_cons]
        have hbodies : ∀ crlf, bodies (front.map Prod.snd ++
            m.2 :: [⟨fmtpText pt (rebuildFmtpParams restated []), crlf⟩]) =
            (front.map Prod.snd ++ [m.2]).map SdpLine.piece ++
              [fmtpText pt (rebuildFmtpParams restated [])] := fun crlf => by
          rw [List.append_cons, bodies_append _ (by simp), bodies]
        rw [List.map_nil, hsettled, hbodies, hbodies]
        exact ⟨.inserted hrewrote hmaps false, rfl⟩
      · have hsettled := settled_eq_self (fun l hl => (hplain l hl).2) (by
          intro l hl
          have hlast : behind.getLast? = some last.2 := by
            rw [← getLast_marked true behind, hmaps.eq]
            simp [List.getLast?_append, List.getLast?_cons]
          have hl : last.2 = l := by
            simpa [List.getLast?_append, List.getLast?_cons] using hl
          by_contra hcrlf
          rw [Bool.not_eq_false, ← hl] at hcrlf
          exact absurd (hends last.2 hlast hcrlf).2 (by simp))
        rw [hsettled]
        exact ⟨.inserted hrewrote hmaps _, rfl⟩

/-- A carriage return at the end of the text is lost. -/
theorem ofPiece_text_ne (h : line.crlf = true) : SdpLine.ofPiece line.text ≠ line := by
  intro heq
  have hpiece := congrArg SdpLine.piece heq
  rw [piece_ofPiece, SdpLine.piece, if_pos h] at hpiece
  simpa using congrArg List.length hpiece

/-- The last line that is read back is not the one that was written. -/
theorem partOf_ne_of_crlf {restated : List Text} (hrestated : Restated restated)
    {n : Bool × SdpLine} (hcrlf : m.2.crlf = true)
    (hn : n.2 = SdpLine.ofPiece (rewriteFmtp pt restated m).text) :
    partOf pt n ≠ partOf pt m := by
  intro heq
  rcases rewriteFmtp_cases pt restated m with ⟨hparams, hline⟩ | ⟨existing, hparams, hline⟩
  · have hold : partOf pt m = .other m.2 := by simp [partOf, hparams]
    rw [hline] at hn
    rw [hold, partOf, hn] at heq
    split_ifs at heq
    exact ofPiece_text_ne hcrlf (Part.other.inj heq)
  · have hold : partOf pt m = .fmtp true := by simp [partOf, hparams, hcrlf]
    rw [hline, ofPiece_fmtpText hrestated] at hn
    rw [hold, partOf, hn] at heq
    split_ifs at heq
    exact absurd (Part.fmtp.inj heq) Bool.false_ne_true

/-! ## One rewrite -/

/-- A text with a chosen payload, cut at its first audio m-line and at the line that maps the
payload. -/
structure Cut (sdp : Text) (channels : ℤ) (pt : ℕ) (multiopus : Bool) (before : List SdpLine)
    (line : SdpLine) (behind : List SdpLine) (front : List (Bool × SdpLine))
    (m : Bool × SdpLine) (back : List (Bool × SdpLine)) : Prop where
  chosen_eq : chosen sdp channels = (some pt, multiopus)
  splits : Splits (splitSdpLines sdp) before line behind
  maps : Maps pt (marked true behind) front m back

theorem exists_cut {sdp : Text} {channels : ℤ} {multiopus : Bool}
    (h : chosen sdp channels = (some pt, multiopus)) :
    ∃ before line behind front m back,
      Cut sdp channels pt multiopus before line behind front m back := by
  obtain ⟨entry, hentry, hpt, -⟩ := exists_of_chosen h
  obtain ⟨before, line, behind, hsplits⟩ := exists_splits (List.ne_nil_of_mem hentry)
  rw [hsplits.rtpmaps_eq] at hentry
  obtain ⟨front, m, back, hmaps⟩ := exists_maps ⟨entry, hentry, hpt⟩
  exact ⟨before, line, behind, front, m, back, h, hsplits, hmaps⟩

/-- What is restated for the chosen payload. -/
def restatedFor (channels : ℤ) (multiopus : Bool) : List Text :=
  negotiated (streamConfig (if multiopus then channels else 2)) multiopus

theorem restated_restatedFor (channels : ℤ) (multiopus : Bool) :
    Restated (restatedFor channels multiopus) := restated_negotiated _ _

/-- The first audio m-line as it is written. -/
def audioLine (pt : ℕ) (multiopus : Bool) (line : SdpLine) : SdpLine :=
  if multiopus then promote pt line else line

namespace Cut

variable {sdp : Text} {channels : ℤ} {multiopus : Bool}
  (h : Cut sdp channels pt multiopus before line behind front m back)

include h

theorem clean : (∀ l ∈ before, l.Clean) ∧ line.Clean ∧ ∀ l ∈ behind, l.Clean := by
  have hall : ∀ l ∈ splitSdpLines sdp, l.Clean := fun l => clean_of_mem
  rwa [h.splits.eq, List.forall_mem_append, List.forall_mem_cons] at hall

theorem sdp_eq : (applyOpusAudioParams sdp channels).sdp =
    joinSdpLines (before ++ audioLine pt multiopus line ::
      rewritten pt (restatedFor channels multiopus) (marked true behind)) := by
  rw [apply_eq h.chosen_eq h.splits]
  rfl

theorem lf_notMem_audioLine : '\n' ∉ (audioLine pt multiopus line).text := by
  rw [audioLine]
  split_ifs
  · exact lf_notMem_promote h.clean.2.1.1
  · exact h.clean.2.1.1

/-- The lines of the rewritten text. -/
theorem split_rewritten : splitSdpLines (applyOpusAudioParams sdp channels).sdp =
    before ++ .ofPiece (audioLine pt multiopus line).piece ::
      settled (rewritten pt (restatedFor channels multiopus) (marked true behind)) := by
  have hrestated := restated_restatedFor channels multiopus
  have hrewritten := clean_rewritten hrestated h.clean.2.2 h.maps
  have hne := rewritten_ne_nil (restatedFor channels multiopus) h.maps
  rw [h.sdp_eq, splitSdpLines_join (by simp), List.append_cons, settled_append _ hne,
    List.map_append, map_ofPiece_piece fun l hl => (h.clean.1 l hl).2, List.map_singleton,
    ← List.append_cons]
  intro l hl
  rcases List.mem_append.mp hl with hl | hl
  · exact (h.clean.1 l hl).1
  · rcases List.mem_cons.mp hl with rfl | hl
    · exact h.lf_notMem_audioLine
    · exact (hrewritten l hl).1

theorem splits_rewritten : Splits (splitSdpLines (applyOpusAudioParams sdp channels).sdp) before
    (.ofPiece (audioLine pt multiopus line).piece)
    (settled (rewritten pt (restatedFor channels multiopus) (marked true behind))) where
  eq := h.split_rewritten
  quiet := h.splits.quiet
  audio := by
    rw [isAudio_piece, audioLine]
    split_ifs
    · exact isAudio_promote h.splits.audio
    · exact h.splits.audio

theorem audioMarked_eq : audioMarked (splitSdpLines sdp) = marked true behind := by
  rw [audioMarked, h.splits.behind_eq]

theorem audioMarked_rewritten :
    audioMarked (splitSdpLines (applyOpusAudioParams sdp channels).sdp) =
      marked true
        (settled (rewritten pt (restatedFor channels multiopus) (marked true behind))) := by
  rw [audioMarked, h.splits_rewritten.behind_eq]

theorem getLast_eq : (splitSdpLines sdp).getLast? = behind.getLast? := by
  have hne : behind ≠ [] := by
    rintro rfl
    have hmarked := h.maps.eq
    simp [marked] at hmarked
  obtain ⟨init, last, rfl⟩ := List.eq_nil_or_concat' behind |>.resolve_left hne
  rw [h.splits.eq]
  simp [List.getLast?_append, List.getLast?_cons]

/-- The condition, at the lines the text is cut into. -/
theorem whole_iff : Whole sdp channels ↔
    (∀ l ∈ behind.getLast?, l.crlf = true →
      rewrote pt (marked true behind) = false ∧ back = []) ∧
    (multiopus = true → number pt ∈ payloads (line.text.splitOn ' ')) := by
  rw [Whole, h.chosen_eq]
  simp only [Option.mem_some_iff, forall_eq', getLast_eq_cr_iff, h.getLast_eq, h.audioMarked_eq,
    h.maps.findIdx_iff, h.splits.find_eq, exists_eq_left', forall_exists_index, and_imp]

/-- The first audio m-line keeps what it should, unless a payload is chosen that it lacks. -/
theorem audio_iff : (if multiopus then
      Promoted pt line (.ofPiece (audioLine pt multiopus line).piece)
      else SdpLine.ofPiece (audioLine pt multiopus line).piece = line) ↔
    (multiopus = true → number pt ∈ payloads (line.text.splitOn ' ')) := by
  cases multiopus with
  | false =>
      have hpiece := ofPiece_piece h.clean.2.1.2
      simp [audioLine, hpiece]
  | true =>
      simp only [audioLine, if_true, forall_const]
      constructor
      · rintro ⟨list, hperm, hhead, -⟩
        exact hperm.subset (List.mem_of_mem_head? hhead)
      · exact promoted_ofPiece

/-- The lines are kept exactly where the m-line and the lines behind it are. -/
theorem framed_of_outcome (hlist : multiopus = true →
      number pt ∈ payloads (line.text.splitOn ' '))
    (houtcome : Outcome pt (restatedFor channels multiopus) (marked true behind)
      (settled (rewritten pt (restatedFor channels multiopus) (marked true behind)))) :
    Framed pt multiopus (restatedFor channels multiopus) (splitSdpLines sdp)
      (splitSdpLines (applyOpusAudioParams sdp channels).sdp) where
  before := by rw [h.splits_rewritten.takeWhile_eq, h.splits.takeWhile_eq]
  audio := by
    rw [h.splits_rewritten.find_eq, h.splits.find_eq]
    simpa using h.audio_iff.mpr hlist
  rewritten hrewrote := by
    rw [h.audioMarked_eq] at hrewrote ⊢
    rw [h.audioMarked_rewritten]
    exact houtcome.rewritten_fields (restated_restatedFor _ _) hrewrote
  inserted hrewrote := by
    rw [h.audioMarked_eq] at hrewrote ⊢
    rw [h.audioMarked_rewritten]
    exact houtcome.inserted_fields (restated_restatedFor _ _) hrewrote

/-- The same payload is chosen again. -/
theorem chosen_rewritten
    (houtcome : Outcome pt (restatedFor channels multiopus) (marked true behind)
      (settled (rewritten pt (restatedFor channels multiopus) (marked true behind)))) :
    chosen (applyOpusAudioParams sdp channels).sdp channels = (some pt, multiopus) := by
  rw [chosen, h.splits_rewritten.rtpmaps_eq, houtcome.rtpmaps_eq, ← h.splits.rtpmaps_eq]
  exact h.chosen_eq

theorem idempotent
    (houtcome : Outcome pt (restatedFor channels multiopus) (marked true behind)
      (settled (rewritten pt (restatedFor channels multiopus) (marked true behind))))
    (hbodies : bodies (settled (rewritten pt (restatedFor channels multiopus)
        (marked true behind))) =
      bodies (rewritten pt (restatedFor channels multiopus) (marked true behind))) :
    (applyOpusAudioParams (applyOpusAudioParams sdp channels).sdp channels).sdp =
      (applyOpusAudioParams sdp channels).sdp := by
  have hrestated := restated_restatedFor channels multiopus
  have hne := rewritten_ne_nil (restatedFor channels multiopus) h.maps
  have hagain : rewritten pt (restatedFor channels multiopus) (marked true
      (settled (rewritten pt (restatedFor channels multiopus) (marked true behind)))) =
      settled (rewritten pt (restatedFor channels multiopus) (marked true behind)) := by
    rw [rewritten, if_pos (houtcome.rewrote_eq hrestated), houtcome.map_rewriteFmtp hrestated]
  have hpiece : (audioLine pt multiopus (.ofPiece (audioLine pt multiopus line).piece)).piece =
      (audioLine pt multiopus line).piece := by
    cases multiopus with
    | true => exact piece_promote_ofPiece h.clean.2.1.2
    | false => exact piece_ofPiece line.piece
  have htwice : (applyOpusAudioParams (applyOpusAudioParams sdp channels).sdp channels).sdp =
      joinSdpLines (before ++
        audioLine pt multiopus (.ofPiece (audioLine pt multiopus line).piece) ::
          settled (rewritten pt (restatedFor channels multiopus) (marked true behind))) := by
    rw [apply_eq (h.chosen_rewritten houtcome) h.splits_rewritten]
    conv_rhs => rw [← hagain]
    rfl
  rw [htwice, h.sdp_eq, List.append_cons, List.append_cons before (audioLine pt multiopus line)
    (rewritten pt _ _)]
  refine joinSdpLines_congr ?_ ?_ hne hbodies
  · simp [hpiece]
  · rw [settled_eq]
    obtain ⟨first, rest, heq⟩ := List.exists_cons_of_ne_nil hne
    simp [heq, bodies_ne_nil]

theorem sound_of_whole (hwhole : Whole sdp channels) : Sound sdp channels := by
  obtain ⟨hends, hlist⟩ := h.whole_iff.mp hwhole
  obtain ⟨houtcome, hbodies⟩ :=
    outcome_settled (restated_restatedFor channels multiopus) h.clean.2.2 h.maps hends
  have hresult := apply_eq h.chosen_eq h.splits
  refine
    { untouched := fun hnone => ?_
      framed := fun pt' hpt' => ?_
      counted := fun hcount => ?_
      idempotent := h.idempotent houtcome hbodies }
  · rw [h.chosen_eq] at hnone
    cases hnone
  · rw [h.chosen_eq, Option.mem_some_iff] at hpt'
    subst hpt'
    have hframed := h.framed_of_outcome hlist houtcome
    rw [hresult] at hframed ⊢
    exact hframed
  · rw [hresult] at hcount ⊢
    cases multiopus with
    | false => simp at hcount
    | true =>
        obtain ⟨entry, hentry, -, hmulti⟩ := exists_of_chosen h.chosen_eq
        exact ⟨entry, hentry, hmulti rfl⟩

/-- Where an fmtp line is rewritten, a carriage return at the end of the text is lost. -/
theorem crlf_of_rewritten
    (hframed : Framed pt multiopus (restatedFor channels multiopus) (splitSdpLines sdp)
      (splitSdpLines (applyOpusAudioParams sdp channels).sdp))
    (hrewrote : rewrote pt (marked true behind) = true) :
    ∀ l ∈ behind.getLast?, l.crlf = false := by
  intro l hl
  by_contra hcrlf
  rw [Bool.not_eq_false] at hcrlf
  have hparts := (hframed.rewritten (by rwa [h.audioMarked_eq])).1
  rw [h.audioMarked_rewritten, h.audioMarked_eq] at hparts
  have heq : rewritten pt (restatedFor channels multiopus) (marked true behind) =
      (marked true behind).map (rewriteFmtp pt (restatedFor channels multiopus)) := by
    rw [rewritten, if_pos hrewrote]
  rw [heq] at hparts
  obtain ⟨init, last, hmarks⟩ := List.eq_nil_or_concat' (marked true behind)
    |>.resolve_left (by rw [h.maps.eq]; simp)
  have hlast : last.2 = l := by
    rw [← getLast_marked true behind, hmarks] at hl
    simpa using hl
  rw [hmarks, List.map_append, List.map_singleton, settled_concat] at hparts
  obtain ⟨mark, hmark⟩ := exists_marked_concat true
    ((init.map (rewriteFmtp pt (restatedFor channels multiopus))).map (.ofPiece ·.piece))
    (.ofPiece (rewriteFmtp pt (restatedFor channels multiopus) last).text)
  rw [hmark, List.map_append, List.map_append] at hparts
  have hpart := List.singleton_inj.mp (List.append_inj' hparts rfl).2
  exact partOf_ne_of_crlf (restated_restatedFor channels multiopus) (hlast ▸ hcrlf) rfl hpart

/-- Where an fmtp line is inserted in front of the last line, it is lost as well. -/
theorem crlf_of_inserted
    (hframed : Framed pt multiopus (restatedFor channels multiopus) (splitSdpLines sdp)
      (splitSdpLines (applyOpusAudioParams sdp channels).sdp))
    (hrewrote : rewrote pt (marked true behind) = false) (hback : back ≠ []) :
    ∀ l ∈ behind.getLast?, l.crlf = false := by
  have hrestated := restated_restatedFor channels multiopus
  intro l hl
  by_contra hcrlf
  rw [Bool.not_eq_false] at hcrlf
  obtain ⟨hparts, params, hparams, -⟩ := hframed.inserted (by rwa [h.audioMarked_eq])
  rw [h.audioMarked_rewritten, h.audioMarked_eq] at hparts
  rw [h.audioMarked_rewritten] at hparams
  obtain ⟨init, last, rfl⟩ := List.eq_nil_or_concat' back |>.resolve_left hback
  have hlast : last.2 = l := by
    rw [← getLast_marked true behind, h.maps.eq] at hl
    simpa [List.getLast?_append, List.getLast?_cons] using hl
  have hclean := clean_rewritten hrestated h.clean.2.2 h.maps
  have hnone := rewrote_eq_false_iff.mp hrewrote
  rw [h.maps.eq, List.forall_mem_append, List.forall_mem_cons, List.forall_mem_append] at hnone
  have heq : rewritten pt (restatedFor channels multiopus) (marked true behind) =
      (front.map Prod.snd ++
        m.2 :: ⟨fmtpText pt (rebuildFmtpParams (restatedFor channels multiopus) []), m.2.crlf⟩ ::
          init.map Prod.snd) ++ [last.2] := by
    rw [rewritten, hrewrote, if_neg (by decide), h.maps.insertFmtp_eq]
    simp
  rw [heq] at hclean hparts hparams
  rw [settled_concat, map_ofPiece_piece fun l hl => (hclean l (List.mem_append_left _ hl)).2,
    List.append_assoc, List.cons_append, List.cons_append, marked_upto h.maps.eq h.maps.mark,
    marked, if_neg (by simp [isMedia_fmtpText])] at hparts hparams
  obtain ⟨mark, hmark⟩ := exists_marked_concat true (init.map Prod.snd) (.ofPiece last.2.text)
  rw [hmark] at hparts hparams
  -- the inserted line is the only fmtp line, so the last line is compared as it is
  have hlastParams : paramsOf pt (mark, .ofPiece last.2.text) = none := by
    rw [List.filterMap_append, List.filterMap_eq_nil_iff.mpr hnone.1, List.nil_append,
      List.filterMap_cons_none hnone.2.1,
      List.filterMap_cons_some (paramsOf_fmtpText hrestated pt [] m.2.crlf),
      List.cons.injEq, List.filterMap_append, List.append_eq_nil_iff,
      List.filterMap_eq_nil_iff] at hparams
    exact List.filterMap_eq_nil_iff.mp hparams.2.2 _ List.mem_cons_self
  have hother : partOf pt (mark, .ofPiece last.2.text) = .other (.ofPiece last.2.text) := by
    simp [partOf, hlastParams]
  have hlastOther : partOf pt last = .other last.2 := by
    simp [partOf, hnone.2.2.2 last (by simp)]
  have hread : ∀ marks, (((marks ++ [(mark, SdpLine.ofPiece last.2.text)]).map
      (partOf pt)).filter Part.isOther).getLast? = some (.other (.ofPiece last.2.text)) := by
    intro marks
    rw [List.map_append, List.map_singleton, hother, List.filter_append,
      List.filter_cons_of_pos rfl, List.filter_nil, List.getLast?_concat]
  have hwritten : ∀ marks, ((marks ++ [last]).map (partOf pt)).getLast? =
      some (.other last.2) := by
    intro marks
    rw [List.map_append, List.map_singleton, hlastOther, List.getLast?_concat]
  have hends := hread (front ++ m ::
    (true, ⟨fmtpText pt (rebuildFmtpParams (restatedFor channels multiopus) []), m.2.crlf⟩) ::
      marked true (init.map Prod.snd))
  rw [List.append_assoc, List.cons_append, List.cons_append, hparts, h.maps.eq,
    ← List.cons_append, ← List.append_assoc, hwritten] at hends
  exact ofPiece_text_ne (hlast ▸ hcrlf) (Part.other.inj (Option.some.inj hends)).symm

theorem whole_of_sound (hsound : Sound sdp channels) : Whole sdp channels := by
  have hframed := hsound.framed pt (by rw [h.chosen_eq, Option.mem_some_iff])
  have hresult := apply_eq h.chosen_eq h.splits
  have hframed : Framed pt multiopus (restatedFor channels multiopus) (splitSdpLines sdp)
      (splitSdpLines (applyOpusAudioParams sdp channels).sdp) := by
    rw [hresult] at hframed ⊢
    exact hframed
  rw [h.whole_iff]
  constructor
  · intro l hl hcrlf
    have hrewrote : rewrote pt (marked true behind) = false := by
      by_contra hyes
      rw [Bool.not_eq_false] at hyes
      have hbare := h.crlf_of_rewritten hframed hyes l hl
      rw [hbare] at hcrlf
      cases hcrlf
    refine ⟨hrewrote, ?_⟩
    by_contra hback
    have hbare := h.crlf_of_inserted hframed hrewrote hback l hl
    rw [hbare] at hcrlf
    cases hcrlf
  · have haudio := hframed.audio
    rw [h.splits.find_eq, h.splits_rewritten.find_eq] at haudio
    exact h.audio_iff.mp (by simpa using haudio)

end Cut

theorem Whole.sound {sdp : Text} {channels : ℤ} (h : Whole sdp channels) :
    Sound sdp channels := by
  cases htarget : (chosen sdp channels).1 with
  | none =>
      obtain ⟨hsdp, hcount⟩ := apply_of_none htarget
      exact
        { untouched := fun _ => hsdp
          framed := fun pt hpt => by simp [htarget] at hpt
          counted := fun hmore => by simp [hcount] at hmore
          idempotent := by rw [hsdp, hsdp] }
  | some pt =>
      have hchosen : chosen sdp channels = (some pt, (chosen sdp channels).2) := by
        rw [← htarget]
      obtain ⟨before, line, behind, front, m, back, hcut⟩ := exists_cut hchosen
      exact hcut.sound_of_whole h

theorem Sound.whole {sdp : Text} {channels : ℤ} (h : Sound sdp channels) :
    Whole sdp channels := by
  intro pt hpt
  have hchosen : chosen sdp channels = (some pt, (chosen sdp channels).2) := by
    rw [← Option.mem_def.mp hpt]
  obtain ⟨before, line, behind, front, m, back, hcut⟩ := exists_cut hchosen
  exact hcut.whole_of_sound h pt hpt

/-- **The rewrite is sound exactly where the text allows it.**  The text does not end in a
carriage return, unless the fmtp line is put behind it, and the payload that is chosen for more
than two channels is listed in the first audio m-line. -/
theorem rewrite_sound_iff (sdp : Text) (channels : ℤ) :
    Sound sdp channels ↔ Whole sdp channels :=
  ⟨Sound.whole, Whole.sound⟩

instance decidableWhole (sdp : Text) (channels : ℤ) : Decidable (Whole sdp channels) :=
  inferInstanceAs (Decidable (∀ pt ∈ (chosen sdp channels).1,
    (sdp.getLast? = some '\r' →
      rewrote pt (audioMarked (splitSdpLines sdp)) = false ∧
        (audioMarked (splitSdpLines sdp)).findIdx (mapsTo pt) + 1 =
          (audioMarked (splitSdpLines sdp)).length) ∧
    ((chosen sdp channels).2 = true →
      ∃ line ∈ (splitSdpLines sdp).find? isAudio,
        number pt ∈ payloads (line.text.splitOn ' '))))

/-- The carriage return behind the last fmtp line is lost. -/
theorem last_line_not_sound :
    ¬Sound "m=audio 9 A 111\r\na=rtpmap:111 opus/48000/2\r\na=fmtp:111 cbr=0\r".toList 2 :=
  fun h => absurd h.whole (by decide)

end LuminalShine.WebRtc.OpusSdp
