import LuminalShine.Changelog.Book

/-!
# The largest changelog file

Every limit is reached at once: all users, all their versions, every version and every name of
the greatest length.

## Main results

* `byteSize_userKey` — small letters take the bytes of the name.
* `prettySize_encode_le` — the largest file.
-/

namespace LuminalShine.Changelog

open LuminalShine.Lib

/-! ## Names and versions -/

theorem utf8Size_toLower (c : Char) : c.toLower.utf8Size = c.utf8Size := by
  unfold Char.toLower
  split
  · case isTrue h =>
      have hle : c.val.toNat ≤ 90 := UInt32.le_iff_toNat_le.mp h.2
      have hstep : ('a'.val - 'A'.val).toNat = 32 := by decide
      have hlower : (c.val + ('a'.val - 'A'.val)).toNat ≤ 127 := by
        rw [UInt32.toNat_add, hstep]
        omega
      have hone : ∀ d : Char, d.val.toNat ≤ 127 → d.utf8Size = 1 := by
        intro d hd
        rw [Char.utf8Size, if_pos (UInt32.le_iff_toNat_le.mpr hd)]
      refine (hone _ ?_).trans (hone c ?_).symm
      · exact hlower
      · omega
  · rfl

theorem byteSize_userKey {username key : String} (h : userKey username = .ok key) :
    byteSize key ≤ 256 := by
  unfold userKey at h
  split at h
  · cases h
  · case isFalse hname =>
      simp only [not_or, Nat.not_lt] at hname
      cases h
      rw [byteSize, String.toList_ofList, List.map_map]
      have hmap : Char.utf8Size ∘ Char.toLower = Char.utf8Size := by
        funext c
        exact utf8Size_toLower c
      rw [hmap]
      exact hname.2

theorem plainChar_of_versionChar {c : Char} (h : versionChar c = true) : plainChar c = true := by
  have hcases : c.isAlphanum = true ∨ c = '.' ∨ c = '-' ∨ c = '+' := by
    simpa [versionChar, or_assoc] using h
  rcases hcases with halnum | rfl | rfl | rfl
  · have hrange : (65 ≤ c.toNat ∧ c.toNat ≤ 90 ∨ 97 ≤ c.toNat ∧ c.toNat ≤ 122) ∨
        48 ≤ c.toNat ∧ c.toNat ≤ 57 := by
      simpa [Char.isAlphanum, Char.isAlpha, Char.isUpper, Char.isLower, Char.isDigit,
        UInt32.le_iff_toNat_le] using halnum
    simp only [plainChar, Bool.and_eq_true, decide_eq_true_eq, ne_eq]
    omega
  · decide
  · decide
  · decide

theorem quotedSize_version {version : String} (h : version = "" ∨ validVersion version = true) :
    quotedSize version ≤ 98 := by
  rcases h with rfl | h
  · decide
  · have hvalid : byteSize version ≤ 96 ∧ ∀ c ∈ version.toList, versionChar c = true := by
      unfold validVersion at h
      split at h
      · cases h
      · simp only [Bool.and_eq_true, decide_eq_true_eq, List.all_eq_true] at h
        exact ⟨h.1.1, h.2⟩
    rw [quotedSize_of_plain fun c hc => plainChar_of_versionChar (hvalid.2 c hc)]
    omega

/-! ## The file -/

open Ptree

theorem valueSize_encodeSeen_le {versions : List String}
    (hseen : ∀ version ∈ versions, validVersion version = true)
    (hlength : versions.length ≤ maxSeenVersions) :
    (encodeSeen versions).valueSize 3 ≤ 2 + 1 + 2 + maxSeenVersions * 117 + 12 + 1 := by
  have helements : elementsSize 3 (isArray (encodeSeen versions).children)
      (encodeSeen versions).children ≤ (encodeSeen versions).children.length * 117 := by
    refine elementsSize_le fun c hc => ?_
    simp only [encodeSeen, children_node, List.mem_map] at hc
    rcases hc with ⟨version, hmem, rfl⟩
    have harray : isArray (encodeSeen versions).children = true := by
      simp [encodeSeen, isArray]
    have hsize := quotedSize_version (.inr (hseen version hmem))
    rw [harray, nameSize, if_pos rfl, valueSize_leaf, lineEnd]
    omega
  have hlen : (encodeSeen versions).children.length = versions.length := by simp [encodeSeen]
  have hvalue := valueSize_le 3 "" (encodeSeen versions).children
  have hempty : quotedSize "" = 2 := by decide
  rw [hlen] at helements
  rw [hempty, lineEnd] at hvalue
  have hle : versions.length * 117 ≤ maxSeenVersions * 117 := Nat.mul_le_mul_right 117 hlength
  change (Ptree.node "" (encodeSeen versions).children).valueSize 3 ≤ _
  omega

/-- A user of the longest name with as many versions as are kept. -/
def maxUserSize : ℕ := 31730

theorem valueSize_encodeUser_le {key : String} {state : UserState} (hkey : byteSize key ≤ 256)
    (h : state.Valid) : (encodeUser key state).valueSize 2 ≤ maxUserSize := by
  have hname := quotedSize_le key
  have hseen := valueSize_encodeSeen_le h.seen h.length
  have hdismissed := quotedSize_version h.dismissed
  have husername : quotedSize "username" = 10 := by decide
  have hseenName : quotedSize "seen_installed_versions" = 25 := by decide
  have hdismissedName : quotedSize "dismissed_update_version" = 26 := by decide
  have harray : isArray [("username", leaf key),
      ("seen_installed_versions", encodeSeen state.seenInstalledVersions),
      ("dismissed_update_version", leaf state.dismissedUpdateVersion)] = false := by
    simp [isArray]
  rw [encodeUser, valueSize, harray]
  simp only [elementsSize, nameSize, Bool.false_eq_true, if_false, husername, hseenName,
    hdismissedName, valueSize_leaf, lineEnd, maxUserSize, maxSeenVersions, Nat.reduceAdd]
    at hseen ⊢
  omega

theorem prettySize_encode_le {book : Book} (h : book.Valid) :
    (encode book).prettySize ≤ maxStateBytes := by
  have helements : elementsSize 1 (isArray (encodeUsers book)) (encodeUsers book) ≤
      (encodeUsers book).length * (maxUserSize + 11) := by
    refine elementsSize_le fun c hc => ?_
    simp only [encodeUsers, List.mem_map] at hc
    rcases hc with ⟨user, hmem, rfl⟩
    have harray : isArray (encodeUsers book) = true := by
      simp [encodeUsers, isArray]
    have hsize := valueSize_encodeUser_le (h.key user hmem) (h.state user hmem)
    rw [harray, nameSize, if_pos rfl, lineEnd]
    change 4 * 2 + 0 + (encodeUser user.1 user.2).valueSize 2 + 1 + 2 ≤ maxUserSize + 11
    omega
  have hlen : (encodeUsers book).length = book.length := by simp [encodeUsers]
  have hle : book.length * (maxUserSize + 11) ≤ maxUsers * (maxUserSize + 11) :=
    Nat.mul_le_mul_right _ h.length
  have hvalue := valueSize_le 1 "" (encodeUsers book)
  have hempty : quotedSize "" = 2 := by decide
  have husers : quotedSize "users" = 7 := by decide
  rw [hlen] at helements
  rw [hempty, lineEnd] at hvalue
  rw [prettySize, encode]
  simp only [children_node, elementsSize, nameSize, Bool.false_eq_true, if_false, husers, lineEnd,
    maxStateBytes, maxUsers, maxUserSize, Nat.reduceAdd] at helements hle hvalue ⊢
  omega

end LuminalShine.Changelog
