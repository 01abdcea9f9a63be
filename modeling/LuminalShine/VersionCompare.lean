import LuminalShine.Lib.Comparator

/-!
# Comparing versions

`compare_semver` compares the core numbers, then the stable channel, then the pre-release
identifiers.  An identifier is compared by the number in front of it if both have one, and by
its text otherwise, so that three identifiers can lie in a ring.

## Main definitions

* `parseSemver`, `compareIdentifier`, `compareSemver` — as the source has them.
* `Tangled` — two identifiers with numbers in front, and between their texts one without.
* `Clash` — three versions whose pre-release lists part at tangled identifiers.

## Main results

* `knotted_compareIdentifier` — the rings of identifiers are the tangled ones.
* `versions_ordersOn_iff` — `compare_semver` is a total preorder on a set of versions iff no
  three of them clash.
-/

namespace LuminalShine.VersionCompare

open Lib

/-- Bytes in the order of `unsigned char`. -/
abbrev Text := List UInt8

local instance byteOrder : LinearOrder UInt8 where
  le_refl := UInt8.le_refl
  le_trans _ _ _ := UInt8.le_trans
  lt_iff_le_not_ge _ _ := by
    rw [UInt8.lt_iff_toNat_lt, UInt8.le_iff_toNat_le, UInt8.le_iff_toNat_le]
    omega
  le_antisymm _ _ := UInt8.le_antisymm
  le_total := UInt8.le_total
  toDecidableLE := inferInstance

/-! ## Parsing -/

/-- `prerelease_identifier_t` -/
inductive Identifier where
  | int (value : ℤ)
  | string (value : Text)
  deriving DecidableEq, Repr

structure SemVer where
  major : ℤ := 0
  minor : ℤ := 0
  patch : ℤ := 0
  prerelease : List Identifier := []
  deriving DecidableEq, Repr

def dot : UInt8 := 46
def dash : UInt8 := 45
def plus : UInt8 := 43

def isDigit (ch : UInt8) : Bool := 48 ≤ ch && ch ≤ 57

def isSpace (ch : UInt8) : Bool := ch = 32 || (9 ≤ ch && ch ≤ 13)

def asciiLower (value : Text) : Text :=
  value.map fun ch => if 65 ≤ ch && ch ≤ 90 then ch + 32 else ch

def isNumericIdentifier (identifier : Text) : Bool :=
  !identifier.isEmpty && identifier.all isDigit

def digitsValue (digits : Text) : ℤ :=
  digits.foldl (fun value ch => value * 10 + (ch.toNat - 48)) 0

/-- `std::stoi`; none where it throws. -/
def stoi (text : Text) : Option ℤ :=
  let text := text.dropWhile isSpace
  let negative := text.head? = some dash
  let unsigned := if negative ∨ text.head? = some plus then text.drop 1 else text
  let digits := unsigned.takeWhile isDigit
  let value := if negative then -digitsValue digits else digitsValue digits
  if digits.isEmpty then none
  else if -2 ^ 31 ≤ value ∧ value < 2 ^ 31 then some value
  else none

/-- What a loop over `std::getline` with a dot reads; behind a dot at the end there is no
further piece. -/
def getlines (text : Text) : List Text :=
  let pieces := text.splitOn dot
  if pieces.getLast? = some [] then pieces.dropLast else pieces

def parseIdentifier (identifier : Text) : Option Identifier :=
  if identifier.isEmpty then none
  else if isNumericIdentifier identifier then
    match stoi identifier with
    | some value => some (.int value)
    | none => some (.string identifier)
  else some (.string identifier)

/-- The number in a part of the core; a part that is not there is zero. -/
def corePart (parts : List Text) (i : ℕ) : Option ℤ :=
  match parts[i]? with
  | none => some 0
  | some part => stoi part

def parseSemver (version : Text) : SemVer :=
  if version.isEmpty then {} else
    let value := if version.head? = some 118 ∨ version.head? = some 86 then version.drop 1
      else version
    let value := value.takeWhile (· != plus)
    let core := value.takeWhile (· != dash)
    let prerelease := (getlines ((value.dropWhile (· != dash)).drop 1)).filterMap parseIdentifier
    let parts := getlines core
    match corePart parts 0, corePart parts 1, corePart parts 2 with
    | some major, some minor, some patch => ⟨major, minor, patch, prerelease⟩
    | _, _, _ => {}

/-! ## Comparing -/

/-- `stable` -/
def stableName : Text := [115, 116, 97, 98, 108, 101]

def isStableChannel (version : SemVer) : Bool :=
  match version.prerelease with
  | .string name :: _ => asciiLower name = stableName
  | _ => false

/-- The number in front of an identifier and what stands behind it; `-1` if there is none or
if it is too long. -/
def splitNumericPrefix (identifier : Text) : ℤ × Text :=
  let digits := (identifier.takeWhile isDigit).length
  if digits = 0 ∨ 18 < digits then (-1, identifier)
  else (digitsValue (identifier.take digits), identifier.drop digits)

/-- The body of the loop over identifiers; zero where it goes on. -/
def compareIdentifier (left right : Identifier) : ℤ :=
  match left, right with
  | .int leftValue, .int rightValue =>
    if leftValue ≠ rightValue then
      if leftValue < rightValue then -1 else 1
    else 0
  | .int num, .string alpha =>
    let numericPrefix := (splitNumericPrefix alpha).1
    if numericPrefix < 0 then -1
    else if num ≠ numericPrefix then
      if num < numericPrefix then -1 else 1
    else -1
  | .string alpha, .int num =>
    let numericPrefix := (splitNumericPrefix alpha).1
    if numericPrefix < 0 then 1
    else if num ≠ numericPrefix then
      if numericPrefix < num then -1 else 1
    else 1
  | .string leftValue, .string rightValue =>
    if leftValue ≠ rightValue then
      let (leftPrefix, leftSuffix) := splitNumericPrefix leftValue
      let (rightPrefix, rightSuffix) := splitNumericPrefix rightValue
      if 0 ≤ leftPrefix ∧ 0 ≤ rightPrefix then
        if leftPrefix ≠ rightPrefix then
          if leftPrefix < rightPrefix then -1 else 1
        else if leftSuffix ≠ rightSuffix then
          if leftSuffix < rightSuffix then -1 else 1
        else 0
      else if leftValue < rightValue then -1 else 1
    else 0

def compareIdentifierLists (lhs rhs : List Identifier) (startIndex : ℕ) : ℤ :=
  lexCompare compareIdentifier (lhs.drop startIndex) (rhs.drop startIndex)

def compareSemver (lhs rhs : Text) : ℤ :=
  let left := parseSemver lhs
  let right := parseSemver rhs
  if left.major ≠ right.major then
    if left.major < right.major then -1 else 1
  else if left.minor ≠ right.minor then
    if left.minor < right.minor then -1 else 1
  else if left.patch ≠ right.patch then
    if left.patch < right.patch then -1 else 1
  else
    let leftStable := isStableChannel left
    let rightStable := isStableChannel right
    if leftStable && rightStable then
      compareIdentifierLists left.prerelease right.prerelease 1
    else if leftStable ≠ rightStable then
      if leftStable then 1 else -1
    else if left.prerelease.isEmpty && right.prerelease.isEmpty then 0
    else if left.prerelease.isEmpty then 1
    else if right.prerelease.isEmpty then -1
    else compareIdentifierLists left.prerelease right.prerelease 0

/-! ## Identifiers with and without a number in front -/

namespace Identifier

/-- The number that an identifier begins with. -/
def number : Identifier → ℤ
  | .int value => value
  | .string text => (splitNumericPrefix text).1

/-- An identifier that begins with a number of at most 18 digits, or is one. -/
def Numbered : Identifier → Prop
  | .int _ => True
  | .string text => 0 ≤ (splitNumericPrefix text).1

def isString : Identifier → Bool
  | .int _ => false
  | .string _ => true

/-- What stands behind the number. -/
def suffix : Identifier → Text
  | .int _ => []
  | .string text => (splitNumericPrefix text).2

end Identifier

open Identifier

/-- The order of the identifiers with a number in front. -/
def numberOrder : Identifier → Identifier → ℤ :=
  firstBy number (firstBy isString (firstBy suffix fun _ _ => 0))

/-- The order of texts. -/
def textOrder : Text → Text → ℤ := firstBy id fun _ _ => 0

theorem knotted_tied {α : Type} : Knotted (fun _ _ : α => 0) (fun _ _ _ => False) where
  swap _ _ := rfl
  knot := False.elim
  ring _ _ _ := .inl ⟨rfl, rfl, rfl⟩

theorem ring_numberOrder {u v w : Identifier} (huv : numberOrder u v ≤ 0)
    (hvw : numberOrder v w ≤ 0) (hwu : numberOrder w u ≤ 0) :
    numberOrder u v = 0 ∧ numberOrder v w = 0 ∧ numberOrder w u = 0 := by
  have hknotted := ((knotted_tied.firstBy suffix).firstBy isString).firstBy number
  rcases hknotted.ring huv hvw hwu with htied | hknot | hknot | hknot
  · exact htied
  · exact hknot.2.2.2.2.2.2.elim
  · exact hknot.2.2.2.2.2.2.elim
  · exact hknot.2.2.2.2.2.2.elim

theorem textOrder_of_lt {left right : Text} (h : left < right) : textOrder left right = -1 :=
  firstBy_of_lt (show id left < id right from h) _

theorem textOrder_self (text : Text) : textOrder text text = 0 :=
  firstBy_of_eq rfl _

theorem textOrder_nonpos_iff {left right : Text} :
    textOrder left right ≤ 0 ↔ left ≤ right := by
  constructor
  · intro h
    exact key_le_of_firstBy h
  · intro h
    rcases lt_or_eq_of_le h with hlt | rfl
    · rw [textOrder_of_lt hlt]
      omega
    · rw [textOrder_self]

theorem compareIdentifier_numbered {x y : Identifier} (hx : x.Numbered) (hy : y.Numbered) :
    compareIdentifier x y = numberOrder x y := by
  cases x with
  | int a =>
    cases y with
    | int b =>
      simp only [compareIdentifier, numberOrder, firstBy, number, isString, suffix]
      grind
    | string t =>
      have ht : 0 ≤ (splitNumericPrefix t).1 := hy
      have hkind : (false : Bool) < true := by decide
      simp only [compareIdentifier, numberOrder, firstBy, number, isString]
      grind
  | string s =>
    have hs : 0 ≤ (splitNumericPrefix s).1 := hx
    cases y with
    | int b =>
      have hkind : ¬(true : Bool) < false := by decide
      simp only [compareIdentifier, numberOrder, firstBy, number, isString]
      grind
    | string t =>
      have ht : 0 ≤ (splitNumericPrefix t).1 := hy
      simp only [compareIdentifier, numberOrder, firstBy, number, isString, suffix]
      grind

theorem compareIdentifier_int_odd (num : ℤ) {w : Text}
    (hw : ¬ (Identifier.string w).Numbered) : compareIdentifier (.int num) (.string w) = -1 := by
  rw [compareIdentifier, if_pos (Int.not_le.mp hw)]

theorem compareIdentifier_odd_int (num : ℤ) {w : Text}
    (hw : ¬ (Identifier.string w).Numbered) : compareIdentifier (.string w) (.int num) = 1 := by
  rw [compareIdentifier, if_pos (Int.not_le.mp hw)]

theorem compareIdentifier_texts {s t : Text}
    (h : ¬ ((Identifier.string s).Numbered ∧ (Identifier.string t).Numbered)) :
    compareIdentifier (.string s) (.string t) = textOrder s t := by
  simp only [Numbered] at h
  simp only [compareIdentifier, textOrder, firstBy, id]
  grind

theorem compareIdentifier_swap (x y : Identifier) :
    compareIdentifier x y = -compareIdentifier y x := by
  by_cases hnumbered : x.Numbered ∧ y.Numbered
  · rw [compareIdentifier_numbered hnumbered.1 hnumbered.2,
      compareIdentifier_numbered hnumbered.2 hnumbered.1]
    exact (((knotted_tied.firstBy suffix).firstBy isString).firstBy number).swap x y
  cases x with
  | int a =>
    cases y with
    | int b => exact absurd ⟨trivial, trivial⟩ hnumbered
    | string t =>
      have ht : ¬ (Identifier.string t).Numbered := fun ht => hnumbered ⟨trivial, ht⟩
      rw [compareIdentifier_int_odd a ht, compareIdentifier_odd_int a ht]
  | string s =>
    cases y with
    | int b =>
      have hs : ¬ (Identifier.string s).Numbered := fun hs => hnumbered ⟨hs, trivial⟩
      rw [compareIdentifier_int_odd b hs, compareIdentifier_odd_int b hs]
      rfl
    | string t =>
      rw [compareIdentifier_texts hnumbered,
        compareIdentifier_texts fun h => hnumbered ⟨h.2, h.1⟩]
      exact (knotted_tied.firstBy id).swap s t

/-! ## Tangled identifiers -/

/-- `w` has no number in front, or one of more than 18 digits, and its text lies before that of
`u` and behind that of `v` or behind the number that `v` is.  By their own numbers `u` is not
behind `v`. -/
inductive Tangled : Identifier → Identifier → Identifier → Prop
  | int {u w : Text} {num : ℤ} (hu : 0 ≤ (splitNumericPrefix u).1)
    (hw : (splitNumericPrefix w).1 < 0) (hwu : w < u) (huv : (splitNumericPrefix u).1 < num) :
    Tangled (.string u) (.int num) (.string w)
  | string {u v w : Text} (hu : 0 ≤ (splitNumericPrefix u).1)
    (hv : 0 ≤ (splitNumericPrefix v).1) (hw : (splitNumericPrefix w).1 < 0) (hvw : v < w)
    (hwu : w < u)
    (huv : (splitNumericPrefix u).1 < (splitNumericPrefix v).1 ∨
      (splitNumericPrefix u).1 = (splitNumericPrefix v).1 ∧
        (splitNumericPrefix u).2 ≤ (splitNumericPrefix v).2) :
    Tangled (.string u) (.string v) (.string w)

theorem numberOrder_strings_nonpos_iff {s t : Text} :
    numberOrder (.string s) (.string t) ≤ 0 ↔
      (splitNumericPrefix s).1 < (splitNumericPrefix t).1 ∨
        (splitNumericPrefix s).1 = (splitNumericPrefix t).1 ∧
          (splitNumericPrefix s).2 ≤ (splitNumericPrefix t).2 := by
  simp only [numberOrder, firstBy, number, isString, suffix]
  grind

theorem numberOrder_string_int_nonpos_iff {s : Text} {num : ℤ} :
    numberOrder (.string s) (.int num) ≤ 0 ↔ (splitNumericPrefix s).1 < num := by
  have hkind : ¬(true : Bool) < false := by decide
  simp only [numberOrder, firstBy, number, isString]
  grind

theorem Tangled.strict {u v w : Identifier} (h : Tangled u v w) :
    compareIdentifier u v ≤ 0 ∧ compareIdentifier v w < 0 ∧ compareIdentifier w u < 0 := by
  cases h with
  | @int u w num hu hw hwu huv =>
    have hnumbered : (Identifier.string u).Numbered := hu
    have hodd : ¬ (Identifier.string w).Numbered := Int.not_le.mpr hw
    have hint : (Identifier.int num).Numbered := trivial
    rw [compareIdentifier_numbered hnumbered hint, compareIdentifier_int_odd num hodd,
      compareIdentifier_texts fun h => hodd h.1, textOrder_of_lt hwu]
    exact ⟨numberOrder_string_int_nonpos_iff.mpr huv, by omega, by omega⟩
  | @string u v w hu hv hw hvw hwu huv =>
    have hu' : (Identifier.string u).Numbered := hu
    have hv' : (Identifier.string v).Numbered := hv
    have hodd : ¬ (Identifier.string w).Numbered := Int.not_le.mpr hw
    rw [compareIdentifier_numbered hu' hv', compareIdentifier_texts fun h => hodd h.2,
      compareIdentifier_texts fun h => hodd h.1, textOrder_of_lt hvw, textOrder_of_lt hwu]
    exact ⟨numberOrder_strings_nonpos_iff.mpr huv, by omega, by omega⟩

/-- A text without a number in front is not one with a number. -/
theorem lt_of_textOrder {s t : Text}
    (h : (Identifier.string s).Numbered ↔ ¬ (Identifier.string t).Numbered)
    (hle : textOrder s t ≤ 0) : s < t := by
  refine lt_of_le_of_ne (textOrder_nonpos_iff.mp hle) ?_
  rintro rfl
  exact iff_not_self h

theorem tangled_of_ring {u v w : Identifier} (hu : u.Numbered) (hv : v.Numbered)
    (hw : ¬ w.Numbered) (huv : compareIdentifier u v ≤ 0) (hvw : compareIdentifier v w ≤ 0)
    (hwu : compareIdentifier w u ≤ 0) : Tangled u v w := by
  cases w with
  | int num => exact absurd trivial hw
  | string w =>
    rw [compareIdentifier_numbered hu hv] at huv
    cases u with
    | int num =>
      rw [compareIdentifier_odd_int num hw] at hwu
      omega
    | string u =>
      rw [compareIdentifier_texts fun h => hw h.1] at hwu
      have hlt : w < u := lt_of_textOrder (by simp only [hu, hw, not_true]) hwu
      cases v with
      | int num =>
        exact .int hu (Int.not_le.mp hw) hlt (numberOrder_string_int_nonpos_iff.mp huv)
      | string v =>
        rw [compareIdentifier_texts fun h => hw h.2] at hvw
        have hlt' : v < w := lt_of_textOrder (by simp only [hv, hw, not_false_eq_true]) hvw
        exact .string hu hv (Int.not_le.mp hw) hlt' hlt (numberOrder_strings_nonpos_iff.mp huv)

/-- Between two texts without a number in front there is no room for a ring. -/
theorem not_ring_of_two_odd {u v w : Identifier} (hu : u.Numbered) (hv : ¬ v.Numbered)
    (hw : ¬ w.Numbered) (huv : compareIdentifier u v ≤ 0) (hvw : compareIdentifier v w ≤ 0)
    (hwu : compareIdentifier w u ≤ 0) : False := by
  cases v with
  | int num => exact hv trivial
  | string v =>
    cases w with
    | int num => exact hw trivial
    | string w =>
      cases u with
      | int num =>
        rw [compareIdentifier_odd_int num hw] at hwu
        omega
      | string u =>
        rw [compareIdentifier_texts fun h => hv h.2, textOrder_nonpos_iff] at huv
        rw [compareIdentifier_texts fun h => hv h.1, textOrder_nonpos_iff] at hvw
        rw [compareIdentifier_texts fun h => hw h.1] at hwu
        have hlt : w < u := lt_of_textOrder (by simp only [hu, hw, not_true]) hwu
        exact absurd hlt (not_lt_of_ge (le_trans huv hvw))

theorem ring_of_three_odd {u v w : Identifier} (hu : ¬ u.Numbered) (hv : ¬ v.Numbered)
    (hw : ¬ w.Numbered) (huv : compareIdentifier u v ≤ 0) (hvw : compareIdentifier v w ≤ 0)
    (hwu : compareIdentifier w u ≤ 0) :
    compareIdentifier u v = 0 ∧ compareIdentifier v w = 0 ∧ compareIdentifier w u = 0 := by
  cases u with
  | int num => exact absurd trivial hu
  | string u =>
    cases v with
    | int num => exact absurd trivial hv
    | string v =>
      cases w with
      | int num => exact absurd trivial hw
      | string w =>
        rw [compareIdentifier_texts fun h => hu h.1] at huv ⊢
        rw [compareIdentifier_texts fun h => hv h.1] at hvw ⊢
        rw [compareIdentifier_texts fun h => hw h.1] at hwu ⊢
        rcases (knotted_tied.firstBy id).ring huv hvw hwu with htied | hknot | hknot | hknot
        · exact htied
        · exact hknot.2.2.elim
        · exact hknot.2.2.elim
        · exact hknot.2.2.elim

/-- The rings of identifiers, by which of the three have a number in front. -/
theorem knotted_compareIdentifier : Knotted compareIdentifier Tangled where
  swap := compareIdentifier_swap
  knot h := h.strict
  ring := by
    intro u v w huv hvw hwu
    by_cases hu : u.Numbered
    · by_cases hv : v.Numbered
      · by_cases hw : w.Numbered
        · rw [compareIdentifier_numbered hu hv] at huv ⊢
          rw [compareIdentifier_numbered hv hw] at hvw ⊢
          rw [compareIdentifier_numbered hw hu] at hwu ⊢
          exact .inl (ring_numberOrder huv hvw hwu)
        · exact .inr (.inl (tangled_of_ring hu hv hw huv hvw hwu))
      · by_cases hw : w.Numbered
        · exact .inr (.inr (.inr (tangled_of_ring hw hu hv hwu huv hvw)))
        · exact (not_ring_of_two_odd hu hv hw huv hvw hwu).elim
    · by_cases hv : v.Numbered
      · by_cases hw : w.Numbered
        · exact .inr (.inr (.inl (tangled_of_ring hv hw hu hvw hwu huv)))
        · exact (not_ring_of_two_odd hv hw hu hvw hwu huv).elim
      · by_cases hw : w.Numbered
        · exact (not_ring_of_two_odd hw hu hv hwu huv hvw).elim
        · exact .inl (ring_of_three_odd hu hv hw huv hvw hwu)

/-! ## Versions -/

/-- The identifiers that are compared: the name of the stable channel is not. -/
def compared (version : SemVer) : List Identifier :=
  if isStableChannel version then version.prerelease.drop 1 else version.prerelease

def isRelease (version : SemVer) : Bool := version.prerelease.isEmpty

/-- The order of parsed versions, as keys one behind the other. -/
def semverOrder : SemVer → SemVer → ℤ :=
  firstBy SemVer.major (firstBy SemVer.minor (firstBy SemVer.patch (firstBy isStableChannel
    (firstBy isRelease fun left right =>
      lexCompare compareIdentifier (compared left) (compared right)))))

theorem not_isRelease_of_stable {version : SemVer} (h : isStableChannel version = true) :
    isRelease version = false := by
  rcases version with ⟨major, minor, patch, _ | ⟨identifier, rest⟩⟩
  · cases h
  · rfl

theorem compared_nil {version : SemVer} (h : isRelease version = true) :
    compared version = [] := by
  rw [isRelease, List.isEmpty_iff] at h
  rw [compared, h, List.drop_nil, ite_self]

theorem compareChannels_eq (left right : SemVer) :
    (if isStableChannel left && isStableChannel right then
      compareIdentifierLists left.prerelease right.prerelease 1
    else if isStableChannel left ≠ isStableChannel right then
      if isStableChannel left then 1 else -1
    else if isRelease left && isRelease right then 0
    else if isRelease left then 1
    else if isRelease right then -1
    else compareIdentifierLists left.prerelease right.prerelease 0) =
      firstBy isStableChannel (firstBy isRelease fun left right =>
        lexCompare compareIdentifier (compared left) (compared right)) left right := by
  have hlt : (false : Bool) < true := by decide
  cases hleft : isStableChannel left with
  | true =>
    cases hright : isStableChannel right with
    | true =>
      rw [firstBy_of_eq (hleft.trans hright.symm), firstBy_of_eq, compared, hleft, compared, hright]
      · rfl
      · rw [not_isRelease_of_stable hleft, not_isRelease_of_stable hright]
    | false =>
      rw [firstBy_of_gt (by rw [hleft, hright]; exact hlt)]
      rfl
  | false =>
    cases hright : isStableChannel right with
    | true =>
      rw [firstBy_of_lt (by rw [hleft, hright]; exact hlt)]
      rfl
    | false =>
      rw [firstBy_of_eq (hleft.trans hright.symm)]
      simp only [Bool.and_self, Bool.false_eq_true, if_false, ne_eq, not_true]
      cases hempty : isRelease left with
      | true =>
        cases hempty' : isRelease right with
        | true =>
          rw [firstBy_of_eq (hempty.trans hempty'.symm), compared_nil hempty, compared_nil hempty']
          rfl
        | false =>
          rw [firstBy_of_gt (by rw [hempty, hempty']; exact hlt)]
          rfl
      | false =>
        cases hempty' : isRelease right with
        | true =>
          rw [firstBy_of_lt (by rw [hempty, hempty']; exact hlt)]
          rfl
        | false =>
          rw [firstBy_of_eq (hempty.trans hempty'.symm), compared, hleft, compared, hright]
          rfl

theorem compareSemver_eq (lhs rhs : Text) :
    compareSemver lhs rhs = semverOrder (parseSemver lhs) (parseSemver rhs) := by
  rw [semverOrder, firstBy_eq_ite, firstBy_eq_ite, firstBy_eq_ite, ← compareChannels_eq]
  rfl

/-- Three versions of one core and one channel whose pre-release lists part at tangled
identifiers. -/
structure Clash (a b c : SemVer) : Prop where
  major : a.major = b.major ∧ b.major = c.major
  minor : a.minor = b.minor ∧ b.minor = c.minor
  patch : a.patch = b.patch ∧ b.patch = c.patch
  channel : isStableChannel a = isStableChannel b ∧ isStableChannel b = isStableChannel c
  lists : LexKnot compareIdentifier Tangled (compared a) (compared b) (compared c)

theorem not_isRelease_of_compared {version : SemVer} (h : compared version ≠ []) :
    isRelease version = false :=
  Bool.eq_false_iff.mpr fun hempty => h (compared_nil hempty)

theorem knotted_semverOrder : Knotted semverOrder Clash := by
  have hlists := knotted_compareIdentifier.lex.comap compared
  have hknotted := ((((hlists.firstBy isRelease).firstBy
    isStableChannel).firstBy SemVer.patch).firstBy SemVer.minor).firstBy SemVer.major
  refine hknotted.of_iff fun a b c => ?_
  constructor
  · rintro ⟨hmajor, hmajor', hminor, hminor', hpatch, hpatch', hchannel, hchannel', -, -, hknot⟩
    exact ⟨⟨hmajor, hmajor'⟩, ⟨hminor, hminor'⟩, ⟨hpatch, hpatch'⟩, ⟨hchannel, hchannel'⟩, hknot⟩
  · rintro ⟨hmajor, hminor, hpatch, hchannel, hknot⟩
    have hne := hknot.ne_nil
    refine ⟨hmajor.1, hmajor.2, hminor.1, hminor.2, hpatch.1, hpatch.2, hchannel.1, hchannel.2,
      ?_, ?_, hknot⟩
    · rw [not_isRelease_of_compared hne.1, not_isRelease_of_compared hne.2.1]
    · rw [not_isRelease_of_compared hne.2.1, not_isRelease_of_compared hne.2.2]

theorem knotted_compareSemver :
    Knotted compareSemver fun a b c => Clash (parseSemver a) (parseSemver b) (parseSemver c) := by
  have heq : compareSemver = fun a b => semverOrder (parseSemver a) (parseSemver b) := by
    funext a b
    exact compareSemver_eq a b
  rw [heq]
  exact knotted_semverOrder.comap parseSemver

/-- `compare_semver` is a total preorder on a set of versions exactly when no three of them
clash. -/
theorem versions_ordersOn_iff (versions : Set Text) :
    OrdersOn compareSemver versions ↔
      ∀ a ∈ versions, ∀ b ∈ versions, ∀ c ∈ versions,
        ¬ Clash (parseSemver a) (parseSemver b) (parseSemver c) :=
  knotted_compareSemver.ordersOn_iff versions

/-- `1.0.0-1a` < `1.0.0-5` by number, `1.0.0-5` < `1.0.0--x` because a number comes before a
name, and `1.0.0--x` < `1.0.0-1a` by text. -/
theorem hyphen_not_ordersOn :
    ¬ OrdersOn compareSemver {[49, 46, 48, 46, 48, 45, 49, 97], [49, 46, 48, 46, 48, 45, 53],
      [49, 46, 48, 46, 48, 45, 45, 120]} := by
  intro h
  have htrans := h.trans [49, 46, 48, 46, 48, 45, 49, 97] (.inl rfl)
    [49, 46, 48, 46, 48, 45, 53] (.inr (.inl rfl)) [49, 46, 48, 46, 48, 45, 45, 120]
    (.inr (.inr rfl))
  exact absurd (htrans (by decide) (by decide)) (by decide)

end LuminalShine.VersionCompare
