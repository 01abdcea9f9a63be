import LuminalShine.Lib.JsonReads
import LuminalShine.Playnite.Games
import Mathlib.Algebra.Group.Nat.Defs

/-!
# Messages of the Playnite plugin

`parse` of `src/platform/windows/playnite_protocol.cpp`.  The type of the message is set before
its entries are read, and whatever raises ends the reading with the message as it is by then.
The JSON parser is a parameter; `none` is a text it rejects.

## Main definitions

* `parse` — the message of a frame.
* `AllOrNothing` — nothing of unknown type, or all usable entries.

## Main results

* `parse_allOrNothing_iff`
-/

namespace LuminalShine.Playnite.Protocol

open LuminalShine.Lib
open LuminalShine.Lib.JsonValue (getString getBoolean getUnsigned)

/-! ## Messages -/

inductive MessageType where
  | unknown
  | categories
  | plugins
  | games
  | status
  deriving DecidableEq, Repr

/-- `Category`, and `Plugin`, which has the same fields. -/
structure Named where
  id : String
  name : String
  deriving DecidableEq, Repr

structure Game where
  id : String
  name : String
  exe : String
  args : String
  workingDir : String
  categories : List String
  pluginId : String
  pluginName : String
  playtimeMinutes : UInt64
  lastPlayed : String
  boxArtPath : String
  description : String
  tags : List String
  installed : Bool
  deriving DecidableEq

structure Message where
  type : MessageType := .unknown
  categories : List Named := []
  plugins : List Named := []
  games : List Game := []
  statusName : String := ""
  statusGameId : String := ""
  statusInstallDir : String := ""
  statusExe : String := ""
  deriving DecidableEq

/-! ## Fields -/

def toStringList : JsonValue → List String
  | .array items => items.filterMap getString
  | _ => []

/-- `std::stoull`. -/
def stoull (s : String) : Option UInt64 :=
  let text := s.toList.dropWhile isSpace
  let (negative, text) :=
    match text with
    | '-' :: text => (true, text)
    | '+' :: text => (false, text)
    | text => (false, text)
  let digits := text.takeWhile Char.isDigit
  let n := digits.foldl (fun n d => n * 10 + (d.toNat - '0'.toNat)) 0
  if digits = [] ∨ 2 ^ 64 ≤ n then none
  else some (if negative then 0 - .ofNat n else .ofNat n)

/-- `playtimeMinutes`, which may arrive as a number or as a string; what raises leaves 0. -/
def playtimeMinutes (g : JsonValue) : UInt64 :=
  match g.value getUnsigned "playtimeMinutes" 0 with
  | some n => n
  | none => ((g.value getString "playtimeMinutes" "").bind stoull).getD 0

/-- `installed` or `isInstalled`; the second one is not read when the first is true. -/
def installed (g : JsonValue) : Option Bool := do
  let has1 := g.contains "installed"
  let has2 := g.contains "isInstalled"
  let inst ← if has1 then g.value getBoolean "installed" false else some false
  let inst ← if has2 && !inst then g.value getBoolean "isInstalled" false else some inst
  return if !has1 && !has2 then true else inst

def stringField (key : String) (j : JsonValue) : Option String := j.value getString key ""

def listField (key : String) (j : JsonValue) : Option (List String) :=
  (j.value some key (.array [])).map toStringList

/-! ## Entries -/

/-- A category or a plugin; `some none` is one without an id and a name. -/
def decodeNamed (c : JsonValue) : Option (Option Named) := do
  let id ← stringField "id" c
  let name ← stringField "name" c
  return if id ≠ "" ∨ name ≠ "" then some { id, name } else none

def decodeGame (g : JsonValue) : Option (Option Game) := do
  let id ← stringField "id" g
  let name ← stringField "name" g
  let exe ← stringField "exe" g
  let args ← stringField "args" g
  let workingDir ← stringField "workingDir" g
  let categories ← listField "categories" g
  let pluginId ← stringField "pluginId" g
  let pluginName ← stringField "pluginName" g
  let lastPlayed ← stringField "lastPlayed" g
  let boxArtPath ← stringField "boxArtPath" g
  let description ← stringField "description" g
  let tags ← listField "tags" g
  let inst ← installed g
  return if id ≠ "" then
    some {
      id, name, exe, args, workingDir, categories, pluginId, pluginName
      playtimeMinutes := playtimeMinutes g
      lastPlayed, boxArtPath, description, tags
      installed := inst }
  else none

/-- The elements of the payload. -/
def payload (j : JsonValue) : List JsonValue := ((j.find? "payload").getD (.array [])).elements

/-- The status fields, up to the first one that raises. -/
def decodeStatus (j : JsonValue) : Message :=
  let st := (j.find? "status").getD (.object [])
  let message : Message := { type := .status }
  match stringField "name" st with
  | none => message
  | some name =>
      let message := { message with statusName := name }
      match stringField "id" st with
      | none => message
      | some id =>
          let message := { message with statusGameId := id }
          match stringField "installDir" st with
          | none => message
          | some installDir =>
              let message := { message with statusInstallDir := installDir }
              match stringField "exe" st with
              | none => message
              | some exe => { message with statusExe := exe }

def decodeMessage (type : String) (j : JsonValue) : Message :=
  if type = "categories" then
    { type := .categories, categories := decodeAll decodeNamed (payload j) }
  else if type = "plugins" then
    { type := .plugins, plugins := decodeAll decodeNamed (payload j) }
  else if type = "games" then
    { type := .games, games := decodeAll decodeGame (payload j) }
  else if type = "status" then decodeStatus j
  else {}

/-- The JSON of a frame, without a byte order mark. -/
def document (parseJson : List UInt8 → Option JsonValue) (bytes : List UInt8) :
    Option JsonValue :=
  let trimmed := if bytes.take 3 = [0xEF, 0xBB, 0xBF] then bytes.drop 3 else bytes
  if trimmed = [] then none else parseJson trimmed

/-- `parse`. -/
def parse (parseJson : List UInt8 → Option JsonValue) (bytes : List UInt8) : Message :=
  match document parseJson bytes with
  | none => {}
  | some j =>
      match stringField "type" j with
      | none => {}
      | some type => decodeMessage type j

/-! ## All or nothing -/

def hasText (key : String) (j : JsonValue) : Bool := ((j.find? key).bind getString).any (· ≠ "")

/-- An id, or a name. -/
def usableNamed (c : JsonValue) : Bool := hasText "id" c || hasText "name" c

def usableGame (g : JsonValue) : Bool := hasText "id" g

/-- The word that names a type in the JSON. -/
def MessageType.name : MessageType → String
  | unknown => ""
  | categories => "categories"
  | plugins => "plugins"
  | games => "games"
  | status => "status"

/-- The elements that are entries of the type `type`. -/
def entriesOf (j : JsonValue) (type : MessageType) (m : Message) : List JsonValue :=
  if m.type = type then payload j else []

/-- A message of the type that is named, with every usable entry. -/
structure Complete (j : JsonValue) (m : Message) : Prop where
  type : (j.find? "type").bind getString = some m.type.name
  categories : Whole decodeNamed usableNamed (entriesOf j .categories m) m.categories
  plugins : Whole decodeNamed usableNamed (entriesOf j .plugins m) m.plugins
  games : Whole decodeGame usableGame (entriesOf j .games m) m.games

/-- An unknown message without entries, or a complete one. -/
def AllOrNothing (parseJson : List UInt8 → Option JsonValue) (bytes : List UInt8)
    (m : Message) : Prop :=
  (m.type = .unknown ∧ m.categories = [] ∧ m.plugins = [] ∧ m.games = []) ∨
    ∃ j, document parseJson bytes = some j ∧ Complete j m

/-- No usable entry stands at or behind the first one that cannot be read. -/
def Undamaged (type : String) (j : JsonValue) : Prop :=
  (type = "categories" ∨ type = "plugins" →
    ∀ c ∈ (payload j).dropWhile fun c => (decodeNamed c).isSome, usableNamed c = false) ∧
  (type = "games" →
    ∀ g ∈ (payload j).dropWhile fun g => (decodeGame g).isSome, usableGame g = false)

theorem hasText_of_stringField {key s : String} {j : JsonValue}
    (h : stringField key j = some s) : hasText key j = decide (s ≠ "") := by
  cases j with
  | object fields =>
      simp only [stringField, JsonValue.value] at h
      simp only [hasText, JsonValue.find?]
      cases hlookup : fields.lookup key with
      | none =>
          simp only [hlookup, Option.some.injEq] at h
          simp [← h]
      | some v =>
          simp only [hlookup] at h
          simp [h]
  | _ => simp [stringField, JsonValue.value] at h

theorem decodeNamed_eq_some {c : JsonValue} {result : Option Named}
    (h : decodeNamed c = some result) : usableNamed c = result.isSome := by
  simp only [decodeNamed, bind, Option.bind_eq_some_iff, pure, Option.some.injEq] at h
  obtain ⟨id, hid, name, hname, rfl⟩ := h
  simp only [usableNamed, hasText_of_stringField hid, hasText_of_stringField hname]
  split <;> simp_all

theorem decodeGame_eq_some {g : JsonValue} {result : Option Game}
    (h : decodeGame g = some result) : usableGame g = result.isSome := by
  unfold decodeGame at h
  obtain ⟨id, hid, h⟩ := Option.bind_eq_some_iff.mp h
  -- The other fields only have to be readable.
  iterate 12 obtain ⟨_, -, h⟩ := Option.bind_eq_some_iff.mp h
  cases h
  simp only [usableGame, hasText_of_stringField hid]
  split
  case isTrue hne => simp [hne]
  case isFalse hne => simp [hne]

theorem whole_named_iff (cs : List JsonValue) :
    Whole decodeNamed usableNamed cs (decodeAll decodeNamed cs) ↔
      ∀ c ∈ cs.dropWhile fun c => (decodeNamed c).isSome, usableNamed c = false :=
  whole_decodeAll_iff (fun _ _ h => decodeNamed_eq_some h) (fun _ h => decodeNamed_eq_some h) cs

theorem whole_games_iff (gs : List JsonValue) :
    Whole decodeGame usableGame gs (decodeAll decodeGame gs) ↔
      ∀ g ∈ gs.dropWhile fun g => (decodeGame g).isSome, usableGame g = false :=
  whole_decodeAll_iff (fun _ _ h => decodeGame_eq_some h) (fun _ h => decodeGame_eq_some h) gs

@[simp]
theorem whole_nil {α : Type} (decode : JsonValue → Option (Option α))
    (usable : JsonValue → Bool) : Whole decode usable [] [] :=
  .nil

theorem decodeStatus_entries (j : JsonValue) :
    (decodeStatus j).type = .status ∧ (decodeStatus j).categories = [] ∧
      (decodeStatus j).plugins = [] ∧ (decodeStatus j).games = [] := by
  simp only [decodeStatus]
  split
  · simp
  · split
    · simp
    · split
      · simp
      · split <;> simp

/-- A message of a known type is complete when it is undamaged. -/
theorem complete_decodeMessage_iff {type : String} {j : JsonValue}
    (htype : stringField "type" j = some type)
    (hknown : (decodeMessage type j).type ≠ .unknown) :
    Complete j (decodeMessage type j) ↔ Undamaged type j := by
  have hnamed : type ≠ "" → (j.find? "type").bind getString = some type := by
    intro hne
    have htext := hasText_of_stringField htype
    simp only [hasText, ne_eq, hne, not_false_eq_true, decide_true, Option.any_eq_true] at htext
    obtain ⟨s, hs, -⟩ := htext
    obtain ⟨v, hv, hget⟩ := Option.bind_eq_some_iff.mp hs
    cases j with
    | object fields =>
        simp only [JsonValue.find?] at hv
        simp only [stringField, JsonValue.value, hv] at htype
        simpa [JsonValue.find?, hv] using htype
    | _ => simp [JsonValue.find?] at hv
  by_cases hcategories : type = "categories"
  · subst hcategories
    have hmessage : decodeMessage "categories" j =
        { type := .categories, categories := decodeAll decodeNamed (payload j) } := rfl
    rw [hmessage]
    refine ⟨fun h => ⟨fun _ => ?_, by simp⟩, fun h => ⟨hnamed (by simp), ?_, ?_, ?_⟩⟩
    · simpa [entriesOf, whole_named_iff] using h.categories
    · simpa [entriesOf, whole_named_iff] using h.1 (.inl rfl)
    · simp [entriesOf]
    · simp [entriesOf]
  by_cases hplugins : type = "plugins"
  · subst hplugins
    have hmessage : decodeMessage "plugins" j =
        { type := .plugins, plugins := decodeAll decodeNamed (payload j) } := rfl
    rw [hmessage]
    refine ⟨fun h => ⟨fun _ => ?_, by simp⟩, fun h => ⟨hnamed (by simp), ?_, ?_, ?_⟩⟩
    · simpa [entriesOf, whole_named_iff] using h.plugins
    · simp [entriesOf]
    · simpa [entriesOf, whole_named_iff] using h.1 (.inr rfl)
    · simp [entriesOf]
  by_cases hgames : type = "games"
  · subst hgames
    have hmessage : decodeMessage "games" j =
        { type := .games, games := decodeAll decodeGame (payload j) } := rfl
    rw [hmessage]
    refine ⟨fun h => ⟨by simp, fun _ => ?_⟩, fun h => ⟨hnamed (by simp), ?_, ?_, ?_⟩⟩
    · simpa [entriesOf, whole_games_iff] using h.games
    · simp [entriesOf]
    · simp [entriesOf]
    · simpa [entriesOf, whole_games_iff] using h.2 rfl
  by_cases hstatus : type = "status"
  · subst hstatus
    have hmessage : decodeMessage "status" j = decodeStatus j := rfl
    obtain ⟨hkind, hc, hp, hg⟩ := decodeStatus_entries j
    rw [hmessage]
    refine iff_of_true ⟨?_, ?_, ?_, ?_⟩ (by simp [Undamaged])
    · rw [hkind]
      exact hnamed (by simp)
    · simp [entriesOf, hkind, hc]
    · simp [entriesOf, hkind, hp]
    · simp [entriesOf, hkind, hg]
  · simp [decodeMessage, hcategories, hplugins, hgames, hstatus] at hknown

/-- A message of unknown type has nothing to lose. -/
theorem decodeMessage_unknown {type : String} {j : JsonValue}
    (hunknown : (decodeMessage type j).type = .unknown) :
    decodeMessage type j = {} ∧ Undamaged type j := by
  have hstatus := (decodeStatus_entries j).1
  simp only [decodeMessage] at hunknown ⊢
  split at hunknown
  · cases hunknown
  · next hcategories =>
    split at hunknown
    · cases hunknown
    · next hplugins =>
      split at hunknown
      · cases hunknown
      · next hgames =>
        split at hunknown
        · simp [hstatus] at hunknown
        · next hother => simp [Undamaged, hcategories, hplugins, hgames, hother]

/-- **All or nothing.**  A frame is decoded in full, or to nothing, exactly when no usable entry
stands at or behind the first one that cannot be read. -/
theorem parse_allOrNothing_iff (parseJson : List UInt8 → Option JsonValue) (bytes : List UInt8) :
    AllOrNothing parseJson bytes (parse parseJson bytes) ↔
      ∀ j type, document parseJson bytes = some j → stringField "type" j = some type →
        Undamaged type j := by
  cases hdocument : document parseJson bytes with
  | none => simp [AllOrNothing, parse, hdocument]
  | some j =>
      cases htype : stringField "type" j with
      | none =>
          have hparse : parse parseJson bytes = {} := by simp [parse, hdocument, htype]
          rw [hparse]
          refine iff_of_true (.inl ⟨rfl, rfl, rfl, rfl⟩) fun j' type hj htype' => ?_
          rw [← Option.some.inj hj, htype] at htype'
          cases htype'
      | some type =>
          have hparse : parse parseJson bytes = decodeMessage type j := by
            simp [parse, hdocument, htype]
          have hundamaged : (∀ j' type', some j = some j' → stringField "type" j' = some type' →
              Undamaged type' j') ↔ Undamaged type j := by
            constructor
            · exact fun h => h j type rfl htype
            · intro h j' type' hj htype'
              rw [← Option.some.inj hj, htype] at htype'
              rw [← Option.some.inj hj, ← Option.some.inj htype']
              exact h
          rw [hparse, hundamaged]
          by_cases hknown : (decodeMessage type j).type = .unknown
          · obtain ⟨hempty, hsafe⟩ := decodeMessage_unknown hknown
            refine iff_of_true (.inl ?_) hsafe
            rw [hempty]
            exact ⟨rfl, rfl, rfl, rfl⟩
          · rw [← complete_decodeMessage_iff htype hknown]
            simp [AllOrNothing, hknown, hdocument]

/-- A payload of three categories, the second with a number for a name. -/
def mixedText : List UInt8 :=
  ("\x7b\"type\":\"categories\",\"payload\":[\x7b\"id\":\"a\"\x7d," ++
    "\x7b\"id\":\"b\",\"name\":5\x7d,\x7b\"id\":\"c\"\x7d]\x7d").toUTF8.toList

def mixedDocument : JsonValue :=
  .object [("type", .string "categories"),
    ("payload", .array [.object [("id", .string "a")],
      .object [("id", .string "b"), ("name", .integer 5)], .object [("id", .string "c")]])]

/-- A parser that knows one text. -/
def parseMixed (bytes : List UInt8) : Option JsonValue :=
  if bytes = mixedText then some mixedDocument else none

/-- The first category comes alone. -/
theorem parse_truncates :
    (parse parseMixed mixedText).type = .categories ∧
      (parse parseMixed mixedText).categories = [⟨"a", ""⟩] ∧
      ¬ AllOrNothing parseMixed mixedText (parse parseMixed mixedText) := by
  have hdocument : document parseMixed mixedText = some mixedDocument := by
    have hmark : mixedText.take 3 ≠ [0xEF, 0xBB, 0xBF] := by decide +kernel
    have hsome : mixedText ≠ [] := by decide +kernel
    simp [document, hmark, hsome, parseMixed]
  have htype : (parse parseMixed mixedText).type = .categories := by decide +kernel
  have hcategories : (parse parseMixed mixedText).categories = [⟨"a", ""⟩] := by decide +kernel
  refine ⟨htype, hcategories, ?_⟩
  rintro (⟨hunknown, -⟩ | ⟨j, hj, hcomplete⟩)
  · simp [htype] at hunknown
  · rw [hdocument, Option.some.injEq] at hj
    subst hj
    have hlength := List.Forall₂.length_eq hcomplete.categories
    have hthree : ((payload mixedDocument).filter usableNamed).length = 3 := by rfl
    rw [entriesOf, if_pos htype, hthree, hcategories] at hlength
    simp at hlength

end LuminalShine.Playnite.Protocol
