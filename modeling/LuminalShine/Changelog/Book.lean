import LuminalShine.Lib.FirstSeen
import LuminalShine.Lib.PrettyJson
import Mathlib

/-!
# The changelog state

The tree that `acknowledge` and `load` of `src/state_storage.cpp` keep: for each user the
installed versions that were seen and the update that was dismissed.  User names are in small
letters, and never part of a path.

A book is what the tree holds; its tree is decoded to it again.

## Main definitions

* `userKey`, `validVersion`, `decode`, `acknowledgeTree` — the source's functions.
* `Book`, `encode` — the users, and their tree.

## Main results

* `decode_encodeUser` — a user's state is decoded from its entry.
* `findEntry_encodeUsers`, `putEntry_encodeUsers` — the entries of the tree are those of the book.
-/

namespace LuminalShine.Changelog

open LuminalShine.Lib

def maxUsers : ℕ := 64
def maxSeenVersions : ℕ := 256
def maxStateBytes : ℕ := 2 * 1024 * 1024

/-- What is thrown. -/
inductive Error where
  | invalidArgument (what : String)
  | runtimeError (what : String)
  deriving DecidableEq, Repr

structure UserState where
  seenInstalledVersions : List String
  dismissedUpdateVersion : String
  deriving DecidableEq, Repr

def UserState.new : UserState := ⟨[], ""⟩

/-! ## Names and versions -/

/-- `user_key` -/
def userKey (username : String) : Except Error String :=
  if username = "" ∨ 256 < byteSize username then
    .error (.invalidArgument "Invalid changelog user")
  else .ok (String.ofList (username.toList.map Char.toLower))

def versionChar (c : Char) : Bool := c.isAlphanum || c = '.' || c = '-' || c = '+'

/-- `valid_version` -/
def validVersion (version : String) : Bool :=
  match version.toList with
  | [] => false
  | c :: _ => byteSize version ≤ 96 && c.isDigit && version.toList.all versionChar

/-! ## The tree -/

/-- `get<std::string>(key, "")` -/
def text (t : Ptree) (key : String) : String := ((t.find? key).map Ptree.data).getD ""

def savedVersions : List (String × Ptree) → Except Error (List String)
  | [] => .ok []
  | item :: items =>
      if !validVersion item.2.data then .error (.runtimeError "Invalid saved changelog version")
      else match savedVersions items with
        | .error e => .error e
        | .ok versions => .ok (item.2.data :: versions)

/-- `decode` -/
def decode (entry : Ptree) : Except Error UserState :=
  let dismissed := text entry "dismissed_update_version"
  if dismissed ≠ "" ∧ validVersion dismissed = false then
    .error (.runtimeError "Invalid saved changelog version")
  else match entry.find? "seen_installed_versions" with
    | none => .ok ⟨[], dismissed⟩
    | some seen =>
        if maxSeenVersions < seen.children.length then
          .error (.runtimeError "Too many saved changelog versions")
        else match savedVersions seen.children with
          | .error e => .error e
          | .ok versions => .ok ⟨versions, dismissed⟩

/-- The entry of a user. -/
def findEntry (key : String) (users : List (String × Ptree)) : Option Ptree :=
  (users.find? fun c => text c.2 "username" = key).map (·.2)

/-- The entry of a user is changed where it is, or appended. -/
def putEntry (key : String) (entry : Ptree) : List (String × Ptree) → List (String × Ptree)
  | [] => [("", entry)]
  | c :: cs =>
      if text c.2 "username" = key then (c.1, entry) :: cs else c :: putEntry key entry cs

/-- What an acknowledgement makes of the state; `none` returns before anything is written. -/
def UserState.acknowledge (state : UserState) (version : String) (installed : Bool) :
    Option UserState :=
  if installed then
    if version ∈ state.seenInstalledVersions then none
    else
      let seen := state.seenInstalledVersions ++ [version]
      some { state with
        seenInstalledVersions := if maxSeenVersions < seen.length then seen.tail else seen }
  else if state.dismissedUpdateVersion = version then none
  else some { state with dismissedUpdateVersion := version }

def encodeSeen (versions : List String) : Ptree := .node "" (versions.map fun v => ("", .leaf v))

/-- `acknowledge` between its read and its write: the state, and the tree to write. -/
def acknowledgeTree (tree : Ptree) (key version : String) (installed : Bool) :
    Except Error (UserState × Option Ptree) :=
  let tree := if (tree.find? "users").isNone then tree.addChild "users" .empty else tree
  let users := (tree.find? "users").getD .empty
  let found := findEntry key users.children
  if found.isNone ∧ maxUsers ≤ users.children.length then
    .error (.runtimeError "Changelog user limit reached")
  else
    let entry := found.getD (Ptree.empty.put key ["username"])
    match decode entry with
    | .error e => .error e
    | .ok state =>
        match state.acknowledge version installed with
        | none => .ok (state, none)
        | some state =>
            let entry := (entry.putChild (encodeSeen state.seenInstalledVersions)
              ["seen_installed_versions"]).put state.dismissedUpdateVersion
                ["dismissed_update_version"]
            .ok (state, some (tree.set "users"
              (.node users.data (putEntry key entry users.children))))

/-- The state of a user in the tree, as `load` returns it. -/
def loadTree (tree : Ptree) (key : String) : Except Error UserState :=
  match tree.find? "users" with
  | none => .ok .new
  | some users =>
      match findEntry key users.children with
      | none => .ok .new
      | some entry => decode entry

/-! ## Books -/

/-- Users with their states. -/
abbrev Book := List (String × UserState)

namespace Book

def get (book : Book) (key : String) : UserState := (book.lookup key).getD .new

/-- A user's state is changed where it is, or appended. -/
def put (key : String) (state : UserState) : Book → Book
  | [] => [(key, state)]
  | (k, s) :: rest => if k = key then (k, state) :: rest else (k, s) :: put key state rest

end Book

def encodeUser (key : String) (state : UserState) : Ptree :=
  .node "" [("username", .leaf key),
    ("seen_installed_versions", encodeSeen state.seenInstalledVersions),
    ("dismissed_update_version", .leaf state.dismissedUpdateVersion)]

def encodeUsers (book : Book) : List (String × Ptree) :=
  book.map fun user => ("", encodeUser user.1 user.2)

def encode (book : Book) : Ptree := .node "" [("users", .node "" (encodeUsers book))]

structure UserState.Valid (state : UserState) : Prop where
  length : state.seenInstalledVersions.length ≤ maxSeenVersions
  seen : ∀ version ∈ state.seenInstalledVersions, validVersion version = true
  dismissed : state.dismissedUpdateVersion = "" ∨
    validVersion state.dismissedUpdateVersion = true

structure Book.Valid (book : Book) : Prop where
  length : book.length ≤ maxUsers
  key : ∀ user ∈ book, byteSize user.1 ≤ 256
  state : ∀ user ∈ book, user.2.Valid

/-! ## The tree of a book -/

section

variable {book : Book} {key version : String} {state : UserState} {installed : Bool}

@[simp] theorem text_encodeUser (key : String) (state : UserState) :
    text (encodeUser key state) "username" = key := by
  simp [text, encodeUser, Ptree.find?]

theorem savedVersions_encodeSeen {versions : List String}
    (h : ∀ version ∈ versions, validVersion version = true) :
    savedVersions (encodeSeen versions).children = .ok versions := by
  induction versions with
  | nil => rfl
  | cons version versions ih =>
      rw [List.forall_mem_cons] at h
      have hrest := ih h.2
      simp only [encodeSeen, Ptree.children_node] at hrest
      simp [encodeSeen, savedVersions, h.1, hrest]

/-- A state is decoded from its entry. -/
theorem decode_encodeUser (h : state.Valid) : decode (encodeUser key state) = .ok state := by
  have hdismissed : text (encodeUser key state) "dismissed_update_version" =
      state.dismissedUpdateVersion := by
    simp [text, encodeUser, Ptree.find?, List.lookup]
  have hseen : (encodeUser key state).find? "seen_installed_versions" =
      some (encodeSeen state.seenInstalledVersions) := by
    simp [encodeUser, Ptree.find?, List.lookup]
  have hlength : (encodeSeen state.seenInstalledVersions).children.length =
      state.seenInstalledVersions.length := by
    simp [encodeSeen]
  have hvalid : ¬(state.dismissedUpdateVersion ≠ "" ∧
      validVersion state.dismissedUpdateVersion = false) := by
    rintro ⟨hne, hfalse⟩
    rcases h.dismissed with hempty | htrue
    · exact hne hempty
    · rw [htrue] at hfalse
      cases hfalse
  simp only [decode, hdismissed, hseen, hlength]
  rw [if_neg hvalid, if_neg (Nat.not_lt.mpr h.length), savedVersions_encodeSeen h.seen]

theorem decode_new (key : String) : decode (Ptree.empty.put key ["username"]) = .ok .new := by
  simp [decode, text, Ptree.put, Ptree.empty, Ptree.set, Ptree.setChildren, Ptree.find?,
    List.lookup, UserState.new]

/-- The writes of `acknowledge` to an entry. -/
theorem put_encodeUser (key : String) (state state' : UserState) :
    ((encodeUser key state).putChild (encodeSeen state'.seenInstalledVersions)
      ["seen_installed_versions"]).put state'.dismissedUpdateVersion
        ["dismissed_update_version"] = encodeUser key state' := by
  simp [encodeUser, Ptree.putChild, Ptree.put, Ptree.set, Ptree.setChildren, Ptree.find?,
    List.lookup, Ptree.leaf]

theorem put_new (key : String) (state : UserState) :
    ((Ptree.empty.put key ["username"]).putChild (encodeSeen state.seenInstalledVersions)
      ["seen_installed_versions"]).put state.dismissedUpdateVersion
        ["dismissed_update_version"] = encodeUser key state := by
  simp [encodeUser, Ptree.putChild, Ptree.put, Ptree.set, Ptree.setChildren, Ptree.find?,
    Ptree.empty, List.lookup, Ptree.leaf]

theorem findEntry_encodeUsers (book : Book) (key : String) :
    findEntry key (encodeUsers book) = (book.lookup key).map (encodeUser key) := by
  induction book with
  | nil => rfl
  | cons user book ih =>
      obtain ⟨k, s⟩ := user
      simp only [findEntry, encodeUsers] at ih
      by_cases hk : k = key
      · subst hk
        simp [findEntry, encodeUsers]
      · have hlookup : ((k, s) :: book).lookup key = book.lookup key := by
          rw [List.lookup_cons, beq_false_of_ne (Ne.symm hk)]
        rw [hlookup, ← ih]
        simp [findEntry, encodeUsers, hk]

theorem putEntry_encodeUsers (book : Book) (key : String) (state : UserState) :
    putEntry key (encodeUser key state) (encodeUsers book) = encodeUsers (book.put key state) := by
  induction book with
  | nil => rfl
  | cons user book ih =>
      obtain ⟨k, s⟩ := user
      by_cases hk : k = key
      · simp [putEntry, encodeUsers, Book.put, hk]
      · simp only [encodeUsers] at ih
        simp [putEntry, encodeUsers, Book.put, hk, ih]

end

end LuminalShine.Changelog
