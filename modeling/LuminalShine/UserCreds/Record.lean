import LuminalShine.ClientStore.Format

/-!
# The credential record

What `save_user_creds` of `src/httpcommon.cpp` writes, how `reload_user_creds` assigns it to
the fields in memory, and how `verify_user_password` checks a login against them.

The two hash functions are parameters; a failed one gives the empty text, as in
`src/crypto.cpp`.

## Main definitions

* `Crypto` — the hash functions.
* `Credentials` — the fields in memory; `accepts` — the check of a login.
* `saveRecord`, `assignRecord` — the record written, and read back field by field.

## Main results

* `saveRecord_accepts` — a record that is read back accepts the login it was made for, or
  none.
-/

namespace LuminalShine.UserCreds

open LuminalShine.Lib
open LuminalShine.ClientStore (readText)

/-- `util::hex(crypto::hash(…))` and `crypto::argon2id`, which gives the empty text when it
fails, and always when OpenSSL has no provider for it. -/
structure Crypto where
  sha256Hex : String → String
  argon2idAvailable : Bool
  argon2id : String → String → ℕ → ℕ → ℕ → String
  argon2id_unavailable : argon2idAvailable = false →
    ∀ password salt mCost tCost parallel, argon2id password salt mCost tCost parallel = ""

/-- `kArgon2DefaultMemCostKib`, `kArgon2DefaultTimeCost` and `kArgon2DefaultParallel`. -/
def argon2DefaultMemCostKib : ℕ := 65536
def argon2DefaultTimeCost : ℕ := 3
def argon2DefaultParallel : ℕ := 1

/-- The credential fields of `config::sunshine`. -/
structure Credentials where
  username : String
  password : String
  salt : String
  passwordKdf : String
  argon2MCostKib : ℕ
  argon2TCost : ℕ
  argon2Parallel : ℕ
  deriving DecidableEq, Repr

/-! ## Verification -/

/-- `boost::iequals`. -/
def iequals (a b : String) : Bool := a.toList.map Char.toUpper == b.toList.map Char.toUpper

def Credentials.legacy (c : Credentials) : Bool := c.passwordKdf = "" || c.passwordKdf = "sha256"

/-- The hash of a password under the record's function; `none` for an unknown one. -/
def computed (crypto : Crypto) (c : Credentials) (password : String) : Option String :=
  if c.legacy then some (crypto.sha256Hex (password ++ c.salt))
  else if c.passwordKdf = "argon2id" then
    some (crypto.argon2id password c.salt c.argon2MCostKib c.argon2TCost c.argon2Parallel)
  else none

/-- The check of `verify_user_password` on its snapshot. -/
def accepts (crypto : Crypto) (c : Credentials) (username password : String) : Bool :=
  iequals username c.username &&
    match computed crypto c password with
    | none => false
    | some hash => hash ≠ "" && hash = c.password

/-! ## The record -/

/-- `std::isspace`. -/
def isSpace (c : Char) : Bool := c = ' ' || ('\t' ≤ c && c ≤ '\r')

/-- `get<std::uint32_t>`: a number read from a stream, a minus sign wrapping it around. -/
def parseUInt32 (text : String) : Option ℕ :=
  let chars := text.toList.dropWhile isSpace
  let (negative, chars) :=
    match chars with
    | '-' :: rest => (true, rest)
    | '+' :: rest => (false, rest)
    | chars => (false, chars)
  let digits := chars.takeWhile Char.isDigit
  let value := digits.foldl (fun n c => 10 * n + (c.toNat - '0'.toNat)) 0
  if digits.isEmpty || !(chars.dropWhile Char.isDigit).all isSpace || decide (2 ^ 32 ≤ value) then
    none
  else some (if negative then (2 ^ 32 - value) % 2 ^ 32 else value)

/-- `get<std::uint32_t>(key, fallback)`. -/
def readUInt32 (tree : Ptree) (key : String) (fallback : ℕ) : ℕ :=
  ((tree.find? key).bind fun node => parseUInt32 node.data).getD fallback

/-- The tree `save_user_creds` serialises; `none` when Argon2id fails. -/
def saveRecord (crypto : Crypto) (existing : Ptree) (username password salt : String) :
    Option Ptree :=
  let tree := (existing.put username ["username"]).put salt ["salt"]
  if crypto.argon2idAvailable then
    let hash := crypto.argon2id password salt argon2DefaultMemCostKib argon2DefaultTimeCost
      argon2DefaultParallel
    if hash = "" then none
    else
      let tree := (tree.put "2" ["version"]).put "argon2id" ["kdf"]
      let tree := tree.put argon2DefaultMemCostKib.repr ["argon2_m_cost_kib"]
      let tree := tree.put argon2DefaultTimeCost.repr ["argon2_t_cost"]
      let tree := tree.put argon2DefaultParallel.repr ["argon2_parallel"]
      some (tree.put hash ["password"])
  else some (tree.put (crypto.sha256Hex (password ++ salt)) ["password"])

/-- The assignments of `reload_user_creds`, in order; a missing field throws, and what was
assigned before it stays. -/
def assignRecord (c : Credentials) (tree : Ptree) : Credentials × Bool :=
  match tree.find? "username" with
  | none => (c, false)
  | some username =>
      let c := { c with username := username.data }
      match tree.find? "password" with
      | none => (c, false)
      | some password =>
          let c := { c with password := password.data }
          match tree.find? "salt" with
          | none => (c, false)
          | some salt =>
              let c := { c with salt := salt.data }
              let kdf := readText tree "kdf"
              if kdf = "" then ({ c with passwordKdf := "sha256" }, true)
              else if kdf = "argon2id" then
                ({ c with
                  passwordKdf := kdf
                  argon2MCostKib := readUInt32 tree "argon2_m_cost_kib" argon2DefaultMemCostKib
                  argon2TCost := readUInt32 tree "argon2_t_cost" argon2DefaultTimeCost
                  argon2Parallel := readUInt32 tree "argon2_parallel" argon2DefaultParallel },
                  true)
              else ({ c with passwordKdf := "sha256" }, true)

/-- `clear_user_creds_in_ram`. -/
def Credentials.clear (c : Credentials) : Credentials :=
  { c with username := "", password := "", salt := "", passwordKdf := "" }

/-- A record that names a user and lacks the password or the salt. -/
def Truncated (tree : Ptree) : Prop :=
  (tree.find? "username").isSome = true ∧
    ((tree.find? "password").isNone = true ∨ (tree.find? "salt").isNone = true)

instance (tree : Ptree) : Decidable (Truncated tree) := inferInstanceAs (Decidable (_ ∧ _))

/-! ## What they come to -/

theorem iequals_refl (a : String) : iequals a a = true := by
  simp [iequals]

/-- An assignment goes through when the three fields are there. -/
theorem assignRecord_snd (c : Credentials) (tree : Ptree) :
    (assignRecord c tree).2 = ((tree.find? "username").isSome &&
      (tree.find? "password").isSome && (tree.find? "salt").isSome) := by
  unfold assignRecord
  cases tree.find? "username" with
  | none => rfl
  | some user =>
      cases tree.find? "password" with
      | none => rfl
      | some pass =>
          cases tree.find? "salt" with
          | none => rfl
          | some salt =>
              dsimp only
              split
              · rfl
              · split <;> rfl

/-- The check after an assignment does not depend on the fields before it. -/
theorem accepts_assignRecord (crypto : Crypto) {c : Credentials} {tree : Ptree}
    (h : (assignRecord c tree).2 = true) (c' : Credentials) (username password : String) :
    accepts crypto (assignRecord c' tree).1 username password =
        accepts crypto (assignRecord c tree).1 username password ∧
      (assignRecord c' tree).1.legacy = (assignRecord c tree).1.legacy := by
  rw [assignRecord_snd] at h
  simp only [Bool.and_eq_true, Option.isSome_iff_exists] at h
  obtain ⟨⟨⟨user, huser⟩, pass, hpass⟩, salt, hsalt⟩ := h
  simp only [assignRecord, huser, hpass, hsalt]
  split
  · simp [accepts, computed, Credentials.legacy]
  · split
    · simp [accepts, computed, Credentials.legacy]
    · simp [accepts, computed, Credentials.legacy]

/-- Without a user nothing is assigned. -/
theorem assignRecord_of_not_truncated {c : Credentials} {tree : Ptree}
    (h : (assignRecord c tree).2 = false) (htruncated : ¬ Truncated tree) :
    (assignRecord c tree).1 = c := by
  rw [assignRecord_snd] at h
  unfold Truncated at htruncated
  cases huser : tree.find? "username" with
  | none => simp [assignRecord, huser]
  | some user =>
      cases hpass : tree.find? "password" <;> cases hsalt : tree.find? "salt" <;>
        simp [huser, hpass, hsalt] at h htruncated

theorem accepts_clear (crypto : Crypto) (c : Credentials) (username password : String) :
    accepts crypto c.clear username password = false := by
  simp +contextual [accepts, computed, Credentials.clear, Credentials.legacy]

section Saved

variable {crypto : Crypto} {existing tree : Ptree} {username password salt : String}

/-- With Argon2id, the record is read back as it was made. -/
theorem assignRecord_argon2id (havailable : crypto.argon2idAvailable = true)
    (h : saveRecord crypto existing username password salt = some tree) (c : Credentials) :
    ∃ hash, hash ≠ "" ∧
      hash = crypto.argon2id password salt argon2DefaultMemCostKib argon2DefaultTimeCost
        argon2DefaultParallel ∧
      assignRecord c tree = (⟨username, hash, salt, "argon2id", argon2DefaultMemCostKib,
        argon2DefaultTimeCost, argon2DefaultParallel⟩, true) := by
  simp only [saveRecord, havailable, if_true] at h
  split at h
  · cases h
  · case isFalse hhash =>
      refine ⟨_, hhash, rfl, ?_⟩
      simp only [Option.some.injEq] at h
      subst h
      have hmCost : parseUInt32 argon2DefaultMemCostKib.repr = some argon2DefaultMemCostKib := by
        decide
      have htCost : parseUInt32 argon2DefaultTimeCost.repr = some argon2DefaultTimeCost := by
        decide
      have hparallel : parseUInt32 argon2DefaultParallel.repr = some argon2DefaultParallel := by
        decide
      simp [assignRecord, readText, readUInt32, Ptree.find?_put_self, Ptree.find?_put_ne, hmCost,
        htCost, hparallel]

/-- Without it, the record is legacy or it keeps the name of a function that is not there. -/
theorem assignRecord_sha256 (havailable : crypto.argon2idAvailable = false)
    (h : saveRecord crypto existing username password salt = some tree) (c : Credentials) :
    (assignRecord c tree).2 = true ∧ (assignRecord c tree).1.username = username ∧
      (assignRecord c tree).1.salt = salt ∧
      (assignRecord c tree).1.password = crypto.sha256Hex (password ++ salt) ∧
      ((assignRecord c tree).1.legacy = true ∨
        (assignRecord c tree).1.passwordKdf = "argon2id") := by
  simp only [saveRecord, havailable, Bool.false_eq_true, if_false, Option.some.injEq] at h
  subst h
  simp only [assignRecord, Ptree.find?_put_self, Ptree.find?_put_ne, ne_eq, String.reduceEq,
    not_false_eq_true, Ptree.data_node]
  split
  · simp [Credentials.legacy]
  · split
    · simp_all [Credentials.legacy]
    · simp [Credentials.legacy]

/-- A record accepts the login it was made for, or none; with Argon2id it is not legacy. -/
theorem saveRecord_accepts (h : saveRecord crypto existing username password salt = some tree)
    (c : Credentials) :
    (assignRecord c tree).2 = true ∧
      ((∀ user pass, accepts crypto (assignRecord c tree).1 user pass = false) ∨
        accepts crypto (assignRecord c tree).1 username password = true) ∧
      (crypto.argon2idAvailable = true → (assignRecord c tree).1.legacy = false) := by
  cases havailable : crypto.argon2idAvailable with
  | true =>
      obtain ⟨hash, hne, hhash, hassign⟩ := assignRecord_argon2id havailable h c
      rw [hassign]
      refine ⟨rfl, Or.inr ?_, ?_⟩
      · simp [accepts, iequals_refl, computed, Credentials.legacy, ← hhash, hne]
      · intro _
        simp [Credentials.legacy]
  | false =>
      obtain ⟨hok, husername, hsalt, hpassword, hkdf⟩ := assignRecord_sha256 havailable h c
      refine ⟨hok, ?_, ?_⟩
      · rcases hkdf with hlegacy | hkdf
        · by_cases hempty : crypto.sha256Hex (password ++ salt) = ""
          · left
            intro user pass
            simp only [accepts, hpassword, hempty]
            cases computed crypto (assignRecord c tree).1 pass <;> simp
          · right
            simp [accepts, husername, iequals_refl, computed, hlegacy, hsalt, hpassword, hempty]
        · left
          intro user pass
          simp [accepts, computed, Credentials.legacy, hkdf,
            crypto.argon2id_unavailable havailable]
      · intro hfalse
        cases hfalse

end Saved

end LuminalShine.UserCreds
