import Mathlib.Data.List.Basic
import Mathlib.Data.Nat.Notation

/-!
# Sealed credentials

`seal` and `unseal` of `src/cred_store/tpm_seal_windows.cpp`.  A record is encrypted under
a fresh AES key, and that key under the one RSA key the platform's provider keeps.  Every
call of the provider may fail on its own; a record of outcomes says which ones do, and
what the random draws are.

What the calls compute when they succeed is a parameter, with the laws of its two
ciphers.

## Main definitions

* `Platform` — the provider and the ciphers.
* `Envelope`, `parseEnvelope`, `Envelope.bytes` — the format `TPM1`.
* `sealRecord`, `unsealRecord` — the operations, with the outcomes of their calls.
* `openWith` — what unsealing gives when nothing fails.
-/

namespace LuminalShine.CredStore

abbrev Bytes := List UInt8

/-- Bytes drawn at random. -/
abbrev Draw (n : ℕ) := { bytes : Bytes // bytes.length = n }

/-- What the calls of NCrypt and BCrypt compute.  `seed` is the randomness of the padding. -/
structure Platform where
  Key : Type
  wrap : Key → ℕ → Bytes → Bytes
  unwrap : Key → Bytes → Option Bytes
  gcmEncrypt : Bytes → Bytes → Bytes → Bytes × Bytes
  gcmDecrypt : Bytes → Bytes → Bytes → Bytes → Option Bytes
  unwrap_wrap : ∀ key seed (aesKey : Draw 32),
    unwrap key (wrap key seed aesKey) = some aesKey.1
  wrap_length : ∀ key seed (aesKey : Draw 32),
    0 < (wrap key seed aesKey).length ∧ (wrap key seed aesKey).length ≤ 0xFFFF
  gcm_tag : ∀ aesKey iv plaintext, (gcmEncrypt aesKey iv plaintext).1.length = 16
  gcm_decrypt : ∀ aesKey iv plaintext,
    gcmDecrypt aesKey iv (gcmEncrypt aesKey iv plaintext).1
      (gcmEncrypt aesKey iv plaintext).2 = some plaintext

/-! ## The format -/

/-- `kMagic`: the text `TPM1`. -/
def magic : Bytes := [84, 80, 77, 49]

def looksSealed (blob : Bytes) : Bool := blob.take 4 == magic

structure Envelope where
  wrapped : Bytes
  iv : Bytes
  tag : Bytes
  ciphertext : Bytes
  deriving DecidableEq, Repr

/-- The header of `unseal`; the length of the wrapped key is big-endian. -/
def parseEnvelope (blob : Bytes) : Option Envelope :=
  if blob.length < 4 + 2 + 12 + 16 then none
  else
    let rest := blob.drop 6
    let wrappedLen := (blob.getD 4 0).toNat * 256 + (blob.getD 5 0).toNat
    if blob.length < 4 + 2 + wrappedLen + 12 + 16 then none
    else some {
      wrapped := rest.take wrappedLen
      iv := (rest.drop wrappedLen).take 12
      tag := (rest.drop (wrappedLen + 12)).take 16
      ciphertext := rest.drop (wrappedLen + 28) }

def Envelope.bytes (e : Envelope) : Bytes :=
  magic ++ [UInt8.ofNat (e.wrapped.length / 256), UInt8.ofNat e.wrapped.length] ++
    e.wrapped ++ e.iv ++ e.tag ++ e.ciphertext

theorem looksSealed_bytes (e : Envelope) : looksSealed e.bytes = true := by
  simp [looksSealed, Envelope.bytes, magic]

/-- An envelope with fields of the right sizes is read back. -/
theorem parseEnvelope_bytes {e : Envelope} (hwrapped : e.wrapped.length ≤ 0xFFFF)
    (hiv : e.iv.length = 12) (htag : e.tag.length = 16) : parseEnvelope e.bytes = some e := by
  obtain ⟨wrapped, iv, tag, ciphertext⟩ := e
  simp only at hwrapped hiv htag
  have hdrop : (Envelope.bytes ⟨wrapped, iv, tag, ciphertext⟩).drop 6 =
      wrapped ++ (iv ++ (tag ++ ciphertext)) := by
    simp [Envelope.bytes, magic]
  have hlen : (Envelope.bytes ⟨wrapped, iv, tag, ciphertext⟩).length =
      6 + wrapped.length + 28 + ciphertext.length := by
    simp [Envelope.bytes, magic, hiv, htag]
    omega
  have hhigh : (Envelope.bytes ⟨wrapped, iv, tag, ciphertext⟩).getD 4 0 =
      UInt8.ofNat (wrapped.length / 256) := by simp [Envelope.bytes, magic]
  have hlow : (Envelope.bytes ⟨wrapped, iv, tag, ciphertext⟩).getD 5 0 =
      UInt8.ofNat wrapped.length := by simp [Envelope.bytes, magic]
  have hwrappedLen : (UInt8.ofNat (wrapped.length / 256)).toNat * 256 +
      (UInt8.ofNat wrapped.length).toNat = wrapped.length := by
    simp only [UInt8.toNat_ofNat']
    omega
  unfold parseEnvelope
  rw [hdrop, hlen, hhigh, hlow, hwrappedLen, if_neg (by omega), if_neg (by omega)]
  have h28 : wrapped.length + 28 = wrapped.length + (iv.length + tag.length) := by omega
  have htagged : (wrapped ++ (iv ++ (tag ++ ciphertext))).drop (wrapped.length + 12) =
      tag ++ ciphertext := by
    rw [← hiv, ← List.drop_drop, List.drop_left, List.drop_left]
  have hcipher : (wrapped ++ (iv ++ (tag ++ ciphertext))).drop (wrapped.length + 28) =
      ciphertext := by
    rw [h28, ← List.drop_drop, List.drop_left, ← List.drop_drop, List.drop_left, List.drop_left]
  simp only [List.take_left, List.drop_left, htagged, hcipher, Option.some.injEq,
    Envelope.mk.injEq, true_and, and_true]
  exact ⟨hiv ▸ List.take_left, htag ▸ List.take_left⟩

/-! ## The operations -/

variable {P : Platform}

/-- The status of `NCryptOpenKey`. -/
inductive OpenStatus (P : Platform) where
  | success (key : P.Key)
  | badKeyset
  | failed

/-- `NCryptOpenKey`: `ok` says that the provider does not fail. -/
def ncryptOpenKey (persisted : Option P.Key) (ok : Bool) : OpenStatus P :=
  if ok then
    match persisted with
    | some key => .success key
    | none => .badKeyset
  else .failed

/-- `open_existing_key`: any other status is one answer. -/
def openExistingKey (persisted : Option P.Key) (ok : Bool) : Option P.Key :=
  match ncryptOpenKey persisted ok with
  | .success key => some key
  | .badKeyset => none
  | .failed => none

/-- The calls one `unseal` makes; `true` where the call does not fail. -/
structure UnsealCalls where
  openProvider : Bool
  openKey : Bool
  decrypt : Bool
  gcm : Bool
  deriving DecidableEq, Repr

def UnsealCalls.ok (calls : UnsealCalls) : Bool :=
  calls.openProvider && calls.openKey && calls.decrypt && calls.gcm

/-- `unseal`; `available` is the cached answer of `available()`. -/
def unsealRecord (persisted : Option P.Key) (available : Bool) (calls : UnsealCalls)
    (blob : Bytes) : Option Bytes :=
  if !looksSealed blob then none
  else if !available then none
  else match parseEnvelope blob with
    | none => none
    | some e =>
        if !calls.openProvider then none
        else match openExistingKey persisted calls.openKey with
          | none => none
          | some key =>
              if !calls.decrypt then none
              else match P.unwrap key e.wrapped with
                | none => none
                | some aesKey =>
                    if aesKey.length ≠ 32 then none
                    else if !calls.gcm then none
                    else P.gcmDecrypt aesKey e.iv e.tag e.ciphertext

/-- The calls one `seal` makes, and its draws; `newKey` is what a creation would make. -/
structure SealCalls (P : Platform) where
  openProvider : Bool
  openKey : Bool
  createKey : Bool
  random : Bool
  encryptSize : Bool
  encrypt : Bool
  gcm : Bool
  newKey : P.Key
  aesKey : Draw 32
  iv : Draw 12
  seed : ℕ

def SealCalls.ok (calls : SealCalls P) : Bool :=
  calls.openProvider && calls.openKey && calls.random && calls.encryptSize && calls.encrypt &&
    calls.gcm

/-- `open_or_create_key`, with the key persisted after it: a name that exists is not created
again. -/
def openOrCreateKey (persisted : Option P.Key) (calls : SealCalls P) :
    Option P.Key × Option P.Key :=
  match ncryptOpenKey persisted calls.openKey with
  | .success key => (some key, persisted)
  | _ =>
      match persisted with
      | some _ => (none, persisted)
      | none => if calls.createKey then (some calls.newKey, some calls.newKey) else (none, none)

/-- `seal`, with the key persisted after it. -/
def sealRecord (persisted : Option P.Key) (available : Bool) (calls : SealCalls P)
    (plaintext : Bytes) : Option Bytes × Option P.Key :=
  if !available then (none, persisted)
  else if !calls.openProvider then (none, persisted)
  else match openOrCreateKey persisted calls with
    | (none, persisted) => (none, persisted)
    | (some key, persisted) =>
        let wrapped := P.wrap key calls.seed calls.aesKey
        if !calls.random then (none, persisted)
        else if !calls.encryptSize || wrapped.length == 0 || decide (0xFFFF < wrapped.length) then
          (none, persisted)
        else if !calls.encrypt then (none, persisted)
        else if !calls.gcm then (none, persisted)
        else
          let (tag, ciphertext) := P.gcmEncrypt calls.aesKey calls.iv plaintext
          (some (Envelope.bytes ⟨wrapped, calls.iv, tag, ciphertext⟩), persisted)

/-! ## What they come to -/

/-- Unsealing with a key, when nothing fails. -/
def openWith (key : P.Key) (blob : Bytes) : Option Bytes :=
  if !looksSealed blob then none
  else (parseEnvelope blob).bind fun e =>
    (P.unwrap key e.wrapped).bind fun aesKey =>
      if aesKey.length ≠ 32 then none else P.gcmDecrypt aesKey e.iv e.tag e.ciphertext

/-- One `unseal`: every failure has the same outcome. -/
theorem unsealRecord_eq (persisted : Option P.Key) (available : Bool) (calls : UnsealCalls)
    (blob : Bytes) :
    unsealRecord persisted available calls blob =
      if available && calls.ok then persisted.bind (openWith · blob) else none := by
  obtain ⟨openProvider, openKey, decrypt, gcm⟩ := calls
  cases persisted with
  | none =>
      have hopen : openExistingKey (none : Option P.Key) openKey = none := by
        cases openKey <;> rfl
      simp only [unsealRecord, hopen, Option.bind_none, ite_self]
      split
      · rfl
      · split
        · rfl
        · cases parseEnvelope blob <;> simp
  | some key =>
      cases available <;> cases openProvider <;> cases openKey <;> cases decrypt <;> cases gcm <;>
        cases hsealed : looksSealed blob <;> cases hparse : parseEnvelope blob <;>
        simp [unsealRecord, openWith, UnsealCalls.ok, openExistingKey, ncryptOpenKey, hsealed,
          hparse]
      all_goals cases P.unwrap key _ <;> simp

/-- `seal` under a persisted key: an envelope that key opens, unless a call fails. -/
theorem sealRecord_of_persisted (key : P.Key) (available : Bool) (calls : SealCalls P)
    (plaintext : Bytes) :
    ∃ blob, openWith key blob = some plaintext ∧
      sealRecord (some key) available calls plaintext =
        (if available && calls.ok then some blob else none, some key) := by
  let wrapped := P.wrap key calls.seed calls.aesKey
  let cipher := P.gcmEncrypt calls.aesKey calls.iv plaintext
  have hlen := P.wrap_length key calls.seed calls.aesKey
  refine ⟨Envelope.bytes ⟨wrapped, calls.iv, cipher.1, cipher.2⟩, ?_, ?_⟩
  · have hparse := parseEnvelope_bytes (e := ⟨wrapped, calls.iv, cipher.1, cipher.2⟩) hlen.2
      calls.iv.2 (P.gcm_tag _ _ _)
    have haes : calls.aesKey.1.length = 32 := calls.aesKey.2
    simp [openWith, looksSealed_bytes, hparse, wrapped, cipher, P.unwrap_wrap, haes,
      P.gcm_decrypt]
  · have hpos : ((P.wrap key calls.seed calls.aesKey).length == 0) = false := by
      simp only [beq_eq_false_iff_ne]
      omega
    have hbound : decide (0xFFFF < (P.wrap key calls.seed calls.aesKey).length) = false := by
      simp only [decide_eq_false_iff_not]
      omega
    obtain ⟨openProvider, openKey, createKey, random, encryptSize, encrypt, gcm, newKey,
      aesKey, iv, seed⟩ := calls
    simp only at hpos hbound
    cases available <;> cases openProvider <;> cases openKey <;> cases random <;>
      cases encryptSize <;> cases encrypt <;> cases gcm <;>
      simp [sealRecord, openOrCreateKey, ncryptOpenKey, SealCalls.ok, hpos, hbound, wrapped, cipher]

end LuminalShine.CredStore
