import LuminalShine.Lib.Run
import Mathlib.Data.Int.Notation

/-!
# Decryption that fails

`gcm_t::decrypt` of `src/crypto.cpp`, and what its callers do with its answer: the two control
messages of `src/stream.cpp` and the encrypted RTSP message of `src/rtsp.cpp`.  Each call of
OpenSSL succeeds or fails as it likes.

An answer other than zero is a failure.  The failure to set the IV is answered with `false`,
which is zero.  A context that could not be made ready stays, and is taken to be ready by the
next call.

## Main definitions

* `Calls` — what OpenSSL answers during one call.
* `Cipher.decrypt` — the source's function.
* `Receiver`, `step` — a cipher, and the messages its callers hand it.
* `Refuses` — the calls after which nothing unverified is taken for plaintext.

## Main results

* `decrypt_eq_zero_iff` — when the answer is zero.
-/

namespace LuminalShine.Crypto.GcmDecrypt

open LuminalShine.Lib

abbrev Bytes := List UInt8

/-- `tag_size` -/
def tagSize : ℕ := 16

/-- `round_to_pkcs7_padded` -/
def roundToPkcs7Padded (size : ℕ) : ℕ := (size + 15) / 16 * 16

/-- What the calls of OpenSSL answer while one message is decrypted: those that make a context,
the one that sets the IV, and those that decrypt; the update and the final call with the bytes
they write. -/
structure Calls where
  new : Bool
  initCipher : Bool
  setIvLen : Bool
  initKey : Bool
  setIv : Bool
  update : Option Bytes
  setTag : Bool
  final : Option Bytes
  deriving DecidableEq, Repr

/-- Every call that makes a context ready succeeds. -/
def Calls.inits (calls : Calls) : Bool := calls.initCipher && calls.setIvLen && calls.initKey

/-- The message is decrypted and its tag is verified. -/
def Calls.opens (calls : Calls) : Bool :=
  calls.setIv && calls.update.isSome && calls.setTag && calls.final.isSome

/-- `decrypt_ctx`: null, or a context, and whether it was made ready. -/
structure Cipher where
  decryptCtx : Option Bool
  deriving DecidableEq, Repr

/-- `init_decrypt_gcm`: whether it fails, and the context it leaves. -/
def initDecryptGcm (calls : Calls) : Bool × Option Bool :=
  if !calls.new then (true, none) else (!calls.inits, some calls.inits)

/-- What `decrypt` comes to: an exception, or an answer and the plaintext it leaves. -/
inductive Result
  | outOfRange
  | answer (code : ℤ) (plaintext : Bytes)
  deriving DecidableEq, Repr

/-- The part of `decrypt` that follows the IV. -/
def openTagged (calls : Calls) (taggedCipher : Bytes) : Result :=
  if taggedCipher.length < tagSize then .outOfRange
  else
    let buffer := List.replicate (roundToPkcs7Padded (taggedCipher.drop tagSize).length) 0
    match calls.update with
    | none => .answer (-1) buffer
    | some written =>
        if !calls.setTag then .answer (-1) (written ++ buffer.drop written.length)
        else
          match calls.final with
          | none => .answer (-1) (written ++ buffer.drop written.length)
          | some rest => .answer 0 (written ++ rest)

/-- `decrypt`, into an empty vector. -/
def Cipher.decrypt (cipher : Cipher) (calls : Calls) (taggedCipher : Bytes) : Result × Cipher :=
  let (failed, ctx) :=
    if cipher.decryptCtx.isNone then initDecryptGcm calls else (false, cipher.decryptCtx)
  if failed then (.answer (-1) [], { decryptCtx := ctx })
  else if !calls.setIv then (.answer 0 [], { decryptCtx := ctx })
  else (openTagged calls taggedCipher, { decryptCtx := ctx })

/-! ## The callers -/

/-- Who decrypts: the handlers of `IDX_INPUT_DATA` and `IDX_ENCRYPTED`, and the reader of RTSP
messages, for which the parser takes the plaintext or does not. -/
inductive Caller
  | inputData
  | encrypted
  | rtsp (parses : Bytes → Bool)

/-- What a caller passes on: each takes any answer but zero for a failed tag. -/
def Caller.dispatches (caller : Caller) : Result → Option Bytes
  | .outOfRange => none
  | .answer code plaintext =>
      if code ≠ 0 then none
      else
        match caller with
        | .inputData | .encrypted => some plaintext
        | .rtsp parses => if parses plaintext then some plaintext else none

/-- One message: whether its context was ready and its tag verified, the answer of `decrypt`,
and what was passed on. -/
structure Entry where
  verified : Bool
  result : Result
  dispatched : Option Bytes
  deriving DecidableEq, Repr

/-- One side's cipher, and the messages that went through it. -/
structure Receiver where
  cipher : Cipher
  log : List Entry
  deriving DecidableEq, Repr

/-- A cipher that has decrypted nothing. -/
def Receiver.new : Receiver := { cipher := { decryptCtx := none }, log := [] }

/-- A message, its caller, and what OpenSSL answers. -/
structure Message where
  caller : Caller
  taggedCipher : Bytes
  calls : Calls

/-- The context that the IV is set on, and whether it is ready; none where making one fails. -/
def Cipher.reaches (cipher : Cipher) (calls : Calls) : Option Bool :=
  match cipher.decryptCtx with
  | some ready => some ready
  | none => if calls.new && calls.inits then some true else none

/-- The context is ready, and the message opens. -/
def Cipher.verifies (cipher : Cipher) (m : Message) : Bool :=
  cipher.reaches m.calls == some true && m.calls.opens

/-- One message. -/
def step (r : Receiver) (m : Message) : Option Receiver :=
  some {
    cipher := (r.cipher.decrypt m.calls m.taggedCipher).2
    log := r.log ++
      [{ verified := r.cipher.verifies m
         result := (r.cipher.decrypt m.calls m.taggedCipher).1
         dispatched := m.caller.dispatches (r.cipher.decrypt m.calls m.taggedCipher).1 }] }

/-- An answer is zero, or a plaintext passed on, only where all that was to succeed has. -/
def Entry.Closed (e : Entry) : Prop :=
  (∀ plaintext, e.result = .answer 0 plaintext → e.verified = true) ∧
    (e.dispatched.isSome → e.verified = true)

/-- Every message that went through the cipher failed closed. -/
def FailsClosed (r : Receiver) : Prop := ∀ e ∈ r.log, e.Closed

/-- Where the message comes to a context, the IV is set on it; and a context that was not made
ready decrypts nothing. -/
def Refuses (r : Receiver) (m : Message) : Prop :=
  ∀ ready, r.cipher.reaches m.calls = some ready →
    m.calls.setIv = true ∧
      (ready = false → m.taggedCipher.length < tagSize ∨ m.calls.opens = false)

/-! ## The answer -/

/-- The tail of `decrypt` answers zero exactly if there is a tag and every call succeeds. -/
theorem openTagged_eq_zero (calls : Calls) (taggedCipher : Bytes) (hiv : calls.setIv = true) :
    (∃ plaintext, openTagged calls taggedCipher = .answer 0 plaintext) ↔
      tagSize ≤ taggedCipher.length ∧ calls.opens = true := by
  by_cases hshort : taggedCipher.length < tagSize
  · simp [openTagged, hshort, Nat.not_le.mpr hshort]
  · rw [openTagged, if_neg hshort]
    cases hupdate : calls.update with
    | none => simp [Calls.opens, hupdate]
    | some written =>
        cases htag : calls.setTag with
        | false => simp [Calls.opens, htag]
        | true =>
            cases hfinal : calls.final with
            | none => simp [Calls.opens, hfinal]
            | some rest => simp [Calls.opens, hiv, hupdate, htag, hfinal, Nat.not_lt.mp hshort]

theorem decrypt_of_reaches {cipher : Cipher} {calls : Calls} {ready : Bool}
    (h : cipher.reaches calls = some ready) (taggedCipher : Bytes) :
    (cipher.decrypt calls taggedCipher).1 =
      if !calls.setIv then .answer 0 [] else openTagged calls taggedCipher := by
  rcases cipher with ⟨_ | ctx⟩
  · simp only [Cipher.reaches, Option.ite_none_right_eq_some, Bool.and_eq_true] at h
    simp only [Cipher.decrypt, initDecryptGcm, Option.isNone_none, if_true, h.1.1, h.1.2,
      Bool.not_true, Bool.false_eq_true, if_false]
    split_ifs <;> rfl
  · simp only [Cipher.decrypt, Option.isNone_some, Bool.false_eq_true, if_false]
    split_ifs <;> rfl

theorem decrypt_of_not_reaches {cipher : Cipher} {calls : Calls}
    (h : cipher.reaches calls = none) (taggedCipher : Bytes) :
    (cipher.decrypt calls taggedCipher).1 = .answer (-1) [] := by
  rcases cipher with ⟨_ | ctx⟩
  · simp only [Cipher.reaches, ite_eq_right_iff, reduceCtorEq, imp_false, Bool.and_eq_true] at h
    rw [Cipher.decrypt]
    cases hnew : calls.new with
    | false => simp [initDecryptGcm, hnew]
    | true =>
        have hinits : calls.inits = false := by simpa [hnew] using h
        simp [initDecryptGcm, hnew, hinits]
  · cases h

/-- **The answer.**  It is zero exactly if the IV is refused, or every later call succeeds. -/
theorem decrypt_eq_zero_iff (cipher : Cipher) (calls : Calls) (taggedCipher : Bytes) :
    (∃ plaintext, (cipher.decrypt calls taggedCipher).1 = .answer 0 plaintext) ↔
      (cipher.reaches calls).isSome ∧
        (calls.setIv = true → tagSize ≤ taggedCipher.length ∧ calls.opens = true) := by
  cases hreaches : cipher.reaches calls with
  | none => simp [decrypt_of_not_reaches hreaches]
  | some ready =>
      rw [decrypt_of_reaches hreaches]
      cases hiv : calls.setIv with
      | false => simp
      | true => simpa using openTagged_eq_zero calls taggedCipher hiv

/-- Every caller takes any other answer for a failure. -/
theorem exists_of_dispatches {caller : Caller} {result : Result}
    (h : (caller.dispatches result).isSome) : ∃ plaintext, result = .answer 0 plaintext := by
  cases result with
  | outOfRange => cases h
  | answer code plaintext =>
      by_cases hcode : code = 0
      · exact ⟨plaintext, by rw [hcode]⟩
      · simp [Caller.dispatches, hcode] at h

/-! ## Runs -/

/-- One message fails closed exactly if it is refused in time. -/
theorem closed_iff_refuses (r : Receiver) (m : Message) :
    (Entry.Closed
      { verified := r.cipher.verifies m
        result := (r.cipher.decrypt m.calls m.taggedCipher).1
        dispatched := m.caller.dispatches (r.cipher.decrypt m.calls m.taggedCipher).1 }) ↔
      Refuses r m := by
  have hzero := decrypt_eq_zero_iff r.cipher m.calls m.taggedCipher
  have hclosed : (Entry.Closed
      { verified := r.cipher.verifies m
        result := (r.cipher.decrypt m.calls m.taggedCipher).1
        dispatched := m.caller.dispatches (r.cipher.decrypt m.calls m.taggedCipher).1 }) ↔
      ((∃ plaintext, (r.cipher.decrypt m.calls m.taggedCipher).1 = .answer 0 plaintext) →
        r.cipher.verifies m = true) := by
    constructor
    · rintro h ⟨plaintext, hplaintext⟩
      exact h.1 plaintext hplaintext
    · intro h
      exact ⟨fun plaintext hplaintext => h ⟨plaintext, hplaintext⟩,
        fun hsome => h (exists_of_dispatches hsome)⟩
  rw [hclosed, hzero, Refuses, Cipher.verifies]
  cases hreaches : r.cipher.reaches m.calls with
  | none => simp
  | some ready =>
      cases hiv : m.calls.setIv with
      | false => simp [Calls.opens, hiv]
      | true =>
          cases ready with
          | true => simp
          | false =>
              simp only [Option.isSome_some, true_and, forall_const, Option.some.injEq,
                forall_eq']
              cases hopens : m.calls.opens <;> simp

theorem failsClosed_step {r r' : Receiver} {m : Message} (hs : step r m = some r') :
    FailsClosed r' ↔ FailsClosed r ∧ Refuses r m := by
  simp only [step, Option.some.injEq] at hs
  subst hs
  simp only [FailsClosed, List.forall_mem_append, List.forall_mem_singleton]
  rw [closed_iff_refuses]

/-- **Fail closed.**  After any messages and any failures, each message that was taken for
opened was verified, exactly if each message was refused in time. -/
theorem failsClosed_iff {ms : List Message} {r : Receiver} (hrun : run step .new ms = some r) :
    FailsClosed r ↔ RunMeets step Refuses .new ms := by
  rw [run_iff_of_step (fun _ _ _ hs => failsClosed_step hs) hrun]
  exact and_iff_right (by simp [FailsClosed, Receiver.new])

/-- OpenSSL does what it is asked to. -/
def accepting : Calls :=
  { new := true, initCipher := true, setIvLen := true, initKey := true, setIv := true,
    update := some [1, 2], setTag := true, final := some [] }

/-- A message of two bytes that opens. -/
theorem failsClosed_accepting :
    FailsClosed ⟨⟨some true⟩, [⟨true, .answer 0 [1, 2], some [1, 2]⟩]⟩ ↔
      RunMeets step Refuses .new [⟨.inputData, List.replicate 18 0, accepting⟩] :=
  failsClosed_iff (show run step .new [⟨.inputData, List.replicate 18 0, accepting⟩] =
    some ⟨⟨some true⟩, [⟨true, .answer 0 [1, 2], some [1, 2]⟩]⟩ from rfl)

/-- The IV is refused: the handler passes an empty plaintext on. -/
theorem refused_iv_not_failsClosed :
    ¬∀ ms r, run step .new ms = some r → FailsClosed r := by
  intro h
  have hclosed := h [⟨.inputData, List.replicate 18 0, { accepting with setIv := false }⟩]
    ⟨⟨some true⟩, [⟨false, .answer 0 [], some []⟩]⟩ rfl
  have hverified := (hclosed ⟨false, .answer 0 [], some []⟩ (by simp)).2 rfl
  cases hverified

end LuminalShine.Crypto.GcmDecrypt
