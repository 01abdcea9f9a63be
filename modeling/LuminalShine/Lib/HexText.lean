import Mathlib.Algebra.Group.Nat.Defs
import Mathlib.Data.List.Induction
import Mathlib.Data.Nat.Notation

/-!
# Hexadecimal text

Numbers as digits of a fixed width, most significant first, upper case when written and of
either case when read; bytes as two digits each.

## Main definitions

* `digits`, `value` — a number's digits, and the number of some digits.
* `byteDigits`, `bytesOf` — bytes as pairs of digits.
* `ExactCodec` — a codec whose decoder accepts nothing but encodings, up to a normal form.

## Main results

* `value_digits`, `digits_of_value` — the two are inverse, up to the case of the digits.
* `bytesOf_byteDigits`, `byteDigits_of_bytesOf` — and so are these.
-/

namespace LuminalShine.Lib.Hex

/-! ## Codecs -/

/-- What is encoded reads back, and what is read is the encoding of the value, once the text is
in normal form. -/
structure ExactCodec {α β : Type*} (encode : α → Option β) (decode : β → Option α)
    (normal : β → β) : Prop where
  reads : ∀ a b, encode a = some b → decode b = some a
  image : ∀ b a, decode b = some a → encode a = some (normal b)

/-- No two values share an encoding. -/
theorem ExactCodec.injective {α β : Type*} {encode : α → Option β} {decode : β → Option α}
    {normal : β → β} (h : ExactCodec encode decode normal) {a a' : α} {b : β}
    (ha : encode a = some b) (ha' : encode a' = some b) : a = a' := by
  have hread := h.reads a b ha
  rw [h.reads a' b ha', Option.some.injEq] at hread
  exact hread.symm

/-! ## Digits -/

/-- The value of one digit. -/
def hexValue (c : UInt8) : Option ℕ :=
  if 48 ≤ c ∧ c ≤ 57 then some (c.toNat - 48)
  else if 65 ≤ c ∧ c ≤ 70 then some (c.toNat - 65 + 10)
  else if 97 ≤ c ∧ c ≤ 102 then some (c.toNat - 97 + 10)
  else none

/-- The digit of a number's lowest four bits. -/
def hexDigit (n : ℕ) : UInt8 :=
  UInt8.ofNat (if n % 16 < 10 then 48 + n % 16 else 55 + n % 16)

/-- A letter's upper case. -/
def upper (c : UInt8) : UInt8 := if 97 ≤ c ∧ c ≤ 122 then c - 32 else c

/-- The lowest `w` digits of a number. -/
def digits : ℕ → ℕ → List UInt8
  | 0, _ => []
  | w + 1, n => digits w (n / 16) ++ [hexDigit n]

/-- The number that digits write. -/
def value (s : List UInt8) : Option ℕ :=
  s.foldlM (fun n c => (hexValue c).map (n * 16 + ·)) 0

/-- Two digits for each byte. -/
def byteDigits (bytes : List UInt8) : List UInt8 :=
  bytes.flatMap fun b => [hexDigit (b.toNat / 16), hexDigit b.toNat]

/-- The byte of two digits. -/
def byteOf (high low : ℕ) : UInt8 := UInt8.ofNat (high * 16 + low)

/-- The bytes of pairs of digits, none of them zero. -/
def bytesOf : List UInt8 → Option (List UInt8)
  | hi :: lo :: rest => do
      let high ← hexValue hi
      let low ← hexValue lo
      if byteOf high low = 0 then none
      else
        let bytes ← bytesOf rest
        pure (byteOf high low :: bytes)
  | _ => some []

theorem hexDigit_toNat (n : ℕ) :
    (hexDigit n).toNat = if n % 16 < 10 then 48 + n % 16 else 55 + n % 16 := by
  simp only [hexDigit, UInt8.toNat_ofNat']
  split_ifs <;> omega

theorem hexDigit_mod (n : ℕ) : hexDigit (n % 16) = hexDigit n := by
  simp [hexDigit]

theorem hexValue_hexDigit (n : ℕ) : hexValue (hexDigit n) = some (n % 16) := by
  have hn := hexDigit_toNat n
  simp only [hexValue, UInt8.le_iff_toNat_le, UInt8.reduceToNat]
  by_cases hdecimal : n % 16 < 10
  · rw [if_pos hdecimal] at hn
    rw [if_pos (by omega), hn, Option.some.injEq]
    omega
  · rw [if_neg hdecimal] at hn
    rw [if_neg (by omega), if_pos (by omega), hn, Option.some.injEq]
    omega

theorem hexValue_eq_some {c : UInt8} {d : ℕ} (h : hexValue c = some d) :
    d < 16 ∧ hexDigit d = upper c := by
  simp only [hexValue, UInt8.le_iff_toNat_le, UInt8.reduceToNat] at h
  have hc := c.toNat_lt
  have hd := hexDigit_toNat d
  have hu : (upper c).toNat = if 97 ≤ c.toNat ∧ c.toNat ≤ 122 then c.toNat - 32 else c.toNat := by
    simp only [upper, UInt8.le_iff_toNat_le, UInt8.reduceToNat]
    split_ifs with hlower
    · rw [UInt8.toNat_sub_of_le _ _ (by rw [UInt8.le_iff_toNat_le]; simpa using by omega)]
      rfl
    · rfl
  have hlt : d < 16 := by split_ifs at h <;> simp at h <;> omega
  refine ⟨hlt, UInt8.toNat_inj.mp ?_⟩
  rw [hd, hu]
  split_ifs at h <;> simp at h <;> split_ifs <;> omega

@[simp] theorem length_digits (w n : ℕ) : (digits w n).length = w := by
  induction w generalizing n with
  | zero => rfl
  | succ w ih => simp [digits, ih]

@[simp] theorem value_nil : value [] = some 0 := rfl

theorem value_concat (s : List UInt8) (c : UInt8) :
    value (s ++ [c]) = (value s).bind fun n => (hexValue c).map (n * 16 + ·) := by
  simp [value, List.foldlM_append]

/-- The first digit counts for as many places as follow it. -/
theorem value_cons (c : UInt8) (s : List UInt8) :
    value (c :: s) = (hexValue c).bind fun d => (value s).map (d * 16 ^ s.length + ·) := by
  induction s using List.reverseRecOn with
  | nil =>
      cases hc : hexValue c with
      | none => simp [value, hc]
      | some d => simp [value, hc]
  | append_singleton s x ih =>
      rw [← List.cons_append, value_concat, ih, value_concat, List.length_append,
        List.length_singleton]
      cases hexValue c with
      | none => rfl
      | some d =>
          cases value s with
          | none => rfl
          | some n =>
              cases hexValue x with
              | none => rfl
              | some e =>
                  have hpow : d * 16 ^ s.length * 16 = d * 16 ^ (s.length + 1) := by
                    rw [Nat.pow_succ, Nat.mul_assoc]
                  simp only [Option.bind_some, Option.map_some, Option.some.injEq]
                  omega

/-- **Written, then read.** -/
theorem value_digits {w n : ℕ} (h : n < 16 ^ w) : value (digits w n) = some n := by
  induction w generalizing n with
  | zero =>
      have : n = 0 := by simpa using h
      simp [digits, this]
  | succ w ih =>
      have hlt : n / 16 < 16 ^ w := by
        rw [Nat.pow_succ] at h
        omega
      rw [digits, value_concat, ih hlt, hexValue_hexDigit]
      simp
      omega

/-- **Read, then written.** -/
theorem digits_of_value {s : List UInt8} {n : ℕ} (h : value s = some n) :
    n < 16 ^ s.length ∧ digits s.length n = s.map upper := by
  induction s using List.reverseRecOn generalizing n with
  | nil =>
      have : 0 = n := by simpa using h
      simp [digits, ← this]
  | append_singleton s c ih =>
      rw [value_concat, Option.bind_eq_some_iff] at h
      rcases h with ⟨m, hm, hc⟩
      rw [Option.map_eq_some_iff] at hc
      rcases hc with ⟨d, hd, rfl⟩
      rcases ih hm with ⟨hlt, hdigits⟩
      rcases hexValue_eq_some hd with ⟨hd16, hdigit⟩
      have hdiv : (m * 16 + d) / 16 = m := by omega
      have hmod : hexDigit (m * 16 + d) = upper c := by
        rw [← hdigit, ← hexDigit_mod, show (m * 16 + d) % 16 = d by omega]
      refine ⟨?_, ?_⟩
      · rw [List.length_append, List.length_singleton, Nat.pow_succ]
        omega
      · rw [List.length_append, List.length_singleton, digits, hdiv, hdigits, hmod,
          List.map_append, List.map_singleton]

/-! ## Bytes -/

theorem byteDigits_cons (b : UInt8) (bytes : List UInt8) :
    byteDigits (b :: bytes) = hexDigit (b.toNat / 16) :: hexDigit b.toNat :: byteDigits bytes := rfl

@[simp] theorem length_byteDigits (bytes : List UInt8) :
    (byteDigits bytes).length = 2 * bytes.length := by
  induction bytes with
  | nil => rfl
  | cons b bytes ih =>
      simp only [byteDigits_cons, List.length_cons, ih]
      omega

theorem byteOf_toNat {high low : ℕ} (hhigh : high < 16) (hlow : low < 16) :
    (byteOf high low).toNat = high * 16 + low := by
  rw [byteOf, UInt8.toNat_ofNat']
  omega

theorem byteOf_halves (b : UInt8) : byteOf (b.toNat / 16 % 16) (b.toNat % 16) = b := by
  have hlt := b.toNat_lt
  refine UInt8.toNat_inj.mp ?_
  rw [byteOf_toNat (by omega) (by omega)]
  omega

theorem bytesOf_byteDigits {bytes : List UInt8} (h : 0 ∉ bytes) :
    bytesOf (byteDigits bytes) = some bytes := by
  induction bytes with
  | nil => rfl
  | cons b bytes ih =>
      rw [List.mem_cons, not_or] at h
      simp [byteDigits_cons, bytesOf, hexValue_hexDigit, byteOf_halves, Ne.symm h.1, ih h.2]

theorem byteDigits_of_bytesOf {s bytes : List UInt8} (heven : 2 ∣ s.length)
    (h : bytesOf s = some bytes) :
    byteDigits bytes = s.map upper ∧ 0 ∉ bytes ∧ s.length = 2 * bytes.length := by
  induction s using bytesOf.induct generalizing bytes with
  | case1 hi lo rest ih =>
      simp only [bytesOf, Option.bind_eq_bind, Option.bind_eq_some_iff] at h
      rcases h with ⟨high, hhigh, low, hlow, h⟩
      rcases hexValue_eq_some hhigh with ⟨hhigh16, hhi⟩
      rcases hexValue_eq_some hlow with ⟨hlow16, hlo⟩
      split_ifs at h with hzero
      simp only [Option.bind_eq_some_iff, Option.pure_def, Option.some.injEq] at h
      rcases h with ⟨tail, htail, rfl⟩
      simp only [List.length_cons] at heven
      rcases ih (by omega) htail with ⟨hdigits, hnonzero, hlength⟩
      refine ⟨?_, by simp [Ne.symm hzero, hnonzero], by simp only [List.length_cons]; omega⟩
      rw [byteDigits_cons, byteOf_toNat hhigh16 hlow16, hdigits, List.map_cons, List.map_cons,
        ← hhi, ← hlo,
        show (high * 16 + low) / 16 = high by omega, ← hexDigit_mod (high * 16 + low),
        show (high * 16 + low) % 16 = low by omega]
  | case2 s hshort =>
      rcases s with _ | ⟨a, _ | ⟨b, s⟩⟩
      · simp only [bytesOf, Option.some.injEq] at h
        simp [← h, byteDigits]
      · simp at heven
      · exact absurd rfl (hshort a b s)

end LuminalShine.Lib.Hex
