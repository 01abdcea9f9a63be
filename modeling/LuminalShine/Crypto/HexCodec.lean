import LuminalShine.Lib.HexText
import LuminalShine.Lib.Scan
import Mathlib

/-!
# The hexadecimal codec

`hex_vec`, `from_hex` and `from_hex_vec` of `src/utility.h`.  Digits are read in pairs from the
end of the text, so the lowest byte comes first.

`from_hex` fills what the digits do not reach with zeros, and the length of that padding is an
unsigned difference.  With more pairs of digits than the object has bytes it wraps around.  A
digit without a partner is never read.

## Main definitions

* `hexVec`, `fromHex`, `fromHexVec` — the source's functions; a fault is an access outside of
  the text or of the buffer.
* `ReadsHex` — no access is outside, and as many digits as fit give their number.

## Main results

* `fromHexVec_hexVec` — bytes that are written read back.
* `codec_iff` — the texts that `from_hex` reads as it should.
-/

namespace LuminalShine.Crypto.HexCodec

open Lib.Scan Lib.Hex

abbrev Bytes := List UInt8

/-! ## Writing -/

/-- `hex_vec`; without `rev`, the last byte comes first. -/
def hexVec (v : Bytes) (rev : Bool) : Bytes := byteDigits (if rev then v else v.reverse)

/-! ## Reading -/

/-- `is_convertable` -/
def isConvertable (ch : UInt8) : Bool :=
  (48 ≤ ch && ch ≤ 57) || (97 ≤ ch ||| 32 && ch ||| 32 ≤ 122)

/-- `convert` -/
def convert (ch : UInt8) : UInt8 := if 48 ≤ ch ∧ ch ≤ 57 then ch - 48 else (ch ||| 32) - 97 + 10

/-- The next digit; `data` is what is left of the text, from its end. -/
def readDigit : Bytes → Except Fault (UInt8 × Bytes)
  | [] => .error .outOfBounds
  | ch :: data => if isConvertable ch then .ok (convert ch, data) else readDigit data

def readByte (data : Bytes) : Except Fault (UInt8 × Bytes) := do
  let (right, data) ← readDigit data
  let (left, data) ← readDigit data
  return (left <<< 4 ||| right, data)

/-- `buf[i] = el` -/
def write (buf : Bytes) (i : ℕ) (el : UInt8) : Except Fault Bytes :=
  if i < buf.length then .ok (buf.set i el) else .error .outOfBounds

/-- The loop over `count` bytes of the buffer, from `i` on. -/
def readBytes : ℕ → ℕ → Bytes → Bytes → Except Fault Bytes
  | 0, _, buf, _ => .ok buf
  | count + 1, i, buf, data => do
      let (el, data) ← readByte data
      let buf ← write buf i el
      readBytes count (i + 1) buf data

/-- `std::fill_n` -/
def fillN (buf : Bytes) (start count : ℕ) (el : UInt8) : Except Fault Bytes :=
  if count = 0 ∨ start + count ≤ buf.length then
    .ok (buf.take start ++ List.replicate count el ++ buf.drop (start + count))
  else .error .outOfBounds

/-- `buf_size` -/
def bufSize (hex : Bytes) : ℕ := hex.countP isConvertable / 2

/-- `sizeof(T) - buf_size` -/
def padding (size count : ℕ) : UInt64 := UInt64.ofNat size - UInt64.ofNat count

/-- `from_hex`: the bytes of the object; `buf` is what the buffer holds before, as many bytes as
the object has. -/
def fromHex (buf hex : Bytes) (rev : Bool) : Except Fault Bytes := do
  let buf ← fillN buf (bufSize hex) (padding buf.length (bufSize hex)).toNat 0
  let buf ← readBytes (bufSize hex) 0 buf hex.reverse
  .ok (if rev then buf.reverse else buf)

/-- `from_hex_vec` -/
def fromHexVec (hex : Bytes) (rev : Bool) : Except Fault Bytes := do
  let buf ← readBytes (bufSize hex) 0 (List.replicate (bufSize hex) 0) hex.reverse
  .ok (if rev then buf.reverse else buf)

/-! ## Digits in pairs -/

/-- The bytes of the pairs of digits, from the end of the text. -/
def bytesBack : ℕ → Bytes → Bytes
  | count + 1, right :: left :: data =>
      (convert left <<< 4 ||| convert right) :: bytesBack count data
  | _, _ => []

section

variable {c : UInt8} {d count i : ℕ} {buf data hex : Bytes}

/-- A hexadecimal digit is convertible, and converted to its value. -/
def Digit (c : UInt8) : Prop := isConvertable c = true ∧ hexValue c = some (convert c).toNat

instance decidableDigit : DecidablePred Digit := fun _ => inferInstanceAs (Decidable (_ ∧ _))

theorem digit_of_hexValue (h : (hexValue c).isSome) : Digit c := by
  have hdecimal : ∀ n < 10, Digit (UInt8.ofNat (48 + n)) := by decide
  have hupper : ∀ n < 6, Digit (UInt8.ofNat (65 + n)) := by decide
  have hlower : ∀ n < 6, Digit (UInt8.ofNat (97 + n)) := by decide
  have hrange : 48 ≤ c.toNat ∧ c.toNat ≤ 57 ∨ 65 ≤ c.toNat ∧ c.toNat ≤ 70 ∨
      97 ≤ c.toNat ∧ c.toNat ≤ 102 := by
    simp only [hexValue, UInt8.le_iff_toNat_le, UInt8.reduceToNat] at h
    split_ifs at h <;> simp_all
  rcases hrange with ⟨hlow, hhigh⟩ | ⟨hlow, hhigh⟩ | ⟨hlow, hhigh⟩
  · have hdigit := hdecimal (c.toNat - 48) (by omega)
    rwa [Nat.add_sub_cancel' hlow, UInt8.ofNat_toNat] at hdigit
  · have hdigit := hupper (c.toNat - 65) (by omega)
    rwa [Nat.add_sub_cancel' hlow, UInt8.ofNat_toNat] at hdigit
  · have hdigit := hlower (c.toNat - 97) (by omega)
    rwa [Nat.add_sub_cancel' hlow, UInt8.ofNat_toNat] at hdigit

theorem toNat_pair {left right : UInt8} (hleft : left.toNat < 16) (hright : right.toNat < 16) :
    (left <<< 4 ||| right).toNat = left.toNat * 16 + right.toNat := by
  have hall : ∀ l < 16, ∀ r < 16, (UInt8.ofNat l <<< 4 ||| UInt8.ofNat r).toNat = l * 16 + r := by
    decide
  have hpair := hall left.toNat hleft right.toNat hright
  rwa [UInt8.ofNat_toNat, UInt8.ofNat_toNat] at hpair

theorem Digit.convert_lt (h : Digit c) : (convert c).toNat < 16 := (hexValue_eq_some h.2).1

theorem readByte_cons {right left : UInt8} (hright : Digit right) (hleft : Digit left)
    (data : Bytes) :
    readByte (right :: left :: data) = .ok (convert left <<< 4 ||| convert right, data) := by
  simp only [readByte, readDigit, hright.1, hleft.1, if_true, ok_bind]
  rfl

/-- As long as there are digits and room, every pair is read into its place. -/
theorem readBytes_eq (hdata : ∀ c ∈ data, Digit c) (hpairs : 2 * count ≤ data.length)
    (hroom : i + count ≤ buf.length) :
    readBytes count i buf data =
      .ok (buf.take i ++ bytesBack count data ++ buf.drop (i + count)) := by
  induction count generalizing i buf data with
  | zero => simp [readBytes, bytesBack]
  | succ count ih =>
      rcases data with _ | ⟨right, _ | ⟨left, data⟩⟩
      · rw [List.length_nil] at hpairs
        omega
      · rw [List.length_singleton] at hpairs
        omega
      · simp only [List.forall_mem_cons, List.length_cons] at hdata hpairs
        have hwrite : ∀ el, write buf i el = .ok (buf.set i el) := fun el => if_pos (by omega)
        rw [readBytes, readByte_cons hdata.1 hdata.2.1, ok_bind]
        simp only [hwrite, ok_bind]
        rw [ih hdata.2.2 (by omega) (by rw [List.length_set]; omega), bytesBack,
          List.drop_set_of_lt (by omega)]
        have htake : (buf.set i (convert left <<< 4 ||| convert right)).take (i + 1) =
            buf.take i ++ [convert left <<< 4 ||| convert right] := by
          have hlength : (buf.take i).length = i := List.length_take_of_le (by omega)
          rw [List.take_set, List.take_succ_eq_append_getElem (by omega),
            List.set_append_right _ _ (Nat.le_of_eq hlength), hlength, Nat.sub_self]
          rfl
        rw [htake]
        simp [Nat.add_assoc, Nat.add_comm 1 count]

theorem length_bytesBack (hpairs : 2 * count ≤ data.length) :
    (bytesBack count data).length = count := by
  induction count generalizing data with
  | zero => rfl
  | succ count ih =>
      rcases data with _ | ⟨right, _ | ⟨left, data⟩⟩
      · rw [List.length_nil] at hpairs
        omega
      · rw [List.length_singleton] at hpairs
        omega
      · simp only [List.length_cons] at hpairs
        rw [bytesBack, List.length_cons, ih (by omega)]

/-! ## Numbers -/

/-- The number of some bytes, the lowest first. -/
def number : Bytes → ℕ
  | [] => 0
  | b :: bytes => b.toNat + 256 * number bytes

theorem number_append_replicate (bytes : Bytes) (n : ℕ) :
    number (bytes ++ List.replicate n 0) = number bytes := by
  induction bytes with
  | nil =>
      induction n with
      | zero => rfl
      | succ n ih =>
          have hzeros : number (List.replicate n 0) = 0 := ih
          simp [List.replicate_succ, number, hzeros]
  | cons b bytes ih => rw [List.cons_append, number, number, ih]

/-- The pairs give the number of the digits that are read. -/
theorem value_take (hdata : ∀ c ∈ data, Digit c) (hpairs : 2 * count ≤ data.length) :
    value (data.take (2 * count)).reverse = some (number (bytesBack count data)) := by
  induction count generalizing data with
  | zero => simp [bytesBack, number]
  | succ count ih =>
      rcases data with _ | ⟨right, _ | ⟨left, data⟩⟩
      · rw [List.length_nil] at hpairs
        omega
      · rw [List.length_singleton] at hpairs
        omega
      · simp only [List.forall_mem_cons, List.length_cons] at hdata hpairs
        rw [Nat.mul_succ, List.take_succ_cons, List.take_succ_cons, List.reverse_cons,
          List.reverse_cons, value_concat, value_concat, ih hdata.2.2 (by omega), bytesBack, number,
          toNat_pair hdata.2.1.convert_lt hdata.1.convert_lt]
        simp only [hdata.1.2, hdata.2.1.2, Option.bind_some, Option.map_some, Option.some.injEq]
        omega

end

/-! ## Written, then read -/

theorem digits_byteDigits (v : Bytes) : ∀ c ∈ byteDigits v, Digit c := by
  intro c hc
  rw [byteDigits, List.mem_flatMap] at hc
  rcases hc with ⟨b, -, hmem⟩
  simp only [List.mem_cons, List.not_mem_nil, or_false] at hmem
  rcases hmem with rfl | rfl
  · exact digit_of_hexValue (by rw [hexValue_hexDigit]; rfl)
  · exact digit_of_hexValue (by rw [hexValue_hexDigit]; rfl)

/-- What `count_if` finds in a text of digits. -/
theorem bufSize_of_digits {hex : Bytes} (h : ∀ c ∈ hex, Digit c) :
    bufSize hex = hex.length / 2 := by
  have hall : ∀ c ∈ hex, isConvertable c = true := fun c hc => (h c hc).1
  rw [bufSize, List.countP_eq_length.mpr hall]

theorem byteDigits_append (u v : Bytes) : byteDigits (u ++ v) = byteDigits u ++ byteDigits v := by
  rw [byteDigits, byteDigits, byteDigits, List.flatMap_append]

theorem bytesBack_reverse (v : Bytes) :
    bytesBack v.length (byteDigits v.reverse).reverse = v := by
  induction v with
  | nil => rfl
  | cons b v ih =>
      have hhigh : Digit (hexDigit (b.toNat / 16)) :=
        digit_of_hexValue (by rw [hexValue_hexDigit]; rfl)
      have hlow : Digit (hexDigit b.toNat) := digit_of_hexValue (by rw [hexValue_hexDigit]; rfl)
      have hbyte : convert (hexDigit (b.toNat / 16)) <<< 4 ||| convert (hexDigit b.toNat) = b := by
        have hhighValue := hhigh.2
        have hlowValue := hlow.2
        rw [hexValue_hexDigit, Option.some.injEq] at hhighValue hlowValue
        have hlt := b.toNat_lt
        refine UInt8.toNat_inj.mp ?_
        rw [toNat_pair hhigh.convert_lt hlow.convert_lt]
        omega
      have hdigits : (byteDigits (b :: v).reverse).reverse =
          hexDigit b.toNat :: hexDigit (b.toNat / 16) :: (byteDigits v.reverse).reverse := by
        rw [List.reverse_cons, byteDigits_append, List.reverse_append]
        rfl
      rw [hdigits, List.length_cons, bytesBack, hbyte, ih]

theorem length_hexVec (v : Bytes) (rev : Bool) : (hexVec v rev).length = 2 * v.length := by
  cases rev <;> simp [hexVec]

/-- **What is written reads back.** -/
theorem fromHexVec_hexVec (v : Bytes) (rev : Bool) : fromHexVec (hexVec v rev) rev = .ok v := by
  have hdigits : ∀ c ∈ hexVec v rev, Digit c := digits_byteDigits _
  have hsize : bufSize (hexVec v rev) = v.length := by
    rw [bufSize_of_digits hdigits, length_hexVec]
    omega
  have hread : readBytes v.length 0 (List.replicate v.length 0) (hexVec v rev).reverse =
      .ok (bytesBack v.length (hexVec v rev).reverse) := by
    rw [readBytes_eq (fun c hc => hdigits c (List.mem_reverse.mp hc))
      (by rw [List.length_reverse, length_hexVec]) (by simp)]
    simp
  rw [fromHexVec, hsize, hread, ok_bind]
  cases rev with
  | true =>
      have hback := bytesBack_reverse v.reverse
      rw [List.length_reverse, List.reverse_reverse] at hback
      simp [hexVec, hback]
  | false =>
      have hback := bytesBack_reverse v
      simp [hexVec, hback]

/-! ## Texts of digits -/

/-- A text of hexadecimal digits. -/
abbrev HexText := {hex : Bytes // hex.length < 2 ^ 64 ∧ ∀ c ∈ hex, (hexValue c).isSome}

/-- What a buffer holds. -/
abbrev Buffer := {buf : Bytes // buf.length < 2 ^ 64}

/-- No access is outside of the text or of the buffer, and where all digits fit the object is
their number: the lowest byte first, with `rev` the highest. -/
def ReadsHex (buf : Buffer) (hex : HexText) (rev : Bool) : Prop :=
  ∃ bytes, fromHex buf.val hex.val rev = .ok bytes ∧ bytes.length = buf.val.length ∧
    (hex.val.length ≤ 2 * buf.val.length →
      value hex.val = some (number (if rev then bytes.reverse else bytes)))

section

variable (buf : Buffer) (hex : HexText) (rev : Bool)

theorem HexText.digits : ∀ c ∈ hex.val, Digit c := fun c hc =>
  digit_of_hexValue (hex.property.2 c hc)

theorem padding_of_le {size count : ℕ} (hsize : size < 2 ^ 64) (h : count ≤ size) :
    (padding size count).toNat = size - count := by
  rw [padding, UInt64.toNat_sub, UInt64.toNat_ofNat', UInt64.toNat_ofNat']
  omega

theorem padding_of_lt {size count : ℕ} (hcount : count < 2 ^ 64) (h : size < count) :
    (padding size count).toNat ≠ 0 := by
  rw [padding, UInt64.toNat_sub, UInt64.toNat_ofNat', UInt64.toNat_ofNat']
  omega

/-- Pairs of digits that fit are read over zeros. -/
theorem fromHex_of_le (h : hex.val.length / 2 ≤ buf.val.length) :
    fromHex buf.val hex.val rev =
      let bytes := bytesBack (hex.val.length / 2) hex.val.reverse ++
        List.replicate (buf.val.length - hex.val.length / 2) 0
      .ok (if rev then bytes.reverse else bytes) := by
  have hdigits : ∀ c ∈ hex.val.reverse, Digit c := fun c hc =>
    HexText.digits hex c (List.mem_reverse.mp hc)
  have htake : (buf.val.take (hex.val.length / 2)).length = hex.val.length / 2 :=
    List.length_take_of_le h
  have hfill : fillN buf.val (hex.val.length / 2) (buf.val.length - hex.val.length / 2) 0 =
      .ok (buf.val.take (hex.val.length / 2) ++
        List.replicate (buf.val.length - hex.val.length / 2) 0) := by
    rw [fillN, if_pos (.inr (by omega)), Nat.add_sub_cancel' h, List.drop_length, List.append_nil]
  have hread : readBytes (hex.val.length / 2) 0 (buf.val.take (hex.val.length / 2) ++
      List.replicate (buf.val.length - hex.val.length / 2) 0) hex.val.reverse =
        .ok (bytesBack (hex.val.length / 2) hex.val.reverse ++
          List.replicate (buf.val.length - hex.val.length / 2) 0) := by
    rw [readBytes_eq hdigits (by rw [List.length_reverse]; omega)
      (by rw [List.length_append, htake]; omega), List.take_zero, List.nil_append, Nat.zero_add,
      List.drop_left' htake]
  rw [fromHex, bufSize_of_digits (HexText.digits hex), padding_of_le buf.property h, hfill,
    ok_bind, hread, ok_bind]

/-- With more pairs than bytes, the padding is written behind the buffer. -/
theorem fromHex_of_lt (h : buf.val.length < hex.val.length / 2) :
    fromHex buf.val hex.val rev = .error .outOfBounds := by
  have hlt : hex.val.length / 2 < 2 ^ 64 := by
    have hlength := hex.property.1
    omega
  have hpadding := padding_of_lt hlt h
  rw [fromHex, bufSize_of_digits (HexText.digits hex), fillN, if_neg (by omega)]
  rfl

/-- A first digit without a partner is left out. -/
theorem value_lone {c : UInt8} {tail : Bytes} (hc : Digit c) {n : ℕ}
    (h : value tail = some n) : value (c :: tail) = some n ↔ c = 48 := by
  rw [value_cons, h, hc.2, Option.bind_some, Option.map_some, Option.some.injEq]
  constructor
  · intro heq
    have hzero : (convert c).toNat * 16 ^ tail.length = 0 := by omega
    have hvalue : (convert c).toNat = 0 := by
      rcases Nat.mul_eq_zero.mp hzero with hvalue | hpow
      · exact hvalue
      · exact absurd hpow (Nat.pos_iff_ne_zero.mp (Nat.pow_pos (by decide)))
    have hdigit := hc.2
    rw [hvalue] at hdigit
    simp only [hexValue, UInt8.le_iff_toNat_le, UInt8.reduceToNat] at hdigit
    have hzeroDigit : (48 : UInt8).toNat = 48 := rfl
    refine UInt8.toNat_inj.mp ?_
    rw [hzeroDigit]
    split_ifs at hdigit <;> simp only [Option.some.injEq] at hdigit <;> omega
  · rintro rfl
    have hvalue : (convert 48).toNat = 0 := by decide
    rw [hvalue, Nat.zero_mul, Nat.zero_add]

/-- The pairs give the number of the whole text. -/
theorem value_bytesBack_iff {text : Bytes} (htext : ∀ c ∈ text, Digit c) :
    value text = some (number (bytesBack (text.length / 2) text.reverse)) ↔
      text.length % 2 = 0 ∨ text.head? = some 48 := by
  have hreverse : ∀ c ∈ text.reverse, Digit c := fun c hc => htext c (List.mem_reverse.mp hc)
  have hread : value (text.reverse.take (2 * (text.length / 2))).reverse =
      some (number (bytesBack (text.length / 2) text.reverse)) :=
    value_take hreverse (by rw [List.length_reverse]; omega)
  rcases Nat.mod_two_eq_zero_or_one text.length with heven | hodd
  · rw [List.take_of_length_le (by rw [List.length_reverse]; omega), List.reverse_reverse] at hread
    simp only [hread, heven, true_or]
  · cases text with
    | nil => cases hodd
    | cons c tail =>
        rw [List.length_cons] at hodd
        rw [List.forall_mem_cons] at htext
        have htake : ((c :: tail).reverse.take (2 * ((c :: tail).length / 2))).reverse = tail := by
          rw [List.reverse_cons, List.length_cons, List.take_left' (by
            rw [List.length_reverse]
            omega), List.reverse_reverse]
        rw [htake] at hread
        rw [value_lone htext.1 hread, List.length_cons, hodd, List.head?_cons]
        simp

/-- The texts that are read as they should be. -/
theorem readsHex_iff :
    ReadsHex buf hex rev ↔ hex.val.length ≤ 2 * buf.val.length + 1 ∧
      (hex.val.length ≤ 2 * buf.val.length →
        hex.val.length % 2 = 0 ∨ hex.val.head? = some 48) := by
  by_cases h : hex.val.length / 2 ≤ buf.val.length
  · have hnumber : ∀ bytes : Bytes, (if rev then (if rev then bytes.reverse else bytes).reverse
        else if rev then bytes.reverse else bytes) = bytes := by
      intro bytes
      cases rev <;> simp
    have hlength : (bytesBack (hex.val.length / 2) hex.val.reverse ++
        List.replicate (buf.val.length - hex.val.length / 2) 0).length = buf.val.length := by
      rw [List.length_append, List.length_replicate,
        length_bytesBack (by rw [List.length_reverse]; omega)]
      omega
    rw [← value_bytesBack_iff (HexText.digits hex)]
    constructor
    · rintro ⟨bytes, hread, -, hvalue⟩
      rw [fromHex_of_le buf hex rev h] at hread
      cases hread
      rw [hnumber, number_append_replicate] at hvalue
      exact ⟨by omega, hvalue⟩
    · rintro ⟨-, hvalue⟩
      refine ⟨_, fromHex_of_le buf hex rev h, ?_, fun hfits => ?_⟩
      · cases rev with
        | true => exact (List.length_reverse).trans hlength
        | false => exact hlength
      · rw [hnumber, number_append_replicate]
        exact hvalue hfits
  · constructor
    · rintro ⟨bytes, hread, -⟩
      rw [fromHex_of_lt buf hex rev (Nat.not_le.mp h)] at hread
      cases hread
    · rintro ⟨hfits, -⟩
      omega

/-- The whole codec: the round trip, and a text for an object of any size. -/
def Sound (v : Bytes) (rev : Bool) (buf : Buffer) (hex : HexText) : Prop :=
  fromHexVec (hexVec v rev) rev = .ok v ∧ ReadsHex buf hex rev

/-- Exactly the texts without too many digits, whose first digit is not lost or is zero. -/
theorem codec_iff (v : Bytes) :
    Sound v rev buf hex ↔ hex.val.length ≤ 2 * buf.val.length + 1 ∧
      (hex.val.length ≤ 2 * buf.val.length →
        hex.val.length % 2 = 0 ∨ hex.val.head? = some 48) := by
  rw [Sound, readsHex_iff]
  exact and_iff_right (fromHexVec_hexVec v rev)

end

def oneByte : Buffer := ⟨[0], by simp⟩

def fourDigits : HexText :=
  ⟨List.replicate 4 49, by simp, fun c hc => by rw [List.eq_of_mem_replicate hc]; rfl⟩

/-- Four digits for one byte: the padding is `2 ^ 64 - 1` bytes long.  And the digit `1` alone is
read as zero. -/
theorem codec_fails :
    (∀ v rev, ¬ Sound v rev oneByte fourDigits) ∧
      fromHex oneByte.val fourDigits.val false = .error .outOfBounds ∧
        fromHex oneByte.val [49] false = .ok [0] ∧ value [49] = some 1 := by
  have hfault : ∀ rev, fromHex oneByte.val fourDigits.val rev = .error .outOfBounds := fun rev =>
    fromHex_of_lt oneByte fourDigits rev (by decide)
  refine ⟨fun v rev h => ?_, hfault false, rfl, rfl⟩
  rcases h.2 with ⟨bytes, hread, -⟩
  rw [hfault] at hread
  cases hread

end LuminalShine.Crypto.HexCodec
