import LuminalShine.Lib.Run
import Mathlib.Data.List.DropRight
import Mathlib.Data.Nat.Notation
import Mathlib.Data.Set.Function
import Mathlib.Logic.Function.Basic
import Mathlib.Tactic.IntervalCases

/-!
# Signed files

`write_signed` and `verify` of `src/integrity.cpp`: a file, and beside it a sidecar with its HMAC.

The two are replaced one after the other, each through a temporary.  Whatever puts a body in
place and not its sidecar leaves the new body under the old signature, and a `flush` that fails
is not noticed.

A crash cuts a call short after any of its file operations.  The HMAC is a parameter that tells
the bodies of a run apart.  The reads of `verify` do not fail.

## Main definitions

* `hexEncode`, `hexDecode` — the text of a sidecar.
* `atomicWriteBytes`, `writeSigned`, `verify` — the source's functions.
* `Sound` — what the files owe after any number of calls.
* `Paired` — the calls that keep it.

## Main results

* `sound_iff` — the runs in which `verify` does not take a file of ours for tampered with.
-/

namespace LuminalShine.Integrity

open LuminalShine.Lib

abbrev Bytes := List UInt8

/-! ## Hexadecimal digits -/

/-- The digit `hex_encode` prints for half a byte. -/
def hexDigit (n : UInt8) : UInt8 := if n < 10 then 48 + n else 87 + n

/-- `hex_encode` -/
def hexEncode (bytes : Bytes) : Bytes :=
  bytes.flatMap fun b => [hexDigit (b / 16), hexDigit (b % 16)]

/-- The `nibble` of `hex_decode`. -/
def nibble (c : UInt8) : Option UInt8 :=
  if 48 ≤ c ∧ c ≤ 57 then some (c - 48)
  else if 97 ≤ c ∧ c ≤ 102 then some (c - 97 + 10)
  else if 65 ≤ c ∧ c ≤ 70 then some (c - 65 + 10)
  else none

/-- The loop of `hex_decode`. -/
def decodePairs : Bytes → Option Bytes
  | hi :: lo :: rest =>
      match nibble hi, nibble lo, decodePairs rest with
      | some hi, some lo, some bytes => some ((hi * 16 + lo) :: bytes)
      | _, _, _ => none
  | _ => some []

/-- `hex_decode` of 32 bytes. -/
def hexDecode (hex : Bytes) : Option Bytes := if hex.length ≠ 64 then none else decodePairs hex

def isBlank (c : UInt8) : Bool := c = 10 || c = 13 || c = 32 || c = 9

/-- The `pop_back` loop of `verify`. -/
def trimBlanks (text : Bytes) : Bytes := text.rdropWhile isBlank

theorem exists_of_lt_sixteen {n : UInt8} (h : n < 16) : ∃ m : ℕ, m < 16 ∧ n = UInt8.ofNat m := by
  refine ⟨n.toNat, by simpa [UInt8.lt_iff_toNat_lt] using h, ?_⟩
  simp

theorem nibble_hexDigit {n : UInt8} (h : n < 16) : nibble (hexDigit n) = some n := by
  rcases exists_of_lt_sixteen h with ⟨m, hm, rfl⟩
  interval_cases m <;> rfl

theorem not_isBlank_hexDigit {n : UInt8} (h : n < 16) : isBlank (hexDigit n) = false := by
  rcases exists_of_lt_sixteen h with ⟨m, hm, rfl⟩
  interval_cases m <;> rfl

theorem halves (b : UInt8) : b / 16 < 16 ∧ b % 16 < 16 ∧ b / 16 * 16 + b % 16 = b := by
  have hb := b.toNat_lt
  refine ⟨?_, ?_, ?_⟩
  · simp only [UInt8.lt_iff_toNat_lt, UInt8.toNat_div, UInt8.toNat_ofNat,
      Nat.reducePow, Nat.reduceMod]
    omega
  · simp only [UInt8.lt_iff_toNat_lt, UInt8.toNat_mod, UInt8.toNat_ofNat,
      Nat.reducePow, Nat.reduceMod]
    omega
  · apply UInt8.toNat_inj.mp
    simp only [UInt8.toNat_add, UInt8.toNat_mul, UInt8.toNat_div, UInt8.toNat_mod,
      UInt8.toNat_ofNat, Nat.reducePow, Nat.reduceMod]
    omega

theorem decodePairs_hexEncode (bytes : Bytes) : decodePairs (hexEncode bytes) = some bytes := by
  induction bytes with
  | nil => rfl
  | cons b bytes ih =>
      rcases halves b with ⟨hhi, hlo, hb⟩
      have hcons : hexEncode (b :: bytes) =
          hexDigit (b / 16) :: hexDigit (b % 16) :: hexEncode bytes := rfl
      simp [hcons, decodePairs, nibble_hexDigit hhi, nibble_hexDigit hlo, ih, hb]

theorem length_hexEncode (bytes : Bytes) : (hexEncode bytes).length = 2 * bytes.length := by
  induction bytes with
  | nil => rfl
  | cons b bytes ih =>
      simp only [hexEncode, List.flatMap_cons, List.length_append, List.length_cons] at ih ⊢
      simp [ih]
      omega

theorem trimBlanks_hexEncode (bytes : Bytes) : trimBlanks (hexEncode bytes) = hexEncode bytes := by
  refine List.rdropWhile_eq_self_iff.mpr ?_
  intro hne
  have hlast := List.getLast_mem hne
  simp only [hexEncode, List.mem_flatMap] at hlast
  rcases hlast with ⟨b, -, hb⟩
  rcases halves b with ⟨hhi, hlo, -⟩
  simp only [List.mem_cons, List.not_mem_nil, or_false] at hb
  rcases hb with hb | hb
  · simp [hexEncode, hb, not_isBlank_hexDigit hhi]
  · simp [hexEncode, hb, not_isBlank_hexDigit hlo]

/-! ## Files -/

/-- The path itself, and `sidecar_path`. -/
inductive File
  | body
  | sidecar
  deriving DecidableEq, Repr

/-- A file, and the `.tmp` beside it. -/
structure Slot where
  file : Option Bytes
  temp : Option Bytes
  deriving DecidableEq, Repr

abbrev Disk := File → Slot

inductive Op
  | writeTemp (f : File) (bytes : Bytes)
  | rename (f : File)
  | removeTemp (f : File)
  deriving DecidableEq, Repr

def Op.exec (d : Disk) : Op → Disk
  | .writeTemp f bytes => Function.update d f { d f with temp := some bytes }
  | .rename f =>
      match (d f).temp with
      | none => d
      | some bytes => Function.update d f ⟨some bytes, none⟩
  | .removeTemp f => Function.update d f { d f with temp := none }

def execute (ops : List Op) (d : Disk) : Disk := ops.foldl Op.exec d

/-- The operations done before a crash; `none` is a call that returns. -/
def cut (crash : Option ℕ) (ops : List Op) : List Op :=
  match crash with
  | none => ops
  | some done => ops.take done

/-! ## The functions -/

/-- The calls of one `atomic_write_bytes`, `true` where a call does not fail.  Of the bytes,
`flushed` reach the temporary; `write` notices, `flush` does not. -/
structure AtomicCalls where
  openTemp : Bool
  write : Bool
  flushed : ℕ
  rename : Bool
  remove : Bool
  deriving DecidableEq, Repr

/-- `atomic_write_bytes`: its operations, and what it returns. -/
def atomicWriteBytes (f : File) (bytes : Bytes) (calls : AtomicCalls) : List Op × Bool :=
  let written : List Op := [.writeTemp f [], .writeTemp f (bytes.take calls.flushed)]
  if !calls.openTemp then ([], false)
  else if !calls.write then (written, false)
  else if !calls.rename then (written ++ if calls.remove then [.removeTemp f] else [], false)
  else (written ++ [.rename f], true)

/-- What HMAC-SHA256 gives. -/
abbrev Mac := { bytes : Bytes // bytes.length = 32 }

variable {Key : Type} (hmac : Key → Bytes → Mac)

/-- The calls of one `write_signed`; `hmac` is `compute_hmac`. -/
structure SignedCalls where
  hmac : Bool
  body : AtomicCalls
  sidecar : AtomicCalls
  deriving DecidableEq, Repr

/-- `write_signed`; the key is what `integrity_key::get` gives. -/
def writeSigned (key : Option Key) (contents : Bytes) (calls : SignedCalls) : List Op × Bool :=
  match key with
  | none => atomicWriteBytes .body contents calls.body
  | some key =>
      if !calls.hmac then ([], false)
      else
        let body := atomicWriteBytes .body contents calls.body
        if !body.2 then (body.1, false)
        else
          let sidecar := atomicWriteBytes .sidecar (hexEncode (hmac key contents)) calls.sidecar
          (body.1 ++ sidecar.1, sidecar.2)

inductive VerifyStatus
  | ok
  | notProtected
  | mismatch
  | unreadable
  | noKey
  deriving DecidableEq, Repr

/-- `verify` -/
def verify (key : Option Key) (d : Disk) : VerifyStatus :=
  match key with
  | none => .noKey
  | some key =>
      match (d .sidecar).file with
      | none => .notProtected
      | some text =>
          match hexDecode (trimBlanks text) with
          | none => .unreadable
          | some expected =>
              match (d .body).file with
              | none => .unreadable
              | some body => if expected = hmac key body then .ok else .mismatch

/-! ## Runs -/

/-- A `write_signed` of a body out of a family, with all that a failure can leave of it.  The key
is available or not; `crash` cuts the call short. -/
structure Write (bodies : Set Bytes) where
  contents : Bytes
  mem : ∀ n, contents.take n ∈ bodies
  available : Bool
  calls : SignedCalls
  crash : Option ℕ

variable {bodies : Set Bytes} (key : Key)

/-- What the call is, and how far it comes. -/
def Write.whole (w : Write bodies) : List Op × Bool :=
  writeSigned hmac (if w.available then some key else none) w.contents w.calls

def Write.ops (w : Write bodies) : List Op := cut w.crash (w.whole hmac key).1

/-- The call does all it has to do. -/
def Write.completes (w : Write bodies) : Bool :=
  (w.whole hmac key).2 && decide (w.ops hmac key = (w.whole hmac key).1)

/-- `ours` says that the body is one that `write_signed` has put there, and `completed` has the
contents of the calls that did all they had to. -/
structure Signed where
  disk : Disk
  ours : Bool
  completed : List Bytes

/-- Before the first call there is no sidecar. -/
def Signed.init (body : Option Bytes) : Signed where
  disk f := match f with
    | .body => ⟨body, none⟩
    | .sidecar => ⟨none, none⟩
  ours := false
  completed := []

def step (s : Signed) (w : Write bodies) : Option Signed :=
  some {
    disk := execute (w.ops hmac key) s.disk
    ours := s.ours || decide (.rename .body ∈ w.ops hmac key)
    completed := if w.completes hmac key then w.contents :: s.completed else s.completed }

/-- A body of ours is not taken for tampered with, and one that passes was written by a call
that completed. -/
structure Sound (s : Signed) : Prop where
  trusted : s.ours = true → verify hmac (some key) s.disk ≠ .mismatch ∧
    verify hmac (some key) s.disk ≠ .unreadable
  genuine : verify hmac (some key) s.disk = .ok → ∃ b ∈ s.completed, (s.disk .body).file = some b

/-- A call that puts its body in place puts its sidecar there as well, and both whole; or there
was no sidecar, or the body is the one that was there. -/
def Paired (s : Signed) (w : Write bodies) : Prop :=
  .rename .body ∈ w.ops hmac key →
    if .rename .sidecar ∈ w.ops hmac key then
      w.contents.length ≤ w.calls.body.flushed ∧ 64 ≤ w.calls.sidecar.flushed
    else (s.disk .sidecar).file = none ∨
      (s.disk .body).file = some (w.contents.take w.calls.body.flushed)

/-! ## What the operations leave -/

def Op.target : Op → File
  | .writeTemp f _ | .rename f | .removeTemp f => f

theorem Op.exec_of_ne {op : Op} {g : File} (h : g ≠ op.target) (d : Disk) : op.exec d g = d g := by
  cases op with
  | writeTemp f bytes => exact Function.update_of_ne h _ _
  | rename f =>
      cases htemp : (d f).temp with
      | none => simp [exec, htemp]
      | some bytes =>
          simp only [exec, htemp]
          exact Function.update_of_ne h _ _
  | removeTemp f => exact Function.update_of_ne h _ _

theorem Op.exec_file {op : Op} {f : File} (h : op ≠ .rename f) (d : Disk) :
    (op.exec d f).file = (d f).file := by
  by_cases htarget : f = op.target
  · cases op with
    | writeTemp g bytes =>
        cases htarget
        simp [exec, target]
    | rename g =>
        cases htarget
        exact absurd rfl h
    | removeTemp g =>
        cases htarget
        simp [exec, target]
  · rw [exec_of_ne htarget]

theorem execute_append (ops ops' : List Op) (d : Disk) :
    execute (ops ++ ops') d = execute ops' (execute ops d) :=
  List.foldl_append

theorem execute_of_ne {ops : List Op} {f g : File} (hne : g ≠ f) (d : Disk)
    (h : ∀ op ∈ ops, op.target = f) : execute ops d g = d g := by
  induction ops generalizing d with
  | nil => rfl
  | cons op ops ih =>
      have hop := h op List.mem_cons_self
      have hrest := ih (op.exec d) fun op' hop' => h op' (List.mem_cons_of_mem _ hop')
      exact hrest.trans (Op.exec_of_ne (hop ▸ hne) d)

theorem execute_file {ops : List Op} {f : File} (d : Disk) (h : .rename f ∉ ops) :
    (execute ops d f).file = (d f).file := by
  induction ops generalizing d with
  | nil => rfl
  | cons op ops ih =>
      rw [List.mem_cons, not_or] at h
      exact (ih (op.exec d) h.2).trans (Op.exec_file (Ne.symm h.1) d)

theorem mem_of_mem_cut {crash : Option ℕ} {ops : List Op} {op : Op} (h : op ∈ cut crash ops) :
    op ∈ ops := by
  cases crash with
  | none => exact h
  | some done => exact List.mem_of_mem_take h

/-- A crash comes in the first part, or after it. -/
theorem cut_append (crash : Option ℕ) (ops ops' : List Op) :
    (∃ crash', cut crash (ops ++ ops') = cut crash' ops) ∨
      ∃ crash', cut crash (ops ++ ops') = ops ++ cut crash' ops' := by
  cases crash with
  | none => exact Or.inr ⟨none, rfl⟩
  | some done =>
      rcases Nat.le_total done ops.length with hle | hle
      · exact Or.inl ⟨some done, List.take_append_of_le_length hle⟩
      · refine Or.inr ⟨some (done - ops.length), ?_⟩
        simp [cut, List.take_append, List.take_of_length_le hle]

section Atomic

variable (f : File) (bytes : Bytes) (calls : AtomicCalls)

/-- What is written before the rename. -/
def written : List Op := [.writeTemp f [], .writeTemp f (bytes.take calls.flushed)]

theorem execute_written_temp (d : Disk) :
    (execute (written f bytes calls) d f).temp = some (bytes.take calls.flushed) := by
  simp [execute, written, Op.exec]

theorem atomicWriteBytes_target :
    ∀ op ∈ (atomicWriteBytes f bytes calls).1, op.target = f := by
  unfold atomicWriteBytes
  split
  · simp
  · split
    · simp [Op.target]
    · split
      · split <;> simp [Op.target]
      · simp [Op.target]

/-- A write either does not come to its rename or ends with it. -/
theorem atomicWriteBytes_rename :
    (.rename f ∉ (atomicWriteBytes f bytes calls).1 ∧
        (atomicWriteBytes f bytes calls).2 = false) ∨
      atomicWriteBytes f bytes calls = (written f bytes calls ++ [Op.rename f], true) := by
  unfold atomicWriteBytes
  split
  · exact Or.inl ⟨by simp, rfl⟩
  · split
    · exact Or.inl ⟨by simp, rfl⟩
    · split
      · refine Or.inl ⟨?_, rfl⟩
        split <;> simp
      · exact Or.inr rfl

/-- A write that comes to its rename is whole. -/
theorem rename_mem_cut {crash : Option ℕ}
    (h : .rename f ∈ cut crash (atomicWriteBytes f bytes calls).1) :
    atomicWriteBytes f bytes calls = (written f bytes calls ++ [Op.rename f], true) ∧
      cut crash (atomicWriteBytes f bytes calls).1 = written f bytes calls ++ [Op.rename f] := by
  rcases atomicWriteBytes_rename f bytes calls with ⟨hnone, -⟩ | hends
  · exact absurd (mem_of_mem_cut h) hnone
  · refine ⟨hends, ?_⟩
    rw [hends] at h ⊢
    rcases cut_append crash (written f bytes calls) [.rename f] with ⟨crash', hcut⟩ | hcut
    · rw [hcut] at h
      have hmem := mem_of_mem_cut h
      simp [written] at hmem
    · rcases hcut with ⟨crash', hcut⟩
      rw [hcut] at h ⊢
      rcases crash' with _ | _ | n
      · rfl
      · simp [cut, written] at h
      · simp [cut]

/-- The file is replaced exactly when the rename is done. -/
theorem atomicWriteBytes_file (crash : Option ℕ) (d : Disk) :
    (execute (cut crash (atomicWriteBytes f bytes calls).1) d f).file =
      if .rename f ∈ cut crash (atomicWriteBytes f bytes calls).1 then
        some (bytes.take calls.flushed)
      else (d f).file := by
  by_cases hrename : .rename f ∈ cut crash (atomicWriteBytes f bytes calls).1
  · rw [if_pos hrename, (rename_mem_cut f bytes calls hrename).2, execute_append]
    change ((Op.rename f).exec (execute (written f bytes calls) d) f).file = _
    simp [Op.exec, execute_written_temp]
  · rw [if_neg hrename, execute_file d hrename]

/-- The other file is left alone. -/
theorem atomicWriteBytes_other {g : File} (hne : g ≠ f) (crash : Option ℕ) (d : Disk) :
    execute (cut crash (atomicWriteBytes f bytes calls).1) d g = d g ∧
      .rename g ∉ cut crash (atomicWriteBytes f bytes calls).1 := by
  have htarget := atomicWriteBytes_target f bytes calls
  refine ⟨execute_of_ne hne d fun op hop => htarget op (mem_of_mem_cut hop), ?_⟩
  intro hrename
  exact hne (htarget _ (mem_of_mem_cut hrename))

end Atomic

/-! ## What a call leaves -/

variable {hmac key} (w : Write bodies)

/-- A call comes no further than its body, or it is done with that and goes on to its
sidecar. -/
theorem Write.ops_cases :
    (∃ crash, w.ops hmac key = cut crash (atomicWriteBytes .body w.contents w.calls.body).1) ∨
      w.ops hmac key = [] ∨
      ∃ crash, w.ops hmac key = (atomicWriteBytes .body w.contents w.calls.body).1 ++
          cut crash (atomicWriteBytes .sidecar (hexEncode (hmac key w.contents))
            w.calls.sidecar).1 ∧
        (atomicWriteBytes .body w.contents w.calls.body).2 = true ∧
        w.whole hmac key = ((atomicWriteBytes .body w.contents w.calls.body).1 ++
          (atomicWriteBytes .sidecar (hexEncode (hmac key w.contents)) w.calls.sidecar).1,
          (atomicWriteBytes .sidecar (hexEncode (hmac key w.contents)) w.calls.sidecar).2) := by
  cases havailable : w.available with
  | false =>
      refine Or.inl ⟨w.crash, ?_⟩
      simp [ops, whole, havailable, writeSigned]
  | true =>
      cases hmac' : w.calls.hmac with
      | false =>
          refine Or.inr (Or.inl ?_)
          cases hcrash : w.crash <;> simp [ops, whole, havailable, writeSigned, hmac', cut, hcrash]
      | true =>
          cases hbody : (atomicWriteBytes .body w.contents w.calls.body).2 with
          | false =>
              refine Or.inl ⟨w.crash, ?_⟩
              simp [ops, whole, havailable, writeSigned, hmac', hbody]
          | true =>
              have hwhole : w.whole hmac key =
                  ((atomicWriteBytes .body w.contents w.calls.body).1 ++
                    (atomicWriteBytes .sidecar (hexEncode (hmac key w.contents))
                      w.calls.sidecar).1,
                  (atomicWriteBytes .sidecar (hexEncode (hmac key w.contents))
                    w.calls.sidecar).2) := by
                simp [whole, havailable, writeSigned, hmac', hbody]
              rcases cut_append w.crash (atomicWriteBytes .body w.contents w.calls.body).1
                (atomicWriteBytes .sidecar (hexEncode (hmac key w.contents)) w.calls.sidecar).1
                with ⟨crash, hcut⟩ | ⟨crash, hcut⟩
              · exact Or.inl ⟨crash, by rw [ops, hwhole, hcut]⟩
              · exact Or.inr (Or.inr ⟨crash, by rw [ops, hwhole, hcut], rfl, hwhole⟩)

variable (hmac key) in
/-- The body and the sidecar are replaced where the call comes to their renames; the sidecar
is the last. -/
theorem Write.execute_ops (d : Disk) :
    ((execute (w.ops hmac key) d .body).file =
      if .rename .body ∈ w.ops hmac key then some (w.contents.take w.calls.body.flushed)
      else (d .body).file) ∧
    ((execute (w.ops hmac key) d .sidecar).file =
      if .rename .sidecar ∈ w.ops hmac key then
        some ((hexEncode (hmac key w.contents)).take w.calls.sidecar.flushed)
      else (d .sidecar).file) ∧
    (.rename .sidecar ∈ w.ops hmac key →
      .rename .body ∈ w.ops hmac key ∧ w.completes hmac key = true) := by
  rcases w.ops_cases with ⟨crash, hops⟩ | hops | ⟨crash, hops, hbody, hwhole⟩
  · have hother := atomicWriteBytes_other .body w.contents w.calls.body
      (by decide : File.sidecar ≠ .body) crash d
    rw [hops]
    refine ⟨atomicWriteBytes_file .body w.contents w.calls.body crash d, ?_, ?_⟩
    · rw [if_neg hother.2, hother.1]
    · intro hrename
      exact absurd hrename hother.2
  · simp [hops, execute]
  · have hends : .rename .body ∈ (atomicWriteBytes .body w.contents w.calls.body).1 := by
      rcases atomicWriteBytes_rename .body w.contents w.calls.body with ⟨-, hfails⟩ | hends
      · simp [hfails] at hbody
      · simp [hends]
    have hfirst : (execute (atomicWriteBytes .body w.contents w.calls.body).1 d .body).file =
        some (w.contents.take w.calls.body.flushed) :=
      (atomicWriteBytes_file .body w.contents w.calls.body none d).trans (if_pos hends)
    have hkept : execute (atomicWriteBytes .body w.contents w.calls.body).1 d .sidecar =
          d .sidecar ∧
        .rename .sidecar ∉ (atomicWriteBytes .body w.contents w.calls.body).1 :=
      atomicWriteBytes_other .body w.contents w.calls.body (by decide) none d
    have hsecond := atomicWriteBytes_file .sidecar (hexEncode (hmac key w.contents))
      w.calls.sidecar crash (execute (atomicWriteBytes .body w.contents w.calls.body).1 d)
    have hother := atomicWriteBytes_other .sidecar (hexEncode (hmac key w.contents))
      w.calls.sidecar (by decide : File.body ≠ .sidecar) crash
      (execute (atomicWriteBytes .body w.contents w.calls.body).1 d)
    have hmem : .rename .sidecar ∈ w.ops hmac key ↔ .rename .sidecar ∈
        cut crash (atomicWriteBytes .sidecar (hexEncode (hmac key w.contents))
          w.calls.sidecar).1 := by
      rw [hops, List.mem_append]
      simp [hkept.2]
    have hmemBody : .rename .body ∈ w.ops hmac key := by
      rw [hops]
      exact List.mem_append_left _ hends
    refine ⟨?_, ?_, ?_⟩
    · rw [if_pos hmemBody, hops, execute_append, hother.1, hfirst]
    · simp only [hmem]
      rw [hops, execute_append, hsecond, hkept.1]
    · intro hrename
      rcases rename_mem_cut _ _ _ (hmem.mp hrename) with ⟨hdone, hcut⟩
      refine ⟨hmemBody, ?_⟩
      have hall : w.ops hmac key = (w.whole hmac key).1 := by
        rw [hops, hwhole, hcut, hdone]
      simp [completes, hall, hwhole, hdone]

/-! ## The condition -/

/-- There is no sidecar, or it is that of the body, which a completed call has written. -/
def Inv (hmac : Key → Bytes → Mac) (key : Key) (bodies : Set Bytes) (s : Signed) : Prop :=
  (s.disk .sidecar).file = none ∨
    ∃ b ∈ bodies, b ∈ s.completed ∧ (s.disk .body).file = some b ∧
      (s.disk .sidecar).file = some (hexEncode (hmac key b))

theorem hexDecode_hexEncode (mac : Mac) :
    hexDecode (trimBlanks (hexEncode mac)) = some (mac : Bytes) := by
  have hlength : (hexEncode mac).length = 64 := by rw [length_hexEncode, mac.2]
  rw [trimBlanks_hexEncode, hexDecode, if_neg (by simp [hlength]), decodePairs_hexEncode]

/-- The sidecar of a text under its body. -/
theorem verify_of_sidecar {d : Disk} {b c : Bytes} (hbody : (d .body).file = some b)
    (hsidecar : (d .sidecar).file = some (hexEncode (hmac key c))) :
    verify hmac (some key) d =
      if hmac key c = hmac key b then VerifyStatus.ok else .mismatch := by
  simp [verify, hbody, hsidecar, hexDecode_hexEncode, Subtype.ext_iff]

/-- A sidecar that was cut off is not read. -/
theorem verify_of_cut_sidecar {d : Disk} {mac : Mac} {n : ℕ} (hn : n < 64)
    (hsidecar : (d .sidecar).file = some ((hexEncode mac).take n)) :
    verify hmac (some key) d = .unreadable := by
  have hlength : (trimBlanks ((hexEncode mac).take n)).length ≠ 64 := by
    have htrim := (List.rdropWhile_prefix isBlank ((hexEncode mac).take n)).length_le
    have htake := List.length_take_le n (hexEncode mac)
    simp only [trimBlanks]
    omega
  simp [verify, hsidecar, hexDecode, hlength]

theorem Inv.sound {s : Signed} (h : Inv hmac key bodies s) : Sound hmac key s := by
  rcases h with hnone | ⟨b, hb, hcompleted, hbody, hsidecar⟩
  · have hverify : verify hmac (some key) s.disk = .notProtected := by simp [verify, hnone]
    exact ⟨fun _ => by simp [hverify], fun hok => by simp [hverify] at hok⟩
  · have hverify : verify hmac (some key) s.disk = .ok := by
      rw [verify_of_sidecar hbody hsidecar, if_pos rfl]
    exact ⟨fun _ => by simp [hverify], fun _ => ⟨b, hcompleted, hbody⟩⟩

theorem Inv.step {s s' : Signed} {w : Write bodies} (h : Inv hmac key bodies s)
    (hpaired : Paired hmac key s w) (hs : Integrity.step hmac key s w = some s') :
    Inv hmac key bodies s' := by
  cases hs
  rcases w.execute_ops hmac key s.disk with ⟨hbody, hsidecar, hlast⟩
  have hkept : ∀ b ∈ s.completed,
      b ∈ if w.completes hmac key then w.contents :: s.completed else s.completed := by
    intro b hb
    split
    · exact List.mem_cons_of_mem _ hb
    · exact hb
  by_cases hrename : .rename .body ∈ w.ops hmac key
  · by_cases hrename' : .rename .sidecar ∈ w.ops hmac key
    · -- Both are in place, and whole.
      have hwhole := hpaired hrename
      rw [if_pos hrename'] at hwhole
      have hlength : (hexEncode (hmac key w.contents)).length = 64 := by
        rw [length_hexEncode, (hmac key w.contents).2]
      have hmem := w.mem w.contents.length
      rw [List.take_length] at hmem
      refine Or.inr ⟨w.contents, hmem, by simp [(hlast hrename').2], ?_, ?_⟩
      · rw [hbody, if_pos hrename, List.take_of_length_le hwhole.1]
      · rw [hsidecar, if_pos hrename', List.take_of_length_le (by omega)]
    · have hsame := hpaired hrename
      rw [if_neg hrename'] at hsame hsidecar
      rw [if_pos hrename] at hbody
      rcases h with hnone | ⟨b, hb, hcompleted, hbefore, hold⟩
      · exact Or.inl (hsidecar.trans hnone)
      · rcases hsame with hnone | hsame
        · exact Or.inl (hsidecar.trans hnone)
        · exact Or.inr ⟨b, hb, hkept b hcompleted, by rw [hbody, ← hsame, hbefore],
            hsidecar.trans hold⟩
  · have hrename' : .rename .sidecar ∉ w.ops hmac key := fun h => hrename (hlast h).1
    rw [if_neg hrename] at hbody
    rw [if_neg hrename'] at hsidecar
    rcases h with hnone | ⟨b, hb, hcompleted, hbefore, hold⟩
    · exact Or.inl (hsidecar.trans hnone)
    · exact Or.inr ⟨b, hb, hkept b hcompleted, hbody.trans hbefore, hsidecar.trans hold⟩

/-- Anything else leaves a body of ours that is taken for tampered with. -/
theorem Inv.not_sound {s s' : Signed} {w : Write bodies} (hinj : Set.InjOn (hmac key) bodies)
    (h : Inv hmac key bodies s) (hpaired : ¬ Paired hmac key s w)
    (hs : Integrity.step hmac key s w = some s') : ¬ Sound hmac key s' := by
  cases hs
  intro hsound
  rcases w.execute_ops hmac key s.disk with ⟨hbody, hsidecar, hlast⟩
  simp only [Paired, Classical.not_imp] at hpaired
  rcases hpaired with ⟨hrename, hbroken⟩
  rw [if_pos hrename] at hbody
  have htrusted := hsound.trusted (by simp [hrename])
  -- The body in place under the sidecar of another text.
  have hmismatch : ∀ c ∈ bodies, c ≠ w.contents.take w.calls.body.flushed →
      (execute (w.ops hmac key) s.disk .sidecar).file ≠ some (hexEncode (hmac key c)) := by
    intro c hc hne hold
    have hverify := verify_of_sidecar hbody hold
    rw [if_neg fun heq => hne (hinj hc (w.mem _) heq)] at hverify
    exact htrusted.1 hverify
  by_cases hrename' : .rename .sidecar ∈ w.ops hmac key
  · rw [if_pos hrename'] at hbroken hsidecar
    by_cases hflushed : 64 ≤ w.calls.sidecar.flushed
    · have hmem := w.mem w.contents.length
      rw [List.take_length] at hmem
      have hlength : (hexEncode (hmac key w.contents)).length = 64 := by
        rw [length_hexEncode, (hmac key w.contents).2]
      refine hmismatch w.contents hmem ?_ ?_
      · intro heq
        refine hbroken ⟨?_, hflushed⟩
        rw [heq]
        exact List.length_take_le _ _
      · rw [hsidecar, List.take_of_length_le (by omega)]
    · exact htrusted.2 (verify_of_cut_sidecar (by omega) hsidecar)
  · rw [if_neg hrename', not_or] at hbroken
    rw [if_neg hrename'] at hsidecar
    rcases h with hnone | ⟨b, hb, -, hbefore, hold⟩
    · exact hbroken.1 hnone
    · refine hmismatch b hb ?_ (hsidecar.trans hold)
      rintro rfl
      exact hbroken.2 hbefore

/-- **When a signed file survives its crashes.**  Over any calls of `write_signed`, cut short
anywhere and with any failures, `verify` takes no body of ours for tampered with, and passes
only what a completed call has written, exactly when each call that puts its body in place puts
the whole sidecar of the whole body there too, or finds no sidecar, or the same body. -/
theorem sound_iff (hinj : Set.InjOn (hmac key) bodies) (body : Option Bytes)
    (writes : List (Write bodies)) :
    Always (Integrity.step hmac key) (Sound hmac key) (Signed.init body) writes ↔
      RunMeets (Integrity.step hmac key) (Paired hmac key) (Signed.init body) writes := by
  have htotal : ∀ (s : Signed) (w : Write bodies), ∃ s', Integrity.step hmac key s w = some s' :=
    fun s w => ⟨_, rfl⟩
  obtain ⟨s, hrun⟩ := exists_run htotal (Signed.init body) writes
  have hinit : Inv hmac key bodies (Signed.init body) := Or.inl rfl
  exact always_iff_runMeets (fun _ h => h.sound) (fun _ _ _ h hpaired hs => h.step hpaired hs)
    (fun _ _ _ h hpaired hs => h.not_sound hinj hpaired hs) hinit hrun

/-! ## Two writes -/

instance (s : Signed) (w : Write bodies) : Decidable (Paired hmac key s w) :=
  inferInstanceAs (Decidable (_ → _))

/-- A code that tells the bodies of at most one byte apart. -/
def headMac (_ : Unit) (body : Bytes) : Mac := ⟨List.replicate 32 (body.headD 0), by simp⟩

def shortBodies : Set Bytes := {body | body.length ≤ 1 ∧ body ≠ [0]}

theorem headMac_injOn : Set.InjOn (headMac ()) shortBodies := by
  have hhead : ∀ b ∈ shortBodies, b = if b.headD 0 = 0 then [] else [b.headD 0] := by
    rintro b ⟨hlength, hne⟩
    match b with
    | [] => rfl
    | [c] =>
        have hc : c ≠ 0 := by simpa using hne
        simp [hc]
    | _ :: _ :: _ => simp at hlength
  intro b hb c hc heq
  have heads : b.headD 0 = c.headD 0 := by
    have hfirst := congrArg List.head? (congrArg Subtype.val heq)
    simpa [headMac] using hfirst
  rw [hhead b hb, hhead c hc, heads]

/-- No call fails. -/
def AtomicCalls.succeed : AtomicCalls := ⟨true, true, 64, true, true⟩

/-- A write of one byte. -/
def oneByte (c : UInt8) (hc : c ≠ 0) (crash : Option ℕ) : Write shortBodies where
  contents := [c]
  mem := by
    intro n
    cases n with
    | zero => exact ⟨by simp, by simp⟩
    | succ n => exact ⟨by simp, by simpa using hc⟩
  available := true
  calls := ⟨true, .succeed, .succeed⟩
  crash := crash

/-- The same body again, cut before its sidecar. -/
def rewritten : List (Write shortBodies) :=
  [oneByte 65 (by decide) none, oneByte 65 (by decide) (some 3)]

theorem sound_iff_rewritten :
    Always (step headMac ()) (Sound headMac ()) (Signed.init none) rewritten :=
  (sound_iff headMac_injOn none rewritten).mpr (by decide)

/-- Another body, cut before its sidecar. -/
def replaced : List (Write shortBodies) :=
  [oneByte 65 (by decide) none, oneByte 66 (by decide) (some 3)]

/-- It is taken for tampered with. -/
theorem replaced_not_sound :
    Set.InjOn (headMac ()) shortBodies ∧
      ¬ Always (step headMac ()) (Sound headMac ()) (Signed.init none) replaced := by
  refine ⟨headMac_injOn, ?_⟩
  intro halways
  have hsound := halways 2 _ rfl
  have htrusted := (hsound.trusted (by decide)).1
  revert htrusted
  decide

end LuminalShine.Integrity
