import Mathlib.Data.Int.Notation
import Mathlib.Data.List.Basic
import Mathlib.Data.List.Forall2
import Mathlib.Data.Nat.Notation

/-!
# Typed reads of JSON values

A JSON value, and its typed reads in the way of a library that raises on a value of another
type.  `none` is a read that raises.  A list of entries that is read up to the first one that
raises is `decodeAll`.

## Main definitions

* `JsonValue` and its reads `getString`, `getInt`, `value`, ….
* `decodeAll`, `Whole` — what a reader takes of a list, and when that is all of it.

## Main results

* `whole_decodeAll_iff`
-/

namespace LuminalShine.Lib

/-- An integer stands for the signed and the unsigned one. -/
inductive JsonValue where
  | null
  | boolean (b : Bool)
  | integer (n : ℤ)
  | float (x : Float)
  | string (s : String)
  | array (items : List JsonValue)
  | object (fields : List (String × JsonValue))

namespace JsonValue

variable {α : Type}

def getString : JsonValue → Option String
  | string s => some s
  | _ => none

def getBoolean : JsonValue → Option Bool
  | boolean b => some b
  | _ => none

def getDouble : JsonValue → Option Float
  | integer n => some (.ofInt n)
  | float x => some x
  | _ => none

/-- A read of 32 bits, which takes a boolean as well. -/
def getInt : JsonValue → Option ℤ
  | boolean b => some b.toNat
  | integer n => some (n.bmod 4294967296)
  | float x => some x.toInt32.toInt
  | _ => none

/-- A read of 64 unsigned bits. -/
def getUnsigned : JsonValue → Option UInt64
  | integer n => some (.ofInt n)
  | float x => some x.toUInt64
  | _ => none

/-- The member of an object. -/
def find? (key : String) : JsonValue → Option JsonValue
  | object fields => fields.lookup key
  | _ => none

def contains (key : String) (j : JsonValue) : Bool := (j.find? key).isSome

/-- The member of an object, or a default when there is none; on another value it raises. -/
def value (get : JsonValue → Option α) (key : String) (default : α) : JsonValue → Option α
  | object fields =>
      match fields.lookup key with
      | some v => get v
      | none => some default
  | _ => none

/-- What a loop over the value goes over: a value that is neither a list nor an object is its
own only element. -/
def elements : JsonValue → List JsonValue
  | null => []
  | array items => items
  | object fields => fields.map (·.2)
  | v => [v]

end JsonValue

/-! ## Lists of entries -/

section Entries

variable {ι α : Type}

/-- The entries up to the first one that raises.  Inside, `none` is an entry to be left out. -/
def decodeAll (decode : ι → Option (Option α)) : List ι → List α
  | [] => []
  | x :: xs =>
      match decode x with
      | none => []
      | some none => decodeAll decode xs
      | some (some entry) => entry :: decodeAll decode xs

/-- `entries` are all the usable ones, decoded, in order. -/
def Whole (decode : ι → Option (Option α)) (usable : ι → Bool) (xs : List ι)
    (entries : List α) : Prop :=
  List.Forall₂ (fun x entry => decode x = some (some entry)) (xs.filter usable) entries

/-- What is read is all of it exactly when nothing usable stands at or behind the first entry
that raises. -/
theorem whole_decodeAll_iff {decode : ι → Option (Option α)} {usable : ι → Bool}
    (hsome : ∀ x entry, decode x = some (some entry) → usable x = true)
    (hnone : ∀ x, decode x = some none → usable x = false) (xs : List ι) :
    Whole decode usable xs (decodeAll decode xs) ↔
      ∀ x ∈ xs.dropWhile fun x => (decode x).isSome, usable x = false := by
  induction xs with
  | nil => simp [Whole, decodeAll]
  | cons x xs ih =>
      cases hx : decode x with
      | none =>
          simp only [Whole, decodeAll, hx, List.forall₂_nil_right_iff, List.filter_eq_nil_iff]
          simp [hx]
      | some result =>
          cases result with
          | none =>
              have hskip : usable x = false := hnone x hx
              simpa [Whole, decodeAll, hx, hskip] using ih
          | some entry =>
              have hkeep : usable x = true := hsome x entry hx
              simpa [Whole, decodeAll, hx, hkeep] using ih

end Entries

end LuminalShine.Lib
