import Mathlib.Data.List.AList

/-!
# Logs of many keyed histories

A component that runs many exchanges side by side writes one log, newest entry first,
in which every entry carries the key of its exchange.  The history of the exchange that
is open under a key is the part of its entries back to the one that opened it.

## Main definitions

* `ofKey key log` — the entries of one key.
* `backTo p es` — the newest entries, up to and including the first that satisfies `p`.
-/

namespace LuminalShine.Lib

variable {κ ε : Type*} [DecidableEq κ]

/-- The entries of one key. -/
def ofKey (key : κ) (log : List (κ × ε)) : List ε :=
  (log.filter fun entry => entry.1 = key).map (·.2)

@[simp] theorem ofKey_cons_self (key : κ) (e : ε) (log : List (κ × ε)) :
    ofKey key ((key, e) :: log) = e :: ofKey key log := by
  simp [ofKey]

theorem ofKey_cons_ne {key key' : κ} (h : key' ≠ key) (e : ε) (log : List (κ × ε)) :
    ofKey key ((key', e) :: log) = ofKey key log := by
  simp [ofKey, h]

/-- The newest entries, up to and including the first that satisfies `p`. -/
def backTo (p : ε → Bool) : List ε → List ε
  | [] => []
  | e :: es => if p e then [e] else e :: backTo p es

theorem backTo_cons_of_pos {p : ε → Bool} {e : ε} (h : p e = true) (es : List ε) :
    backTo p (e :: es) = [e] := by
  simp [backTo, h]

theorem backTo_cons_of_neg {p : ε → Bool} {e : ε} (h : p e = false) (es : List ε) :
    backTo p (e :: es) = e :: backTo p es := by
  simp [backTo, h]

/-- An association that is written and then erased was as well never written. -/
@[simp] theorem erase_insert_self {β : κ → Type*} (key : κ) (b : β key) (m : AList β) :
    (m.insert key b).erase key = m.erase key := by
  exact AList.ext (List.kerase_cons_eq rfl)

end LuminalShine.Lib
