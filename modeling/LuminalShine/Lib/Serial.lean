import Mathlib

/-!
# Serial numbers

A counter that is sent with `w + 1` bits only.  Of two counters less than half the range apart the
signed difference of their bits tells which one is ahead.
-/

namespace LuminalShine.Lib

variable {w i j : ℕ}

/-- The difference of two serial numbers, within half the range. -/
theorem toInt_serial_sub (hup : i < j + 2 ^ w) (hdown : j ≤ i + 2 ^ w) :
    (BitVec.ofNat (w + 1) i - BitVec.ofNat (w + 1) j).toInt = (i : ℤ) - j := by
  have hpow : 2 ^ (w + 1) = 2 * 2 ^ w := by rw [Nat.pow_succ, Nat.mul_comm]
  rw [BitVec.toInt_sub, BitVec.toInt_ofNat', BitVec.toInt_ofNat', Int.sub_bmod_bmod,
    Int.bmod_sub_bmod, hpow]
  generalize 2 ^ w = half at hup hdown
  apply Int.bmod_eq_of_le <;> omega

/-- **Which one is ahead.** -/
theorem serial_newer_iff (hup : i < j + 2 ^ w) (hdown : j ≤ i + 2 ^ w) :
    0 < (BitVec.ofNat (w + 1) i - BitVec.ofNat (w + 1) j).toInt ↔ j < i := by
  rw [toInt_serial_sub hup hdown]
  omega

end LuminalShine.Lib
