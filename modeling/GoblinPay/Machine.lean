import Mathlib.Algebra.Order.Ring.Int

/-!
# Machine integers

What 64-bit arithmetic gives as long as it does not wrap.
-/

namespace GoblinPay

/-- An amount `as i64`. -/
theorem toInt_toInt64 (N : UInt64) :
    N.toInt64.toInt = if N.toNat < 2 ^ 63 then (N.toNat : Int) else N.toNat - 2 ^ 64 := by
  have hN := N.toNat_lt
  change N.toBitVec.toInt = _
  rw [BitVec.toInt_eq_toNat_cond, UInt64.toNat_toBitVec]
  split <;> split <;> omega

/-- A non-negative amount `as u64`. -/
theorem toNat_toUInt64 {N : Int64} (h : 0 ≤ N.toInt) : N.toUInt64.toNat = N.toInt.toNat := by
  have bits : N.toInt = N.toBitVec.toInt := rfl
  have word : N.toUInt64.toNat = N.toBitVec.toNat := rfl
  have size := N.toBitVec.isLt
  rw [bits, BitVec.toInt_eq_toNat_cond] at h
  rw [bits, word, BitVec.toInt_eq_toNat_cond]
  split at h
  · rename_i hlow
    rw [if_pos hlow, Int.toNat_natCast]
  · omega

theorem toInt_min (a b : Int64) : (min a b).toInt = min a.toInt b.toInt := by
  have hmin : min a b = if a ≤ b then a else b := rfl
  rw [hmin]
  split
  · rename_i hle
    have := Int64.le_iff_toInt_le.1 hle
    omega
  · rename_i hnot
    have := mt Int64.le_iff_toInt_le.2 hnot
    omega

section

variable {a b : Int64}

theorem toInt_add (hlow : -2 ^ 63 ≤ a.toInt + b.toInt) (hhigh : a.toInt + b.toInt < 2 ^ 63) :
    (a + b).toInt = a.toInt + b.toInt := by
  rw [Int64.toInt_add]
  exact Int.bmod_eq_of_le (by omega) (by omega)

theorem toInt_next (h : a < Int64.maxValue) : (a + 1).toInt = a.toInt + 1 := by
  have hmax : a.toInt < 2 ^ 63 - 1 := Int64.lt_iff_toInt_lt.1 h
  have hle := a.le_toInt
  have hone : (1 : Int64).toInt = 1 := rfl
  rw [toInt_add (by omega) (by omega), hone]

theorem toInt_less (h : 0 < a) : (a - 1).toInt = a.toInt - 1 := by
  have hpos : 0 < a.toInt := Int64.lt_iff_toInt_lt.1 h
  have hlt := a.toInt_lt
  have hone : (1 : Int64).toInt = 1 := rfl
  rw [Int64.toInt_sub, hone]
  exact Int.bmod_eq_of_le (by omega) (by omega)

end

end GoblinPay
