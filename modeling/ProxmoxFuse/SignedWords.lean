import Mathlib.Data.Int.Order.Basic
import Mathlib.Order.Defs.LinearOrder
import Mathlib.Tactic.Ring

/-!
# Signed words read as unsigned ones

A signed 64-bit word that is clamped to a range of natural numbers keeps its
value when it is cast to an unsigned word, and when it is narrowed to 32 bits if
the range is that small.
-/

namespace SignedWords

/-- The nearest value of a range. -/
def clamp (x lower upper : Int64) : Int64 :=
  if x < lower then lower else if x > upper then upper else x

theorem toInt_max (x y : Int64) : (max x y).toInt = max x.toInt y.toInt := by
  have le := Int64.le_iff_toInt_le (x := x) (y := y)
  change (if x ≤ y then y else x).toInt = _
  split
  · next small => rw [max_eq_right (le.mp small)]
  · next large =>
      have other := le.not.mp large
      rw [max_eq_left (by omega)]

theorem toInt_clamp (x : Int64) {lower upper : Int64} (ordered : lower.toInt ≤ upper.toInt) :
    (clamp x lower upper).toInt = min (max x.toInt lower.toInt) upper.toInt := by
  have low := Int64.lt_iff_toInt_lt (x := x) (y := lower)
  have high := Int64.lt_iff_toInt_lt (x := upper) (y := x)
  unfold clamp
  split
  · next below =>
      have value := low.mp below
      omega
  · next inside =>
      have value := low.not.mp inside
      split
      · next above =>
          have value' := high.mp above
          omega
      · next within =>
          have value' := high.not.mp within
          omega

theorem toNat_toUInt64 {x : Int64} (nonneg : 0 ≤ x.toInt) : x.toUInt64.toNat = x.toInt.toNat := by
  have le : 0 ≤ x := Int64.le_iff_toInt_le.mpr nonneg
  exact Int64.toNat_toUInt64_of_le le

/-- What is clamped at zero is the value itself, or zero. -/
theorem toNat_max_zero (x : Int64) : (max x 0).toUInt64.toNat = x.toInt.toNat := by
  have value : (max x 0).toInt = max x.toInt 0 := toInt_max x 0
  have nonneg : 0 ≤ (max x 0).toInt := by
    rw [value]
    exact le_max_right _ _
  rw [toNat_toUInt64 nonneg, value]
  omega

theorem toNat_narrow {x : Int64} (nonneg : 0 ≤ x.toInt) (small : x.toInt < 2 ^ 32) :
    x.toUInt64.toUInt32.toNat = x.toInt.toNat := by
  rw [UInt64.toNat_toUInt32, toNat_toUInt64 nonneg]
  omega

/-- An unsigned word below the sign bit keeps its value when it is read as signed. -/
theorem toInt_toInt64 {x : UInt64} (small : x.toNat < 2 ^ 63) : x.toInt64.toInt = x.toNat := by
  have value : x.toInt64.toInt = x.toBitVec.toInt := rfl
  rw [value, BitVec.toInt_eq_toNat_of_lt]
  · rfl
  · simp only [UInt64.toNat_toBitVec]
    omega

end SignedWords
