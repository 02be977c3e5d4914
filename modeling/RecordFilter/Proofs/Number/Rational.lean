import Mathlib.Data.Rat.Floor
import RecordFilter.Value

/-! # Numbers as rational numbers

The value of a number is an integer or, for a binary64 number that is finite, its significand times
a power of two (`toRat?`). Cutting such a number off toward zero is cutting off its value
(`truncate?_eq_map`). -/

namespace RecordFilter

/-- The integer part of a rational number, cut off toward zero. -/
def towardZero (q : ℚ) : Int := if 0 ≤ q then ⌊q⌋ else ⌈q⌉

/-- An integer is its own integer part. -/
@[simp] theorem towardZero_intCast (n : Int) : towardZero n = n := by
  rw [towardZero, Int.floor_intCast, Int.ceil_intCast, ite_self]

/-- What is cut off of a number and of its opposite is the same. -/
theorem towardZero_neg {q : ℚ} (h : 0 ≤ q) : towardZero (-q) = -⌊q⌋ := by
  rcases h.eq_or_lt with rfl | hpos
  · rw [neg_zero, towardZero, if_pos le_rfl, Int.floor_zero, Int.neg_zero]
  · rw [towardZero, if_neg (not_le.2 (neg_neg_of_pos hpos)), Int.ceil_neg]

/-- A power of two is the quotient of two natural numbers, of which one is 1. -/
theorem two_zpow_eq_div (e : Int) : (2 : ℚ) ^ e = twoTo e.toNat / twoTo (-e).toNat := by
  have htwo : ∀ n, (twoTo n : ℚ) = 2 ^ n := fun n => Nat.cast_pow 2 n
  rw [htwo, htwo]
  rcases le_total 0 e with h | h
  · rw [Int.toNat_of_nonpos (neg_nonpos.2 h), pow_zero, div_one, ← zpow_natCast,
      Int.toNat_of_nonneg h]
  · rw [Int.toNat_of_nonpos h, pow_zero, one_div, ← zpow_natCast,
      Int.toNat_of_nonneg (neg_nonneg.2 h), zpow_neg, inv_inv]

namespace Magnitude

/-- The value of a finite magnitude. -/
def toRat (m : Magnitude) : ℚ := m.significand * 2 ^ m.exponent

/-- The value of a finite magnitude is the quotient of its numerator and its denominator. -/
theorem toRat_eq_div (m : Magnitude) : m.toRat = m.numerator / m.denominator := by
  rw [toRat, two_zpow_eq_div, numerator, denominator, Nat.cast_mul, mul_div_assoc]

theorem toRat_nonneg (m : Magnitude) : 0 ≤ m.toRat := by
  rw [toRat_eq_div]
  exact div_nonneg (Nat.cast_nonneg _) (Nat.cast_nonneg _)

/-- Cutting a magnitude off is rounding its value down. -/
theorem truncate_eq_floor (m : Magnitude) : (m.truncate : Int) = ⌊m.toRat⌋ := by
  rw [toRat_eq_div, truncate, Int.natCast_div]
  exact (Rat.floor_intCast_div_natCast m.numerator m.denominator).symm

end Magnitude

namespace Binary64

/-- The value of a number that is finite. -/
def toRat? : Binary64 → Option ℚ
  | nan => none
  | signed negative m =>
    if m.isFinite then some (if negative then -m.toRat else m.toRat) else none

/-- **Cutting a number off toward zero is cutting off its value.** -/
theorem truncate?_eq_map (x : Binary64) : x.truncate? = x.toRat?.map towardZero := by
  cases x with
  | nan => rfl
  | signed negative m =>
    rw [truncate?, toRat?]
    split
    next =>
      rw [Option.map_some, Magnitude.truncate_eq_floor]
      cases negative with
      | false => exact congrArg some (if_pos m.toRat_nonneg).symm
      | true => exact congrArg some (towardZero_neg m.toRat_nonneg).symm
    next => rfl

end Binary64

namespace Number

/-- The value of a number, if it is finite. -/
def toRat? : Number → Option ℚ
  | signed n => some n.toInt
  | unsigned n => some n.toNat
  | float x => x.toRat?

end Number

end RecordFilter
