import BarBridge.Number.Binary64
import Mathlib.Algebra.Order.Floor.Semifield
import Mathlib.Data.Rat.Floor
import Mathlib.Tactic.Linarith

/-!
# Numbers without their fraction

A double-precision number is kept in three parts, and dropping its fraction is a division of
naturals. Here the number gets its value among the rationals, and `truncate_value` says that the
division drops the fraction of this value, towards zero. A sign is kept apart from the magnitude, so
a zero may have one; comparisons with zero are stated for the value, which has none.
-/

namespace BarBridge

/-- A rational number without its fraction. -/
def truncate (q : ℚ) : ℤ :=
  if 0 ≤ q then ⌊q⌋ else ⌈q⌉

theorem truncate_neg (q : ℚ) : truncate (-q) = -truncate q := by
  unfold truncate
  obtain hneg | rfl | hpos := lt_trichotomy q 0
  · rw [if_pos (by linarith), if_neg (by linarith), Int.floor_neg]
  · simp
  · rw [if_neg (by linarith), if_pos hpos.le, Int.ceil_neg]

/-- What truncates to zero or less is what is less than one. -/
theorem truncate_le_zero_iff (q : ℚ) : truncate q ≤ 0 ↔ q < 1 := by
  unfold truncate
  split
  · rw [← Int.lt_add_one_iff, zero_add, Int.floor_lt, Int.cast_one]
  · next hneg =>
    refine iff_of_true ?_ (by linarith)
    rw [Int.ceil_le, Int.cast_zero]
    exact (not_le.mp hneg).le

theorem truncate_pos_iff (q : ℚ) : 0 < truncate q ↔ 1 ≤ q := by
  rw [← not_le, truncate_le_zero_iff, not_lt]

namespace Binary64

/-- The magnitude, exactly. -/
def magnitude (x : Binary64) : ℚ :=
  x.significand * 2 ^ x.exponent

/-- The number, exactly. -/
def value (x : Binary64) : ℚ :=
  if x.negative then -x.magnitude else x.magnitude

theorem magnitude_nonneg (x : Binary64) : 0 ≤ x.magnitude :=
  mul_nonneg (Nat.cast_nonneg _) (zpow_nonneg two_pos.le _)

theorem magnitude_eq_zero_iff (x : Binary64) : x.magnitude = 0 ↔ x.isZero = true := by
  have hpower : (2 : ℚ) ^ x.exponent ≠ 0 := zpow_ne_zero _ two_ne_zero
  rw [magnitude, mul_eq_zero, Nat.cast_eq_zero, or_iff_left hpower, isZero, beq_iff_eq]

theorem magnitude_eq_ratio (x : Binary64) : x.magnitude = x.ratio.1 / x.ratio.2 := by
  have hpower : (2 : ℚ) ^ x.exponent = 2 ^ x.exponent.toNat / 2 ^ (-x.exponent).toNat := by
    -- One of the two natural exponents is zero.
    rw [← zpow_natCast, ← zpow_natCast, ← zpow_sub₀ two_ne_zero]
    congr 1
    omega
  rw [magnitude, hpower, ratio]
  simp only [Nat.pow_eq]
  push_cast
  ring

theorem whole_eq_floor (x : Binary64) : x.whole = ⌊x.magnitude⌋₊ := by
  rw [magnitude_eq_ratio, Nat.floor_div_eq_div, whole]

/-- **The fraction is dropped towards zero.** -/
theorem truncate_value (x : Binary64) :
    truncate x.value = if x.negative then -(x.whole : ℤ) else x.whole := by
  have hmagnitude : truncate x.magnitude = x.whole := by
    rw [truncate, if_pos x.magnitude_nonneg, whole_eq_floor,
      Int.natCast_floor_eq_floor x.magnitude_nonneg]
  unfold value
  split
  · rw [truncate_neg, hmagnitude]
  · exact hmagnitude

theorem truncate_value_le_zero_iff (x : Binary64) :
    truncate x.value ≤ 0 ↔ (x.negative || x.whole == 0) = true := by
  rw [truncate_value]
  cases x.negative <;> simp

theorem value_nonneg_iff (x : Binary64) :
    0 ≤ x.value ↔ (x.negative && !x.isZero) = false := by
  have hzero := x.magnitude_eq_zero_iff
  have hnonneg := x.magnitude_nonneg
  unfold value
  cases x.negative with
  | false => simpa using hnonneg
  | true =>
    rw [if_pos rfl, Bool.true_and, Bool.not_eq_false', ← hzero]
    constructor
    · intro h
      linarith
    · intro h
      linarith

theorem toNat_truncate_value {x : Binary64} (h : 0 ≤ x.value) :
    (truncate x.value).toNat = x.whole := by
  rw [truncate_value]
  split
  · next hneg =>
    have hzero : x.magnitude = 0 := by
      rw [value, if_pos hneg] at h
      linarith [x.magnitude_nonneg]
    rw [whole_eq_floor, hzero]
    rfl
  · exact Int.toNat_natCast _

end Binary64

end BarBridge
