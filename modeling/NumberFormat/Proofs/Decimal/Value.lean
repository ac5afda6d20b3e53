import Mathlib.Algebra.Order.Round
import Mathlib.Data.Rat.Floor
import Mathlib.Order.Bounds.Basic
import Mathlib.Tactic.FieldSimp
import NumberFormat.Decimal.Rounding
import NumberFormat.Proofs.Decimal.Canonical

namespace NumberFormat
namespace Decimal

/-!
The rational numbers that decimals stand for.

Lowest form keeps the number, and rounding to a place takes the nearest multiple of its power of
ten.  How many fraction digits a decimal needs is a property of the number alone.
-/

/-- The number a decimal stands for. -/
def toRat (d : Decimal) : ℚ :=
  d.coefficient * 10 ^ d.exponent

theorem toRat_zero : zero.toRat = 0 := by
  simp [toRat, zero]

theorem toRat_scaled (n : Nat) (exponent : Int) :
    (scaled n exponent).toRat = n * 10 ^ exponent := by
  by_cases positive : n = 0
  · rw [scaled, dif_pos positive, toRat_zero, positive]
    simp
  · rcases value_scaled exponent positive with ⟨zeros, kept, shifted, _⟩
    have digits : (n : ℚ) = (scaled n exponent).coefficient * 10 ^ zeros := by
      exact_mod_cast kept.symm
    calc
      (scaled n exponent).toRat =
          (scaled n exponent).coefficient * 10 ^ (exponent + (zeros : Int)) := by
        rw [toRat, shifted]
      _ = (scaled n exponent).coefficient * 10 ^ zeros * 10 ^ exponent := by
        rw [zpow_add₀ (by norm_num), zpow_natCast]
        ring
      _ = n * 10 ^ exponent := by rw [digits]

/-! ## Rounding -/

/-- A quotient of whole numbers goes to the nearest one, as rounding of rational numbers does. -/
theorem divideHalfUp_eq_round (numerator : Nat) {denominator : Nat} (positive : 0 < denominator) :
    (divideHalfUp numerator denominator : Int) = round (numerator / denominator : ℚ) := by
  have nonzero : (denominator : ℚ) ≠ 0 := by exact_mod_cast positive.ne'
  have quotient : (numerator / denominator : ℚ) + 1 / 2 =
      ((2 * numerator + denominator : Nat) : ℚ) / ((2 * denominator : Nat) : ℚ) := by
    push_cast
    field_simp
  rw [round_eq, quotient, Rat.floor_natCast_div_natCast, divideHalfUp]
  norm_cast

/-- Rounding at a place gives the nearest multiple of its power of ten, a half going up. -/
theorem toRat_roundAt (d : Decimal) (place : Int) :
    (d.roundAt place).toRat = round (d.toRat / 10 ^ place) * 10 ^ place := by
  have ten : (10 : ℚ) ≠ 0 := by norm_num
  by_cases coarse : place ≤ d.exponent
  · obtain ⟨zeros, shift⟩ := Int.eq_ofNat_of_zero_le (sub_nonneg.mpr coarse)
    have whole : d.toRat / 10 ^ place = ((d.coefficient * 10 ^ zeros : Nat) : Int) := by
      rw [toRat, mul_div_assoc, ← zpow_sub₀ ten, shift]
      push_cast
      rw [zpow_natCast]
    rw [roundAt, if_pos coarse, whole, round_intCast, ← whole,
      div_mul_cancel₀ _ (zpow_ne_zero _ ten)]
  · obtain ⟨digits, shift⟩ := Int.eq_ofNat_of_zero_le (sub_nonneg.mpr (le_of_not_ge coarse))
    have quotient : d.toRat / 10 ^ place = (d.coefficient / (10 ^ digits : Nat) : ℚ) := by
      have parts : d.exponent - place = -(digits : Int) := by omega
      rw [toRat, mul_div_assoc, ← zpow_sub₀ ten, parts, zpow_neg, zpow_natCast, div_eq_mul_inv]
      push_cast
      rfl
    rw [roundAt, if_neg coarse, toRat_scaled, shift, Int.toNat_natCast, quotient,
      ← divideHalfUp_eq_round _ (Nat.pow_pos (by decide)), Int.cast_natCast]
    rfl

/-- Rounding to a number of fraction digits gives the nearest number that has so many. -/
theorem toRat_roundFraction (d : Decimal) (maximum : Nat) :
    (d.roundFraction maximum).toRat = round (d.toRat * 10 ^ maximum) / 10 ^ maximum := by
  rw [roundFraction, toRat_roundAt, zpow_neg, zpow_natCast, div_inv_eq_mul, div_eq_mul_inv]

/-! ## Fraction digits -/

/-- The digits of a decimal, counted in units of its last place. -/
theorem toRat_eq_div (d : Decimal) :
    d.toRat = (d.coefficient * 10 ^ d.exponent.toNat : Nat) / 10 ^ d.places := by
  rcases Int.le_total 0 d.exponent with whole | fraction
  · obtain ⟨zeros, exponent⟩ := Int.eq_ofNat_of_zero_le whole
    rw [toRat, places, exponent, Int.toNat_natCast, zpow_natCast, Int.toNat_of_nonpos (by omega)]
    simp
  · obtain ⟨places, exponent⟩ := Int.eq_ofNat_of_zero_le (neg_nonneg.mpr fraction)
    have shift : d.exponent = -(places : Int) := by omega
    rw [toRat, Decimal.places, exponent, Int.toNat_natCast, Int.toNat_of_nonpos fraction, shift,
      zpow_neg, zpow_natCast]
    simp [div_eq_mul_inv]

/-- The fraction digits a number needs: the least power of ten that makes it whole. -/
def NeedsPlaces (x : ℚ) (places : Nat) : Prop :=
  IsLeast {k : Nat | ∃ n : Nat, x * 10 ^ k = n} places

theorem needsPlaces (d : Decimal) : NeedsPlaces d.toRat d.places := by
  have ten : (10 : ℚ) ≠ 0 := by norm_num
  constructor
  · refine ⟨d.coefficient * 10 ^ d.exponent.toNat, ?_⟩
    rw [toRat_eq_div, div_mul_cancel₀ _ (pow_ne_zero _ ten)]
  · rintro fewer ⟨n, whole⟩
    by_contra shorter
    rw [not_le] at shorter
    obtain ⟨missing, split⟩ := Nat.exists_eq_add_of_lt shorter
    have noShift : d.exponent.toNat = 0 := by
      unfold places at shorter
      omega
    -- With fewer places the coefficient would end in a zero.
    have multiple : d.coefficient = n * 10 ^ (missing + 1) := by
      have value := whole
      rw [toRat_eq_div, noShift, split, pow_zero, Nat.mul_one, div_mul_eq_mul_div,
        div_eq_iff (pow_ne_zero _ ten), show fewer + missing + 1 = fewer + (missing + 1) from rfl,
        pow_add, mul_comm ((10 : ℚ) ^ fewer), ← mul_assoc] at value
      exact_mod_cast mul_right_cancel₀ (pow_ne_zero fewer ten) value
    rcases d.normal with lowest | both
    · apply lowest
      rw [multiple, Nat.pow_succ, ← Nat.mul_assoc]
      exact Nat.mul_mod_left _ _
    · unfold places at shorter
      omega

end Decimal
end NumberFormat
