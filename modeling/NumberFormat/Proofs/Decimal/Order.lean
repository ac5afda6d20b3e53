import NumberFormat.Proofs.Decimal.Value

namespace NumberFormat
namespace Decimal

/-!
The order of decimals, the grids they lie on, and how rounding respects both.

Rounding to one place keeps the order.  Where the place depends on the size of the number, two
numbers of different sizes are held apart by a power of ten between them, provided that rounding
moves neither of them across it.
-/

/-! ## Size -/

theorem ten_zpow_pos (power : Int) : (0 : ℚ) < 10 ^ power :=
  zpow_pos (by norm_num) power

theorem toRat_nonneg (d : Decimal) : 0 ≤ d.toRat :=
  mul_nonneg (Nat.cast_nonneg _) (ten_zpow_pos _).le

theorem toRat_eq_zero {d : Decimal} : d.toRat = 0 ↔ d.coefficient = 0 := by
  rw [toRat, mul_eq_zero, or_iff_left (ten_zpow_pos _).ne', Nat.cast_eq_zero]

theorem toRat_pos {d : Decimal} : 0 < d.toRat ↔ d.coefficient ≠ 0 := by
  rw [(toRat_nonneg d).lt_iff_ne, ne_comm, ne_eq, toRat_eq_zero]

theorem toRat_shift (d : Decimal) (power : Int) :
    (d.shift power).toRat = d.toRat * 10 ^ power := by
  by_cases zero : d.coefficient = 0
  · rw [shift, dif_pos zero, toRat_eq_zero.mpr zero, zero_mul]
  · rw [shift, dif_neg zero, toRat, toRat, zpow_add₀ (by norm_num), mul_assoc]

theorem coefficient_shift (d : Decimal) (power : Int) :
    (d.shift power).coefficient = d.coefficient := by
  unfold shift
  split <;> rfl

theorem shift_zero (d : Decimal) : d.shift 0 = d := by
  unfold shift
  split
  · rfl
  · exact eq_of_parts rfl (Int.add_zero _)

theorem shift_neg_shift (d : Decimal) (power : Int) : (d.shift (-power)).shift power = d := by
  by_cases zero : d.coefficient = 0
  · rw [shift, dif_pos ((d.coefficient_shift _).trans zero), shift, dif_pos zero]
  · rw [shift, dif_neg ((d.coefficient_shift _).trans_ne zero)]
    refine eq_of_parts (d.coefficient_shift _) ?_
    simp only [shift, dif_neg zero, Int.neg_add_cancel_right]

theorem digits_shift (d : Decimal) (power : Int) : (d.shift power).digits = d.digits := by
  rw [digits, digits, coefficient_shift]

theorem point_shift {d : Decimal} (nonzero : d.coefficient ≠ 0) (power : Int) :
    (d.shift power).point = d.point + power := by
  rw [shift, dif_neg nonzero, point, point, digits, digits, add_assoc]

theorem isZero_iff {d : Decimal} : d.isZero = true ↔ d.coefficient = 0 :=
  beq_iff_eq

theorem leadingExponent_of_zero {d : Decimal} (zero : d.coefficient = 0) :
    d.leadingExponent = 0 :=
  if_pos (isZero_iff.mpr zero)

theorem leadingExponent_of_nonzero {d : Decimal} (nonzero : d.coefficient ≠ 0) :
    d.leadingExponent = d.point - 1 :=
  if_neg (mt isZero_iff.mp nonzero)

/-- The digits of a whole number tell between which powers of ten it lies. -/
theorem toDigits_range {n : Nat} (positive : n ≠ 0) :
    10 ^ ((Nat.toDigits 10 n).length - 1) ≤ n ∧ n < 10 ^ (Nat.toDigits 10 n).length := by
  have counted (k : Nat) : (Nat.toDigits 10 n).length ≤ k ↔ n < 10 ^ k := by
    simpa using Decimal.length_toDigits_add_le_iff positive 0 k
  have some : 0 < (Nat.toDigits 10 n).length := Nat.length_toDigits_pos
  refine ⟨Nat.le_of_not_lt (fun less => ?_), (counted _).mp le_rfl⟩
  have shorter := (counted _).mpr less
  omega

/-- The decimal point stands where the next power of ten begins. -/
theorem point_le_iff {d : Decimal} (nonzero : d.coefficient ≠ 0) (power : Int) :
    d.point ≤ power ↔ d.toRat < 10 ^ power := by
  have scale : d.toRat < 10 ^ power ↔ (d.coefficient : ℚ) < 10 ^ (power - d.exponent) := by
    rw [toRat, zpow_sub₀ (by norm_num), lt_div_iff₀ (ten_zpow_pos _)]
  have position : d.point = (Nat.toDigits 10 d.coefficient).length + d.exponent := by
    rw [point, digits, if_neg nonzero]
  rw [scale, position]
  rcases Int.le_total 0 (power - d.exponent) with whole | fraction
  · obtain ⟨room, split⟩ := Int.eq_ofNat_of_zero_le whole
    have counted := length_toDigits_add_le_iff nonzero 0 room
    rw [Nat.add_zero, Nat.pow_zero, Nat.mul_one] at counted
    have cast : (d.coefficient : ℚ) < 10 ^ room ↔ d.coefficient < 10 ^ room := by norm_cast
    rw [split, zpow_natCast, cast, ← counted]
    omega
  · have digit : 0 < (Nat.toDigits 10 d.coefficient).length := Nat.length_toDigits_pos
    have least : (1 : ℚ) ≤ d.coefficient := by
      exact_mod_cast Nat.one_le_iff_ne_zero.mpr nonzero
    have most : (10 : ℚ) ^ (power - d.exponent) ≤ 1 := zpow_le_one_of_nonpos₀ (by norm_num) fraction
    exact iff_of_false (by omega) (not_lt_of_ge (most.trans least))

theorem toRat_lt_point {d : Decimal} (nonzero : d.coefficient ≠ 0) : d.toRat < 10 ^ d.point :=
  (point_le_iff nonzero _).mp le_rfl

theorem power_le_toRat {d : Decimal} (nonzero : d.coefficient ≠ 0) {power : Int}
    (small : power < d.point) : 10 ^ power ≤ d.toRat :=
  le_of_not_gt (mt (point_le_iff nonzero power).mpr (not_le_of_gt small))

theorem point_mono {a b : Decimal} (aNonzero : a.coefficient ≠ 0) (bNonzero : b.coefficient ≠ 0)
    (ordered : a.toRat ≤ b.toRat) : a.point ≤ b.point :=
  (point_le_iff aNonzero _).mpr (ordered.trans_lt (toRat_lt_point bNonzero))

/-! ## Grids -/

/-- Two decimals on one grid that are less than a step apart are the same. -/
theorem scaled_unique {j k : Nat} {place : Int}
    (close : |(scaled j place).toRat - (scaled k place).toRat| < 10 ^ place) : j = k := by
  rw [toRat_scaled, toRat_scaled, ← sub_mul, abs_mul, abs_of_pos (ten_zpow_pos place),
    mul_lt_iff_lt_one_left (ten_zpow_pos place)] at close
  have whole : |(j : Int) - k| < 1 := by exact_mod_cast close
  rw [Int.abs_lt_one_iff] at whole
  omega

theorem exists_scaled_of_exponent {d : Decimal} (nonzero : d.coefficient ≠ 0) {place : Int}
    (fine : place ≤ d.exponent) : ∃ k, d = scaled k place := by
  obtain ⟨zeros, split⟩ := Int.eq_ofNat_of_zero_le (sub_nonneg.mpr fine)
  exact ⟨d.coefficient * 10 ^ zeros, (scaled_of_value nonzero rfl (by omega)).symm⟩

/-- A decimal on a coarse grid is on every finer one. -/
theorem exists_scaled_finer (k : Nat) {place finer : Int} (fine : finer ≤ place) :
    ∃ j, scaled k place = scaled j finer := by
  by_cases zero : k = 0
  · refine ⟨0, ?_⟩
    rw [zero, scaled, scaled]
    rfl
  · obtain ⟨zeros, _, shifted, nonzero⟩ := value_scaled place zero
    exact exists_scaled_of_exponent nonzero (by omega)

/-! ## Rounding to a place -/

theorem toRat_roundAt_mono {a b : Decimal} (place : Int) (ordered : a.toRat ≤ b.toRat) :
    (a.roundAt place).toRat ≤ (b.roundAt place).toRat := by
  have scaledOrder : a.toRat / 10 ^ place ≤ b.toRat / 10 ^ place :=
    div_le_div_of_nonneg_right ordered (ten_zpow_pos place).le
  have rounded : round (a.toRat / 10 ^ place) ≤ round (b.toRat / 10 ^ place) := by
    rw [round_eq, round_eq]
    exact Int.floor_mono (add_le_add_left scaledOrder _)
  rw [toRat_roundAt, toRat_roundAt]
  exact mul_le_mul_of_nonneg_right (by exact_mod_cast rounded) (ten_zpow_pos place).le

/-- A power of ten is a multiple of the smaller ones. -/
theorem toRat_roundAt_power {d : Decimal} {place power : Int} (fine : place ≤ power)
    (value : d.toRat = 10 ^ power) : (d.roundAt place).toRat = 10 ^ power := by
  obtain ⟨zeros, split⟩ := Int.eq_ofNat_of_zero_le (sub_nonneg.mpr fine)
  have whole : d.toRat / 10 ^ place = ((10 ^ zeros : Nat) : Int) := by
    rw [value, ← zpow_sub₀ (by norm_num), split]
    push_cast
    rw [zpow_natCast]
  rw [toRat_roundAt, whole, round_intCast, ← whole, div_mul_cancel₀ _ (ten_zpow_pos place).ne',
    value]

theorem toRat_power (power : Int) : (scaled 1 power).toRat = 10 ^ power := by
  rw [toRat_scaled, Nat.cast_one, one_mul]

theorem toRat_roundAt_le {d : Decimal} {place power : Int} (fine : place ≤ power)
    (below : d.toRat ≤ 10 ^ power) : (d.roundAt place).toRat ≤ 10 ^ power := by
  rw [← toRat_roundAt_power fine (toRat_power power)]
  exact toRat_roundAt_mono place (below.trans (toRat_power power).ge)

theorem le_toRat_roundAt {d : Decimal} {place power : Int} (fine : place ≤ power)
    (above : 10 ^ power ≤ d.toRat) : 10 ^ power ≤ (d.roundAt place).toRat := by
  rw [← toRat_roundAt_power fine (toRat_power power)]
  exact toRat_roundAt_mono place ((toRat_power power).le.trans above)

/-- Rounding commutes with moving the decimal point. -/
theorem toRat_roundAt_shift (d : Decimal) (place power : Int) :
    ((d.shift power).roundAt place).toRat = (d.roundAt (place - power)).toRat * 10 ^ power := by
  have ten : (10 : ℚ) ≠ 0 := by norm_num
  rw [toRat_roundAt, toRat_roundAt, toRat_shift, zpow_sub₀ ten, div_div_eq_mul_div, mul_assoc,
    div_mul_cancel₀ _ (zpow_ne_zero _ ten)]

/-! ## Rounding to a place that depends on the size -/

/--
A place for each position of the decimal point, such that numbers of different sizes are rounded
alike or are rounded to places below the larger one's first digit.
-/
def Graded (place : Int → Int) : Prop :=
  ∀ ⦃low high : Int⦄, low < high →
    place low = place high ∨ place low < high ∧ place high < high

/-- Either both are rounded to one place, or a power of ten stands between them. -/
theorem Graded.toRat_roundAt_mono {place : Int → Int} (graded : Graded place) {a b : Decimal}
    (aNonzero : a.coefficient ≠ 0) (bNonzero : b.coefficient ≠ 0)
    (ordered : a.toRat ≤ b.toRat) :
    (a.roundAt (place a.point)).toRat ≤ (b.roundAt (place b.point)).toRat := by
  rcases (point_mono aNonzero bNonzero ordered).eq_or_lt with same | apart
  · rw [same]
    exact Decimal.toRat_roundAt_mono _ ordered
  rcases graded apart with samePlace | ⟨lowFine, highFine⟩
  · rw [samePlace]
    exact Decimal.toRat_roundAt_mono _ ordered
  · have between : a.toRat ≤ 10 ^ (b.point - 1) :=
      ((point_le_iff aNonzero _).mp (by omega)).le
    calc
      (a.roundAt (place a.point)).toRat ≤ 10 ^ (b.point - 1) :=
        toRat_roundAt_le (by omega) between
      _ ≤ (b.roundAt (place b.point)).toRat :=
        le_toRat_roundAt (by omega) (power_le_toRat bNonzero (by omega))

end Decimal
end NumberFormat
