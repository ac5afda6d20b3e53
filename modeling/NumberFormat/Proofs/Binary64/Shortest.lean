import NumberFormat.Proofs.Binary64.Precision
import NumberFormat.Proofs.Binary64.Spelling

namespace NumberFormat

open Decimal (scaled ten_zpow_pos)

/-!
How far down the shortest decimals reach.

Rounding keeps the order of quotients, so what lies between a magnitude and a decimal that reads as
it reads as it too.  Seventeen digits always do, since two numbers of the format differ by more than
that.  Hence no decimal that reads as a magnitude ends before the shortest one does.
-/

namespace Binary64

/-! ## Rounding keeps the order -/

theorem divideHalfEven_scale (numerator denominator : Nat) {factor : Nat} (positive : 0 < factor) :
    divideHalfEven (numerator * factor) (denominator * factor) =
      divideHalfEven numerator denominator := by
  have twice : 2 * (numerator % denominator * factor) = 2 * (numerator % denominator) * factor :=
    (Nat.mul_assoc _ _ _).symm
  unfold divideHalfEven
  simp only [Nat.mul_div_mul_right _ _ positive, Nat.mul_mod_mul_right, twice,
    Nat.mul_lt_mul_right positive, Nat.mul_left_inj positive.ne']

theorem div_le_divideHalfEven (numerator denominator : Nat) :
    numerator / denominator ≤ divideHalfEven numerator denominator := by
  unfold divideHalfEven
  dsimp only
  split <;> omega

section

variable {first other denominator divisor : Nat} (positiveToo : 0 < divisor)
  (ordered : (first : ℚ) / denominator ≤ other / divisor)

include positiveToo ordered

theorem div_le_div_of_quotients : first / denominator ≤ other / divisor := by
  have floor : ((first / denominator : Nat) : ℚ) ≤ first / denominator := Nat.cast_div_le
  have ceiling := quotient_lt other positiveToo
  have below : ((first / denominator : Nat) : ℚ) < (other / divisor + 1 : Nat) := by
    push_cast
    linarith
  exact Nat.le_of_lt_succ (Nat.cast_lt.mp below)

/-- Were the order reversed, both quotients would be the same half, which rounds one way only. -/
theorem divideHalfEven_mono (positive : 0 < denominator) :
    divideHalfEven first denominator ≤ divideHalfEven other divisor := by
  by_contra reversed
  have gap : (divideHalfEven other divisor : ℚ) + 1 ≤ divideHalfEven first denominator := by
    exact_mod_cast Nat.lt_of_not_le reversed
  have left := (abs_le.mp (divideHalfEven_near first positive)).2
  have right := (abs_le.mp (divideHalfEven_near other positiveToo)).1
  have equal : (first : ℚ) / denominator = other / divisor := by linarith
  rw [div_eq_div_iff (by exact_mod_cast positive.ne') (by exact_mod_cast positiveToo.ne')] at equal
  have crossed : first * divisor = other * denominator := by exact_mod_cast equal
  rw [← divideHalfEven_scale first denominator positiveToo, crossed, Nat.mul_comm denominator,
    divideHalfEven_scale other divisor positive] at reversed
  exact reversed (Nat.le_refl _)

end

/-- A number of units whose step is more than one unit has 53 binary digits above its spacing. -/
theorem le_of_spacing {units : Nat} (wide : spacing units ≠ 0) :
    Nat.pow 2 (52 + spacing units) ≤ units := by
  have nonzero : units ≠ 0 := by
    rintro rfl
    exact wide rfl
  have log : 52 + spacing units = units.log2 := by
    unfold spacing at wide ⊢
    omega
  rw [log]
  exact Nat.log2_self_le nonzero

theorem nearestUnits_le (numerator denominator : Nat) :
    nearestUnits numerator denominator ≤
      Nat.pow 2 (53 + spacing (numerator / denominator)) := by
  rw [← powers_mul]
  refine Nat.mul_le_mul_right _ (Nat.le_trans (divideHalfEven_le _ _) ?_)
  rw [← Nat.div_div_eq_div_mul]
  refine Nat.div_lt_of_lt_mul ?_
  rw [Nat.mul_comm, powers_mul]
  exact lt_spacing _

theorem le_nearestUnits {numerator denominator : Nat}
    (wide : spacing (numerator / denominator) ≠ 0) :
    Nat.pow 2 (52 + spacing (numerator / denominator)) ≤ nearestUnits numerator denominator := by
  have step : 0 < Nat.pow 2 (spacing (numerator / denominator)) := Nat.pow_pos (by decide)
  rw [← powers_mul]
  refine Nat.mul_le_mul_right _ (Nat.le_trans ?_ (div_le_divideHalfEven _ _))
  rw [← Nat.div_div_eq_div_mul, Nat.le_div_iff_mul_le step, powers_mul]
  exact le_of_spacing wide

theorem nearestUnits_mono {first other denominator divisor : Nat} (positive : 0 < denominator)
    (positiveToo : 0 < divisor) (ordered : (first : ℚ) / denominator ≤ other / divisor) :
    nearestUnits first denominator ≤ nearestUnits other divisor := by
  have spacings := spacing_mono (div_le_div_of_quotients positiveToo ordered)
  rcases Nat.lt_or_eq_of_le spacings with narrower | same
  · -- A power of two lies between what is rounded in different steps.
    refine (nearestUnits_le first denominator).trans (le_trans ?_ (le_nearestUnits (by omega)))
    exact Nat.pow_le_pow_right (by decide) (by omega)
  · unfold nearestUnits
    rw [same]
    have wide : 0 < Nat.pow 2 (spacing (other / divisor)) := Nat.pow_pos (by decide)
    generalize Nat.pow 2 (spacing (other / divisor)) = step at wide ⊢
    refine Nat.mul_le_mul_right _ (divideHalfEven_mono (Nat.mul_pos positiveToo wide) ?_
      (Nat.mul_pos positive wide))
    push_cast
    rw [← div_div, ← div_div]
    exact div_le_div_of_nonneg_right ordered (Nat.cast_nonneg _)

/-! ## Quotients close to a number of the format -/

/-- Multiples of a step lie at least a step apart. -/
theorem add_step_le {step low high : Nat} (lowMultiple : step ∣ low) (highMultiple : step ∣ high)
    (below : low < high) : low + step ≤ high := by
  obtain ⟨a, rfl⟩ := lowMultiple
  obtain ⟨b, rfl⟩ := highMultiple
  rw [← Nat.mul_succ]
  exact Nat.mul_le_mul_left _ (Nat.lt_of_mul_lt_mul_left below)

section

variable {numerator denominator units : Nat} (positive : 0 < denominator)
  (spaced : Nat.pow 2 (spacing units) ∣ units)
  (close : |(units : ℚ) - numerator / denominator| < units / 2 ^ 54)

include spaced close

/-- Close to a number of the format the steps are no wider than those of the number itself. -/
theorem spacing_le_of_close : spacing (numerator / denominator) ≤ spacing units := by
  by_contra wider
  rw [not_le] at wider
  have below := lt_spacing units
  have apart := add_step_le spaced (Nat.pow_dvd_pow 2 (Nat.le_add_left _ 53)) below
  have floor : Nat.pow 2 (53 + spacing units) ≤ numerator / denominator :=
    (Nat.pow_le_pow_right (by decide) (by omega)).trans (le_of_spacing (by omega))
  have quotient : ((units + Nat.pow 2 (spacing units) : Nat) : ℚ) ≤ numerator / denominator :=
    (Nat.cast_le.mpr (apart.trans floor)).trans Nat.cast_div_le
  rw [← powers_mul] at below
  generalize Nat.pow 2 (spacing units) = step at below quotient
  have below : (units : ℚ) < 2 ^ 53 * step := by exact_mod_cast below
  rw [abs_lt] at close
  push_cast at quotient
  linarith

include positive

theorem le_of_close : units ≤ Nat.pow 2 (53 + spacing (numerator / denominator)) := by
  by_contra beyond
  rw [not_le] at beyond
  have finer : spacing (numerator / denominator) < spacing units := by
    have powers := beyond.trans (lt_spacing units)
    exact Nat.lt_of_add_lt_add_left ((Nat.pow_lt_pow_iff_right (by decide)).mp powers)
  have twice : Nat.pow 2 (spacing (numerator / denominator) + 1) ∣ units :=
    (Nat.pow_dvd_pow 2 finer).trans spaced
  have apart : Nat.pow 2 (53 + spacing (numerator / denominator)) +
      Nat.pow 2 (spacing (numerator / denominator) + 1) ≤ units :=
    add_step_le (Nat.pow_dvd_pow 2 (by omega)) twice beyond
  have quotient : (numerator : ℚ) / denominator <
      Nat.pow 2 (53 + spacing (numerator / denominator)) := by
    refine (quotient_lt numerator positive).trans_le ?_
    exact_mod_cast lt_spacing (numerator / denominator)
  rw [← powers_mul, ← powers_mul] at apart
  rw [← powers_mul] at quotient
  have wide : 0 < Nat.pow 2 (spacing (numerator / denominator)) := Nat.pow_pos (by decide)
  generalize Nat.pow 2 (spacing (numerator / denominator)) = step at apart quotient wide
  have apart : (2 : ℚ) ^ 53 * step + step * 2 ≤ units := by exact_mod_cast apart
  have wide : (0 : ℚ) < step := by exact_mod_cast wide
  rw [abs_lt] at close
  push_cast at quotient
  linarith

/-- A quotient within one part in `2 ^ 54` of a number of the format is rounded to that number. -/
theorem nearestUnits_of_close : nearestUnits numerator denominator = units := by
  have multiple : Nat.pow 2 (spacing (numerator / denominator)) ∣ units :=
    (Nat.pow_dvd_pow 2 (spacing_le_of_close spaced close)).trans spaced
  have rounded : Nat.pow 2 (spacing (numerator / denominator)) ∣
      nearestUnits numerator denominator := Nat.dvd_mul_left _ _
  have few := le_of_close positive spaced close
  have near := abs_le.mp (nearestUnits_near numerator positive)
  rw [← powers_mul] at few
  generalize nearestUnits numerator denominator = nearest at rounded near ⊢
  generalize Nat.pow 2 (spacing (numerator / denominator)) = step at multiple rounded few near
  have few : (units : ℚ) ≤ 2 ^ 53 * step := by exact_mod_cast few
  rw [abs_lt] at close
  rcases Nat.lt_trichotomy nearest units with less | same | more
  · have apart : (nearest : ℚ) + step ≤ units := by exact_mod_cast add_step_le rounded multiple less
    linarith
  · exact same
  · have apart : (units : ℚ) + step ≤ nearest := by exact_mod_cast add_step_le multiple rounded more
    linarith

end

end Binary64
namespace Magnitude

open Binary64 (normal one)

variable {m : Magnitude} {d e : Decimal}

/-! ## Decimals that read as a magnitude -/

theorem point_bounds (large : normal ≤ m.units) : -340 ≤ m.point ∧ m.point ≤ 310 := by
  -- As variables the numbers of digits keep their powers from being evaluated.
  obtain ⟨most, lastMost⟩ : ∃ most : Nat, most = 308 := ⟨_, rfl⟩
  obtain ⟨least, lastLeast⟩ : ∃ least : Nat, least = 340 := ⟨_, rfl⟩
  obtain ⟨low, high⟩ := toRat_point large
  constructor
  · by_contra beyond
    have small : (10 : ℚ) ^ m.point ≤ 10 ^ (-(least : Int)) :=
      zpow_le_zpow_right₀ (by norm_num) (by omega)
    have units : (one : ℚ) ≤ m.units * 10 ^ least := by
      exact_mod_cast (one_le_scaled lastLeast).trans (Nat.mul_le_mul_right _ large)
    rw [zpow_neg, zpow_natCast] at small
    have value := high.trans_le small
    rw [toRat, div_lt_iff₀ one_rat_pos, inv_mul_eq_div, lt_div_iff₀ (by positivity)] at value
    linarith
  · by_contra beyond
    have huge : (10 : ℚ) ^ (((most + 2 : Nat)) : Int) ≤ 10 ^ (m.point - 1) :=
      zpow_le_zpow_right₀ (by norm_num) (by omega)
    have bounded : (m.units : ℚ) < Binary64.limit := by exact_mod_cast m.bounded
    have limit : ((2 * Binary64.limit : Nat) : ℚ) < (100 * (10 ^ most * one) : Nat) := by
      exact_mod_cast twice_limit_lt lastMost
    have value := huge.trans low
    rw [toRat, le_div_iff₀ one_rat_pos, zpow_natCast, pow_add] at value
    push_cast at limit
    have power : (0 : ℚ) < 10 ^ most * one := mul_pos (by positivity) one_rat_pos
    linarith

/-- A decimal not far from a magnitude is neither cut off as too small nor as too large. -/
theorem reads_of_units (large : normal ≤ m.units) (close : |m.toRat - e.toRat| ≤ m.toRat / 2)
    (units : Binary64.nearestUnits (ratio e).1 (ratio e).2 = m.units) :
    ofDecimal? e = some m := by
  obtain ⟨least, most⟩ := point_bounds large
  obtain ⟨low, high⟩ := toRat_point large
  rw [abs_le] at close
  have power := ten_zpow_pos m.point
  have first : (10 : ℚ) ^ (m.point - 1) = 10 ^ m.point / 10 := zpow_sub_one₀ (by norm_num) _
  have second : (10 : ℚ) ^ (m.point - 2) = 10 ^ m.point / 100 := by
    rw [zpow_sub₀ (by norm_num)]
    norm_num
  have next : (10 : ℚ) ^ (m.point + 1) = 10 ^ m.point * 10 := zpow_add_one₀ (by norm_num) _
  have nonzero : e.coefficient ≠ 0 := Decimal.toRat_pos.mp (by linarith)
  have above : ¬ e.point ≤ m.point - 2 := by
    rw [Decimal.point_le_iff nonzero]
    linarith
  have below : e.point ≤ m.point + 1 := by
    rw [Decimal.point_le_iff nonzero]
    linarith
  have bounded : Binary64.nearestUnits (ratio e).1 (ratio e).2 < Binary64.limit :=
    units ▸ m.bounded
  rw [ofDecimal?, if_neg (by omega), if_neg (by omega), nearest?, dif_pos bounded]
  exact congrArg some (eq_of_units units)

theorem units_eq (m : Magnitude) : (m.units : ℚ) = m.toRat * one :=
  (div_mul_cancel₀ _ one_rat_pos.ne').symm

theorem ratio_pos (d : Decimal) : 0 < (ratio d).2 :=
  Nat.pow_pos (by decide)

theorem reads_of_close (large : normal ≤ m.units)
    (close : |m.toRat - e.toRat| < m.toRat / 2 ^ 54) : ofDecimal? e = some m := by
  refine reads_of_units large (close.le.trans ?_)
    (Binary64.nearestUnits_of_close (ratio_pos e) m.spaced ?_)
  · exact div_le_div_of_nonneg_left (div_nonneg (Nat.cast_nonneg _) one_rat_pos.le) (by norm_num)
      (by norm_num)
  · rw [ratio_eq, units_eq, ← sub_mul, abs_mul, abs_of_pos one_rat_pos, mul_div_right_comm]
    exact mul_lt_mul_of_pos_right close one_rat_pos

/-- Between two decimals that read as a magnitude, every decimal reads as it. -/
theorem reads_of_between {c : Decimal} (low : ofDecimal? c = some m)
    (high : ofDecimal? d = some m) (large : normal ≤ m.units) (above : c.toRat ≤ e.toRat)
    (below : e.toRat ≤ d.toRat) : ofDecimal? e = some m := by
  have value : 0 ≤ m.toRat := div_nonneg (Nat.cast_nonneg _) one_rat_pos.le
  have least := (abs_le.mp (near_of_reads low large)).2
  have most := (abs_le.mp (near_of_reads high large)).1
  have ordered {a b : Decimal} (less : a.toRat ≤ b.toRat) :
      Binary64.nearestUnits (ratio a).1 (ratio a).2 ≤
        Binary64.nearestUnits (ratio b).1 (ratio b).2 := by
    refine Binary64.nearestUnits_mono (ratio_pos a) (ratio_pos b) ?_
    rw [ratio_eq, ratio_eq]
    exact mul_le_mul_of_nonneg_right less one_rat_pos.le
  refine reads_of_units large (abs_le.mpr ⟨by linarith, by linarith⟩) (Nat.le_antisymm ?_ ?_)
  · rw [units_of_reads high (Or.inl (normal_ne_zero large))]
    exact ordered below
  · rw [units_of_reads low (Or.inl (normal_ne_zero large))]
    exact ordered above

theorem toRat_exact (m : Magnitude) : m.exact.toRat = m.toRat := by
  unfold exact
  generalize last : 1074 = places
  generalize moved : (-1074 : Int) = place
  obtain rfl : place = -places := by omega
  have unit : ((Nat.pow 5 places : Nat) : ℚ) * one = 10 ^ places := by
    exact_mod_cast (place_powers last.symm).1
  rw [Decimal.toRat_scaled, toRat, zpow_neg, zpow_natCast, ← unit, Nat.cast_mul, mul_inv,
    ← mul_assoc, mul_inv_cancel_right₀, div_eq_mul_inv]
  exact Nat.cast_ne_zero.mpr (Nat.pow_pos (by decide)).ne'

/-- A decimal with few digits, all of them not far behind the point, is within the range. -/
theorem exists_reads_of_few (nonzero : d.coefficient ≠ 0) (few : d.digits.length ≤ 15)
    (fraction : d.exponent ≤ 0) (near : -300 ≤ d.exponent) : ∃ m, ofDecimal? d = some m := by
  have small : d.coefficient * 10 ^ d.exponent.toNat < 10 ^ (308 + d.places) := by
    rw [Decimal.digits, if_neg nonzero] at few
    rw [← Decimal.length_toDigits_add_le_iff nonzero]
    omega
  have point : d.point = d.digits.length + d.exponent := rfl
  rw [ofDecimal?, if_neg (by omega), if_neg (by omega), nearest?,
    dif_pos (Binary64.nearestUnits_lt_limit (Binary64.ratio_lt small))]
  exact ⟨_, rfl⟩

/-! ## Grids with a hit -/

/-- A grid with any decimal that reads as a magnitude has one next to the magnitude. -/
theorem onGrid?_isSome_of_reads {k : Nat} {place : Int} (large : normal ≤ m.units)
    (reads : ofDecimal? (scaled k place) = some m) : (m.onGrid? place).isSome := by
  have exact := ofDecimal?_exact (normal_ne_zero large)
  have step := ten_zpow_pos place
  obtain ⟨least, most⟩ := m.multiples_range place
  have ordered {i j : Nat} (less : i ≤ j) : (scaled i place).toRat ≤ (scaled j place).toRat := by
    rw [Decimal.toRat_scaled, Decimal.toRat_scaled]
    exact mul_le_mul_of_nonneg_right (Nat.cast_le.mpr less) step.le
  rw [← toRat_exact, ← Decimal.toRat_scaled] at least most
  rcases Nat.lt_or_ge (m.multiples place) k with above | below
  · exact onGrid?_isSome (reads_of_between exact reads large most.le (ordered above)) (Or.inr rfl)
  · exact onGrid?_isSome (reads_of_between reads exact large (ordered below) least) (Or.inl rfl)

/-- On the grid of seventeen digits the nearer neighbour always reads as the magnitude. -/
theorem onGrid?_seventeen (large : normal ≤ m.units) : (m.onGrid? (m.point - 17)).isSome := by
  obtain ⟨least, most⟩ := m.multiples_range (m.point - 17)
  have step := ten_zpow_pos (m.point - 17)
  have digits : (10 : ℚ) ^ (m.point - 1) = 10 ^ (m.point - 17) * 10 ^ 16 := by
    rw [← zpow_natCast, ← zpow_add₀ (by norm_num)]
    congr 1
    omega
  have size := (toRat_point large).1
  rw [digits] at size
  rw [← Decimal.toRat_scaled] at least most
  have apart : (scaled (m.multiples (m.point - 17) + 1) (m.point - 17)).toRat =
      (scaled (m.multiples (m.point - 17)) (m.point - 17)).toRat + 10 ^ (m.point - 17) := by
    rw [Decimal.toRat_scaled, Decimal.toRat_scaled]
    push_cast
    ring
  norm_num at size
  rcases le_or_gt (2 * (m.toRat - (scaled (m.multiples (m.point - 17)) (m.point - 17)).toRat))
    (10 ^ (m.point - 17)) with nearer | farther
  · refine onGrid?_isSome (reads_of_close large ?_) (Or.inl rfl)
    rw [abs_of_nonneg (by linarith)]
    linarith
  · refine onGrid?_isSome (reads_of_close large ?_) (Or.inr rfl)
    rw [abs_of_neg (by linarith)]
    linarith

/-- A decimal that reads as a magnitude has no fewer decimals than the shortest one. -/
theorem exponent_le_shortest (reads : ofDecimal? d = some m) (large : normal ≤ m.units) :
    d.exponent ≤ m.shortest.exponent := by
  have nonzero := nonzero_of_reads reads (normal_ne_zero large)
  rcases le_or_gt (m.point - 15) d.exponent with coarse | fine
  · exact (congrArg Decimal.exponent (shortest_of_coarse reads large nonzero coarse)).ge
  · obtain ⟨digits, few, ends, hit⟩ : ∃ digits : Nat, digits < 17 ∧
        d.exponent ≤ m.point - (digits + 1 : Nat) ∧
        (m.onGrid? (m.point - (digits + 1 : Nat))).isSome := by
      rcases le_or_gt (m.point - 16) d.exponent with sixteen | seventeen
      · obtain ⟨k, same⟩ := Decimal.exists_scaled_of_exponent nonzero sixteen
        exact ⟨15, by decide, by omega, onGrid?_isSome_of_reads large (same ▸ reads)⟩
      · exact ⟨16, by decide, by omega, onGrid?_seventeen large⟩
    obtain ⟨place, coarser, found⟩ := onGrid?_shortest few (normal_ne_zero large) hit
    obtain ⟨k, same⟩ := exists_scaled_of_onGrid? found
    have kept := nonzero_of_reads (ofDecimal?_shortest m) (normal_ne_zero large)
    rw [same] at kept ⊢
    exact ends.trans (coarser.trans (Decimal.le_exponent_scaled kept))

end Magnitude

namespace Binary64

/-! ## Decimals of written numbers -/

section

variable {whole fraction : List Char}

theorem decimalOf_eq (whole fraction : List Char) :
    decimalOf whole fraction 0 =
      scaled (Nat.ofDigitChars 10 (whole ++ fraction) 0) (-(fraction.length : Int)) := by
  rw [decimalOf, Int.zero_sub]

variable (few : fraction.length ≤ 300)

include few

/-- A written number other than nought is no smaller than its last place. -/
theorem normal_written {m : Magnitude}
    (reads : Magnitude.ofDecimal? (decimalOf whole fraction 0) = some m)
    (nonzero : (decimalOf whole fraction 0).coefficient ≠ 0) : normal ≤ m.units := by
  refine Magnitude.normal_of_large reads nonzero ?_
  rw [decimalOf_eq] at nonzero ⊢
  have last := Decimal.le_exponent_scaled nonzero
  rw [Decimal.point]
  omega

/-- A written number needs no more decimals than it is written with. -/
theorem fractionPlaces_written_le :
    (ofDecimal false (decimalOf whole fraction 0)).fractionPlaces ≤ fraction.length := by
  rw [ofDecimal]
  cases reads : Magnitude.ofDecimal? (decimalOf whole fraction 0) with
  | none => exact Nat.zero_le _
  | some m =>
      change m.shortest.places ≤ _
      by_cases zero : m.units = 0
      · have nought : m.shortest = Decimal.zero := by
          rw [Magnitude.shortest, Magnitude.isZero, zero, beq_self_eq_true, if_pos rfl]
        rw [nought]
        exact Nat.zero_le _
      · have nonzero := Magnitude.nonzero_of_reads reads zero
        have least := Magnitude.exponent_le_shortest reads (normal_written few reads nonzero)
        rw [decimalOf_eq] at nonzero least
        have last := Decimal.le_exponent_scaled nonzero
        rw [Decimal.places]
        omega

/-- A written number is nought only if all its digits are zeros. -/
theorem isPositive_written (digits : Digits (whole ++ fraction)) :
    (ofDecimal false (decimalOf whole fraction 0)).isPositive = true ↔
      ∃ c ∈ whole ++ fraction, c ≠ '0' := by
  have zeros := Decimal.ofDigitChars_eq_zero digits
  rw [ofDecimal, isPositive_signed]
  constructor
  · intro positive
    by_contra none
    push Not at none
    have nought : decimalOf whole fraction 0 = Decimal.zero := by
      rw [decimalOf_eq, zeros.mpr none]
      rfl
    rw [nought, Magnitude.ofDecimal?_zero] at positive
    exact positive _ rfl rfl
  · rintro ⟨c, member, other⟩ m reads
    have nonzero : Nat.ofDigitChars 10 (whole ++ fraction) 0 ≠ 0 :=
      fun nought => other (zeros.mp nought c member)
    obtain ⟨_, _, _, coefficient⟩ := Decimal.value_scaled (-(fraction.length : Int)) nonzero
    exact Magnitude.normal_ne_zero (normal_written few reads (by rwa [decimalOf_eq]))

/-- A written number that does not end in a zero needs all its decimals, if its digits are few. -/
theorem fractionPlaces_written_eq (digits : Digits (whole ++ fraction))
    (ends : fraction.getLast? ≠ some '0')
    (short : ((whole ++ fraction).dropWhile (· == '0')).length ≤ 15) :
    (ofDecimal false (decimalOf whole fraction 0)).fractionPlaces = fraction.length := by
  refine Nat.le_antisymm (fractionPlaces_written_le few) ?_
  cases last : fraction.getLast? with
  | none =>
      rw [List.getLast?_eq_none_iff.mp last]
      exact Nat.zero_le _
  | some c =>
      have lowest : Nat.ofDigitChars 10 (whole ++ fraction) 0 % 10 ≠ 0 := by
        have lastOfAll : (whole ++ fraction).getLast? = some c := by
          rw [List.getLast?_append, last, Option.some_or]
        exact Decimal.ofDigitChars_mod digits lastOfAll (fun zero => ends (zero ▸ last))
      have small : Nat.ofDigitChars 10 (whole ++ fraction) 0 < 10 ^ 15 := by
        rw [← Decimal.ofDigitChars_dropWhile]
        refine (Decimal.ofDigitChars_lt fun c member =>
          digits c ((List.dropWhile_sublist _).subset member)).trans_le ?_
        exact Nat.pow_le_pow_right (by decide) short
      rw [decimalOf_eq]
      generalize Nat.ofDigitChars 10 (whole ++ fraction) 0 = n at lowest small
      have nonzero : n ≠ 0 := by
        rintro rfl
        exact lowest rfl
      obtain ⟨d, coefficient, exponent⟩ : ∃ d : Decimal, d.coefficient = n ∧
          d.exponent = -(fraction.length : Int) := ⟨⟨n, _, Or.inl lowest⟩, rfl, rfl⟩
      subst coefficient
      have same : scaled d.coefficient (-(fraction.length : Int)) = d :=
        Decimal.scaled_of_value (k := 0) nonzero (Nat.mul_one _).symm (by omega)
      have short : d.digits.length ≤ 15 := by
        rw [Decimal.digits, if_neg nonzero]
        exact (Decimal.length_toDigits_add_le_iff nonzero 0 15).mpr (by omega)
      obtain ⟨m, reads⟩ := Magnitude.exists_reads_of_few nonzero short (by omega) (by omega)
      have large := Magnitude.normal_of_large reads nonzero (by rw [Decimal.point]; omega)
      rw [same, ofDecimal, reads]
      change _ ≤ m.shortest.places
      rw [Magnitude.shortest_of_reads reads large nonzero short, Decimal.places, exponent]
      omega

end

end Binary64
end NumberFormat
