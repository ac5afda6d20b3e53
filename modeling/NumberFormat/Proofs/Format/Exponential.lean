import NumberFormat.Proofs.Format.Monotone

namespace NumberFormat

open Binary64 (Digits)
open Decimal (pointed ten_zpow_pos)

/-!
Numbers with a power of ten split off are normalized and rounded once.

The power that is split off is that of the number itself, so the digits before the point are as many
as the step of the notation allows.  Rounding may carry the mantissa to the next step exactly, and
then the mantissa becomes one; it is never rounded a second time to another number.
-/

/-! ## Correct rounding -/

/-- The nearest multiple of a unit, a half going up. -/
def nearestMultiple (unit x : ℚ) : ℚ :=
  round (x / unit) * unit

/-- A number rounded to as many significant digits, counted from the first digit that it has. -/
def RoundsToDigits (digits : Nat) (x y : ℚ) : Prop :=
  ∃ point : Int, 10 ^ (point - 1) ≤ x ∧ x < 10 ^ point ∧
    y = nearestMultiple (10 ^ (point - digits)) x

namespace Rounding

/-- What it means that a number above zero is rounded correctly to another one. -/
def RoundsTo : Rounding → ℚ → ℚ → Prop
  | fraction _ maximum, x, y => y = nearestMultiple (10 ^ (-(maximum : Int))) x
  | significant _ maximum, x, y => RoundsToDigits maximum x y
  | compact, x, y =>
      x < 100 ∧ RoundsToDigits 2 x y ∨ 100 ≤ x ∧ y = nearestMultiple 1 x

theorem roundsToDigits_roundSignificant {d : Decimal} (nonzero : d.coefficient ≠ 0)
    (digits : Nat) : RoundsToDigits digits d.toRat (d.roundSignificant digits).toRat :=
  ⟨d.point, Decimal.power_le_toRat nonzero (by omega), Decimal.toRat_lt_point nonzero,
    d.toRat_roundAt _⟩

theorem roundsTo_round (rounding : Rounding) {d : Decimal} (nonzero : d.coefficient ≠ 0) :
    rounding.RoundsTo d.toRat (rounding.round d).toRat := by
  cases rounding with
  | fraction minimum maximum => exact d.toRat_roundAt _
  | significant minimum maximum => exact roundsToDigits_roundSignificant nonzero maximum
  | compact =>
      have hundred : d.point ≤ 2 ↔ d.toRat < 100 := by
        rw [Decimal.point_le_iff nonzero]
        norm_num
      rw [round]
      split
      · rename_i small
        exact Or.inl ⟨hundred.mp small, roundsToDigits_roundSignificant nonzero 2⟩
      · rename_i large
        refine Or.inr ⟨le_of_not_gt (mt hundred.mpr large), ?_⟩
        rw [Decimal.roundFraction, Decimal.toRat_roundAt, Nat.cast_zero, neg_zero, zpow_zero]
        rfl

/-- A number from one up is not rounded below one. -/
theorem one_le_toRat_round {rounding : Rounding} (sound : rounding.Sound) {d : Decimal}
    (nonzero : d.coefficient ≠ 0) (large : 1 ≤ d.point) : 1 ≤ (rounding.round d).toRat := by
  have fine := place_lt sound d.point
  have first : (1 : ℚ) ≤ 10 ^ (d.point - 1) := one_le_zpow₀ (by norm_num) (by omega)
  rw [round_eq]
  exact first.trans
    (Decimal.le_toRat_roundAt (by omega) (Decimal.power_le_toRat nonzero (by omega)))

end Rounding

namespace Format

/-! ## Mantissas and powers of ten -/

/--
What it means that a mantissa times a power of ten is a number in normal form: the power is a
multiple of the step, the mantissa has no more digits before its point than the step, and both
together are the number, rounded as its own mantissa asks before anything is carried.
-/
structure Normalized (rounding : Rounding) (step : Nat) (x mantissa : ℚ) (power : Int) :
    Prop where
  multiple : (step : Int) ∣ power
  zero : x = 0 → mantissa = 0 ∧ power = 0
  range : x ≠ 0 → 1 ≤ mantissa ∧ mantissa < 10 ^ step
  rounded : x ≠ 0 → ∃ first : Int, (step : Int) ∣ first ∧
    10 ^ first ≤ x ∧ x < 10 ^ (first + step) ∧
    rounding.RoundsTo (x / 10 ^ first) (mantissa * 10 ^ power / 10 ^ first)

variable {rule : DigitRule} {step : Nat} {d : Decimal}

theorem exponential_zero (rule : DigitRule) (positive : 0 < step) (zero : d.coefficient = 0) :
    (exponential rule step d).mantissa.toRat = 0 ∧ (exponential rule step d).power = 0 := by
  have none : d.leadingExponent = 0 := Decimal.leadingExponent_of_zero zero
  have rounded : (rule.round (d.shift (-(0 : Int)))).toRat = 0 :=
    Rounding.toRat_round_zero ((d.coefficient_shift _).trans zero)
  have still : (rule.round (d.shift (-(0 : Int)))).leadingExponent = 0 :=
    Decimal.leadingExponent_of_zero (Decimal.toRat_eq_zero.mp rounded)
  unfold exponential
  dsimp only
  rw [none, Int.zero_ediv, Int.zero_mul, still, if_neg (by omega)]
  exact ⟨rounded, rfl⟩

/-- The position of the point once the power of the number itself has been split off. -/
theorem point_split (positive : 0 < step) (nonzero : d.coefficient ≠ 0) :
    1 ≤ (d.shift (-exponentOf step d.point)).point ∧
      (d.shift (-exponentOf step d.point)).point ≤ step := by
  have bounds := exponentOf_lt positive d.point
  rw [Decimal.point_shift nonzero]
  omega

theorem power_of_leadingExponent (nonzero : d.coefficient ≠ 0) :
    d.leadingExponent / step * step = exponentOf step d.point := by
  rw [Decimal.leadingExponent_of_nonzero nonzero, exponentOf]

theorem range_exponential (sound : rule.rounding.Sound) (positive : 0 < step)
    (nonzero : d.coefficient ≠ 0) :
    1 ≤ (exponential rule step d).mantissa.toRat ∧
      (exponential rule step d).mantissa.toRat < 10 ^ step := by
  have split := point_split positive nonzero
  have kept := (d.coefficient_shift (-exponentOf step d.point)).trans_ne nonzero
  have least := Rounding.one_le_toRat_round sound kept split.1
  unfold exponential
  dsimp only
  rw [power_of_leadingExponent nonzero]
  split
  · rename_i carried
    have value := Rounding.toRat_round_carried sound (by omega) (Or.inr split.2) carried
    have again : (rule.round ((rule.round (d.shift (-exponentOf step d.point))).shift
        (-(step : Int)))).toRat = 1 := Rounding.toRat_round_again sound value
    rw [again]
    exact ⟨le_rfl, one_lt_pow₀ (by norm_num) positive.ne'⟩
  · rename_i small
    have some : (rule.round (d.shift (-exponentOf step d.point))).coefficient ≠ 0 :=
      Decimal.toRat_pos.mp (zero_lt_one.trans_le least)
    rw [Decimal.leadingExponent_of_nonzero some, not_le] at small
    refine ⟨least, ?_⟩
    rw [← zpow_natCast, ← Decimal.point_le_iff some]
    omega

theorem dvd_power_exponential (rule : DigitRule) (step : Nat) (d : Decimal) :
    (step : Int) ∣ (exponential rule step d).power := by
  unfold exponential
  dsimp only
  split
  · exact Int.dvd_add (Int.dvd_mul_left _ _) (Int.dvd_refl _)
  · exact Int.dvd_mul_left _ _

/-- The mantissa and the power that are split off make a normal form of the rounded number. -/
theorem normalized_exponential (sound : rule.rounding.Sound) (positive : 0 < step) (d : Decimal) :
    Normalized rule.rounding step d.toRat (exponential rule step d).mantissa.toRat
      (exponential rule step d).power where
  multiple := dvd_power_exponential rule step d
  zero := fun zero => exponential_zero rule positive (Decimal.toRat_eq_zero.mp zero)
  range := fun nonzero => range_exponential sound positive (mt Decimal.toRat_eq_zero.mpr nonzero)
  rounded := by
    intro nonzero
    have nonzero := mt Decimal.toRat_eq_zero.mpr nonzero
    have bounds := exponentOf_lt positive d.point
    have unit : (10 : ℚ) ^ exponentOf step d.point ≠ 0 := (ten_zpow_pos _).ne'
    have own : d.toRat / 10 ^ exponentOf step d.point =
        (d.shift (-exponentOf step d.point)).toRat := by
      rw [Decimal.toRat_shift, zpow_neg, div_eq_mul_inv]
    refine ⟨exponentOf step d.point, Int.dvd_mul_left _ _,
      Decimal.power_le_toRat nonzero bounds.1, (Decimal.point_le_iff nonzero _).mp bounds.2, ?_⟩
    rw [toRat_exponential sound positive nonzero, mul_div_cancel_right₀ _ unit, own]
    exact Rounding.roundsTo_round _ ((d.coefficient_shift _).trans_ne nonzero)

/--
Scientific notation splits off single powers of ten and engineering notation three at a time.  The
mantissa has at most so many digits before its point, carried or not, the power is a multiple of
the step, and their product is the number correctly rounded.  The power stands behind its symbol in
ordinary digits, with a minus only below zero.
-/
theorem showExponential_normalized (sound : rule.rounding.Sound) (positive : 0 < step)
    (locale : Locale) (d : Decimal) :
    ∃ whole fraction power,
      (showExponential locale rule step d).text =
        whole ++ pointed locale.decimalPoint fraction ++ (locale.exponentSymbol.toList ++
          (if power < 0 then locale.minusSign.toList else []) ++ Nat.toDigits 10 power.natAbs) ∧
      whole ≠ [] ∧ Digits whole ∧ Digits fraction ∧
      Normalized rule.rounding step d.toRat
        ((Nat.ofDigitChars 10 (whole ++ fraction) 0 : ℚ) / 10 ^ fraction.length) power := by
  have normalized := normalized_exponential sound positive d
  rw [← (exponential rule step d).mantissa.ofDigitChars_rendered rule.minimumWhole
    (rule.rounding.minimumFraction (exponential rule step d).mantissa)] at normalized
  exact ⟨_, _, _, congrArg (· ++ exponentText locale (exponential rule step d).power)
    (digitText_eq locale rule false (exponential rule step d).mantissa),
    Decimal.wholeDigits_ne_nil _ _, Decimal.digits_wholeDigits _ _,
    Decimal.digits_fractionDigits _ _, normalized⟩

/-- A carry takes 0.0009999996 from the millionths to the thousandths. -/
theorem showExponential_normalized_thousandth :
    (⟨1, .fraction 0 3⟩ : DigitRule).rounding.Sound ∧ 0 < 3 ∧
      ∃ whole fraction power,
        "1E-3".toList = whole ++ pointed Locale.standard.decimalPoint fraction ++
          (Locale.standard.exponentSymbol.toList ++
            (if power < 0 then Locale.standard.minusSign.toList else []) ++
            Nat.toDigits 10 power.natAbs) ∧
        whole ≠ [] ∧ Digits whole ∧ Digits fraction ∧
        Normalized (.fraction 0 3) 3 (Decimal.scaled 9999996 (-10)).toRat
          ((Nat.ofDigitChars 10 (whole ++ fraction) 0 : ℚ) / 10 ^ fraction.length) power := by
  have sound : (⟨1, .fraction 0 3⟩ : DigitRule).rounding.Sound := trivial
  have engineering : 0 < 3 := by decide
  have shown := showExponential_normalized sound engineering Locale.standard
    (Decimal.scaled 9999996 (-10))
  have text : (showExponential Locale.standard ⟨1, .fraction 0 3⟩ 3
      (Decimal.scaled 9999996 (-10))).text = "1E-3".toList := by decide +kernel
  rw [text] at shown
  exact ⟨sound, engineering, shown⟩

end Format
end NumberFormat
