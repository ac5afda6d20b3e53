import NumberFormat.Proofs.Decimal.Canonical

namespace NumberFormat

/-!
Decimals within the range of the format.

No whole number above nought is so small that the nearest number of the format is nought, and no
number with 308 digits before the point is beyond the format.
-/

namespace Binary64

theorem one_pos : 0 < one := by
  decide +kernel

/-- A quotient of one unit or more is not rounded down to nought. -/
theorem nearestUnits_pos {numerator denominator : Nat} (large : 0 < numerator / denominator) :
    0 < nearestUnits numerator denominator := by
  have step : Nat.pow 2 (spacing (numerator / denominator)) ≤ numerator / denominator :=
    Nat.le_trans (Nat.pow_le_pow_right (by decide) (Nat.sub_le _ _))
      (Nat.log2_self_le (Nat.ne_of_gt large))
  have steps : 0 < numerator / (denominator * Nat.pow 2 (spacing (numerator / denominator))) := by
    rw [← Nat.div_div_eq_div_mul]
    exact Nat.div_pos step (Nat.pow_pos (by decide))
  have rounded : 0 < divideHalfEven numerator
      (denominator * Nat.pow 2 (spacing (numerator / denominator))) := by
    unfold divideHalfEven
    dsimp only
    split <;> omega
  exact Nat.mul_pos rounded (Nat.pow_pos (by decide))

theorem isPositive_signed (size : Option Magnitude) :
    (signed false size).isPositive = true ↔ ∀ m ∈ size, m.units ≠ 0 := by
  cases size with
  | none => simp [signed, isPositive]
  | some m => simp [signed, isPositive, Magnitude.isZero]

theorem units_of_mem_nearest? {numerator denominator : Nat} {m : Magnitude}
    (found : m ∈ Magnitude.nearest? numerator denominator) :
    m.units = nearestUnits numerator denominator := by
  unfold Magnitude.nearest? at found
  split at found
  · cases found
    rfl
  · cases found

/-- A whole number is above nought in the format exactly if it is above nought. -/
theorem isPositive_ofDecimal_whole (n : Nat) :
    (ofDecimal false (Decimal.scaled n 0)).isPositive = true ↔ n ≠ 0 := by
  by_cases nought : n = 0
  · subst nought
    decide +kernel
  refine iff_of_true ?_ nought
  rcases Decimal.value_scaled 0 nought with ⟨k, value, exponent, nonzero⟩
  rw [Int.zero_add] at exponent
  generalize Decimal.scaled n 0 = d at value exponent nonzero
  have places : d.places = 0 := by
    rw [Decimal.places, exponent]
    omega
  have point : 0 ≤ d.point := by
    rw [Decimal.point, exponent]
    omega
  rw [ofDecimal, isPositive_signed]
  intro m found
  unfold Magnitude.ofDecimal? at found
  split at found
  · cases found
  · split at found
    · omega
    · rw [units_of_mem_nearest? found]
      have whole : (Magnitude.ratio d).1 / (Magnitude.ratio d).2 =
          d.coefficient * Nat.pow 10 d.exponent.toNat * one := by
        rw [Magnitude.ratio, places]
        exact Nat.div_one _
      apply Nat.ne_of_gt
      apply nearestUnits_pos
      rw [whole]
      exact Nat.mul_pos (Nat.mul_pos (Nat.pos_of_ne_zero nonzero) (Nat.pow_pos (by decide)))
        one_pos

/-! ## Large numbers -/

theorem le_divideHalfEven_mul (numerator : Nat) {denominator step : Nat} :
    divideHalfEven numerator (denominator * step) * step ≤ numerator / denominator + step := by
  calc
    divideHalfEven numerator (denominator * step) * step ≤
        (numerator / (denominator * step) + 1) * step :=
      Nat.mul_le_mul_right _ (divideHalfEven_le _ _)
    _ = numerator / denominator / step * step + step := by
      rw [Nat.add_mul, Nat.one_mul, Nat.div_div_eq_div_mul]
    _ ≤ numerator / denominator + step := Nat.add_le_add_right (Nat.div_mul_le_self _ _) _

/-- Below `10 ^ 308` there is a number of the format nearby. -/
theorem nearestUnits_lt_limit {numerator denominator : Nat}
    (below : numerator / denominator < 10 ^ 308 * one) :
    nearestUnits numerator denominator < limit := by
  -- Rounding adds one step at most, and below the limit no step is too wide.
  have within : 10 ^ 308 * one + Nat.pow 2 (spacing limit) ≤ limit := by decide +kernel
  have inside : numerator / denominator ≤ limit :=
    Nat.le_trans (Nat.le_of_lt below) (Nat.le_trans (Nat.le_add_right _ _) within)
  have grows {m n : Nat} (smaller : m ≤ n) : Nat.pow 2 m ≤ Nat.pow 2 n :=
    Nat.pow_le_pow_right (by decide) smaller
  have step : Nat.pow 2 (spacing (numerator / denominator)) ≤ Nat.pow 2 (spacing limit) :=
    grows (spacing_mono inside)
  exact Nat.lt_of_le_of_lt (le_divideHalfEven_mul _)
    (Nat.lt_of_lt_of_le (Nat.add_lt_add_of_lt_of_le below step) within)

theorem ratio_lt {d : Decimal} {bound : Nat}
    (below : d.coefficient * 10 ^ d.exponent.toNat < 10 ^ (bound + d.places)) :
    (Magnitude.ratio d).1 / (Magnitude.ratio d).2 < 10 ^ bound * one := by
  refine Nat.div_lt_of_lt_mul ?_
  calc
    d.coefficient * 10 ^ d.exponent.toNat * one < 10 ^ (bound + d.places) * one :=
      Nat.mul_lt_mul_of_pos_right below one_pos
    _ = 10 ^ d.places * (10 ^ bound * one) := by
      rw [Nat.pow_add, Nat.mul_assoc, Nat.mul_left_comm]

/-- A written number with 308 digits at most before the point is no infinity. -/
theorem isFinite_ofDecimal_written {whole fraction : List Char}
    (digits : ∀ c ∈ whole ++ fraction, c.isDigit = true) (few : whole.length ≤ 308) :
    (ofDecimal false (decimalOf whole fraction 0)).isFinite = true := by
  rw [decimalOf]
  generalize coefficient : Nat.ofDigitChars 10 (whole ++ fraction) 0 = n
  have below : n < 10 ^ (308 + fraction.length) := by
    rw [← coefficient]
    refine Nat.lt_of_lt_of_le (Decimal.ofDigitChars_lt digits) (Nat.pow_le_pow_right (by decide) ?_)
    rw [List.length_append]
    omega
  by_cases nought : n = 0
  · have zero : Decimal.scaled n (0 - (fraction.length : Int)) = Decimal.zero := dif_pos nought
    rw [zero]
    decide +kernel
  rcases Decimal.value_scaled (0 - (fraction.length : Int)) nought with
    ⟨k, value, exponent, nonzero⟩
  generalize Decimal.scaled n (0 - (fraction.length : Int)) = d at value exponent nonzero
  have fits : (Nat.toDigits 10 d.coefficient).length + k ≤ 308 + fraction.length := by
    rw [Decimal.length_toDigits_add_le_iff nonzero, value]
    exact below
  have point : d.point = (Nat.toDigits 10 d.coefficient).length + d.exponent := by
    rw [Decimal.point, Decimal.digits, if_neg nonzero]
  have shown : d.coefficient * 10 ^ d.exponent.toNat < 10 ^ (308 + d.places) := by
    rw [← Decimal.length_toDigits_add_le_iff nonzero, Decimal.places]
    omega
  have size := ratio_lt shown
  have found : ∃ m, Magnitude.ofDecimal? d = some m := by
    unfold Magnitude.ofDecimal? Magnitude.nearest?
    rw [if_neg (by omega), dif_pos (nearestUnits_lt_limit size)]
    split
    · exact ⟨_, rfl⟩
    · exact ⟨_, rfl⟩
  rcases found with ⟨m, found⟩
  rw [ofDecimal, found]
  rfl

end Binary64
end NumberFormat
