import NumberFormat.Proofs.Format.Exponential
import NumberFormat.Proofs.Format.Shown

namespace NumberFormat

open Binary64 (Digits)
open Decimal (ten_zpow_pos)

/-!
Bounds on significant digits hold in every form.

Rounding to significant digits does not depend on where the point stands, so it does not matter
which power of ten a form splits off, nor whether a carry splits off one more.  The digits that are
shown from the first nonzero one are those before the point and those behind it, which the zeros
behind a fraction fill up to the least number.  Bounds on fraction digits play no part in this.
-/

namespace Decimal

/-! ## Counting digits from the first nonzero one -/

theorem pow_le_ofDigitChars {first : Char} {digits : List Char} (digit : first.isDigit = true)
    (nonzero : first ≠ '0') : 10 ^ digits.length ≤ Nat.ofDigitChars 10 (first :: digits) 0 := by
  have least := (toNat_of_isDigit digit).1
  have other : first.toNat ≠ '0'.toNat := fun same => nonzero (Char.toNat_inj.mp same)
  rw [Nat.ofDigitChars_cons, Nat.ofDigitChars_eq_ofDigitChars_zero, Nat.mul_zero, Nat.zero_add]
  exact (Nat.le_mul_of_pos_right _ (by omega)).trans (Nat.le_add_right _ _)

/-- From the first nonzero digit on, the number of digits tells the size of the number. -/
theorem length_significant_range {digits : List Char} (all : Digits digits)
    (positive : Nat.ofDigitChars 10 digits 0 ≠ 0) :
    10 ^ ((digits.dropWhile (· == '0')).length - 1) ≤ Nat.ofDigitChars 10 digits 0 ∧
      Nat.ofDigitChars 10 digits 0 < 10 ^ (digits.dropWhile (· == '0')).length := by
  have inside : Digits (digits.dropWhile (· == '0')) :=
    fun c member => all c ((List.dropWhile_sublist _).subset member)
  have stop := List.head?_dropWhile_not (· == '0') digits
  rw [← ofDigitChars_dropWhile digits] at positive ⊢
  generalize digits.dropWhile (· == '0') = significant at inside stop positive ⊢
  refine ⟨?_, ofDigitChars_lt inside⟩
  cases significant with
  | nil => exact absurd rfl positive
  | cons first rest =>
      apply pow_le_ofDigitChars (inside first List.mem_cons_self)
      simpa using stop

/-- The digits from the first nonzero one are those before the point and those behind it. -/
theorem length_significant {d : Decimal} (nonzero : d.coefficient ≠ 0) (least fewest : Nat) :
    (((d.wholeDigits least ++ d.fractionDigits fewest).dropWhile (· == '0')).length : Int) =
      d.point + (d.fractionDigits fewest).length := by
  have value := d.ofDigitChars_rendered least fewest
  have all : Digits (d.wholeDigits least ++ d.fractionDigits fewest) :=
    digits_append (d.digits_wholeDigits _) (d.digits_fractionDigits _)
  generalize d.wholeDigits least ++ d.fractionDigits fewest = digits at value all ⊢
  generalize (d.fractionDigits fewest).length = places at value ⊢
  have scaled : (Nat.ofDigitChars 10 digits 0 : ℚ) = d.toRat * 10 ^ (places : Int) := by
    rw [← value, zpow_natCast, div_mul_cancel₀ _ (pow_ne_zero _ (by norm_num))]
  have positive : Nat.ofDigitChars 10 digits 0 ≠ 0 := by
    rw [← Nat.cast_ne_zero (R := ℚ), scaled]
    exact (mul_pos (toRat_pos.mpr nonzero) (ten_zpow_pos _)).ne'
  obtain ⟨least, greatest⟩ := length_significant_range all positive
  generalize (digits.dropWhile (· == '0')).length = count at least greatest ⊢
  have ten : (1 : ℚ) < 10 := by norm_num
  have below : (10 : ℚ) ^ ((count - 1 : Nat) : Int) < 10 ^ (d.point + places) := by
    rw [zpow_natCast, zpow_add₀ (by norm_num)]
    calc
      (10 : ℚ) ^ (count - 1) ≤ Nat.ofDigitChars 10 digits 0 := by exact_mod_cast least
      _ = d.toRat * 10 ^ (places : Int) := scaled
      _ < 10 ^ d.point * 10 ^ (places : Int) :=
        mul_lt_mul_of_pos_right (toRat_lt_point nonzero) (ten_zpow_pos _)
  have above : (10 : ℚ) ^ (d.point - 1 + places) < 10 ^ (count : Int) := by
    rw [zpow_natCast, zpow_add₀ (by norm_num)]
    calc
      (10 : ℚ) ^ (d.point - 1) * 10 ^ (places : Int) ≤ d.toRat * 10 ^ (places : Int) :=
        mul_le_mul_of_nonneg_right (power_le_toRat nonzero (by omega)) (ten_zpow_pos _).le
      _ = Nat.ofDigitChars 10 digits 0 := scaled.symm
      _ < 10 ^ count := by exact_mod_cast greatest
  rw [zpow_lt_zpow_iff_right₀ ten] at below above
  omega

/-- A zero at the end of a fraction is one that the number does not need. -/
theorem places_lt_of_trailing_zero {d : Decimal} {fewest : Nat}
    (trailing : (d.fractionDigits fewest).getLast? = some '0') :
    d.places < (d.fractionDigits fewest).length := by
  obtain ⟨front, split⟩ := List.getLast?_eq_some_iff.mp trailing
  have value := d.ofDigitChars_rendered 0 fewest
  have last : '0'.toNat - '0'.toNat = 0 := rfl
  rw [split, ← List.append_assoc, Nat.ofDigitChars_append, Nat.ofDigitChars_cons,
    Nat.ofDigitChars_nil, last, Nat.add_zero, List.length_append, List.length_singleton, pow_succ',
    Nat.cast_mul, Nat.cast_ofNat, mul_div_mul_left _ _ (by norm_num)] at value
  have whole := (div_eq_iff (pow_ne_zero _ (by norm_num))).mp value
  have enough := d.needsPlaces.2 ⟨_, whole.symm⟩
  rw [split, List.length_append, List.length_singleton]
  omega

end Decimal

/-! ## Rounding to significant digits -/

/-- Rounding to significant digits does not depend on where the point stands. -/
theorem RoundsToDigits.scaled {digits : Nat} {x y : ℚ} (rounds : RoundsToDigits digits x y)
    (power : Int) : RoundsToDigits digits (x * 10 ^ power) (y * 10 ^ power) := by
  obtain ⟨point, least, greatest, rounded⟩ := rounds
  have ten : (10 : ℚ) ≠ 0 := by norm_num
  refine ⟨point + power, ?_, ?_, ?_⟩
  · rw [add_sub_right_comm, zpow_add₀ ten]
    exact mul_le_mul_of_nonneg_right least (ten_zpow_pos power).le
  · rw [zpow_add₀ ten]
    exact mul_lt_mul_of_pos_right greatest (ten_zpow_pos power)
  · rw [rounded, nearestMultiple, nearestMultiple, add_sub_right_comm, zpow_add₀ ten,
      mul_div_mul_right _ _ (ten_zpow_pos power).ne', mul_assoc]

/-- What has a significant digit before it is rounded has one afterwards. -/
theorem RoundsToDigits.pos {digits : Nat} (some : 1 ≤ digits) {x y : ℚ}
    (rounds : RoundsToDigits digits x y) : 0 < y := by
  obtain ⟨point, least, _, rounded⟩ := rounds
  have ten : (10 : ℚ) ≠ 0 := by norm_num
  have first : 1 ≤ x / 10 ^ (point - digits) := by
    rw [one_le_div (ten_zpow_pos _)]
    exact (zpow_le_zpow_right₀ (by norm_num) (by omega)).trans least
  have digit : 1 ≤ round (x / 10 ^ (point - digits)) := by
    rw [round_eq, Int.le_floor]
    push_cast
    linarith only [first]
  rw [rounded, nearestMultiple]
  exact mul_pos (by exact_mod_cast digit) (ten_zpow_pos _)

/-- The options with another style and with other bounds on fraction digits. -/
def Options.restyled (options : Options) (style : Option Options.Style) (currency : Option String)
    (fewest largest : Option Options.Count) : Options :=
  { options with
    style := style
    currency := currency
    minimumFractionDigits := fewest
    maximumFractionDigits := largest }

namespace Format

theorem Scale.exists_factor (scale : Scale) : ∃ power : Int, scale.factor = 10 ^ power := by
  cases scale with
  | unit => exact ⟨0, (zpow_zero _).symm⟩
  | exponent power => exact ⟨power, rfl⟩
  | tier thousands => exact ⟨_, thousand_pow thousands⟩

/-! ## Options -/

/-- Options that bound the number of significant digits, on whichever side. -/
def BoundsSignificant (options : Options) : Prop :=
  options.minimumSignificantDigits.isSome ∨ options.maximumSignificantDigits.isSome

/-- The least number of significant digits: those asked for, from one up to twenty-one. -/
def leastSignificant (options : Options) : Nat :=
  min 21 (max 1 ((options.minimumSignificantDigits.map Options.Count.value).getD 1))

/--
The largest number of significant digits: those allowed, or all twenty-one, but never less than are
asked for.
-/
def mostSignificant (options : Options) : Nat :=
  min 21 (max (leastSignificant options)
    ((options.maximumSignificantDigits.map Options.Count.value).getD 21))

theorem significant_bounds (options : Options) :
    1 ≤ leastSignificant options ∧ leastSignificant options ≤ mostSignificant options ∧
      mostSignificant options ≤ 21 := by
  unfold mostSignificant leastSignificant
  omega

/-- The digits that options ask for, the bounds on fraction digits apart. -/
def significantRule (options : Options) : DigitRule :=
  ⟨leastWhole options, .significant (leastSignificant options) (mostSignificant options)⟩

/-- Bounds on significant digits leave no say to any on fraction digits. -/
theorem ofOptions_significant {options : Options} (bounded : BoundsSignificant options)
    (usual : Nat × Nat) : DigitRule.ofOptions options usual = significantRule options := by
  have asks : ((options.minimumSignificantDigits.map Options.Count.value).isSome ||
      (options.maximumSignificantDigits.map Options.Count.value).isSome) = true := by
    rw [Option.isSome_map, Option.isSome_map, Bool.or_eq_true]
    exact bounded
  unfold DigitRule.ofOptions DigitRule.roundingOf
  dsimp only
  rw [if_pos asks]
  rfl

/-! ## Numbers as they are written -/

/-- The digits from the first nonzero one to the last that is shown. -/
def Written.significantDigits (number : Written) : List Char :=
  (number.whole ++ number.fraction).dropWhile (· == '0')

/-- What it means that a number is written with significant digits within bounds. -/
structure ShowsSignificant (least most : Nat) (x : ℚ) (number : Written) : Prop where
  digits : number.whole ≠ [] ∧ Digits number.whole ∧ Digits number.fraction
  rounded : x ≠ 0 → RoundsToDigits most (x / number.scale.factor) number.mantissa
  enough : x ≠ 0 → least ≤ number.significantDigits.length
  needed : x ≠ 0 → number.fraction.getLast? = some '0' → number.significantDigits.length = least
  zero : x = 0 → (∀ c ∈ number.whole, c = '0') ∧
    number.fraction = List.replicate (least - 1) '0'

variable {rule : DigitRule} {least most : Nat}

/-- Behind the point stand as many digits as are needed, or as make up the least number. -/
theorem significantDigits_ofMantissa (ruled : rule.rounding = .significant least most)
    {d : Decimal} (nonzero : d.coefficient ≠ 0) (scale : Scale) :
    least ≤ (Written.ofMantissa rule d scale).significantDigits.length ∧
      ((Written.ofMantissa rule d scale).fraction.getLast? = some '0' →
        (Written.ofMantissa rule d scale).significantDigits.length = least) := by
  have count := Decimal.length_significant nonzero rule.minimumWhole
    (rule.rounding.minimumFraction d)
  have length := d.length_fractionDigits_max (rule.rounding.minimumFraction d)
  have notZero : ¬d.isZero = true := mt Decimal.isZero_iff.mp nonzero
  have fewest : rule.rounding.minimumFraction d = ((least : Int) - d.point).toNat := by
    rw [ruled, Rounding.minimumFraction, if_neg notZero]
  change (((Written.ofMantissa rule d scale).significantDigits.length : Nat) : Int) = _ at count
  refine ⟨by omega, fun trailing => ?_⟩
  have longer : d.places < (d.fractionDigits (rule.rounding.minimumFraction d)).length :=
    Decimal.places_lt_of_trailing_zero trailing
  omega

/-- A zero counts as one digit. -/
theorem zero_ofMantissa (ruled : rule.rounding = .significant least most) {d : Decimal}
    (zero : d.coefficient = 0) (scale : Scale) :
    (∀ c ∈ (Written.ofMantissa rule d scale).whole, c = '0') ∧
      (Written.ofMantissa rule d scale).fraction = List.replicate (least - 1) '0' := by
  have zeros := (Written.zeros_ofMantissa rule d scale).mpr zero
  have length := d.length_fractionDigits_max (rule.rounding.minimumFraction d)
  have isZero : d.isZero = true := Decimal.isZero_iff.mpr zero
  have fewest : rule.rounding.minimumFraction d = least - 1 := by
    rw [ruled, Rounding.minimumFraction, if_pos isZero]
    omega
  have whole : d.places = 0 := by
    have both := d.normal.resolve_left (by simp [zero])
    rw [Decimal.places, both.2]
    rfl
  refine ⟨fun c member => zeros c (List.mem_append_left _ member), ?_⟩
  have count : (d.fractionDigits (rule.rounding.minimumFraction d)).length = least - 1 := by
    rw [length, fewest, whole, Nat.max_zero]
  exact List.eq_replicate_iff.mpr ⟨count, fun c member => zeros c (List.mem_append_right _ member)⟩

theorem written_eq_mantissa (form : Options.Form) (rule : DigitRule) (tiers : Nat) (d : Decimal) :
    ∃ mantissa scale, written form rule tiers d = .ofMantissa rule mantissa scale := by
  cases form <;> exact ⟨_, _, rfl⟩

/-- In every form a number is rounded once, seen from the number itself. -/
theorem rounded_written (ruled : rule.rounding = .significant least most) (some : 1 ≤ most)
    (form : Options.Form) (tiers : Nat) {d : Decimal} (nonzero : d.coefficient ≠ 0) :
    RoundsToDigits most d.toRat (written form rule tiers d).value := by
  have sound : rule.rounding.Sound := by
    rw [ruled]
    exact some
  have kept := (d.coefficient_shift (-splitOff form tiers d.point)).trans_ne nonzero
  have rounds := (Rounding.roundsToDigits_roundSignificant kept most).scaled
    (splitOff form tiers d.point)
  rw [value_written sound, DigitRule.round, ruled, Rounding.round]
  rwa [Decimal.toRat_shift, mul_assoc, ← zpow_add₀ (by norm_num), neg_add_cancel, zpow_zero,
    mul_one] at rounds

/-- In every form a number is shown with significant digits within the bounds of the rule. -/
theorem showsSignificant_written (ruled : rule.rounding = .significant least most)
    (some : 1 ≤ most) (form : Options.Form) (tiers : Nat) (d : Decimal) :
    ShowsSignificant least most d.toRat (written form rule tiers d) := by
  have value_zero (zero : d.toRat = 0) : (written form rule tiers d).value = 0 :=
    value_written_zero form rule tiers (Decimal.toRat_eq_zero.mp zero)
  have rounds (nonzero : d.toRat ≠ 0) :
      RoundsToDigits most d.toRat (written form rule tiers d).value :=
    rounded_written ruled some form tiers (mt Decimal.toRat_eq_zero.mpr nonzero)
  obtain ⟨mantissa, scale, same⟩ := written_eq_mantissa form rule tiers d
  rw [same, Written.value_ofMantissa] at value_zero rounds
  rw [same]
  obtain ⟨power, factor⟩ := scale.exists_factor
  have unit : (10 : ℚ) ^ power ≠ 0 := (ten_zpow_pos power).ne'
  rw [factor] at value_zero rounds
  have nonzero (other : d.toRat ≠ 0) : mantissa.coefficient ≠ 0 := by
    have positive := (rounds other).pos some
    rw [mul_pos_iff_of_pos_right (ten_zpow_pos power)] at positive
    exact Decimal.toRat_pos.mp positive
  refine ⟨?_, ?_, ?_, ?_, ?_⟩
  · exact ⟨mantissa.wholeDigits_ne_nil _, mantissa.digits_wholeDigits _,
      mantissa.digits_fractionDigits _⟩
  · intro other
    have unscaled := (rounds other).scaled (-power)
    rw [mul_assoc, ← zpow_add₀ (by norm_num), add_neg_cancel, zpow_zero, mul_one, zpow_neg,
      ← div_eq_mul_inv] at unscaled
    rw [Written.mantissa_ofMantissa]
    exact factor ▸ unscaled
  · intro other
    exact (significantDigits_ofMantissa ruled (nonzero other) scale).1
  · intro other
    exact (significantDigits_ofMantissa ruled (nonzero other) scale).2
  · intro zero
    have none : mantissa.toRat = 0 := (mul_eq_zero_iff_right unit).mp (value_zero zero)
    exact zero_ofMantissa ruled (Decimal.toRat_eq_zero.mp none) scale

/--
Options with a bound on significant digits show that many of them, in every form and of every finite
value: as many as are allowed are rounded to, as many as are asked for are shown, and no zero ends
the fraction that is not asked for.  A style counts only in so far as percent shows the hundredths,
and bounds on fraction digits do not count at all.
-/
theorem showsSignificant_value (tables : Tables) (locale : Locale) {options : Options}
    (bounded : BoundsSignificant options) (negative : Bool) (m : Magnitude) :
    (1 ≤ leastSignificant options ∧ leastSignificant options ≤ mostSignificant options ∧
      mostSignificant options ≤ 21) ∧
    ∃ number,
      ShowsSignificant (leastSignificant options) (mostSignificant options)
        (if options.style = some .percent then m.shortest.toRat * 100 else m.shortest.toRat)
        number ∧
      ∀ style currency fewest largest,
        (style = some .percent ↔ options.style = some .percent) →
          Shows locale (options.useGrouping.getD true) (tierNames locale options)
            (showValue tables locale (options.restyled style currency fewest largest)
              (.finite negative m)).1 number := by
  have bounds := significant_bounds options
  refine ⟨bounds, written (options.form.getD .standard) (significantRule options)
    (tierNames locale options).length (countedDecimal options m), ?_, ?_⟩
  · rw [← toRat_countedDecimal]
    exact showsSignificant_written rfl (bounds.1.trans bounds.2.1) _ _ _
  · intro style currency fewest largest percent
    have shown := shows_showValue tables locale
      (options.restyled style currency fewest largest) negative m
    have counted : countedDecimal (options.restyled style currency fewest largest) m =
        countedDecimal options m := if_congr percent rfl rfl
    have alsoBounded : BoundsSignificant (options.restyled style currency fewest largest) := bounded
    rw [writtenValue, ofOptions_significant alsoBounded, counted] at shown
    exact shown

/-- Contradictory bounds on the digits of a number with an exponent. -/
def threeToTwoDigits : Options where
  form := some .scientific
  minimumSignificantDigits := some (.ofNat 3)
  maximumSignificantDigits := some (.ofNat 2)

/-- Three digits are shown where two are allowed at most, also behind a carry. -/
theorem showsSignificant_value_carry :
    BoundsSignificant threeToTwoDigits ∧
      ∃ number, ShowsSignificant 3 3 (Decimal.scaled 9999 (-3)).toRat number ∧
        Shows Locale.standard true Locale.standard.compactShort "1.00E1".toList number := by
  have bounded : BoundsSignificant threeToTwoDigits := Or.inl rfl
  obtain ⟨_, number, significant, shown⟩ := showsSignificant_value Tables.builtIn Locale.standard
    bounded false ((Magnitude.ofDecimal? (Decimal.scaled 9999 (-3))).getD .zero)
  have shortest : ((Magnitude.ofDecimal? (Decimal.scaled 9999 (-3))).getD .zero).shortest =
      Decimal.scaled 9999 (-3) := by decide +kernel
  have text : (showValue Tables.builtIn Locale.standard threeToTwoDigits
      (.finite false ((Magnitude.ofDecimal? (Decimal.scaled 9999 (-3))).getD .zero))).1 =
        "1.00E1".toList := by decide +kernel
  have other : threeToTwoDigits.style ≠ some .percent := nofun
  have plain := shown none none none none (iff_of_false nofun nofun)
  change Shows _ _ _ (showValue Tables.builtIn Locale.standard threeToTwoDigits _).1 number at plain
  rw [text] at plain
  rw [if_neg other, shortest] at significant
  exact ⟨bounded, number, significant, plain⟩

end Format
end NumberFormat
