import NumberFormat.Proofs.Format.Monotone

namespace NumberFormat
namespace Format

open Binary64 (Digits)

/-!
Finite values as they are written.

Before a formatter respells, wraps and signs a finite value, the text of the value is that of one
written number: the digits on both sides of the point, and the scale behind them.  The value counts
as zero exactly if all these digits are zeros.
-/

/-! ## Digits of written numbers -/

namespace Written

/-- The number that the digits make without their scale. -/
def mantissa (number : Written) : ℚ :=
  (Nat.ofDigitChars 10 (number.whole ++ number.fraction) 0 : ℚ) / 10 ^ number.fraction.length

theorem mantissa_ofMantissa (rule : DigitRule) (d : Decimal) (scale : Scale) :
    (ofMantissa rule d scale).mantissa = d.toRat :=
  d.ofDigitChars_rendered _ _

/-- All digits of a mantissa are zeros exactly if it is nought. -/
theorem zeros_ofMantissa (rule : DigitRule) (d : Decimal) (scale : Scale) :
    (∀ c ∈ (ofMantissa rule d scale).whole ++ (ofMantissa rule d scale).fraction, c = '0') ↔
      d.coefficient = 0 := by
  have digits : Digits ((ofMantissa rule d scale).whole ++ (ofMantissa rule d scale).fraction) :=
    Decimal.digits_append (Decimal.digits_wholeDigits _ _) (Decimal.digits_fractionDigits _ _)
  rw [← Decimal.toRat_eq_zero, ← mantissa_ofMantissa rule d scale, mantissa,
    div_eq_zero_iff, or_iff_left (pow_ne_zero _ (by norm_num)), Nat.cast_eq_zero,
    Decimal.ofDigitChars_eq_zero digits]

end Written

/-- What is written in a form is the decimal that is shown, in the digits the rule asks for. -/
theorem written_eq_ofMantissa (form : Options.Form) (locale : Locale) (rule : DigitRule)
    (grouping : Bool) (names : List String) (d : Decimal) :
    ∃ scale, written form rule names.length d =
      .ofMantissa rule (showAs form locale rule grouping names d).decimal scale := by
  cases form <;> exact ⟨_, rfl⟩

/-! ## Values -/

/-- The names of the tiers that options ask for. -/
def tierNames (locale : Locale) (options : Options) : List String :=
  match options.compactDisplay.getD .short with
  | .short => locale.compactShort
  | .long => locale.compactLong

/-- The decimal that is shown of a magnitude, of which percent counts the hundredths. -/
def countedDecimal (options : Options) (m : Magnitude) : Decimal :=
  if options.style = some .percent then m.shortest.shift 2 else m.shortest

theorem toRat_countedDecimal (options : Options) (m : Magnitude) :
    (countedDecimal options m).toRat =
      if options.style = some .percent then m.shortest.toRat * 100 else m.shortest.toRat := by
  unfold countedDecimal
  split
  · rw [Decimal.toRat_shift]
    norm_num
  · rfl

/-- A magnitude as a formatter writes it. -/
def writtenValue (tables : Tables) (locale : Locale) (options : Options) (m : Magnitude) :
    Written :=
  written (options.form.getD .standard)
    (DigitRule.ofOptions options (usualFraction tables options))
    (tierNames locale options).length (countedDecimal options m)

variable (tables : Tables) (locale : Locale) (options : Options) (negative : Bool) (m : Magnitude)

theorem showValue_finite :
    showValue tables locale options (.finite negative m) =
      ((showDecimal tables locale options (countedDecimal options m)).text,
        (showDecimal tables locale options (countedDecimal options m)).decimal.isZero) :=
  rfl

/-- The digits of a finite value, and what scales them, are those of the value as it is written. -/
theorem shows_showValue :
    Shows locale (options.useGrouping.getD true) (tierNames locale options)
      (showValue tables locale options (.finite negative m)).1
      (writtenValue tables locale options m) := by
  rw [showValue_finite, showDecimal_eq_showAs]
  exact shows_showAs _ _ _ _ _ _

/-- A finite value is shown as zero exactly if it is written in zeros. -/
theorem zero_showValue :
    (showValue tables locale options (.finite negative m)).2 = true ↔
      ∀ c ∈ (writtenValue tables locale options m).whole ++
        (writtenValue tables locale options m).fraction, c = '0' := by
  obtain ⟨scale, same⟩ := written_eq_ofMantissa (options.form.getD .standard) locale
    (DigitRule.ofOptions options (usualFraction tables options)) (options.useGrouping.getD true)
    (tierNames locale options) (countedDecimal options m)
  rw [writtenValue, same, Written.zeros_ofMantissa, showValue_finite, showDecimal_eq_showAs]
  exact Decimal.isZero_iff

end Format
end NumberFormat
