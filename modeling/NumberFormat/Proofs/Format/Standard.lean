import NumberFormat.Format.Number
import NumberFormat.Proofs.Decimal.Rendering
import NumberFormat.Proofs.Format.Sign

namespace NumberFormat
namespace Format

open Binary64 (Digits)
open Decimal (InThrees NeedsPlaces pointed readPlain?)

/-!
Numbers in standard form are correctly rounded.

With the separators taken away, what a formatter writes is a plain decimal.  It is the nearest one
to the number that has as many fraction digits as the options allow, with no digit more than the
number needs or the options ask for.
-/

/-- A locale in whose numbers digits, point and separators can be told apart. -/
structure Legible (locale : Locale) : Prop where
  ordinary : locale.numberingSystem = none
  distinct : locale.decimalPoint ≠ locale.groupSeparator
  point : locale.decimalPoint.isDigit = false
  separator : locale.groupSeparator.isDigit = false

/-- Options that ask for a plain number without sign and leave the significant digits open. -/
structure AsksForStandard (options : Options) : Prop where
  style : options.style = none ∨ options.style = some .decimal
  form : options.form = none ∨ options.form = some .standard
  sign : options.signDisplay = some .never
  minimumSignificant : options.minimumSignificantDigits = none
  maximumSignificant : options.maximumSignificantDigits = none

/-- The least number of fraction digits: those asked for, up to twenty. -/
def leastFraction (options : Options) : Nat :=
  min 20 ((options.minimumFractionDigits.map Options.Count.value).getD 0)

/--
The largest number of fraction digits: those allowed, or three, up to twenty, but never less than
are asked for.
-/
def mostFraction (options : Options) : Nat :=
  min 20 (max ((options.minimumFractionDigits.map Options.Count.value).getD 0)
    ((options.maximumFractionDigits.map Options.Count.value).getD 3))

/-- The digits asked for before the point. -/
def leastWhole (options : Options) : Nat :=
  (options.minimumIntegerDigits.map Options.Count.value).getD 1

/-- The nearest number to a number that has this many fraction digits, a half going up. -/
def nearest (x : ℚ) (places : Nat) : ℚ :=
  round (x * 10 ^ places) / 10 ^ places

/-- What it means that a text shows a number without sign in standard form. -/
structure ShowsStandard (locale : Locale) (options : Options) (x : ℚ) (text : List Char) :
    Prop where
  ordered : leastFraction options ≤ mostFraction options ∧ mostFraction options ≤ 20
  value : readPlain? locale.decimalPoint (text.filter (· != locale.groupSeparator)) =
    some (nearest x (mostFraction options))
  layout : ∃ whole written fraction,
    text = written ++ pointed locale.decimalPoint fraction ∧ Digits whole ∧ Digits fraction ∧
    (∃ needed, NeedsPlaces (nearest x (mostFraction options)) needed ∧
      fraction.length = max (leastFraction options) needed) ∧
    max 1 (leastWhole options) ≤ whole.length ∧
    (max 1 (leastWhole options) < whole.length → whole.head? ≠ some '0') ∧
    (if options.useGrouping.getD true then InThrees locale.groupSeparator whole written
      else written = whole)

/-! ## Bounds -/

theorem leastFraction_le_mostFraction (options : Options) :
    leastFraction options ≤ mostFraction options := by
  unfold leastFraction mostFraction
  omega

theorem mostFraction_le (options : Options) : mostFraction options ≤ 20 := by
  unfold mostFraction
  omega

theorem usualFraction_standard {options : Options} (asks : AsksForStandard options)
    (tables : Tables) : usualFraction tables options = (0, 3) := by
  unfold usualFraction
  rcases asks.style with unset | decimal
  · rw [unset]
  · rw [decimal]

theorem form_standard {options : Options} (asks : AsksForStandard options) :
    options.form.getD .standard = .standard ∧ (options.form == some .compact) = false := by
  rcases asks.form with unset | standard
  · rw [unset]
    exact ⟨rfl, rfl⟩
  · rw [standard]
    exact ⟨rfl, rfl⟩

/-- Options without bounds on significant digits round to the fraction digits they allow. -/
theorem rounding_standard {options : Options} (asks : AsksForStandard options) :
    (DigitRule.ofOptions options (0, 3)).rounding =
      .fraction (leastFraction options) (mostFraction options) := by
  have notCompact := (form_standard asks).2
  unfold DigitRule.ofOptions DigitRule.roundingOf
  rw [asks.minimumSignificant, asks.maximumSignificant, notCompact]
  simp only [Option.map_none, Option.isSome_none, Bool.or_false, Bool.false_eq_true, if_false,
    Bool.and_false]
  unfold Rounding.ofFraction leastFraction mostFraction
  cases options.minimumFractionDigits <;> cases options.maximumFractionDigits <;>
    simp [Rounding.fractionLimit, Nat.max_comm]

/-! ## Text -/

/-- Numbers that are not percentages are shown in digits as they are. -/
theorem showValue_standard {locale : Locale} {options : Options} (asks : AsksForStandard options)
    (tables : Tables) (negative : Bool) (m : Magnitude) :
    (showValue tables locale options (.finite negative m)).1 =
      digitText locale (DigitRule.ofOptions options (0, 3)) (options.useGrouping.getD true)
        ((DigitRule.ofOptions options (0, 3)).round m.shortest) := by
  have notPercent : options.style ≠ some .percent := by
    rcases asks.style with unset | decimal
    · rw [unset]
      exact nofun
    · rw [decimal]
      exact nofun
  unfold showValue showDecimal
  simp only [if_neg notPercent, (form_standard asks).1, usualFraction_standard asks, showStandard]

/-- Nothing is put around a plain number without sign. -/
theorem unsigned_standard {options : Options} (asks : AsksForStandard options) (tables : Tables)
    (locale : Locale) (negative : Bool) (m : Magnitude) :
    unsigned tables locale options (.finite negative m) =
      localize tables locale (digitText locale (DigitRule.ofOptions options (0, 3))
        (options.useGrouping.getD true)
        ((DigitRule.ofOptions options (0, 3)).round m.shortest)) := by
  have plain (text : List Char) : wrap tables locale options text = text := by
    unfold wrap
    rcases asks.style with unset | decimal
    · rw [unset]
    · rw [decimal]
  rw [unsigned, plain, showValue_standard asks]

theorem number_standard {locale : Locale} {options : Options}
    (ordinary : locale.numberingSystem = none) (asks : AsksForStandard options) (tables : Tables)
    (negative : Bool) (m : Magnitude) :
    number tables locale options (.finite negative m) =
      digitText locale (DigitRule.ofOptions options (0, 3)) (options.useGrouping.getD true)
        ((DigitRule.ofOptions options (0, 3)).round m.shortest) := by
  have latin (text : List Char) : localize tables locale text = text := by
    rw [localize, ordinary]
    rfl
  rw [number_never asks.sign, unsigned_standard asks, latin]

/-- Taking the separators away leaves the digits of the whole part as they are. -/
theorem filter_separators {separator : Char} {digits : List Char} (all : Digits digits)
    (foreign : separator.isDigit = false) : digits.filter (· != separator) = digits := by
  rw [List.filter_eq_self]
  intro c member
  rw [bne_iff_ne]
  rintro rfl
  rw [all c member] at foreign
  cases foreign

theorem digitText_eq (locale : Locale) (rule : DigitRule) (grouping : Bool) (d : Decimal) :
    digitText locale rule grouping d =
      (if grouping then Decimal.grouped locale.groupSeparator (rule.wholeDigits d)
        else rule.wholeDigits d) ++ pointed locale.decimalPoint (rule.fractionDigits d) := by
  unfold digitText pointed
  cases rule.fractionDigits d <;> rfl

theorem filter_digitText {locale : Locale} (legible : Legible locale) (rule : DigitRule)
    (grouping : Bool) (d : Decimal) :
    (digitText locale rule grouping d).filter (· != locale.groupSeparator) =
      rule.wholeDigits d ++ pointed locale.decimalPoint (rule.fractionDigits d) := by
  have whole : Digits (rule.wholeDigits d) := d.digits_wholeDigits _
  have fraction : Digits (rule.fractionDigits d) := d.digits_fractionDigits _
  have ungrouped : (if grouping then Decimal.grouped locale.groupSeparator (rule.wholeDigits d)
      else rule.wholeDigits d).filter (· != locale.groupSeparator) = rule.wholeDigits d := by
    cases grouping with
    | false => exact filter_separators whole legible.separator
    | true =>
        apply Decimal.filter_grouped
        intro member
        have digit := whole _ member
        rw [legible.separator] at digit
        cases digit
  have behind : (pointed locale.decimalPoint (rule.fractionDigits d)).filter
      (· != locale.groupSeparator) = pointed locale.decimalPoint (rule.fractionDigits d) := by
    unfold pointed
    split
    · rfl
    · rw [List.filter_cons_of_pos (by simpa using legible.distinct),
        filter_separators fraction legible.separator]
  rw [digitText_eq, List.filter_append, ungrouped, behind]

/-- A decimal rounded to the fraction digits allowed is the nearest number that has so many. -/
theorem toRat_round_standard {options : Options} (asks : AsksForStandard options) (d : Decimal) :
    ((DigitRule.ofOptions options (0, 3)).round d).toRat =
      nearest d.toRat (mostFraction options) := by
  rw [DigitRule.round, rounding_standard asks]
  exact d.toRat_roundFraction _

/--
A formatter that is asked for a plain number without sign shows the shortest decimal of the value,
rounded to the fraction digits that are allowed, with a half going away from zero.  It shows no
fraction digit beyond those needed and those asked for and no zero in front beyond those asked for,
and its separators stand between groups of three digits.
-/
theorem showsStandard_number (tables : Tables) {locale : Locale} {options : Options}
    (legible : Legible locale) (asks : AsksForStandard options) (negative : Bool)
    (m : Magnitude) :
    ShowsStandard locale options m.shortest.toRat
      (number tables locale options (.finite negative m)) := by
  rw [number_standard legible.ordinary asks]
  generalize ruled : DigitRule.ofOptions options (0, 3) = rule
  generalize rounded : rule.round m.shortest = d
  have value : d.toRat = nearest m.shortest.toRat (mostFraction options) := by
    rw [← rounded, ← ruled, toRat_round_standard asks]
  have atLeast : rule.minimumWhole = leastWhole options := by rw [← ruled]; rfl
  have fewest : rule.rounding.minimumFraction d = leastFraction options := by
    rw [← ruled, rounding_standard asks]
    rfl
  refine ⟨⟨leastFraction_le_mostFraction options, mostFraction_le options⟩, ?_, ?_⟩
  · rw [filter_digitText legible, DigitRule.wholeDigits, DigitRule.fractionDigits,
      Decimal.readPlain?_pointed legible.point (d.digits_wholeDigits _) (d.wholeDigits_ne_nil _)
      (d.digits_fractionDigits _), ← value]
    exact congrArg some (d.ofDigitChars_rendered _ _)
  · refine ⟨rule.wholeDigits d, _, rule.fractionDigits d, digitText_eq _ _ _ _,
      d.digits_wholeDigits _, d.digits_fractionDigits _, ⟨d.places, ?_, ?_⟩, ?_, ?_, ?_⟩
    · rw [← value]
      exact d.needsPlaces
    · rw [DigitRule.fractionDigits, d.length_fractionDigits_max, fewest]
    · have digits : 1 ≤ (Nat.toDigits 10 d.wholePart).length := Nat.length_toDigits_pos
      rw [DigitRule.wholeDigits, d.length_wholeDigits, atLeast]
      omega
    · intro long
      rw [← atLeast] at long
      exact Decimal.head_wholeDigits long
    · cases options.useGrouping.getD true with
      | false => rfl
      | true => exact Decimal.grouped_inThrees _ (d.wholeDigits_ne_nil _)

/-- Options that ask for one fraction digit, neither more nor fewer, and for no sign. -/
def oneFractionDigit : Options :=
  { minimumFractionDigits := some (.ofNat 1)
    maximumFractionDigits := some (.ofNat 1)
    signDisplay := some .never }

/-- A carry runs through all digits of 999.95 and brings a separator with it. -/
theorem showsStandard_carry :
    Legible Locale.standard ∧ AsksForStandard oneFractionDigit ∧
      ShowsStandard Locale.standard oneFractionDigit (Decimal.scaled 99995 (-2)).toRat
        "1,000.0".toList := by
  have legible : Legible Locale.standard := ⟨rfl, by decide, rfl, rfl⟩
  have asks : AsksForStandard oneFractionDigit := ⟨Or.inl rfl, Or.inl rfl, rfl, rfl, rfl⟩
  have shown := showsStandard_number Tables.builtIn legible asks true
    ((Magnitude.ofDecimal? (Decimal.scaled 99995 (-2))).getD .zero)
  have shortest : ((Magnitude.ofDecimal? (Decimal.scaled 99995 (-2))).getD .zero).shortest =
      Decimal.scaled 99995 (-2) := by decide +kernel
  have text : number Tables.builtIn Locale.standard oneFractionDigit
      (.finite true ((Magnitude.ofDecimal? (Decimal.scaled 99995 (-2))).getD .zero)) =
        "1,000.0".toList := by decide +kernel
  rw [shortest, text] at shown
  exact ⟨legible, asks, shown⟩

end Format
end NumberFormat
