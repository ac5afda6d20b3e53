import NumberFormat.Proofs.Binary64.Precision
import NumberFormat.Proofs.Plan.Numerals

namespace NumberFormat

/-!
Percentages.

A percentage is shown as the same number without unit would be, put into the percent pattern of the
locale.  The value is taken down by two decimal places and moved back in digits, so this holds for
values whose digits survive the step.  Fifteen digits always do, and sixteen may not.
-/

namespace Options

/-- Options whose digits are bounded from above, or as significant digits, whatever is usual. -/
def BoundsDigits (options : Options) : Prop :=
  options.maximumFractionDigits.isSome ∨ options.minimumSignificantDigits.isSome ∨
    options.maximumSignificantDigits.isSome

end Options

namespace Format

/-- Where the digits are bounded, the usual largest number of fraction digits plays no part. -/
theorem roundingOf_usual {options : Options} (bounded : options.BoundsDigits)
    (least most other : Nat) :
    DigitRule.roundingOf options (least, most) = DigitRule.roundingOf options (least, other) := by
  unfold DigitRule.roundingOf
  dsimp only
  split
  · rfl
  · rename_i unbounded
    simp only [Option.isSome_map, Bool.or_eq_true, not_or, Bool.not_eq_true] at unbounded
    have fraction : options.maximumFractionDigits.isSome := by
      rcases bounded with fraction | minimum | maximum
      · exact fraction
      · rw [unbounded.1] at minimum
        cases minimum
      · rw [unbounded.2] at maximum
        cases maximum
    obtain ⟨count, most⟩ := Option.isSome_iff_exists.mp fraction
    rw [most]
    split
    · rfl
    · cases options.minimumFractionDigits <;> rfl

variable {options : Options} (plain : options.style = none) (bounded : options.BoundsDigits)
include plain bounded

theorem ofOptions_percent (tables : Tables) :
    DigitRule.ofOptions { options with style := some .percent }
        (usualFraction tables { options with style := some .percent }) =
      DigitRule.ofOptions options (usualFraction tables options) := by
  have usual : usualFraction tables options = (0, 3) := by
    rw [usualFraction, plain]
  have same : DigitRule.roundingOf { options with style := some .percent } (0, 0) =
      DigitRule.roundingOf options (0, 0) := rfl
  rw [usual]
  unfold DigitRule.ofOptions usualFraction
  dsimp only
  rw [same, roundingOf_usual bounded 0 0 3]

theorem showDecimal_percent (tables : Tables) (locale : Locale) (d : Decimal) :
    showDecimal tables locale { options with style := some .percent } d =
      showDecimal tables locale options d := by
  unfold showDecimal
  dsimp only
  rw [ofOptions_percent plain bounded tables]

/-- A percentage is what its hundredfold is without unit, put into the pattern of the locale. -/
theorem number_percent (silent : options.signDisplay = none) (tables : Tables) (locale : Locale)
    {m n : Magnitude} (hundredfold : n.shortest.shift 2 = m.shortest) :
    number tables locale { options with style := some .percent } (.finite false n) =
      Text.fill (number tables locale options (.finite false m)) locale.percentPattern.toList := by
  have digits : (showValue tables locale { options with style := some .percent }
      (.finite false n)).1 = (showValue tables locale options (.finite false m)).1 := by
    unfold showValue
    dsimp only
    rw [if_pos rfl, plain, if_neg nofun, hundredfold, showDecimal_percent plain bounded]
  have unwrapped (text : List Char) : wrap tables locale options text = text := by
    rw [wrap, plain]
  have silentPercent : { options with style := some .percent }.signDisplay = none := silent
  rw [number_plain silentPercent tables locale rfl, number_plain silent tables locale rfl,
    unsigned, unsigned, digits, unwrapped]
  rfl

omit plain bounded

/-- Respelling passes a pattern by, unless it has digits of its own. -/
theorem respell_fill (zero : Char) (number : List Char) {pattern : List Char}
    (plain : ∀ c ∈ Text.fill [] pattern, c.isDigit = false) :
    respell zero (Text.fill number pattern) = Text.fill (respell zero number) pattern := by
  induction pattern using Text.fill.induct with
  | case1 rest ih =>
      rw [Text.fill, Text.fill, respell, List.map_append]
      exact congrArg (respell zero number ++ ·) (ih plain)
  | case2 c rest other ih =>
      have opened : Text.fill [] (c :: rest) = c :: Text.fill [] rest := by
        rw [Text.fill]
        exact other
      rw [opened, List.forall_mem_cons] at plain
      have kept : respellDigit zero c = c := by
        simp [respellDigit, digitValue?, plain.1]
      rw [Text.fill, Text.fill, respell, List.map_cons, kept]
      · exact congrArg (c :: ·) (ih plain.2)
      · exact other
      · exact other
  | case3 => rfl

end Format

namespace Tables

/-- A check that a percent pattern has no digits but those that mark the slot. -/
def plainPercent (locale : Locale) : Bool :=
  (Text.fill [] locale.percentPattern.toList).all (fun c => !c.isDigit)

theorem percentPattern_builtIn (tag : String) :
    ∀ c ∈ Text.fill [] (builtIn.localeOrEnglish tag).percentPattern.toList, c.isDigit = false := by
  have checked : plainPercent (builtIn.localeOrEnglish tag) = true :=
    checked_builtIn (by decide +kernel) tag
  intro c member
  simpa using List.all_eq_true.mp checked c member

end Tables

namespace Skeleton

/-- A precision that bounds the digits from above, or that counts significant digits. -/
def Bounding : Precision → Prop
  | .digits bounds => bounds.maxFraction.isSome ∨ bounds.boundsSignificant
  | .integer => True
  | .unlimited => True
  | .increment _ => True
  | .currencyStandard => False
  | .currencyCash => False

/-- A skeleton without unit, sign and scale that bounds the digits. -/
structure AsksForDigits (s : Skeleton) : Prop where
  unit : s.unit = none
  sign : s.sign = none
  scale : s.scale = none
  precision : ∃ precision, s.precision = some precision ∧ Bounding precision

variable {s : Skeleton}

theorem optionsOf_percent (unset : s.unit = none) :
    Plan.optionsOf { s with unit := some .percent } =
      { Plan.optionsOf s with style := some .percent } := by
  unfold Plan.optionsOf Options.ofSkeleton
  dsimp only
  rw [unset]
  split <;> rfl

variable (asks : s.AsksForDigits)
include asks

theorem boundsDigits_optionsOf : (Plan.optionsOf s).BoundsDigits := by
  obtain ⟨precision, chosen, bounding⟩ := asks.precision
  unfold Plan.optionsOf Options.ofSkeleton
  rw [chosen]
  cases precision with
  | digits bounds =>
      unfold Options.BoundsDigits
      simp only [Option.map_some, Option.getD_some, Options.digitBoundsOf, Option.isSome_map]
      rcases bounding with fraction | significant
      · exact Or.inl fraction
      · exact Or.inr (Bool.or_eq_true_iff.mp significant)
  | integer => exact Or.inl rfl
  | unlimited => exact Or.inl rfl
  | increment step => exact Or.inl rfl
  | currencyStandard => exact bounding.elim
  | currencyCash => exact bounding.elim

/-- What the plan's formatter writes for a percentage whose digits survive. -/
theorem shown_percent (own : List (String × Locale)) (tag : String) {m : Magnitude}
    (restored : Binary64.Restored m) :
    { s with unit := some .percent }.shown own tag (.finite false m) =
      Text.fill (s.shown own tag (.finite false m))
        ((own.lookup tag).getD (Tables.builtIn.localeOrEnglish tag)).percentPattern.toList := by
  obtain ⟨n, hundredth, hundredfold⟩ := restored
  have moved : (Plan.ofSkeleton tag { s with unit := some .percent }).applySteps
      (.finite false m) = .finite false n := by
    unfold Plan.ofSkeleton Plan.applySteps
    rw [asks.scale]
    exact hundredth false
  have kept : (Plan.ofSkeleton tag s).applySteps (.finite false m) = .finite false m := by
    unfold Plan.ofSkeleton Plan.applySteps
    rw [asks.scale, asks.unit]
    rfl
  have plain : (Plan.optionsOf s).style = none := by
    rw [style_optionsOf, asks.unit]
    rfl
  have silent : (Plan.optionsOf s).signDisplay = none := by
    rw [signDisplay_optionsOf, asks.sign]
    rfl
  rw [shown, shown, moved, kept, optionsOf_percent asks.unit]
  exact Format.number_percent plain (boundsDigits_optionsOf asks) silent _ _ hundredfold

theorem formatted_of_restored (bare : s.affix = none) (tag : String) {m : Magnitude}
    (restored : Binary64.Restored m) :
    { s with unit := some .percent }.formatted [] tag (.finite false m) =
      String.ofList (Text.fill (s.formatted [] tag (.finite false m)).toList
        (Tables.builtIn.localeOrEnglish tag).percentPattern.toList) := by
  have barePercent : { s with unit := some .percent }.affix = none := bare
  rw [← String.toList_inj, String.toList_ofList, toList_formatted barePercent,
    toList_formatted bare, shown_percent asks [] tag restored]
  dsimp only
  split
  · exact Format.respell_fill _ _ (Tables.percentPattern_builtIn tag)
  · rfl

omit asks

theorem overlay_percent (s : Skeleton) :
    s.overlay (read "percent".toList).result = { s with unit := some .percent } := by
  have word : (read "percent".toList).result = { empty with unit := some .percent } := by
    decide +kernel
  rw [word]
  rfl

/--
A percentage is shown as the same number without unit, put into the percent pattern of the locale.
Fifteen significant digits are kept, down to the smallest numbers of full precision.
-/
theorem formatted_percent {text : List Char} (asks : (read text).result.AsksForDigits)
    (tag : String) {m : Magnitude} (few : m.shortest.digits.length ≤ 15)
    (large : -304 ≤ m.shortest.point) :
    (read (text ++ " percent".toList)).result.formatted [] tag (.finite false m) =
      String.ofList (Text.fill
        ((read text).result.formatted [] tag (.finite false m)).toList
        (Tables.builtIn.localeOrEnglish tag).percentPattern.toList) := by
  have blank : " percent".toList = ' ' :: "percent".toList := by decide
  rw [blank, read_append_blank text "percent".toList (show Text.isBlank ' ' = true by decide)]
  dsimp only
  rw [overlay_percent]
  exact formatted_of_restored asks (affix_read text) tag (Binary64.restored_of_few few large)

/-- German puts an unbroken space before the sign; a half in the shortest decimal goes up. -/
theorem formatted_percent_half :
    ((read ".00".toList).result.AsksForDigits ∧
      ((Magnitude.ofDecimal? (Decimal.scaled 1005 (-3))).getD .zero).shortest.digits.length ≤ 15 ∧
      -304 ≤ ((Magnitude.ofDecimal? (Decimal.scaled 1005 (-3))).getD .zero).shortest.point) ∧
    (read ".00 percent".toList).result.formatted [] "de"
      (.finite false ((Magnitude.ofDecimal? (Decimal.scaled 1005 (-3))).getD .zero)) =
        "1,01\u00a0%" := by
  have bounds : (read ".00".toList).result.precision = some (.digits
      { minFraction := some 2, maxFraction := some 2, source := some ".00" }) := by
    decide +kernel
  have asks : (read ".00".toList).result.AsksForDigits :=
    ⟨by decide +kernel, by decide +kernel, by decide +kernel, _, bounds, Or.inl rfl⟩
  have few : ((Magnitude.ofDecimal? (Decimal.scaled 1005 (-3))).getD
      .zero).shortest.digits.length ≤ 15 := by decide +kernel
  have large : -304 ≤ ((Magnitude.ofDecimal? (Decimal.scaled 1005 (-3))).getD
      .zero).shortest.point := by decide +kernel
  have percent := formatted_percent asks "de" few large
  have text : ".00".toList ++ " percent".toList = ".00 percent".toList := by decide
  have plain : (read ".00".toList).result.formatted [] "de"
      (.finite false ((Magnitude.ofDecimal? (Decimal.scaled 1005 (-3))).getD .zero)) =
        "1,01" := by decide +kernel
  have filled : String.ofList (Text.fill "1,01".toList
      (Tables.builtIn.localeOrEnglish "de").percentPattern.toList) = "1,01\u00a0%" := by
    decide +kernel
  rw [text, plain, filled] at percent
  exact ⟨⟨asks, few, large⟩, percent⟩

/-- With sixteen digits a percentage may end in another digit than the number itself. -/
theorem percent_changes_digit :
    (read "precision-integer".toList).result.AsksForDigits ∧
      (read "precision-integer".toList).result.formatted [] "en"
        (.ofDecimal false (Decimal.scaled 9007199254737993 0)) = "9,007,199,254,737,993" ∧
      (read "precision-integer percent".toList).result.formatted [] "en"
        (.ofDecimal false (Decimal.scaled 9007199254737993 0)) = "9,007,199,254,737,994%" := by
  have precision : (read "precision-integer".toList).result.precision = some .integer := by
    decide +kernel
  exact ⟨⟨by decide +kernel, by decide +kernel, by decide +kernel, _, precision, trivial⟩,
    by decide +kernel, by decide +kernel⟩

end Skeleton
end NumberFormat
