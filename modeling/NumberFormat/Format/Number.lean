import NumberFormat.Binary64.Shortest
import NumberFormat.Format.NumberingSystem
import NumberFormat.Format.PowerOfTen
import NumberFormat.Format.Sign
import NumberFormat.Format.Wrapping
import NumberFormat.Locale.BuiltIn

namespace NumberFormat
namespace Format

/-!
Numbers written as a locale and options ask for.

The digits of a number are those of the shortest decimal that reads back as the number.  They are
rounded and grouped, then written in the locale's numbering system, then wrapped, and the
sign comes last.
-/

/-- The usual bounds on fraction digits: those of the currency, none for percent, else up to three. -/
def usualFraction (tables : Tables) (options : Options) : Nat × Nat :=
  match options.style with
  | some .currency =>
      let digits := ((options.currency.bind tables.currency?).map Currency.digits).getD 2
      (digits, digits)
  | some .percent => (0, 0)
  | _ => (0, 3)

/-- A rounded decimal as digits with the locale's separators. -/
def digitText (locale : Locale) (rule : DigitRule) (grouped : Bool) (d : Decimal) : List Char :=
  let whole := rule.wholeDigits d
  let fraction := rule.fractionDigits d
  (if grouped then Decimal.grouped locale.groupSeparator whole else whole) ++
    (if fraction.isEmpty then [] else locale.decimalPoint :: fraction)

/-- A decimal as it is shown, together with its text. -/
structure Shown where
  decimal : Decimal
  text : List Char

/-- A number split off a power of ten is never grouped. -/
def showExponential (locale : Locale) (rule : DigitRule) (step : Nat) (d : Decimal) : Shown :=
  let split := exponential rule step d
  ⟨split.mantissa,
    digitText locale rule false split.mantissa ++ exponentText locale split.power⟩

def showCompact (locale : Locale) (rule : DigitRule) (grouped : Bool) (names : List String)
    (d : Decimal) : Shown :=
  let split := compact rule names.length d
  ⟨split.mantissa,
    digitText locale rule grouped split.mantissa ++ (tierName names split.power).toList⟩

def showStandard (locale : Locale) (rule : DigitRule) (grouped : Bool) (d : Decimal) : Shown :=
  let rounded := rule.round d
  ⟨rounded, digitText locale rule grouped rounded⟩

/-- A decimal in the form the options ask for. -/
def showDecimal (tables : Tables) (locale : Locale) (options : Options) (d : Decimal) : Shown :=
  let rule := DigitRule.ofOptions options (usualFraction tables options)
  let grouped := options.useGrouping.getD true
  match options.form.getD .standard with
  | .standard => showStandard locale rule grouped d
  | .scientific => showExponential locale rule 1 d
  | .engineering => showExponential locale rule 3 d
  | .compact => showCompact locale rule grouped
      (match options.compactDisplay.getD .short with
      | .short => locale.compactShort
      | .long => locale.compactLong) d

/-- A value as it is shown without sign; percent counts hundredths. -/
def showValue (tables : Tables) (locale : Locale) (options : Options) :
    Binary64 → List Char × Bool
  | .nan => (locale.nanSymbol.toList, false)
  | .infinite _ => (locale.infinitySymbol.toList, false)
  | .finite _ m =>
      let d := if options.style = some .percent then m.shortest.shift 2 else m.shortest
      let shown := showDecimal tables locale options d
      (shown.text, shown.decimal.isZero)

/-- A text in the digits of the locale's own numbering system. -/
def localize (tables : Tables) (locale : Locale) (text : List Char) : List Char :=
  match locale.numberingSystem.bind tables.zeroDigit? with
  | some zero => respell zero text
  | none => text

/-- A number wrapped in what its style asks for. -/
def wrap (tables : Tables) (locale : Locale) (options : Options) (number : List Char) :
    List Char :=
  match options.style, options.currency, options.unit with
  | some .currency, some code, _ =>
      withCurrency locale code (tables.currency? code) (options.currencyDisplay.getD .symbol) number
  | some .percent, _, _ => withPercent locale number
  | some .unit, _, some id => withUnit tables id (options.unitDisplay.getD .short) number
  | _, _, _ => number

/-- A value as text. -/
def number (tables : Tables) (locale : Locale) (options : Options) (value : Binary64) :
    List Char :=
  let (text, zero) := showValue tables locale options value
  let accounting :=
    options.style == some .currency && options.currencySign == some .accounting
  withSign locale accounting (wrap tables locale options (localize tables locale text))
    (signMark value.hasMinus zero (options.signDisplay.getD .auto))

end Format

/-- A way of formatting numbers, given a locale tag and options. -/
abbrev Formatter : Type := String → Options → Binary64 → String

namespace Formatter

/-- Formatting by tables, with locales of one's own that take precedence where their tag is given. -/
def ofTables (tables : Tables) (own : List (String × Locale)) : Formatter :=
  fun tag options value =>
    String.ofList (Format.number tables
      ((own.lookup tag).getD (tables.localeOrEnglish tag)) options value)

/-- Formatting by the tables of the library. -/
def builtIn (own : List (String × Locale)) : Formatter :=
  ofTables Tables.builtIn own

end Formatter
end NumberFormat
