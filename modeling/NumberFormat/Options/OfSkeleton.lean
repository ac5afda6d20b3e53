import NumberFormat.Binary64.Literal
import NumberFormat.Diagnostic
import NumberFormat.Options.Basic
import NumberFormat.Skeleton.Stem

namespace NumberFormat

/-!
The options a skeleton asks for, and the choices of the skeleton that options cannot express.

Every skeleton has options.  A choice without a counterpart among them is left out and
reported, and one with an approximate counterpart is taken over and reported.
-/

namespace Options

/-- The name of a unit without the category it opens with: `length-meter` becomes `meter`. -/
def unitName (id : String) : String :=
  match id.toList.dropWhile (· != '-') with
  | _ :: name => String.ofList name
  | [] => id

/-- The name of a unit, with that of the unit it is counted by. -/
def compoundName (id : String) : Option String → String
  | some other => unitName id ++ "-per-" ++ unitName other
  | none => unitName id

def styleOf : NumberUnit → Option Style
  | .base => some .decimal
  | .currency _ => some .currency
  | .measure _ => some .unit
  | .percent => some .percent
  | .permille => none

def currencyDisplayOf : UnitWidth → Option CurrencyDisplay
  | .fullName => some .name
  | .hidden => none
  | .isoCode => some .code
  | .narrow => some .narrowSymbol
  | .short => some .symbol

def unitDisplayOf : UnitWidth → Option UnitDisplay
  | .fullName => some .long
  | .hidden => none
  | .isoCode => none
  | .narrow => some .narrow
  | .short => some .short

def useGroupingOf : Grouping → Option Bool
  | .auto => some true
  | .off => some false
  | _ => none

/-- The digit bounds of a precision.  Those that do not bound digits have none. -/
def digitBoundsOf : Precision → DigitBounds
  | .digits bounds => bounds
  | .integer => { maxFraction := some 0 }
  | .unlimited => { maxFraction := some 20 }
  | _ => {}

def formOf : Notation → Form
  | .simple => .standard
  | .scientific _ => .scientific
  | .engineering _ => .engineering
  | .compactShort => .compact
  | .compactLong => .compact

def compactDisplayOf : Notation → Option CompactDisplay
  | .compactShort => some .short
  | .compactLong => some .long
  | _ => none

def signDisplayOf : Sign → Option SignDisplay
  | .auto => some .auto
  | .always => some .always
  | .never => some .never
  | .accounting => none
  | .accountingAlways => some .always
  | .exceptZero => some .exceptZero
  | .accountingExceptZero => some .exceptZero

def currencySignOf : Sign → Option CurrencySign
  | .accounting => some .accounting
  | .accountingAlways => some .accounting
  | .accountingExceptZero => some .accounting
  | _ => none

/-- The options a skeleton asks for. -/
def ofSkeleton (s : Skeleton) : Options :=
  let bounds := (s.precision.map digitBoundsOf).getD {}
  { style := s.unit.bind styleOf
    currency := match s.unit with
      | some (.currency code) => some code
      | _ => none
    currencyDisplay := s.unitWidth.bind currencyDisplayOf
    unit := match s.unit with
      | some (.measure id) => some (compoundName id s.perUnit)
      | _ => none
    unitDisplay := s.unitWidth.bind unitDisplayOf
    useGrouping := s.grouping.bind useGroupingOf
    minimumIntegerDigits := ((s.integerWidth.map IntegerWidth.min).filter (0 < ·)).map .ofNat
    minimumFractionDigits := bounds.minFraction.map .ofNat
    maximumFractionDigits := bounds.maxFraction.map .ofNat
    minimumSignificantDigits := bounds.minSignificant.map .ofNat
    maximumSignificantDigits := bounds.maxSignificant.map .ofNat
    form := s.form.map formOf
    compactDisplay := s.form.bind compactDisplayOf
    signDisplay := s.sign.bind signDisplayOf
    currencySign := s.sign.bind currencySignOf }

end Options

namespace Skeleton

def unsupportedUnit : NumberUnit → Option Diagnostic
  | .permille => some (.unsupported NumberUnit.permille.stem none)
  | _ => none

def unsupportedUnitWidth : UnitWidth → Option Diagnostic
  | .hidden => some (.unsupported (Text.Vocabulary.word UnitWidth.hidden) none)
  | _ => none

def unsupportedGrouping : Grouping → Option Diagnostic
  | .auto => none
  | .off => none
  | grouping => some (.unsupported (Text.Vocabulary.word grouping) none)

def unsupportedIntegerWidth (width : IntegerWidth) : Option Diagnostic :=
  if width.max.isSome then some (.unsupported "integer-width" (some width.sourceText)) else none

def unsupportedPrecision : Precision → Option Diagnostic
  | .digits bounds =>
      if bounds.boundsFraction && bounds.boundsSignificant then
        some (.unsupported (Precision.digits bounds).stem (some bounds.sourceText))
      else none
  | .currencyCash => some (.unsupported Precision.currencyCash.stem none)
  | .increment step => some (.unsupported (Precision.increment step).stem (some step.text))
  | _ => none

def unsupportedForm : Notation → Option Diagnostic
  | .scientific style =>
      if style.isCustomized then
        some (.unsupported (Notation.scientific style).stem (some style.sourceText))
      else none
  | .engineering style =>
      if style.isCustomized then
        some (.unsupported (Notation.engineering style).stem (some style.sourceText))
      else none
  | _ => none

def unsupportedDecimalMark : DecimalMark → Option Diagnostic
  | .auto => none
  | .always => some (.unsupported (Text.Vocabulary.word DecimalMark.always) none)

/-- What the options of a skeleton leave out or only approximate, axis by axis. -/
def unsupported (s : Skeleton) : List Diagnostic :=
  [s.unit.bind unsupportedUnit,
    s.unitWidth.bind unsupportedUnitWidth,
    s.grouping.bind unsupportedGrouping,
    s.integerWidth.bind unsupportedIntegerWidth,
    s.precision.bind unsupportedPrecision,
    s.form.bind unsupportedForm,
    s.decimalMark.bind unsupportedDecimalMark,
    s.roundingMode.map (fun mode => .unsupported (Text.Vocabulary.word mode) none)].filterMap id

end Skeleton
end NumberFormat
