import NumberFormat.Skeleton.Blueprint
import NumberFormat.Skeleton.Setting

namespace NumberFormat

/-!
Stems: the keywords that skeleton text is made of.

Most keywords stand for one setting and take no option.  Some need an option that says what to
set, two take options for the form of the exponent, and a keyword that opens with `.` or `@` is
itself a blueprint of digits.
-/

namespace NumberUnit

def stem : NumberUnit → String
  | base => "base-unit"
  | currency _ => "currency"
  | measure _ => "measure-unit"
  | percent => "percent"
  | permille => "permille"

end NumberUnit

namespace Precision

def stem : Precision → String
  | digits _ => "precision-fraction"
  | integer => "precision-integer"
  | unlimited => "precision-unlimited"
  | currencyStandard => "precision-currency-standard"
  | currencyCash => "precision-currency-cash"
  | increment _ => "precision-increment"

end Precision

namespace Notation

def stem : Notation → String
  | simple => "notation-simple"
  | scientific _ => "scientific"
  | engineering _ => "engineering"
  | compactShort => "compact-short"
  | compactLong => "compact-long"

end Notation

namespace Stem

/-- The keywords that need exactly one option. -/
inductive Kind where
  | currency
  | measureUnit
  | perMeasureUnit
  | increment
  | integerWidth
  | scale
  | numberingSystem
deriving DecidableEq

instance : Text.Vocabulary Kind where
  values := [.currency, .measureUnit, .perMeasureUnit, .increment, .integerWidth, .scale,
    .numberingSystem]
  word
    | .currency => "currency"
    | .measureUnit => "measure-unit"
    | .perMeasureUnit => "per-measure-unit"
    | .increment => "precision-increment"
    | .integerWidth => "integer-width"
    | .scale => "scale"
    | .numberingSystem => "numbering-system"
  complete := by intro value; cases value <;> simp
  distinct := by intro value other; cases value <;> cases other <;> simp

/-- The keywords that split off a power of ten. -/
inductive Power where
  | scientific
  | engineering
deriving DecidableEq

instance : Text.Vocabulary Power where
  values := [.scientific, .engineering]
  word
    | .scientific => "scientific"
    | .engineering => "engineering"
  complete := by intro value; cases value <;> simp
  distinct := by intro value other; cases value <;> cases other <;> simp

namespace Power

def form : Power → ExponentStyle → Notation
  | scientific, style => .scientific style
  | engineering, style => .engineering style

end Power
end Stem

/-- What a keyword stands for. -/
inductive Stem where
  | plain (setting : Setting)
  | needing (kind : Stem.Kind)
  | power (power : Stem.Power)
  | digits (bounds : DigitBounds)
deriving DecidableEq

namespace Stem

/-- All words of a vocabulary with the settings of their values. -/
def wordsOf {α : Type} [Text.Vocabulary α] (setting : α → Setting) : List (String × Setting) :=
  (Text.Vocabulary.values : List α).map (fun value => (Text.Vocabulary.word value, setting value))

/-- The keywords that take no option, with their settings. -/
def plainStems : List (String × Setting) :=
  [Notation.simple, .compactShort, .compactLong].map (fun form => (form.stem, .form form)) ++
    [NumberUnit.base, .percent, .permille].map (fun unit => (unit.stem, .unit unit)) ++
    wordsOf .unitWidth ++ wordsOf .grouping ++
    [Precision.integer, .unlimited, .currencyStandard, .currencyCash].map
      (fun precision => (precision.stem, .precision precision)) ++
    wordsOf .roundingMode ++ wordsOf .sign ++ wordsOf .decimalMark ++
    [("latin", .numberingSystem "latn")]

/-- What a keyword stands for, if it stands for anything. -/
def ofKeyword? : List Char → Option Stem
  | '.' :: blueprint =>
      (Blueprint.read? '0' blueprint).map
        (fun counts => digits { minFraction := some counts.1, maxFraction := counts.2 })
  | '@' :: blueprint =>
      (Blueprint.significant? ('@' :: blueprint)).map
        (fun counts => digits { minSignificant := some counts.1, maxSignificant := counts.2 })
  | keyword =>
      let word := String.ofList keyword
      (plainStems.lookup word).map plain <|> (Text.valueOf? Kind word).map needing <|>
        (Text.valueOf? Power word).map power

end Stem
end NumberFormat
