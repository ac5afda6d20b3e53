import NumberFormat.Locale.Standard
import NumberFormat.Text.Blank

namespace NumberFormat

/-!
The tables a formatter looks into: locales, currencies, measure units and numbering systems.
-/

/-- How a currency is shown, and how many digits its amounts have behind the point. -/
structure Currency where
  symbol : String
  narrow : String
  one : String
  other : String
  digits : Nat := 2
deriving DecidableEq

/-- The patterns of a measure unit, with the symbol of the unit when others are counted by it. -/
structure MeasureUnit where
  short : String
  narrow : String
  one : String
  other : String
  per : Option String := none
deriving DecidableEq

namespace MeasureUnit

/-- A pattern without its slot and without the blanks around what is left. -/
def bare (pattern : String) : List Char :=
  Text.trim (Text.fill [] pattern.toList)

/-- The symbol of the unit when others are counted by it. -/
def symbol (unit : MeasureUnit) : List Char :=
  match unit.per with
  | some symbol => symbol.toList
  | none => bare unit.short

end MeasureUnit

structure Tables where
  locales : List (String × Locale)
  currencies : List (String × Currency)
  units : List (String × MeasureUnit)
  zeroDigits : List (String × Char)
deriving DecidableEq

namespace Tables

/-- The name under which the changes stand that all locales share. -/
def baseName : String := "base"

/-- Every locale with its own changes, made after those that all of them share. -/
def derived (changes : List (String × Locale.Changes)) : List (String × Locale) :=
  let base := Locale.standard.change ((changes.lookup baseName).getD {})
  (changes.filter (fun entry => entry.1 != baseName)).map
    (fun entry => (entry.1, base.change entry.2))

/-- The language a tag names: what stands before the first hyphen or underscore, in lowercase. -/
def language (tag : String) : String :=
  String.ofList ((tag.toList.takeWhile (fun c => c != '-' && c != '_')).map Char.toLower)

/-- The locale of a tag, or else that of its language. -/
def locale? (tables : Tables) (tag : String) : Option Locale :=
  tables.locales.lookup tag <|> tables.locales.lookup (language tag)

/-- The locale of a tag, or else English. -/
def localeOrEnglish (tables : Tables) (tag : String) : Locale :=
  (tables.locale? tag <|> tables.locale? "en").getD Locale.standard

def currency? (tables : Tables) (code : String) : Option Currency :=
  tables.currencies.lookup code

def unit? (tables : Tables) (id : String) : Option MeasureUnit :=
  tables.units.lookup id

/-- The digit zero of a numbering system, behind which its other digits follow in order. -/
def zeroDigit? (tables : Tables) (numberingSystem : String) : Option Char :=
  tables.zeroDigits.lookup numberingSystem

end Tables
end NumberFormat
