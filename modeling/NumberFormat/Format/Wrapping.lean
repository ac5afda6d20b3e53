import NumberFormat.Locale.Tables
import NumberFormat.Options.Basic
import NumberFormat.Text.Letter

namespace NumberFormat
namespace Format

/-!
What a number is wrapped in: a currency, a percent sign or a measure unit.
-/

/-- The space that keeps letters and digits apart without letting a line break. -/
def unbrokenSpace : Char := '\u00a0'

/-- Whether a number is named in the singular, which only the written number one is. -/
def isOne (number : List Char) : Bool :=
  number == ['1']

/-! ## Currencies -/

/-- How a currency is shown next to a number; a currency without entry is shown by its code. -/
def currencySymbol (code : String) (entry : Option Currency) :
    Options.CurrencyDisplay → List Char
  | .symbol => ((entry.map Currency.symbol).getD code).toList
  | .narrowSymbol => ((entry.map Currency.narrow).getD code).toList
  | .code => code.toList
  | .name => code.toList

/-- The full name of a currency, in the number of its amount. -/
def currencyName (code : String) (entry : Option Currency) (number : List Char) : List Char :=
  match entry with
  | some currency => (if isOne number then currency.one else currency.other).toList
  | none => code.toList

def endsInLetter (last : Option Char) : Bool :=
  last.any Text.isLetter

/-- Whether a symbol that opens with a letter stands directly behind. -/
def letterFollows (symbol : List Char) : List Char → Bool
  | '¤' :: _ => symbol.head?.any Text.isLetter
  | _ => false

/--
A currency pattern with the number and the symbol put in.  Where a letter would touch the number, a
space comes between.  The last character written so far decides that on the left.
-/
def placeCurrency (number symbol : List Char) : (last : Option Char) → List Char → List Char
  | last, '{' :: '0' :: '}' :: rest =>
      let piece := (if endsInLetter last then [unbrokenSpace] else []) ++ number ++
        (if letterFollows symbol rest then [unbrokenSpace] else [])
      piece ++ placeCurrency number symbol (piece.getLast? <|> last) rest
  | last, '¤' :: rest => symbol ++ placeCurrency number symbol (symbol.getLast? <|> last) rest
  | _, c :: rest => c :: placeCurrency number symbol (some c) rest
  | _, [] => []

/-- A number as an amount of money. -/
def withCurrency (locale : Locale) (code : String) (entry : Option Currency)
    (display : Options.CurrencyDisplay) (number : List Char) : List Char :=
  if display = .name then number ++ ' ' :: currencyName code entry number
  else placeCurrency number (currencySymbol code entry display) none locale.currencyPattern.toList

/-! ## Percent -/

def withPercent (locale : Locale) (number : List Char) : List Char :=
  Text.fill number locale.percentPattern.toList

/-! ## Measure units -/

/-- The texts on both sides of the first place where a mark stands. -/
def splitAt? (mark : List Char) : List Char → Option (List Char × List Char)
  | [] => none
  | c :: rest =>
      if mark.isPrefixOf (c :: rest) then some ([], (c :: rest).drop mark.length)
      else (splitAt? mark rest).map (fun sides => (c :: sides.1, sides.2))

/-- What stands between the two units of a compound unit. -/
def perMark : List Char := ['-', 'p', 'e', 'r', '-']

/-- The pattern of a unit.  A unit without entry is named behind the number by its id. -/
def unitPattern (id : List Char) (entry : Option MeasureUnit) (display : Options.UnitDisplay)
    (number : List Char) : List Char :=
  match entry, display with
  | some unit, .short => unit.short.toList
  | some unit, .narrow => unit.narrow.toList
  | some unit, .long => (if isOne number then unit.one else unit.other).toList
  | none, _ => Text.slot ++ ' ' :: id

/-- What a compound unit adds for the unit it is counted by. -/
def perText (id : List Char) (entry : Option MeasureUnit) : Options.UnitDisplay → List Char
  | .long => [' ', 'p', 'e', 'r', ' '] ++
      (match entry with
      | some unit => MeasureUnit.bare unit.one
      | none => id)
  | _ => '/' :: (match entry with
      | some unit => unit.symbol
      | none => id)

/-- A number with a unit or with a compound unit. -/
def withUnit (tables : Tables) (id : String) (display : Options.UnitDisplay)
    (number : List Char) : List Char :=
  let pattern (part : List Char) :=
    unitPattern part (tables.unit? (String.ofList part)) display number
  Text.fill number
    (match splitAt? perMark id.toList with
    | none => pattern id.toList
    | some (counted, per) =>
        pattern counted ++ perText per (tables.unit? (String.ofList per)) display)

end Format
end NumberFormat
