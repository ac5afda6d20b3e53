namespace NumberFormat

/-!
Locales: the symbols and patterns numbers are written with in one language.

A pattern is a template with a slot for the number.  The sign `¤` in a currency pattern
stands for the currency.
-/

structure Locale where
  decimalPoint : Char
  groupSeparator : Char
  minusSign : String
  plusSign : String
  exponentSymbol : String
  nanSymbol : String
  infinitySymbol : String
  currencyPattern : String
  percentPattern : String
  compactShort : List String
  compactLong : List String
  numberingSystem : Option String
deriving DecidableEq

namespace Locale

/-- What a locale has other than those it is derived from. -/
structure Changes where
  decimalPoint : Option Char := none
  groupSeparator : Option Char := none
  minusSign : Option String := none
  plusSign : Option String := none
  exponentSymbol : Option String := none
  nanSymbol : Option String := none
  infinitySymbol : Option String := none
  currencyPattern : Option String := none
  percentPattern : Option String := none
  compactShort : Option (List String) := none
  compactLong : Option (List String) := none
  numberingSystem : Option String := none
deriving DecidableEq

/-- The locale with the changes made to it. -/
def change (locale : Locale) (changes : Changes) : Locale where
  decimalPoint := changes.decimalPoint.getD locale.decimalPoint
  groupSeparator := changes.groupSeparator.getD locale.groupSeparator
  minusSign := changes.minusSign.getD locale.minusSign
  plusSign := changes.plusSign.getD locale.plusSign
  exponentSymbol := changes.exponentSymbol.getD locale.exponentSymbol
  nanSymbol := changes.nanSymbol.getD locale.nanSymbol
  infinitySymbol := changes.infinitySymbol.getD locale.infinitySymbol
  currencyPattern := changes.currencyPattern.getD locale.currencyPattern
  percentPattern := changes.percentPattern.getD locale.percentPattern
  compactShort := changes.compactShort.getD locale.compactShort
  compactLong := changes.compactLong.getD locale.compactLong
  numberingSystem := changes.numberingSystem <|> locale.numberingSystem

end Locale
end NumberFormat
