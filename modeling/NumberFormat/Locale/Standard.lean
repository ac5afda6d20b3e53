import NumberFormat.Locale.Basic
import NumberFormat.Text.Template

namespace NumberFormat
namespace Locale

/-- The locale that stands in where there is no other, which writes numbers as English does. -/
def standard : Locale where
  decimalPoint := '.'
  groupSeparator := ','
  minusSign := "-"
  plusSign := "+"
  exponentSymbol := "E"
  nanSymbol := "NaN"
  infinitySymbol := "∞"
  currencyPattern := "¤" ++ Text.slotText
  percentPattern := Text.slotText ++ "%"
  compactShort := ["K", "M", "B", "T"]
  compactLong := [" thousand", " million", " billion", " trillion"]
  numberingSystem := none

end Locale
end NumberFormat
