import NumberFormat.Locale.Tables

namespace NumberFormat
namespace Tables
namespace BuiltIn

/-!
The tables that come with the library.
-/

/-- The slot for the number in a pattern. -/
def number : String := Text.slotText

/-- What all locales share. -/
def shared : Locale.Changes where
  decimalPoint := some '.'
  groupSeparator := some ','
  minusSign := some "-"
  plusSign := some "+"
  exponentSymbol := some "E"
  nanSymbol := some "NaN"
  infinitySymbol := some "∞"
  currencyPattern := some ("¤" ++ number)
  percentPattern := some (number ++ "%")
  compactShort := some ["K", "M", "B", "T"]
  compactLong := some [" thousand", " million", " billion", " trillion"]

def english : Locale.Changes := {}

def german : Locale.Changes where
  decimalPoint := some ','
  groupSeparator := some '.'
  currencyPattern := some (number ++ "\u00a0¤")
  percentPattern := some (number ++ "\u00a0%")
  compactShort := some [" Tsd.", " Mio.", " Mrd.", " Bio."]
  compactLong := some [" Tausend", " Millionen", " Milliarden", " Billionen"]

def french : Locale.Changes where
  decimalPoint := some ','
  groupSeparator := some '\u202f'
  currencyPattern := some (number ++ "\u00a0¤")
  percentPattern := some (number ++ "\u00a0%")
  compactShort := some [" k", " M", " Md", " Bn"]
  compactLong := some [" mille", " millions", " milliards", " billions"]

def spanish : Locale.Changes where
  decimalPoint := some ','
  groupSeparator := some '.'
  currencyPattern := some (number ++ "\u00a0¤")
  percentPattern := some (number ++ "\u00a0%")
  compactShort := some [" mil", " M", " mil M", " B"]
  compactLong := some [" mil", " millones", " mil millones", " billones"]

def italian : Locale.Changes where
  decimalPoint := some ','
  groupSeparator := some '.'
  currencyPattern := some (number ++ "\u00a0¤")
  compactShort := some ["", " Mln", " Mrd", " Bln"]
  compactLong := some [" mila", " milioni", " miliardi", " mila miliardi"]

def portuguese : Locale.Changes where
  decimalPoint := some ','
  groupSeparator := some '.'
  currencyPattern := some ("¤\u00a0" ++ number)
  compactShort := some [" mil", " mi", " bi", " tri"]
  compactLong := some [" mil", " milhões", " bilhões", " trilhões"]

def dutch : Locale.Changes where
  decimalPoint := some ','
  groupSeparator := some '.'
  currencyPattern := some ("¤\u00a0" ++ number)
  compactShort := some ["K", " mln.", " mld.", " bln."]
  compactLong := some [" duizend", " miljoen", " miljard", " biljoen"]

def swedish : Locale.Changes where
  decimalPoint := some ','
  groupSeparator := some '\u00a0'
  minusSign := some "−"
  currencyPattern := some (number ++ "\u00a0¤")
  percentPattern := some (number ++ "\u00a0%")
  exponentSymbol := some "×10^"
  compactShort := some [" tn", " mn", " md", " bn"]
  compactLong := some [" tusen", " miljoner", " miljarder", " biljoner"]

def japanese : Locale.Changes where
  compactShort := some ["千", "百万", "十億", "兆"]
  compactLong := some ["千", "百万", "十億", "兆"]

def chinese : Locale.Changes where
  compactShort := some ["千", "百万", "十亿", "万亿"]
  compactLong := some ["千", "百万", "十亿", "万亿"]

def hindi : Locale.Changes where
  compactShort := some [" हज़ार", " लाख", " क॰", " अ॰"]
  compactLong := some [" हज़ार", " लाख", " करोड़", " अरब"]

def thai : Locale.Changes := {}

def arabic : Locale.Changes where
  decimalPoint := some '٫'
  groupSeparator := some '٬'
  minusSign := some "\u061c-"
  plusSign := some "\u061c+"
  percentPattern := some (number ++ "٪\u061c")
  exponentSymbol := some "أس"
  nanSymbol := some "ليس رقمًا"
  currencyPattern := some (number ++ "\u00a0¤")
  numberingSystem := some "arab"
  compactShort := some [" ألف", " مليون", " مليار", " ترليون"]
  compactLong := some [" ألف", " مليون", " مليار", " ترليون"]

def locales : List (String × Locale.Changes) :=
  [(baseName, shared), ("en", english), ("de", german), ("fr", french), ("es", spanish),
    ("it", italian), ("pt", portuguese), ("nl", dutch), ("sv", swedish), ("ja", japanese),
    ("zh", chinese), ("hi", hindi), ("th", thai), ("ar", arabic)]

def currencies : List (String × Currency) :=
  [("USD", ⟨"US$", "$", "US dollar", "US dollars", 2⟩),
    ("CAD", ⟨"CA$", "$", "Canadian dollar", "Canadian dollars", 2⟩),
    ("AUD", ⟨"A$", "$", "Australian dollar", "Australian dollars", 2⟩),
    ("EUR", ⟨"€", "€", "euro", "euros", 2⟩),
    ("GBP", ⟨"£", "£", "British pound", "British pounds", 2⟩),
    ("CHF", ⟨"CHF", "CHF", "Swiss franc", "Swiss francs", 2⟩),
    ("SEK", ⟨"SEK", "kr", "Swedish krona", "Swedish kronor", 2⟩),
    ("JPY", ⟨"¥", "¥", "Japanese yen", "Japanese yen", 0⟩),
    ("KRW", ⟨"₩", "₩", "South Korean won", "South Korean won", 0⟩),
    ("CNY", ⟨"CN¥", "¥", "Chinese yuan", "Chinese yuan", 2⟩),
    ("INR", ⟨"₹", "₹", "Indian rupee", "Indian rupees", 2⟩),
    ("THB", ⟨"THB", "฿", "Thai baht", "Thai baht", 2⟩),
    ("BRL", ⟨"R$", "R$", "Brazilian real", "Brazilian reals", 2⟩),
    ("MXN", ⟨"MX$", "$", "Mexican peso", "Mexican pesos", 2⟩)]

/-- Patterns that put their text behind the number. -/
def behind (short narrow one other : String) (per : Option String) : MeasureUnit :=
  ⟨number ++ short, number ++ narrow, number ++ one, number ++ other, per⟩

def units : List (String × MeasureUnit) :=
  [("meter", behind " m" "m" " meter" " meters" none),
    ("kilometer", behind " km" "km" " kilometer" " kilometers" none),
    ("centimeter", behind " cm" "cm" " centimeter" " centimeters" none),
    ("millimeter", behind " mm" "mm" " millimeter" " millimeters" none),
    ("mile", behind " mi" "mi" " mile" " miles" none),
    ("foot", behind " ft" "′" " foot" " feet" none),
    ("inch", behind " in" "″" " inch" " inches" none),
    ("second", behind " sec" "s" " second" " seconds" (some "s")),
    ("minute", behind " min" "m" " minute" " minutes" (some "min")),
    ("hour", behind " hr" "h" " hour" " hours" (some "h")),
    ("day", behind " days" "d" " day" " days" (some "d")),
    ("kilogram", behind " kg" "kg" " kilogram" " kilograms" none),
    ("gram", behind " g" "g" " gram" " grams" none),
    ("pound", behind " lb" "#" " pound" " pounds" none),
    ("liter", behind " L" "L" " liter" " liters" none),
    ("gallon", behind " gal" "gal" " gallon" " gallons" none),
    ("celsius", behind "°C" "°C" " degree Celsius" " degrees Celsius" none),
    ("fahrenheit", behind "°F" "°" " degree Fahrenheit" " degrees Fahrenheit" none),
    ("byte", behind " byte" "B" " byte" " bytes" none),
    ("kilobyte", behind " kB" "kB" " kilobyte" " kilobytes" none),
    ("megabyte", behind " MB" "MB" " megabyte" " megabytes" none),
    ("gigabyte", behind " GB" "GB" " gigabyte" " gigabytes" none),
    ("percent", behind "%" "%" " percent" " percent" none)]

def zeroDigits : List (String × Char) :=
  [("arab", '\u0660'), ("arabext", '\u06f0'), ("beng", '\u09e6'), ("deva", '\u0966'),
    ("fullwide", '\uff10'), ("gujr", '\u0ae6'), ("guru", '\u0a66'), ("khmr", '\u17e0'),
    ("knda", '\u0ce6'), ("laoo", '\u0ed0'), ("latn", '\u0030'), ("mlym", '\u0d66'),
    ("mymr", '\u1040'), ("orya", '\u0b66'), ("tamldec", '\u0be6'), ("telu", '\u0c66'),
    ("thai", '\u0e50'), ("tibt", '\u0f20')]

end BuiltIn

/-- The tables of the library. -/
def builtIn : Tables where
  locales := derived BuiltIn.locales
  currencies := BuiltIn.currencies
  units := BuiltIn.units
  zeroDigits := BuiltIn.zeroDigits

end Tables
end NumberFormat
