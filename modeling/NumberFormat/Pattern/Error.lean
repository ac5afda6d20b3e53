namespace NumberFormat
namespace Pattern

/-!
What can be wrong with a pattern.  Every error ends the reading.
-/

inductive Error where
  | hashAfterDigits
  | digitsAfterHash
  | severalPrecisions
  | severalPoints
  | severalExponents
  | groupedExponent
  | missingCurrency
  | currencyRun (count : Nat)
  | unterminatedQuote (text : String)
deriving DecidableEq

namespace Error

/-- The error as a sentence. -/
def message : Error → String
  | hashAfterDigits => "Pattern has # after integer digits"
  | digitsAfterHash => "Pattern has digits after # in fraction"
  | severalPrecisions => "Pattern sets multiple precisions"
  | severalPoints => "Pattern has more than one decimal separator"
  | severalExponents => "Pattern has more than one exponent"
  | groupedExponent => "Exponential patterns may not contain grouping separators"
  | missingCurrency => "The ¤ pattern requires a currency"
  | currencyRun count => "Invalid number (" ++ toString count ++ ") of ¤ chars in pattern"
  | unterminatedQuote text => "Unterminated quoted literal in pattern: " ++ text

end Error
end Pattern
end NumberFormat
