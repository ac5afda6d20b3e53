import NumberFormat.Locale.Basic
import NumberFormat.Options.Basic

namespace NumberFormat
namespace Format

/-!
The sign in front of a number, or the parentheses around it.
-/

inductive SignMark where
  | none
  | plus
  | minus
deriving DecidableEq

/-- The sign of a number, given whether it is negative and whether it is shown as zero. -/
def signMark (negative zero : Bool) : Options.SignDisplay → SignMark
  | .never => .none
  | .auto => if negative then .minus else .none
  | .always => if negative then .minus else .plus
  | .exceptZero => if zero then .none else if negative then .minus else .plus

/-- The number with its sign.  In accounting a minus becomes a pair of parentheses. -/
def withSign (locale : Locale) (accounting : Bool) (number : List Char) : SignMark → List Char
  | .none => number
  | .plus => locale.plusSign.toList ++ number
  | .minus =>
      if accounting then '(' :: number ++ [')'] else locale.minusSign.toList ++ number

end Format
end NumberFormat
