import NumberFormat.Decimal.Basic

namespace NumberFormat
namespace Decimal

/-!
Rounding of decimals to a place, to a number of fraction digits and to a number of significant
digits.  A half goes away from zero, which for numbers without sign is upwards.
-/

/-- The quotient to the nearest whole number, a half going up. -/
def divideHalfUp (numerator denominator : Nat) : Nat :=
  (2 * numerator + denominator) / (2 * denominator)

/-- The nearest multiple of `10 ^ place`. -/
def roundAt (d : Decimal) (place : Int) : Decimal :=
  if place ≤ d.exponent then d
  else scaled (divideHalfUp d.coefficient (Nat.pow 10 (place - d.exponent).toNat)) place

/-- The nearest decimal with at most this many fraction digits. -/
def roundFraction (d : Decimal) (maximum : Nat) : Decimal :=
  d.roundAt (-(maximum : Int))

/-- The nearest decimal with at most this many significant digits. -/
def roundSignificant (d : Decimal) (maximum : Nat) : Decimal :=
  d.roundAt (d.point - maximum)

end Decimal
end NumberFormat
