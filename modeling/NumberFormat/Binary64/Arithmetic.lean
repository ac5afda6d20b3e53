import NumberFormat.Binary64.Shortest

namespace NumberFormat

/-!
Arithmetic of binary64 numbers: products and quotients, correctly rounded as IEEE 754 prescribes,
and the step down by two decimal places.
-/

namespace Magnitude

/-- The magnitude nearest to the product of two, if it is within range. -/
def product? (m n : Magnitude) : Option Magnitude :=
  nearest? (m.units * n.units) Binary64.one

/-- The magnitude nearest to the quotient of two, if it is within range. -/
def quotient? (m n : Magnitude) : Option Magnitude :=
  nearest? (m.units * Binary64.one) n.units

/-- The magnitude nearest to a power of ten, if it is within range. -/
def powerOfTen? (power : Nat) : Option Magnitude :=
  ofDecimal? (Decimal.scaled 1 power)

end Magnitude

namespace Binary64

/-- The product, rounded to the nearest number of the format. -/
def multiply : Binary64 → Binary64 → Binary64
  | nan, _ => nan
  | _, nan => nan
  | infinite left, infinite right => infinite (left != right)
  | infinite left, finite right m =>
      if m.isZero then nan else infinite (left != right)
  | finite left m, infinite right =>
      if m.isZero then nan else infinite (left != right)
  | finite left m, finite right n =>
      signed (left != right) (m.product? n)

/--
A hundredth of a value, taken on its shortest decimal: the decimal point moves by two places and
the result is read again, so that moving the point back restores the digits.  Zeros, infinities
and what is no number stay as they are.
-/
def hundredth : Binary64 → Binary64
  | nan => nan
  | infinite negative => infinite negative
  | finite negative m =>
      if m.isZero then finite negative m
      else ofDecimal negative (m.shortest.shift (-2))

end Binary64
end NumberFormat
