import NumberFormat.Decimal.Digits
import NumberFormat.Decimal.Rounding
import NumberFormat.Options.Basic

namespace NumberFormat

/-!
Digit rules: how far a decimal is rounded and how many digits of it are shown at least.

A rule comes from options.  Bounds on significant digits take precedence over bounds on fraction
digits, contradictory bounds are widened, and what is not bounded follows the style.
-/

/-- How far a decimal is rounded, with the digits that are shown whether they are needed or not. -/
inductive Rounding where
  | fraction (minimum maximum : Nat)
  | significant (minimum maximum : Nat)
  /-- Two significant digits, or all digits of the whole part if it has more. -/
  | compact
deriving DecidableEq

structure DigitRule where
  minimumWhole : Nat
  rounding : Rounding
deriving DecidableEq

namespace Rounding

/-- The largest number of fraction digits. -/
def fractionLimit : Nat := 20

/-- The largest number of significant digits. -/
def significantLimit : Nat := 21

/-- Rounding to significant digits, one at least and the least number never above the largest. -/
def ofSignificant (minimum maximum : Option Nat) : Rounding :=
  let least := Nat.min significantLimit (Nat.max 1 (minimum.getD 1))
  significant least (Nat.min significantLimit (Nat.max least (maximum.getD significantLimit)))

/--
Rounding to fraction digits.  A bound that is not given follows the usual bounds, but never
contradicts one that is given; if both are given the least number decides.
-/
def ofFraction (minimum maximum : Option Nat) (usual : Nat × Nat) : Rounding :=
  let bounds : Nat × Nat := match minimum, maximum with
    | some least, some most => (least, Nat.max most least)
    | some least, none => (least, Nat.max usual.2 least)
    | none, some most => (Nat.min usual.1 most, most)
    | none, none => usual
  fraction (Nat.min fractionLimit bounds.1) (Nat.min fractionLimit bounds.2)

/-- The decimal rounded. -/
def round (rounding : Rounding) (d : Decimal) : Decimal :=
  match rounding with
  | fraction _ maximum => d.roundFraction maximum
  | significant _ maximum => d.roundSignificant maximum
  | compact => if d.point ≤ 2 then d.roundSignificant 2 else d.roundFraction 0

/--
How many fraction digits of a rounded decimal are shown at least.  A least number of significant
digits is made up of the digits before the point and of zeros behind it; a zero counts as one digit.
-/
def minimumFraction (rounding : Rounding) (d : Decimal) : Nat :=
  match rounding with
  | fraction minimum _ => minimum
  | significant minimum _ => ((minimum : Int) - (if d.isZero then 1 else d.point)).toNat
  | compact => 0

end Rounding

namespace DigitRule

/-- How options round, given the usual bounds on fraction digits. -/
def roundingOf (options : Options) (usual : Nat × Nat) : Rounding :=
  let minimumFraction := options.minimumFractionDigits.map Options.Count.value
  let maximumFraction := options.maximumFractionDigits.map Options.Count.value
  let minimumSignificant := options.minimumSignificantDigits.map Options.Count.value
  let maximumSignificant := options.maximumSignificantDigits.map Options.Count.value
  if minimumSignificant.isSome || maximumSignificant.isSome then
    .ofSignificant minimumSignificant maximumSignificant
  else if minimumFraction.isNone && maximumFraction.isNone && options.form == some .compact then
    .compact
  else .ofFraction minimumFraction maximumFraction usual

/-- The rule of options, given the usual bounds on fraction digits. -/
def ofOptions (options : Options) (usual : Nat × Nat) : DigitRule where
  minimumWhole := (options.minimumIntegerDigits.map Options.Count.value).getD 1
  rounding := roundingOf options usual

def round (rule : DigitRule) (d : Decimal) : Decimal :=
  rule.rounding.round d

/-- The digits before the point of a rounded decimal. -/
def wholeDigits (rule : DigitRule) (d : Decimal) : List Char :=
  d.wholeDigits rule.minimumWhole

/-- The digits behind the point of a rounded decimal. -/
def fractionDigits (rule : DigitRule) (d : Decimal) : List Char :=
  d.fractionDigits (rule.rounding.minimumFraction d)

end DigitRule
end NumberFormat
