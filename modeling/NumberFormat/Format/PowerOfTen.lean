import NumberFormat.Format.DigitRule
import NumberFormat.Locale.Basic

namespace NumberFormat
namespace Format

/-!
Decimals with a power of ten split off.

The power is chosen before rounding.  Rounding may carry the decimal into the next power, and
then the decimal moves on by one step and is rounded once more.
-/

/-- A rounded decimal and how many steps were split off it. -/
structure Split (α : Type) where
  mantissa : Decimal
  power : α

/--
The mantissa and the exponent of a decimal, the exponent being a multiple of the step: with a step
of one there is one digit before the point, with a step of three there are up to three.
-/
def exponential (rule : DigitRule) (step : Nat) (d : Decimal) : Split Int :=
  let exponent := d.leadingExponent / step * step
  let mantissa := rule.round (d.shift (-exponent))
  if (step : Int) ≤ mantissa.leadingExponent then
    ⟨rule.round (mantissa.shift (-(step : Int))), exponent + step⟩
  else ⟨mantissa, exponent⟩

/--
The mantissa and the tier of a decimal: how many thousands are split off, as far as there are
names for them.
-/
def compact (rule : DigitRule) (tiers : Nat) (d : Decimal) : Split Nat :=
  let tier := Nat.min tiers (d.leadingExponent / 3).toNat
  let mantissa := rule.round (d.shift (-(3 * tier : Nat)))
  if tier < tiers ∧ 3 ≤ mantissa.leadingExponent then
    ⟨rule.round (mantissa.shift (-3)), tier + 1⟩
  else ⟨mantissa, tier⟩

/-- The name of a tier.  The first one, below a thousand, has none. -/
def tierName (names : List String) : Nat → String
  | 0 => ""
  | tier + 1 => names[tier]?.getD ""

/-- An exponent behind its mark.  It shows a sign only below zero. -/
def exponentText (locale : Locale) (exponent : Int) : List Char :=
  locale.exponentSymbol.toList ++ (if exponent < 0 then locale.minusSign.toList else []) ++
    Nat.toDigits 10 exponent.natAbs

end Format
end NumberFormat
