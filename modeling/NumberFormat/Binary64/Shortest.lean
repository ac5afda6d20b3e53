import NumberFormat.Binary64.Rounding

namespace NumberFormat
namespace Magnitude

/-!
The shortest decimal that reads back as a given magnitude.

For one, two, … seventeen digits the two neighbours of the magnitude on that decimal grid are
tried; the first grid on which one of them reads back decides.  Of two that read back the nearer is
taken, and the larger of two equally near.  Should no grid have a hit, the exact decimal serves,
so the decimal always reads back.
-/

/-- How many digits stand before the decimal point of a magnitude, negative for small ones. -/
def point (m : Magnitude) : Int :=
  (Nat.toDigits 10 (m.units * Nat.pow 10 340 / Binary64.one)).length - 340

/-- The better of the neighbours among the multiples of `10 ^ place`, if either reads back. -/
def onGrid? (m : Magnitude) (place : Int) : Option Decimal :=
  let numerator := m.units * Nat.pow 10 (-place).toNat
  let denominator := Binary64.one * Nat.pow 10 place.toNat
  let below := Decimal.scaled (numerator / denominator) place
  let above := Decimal.scaled (numerator / denominator + 1) place
  match decide (ofDecimal? below = some m), decide (ofDecimal? above = some m) with
  | true, true =>
      some (if 2 * (numerator % denominator) < denominator then below else above)
  | true, false => some below
  | false, true => some above
  | false, false => none

/-- All digits of the magnitude: a unit is `5 ^ 1074 * 10 ^ -1074`. -/
def exact (m : Magnitude) : Decimal :=
  Decimal.scaled (m.units * Nat.pow 5 1074) (-1074)

/-- The decimal with the fewest digits that reads back as the magnitude. -/
def shortest (m : Magnitude) : Decimal :=
  if m.isZero then Decimal.zero
  else
    ((List.range 17).findSome?
      (fun fewer => m.onGrid? (m.point - (fewer + 1 : Nat)))).getD m.exact

theorem ofDecimal?_of_onGrid? {m : Magnitude} {place : Int} {d : Decimal}
    (hit : m.onGrid? place = some d) : ofDecimal? d = some m := by
  unfold onGrid? at hit
  dsimp only at hit
  split at hit
  · rename_i below above
    simp only [decide_eq_true_eq] at below above
    split at hit <;> cases hit <;> assumption
  · rename_i below _
    cases hit
    simpa using below
  · rename_i _ above
    cases hit
    simpa using above
  · cases hit

end Magnitude
end NumberFormat
