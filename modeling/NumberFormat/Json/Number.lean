import NumberFormat.Binary64.Arithmetic
import NumberFormat.Binary64.Literal
import NumberFormat.Json.Basic

namespace NumberFormat
namespace Json

/-!
Numbers in JSON text.

The digits of a number are collected in 64 bits.  A digit of the whole part that does not fit any
more, and every one behind it, only counts as a place; in the fraction such digits are ignored.  A
number written with digits alone that all fit is whole.  Any other is the collected number in
binary64, multiplied or divided by a power of ten with a rounding at each step, so it need not be
the number of the format nearest to what is written.  It has to be within range.
-/

/-! ## Collecting digits -/

/-- The largest number of 64 bits. -/
def wholeLimit : Nat := 18446744073709551615

/-- A number with digits written behind it as long as they fit, and the digits that are left. -/
def collect (number : Nat) : List Char → Nat × List Char
  | [] => (number, [])
  | digit :: rest =>
      let longer := 10 * number + (digit.toNat - '0'.toNat)
      if longer ≤ wholeLimit then collect longer rest else (number, digit :: rest)

/-- Collecting digits does not lead beyond the limit. -/
theorem collect_le (digits : List Char) {number : Nat} (within : number ≤ wholeLimit) :
    (collect number digits).1 ≤ wholeLimit := by
  induction digits generalizing number with
  | nil => exact within
  | cons digit rest ih =>
      unfold collect
      dsimp only
      split
      · rename_i longer
        exact ih longer
      · exact within

theorem le_ofDigitChars (digits : List Char) (number : Nat) :
    number ≤ Nat.ofDigitChars 10 digits number := by
  induction digits generalizing number with
  | nil => exact Nat.le_refl number
  | cons digit rest ih =>
      have further := ih (10 * number + (digit.toNat - '0'.toNat))
      simp only [Nat.ofDigitChars_cons]
      omega

/-- Digits that make a number within the limit are all collected. -/
theorem collect_of_le {digits : List Char} {number : Nat}
    (fits : Nat.ofDigitChars 10 digits number ≤ wholeLimit) :
    collect number digits = (Nat.ofDigitChars 10 digits number, []) := by
  induction digits generalizing number with
  | nil => rfl
  | cons digit rest ih =>
      simp only [Nat.ofDigitChars_cons] at fits ⊢
      have first := Nat.le_trans (le_ofDigitChars rest _) fits
      simp only [collect, first, if_true]
      exact ih fits

/-- A whole number of 64 bits times a power of ten, as which a number in text is read. -/
structure Collected where
  number : Nat
  power : Int
  bounded : number ≤ wholeLimit

namespace Collected

/-- The digits of a whole part and of a fraction, times a power of ten. -/
def ofDigits (whole fraction : List Char) (exponent : Int) : Collected :=
  let first := collect 0 whole
  let all := collect first.1 fraction
  let places := fraction.length - all.2.length
  ⟨all.1, exponent + first.2.length - places,
    collect_le fraction (collect_le whole (Nat.zero_le wholeLimit))⟩

/--
The magnitude with a rounding at each step, if it is within range.  Powers of ten beyond `10 ^ 308`
are beyond the format, so a division by more is done in two steps, and one by more than `10 ^ 616`
leaves nothing.
-/
def magnitude? (collected : Collected) : Option Magnitude := do
  let m ← Magnitude.ofDecimal? (Decimal.scaled collected.number 0)
  let divisor := (-collected.power).toNat
  if m.isZero ∨ 616 < divisor then return Magnitude.zero
  else if 308 < divisor then
    let quotient ← m.quotient? (← Magnitude.powerOfTen? 308)
    quotient.quotient? (← Magnitude.powerOfTen? (divisor - 308))
  else if 0 < divisor then m.quotient? (← Magnitude.powerOfTen? divisor)
  else m.product? (← Magnitude.powerOfTen? collected.power.toNat)

end Collected

/-! ## Reading -/

/-- The digits behind a decimal point, if there is one; the point must not stand alone. -/
def takeFraction? : List Char → Option (List Char × List Char)
  | '.' :: rest =>
      match Binary64.takeDigits rest with
      | ([], _) => none
      | (digits, rest) => some (digits, rest)
  | rest => some ([], rest)

def takeNumber? (text : List Char) : Option (Json × List Char) :=
  let (negative, body) := match text with
    | '-' :: rest => (true, rest)
    | rest => (false, rest)
  match Binary64.takeDigits body with
  | ([], _) => none
  | ('0' :: _ :: _, _) => none
  | (digits, tail) => do
      let (fraction, rest) ← takeFraction? tail
      let (exponent, rest) ← Binary64.takeExponent? rest
      let collected := Collected.ofDigits digits fraction exponent
      if negative ∨ Binary64.goesOn tail ∨ collected.power ≠ 0 then
        return (number (.finite negative (← collected.magnitude?)), rest)
      else return (whole collected.number, rest)

end Json
end NumberFormat
