namespace NumberFormat

/-!
Decimal numbers: whole coefficients times powers of ten.

A decimal is kept in lowest form, with no zero at the end of its coefficient, so every
non-negative decimal fraction has exactly one representation.  The point of a decimal says how
many digits stand before the decimal point; it is negative when zeros open the fraction and larger
than the number of digits when zeros end the whole part.
-/

/-- The number `coefficient * 10 ^ exponent`, in lowest form. -/
structure Decimal where
  coefficient : Nat
  exponent : Int
  normal : coefficient % 10 ≠ 0 ∨ coefficient = 0 ∧ exponent = 0
deriving DecidableEq

namespace Decimal

def zero : Decimal := ⟨0, 0, Or.inr ⟨rfl, rfl⟩⟩

/--
A coefficient without the zeros at its end, and how many there were.  Every zero takes one off the
budget, and the coefficient itself is budget enough.
-/
def dropZeros : (budget coefficient : Nat) → Nat × Nat
  | 0, coefficient => (coefficient, 0)
  | budget + 1, coefficient =>
      if coefficient % 10 = 0 then
        let inner := dropZeros budget (coefficient / 10)
        (inner.1, inner.2 + 1)
      else (coefficient, 0)

theorem dropZeros_normal (budget coefficient : Nat) (positive : coefficient ≠ 0)
    (enough : coefficient ≤ budget) : (dropZeros budget coefficient).1 % 10 ≠ 0 := by
  induction budget generalizing coefficient with
  | zero => omega
  | succ budget ih =>
      unfold dropZeros
      split
      · exact ih (coefficient / 10) (by omega) (by omega)
      · assumption

/-- Nothing is lost: the zeros dropped multiply back. -/
theorem dropZeros_value (budget coefficient : Nat) :
    (dropZeros budget coefficient).1 * Nat.pow 10 (dropZeros budget coefficient).2 =
      coefficient := by
  induction budget generalizing coefficient with
  | zero => simp [dropZeros]
  | succ budget ih =>
      unfold dropZeros
      split
      · have inner := ih (coefficient / 10)
        simp only [Nat.pow_eq, Nat.pow_succ, ← Nat.mul_assoc] at inner ⊢
        rw [inner]
        omega
      · simp

/-- The decimal with this coefficient and exponent, brought into lowest form. -/
def scaled (coefficient : Nat) (exponent : Int) : Decimal :=
  if positive : coefficient = 0 then zero
  else
    ⟨(dropZeros coefficient coefficient).1, exponent + (dropZeros coefficient coefficient).2,
      Or.inl (dropZeros_normal coefficient coefficient positive (Nat.le_refl _))⟩

def isZero (d : Decimal) : Bool :=
  d.coefficient == 0

/-- The significant digits, none for zero. -/
def digits (d : Decimal) : List Char :=
  if d.coefficient = 0 then [] else Nat.toDigits 10 d.coefficient

/-- How many digits stand before the decimal point. -/
def point (d : Decimal) : Int :=
  d.digits.length + d.exponent

/-- The power of ten of the first digit, nought for zero. -/
def leadingExponent (d : Decimal) : Int :=
  if d.isZero then 0 else d.point - 1

/-- The decimal times a power of ten. -/
def shift (d : Decimal) (power : Int) : Decimal :=
  if zeroCoefficient : d.coefficient = 0 then d
  else ⟨d.coefficient, d.exponent + power,
    Or.inl (d.normal.resolve_right (fun both => zeroCoefficient both.1))⟩

/-- How many digits the fraction needs. -/
def places (d : Decimal) : Nat :=
  (-d.exponent).toNat

/-- The part before the decimal point. -/
def wholePart (d : Decimal) : Nat :=
  d.coefficient * Nat.pow 10 d.exponent.toNat / Nat.pow 10 d.places

/-- The part behind the decimal point, counted in units of its last place. -/
def fractionPart (d : Decimal) : Nat :=
  d.coefficient % Nat.pow 10 d.places

end Decimal
end NumberFormat
