import NumberFormat.Binary64.Basic
import NumberFormat.Decimal.Basic

namespace NumberFormat

/-!
Rounding to the binary64 format: the nearest magnitude to a quotient of whole numbers and to a
decimal.  Of two magnitudes equally near the one with the even significand is taken, and what
rounds to `2 ^ 1024` or more has no magnitude.
-/

namespace Binary64

/-- The quotient to the nearest whole number, a half going to the even neighbour. -/
def divideHalfEven (numerator denominator : Nat) : Nat :=
  let quotient := numerator / denominator
  let remainder := 2 * (numerator % denominator)
  if remainder < denominator ∨ remainder = denominator ∧ quotient % 2 = 0 then quotient
  else quotient + 1

theorem divideHalfEven_le (numerator denominator : Nat) :
    divideHalfEven numerator denominator ≤ numerator / denominator + 1 := by
  unfold divideHalfEven
  dsimp only
  split <;> omega

/-- The number of units nearest to a quotient, at the spacing that prevails around it. -/
def nearestUnits (numerator denominator : Nat) : Nat :=
  let step := Nat.pow 2 (spacing (numerator / denominator))
  divideHalfEven numerator (denominator * step) * step

theorem spacing_mono {m n : Nat} (smaller : m ≤ n) : spacing m ≤ spacing n := by
  unfold spacing
  by_cases zero : m = 0
  · simp [zero]
  · have nonzero : n ≠ 0 := by omega
    have logs : m.log2 ≤ n.log2 :=
      (Nat.le_log2 nonzero).mpr (Nat.le_trans (Nat.log2_self_le zero) smaller)
    omega

/-- A number of units has at most 53 binary digits above its spacing. -/
theorem lt_spacing (units : Nat) : units < Nat.pow 2 (53 + spacing units) := by
  refine Nat.lt_of_lt_of_le Nat.lt_log2_self (Nat.pow_le_pow_right (by decide) ?_)
  unfold spacing
  omega

theorem powers_mul (m n : Nat) : Nat.pow 2 m * Nat.pow 2 n = Nat.pow 2 (m + n) :=
  (Nat.pow_add 2 m n).symm

/-- At most `2 ^ 53` steps of a power of two make a number that fits its spacing. -/
theorem spaced_of_steps {steps power : Nat} (few : steps ≤ Nat.pow 2 53) :
    Nat.pow 2 (spacing (steps * Nat.pow 2 power)) ∣ steps * Nat.pow 2 power := by
  rcases Nat.lt_or_eq_of_le few with fewer | full
  · refine Nat.dvd_trans (Nat.pow_dvd_pow 2 ?_) (Nat.dvd_mul_left _ _)
    by_cases zero : steps * Nat.pow 2 power = 0
    · rw [zero]
      exact Nat.zero_le _
    · have below : steps * Nat.pow 2 power < Nat.pow 2 (53 + power) := by
        rw [← powers_mul]
        exact Nat.mul_lt_mul_of_pos_right fewer (Nat.pow_pos (by decide))
      have logs := (Nat.log2_lt zero).mpr below
      unfold spacing
      omega
  · have log : (Nat.pow 2 (53 + power)).log2 = 53 + power := Nat.log2_two_pow
    rw [full, powers_mul]
    refine Nat.pow_dvd_pow 2 ?_
    unfold spacing
    omega

theorem nearestUnits_spaced (numerator denominator : Nat) :
    Nat.pow 2 (spacing (nearestUnits numerator denominator)) ∣
      nearestUnits numerator denominator := by
  refine spaced_of_steps (Nat.le_trans (divideHalfEven_le _ _) ?_)
  rw [← Nat.div_div_eq_div_mul]
  refine Nat.div_lt_of_lt_mul ?_
  rw [Nat.mul_comm, powers_mul]
  exact lt_spacing _

end Binary64

namespace Magnitude

/-- The magnitude nearest to a quotient in units, if it is within range. -/
def nearest? (numerator denominator : Nat) : Option Magnitude :=
  if bounded : Binary64.nearestUnits numerator denominator < Binary64.limit then
    some ⟨_, Binary64.nearestUnits_spaced numerator denominator, bounded⟩
  else none

/-- The units of a decimal as a quotient, numerator first. -/
def ratio (d : Decimal) : Nat × Nat :=
  (d.coefficient * Nat.pow 10 d.exponent.toNat * Binary64.one, Nat.pow 10 d.places)

/--
The magnitude nearest to a decimal, if it is within range.  A decimal of `10 ^ 400` or more is
beyond every magnitude and one below `10 ^ -400` is nearest to nought, so their powers of ten are
never formed.
-/
def ofDecimal? (d : Decimal) : Option Magnitude :=
  if 400 < d.point then none
  else if d.point < -400 then some zero
  else nearest? (ratio d).1 (ratio d).2

end Magnitude

namespace Binary64

/-- The number with this sign and the given size, infinite if there is no such size. -/
def signed (negative : Bool) : Option Magnitude → Binary64
  | some m => finite negative m
  | none => infinite negative

/-- The number nearest to a decimal with a sign. -/
def ofDecimal (negative : Bool) (d : Decimal) : Binary64 :=
  signed negative (Magnitude.ofDecimal? d)

end Binary64
end NumberFormat
