namespace NumberFormat

/-!
Binary64 numbers, the double-precision numbers of IEEE 754.

A finite magnitude is a whole number of units, one unit being `2 ^ -1074`, the smallest step of
the format.  The magnitudes around a number of units with more than 53 binary digits lie
further apart, and only those that fit this spacing belong to the format.  A zero has a sign as
every other number has, so `finite true 0` is the negative zero.
-/

namespace Binary64

/-- Magnitudes around this many units are multiples of two to this power. -/
def spacing (units : Nat) : Nat :=
  units.log2 - 52

/-- How many units make one. -/
def one : Nat := Nat.pow 2 1074

/-- The first number of units beyond the range of the format, which is `2 ^ 1024`. -/
def limit : Nat := Nat.pow 2 2098

end Binary64

/-- The size of a finite number of the format, in units of `2 ^ -1074`. -/
structure Magnitude where
  units : Nat
  spaced : Nat.pow 2 (Binary64.spacing units) ∣ units
  bounded : units < Binary64.limit
deriving DecidableEq

namespace Magnitude

theorem zero_lt_limit : 0 < Binary64.limit := by
  decide +kernel

def zero : Magnitude := ⟨0, Nat.dvd_zero _, zero_lt_limit⟩

def isZero (m : Magnitude) : Bool :=
  m.units == 0

theorem eq_of_units {m n : Magnitude} (same : m.units = n.units) : m = n := by
  cases m
  cases n
  cases same
  rfl

end Magnitude

/-- A number of the binary64 format. -/
inductive Binary64 where
  | nan
  | infinite (negative : Bool)
  | finite (negative : Bool) (magnitude : Magnitude)
deriving DecidableEq

namespace Binary64

def zero : Binary64 := finite false Magnitude.zero

/-- Whether the number carries a minus sign, as the negative zero does. -/
def hasMinus : Binary64 → Bool
  | nan => false
  | infinite negative => negative
  | finite negative _ => negative

def isFinite : Binary64 → Bool
  | finite _ _ => true
  | _ => false

/-- Whether the number is below zero, which the negative zero is not. -/
def isNegative : Binary64 → Bool
  | nan => false
  | infinite negative => negative
  | finite negative m => negative && !m.isZero

/-- Whether the number is above zero. -/
def isPositive : Binary64 → Bool
  | nan => false
  | infinite negative => !negative
  | finite negative m => !negative && !m.isZero

end Binary64
end NumberFormat
