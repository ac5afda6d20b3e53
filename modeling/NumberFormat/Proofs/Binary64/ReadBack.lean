import NumberFormat.Proofs.Decimal.Canonical

namespace NumberFormat
namespace Magnitude

/-!
The shortest decimal of a magnitude reads back as that magnitude.

A decimal found on a grid was read back when it was chosen.  The exact decimal, which serves when no
grid has a hit, is a whole number of units, and a whole number of units that belongs to the format
is nearest to itself.
-/

/-! ## Numbers of the format are nearest to themselves -/

/-- A quotient without remainder is rounded to itself. -/
theorem divideHalfEven_mul (quotient : Nat) {denominator : Nat} (positive : 0 < denominator) :
    Binary64.divideHalfEven (quotient * denominator) denominator = quotient := by
  unfold Binary64.divideHalfEven
  simp only [Nat.mul_mod_left, Nat.mul_zero, Nat.mul_div_cancel _ positive]
  rw [if_pos (Or.inl positive)]

theorem nearestUnits_of_spaced {units denominator : Nat} (positive : 0 < denominator)
    (spaced : Nat.pow 2 (Binary64.spacing units) ∣ units) :
    Binary64.nearestUnits (units * denominator) denominator = units := by
  rcases spaced with ⟨steps, product⟩
  have gap : 0 < Nat.pow 2 (Binary64.spacing units) := Nat.pow_pos (by decide)
  have numerator : units * denominator =
      steps * (denominator * Nat.pow 2 (Binary64.spacing units)) := by
    calc
      units * denominator = Nat.pow 2 (Binary64.spacing units) * steps * denominator :=
        congrArg (· * denominator) product
      _ = steps * (denominator * Nat.pow 2 (Binary64.spacing units)) := by ac_rfl
  unfold Binary64.nearestUnits
  simp only [Nat.mul_div_cancel _ positive]
  rw [numerator, divideHalfEven_mul steps (Nat.mul_pos positive gap), Nat.mul_comm]
  exact product.symm

theorem nearest?_of_units {m : Magnitude} {numerator denominator : Nat}
    (positive : 0 < denominator) (quotient : numerator = m.units * denominator) :
    nearest? numerator denominator = some m := by
  have same : Binary64.nearestUnits numerator denominator = m.units := by
    rw [quotient]
    exact nearestUnits_of_spaced positive m.spaced
  have bounded : Binary64.nearestUnits numerator denominator < Binary64.limit := by
    rw [same]
    exact m.bounded
  rw [nearest?, dif_pos bounded]
  exact congrArg some (eq_of_units same)

/-! ## The exact decimal -/

section

variable (places low high : Nat) (unit : Nat.pow 5 places * Binary64.one = 10 ^ places)
include unit

/-- A decimal that counts units in their last decimal place is so many units as a quotient. -/
theorem ratio_of_value {d : Decimal} {units k : Nat} (shifted : d.exponent = -places + k)
    (value : d.coefficient * 10 ^ k = units * Nat.pow 5 places) :
    (ratio d).1 = units * (ratio d).2 := by
  have scaled : d.coefficient * 10 ^ k * Binary64.one = units * 10 ^ places := by
    rw [value, Nat.mul_assoc, unit]
  unfold ratio Decimal.places
  simp only [Nat.pow_eq]
  rcases Nat.le_total k places with fraction | whole
  · have noShift : d.exponent.toNat = 0 := by omega
    have count : (-d.exponent).toNat = places - k := by omega
    rw [noShift, count, Nat.pow_zero, Nat.mul_one]
    apply Nat.eq_of_mul_eq_mul_right (Nat.pow_pos (n := k) (by decide : 0 < 10))
    calc
      d.coefficient * Binary64.one * 10 ^ k = d.coefficient * 10 ^ k * Binary64.one :=
        Nat.mul_right_comm _ _ _
      _ = units * 10 ^ (places - k + k) := by rw [scaled, Nat.sub_add_cancel fraction]
      _ = units * 10 ^ (places - k) * 10 ^ k := by rw [Nat.pow_add, Nat.mul_assoc]
  · have shift : d.exponent.toNat = k - places := by omega
    have noPlaces : (-d.exponent).toNat = 0 := by omega
    rw [shift, noPlaces, Nat.pow_zero, Nat.mul_one]
    apply Nat.eq_of_mul_eq_mul_right (Nat.pow_pos (n := places) (by decide : 0 < 10))
    calc
      d.coefficient * 10 ^ (k - places) * Binary64.one * 10 ^ places =
          d.coefficient * (10 ^ (k - places) * 10 ^ places) * Binary64.one := by
        rw [Nat.mul_right_comm, Nat.mul_assoc d.coefficient]
      _ = d.coefficient * 10 ^ k * Binary64.one := by
        rw [← Nat.pow_add, Nat.sub_add_cancel whole]
      _ = units * 10 ^ places := scaled

/-- Units counted in their last decimal place read back, as long as they are not cut off. -/
theorem ofDecimal?_scaled {m : Magnitude} (exponent : Int) (last : exponent = -places)
    (nonzero : m.units ≠ 0)
    (least : 10 ^ low ≤ Nat.pow 5 places) (greatest : Binary64.limit * Nat.pow 5 places < 10 ^ high)
    (notSmall : places ≤ low + 400) (notLarge : high ≤ places + 400) :
    ofDecimal? (Decimal.scaled (m.units * Nat.pow 5 places) exponent) = some m := by
  subst last
  have power : Nat.pow 5 places ≠ 0 := Nat.pos_iff_ne_zero.mp (Nat.pow_pos (by decide))
  rcases Decimal.value_scaled (-places) (Nat.mul_ne_zero nonzero power) with
    ⟨k, value, shifted, coefficient⟩
  have above : 10 ^ low ≤ m.units * Nat.pow 5 places :=
    Nat.le_trans least (Nat.le_mul_of_pos_left _ (Nat.pos_of_ne_zero nonzero))
  have below : m.units * Nat.pow 5 places < 10 ^ high :=
    Nat.lt_of_le_of_lt (Nat.mul_le_mul_right _ (Nat.le_of_lt m.bounded)) greatest
  rw [← value] at above below
  have range := Decimal.point_range coefficient shifted above below
  rw [ofDecimal?, if_neg (by omega), if_neg (by omega)]
  exact nearest?_of_units (Nat.pow_pos (by decide)) (ratio_of_value places unit shifted value)

end

theorem place_powers {places : Nat} (last : places = 1074) :
    Nat.pow 5 places * Binary64.one = 10 ^ places ∧ 10 ^ 674 ≤ Nat.pow 5 places ∧
      Binary64.limit * Nat.pow 5 places < 10 ^ 1383 := by
  subst last
  decide +kernel

theorem ofDecimal?_exact {m : Magnitude} (nonzero : m.units ≠ 0) :
    ofDecimal? m.exact = some m := by
  unfold exact
  -- As a variable the number of places keeps its powers from being evaluated.
  generalize last : 1074 = places
  have powers := place_powers last.symm
  exact ofDecimal?_scaled places 674 1383 powers.1 _ (by omega) nonzero powers.2.1 powers.2.2
    (by omega) (by omega)

/-! ## The shortest decimal -/

theorem ofDecimal?_zero : ofDecimal? Decimal.zero = some zero := by
  decide +kernel

theorem ofDecimal?_shortest (m : Magnitude) : ofDecimal? m.shortest = some m := by
  unfold shortest
  cases empty : m.isZero with
  | true =>
      have units : m.units = 0 := of_decide_eq_true empty
      rw [if_pos rfl, ofDecimal?_zero]
      exact congrArg some (eq_of_units units.symm)
  | false =>
      have nonzero : m.units ≠ 0 := fun units => by simp [isZero, units] at empty
      rw [if_neg Bool.false_ne_true]
      cases found : (List.range 17).findSome?
          (fun fewer => m.onGrid? (m.point - (fewer + 1 : Nat))) with
      | none =>
          rw [Option.getD_none]
          exact ofDecimal?_exact nonzero
      | some d =>
          rcases List.exists_of_findSome?_eq_some found with ⟨fewer, _, hit⟩
          exact ofDecimal?_of_onGrid? hit

end Magnitude
end NumberFormat
