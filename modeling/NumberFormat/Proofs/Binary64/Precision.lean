import Mathlib.Data.Nat.Cast.Order.Field
import Mathlib.Tactic.Linarith
import Mathlib.Tactic.Positivity
import NumberFormat.Binary64.Arithmetic
import NumberFormat.Proofs.Binary64.Range
import NumberFormat.Proofs.Binary64.ReadBack
import NumberFormat.Proofs.Decimal.Order

namespace NumberFormat

open Decimal (scaled ten_zpow_pos)

/-!
Decimals that survive the format.

A number of the format lies within one part in `2 ^ 52` of every decimal that reads as it, as long
as the smallest step of the format plays no part.  On a grid of fifteen digits two decimals are
further apart than that, so a decimal with fifteen digits at most is the shortest one of the
magnitude it reads as.
-/

namespace Binary64

/-! ## How far rounding moves a quotient -/

theorem quotient_lt (numerator : Nat) {denominator : Nat} (positive : 0 < denominator) :
    (numerator : ℚ) / denominator < (numerator / denominator : Nat) + 1 := by
  rw [div_lt_iff₀ (by exact_mod_cast positive)]
  exact_mod_cast (Nat.div_lt_iff_lt_mul positive).mp (Nat.lt_succ_self _)

theorem divideHalfEven_near (numerator : Nat) {denominator : Nat} (positive : 0 < denominator) :
    |(divideHalfEven numerator denominator : ℚ) - numerator / denominator| ≤ 1 / 2 := by
  have nonzero : (0 : ℚ) < denominator := by exact_mod_cast positive
  have quotient : (numerator : ℚ) / denominator =
      (numerator / denominator : Nat) + (numerator % denominator : Nat) / denominator := by
    rw [div_eq_iff nonzero.ne', add_mul, div_mul_cancel₀ _ nonzero.ne']
    exact_mod_cast (Nat.div_add_mod' numerator denominator).symm
  have below : ((numerator % denominator : Nat) : ℚ) / denominator < 1 := by
    rw [div_lt_one nonzero]
    exact_mod_cast Nat.mod_lt numerator positive
  have above : 0 ≤ ((numerator % denominator : Nat) : ℚ) / denominator := by positivity
  rw [quotient, divideHalfEven, abs_le]
  split
  · rename_i down
    have half : ((numerator % denominator : Nat) : ℚ) / denominator ≤ 1 / 2 := by
      rw [div_le_div_iff₀ nonzero (by norm_num)]
      have twice : numerator % denominator * 2 ≤ 1 * denominator := by omega
      exact_mod_cast twice
    constructor <;> linarith
  · rename_i up
    have half : 1 / 2 ≤ ((numerator % denominator : Nat) : ℚ) / denominator := by
      rw [div_le_div_iff₀ (by norm_num) nonzero]
      have twice : 1 * denominator ≤ numerator % denominator * 2 := by omega
      exact_mod_cast twice
    push_cast
    constructor <;> linarith

/-- Rounding to units moves a quotient by half a step at most. -/
theorem nearestUnits_near (numerator : Nat) {denominator : Nat} (positive : 0 < denominator) :
    |(nearestUnits numerator denominator : ℚ) - numerator / denominator| ≤
      (Nat.pow 2 (spacing (numerator / denominator)) : Nat) / 2 := by
  unfold nearestUnits
  dsimp only
  generalize steps : Nat.pow 2 (spacing (numerator / denominator)) = step
  have wide : 0 < step := steps ▸ Nat.pow_pos (by decide)
  have width : (0 : ℚ) < step := by exact_mod_cast wide
  have near := divideHalfEven_near numerator (Nat.mul_pos positive wide)
  have scale : ((divideHalfEven numerator (denominator * step) * step : Nat) : ℚ) -
      numerator / denominator =
        (divideHalfEven numerator (denominator * step) -
          numerator / (denominator * step : Nat)) * step := by
    have nonzero : (denominator : ℚ) ≠ 0 := by exact_mod_cast positive.ne'
    push_cast
    field_simp
  rw [scale, abs_mul, abs_of_pos width]
  calc
    _ ≤ 1 / 2 * (step : ℚ) := mul_le_mul_of_nonneg_right near width.le
    _ = step / 2 := by ring

/-- The first number of units whose step is no longer one unit for want of smaller steps. -/
def normal : Nat := 2 ^ 52

theorem spacing_of_lt {units : Nat} (small : units < normal) : spacing units = 0 := by
  unfold spacing
  rcases Nat.eq_zero_or_pos units with zero | positive
  · rw [zero]
    rfl
  · have logs := (Nat.log2_lt positive.ne').mpr small
    omega

/-- Above the smallest steps, a step is at most one part in `2 ^ 52`. -/
theorem step_le {units : Nat} (large : normal ≤ units) :
    Nat.pow 2 (spacing units) * 2 ^ 52 ≤ units := by
  have nonzero : units ≠ 0 := by
    rintro rfl
    revert large
    decide
  have logs : 52 ≤ units.log2 := (Nat.le_log2 nonzero).mpr large
  have power : spacing units + 52 = units.log2 := by
    unfold spacing
    omega
  calc
    Nat.pow 2 (spacing units) * 2 ^ 52 = 2 ^ units.log2 := by rw [← power, Nat.pow_add]; rfl
    _ ≤ units := Nat.log2_self_le nonzero

theorem half_step_le {numerator denominator : Nat}
    (large : normal ≤ numerator / denominator) :
    ((Nat.pow 2 (spacing (numerator / denominator)) : Nat) : ℚ) / 2 ≤
      numerator / denominator / 2 ^ 53 := by
  have step : ((Nat.pow 2 (spacing (numerator / denominator)) : Nat) : ℚ) * 2 ^ 52 ≤
      (numerator / denominator : Nat) := by exact_mod_cast step_le large
  have floor : ((numerator / denominator : Nat) : ℚ) ≤ numerator / denominator :=
    Nat.cast_div_le
  rw [div_le_div_iff₀ (by norm_num) (by norm_num)]
  linarith

/-- A quotient of enough units is not rounded to fewer than half of them. -/
theorem quotient_le_twice (numerator : Nat) {denominator : Nat} (positive : 0 < denominator)
    (large : normal ≤ numerator / denominator) :
    (numerator : ℚ) / denominator ≤ 2 * nearestUnits numerator denominator := by
  have near := abs_le.mp (nearestUnits_near numerator positive)
  have half := half_step_le large
  have room : (numerator : ℚ) / denominator / 2 ^ 53 ≤ numerator / denominator / 2 :=
    div_le_div_of_nonneg_left (by positivity) (by norm_num) (by norm_num)
  linarith

/-- A quotient that is rounded to enough units is moved by one part in `2 ^ 52` at most. -/
theorem nearestUnits_relative (numerator : Nat) {denominator : Nat} (positive : 0 < denominator)
    (large : normal ≤ nearestUnits numerator denominator) :
    |(nearestUnits numerator denominator : ℚ) - numerator / denominator| ≤
      nearestUnits numerator denominator / 2 ^ 52 := by
  have near := nearestUnits_near numerator positive
  rcases Nat.lt_or_ge (numerator / denominator) normal with small | quotient
  · have units : ((2 ^ 52 : Nat) : ℚ) ≤ nearestUnits numerator denominator := by
      exact_mod_cast large
    have step : ((Nat.pow 2 0 : Nat) : ℚ) = 1 := by norm_num
    rw [spacing_of_lt small, step] at near
    refine near.trans ?_
    rw [div_le_div_iff₀ (by norm_num) (by norm_num)]
    push_cast at units
    linarith
  · have twice := quotient_le_twice numerator positive quotient
    refine near.trans ((half_step_le quotient).trans ?_)
    rw [div_le_div_iff₀ (by norm_num) (by norm_num)]
    norm_num
    linarith

theorem normal_le_nearestUnits {numerator denominator : Nat} (positive : 0 < denominator)
    (large : 2 * normal ≤ numerator / denominator) :
    normal ≤ nearestUnits numerator denominator := by
  have twice := quotient_le_twice numerator positive (show normal ≤ _ by omega)
  have floor : ((2 * normal : Nat) : ℚ) ≤ numerator / denominator :=
    (Nat.cast_le.mpr large).trans Nat.cast_div_le
  have units : ((normal : Nat) : ℚ) ≤ nearestUnits numerator denominator := by
    push_cast at floor
    linarith
  exact_mod_cast units

end Binary64

namespace Magnitude

open Binary64 (normal one)

variable {m : Magnitude} {d e : Decimal}

/-! ## Decimals that read as a magnitude -/

/-- The number that a magnitude is. -/
def toRat (m : Magnitude) : ℚ :=
  m.units / one

theorem one_rat_pos : (0 : ℚ) < one := by
  exact_mod_cast Binary64.one_pos

theorem ratio_eq (d : Decimal) :
    ((ratio d).1 : ℚ) / (ratio d).2 = d.toRat * one := by
  rw [Decimal.toRat_eq_div, ratio]
  simp only [Nat.pow_eq]
  push_cast
  ring

/-- A decimal is read by rounding, unless it is cut off as too small. -/
theorem units_of_reads (reads : ofDecimal? d = some m) (kept : m.units ≠ 0 ∨ -400 ≤ d.point) :
    m.units = Binary64.nearestUnits (ratio d).1 (ratio d).2 := by
  unfold ofDecimal? at reads
  split at reads
  · cases reads
  · split at reads
    · cases reads
      rcases kept with nonzero | large
      · exact absurd rfl nonzero
      · omega
    · exact Binary64.units_of_mem_nearest? reads

theorem normal_ne_zero (large : normal ≤ m.units) : m.units ≠ 0 := by
  intro zero
  rw [zero] at large
  revert large
  decide

/-- A decimal that reads as a magnitude lies within one part in `2 ^ 52` of it. -/
theorem near_of_reads (reads : ofDecimal? d = some m) (large : normal ≤ m.units) :
    |m.toRat - d.toRat| ≤ m.toRat / 2 ^ 52 := by
  have units := units_of_reads reads (Or.inl (normal_ne_zero large))
  have positive : 0 < (ratio d).2 := Nat.pow_pos (by decide)
  have near := Binary64.nearestUnits_relative (ratio d).1 positive (units ▸ large)
  rw [← units, ratio_eq] at near
  have scale : m.toRat - d.toRat = (m.units - d.toRat * one) / one := by
    rw [toRat, sub_div, mul_div_cancel_right₀ _ one_rat_pos.ne']
  rw [scale, abs_div, abs_of_pos one_rat_pos, toRat, div_right_comm]
  exact div_le_div_of_nonneg_right near one_rat_pos.le

theorem one_le_scaled {digits : Nat} (last : digits = 340) :
    one ≤ normal * Nat.pow 10 digits := by
  subst last
  decide +kernel

/-- The point of a magnitude stands where the next power of ten begins. -/
theorem toRat_point (large : normal ≤ m.units) :
    10 ^ (m.point - 1) ≤ m.toRat ∧ m.toRat < 10 ^ m.point := by
  -- As a variable the number of digits keeps its power from being evaluated.
  unfold point
  generalize last : 340 = digits
  generalize moved : (340 : Int) = shift
  obtain rfl : shift = digits := by omega
  have positive : m.units * Nat.pow 10 digits / one ≠ 0 :=
    (Nat.div_pos ((one_le_scaled last.symm).trans (Nat.mul_le_mul_right _ large))
      Binary64.one_pos).ne'
  have range := Decimal.toDigits_range positive
  have some : 0 < (Nat.toDigits 10 (m.units * Nat.pow 10 digits / one)).length :=
    Nat.length_toDigits_pos
  have scaled : m.toRat * 10 ^ digits = ((m.units * Nat.pow 10 digits : Nat) : ℚ) / one := by
    rw [toRat]
    simp only [Nat.pow_eq]
    push_cast
    ring
  have floor : ((m.units * Nat.pow 10 digits / one : Nat) : ℚ) ≤ m.toRat * 10 ^ digits := by
    rw [scaled]
    exact Nat.cast_div_le
  have ceiling : m.toRat * 10 ^ digits < (m.units * Nat.pow 10 digits / one : Nat) + 1 := by
    rw [scaled]
    exact Binary64.quotient_lt _ Binary64.one_pos
  generalize m.units * Nat.pow 10 digits / one = n at range some floor ceiling ⊢
  generalize (Nat.toDigits 10 n).length = length at range some ⊢
  have power (k : Nat) : (10 : ℚ) ^ ((k : Int) - digits) * 10 ^ digits = 10 ^ k := by
    rw [zpow_sub₀ (by norm_num), zpow_natCast, zpow_natCast]
    exact div_mul_cancel₀ _ (by positivity)
  have scale : (0 : ℚ) < 10 ^ digits := by positivity
  constructor
  · have first : (length : Int) - digits - 1 = ((length - 1 : Nat) : Int) - digits := by omega
    refine le_of_mul_le_mul_right ?_ scale
    rw [first, power]
    exact le_trans (by exact_mod_cast range.1) floor
  · refine lt_of_mul_lt_mul_right ?_ scale.le
    rw [power]
    exact ceiling.trans_le (by exact_mod_cast range.2)

/-! ## Grids of decimals -/

/-- How often `10 ^ place` goes into a magnitude. -/
def multiples (m : Magnitude) (place : Int) : Nat :=
  m.units * Nat.pow 10 (-place).toNat / (one * Nat.pow 10 place.toNat)

theorem multiples_range (m : Magnitude) (place : Int) :
    (m.multiples place : ℚ) * 10 ^ place ≤ m.toRat ∧
      m.toRat < (m.multiples place + 1 : Nat) * 10 ^ place := by
  have quotient : ((m.units * Nat.pow 10 (-place).toNat : Nat) : ℚ) /
      (one * Nat.pow 10 place.toNat : Nat) = m.toRat / 10 ^ place := by
    have power : ((10 : ℚ) ^ place) = 10 ^ place.toNat / 10 ^ (-place).toNat := by
      rw [← zpow_natCast, ← zpow_natCast, ← zpow_sub₀ (by norm_num)]
      congr 1
      omega
    have nonzero := one_rat_pos.ne'
    rw [power, toRat]
    simp only [Nat.pow_eq]
    push_cast
    generalize (one : ℚ) = unit at nonzero ⊢
    field_simp
  have positive : 0 < one * Nat.pow 10 place.toNat :=
    Nat.mul_pos Binary64.one_pos (Nat.pow_pos (by decide))
  rw [← le_div_iff₀ (ten_zpow_pos place), ← div_lt_iff₀ (ten_zpow_pos place), ← quotient]
  refine ⟨Nat.cast_div_le, ?_⟩
  push_cast
  exact_mod_cast Binary64.quotient_lt _ positive

/-- Both neighbours of a magnitude on a grid are tried. -/
theorem onGrid?_isSome {k : Nat} {place : Int} (reads : ofDecimal? (scaled k place) = some m)
    (neighbour : k = m.multiples place ∨ k = m.multiples place + 1) :
    (m.onGrid? place).isSome := by
  unfold onGrid?
  unfold multiples at neighbour
  dsimp only
  generalize m.units * Nat.pow 10 (-place).toNat = numerator at neighbour ⊢
  generalize one * Nat.pow 10 place.toNat = denominator at neighbour ⊢
  rcases neighbour with below | above
  · rw [← below, decide_eq_true reads]
    cases decide (ofDecimal? (scaled (k + 1) place) = some m) <;> rfl
  · rw [← above, decide_eq_true reads]
    cases decide (ofDecimal? (scaled (numerator / denominator) place) = some m) <;> rfl

/-- A decimal on a grid is a neighbour of every magnitude less than a step away. -/
theorem neighbour_of_close {k : Nat} {place : Int}
    (close : |m.toRat - (scaled k place).toRat| < 10 ^ place) :
    k = m.multiples place ∨ k = m.multiples place + 1 := by
  obtain ⟨least, most⟩ := m.multiples_range place
  rw [Decimal.toRat_scaled, abs_lt] at close
  have step := ten_zpow_pos place
  have low : (m.multiples place : ℚ) < (k + 1 : Nat) := by
    push_cast
    refine lt_of_mul_lt_mul_right ?_ step.le
    linarith
  have high : (k : ℚ) < (m.multiples place + 2 : Nat) := by
    push_cast at most ⊢
    refine lt_of_mul_lt_mul_right ?_ step.le
    linarith
  rw [Nat.cast_lt] at low high
  omega

theorem exists_scaled_of_onGrid? {place : Int} (hit : m.onGrid? place = some d) :
    ∃ k, d = scaled k place := by
  unfold onGrid? at hit
  dsimp only at hit
  split at hit
  · split at hit <;> cases hit <;> exact ⟨_, rfl⟩
  · cases hit
    exact ⟨_, rfl⟩
  · cases hit
    exact ⟨_, rfl⟩
  · cases hit

/-! ## Fifteen digits -/

/-- The last of fifteen digits counts for more than rounding to the format moves a decimal. -/
theorem twice_near_lt_grid (large : normal ≤ m.units) :
    2 * (m.toRat / 2 ^ 52) < 10 ^ (m.point - 15) := by
  have below := (toRat_point large).2
  have grid : (10 : ℚ) ^ (m.point - 15) = 10 ^ m.point / 10 ^ 15 := by
    rw [zpow_sub₀ (by norm_num)]
    norm_cast
  have positive : (0 : ℚ) < 10 ^ m.point := ten_zpow_pos _
  rw [grid, lt_div_iff₀ (by norm_num)]
  norm_num
  linarith

/-- Few digits leave room below the next power of ten, so reading does not carry over it. -/
theorem point_le_of_reads (reads : ofDecimal? d = some m) (large : normal ≤ m.units)
    (nonzero : d.coefficient ≠ 0) (few : d.digits.length ≤ 15) : m.point ≤ d.point := by
  by_contra beyond
  rw [not_le] at beyond
  have near := (abs_le.mp (near_of_reads reads large)).2
  have above : (10 : ℚ) ^ d.point ≤ m.toRat :=
    (zpow_le_zpow_right₀ (by norm_num) (by omega)).trans (toRat_point large).1
  -- The last digit stands for at least one part in `10 ^ 15` of the next power of ten.
  have last : (10 : ℚ) ^ d.point / 10 ^ 15 ≤ 10 ^ d.exponent := by
    rw [div_le_iff₀ (by norm_num), ← zpow_natCast, ← zpow_add₀ (by norm_num)]
    refine zpow_le_zpow_right₀ (by norm_num) ?_
    rw [Decimal.point]
    push_cast
    omega
  have room : d.toRat + 10 ^ d.exponent ≤ 10 ^ d.point := by
    have below : d.coefficient + 1 ≤ 10 ^ d.digits.length := by
      rw [Decimal.digits, if_neg nonzero]
      exact (Decimal.toDigits_range nonzero).2
    rw [Decimal.point, Decimal.toRat, zpow_add₀ (by norm_num), zpow_natCast, ← add_one_mul]
    refine mul_le_mul_of_nonneg_right ?_ (ten_zpow_pos _).le
    exact_mod_cast below
  have power : (0 : ℚ) < 10 ^ d.point := ten_zpow_pos _
  norm_num at near last
  linarith

/-- On the grid of fifteen digits no two decimals read as one magnitude. -/
theorem eq_of_reads (large : normal ≤ m.units) {j k : Nat}
    (first : ofDecimal? (scaled j (m.point - 15)) = some m)
    (second : ofDecimal? (scaled k (m.point - 15)) = some m) : j = k := by
  have gap := twice_near_lt_grid large
  have left := near_of_reads first large
  have right := near_of_reads second large
  have apart := abs_sub_le (scaled j (m.point - 15)).toRat m.toRat
    (scaled k (m.point - 15)).toRat
  rw [abs_sub_comm _ m.toRat] at apart
  exact Decimal.scaled_unique (by linarith)

/-- A decimal on the grid of fifteen digits is found there. -/
theorem onGrid?_fifteen (large : normal ≤ m.units) {k : Nat}
    (reads : ofDecimal? (scaled k (m.point - 15)) = some m) :
    (m.onGrid? (m.point - 15)).isSome := by
  have gap := twice_near_lt_grid large
  have near := near_of_reads reads large
  have value := (abs_nonneg _).trans near
  exact onGrid?_isSome reads (neighbour_of_close (by linarith))

/-- The first grid with a hit decides, so it is no finer than one that is known to have a hit. -/
theorem onGrid?_shortest {digits : Nat} (few : digits < 17) (nonzero : m.units ≠ 0)
    (hit : (m.onGrid? (m.point - (digits + 1 : Nat))).isSome) :
    ∃ place, m.point - (digits + 1 : Nat) ≤ place ∧ m.onGrid? place = some m.shortest := by
  have empty : m.isZero = false := by simpa [isZero] using nonzero
  have grids : List.range 17 =
      List.range (digits + 1) ++ (List.range (16 - digits)).map (digits + 1 + ·) := by
    rw [← List.range_add]
    congr 1
    omega
  have tried : ((List.range (digits + 1)).findSome?
      (fun fewer => m.onGrid? (m.point - (fewer + 1 : Nat)))).isSome := by
    rw [List.findSome?_isSome_iff]
    exact ⟨digits, List.mem_range.mpr (Nat.lt_succ_self _), hit⟩
  obtain ⟨e, found⟩ := Option.isSome_iff_exists.mp tried
  obtain ⟨fewer, inside, first⟩ := List.exists_of_findSome?_eq_some found
  rw [List.mem_range] at inside
  have decided : m.shortest = e := by
    rw [shortest, empty, if_neg Bool.false_ne_true, grids, List.findSome?_append, found]
    rfl
  exact ⟨_, by omega, decided ▸ first⟩

/-- A decimal on the grid of fifteen digits is the shortest one of the magnitude it reads as. -/
theorem shortest_of_coarse (reads : ofDecimal? d = some m) (large : normal ≤ m.units)
    (nonzero : d.coefficient ≠ 0) (coarse : m.point - 15 ≤ d.exponent) : m.shortest = d := by
  obtain ⟨k, same⟩ := Decimal.exists_scaled_of_exponent nonzero coarse
  rw [same] at reads ⊢
  have few : 14 < 17 := by decide
  obtain ⟨place, onPlace, hit⟩ := onGrid?_shortest few (normal_ne_zero large)
    (onGrid?_fifteen large reads)
  obtain ⟨i, found⟩ := exists_scaled_of_onGrid? hit
  obtain ⟨j, finer⟩ : ∃ j, scaled i place = scaled j (m.point - 15) :=
    Decimal.exists_scaled_finer i onPlace
  have read := ofDecimal?_of_onGrid? hit
  rw [found, finer] at read ⊢
  rw [eq_of_reads large read reads]

/-- A decimal with fifteen digits at most is the shortest one of the magnitude it reads as. -/
theorem shortest_of_reads (reads : ofDecimal? d = some m) (large : normal ≤ m.units)
    (nonzero : d.coefficient ≠ 0) (few : d.digits.length ≤ 15) : m.shortest = d := by
  have point := point_le_of_reads reads large nonzero few
  rw [Decimal.point] at point
  exact shortest_of_coarse reads large nonzero (by omega)

/-! ## Moving the decimal point -/

theorem twice_normal_le {places : Nat} (last : places = 307) :
    2 * normal * 10 ^ places ≤ one := by
  subst last
  decide +kernel

/-- A decimal of `10 ^ -307` or more is not read by the smallest steps of the format. -/
theorem normal_of_large (reads : ofDecimal? d = some m) (nonzero : d.coefficient ≠ 0)
    (large : -306 ≤ d.point) : normal ≤ m.units := by
  obtain ⟨places, last⟩ : ∃ places : Nat, places = 307 := ⟨_, rfl⟩
  have positive : 0 < (ratio d).2 := Nat.pow_pos (by decide)
  have least : (10 : ℚ) ^ (-(places : Int)) ≤ d.toRat :=
    Decimal.power_le_toRat nonzero (by omega)
  have enough : ((2 * normal : Nat) : ℚ) ≤ (ratio d).1 / (ratio d).2 := by
    have scaled : ((2 * normal * 10 ^ places : Nat) : ℚ) ≤ one := by
      exact_mod_cast twice_normal_le last
    rw [zpow_neg, zpow_natCast, inv_le_iff_one_le_mul₀ (by positivity)] at least
    rw [ratio_eq]
    have units := mul_le_mul scaled least zero_le_one one_rat_pos.le
    have power : (0 : ℚ) < 10 ^ places := by positivity
    refine le_of_mul_le_mul_right ?_ power
    push_cast at units ⊢
    linarith
  rw [units_of_reads reads (Or.inr (by omega))]
  refine Binary64.normal_le_nearestUnits positive ?_
  rw [Nat.le_div_iff_mul_le positive]
  rw [le_div_iff₀ (by exact_mod_cast positive)] at enough
  exact_mod_cast enough

theorem nonzero_of_reads (reads : ofDecimal? d = some m) (nonzero : m.units ≠ 0) :
    d.coefficient ≠ 0 := by
  intro none
  have zero : d = Decimal.zero :=
    Decimal.eq_of_parts none (d.normal.resolve_left (by simp [none])).2
  rw [zero, ofDecimal?_zero, Option.some.injEq] at reads
  exact nonzero (reads ▸ rfl)

theorem twice_limit_lt {digits : Nat} (last : digits = 308) :
    2 * Binary64.limit < 100 * (10 ^ digits * one) := by
  subst last
  decide +kernel

/-- A hundredth of a decimal that reads as a magnitude is within the range of the format. -/
theorem exists_reads_hundredth (reads : ofDecimal? d = some m) (nonzero : d.coefficient ≠ 0)
    (large : -304 ≤ d.point) : ∃ n, ofDecimal? (d.shift (-2)) = some n := by
  obtain ⟨digits, last⟩ : ∃ digits : Nat, digits = 308 := ⟨_, rfl⟩
  have value : (d.shift (-2)).toRat = d.toRat / 100 := by
    rw [Decimal.toRat_shift]
    norm_num
    ring
  have small : (d.shift (-2)).toRat * one < ((10 ^ digits * one : Nat) : ℚ) := by
    have near := (abs_le.mp (near_of_reads reads (normal_of_large reads nonzero (by omega)))).1
    have size : m.toRat * one < Binary64.limit := by
      rw [toRat, div_mul_cancel₀ _ one_rat_pos.ne']
      exact_mod_cast m.bounded
    have most : ((2 * Binary64.limit : Nat) : ℚ) < (100 * (10 ^ digits * one) : Nat) := by
      exact_mod_cast twice_limit_lt last
    have twice : d.toRat ≤ 2 * m.toRat := by
      have positive : 0 ≤ m.toRat := div_nonneg (Nat.cast_nonneg _) one_rat_pos.le
      norm_num at near
      linarith
    have scaled := mul_le_mul_of_nonneg_right twice one_rat_pos.le
    push_cast at most ⊢
    rw [value]
    linarith
  have point : (d.shift (-2)).point ≤ digits := by
    rw [Decimal.point_le_iff ((d.coefficient_shift _).trans_ne nonzero), zpow_natCast]
    push_cast at small
    exact lt_of_mul_lt_mul_right small one_rat_pos.le
  have moved := Decimal.point_shift nonzero (-2)
  have positive : 0 < (ratio (d.shift (-2))).2 := Nat.pow_pos (by decide)
  have below : (ratio (d.shift (-2))).1 / (ratio (d.shift (-2))).2 < 10 ^ digits * one := by
    rw [Nat.div_lt_iff_lt_mul positive]
    rw [← ratio_eq, div_lt_iff₀ (by exact_mod_cast positive)] at small
    exact_mod_cast small
  rw [ofDecimal?, if_neg (by omega), if_neg (by omega), nearest?,
    dif_pos (Binary64.nearestUnits_lt_limit (last ▸ below))]
  exact ⟨_, rfl⟩

end Magnitude

namespace Binary64

open Magnitude (normal_of_large nonzero_of_reads exists_reads_hundredth ofDecimal?_shortest)

/-- A number whose hundredth is shown with the digits of the number itself. -/
def Restored (m : Magnitude) : Prop :=
  ∃ n : Magnitude, (∀ negative, (finite negative m).hundredth = finite negative n) ∧
    n.shortest.shift 2 = m.shortest

/--
Fifteen digits at most survive a step down by two decimal places, unless the smallest steps of the
format play a part.
-/
theorem restored_of_few {m : Magnitude} (few : m.shortest.digits.length ≤ 15)
    (large : -304 ≤ m.shortest.point) : Restored m := by
  cases empty : m.isZero with
  | true =>
      have zero : m.shortest = Decimal.zero := by rw [Magnitude.shortest, empty, if_pos rfl]
      refine ⟨m, fun negative => ?_, ?_⟩
      · rw [hundredth, empty, if_pos rfl]
      · rw [zero]
        rfl
  | false =>
      have nonzero : m.units ≠ 0 := fun none => by simp [Magnitude.isZero, none] at empty
      have reads := ofDecimal?_shortest m
      have coefficient := nonzero_of_reads reads nonzero
      obtain ⟨n, found⟩ := exists_reads_hundredth reads coefficient large
      have moved := Decimal.point_shift coefficient (-2)
      have kept : (m.shortest.shift (-2)).coefficient ≠ 0 :=
        (m.shortest.coefficient_shift _).trans_ne coefficient
      have normal := normal_of_large found kept (by omega)
      have shortest := Magnitude.shortest_of_reads found normal kept
        (by rw [Decimal.digits_shift]; exact few)
      refine ⟨n, fun negative => ?_, ?_⟩
      · rw [hundredth, empty, if_neg Bool.false_ne_true, ofDecimal, found, signed]
      · rw [shortest]
        exact m.shortest.shift_neg_shift 2

end Binary64
end NumberFormat
