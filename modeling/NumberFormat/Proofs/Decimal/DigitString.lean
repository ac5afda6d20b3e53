import Mathlib.Data.List.DropRight
import Mathlib.Tactic.Linarith
import NumberFormat.Proofs.Decimal.Order

namespace NumberFormat

open Decimal (ten_zpow_pos)

/-!
Digits with a decimal point, calculated with digit by digit.

A row of digits with a point stands for the number that it makes behind the point, times a power of
ten.  Rounding cuts the row off and counts its last digit up where what is cut off is a half or
more.  A nine is not counted up but taken away, as its place becomes a zero at the end, and when no
digit is left the number has become the next power of ten.

Every step says what it does to the number as a whole, whether the row is in normal form or not.  In
normal form no digit can be spared, so there is one row for each number.
-/

/-- A row of digits, and how many places before the decimal point it begins. -/
structure DigitString where
  digits : List Nat
  point : Int
deriving DecidableEq

namespace DigitString

/-- The number `0.d₁d₂d₃…`. -/
def fraction : List Nat → ℚ
  | [] => 0
  | digit :: rest => (digit + fraction rest) / 10

/-- The number a row of digits stands for, `0.d₁d₂d₃… * 10 ^ point`. -/
def value (row : DigitString) : ℚ :=
  fraction row.digits * 10 ^ row.point

/-- No zero stands at either end of the row, and the point of an empty row is nought. -/
structure Normalized (row : DigitString) : Prop where
  decimal : ∀ digit ∈ row.digits, digit ≤ 9
  first : row.digits.head? ≠ some 0
  last : row.digits.getLast? ≠ some 0
  empty : row.digits = [] → row.point = 0

instance (row : DigitString) : Decidable row.Normalized :=
  decidable_of_iff
    ((∀ digit ∈ row.digits, digit ≤ 9) ∧ row.digits.head? ≠ some 0 ∧
      row.digits.getLast? ≠ some 0 ∧ (row.digits = [] → row.point = 0))
    ⟨fun ⟨decimal, first, last, empty⟩ => ⟨decimal, first, last, empty⟩,
      fun normalized =>
        ⟨normalized.decimal, normalized.first, normalized.last, normalized.empty⟩⟩

/--
The row without the zeros at its end and without those at its beginning, each of which moves the
point by one place.
-/
def normalize (row : DigitString) : DigitString :=
  let ended := row.digits.rdropWhile (· == 0)
  let digits := ended.dropWhile (· == 0)
  ⟨digits, if digits = [] then 0 else row.point - (ended.takeWhile (· == 0)).length⟩

def isZero (row : DigitString) : Bool :=
  row.digits.isEmpty

/-- The row times a power of ten. -/
def shift (row : DigitString) (power : Int) : DigitString :=
  if row.isZero then row else ⟨row.digits, row.point + power⟩

/--
One more in the last place.  The digits come last digit first.  Nines are taken away, and the first
other digit is counted up; a row of nines only becomes a one, one place further up.
-/
def carry (point : Int) : List Nat → DigitString
  | [] => ⟨[1], point + 1⟩
  | digit :: before =>
      if digit = 9 then carry point before else ⟨before.reverse ++ [digit + 1], point⟩

/-- So many digits from the first one, rounded by what is cut off, a half going away from nought. -/
def roundAt (row : DigitString) (keep : Int) : DigitString :=
  if keep < 0 then ⟨[], 0⟩
  else
    let kept := row.digits.take keep.toNat
    match row.digits[keep.toNat]? with
    | none => row
    | some next =>
        normalize (if 5 ≤ next then carry row.point kept.reverse else ⟨kept, row.point⟩)

/-- At most so many digits behind the point. -/
def roundFraction (row : DigitString) (maximum : Nat) : DigitString :=
  row.roundAt (row.point + maximum)

/-- At most so many digits altogether. -/
def roundSignificant (row : DigitString) (maximum : Nat) : DigitString :=
  row.roundAt maximum

/-! ## Fractions -/

theorem fraction_append (front back : List Nat) :
    fraction (front ++ back) = fraction front + fraction back / 10 ^ front.length := by
  induction front with
  | nil => simp [fraction]
  | cons digit front ih =>
      rw [List.cons_append, fraction, fraction, ih, List.length_cons, pow_succ]
      field_simp
      ring

theorem fraction_append_singleton (front : List Nat) (digit : Nat) :
    fraction (front ++ [digit]) = fraction front + digit / 10 ^ (front.length + 1) := by
  rw [fraction_append, fraction, fraction, add_zero, div_div, pow_succ']

theorem fraction_nonneg (digits : List Nat) : 0 ≤ fraction digits := by
  induction digits with
  | nil => exact le_rfl
  | cons digit rest ih =>
      have digitNonneg : (0 : ℚ) ≤ digit := Nat.cast_nonneg digit
      exact div_nonneg (add_nonneg digitNonneg ih) (by norm_num)

theorem fraction_lt_one {digits : List Nat} (decimal : ∀ digit ∈ digits, digit ≤ 9) :
    fraction digits < 1 := by
  induction digits with
  | nil => exact one_pos
  | cons digit rest ih =>
      have first : (digit : ℚ) ≤ 9 := by exact_mod_cast decimal digit List.mem_cons_self
      have others := ih (fun other member => decimal other (List.mem_cons_of_mem _ member))
      rw [fraction, div_lt_one (by norm_num)]
      linarith

theorem fraction_eq_zero {digits : List Nat} :
    fraction digits = 0 ↔ ∀ digit ∈ digits, digit = 0 := by
  induction digits with
  | nil => exact iff_of_true rfl (fun digit member => absurd member List.not_mem_nil)
  | cons digit rest ih =>
      rw [fraction, div_eq_zero_iff, or_iff_left (by norm_num), List.forall_mem_cons, ← ih,
        add_eq_zero_iff_of_nonneg (Nat.cast_nonneg digit) (fraction_nonneg rest), Nat.cast_eq_zero]

/-- Counted in units of its last place, a row of digits is a whole number. -/
theorem exists_whole (digits : List Nat) :
    ∃ whole : Nat, fraction digits * 10 ^ digits.length = whole := by
  induction digits with
  | nil => exact ⟨0, by simp [fraction]⟩
  | cons digit rest ih =>
      rcases ih with ⟨whole, counted⟩
      refine ⟨digit * 10 ^ rest.length + whole, ?_⟩
      rw [fraction, List.length_cons, pow_succ]
      push_cast
      rw [← counted]
      ring

/-- What is cut off is a half or more exactly if its first digit is a five or more. -/
theorem round_fraction_cons {digit : Nat} {rest : List Nat}
    (decimal : ∀ other ∈ digit :: rest, other ≤ 9) :
    round (fraction (digit :: rest)) = if 5 ≤ digit then 1 else 0 := by
  have nonneg := fraction_nonneg (digit :: rest)
  have below := fraction_lt_one decimal
  have others := fraction_lt_one (fun other member => decimal other (List.mem_cons_of_mem _ member))
  have othersNonneg := fraction_nonneg rest
  by_cases half : 5 ≤ digit
  · have first : (5 : ℚ) ≤ digit := by exact_mod_cast half
    rw [if_pos half, round_eq_iff, Set.mem_Ico]
    rw [fraction] at below ⊢
    push_cast
    constructor <;> linarith
  · have first : (digit : ℚ) ≤ 4 := by exact_mod_cast (by omega : digit ≤ 4)
    rw [if_neg half, round_eq_iff, Set.mem_Ico]
    rw [fraction] at nonneg ⊢
    push_cast
    constructor <;> linarith

/-! ## Normal form -/

theorem fraction_rdropWhile (digits : List Nat) :
    fraction (digits.rdropWhile (· == 0)) = fraction digits := by
  have zeros : fraction (digits.rtakeWhile (· == 0)) = 0 := by
    apply fraction_eq_zero.mpr
    intro digit member
    exact beq_iff_eq.mp (List.mem_rtakeWhile_imp (p := (· == 0)) member)
  conv_rhs => rw [← List.rdropWhile_append_rtakeWhile (p := (· == 0)) (l := digits)]
  rw [fraction_append, zeros, zero_div, add_zero]

theorem fraction_dropWhile (digits : List Nat) :
    fraction digits =
      fraction (digits.dropWhile (· == 0)) / 10 ^ (digits.takeWhile (· == 0)).length := by
  have zeros : fraction (digits.takeWhile (· == 0)) = 0 := by
    apply fraction_eq_zero.mpr
    intro digit member
    exact beq_iff_eq.mp (List.all_eq_true.mp List.all_takeWhile digit member)
  conv_lhs => rw [← List.takeWhile_append_dropWhile (p := (· == 0)) (l := digits)]
  rw [fraction_append, zeros, zero_add]

theorem digits_normalize (row : DigitString) :
    row.normalize.digits = (row.digits.rdropWhile (· == 0)).dropWhile (· == 0) :=
  rfl

theorem value_normalize (row : DigitString) : row.normalize.value = row.value := by
  have dropped := fraction_dropWhile (row.digits.rdropWhile (· == 0))
  rw [fraction_rdropWhile] at dropped
  unfold normalize value
  dsimp only
  rw [dropped]
  generalize (row.digits.rdropWhile (· == 0)).dropWhile (· == 0) = digits
  cases digits with
  | nil => simp [fraction]
  | cons digit rest =>
      rw [if_neg (List.cons_ne_nil digit rest), zpow_sub₀ (by norm_num), zpow_natCast]
      ring

theorem getLast?_rdropWhile (digits : List Nat) :
    (digits.rdropWhile (· == 0)).getLast? ≠ some 0 := by
  intro zero
  have some : digits.rdropWhile (· == 0) ≠ [] := by
    intro none
    rw [none] at zero
    cases zero
  have stopped := List.rdropWhile_last_not (· == 0) digits some
  rw [List.getLast?_eq_some_getLast some, Option.some_inj] at zero
  exact stopped (beq_iff_eq.mpr zero)

/-- Whatever the row, without its zeros it is in normal form. -/
theorem normalized_normalize {row : DigitString} (decimal : ∀ digit ∈ row.digits, digit ≤ 9) :
    row.normalize.Normalized := by
  refine ⟨?_, ?_, ?_, ?_⟩
  · intro digit member
    apply decimal
    exact (List.rdropWhile_prefix (· == 0) row.digits).subset
      ((List.dropWhile_sublist (· == 0)).subset member)
  · intro zero
    have stopped := List.head?_dropWhile_not (· == 0) (row.digits.rdropWhile (· == 0))
    rw [← digits_normalize, zero] at stopped
    cases stopped
  · intro zero
    apply getLast?_rdropWhile row.digits
    rw [← List.takeWhile_append_dropWhile (p := (· == 0)) (l := row.digits.rdropWhile (· == 0)),
      List.getLast?_append, ← digits_normalize, zero]
    rfl
  · intro none
    exact if_pos none

/-! ## One row for each number -/

theorem eq_nil_of_fraction {digits : List Nat} (last : digits.getLast? ≠ some 0)
    (zero : fraction digits = 0) : digits = [] := by
  by_contra some
  apply last
  rw [List.getLast?_eq_some_getLast some]
  exact congrArg Option.some (fraction_eq_zero.mp zero _ (List.getLast_mem some))

theorem getLast?_tail {digit : Nat} {rest : List Nat}
    (last : (digit :: rest).getLast? ≠ some 0) : rest.getLast? ≠ some 0 := by
  intro zero
  apply last
  rw [List.getLast?_cons, zero, Option.getD_some]

/-- Digits behind a point that do not end in a zero are determined by their number. -/
theorem fraction_injective {digits others : List Nat} (decimal : ∀ digit ∈ digits, digit ≤ 9)
    (othersDecimal : ∀ digit ∈ others, digit ≤ 9) (last : digits.getLast? ≠ some 0)
    (othersLast : others.getLast? ≠ some 0) (same : fraction digits = fraction others) :
    digits = others := by
  induction digits generalizing others with
  | nil => exact (eq_nil_of_fraction othersLast same.symm).symm
  | cons digit rest ih =>
      cases others with
      | nil => exact eq_nil_of_fraction last same
      | cons other more =>
          have restDecimal := fun digit member => decimal digit (List.mem_cons_of_mem _ member)
          have moreDecimal :=
            fun digit member => othersDecimal digit (List.mem_cons_of_mem _ member)
          have restNonneg := fraction_nonneg rest
          have moreNonneg := fraction_nonneg more
          have restBelow := fraction_lt_one restDecimal
          have moreBelow := fraction_lt_one moreDecimal
          rw [fraction, fraction, div_left_inj' (by norm_num)] at same
          -- The first digits are the whole parts of the same number.
          have first : digit = other := by
            have fewer : (digit : ℚ) < (other + 1 : Nat) := by
              push_cast
              linarith
            have more : (other : ℚ) < (digit + 1 : Nat) := by
              push_cast
              linarith
            exact le_antisymm (Nat.lt_succ_iff.mp (Nat.cast_lt.mp fewer))
              (Nat.lt_succ_iff.mp (Nat.cast_lt.mp more))
          subst first
          rw [ih restDecimal moreDecimal (getLast?_tail last) (getLast?_tail othersLast)
            (add_left_cancel same)]

theorem value_lt {row : DigitString} (decimal : ∀ digit ∈ row.digits, digit ≤ 9) :
    row.value < 10 ^ row.point :=
  mul_lt_of_lt_one_left (ten_zpow_pos _) (fraction_lt_one decimal)

/-- A first digit that is not nought is worth its place. -/
theorem power_le_value {row : DigitString} (first : row.digits.head? ≠ some 0)
    (some : row.digits ≠ []) : 10 ^ (row.point - 1) ≤ row.value := by
  have tenth : (1 : ℚ) / 10 ≤ fraction row.digits := by
    cases digits : row.digits with
    | nil => exact absurd digits some
    | cons digit rest =>
        rw [digits, List.head?_cons, ne_eq, Option.some_inj] at first
        have least : (1 : ℚ) ≤ digit := by exact_mod_cast Nat.one_le_iff_ne_zero.mpr first
        have nonneg := fraction_nonneg rest
        rw [fraction]
        linarith
  calc
    (10 : ℚ) ^ (row.point - 1) = 1 / 10 * 10 ^ row.point := by
      rw [zpow_sub_one₀ (by norm_num)]
      ring
    _ ≤ row.value := mul_le_mul_of_nonneg_right tenth (ten_zpow_pos _).le

theorem value_eq_zero {row : DigitString} (last : row.digits.getLast? ≠ some 0) :
    row.value = 0 ↔ row.digits = [] := by
  rw [value, mul_eq_zero, or_iff_left (ten_zpow_pos _).ne']
  constructor
  · exact eq_nil_of_fraction last
  · intro none
    rw [none, fraction]

theorem point_le_of_value {row other : DigitString} (decimal : ∀ digit ∈ other.digits, digit ≤ 9)
    (first : row.digits.head? ≠ some 0) (some : row.digits ≠ []) (same : row.value = other.value) :
    row.point ≤ other.point := by
  have between : (10 : ℚ) ^ (row.point - 1) < 10 ^ other.point :=
    (power_le_value first some).trans_lt (same ▸ value_lt decimal)
  have ordered := (zpow_lt_zpow_iff_right₀ (by norm_num : (1 : ℚ) < 10)).mp between
  omega

/-- Rows in normal form are the same if their numbers are. -/
theorem Normalized.unique {row other : DigitString} (normalized : row.Normalized)
    (otherNormalized : other.Normalized) (same : row.value = other.value) : row = other := by
  have empty : row.digits = [] ↔ other.digits = [] := by
    rw [← value_eq_zero normalized.last, ← value_eq_zero otherNormalized.last, same]
  have points : row.point = other.point := by
    by_cases none : row.digits = []
    · rw [normalized.empty none, otherNormalized.empty (empty.mp none)]
    · exact le_antisymm (point_le_of_value otherNormalized.decimal normalized.first none same)
        (point_le_of_value normalized.decimal otherNormalized.first (mt empty.mpr none) same.symm)
  have fractions : fraction row.digits = fraction other.digits := by
    rw [value, value, points] at same
    exact mul_right_cancel₀ (ten_zpow_pos _).ne' same
  have digits := fraction_injective normalized.decimal otherNormalized.decimal normalized.last
    otherNormalized.last fractions
  cases row
  cases other
  cases digits
  cases points
  rfl

theorem normalize_of_normalized {row : DigitString} (normalized : row.Normalized) :
    row.normalize = row :=
  (normalized_normalize normalized.decimal).unique normalized row.value_normalize

/-! ## Nearest multiples -/

/--
What it means that a number is rounded to a multiple of a unit, a half going away from nought: no
multiple is nearer, and none that is as near is farther from nought.
-/
structure RoundsHalfAway (unit x y : ℚ) : Prop where
  multiple : ∃ count : Int, y = count * unit
  nearest : ∀ count : Int, |x - y| ≤ |x - count * unit|
  half : ∀ count : Int, |x - count * unit| = |x - y| → |count * unit| ≤ |y|

/-- Numbers without sign are rounded so when a half goes up. -/
theorem roundsHalfAway_round {unit x : ℚ} (positive : 0 < unit) (nonneg : 0 ≤ x) :
    RoundsHalfAway unit x (round (x / unit) * unit) := by
  have distance (count : Int) : |x - count * unit| = |x / unit - count| * unit := by
    rw [← abs_of_pos positive, ← abs_mul, abs_of_pos positive, sub_mul,
      div_mul_cancel₀ _ positive.ne']
  refine ⟨⟨round (x / unit), rfl⟩, ?_, ?_⟩
  · intro count
    rw [distance, distance]
    exact mul_le_mul_of_nonneg_right (round_le _ _) positive.le
  · intro count asNear
    rw [distance, distance, mul_left_inj' positive.ne'] at asNear
    have quotient : 0 ≤ x / unit := div_nonneg nonneg positive.le
    have upper : x / unit + 1 / 2 < round (x / unit) + 1 := by
      rw [round_eq]
      exact Int.lt_floor_add_one _
    rw [abs_mul, abs_mul]
    apply mul_le_mul_of_nonneg_right _ (abs_nonneg unit)
    generalize round (x / unit) = nearest at asNear upper ⊢
    rcases abs_eq_abs.mp asNear with same | opposite
    · have equal : (count : ℚ) = nearest := by linarith
      rw [equal]
    · -- The other multiple lies on the far side, so it cannot be the larger one.
      have notLarger : count ≤ nearest := by
        have below : (count : ℚ) < (nearest + 1 : Int) := by
          push_cast
          linarith
        exact Int.lt_add_one_iff.mp (Int.cast_lt.mp below)
      have notSmaller : -nearest ≤ count := by
        have above : ((-nearest : Int) : ℚ) ≤ count := by
          push_cast
          linarith
        exact Int.cast_le.mp above
      have bounded : |count| ≤ |nearest| :=
        (abs_le.mpr ⟨notSmaller, notLarger⟩).trans (le_abs_self nearest)
      exact_mod_cast bounded

/-! ## Rounding -/

/-- Counting up the last place adds one unit of it, wherever the carry stops. -/
theorem value_carry (point : Int) (reversed : List Nat) :
    (carry point reversed).value =
      (fraction reversed.reverse + 1 / 10 ^ reversed.length) * 10 ^ point := by
  induction reversed with
  | nil =>
      rw [carry, value, zpow_add_one₀ (by norm_num)]
      simp [fraction]
      ring
  | cons digit before ih =>
      rw [carry, List.reverse_cons, fraction_append_singleton, List.length_reverse,
        List.length_cons]
      by_cases nine : digit = 9
      · rw [if_pos nine, ih, nine, pow_succ]
        field_simp
        norm_num
        ring
      · rw [if_neg nine, value, fraction_append_singleton, List.length_reverse]
        push_cast
        ring

/-- The digits that are kept count one more of the last place if the next digit asks for it. -/
theorem value_kept (kept : List Nat) (next : Nat) (point : Int) :
    (if 5 ≤ next then carry point kept.reverse else ⟨kept, point⟩ : DigitString).value =
      (fraction kept * 10 ^ kept.length + if 5 ≤ next then 1 else 0) *
        10 ^ (point - kept.length) := by
  have last : (10 : ℚ) ^ point = 10 ^ kept.length * 10 ^ (point - kept.length) := by
    rw [zpow_sub₀ (by norm_num), zpow_natCast]
    field_simp
  by_cases half : 5 ≤ next
  · rw [if_pos half, if_pos half, value_carry, List.reverse_reverse, List.length_reverse, last]
    field_simp
  · rw [if_neg half, if_neg half, value, last, add_zero, mul_assoc]

theorem decimal_carry (point : Int) {reversed : List Nat}
    (decimal : ∀ digit ∈ reversed, digit ≤ 9) :
    ∀ digit ∈ (carry point reversed).digits, digit ≤ 9 := by
  induction reversed with
  | nil => simp [carry]
  | cons digit before ih =>
      have first := decimal digit List.mem_cons_self
      have others := fun other member => decimal other (List.mem_cons_of_mem _ member)
      rw [carry]
      by_cases nine : digit = 9
      · rw [if_pos nine]
        exact ih others
      · rw [if_neg nine]
        intro other member
        rcases List.mem_append.mp member with earlier | counted
        · exact others other (List.mem_reverse.mp earlier)
        · rw [List.mem_singleton.mp counted]
          omega

/--
What rounding does: a row cut off before its first digit is nothing, a row that is short enough
stays as it is, and otherwise the first digit that is cut off decides.
-/
theorem roundAt_cases (row : DigitString) (keep : Int) :
    keep < 0 ∧ row.roundAt keep = ⟨[], 0⟩ ∨
    (∃ spare : Nat, keep = row.digits.length + spare ∧ row.roundAt keep = row) ∨
    ∃ kept next rest, row.digits = kept ++ next :: rest ∧ keep = kept.length ∧
      row.roundAt keep =
        normalize (if 5 ≤ next then carry row.point kept.reverse else ⟨kept, row.point⟩) := by
  by_cases before : keep < 0
  · exact Or.inl ⟨before, if_pos before⟩
  apply Or.inr
  rcases Int.eq_ofNat_of_zero_le (Int.not_lt.mp before) with ⟨count, rfl⟩
  rw [roundAt, if_neg before, Int.toNat_natCast]
  dsimp only
  by_cases short : row.digits.length ≤ count
  · refine Or.inl ⟨count - row.digits.length, by omega, ?_⟩
    rw [List.getElem?_eq_none short]
  · rw [not_le] at short
    apply Or.inr
    refine ⟨row.digits.take count, row.digits[count], row.digits.drop (count + 1), ?_, ?_, ?_⟩
    · rw [List.getElem_cons_drop, List.take_append_drop]
    · rw [List.length_take_of_le short.le]
    · rw [List.getElem?_eq_getElem short]

/-- A whole place above the first digit there is less than a tenth. -/
theorem round_before {digits : List Nat} (decimal : ∀ digit ∈ digits, digit ≤ 9) {keep : Int}
    (before : keep < 0) : round (fraction digits * 10 ^ keep) = 0 := by
  have nonneg := mul_nonneg (fraction_nonneg digits) (ten_zpow_pos keep).le
  have tenth : fraction digits * 10 ^ keep < 1 / 2 := by
    calc
      fraction digits * 10 ^ keep ≤ 1 * 10 ^ (-1 : Int) :=
        mul_le_mul (fraction_lt_one decimal).le (zpow_le_zpow_right₀ (by norm_num) (by omega))
          (ten_zpow_pos keep).le zero_le_one
      _ < 1 / 2 := by norm_num
  rw [round_eq_zero_iff, Set.mem_Ico]
  exact ⟨by linarith, tenth⟩

/-- The rounded row stands for the nearest multiple of the place of its last digit. -/
theorem value_roundAt {row : DigitString} (decimal : ∀ digit ∈ row.digits, digit ≤ 9)
    (keep : Int) :
    (row.roundAt keep).value =
      round (row.value / 10 ^ (row.point - keep)) * 10 ^ (row.point - keep) := by
  have ten : (10 : ℚ) ≠ 0 := by norm_num
  have quotient : row.value / 10 ^ (row.point - keep) = fraction row.digits * 10 ^ keep := by
    rw [value, zpow_sub₀ ten]
    field_simp
  rcases roundAt_cases row keep with ⟨before, none⟩ | ⟨spare, enough, same⟩ |
    ⟨kept, next, rest, split, cut, counted⟩
  · rw [none, quotient, round_before decimal before, value, fraction, Int.cast_zero, zero_mul,
      zero_mul]
  · -- With all digits kept the number is a multiple already.
    rcases exists_whole row.digits with ⟨whole, last⟩
    have multiple : fraction row.digits * 10 ^ keep = (whole * 10 ^ spare : Nat) := by
      rw [enough, zpow_add₀ ten, zpow_natCast, zpow_natCast, ← mul_assoc, last]
      push_cast
      rfl
    rw [same, quotient, multiple, round_natCast, Int.cast_natCast, ← multiple, ← quotient,
      div_mul_cancel₀ _ (ten_zpow_pos _).ne']
  · -- The digits that are kept are whole, so only what is cut off is rounded.
    rcases exists_whole kept with ⟨whole, last⟩
    have cutOff := round_fraction_cons
      (fun digit member => decimal digit (split ▸ List.mem_append_right kept member))
    have parts : fraction row.digits * 10 ^ keep = whole + fraction (next :: rest) := by
      rw [split, fraction_append, cut, zpow_natCast, ← last]
      field_simp
    rw [counted, value_normalize, value_kept, quotient, parts, round_natCast_add, cutOff, last, cut]
    push_cast
    rfl

theorem normalized_roundAt {row : DigitString} (normalized : row.Normalized) (keep : Int) :
    (row.roundAt keep).Normalized := by
  rcases roundAt_cases row keep with ⟨_, none⟩ | ⟨_, _, same⟩ |
    ⟨kept, next, rest, split, _, counted⟩
  · rw [none]
    decide
  · rw [same]
    exact normalized
  · have decimal : ∀ digit ∈ kept, digit ≤ 9 := by
      intro digit member
      apply normalized.decimal
      rw [split]
      exact List.mem_append_left _ member
    rw [counted]
    apply normalized_normalize
    by_cases half : 5 ≤ next
    · rw [if_pos half]
      apply decimal_carry
      intro digit member
      exact decimal digit (List.mem_reverse.mp member)
    · rw [if_neg half]
      exact decimal

example : (⟨[2, 5], 1⟩ : DigitString).roundFraction 0 = ⟨[3], 1⟩ := by decide

example : (⟨[4], -3⟩ : DigitString).roundFraction 3 = ⟨[], 0⟩ := by decide

/-! ## Powers of ten and nought -/

theorem isZero_eq_true {row : DigitString} : row.isZero = true ↔ row.digits = [] :=
  List.isEmpty_iff

theorem value_shift (row : DigitString) (power : Int) :
    (row.shift power).value = row.value * 10 ^ power := by
  unfold shift
  split
  · rename_i zero
    rw [value, isZero_eq_true.mp zero, fraction, zero_mul, zero_mul]
  · rw [value, value, zpow_add₀ (by norm_num), mul_assoc]

theorem normalized_shift {row : DigitString} (normalized : row.Normalized) (power : Int) :
    (row.shift power).Normalized := by
  unfold shift
  split
  · exact normalized
  · rename_i nonzero
    refine ⟨normalized.decimal, normalized.first, normalized.last, ?_⟩
    intro none
    exact absurd (isZero_eq_true.mpr none) nonzero

theorem isZero_iff_value {row : DigitString} (normalized : row.Normalized) :
    row.isZero = true ↔ row.value = 0 := by
  rw [isZero_eq_true, value_eq_zero normalized.last]

theorem value_nonneg (row : DigitString) : 0 ≤ row.value :=
  mul_nonneg (fraction_nonneg row.digits) (ten_zpow_pos row.point).le

/-! ## Exactness -/

/-- What it means that a row of digits is calculated with exactly and stays in normal form. -/
structure Exact (row : DigitString) : Prop where
  rounded : ∀ keep : Int, (row.roundAt keep).Normalized ∧
    RoundsHalfAway (10 ^ (row.point - keep)) row.value (row.roundAt keep).value
  fraction : ∀ maximum : Nat, (row.roundFraction maximum).Normalized ∧
    RoundsHalfAway (10 ^ (-(maximum : Int))) row.value (row.roundFraction maximum).value
  significant : ∀ maximum : Nat, (row.roundSignificant maximum).Normalized ∧
    RoundsHalfAway (10 ^ (row.point - maximum)) row.value (row.roundSignificant maximum).value
  shifted : ∀ power : Int, (row.shift power).Normalized ∧
    (row.shift power).value = row.value * 10 ^ power
  zero : row.isZero = true ↔ row.value = 0

theorem Normalized.exact {row : DigitString} (normalized : row.Normalized) : row.Exact := by
  have rounded (keep : Int) : (row.roundAt keep).Normalized ∧
      RoundsHalfAway (10 ^ (row.point - keep)) row.value (row.roundAt keep).value := by
    refine ⟨normalized_roundAt normalized keep, ?_⟩
    rw [value_roundAt normalized.decimal]
    exact roundsHalfAway_round (ten_zpow_pos _) row.value_nonneg
  refine ⟨rounded, ?_, fun maximum => rounded maximum, ?_, isZero_iff_value normalized⟩
  · intro maximum
    have behind := rounded (row.point + maximum)
    rwa [sub_add_cancel_left] at behind
  · intro power
    exact ⟨normalized_shift normalized power, row.value_shift power⟩

end DigitString
end NumberFormat
