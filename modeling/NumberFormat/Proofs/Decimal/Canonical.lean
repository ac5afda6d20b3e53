import Mathlib.Algebra.Group.Nat.Defs
import NumberFormat.Binary64.Literal

namespace NumberFormat

/-!
Decimals in lowest form and the digits they are written with.

A value has one lowest form only, so bringing a coefficient with zeros at its end into lowest form
gives the decimal it stands for.  The plain digits of a decimal are such a coefficient: read as
one number and counted in units of the last place they make the decimal again.
-/

namespace Decimal

/-- Powers of ten apart, a coefficient without a zero at its end is determined by the value. -/
theorem lowest_unique {c d j k : Nat} (cLowest : c % 10 ≠ 0) (dLowest : d % 10 ≠ 0)
    (same : c * 10 ^ j = d * 10 ^ k) : c = d ∧ j = k := by
  induction j generalizing k with
  | zero =>
      cases k with
      | zero => simpa using same
      | succ k =>
          have multiple : c = 10 * (d * 10 ^ k) := by
            rw [Nat.pow_succ] at same
            simp only [Nat.pow_zero, Nat.mul_one] at same
            rw [same]
            ac_rfl
          omega
  | succ j ih =>
      cases k with
      | zero =>
          have multiple : d = 10 * (c * 10 ^ j) := by
            rw [Nat.pow_succ] at same
            simp only [Nat.pow_zero, Nat.mul_one] at same
            rw [← same]
            ac_rfl
          omega
      | succ k =>
          have cancelled : c * 10 ^ j = d * 10 ^ k := by
            rw [Nat.pow_succ, Nat.pow_succ, ← Nat.mul_assoc, ← Nat.mul_assoc] at same
            exact Nat.eq_of_mul_eq_mul_right (by decide) same
          have inner := ih cancelled
          exact ⟨inner.1, congrArg (· + 1) inner.2⟩

theorem eq_of_parts {d e : Decimal} (coefficients : d.coefficient = e.coefficient)
    (exponents : d.exponent = e.exponent) : d = e := by
  cases d
  cases e
  cases coefficients
  cases exponents
  rfl

/-- Lowest form undoes zeros written behind the coefficient of a decimal. -/
theorem scaled_of_value {d : Decimal} {n k : Nat} {exponent : Int} (nonzero : d.coefficient ≠ 0)
    (value : n = d.coefficient * 10 ^ k) (shifted : d.exponent = exponent + k) :
    scaled n exponent = d := by
  have lowest : d.coefficient % 10 ≠ 0 :=
    d.normal.resolve_right (fun both => nonzero both.1)
  have positive : n ≠ 0 := by
    rw [value]
    exact Nat.mul_ne_zero nonzero (Nat.pos_iff_ne_zero.mp (Nat.pow_pos (by decide)))
  have kept := dropZeros_value n n
  have stripped := dropZeros_normal n n positive (Nat.le_refl n)
  have unique := lowest_unique stripped lowest (kept.trans value)
  rw [scaled, dif_neg positive]
  apply eq_of_parts unique.1
  rw [shifted]
  exact congrArg (fun zeros : Nat => exponent + zeros) unique.2

/-- Lowest form keeps the value: it moves zeros from the coefficient to the exponent. -/
theorem value_scaled {n : Nat} (exponent : Int) (positive : n ≠ 0) :
    ∃ k : Nat, (scaled n exponent).coefficient * 10 ^ k = n ∧
      (scaled n exponent).exponent = exponent + k ∧ (scaled n exponent).coefficient ≠ 0 := by
  refine ⟨(dropZeros n n).2, ?_, ?_, ?_⟩
  · rw [scaled, dif_neg positive]
    exact dropZeros_value n n
  · rw [scaled, dif_neg positive]
  · rw [scaled, dif_neg positive]
    have stripped := dropZeros_normal n n positive (Nat.le_refl n)
    intro zero
    dsimp only at zero
    rw [zero] at stripped
    exact stripped rfl

theorem le_exponent_scaled {n : Nat} {place : Int} (nonzero : (scaled n place).coefficient ≠ 0) :
    place ≤ (scaled n place).exponent := by
  have positive : n ≠ 0 := by
    rintro rfl
    exact nonzero rfl
  obtain ⟨k, _, shifted, _⟩ := value_scaled place positive
  omega

theorem places_scaled_le (n maximum : Nat) : (scaled n (-(maximum : Int))).places ≤ maximum := by
  unfold places
  by_cases zero : n = 0
  · subst zero
    exact Nat.zero_le _
  · obtain ⟨k, _, shifted, _⟩ := value_scaled (-(maximum : Int)) zero
    omega

/-! ## First digits -/

theorem digitChar_ne_zero {n : Nat} (positive : n ≠ 0) (small : n < 10) :
    Nat.digitChar n ≠ '0' := by
  have all : ∀ n : Fin 10, n.val ≠ 0 → Nat.digitChar n ≠ '0' := by decide
  exact all ⟨n, small⟩ positive

/-- The digits of a number do not begin with a zero, unless it is nought. -/
theorem exists_toDigits_eq_cons {n : Nat} (positive : n ≠ 0) :
    ∃ digit digits, Nat.toDigits 10 n = digit :: digits ∧ digit ≠ '0' := by
  induction n using Nat.strongRecOn with
  | ind n ih =>
      by_cases small : n < 10
      · exact ⟨_, _, Nat.toDigits_of_lt_base small, digitChar_ne_zero positive small⟩
      · rcases ih (n / 10) (by omega) (by omega) with ⟨digit, digits, same, nonzero⟩
        refine ⟨digit, digits ++ [Nat.digitChar (n % 10)], ?_, nonzero⟩
        rw [Nat.toDigits_of_base_le (by decide) (by omega), same, List.cons_append]

/-! ## Digits read as a number -/

theorem toNat_of_isDigit {c : Char} (digit : c.isDigit = true) :
    '0'.toNat ≤ c.toNat ∧ c.toNat ≤ '9'.toNat := by
  rcases Bool.and_eq_true_iff.mp digit with ⟨least, greatest⟩
  exact ⟨of_decide_eq_true least, of_decide_eq_true greatest⟩

/-- Digits make the number nought exactly if they are zeros. -/
theorem ofDigitChars_eq_zero {digits : List Char} (all : ∀ c ∈ digits, c.isDigit = true) :
    Nat.ofDigitChars 10 digits 0 = 0 ↔ ∀ c ∈ digits, c = '0' := by
  induction digits with
  | nil => exact iff_of_true rfl (fun c member => absurd member List.not_mem_nil)
  | cons c digits ih =>
      have first : c.toNat - '0'.toNat = 0 ↔ c = '0' := by
        have least := (toNat_of_isDigit (all c List.mem_cons_self)).1
        rw [← Char.toNat_inj]
        omega
      have others := ih (fun d member => all d (List.mem_cons_of_mem _ member))
      rw [Nat.ofDigitChars_cons, Nat.ofDigitChars_eq_ofDigitChars_zero, Nat.mul_zero,
        Nat.zero_add, Nat.add_eq_zero_iff, others, Nat.mul_eq_zero, first, List.forall_mem_cons]
      simp

theorem ofDigitChars_lt {digits : List Char} (all : ∀ c ∈ digits, c.isDigit = true) :
    Nat.ofDigitChars 10 digits 0 < 10 ^ digits.length := by
  induction digits with
  | nil => exact Nat.one_pos
  | cons c digits ih =>
      have first : c.toNat - '0'.toNat < 10 := by
        have greatest := (toNat_of_isDigit (all c List.mem_cons_self)).2
        have nine : '9'.toNat - '0'.toNat < 10 := by decide
        omega
      have others := ih (fun d member => all d (List.mem_cons_of_mem _ member))
      rw [Nat.ofDigitChars_cons, Nat.ofDigitChars_eq_ofDigitChars_zero, Nat.mul_zero,
        Nat.zero_add, List.length_cons, Nat.pow_succ]
      have shifted := Nat.mul_le_mul_left (10 ^ digits.length) (Nat.le_of_lt_succ first)
      omega

/-- Zeros in front of a number play no part in it. -/
theorem ofDigitChars_dropWhile (digits : List Char) :
    Nat.ofDigitChars 10 (digits.dropWhile (· == '0')) 0 = Nat.ofDigitChars 10 digits 0 := by
  induction digits with
  | nil => rfl
  | cons c digits ih =>
      by_cases zero : c = '0'
      · subst zero
        exact ih
      · rw [List.dropWhile_cons, if_neg (by simpa using zero)]

/-- A number ends in a zero only if its last digit is one. -/
theorem ofDigitChars_mod {digits : List Char} (all : ∀ c ∈ digits, c.isDigit = true) {last : Char}
    (ends : digits.getLast? = some last) (nonzero : last ≠ '0') :
    Nat.ofDigitChars 10 digits 0 % 10 ≠ 0 := by
  obtain ⟨front, rfl⟩ := List.getLast?_eq_some_iff.mp ends
  have bounds := toNat_of_isDigit (all last (List.mem_append_right _ List.mem_cons_self))
  have nine : '9'.toNat - '0'.toNat < 10 := by decide
  have other : last.toNat ≠ '0'.toNat := fun same => nonzero (Char.toNat_inj.mp same)
  rw [Nat.ofDigitChars_append, Nat.ofDigitChars_cons, Nat.ofDigitChars_nil]
  omega

/-! ## Plain digits -/

/-- The digits of a number with zeros behind them tell between which powers of ten it lies. -/
theorem length_toDigits_add_le_iff {c : Nat} (nonzero : c ≠ 0) (k n : Nat) :
    (Nat.toDigits 10 c).length + k ≤ n ↔ c * 10 ^ k < 10 ^ n := by
  have some : 0 < (Nat.toDigits 10 c).length := Nat.length_toDigits_pos
  constructor
  · intro fits
    have below := (Nat.length_toDigits_le_iff (b := 10) (by decide) some).mp (Nat.le_refl _)
    calc
      c * 10 ^ k < 10 ^ (Nat.toDigits 10 c).length * 10 ^ k :=
        Nat.mul_lt_mul_of_pos_right below (Nat.pow_pos (by decide))
      _ = 10 ^ ((Nat.toDigits 10 c).length + k) := (Nat.pow_add _ _ _).symm
      _ ≤ 10 ^ n := Nat.pow_le_pow_right (by decide) fits
  · intro below
    have zeros : k < n := by
      refine (Nat.pow_lt_pow_iff_right (a := 10) (by decide)).mp (Nat.lt_of_le_of_lt ?_ below)
      exact Nat.le_mul_of_pos_left _ (Nat.pos_of_ne_zero nonzero)
    have split : 10 ^ n = 10 ^ (n - k) * 10 ^ k := by
      rw [← Nat.pow_add, Nat.sub_add_cancel (Nat.le_of_lt zeros)]
    rw [split] at below
    have bounded := Nat.lt_of_mul_lt_mul_right below
    have fits := (Nat.length_toDigits_le_iff (b := 10) (by decide) (by omega)).mpr bounded
    omega

/-- Where the decimal point stands follows from the powers of ten around the value. -/
theorem point_range {d : Decimal} {k low high : Nat} {exponent : Int} (nonzero : d.coefficient ≠ 0)
    (shifted : d.exponent = exponent + k) (least : 10 ^ low ≤ d.coefficient * 10 ^ k)
    (greatest : d.coefficient * 10 ^ k < 10 ^ high) :
    exponent + low < d.point ∧ d.point ≤ exponent + high := by
  have above := mt (length_toDigits_add_le_iff nonzero k low).mp (Nat.not_lt_of_ge least)
  have below := (length_toDigits_add_le_iff nonzero k high).mpr greatest
  have point : d.point = (Nat.toDigits 10 d.coefficient).length + d.exponent := by
    rw [Decimal.point, digits, if_neg nonzero]
  omega

theorem wholeDigits_one (d : Decimal) : d.wholeDigits 1 = Nat.toDigits 10 d.wholePart := by
  have some : 1 - (Nat.toDigits 10 d.wholePart).length = 0 :=
    Nat.sub_eq_zero_of_le Nat.length_toDigits_pos
  simp [wholeDigits, List.leftpad, some]

/-- The fraction of the plain form: as many digits as there are places. -/
theorem fractionDigits_zero {d : Decimal} (fraction : d.places ≠ 0) :
    d.fractionDigits 0 =
      List.replicate (d.places - (Nat.toDigits 10 d.fractionPart).length) '0' ++
        Nat.toDigits 10 d.fractionPart := by
  simp [fractionDigits, fraction, List.leftpad, List.rightpad]

theorem length_fractionDigits {d : Decimal} (fraction : d.places ≠ 0) :
    (d.fractionDigits 0).length = d.places := by
  have fits : (Nat.toDigits 10 d.fractionPart).length ≤ d.places :=
    (Nat.length_toDigits_le_iff (by decide) (Nat.pos_of_ne_zero fraction)).mpr
      (Nat.mod_lt _ (Nat.pow_pos (by decide)))
  rw [fractionDigits_zero fraction, List.length_append, List.length_replicate]
  omega

theorem isDigit_of_mem_wholeDigits {d : Decimal} {c : Char} (member : c ∈ d.wholeDigits 1) :
    c.isDigit = true := by
  rw [wholeDigits_one] at member
  exact Nat.isDigit_of_mem_toDigits (by decide) (by decide) member

theorem isDigit_of_mem_fractionDigits {d : Decimal} {c : Char} (fraction : d.places ≠ 0)
    (member : c ∈ d.fractionDigits 0) : c.isDigit = true := by
  rw [fractionDigits_zero fraction] at member
  rcases List.mem_append.mp member with zero | digit
  · rw [List.eq_of_mem_replicate zero]
    rfl
  · exact Nat.isDigit_of_mem_toDigits (by decide) (by decide) digit

theorem ofDigitChars_wholeDigits (d : Decimal) :
    Nat.ofDigitChars 10 (d.wholeDigits 1) 0 = d.wholePart := by
  rw [wholeDigits_one, Nat.ofDigitChars_ten_toDigits]

theorem ofDigitChars_fractionDigits {d : Decimal} (fraction : d.places ≠ 0) :
    Nat.ofDigitChars 10 (d.fractionDigits 0) 0 = d.fractionPart := by
  rw [fractionDigits_zero fraction, Nat.ofDigitChars_append, Nat.ofDigitChars_replicate_zero,
    Nat.mul_zero, Nat.ofDigitChars_ten_toDigits]

end Decimal

namespace Binary64

open Decimal

/-- The plain digits of a decimal with a fraction make the decimal again. -/
theorem decimalOf_plain_fraction {d : Decimal} (fraction : d.places ≠ 0) :
    decimalOf (d.wholeDigits 1) (d.fractionDigits 0) 0 = d := by
  have negative : d.exponent < 0 := by
    unfold places at fraction
    omega
  have nonzero : d.coefficient ≠ 0 := by
    intro zero
    rcases d.normal with lowest | both
    · simp [zero] at lowest
    · omega
  have digits : Nat.ofDigitChars 10 (d.wholeDigits 1 ++ d.fractionDigits 0) 0 =
      d.coefficient * 10 ^ 0 := by
    rw [Nat.ofDigitChars_append, ofDigitChars_wholeDigits, Nat.ofDigitChars_eq_ofDigitChars_zero,
      ofDigitChars_fractionDigits fraction, length_fractionDigits fraction]
    have noShift : d.exponent.toNat = 0 := by omega
    simp only [wholePart, fractionPart, noShift, Nat.pow_eq, Nat.pow_zero, Nat.mul_one]
    exact Nat.div_add_mod _ _
  apply scaled_of_value nonzero digits
  rw [length_fractionDigits fraction]
  unfold places
  omega

/-- The plain digits of a whole decimal make the decimal again. -/
theorem decimalOf_plain_whole {d : Decimal} (whole : d.places = 0) :
    decimalOf (d.wholeDigits 1) [] 0 = d := by
  have digits : Nat.ofDigitChars 10 (d.wholeDigits 1 ++ []) 0 =
      d.coefficient * 10 ^ d.exponent.toNat := by
    rw [List.append_nil, ofDigitChars_wholeDigits, wholePart, whole]
    exact Nat.div_one _
  unfold places at whole
  by_cases nonzero : d.coefficient = 0
  · have both := d.normal.resolve_left (by simp [nonzero])
    rw [decimalOf, digits, nonzero, Nat.zero_mul]
    exact eq_of_parts nonzero.symm both.2.symm
  · apply scaled_of_value nonzero digits
    simp only [List.length_nil]
    omega

end Binary64
end NumberFormat
