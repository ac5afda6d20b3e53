import NumberFormat.Format.NumberingSystem
import NumberFormat.Proofs.Binary64.Written
import NumberFormat.Proofs.Decimal.DigitString
import NumberFormat.Proofs.Decimal.Order
import NumberFormat.Proofs.Decimal.Rendering

namespace NumberFormat

open Binary64 (Digits ExponentSpelling MantissaSpelling Spelling)
open Format (digitValue?)
open Text (stopsBefore_cons takeWhile_run dropWhile_run)

/-!
Decimals calculate as their digits do.

The digits of a decimal are a row in normal form, and every row in normal form is the digits of one
decimal.  A row in normal form is determined by its number, so what is true of the numbers is true
of the digits: rounding a decimal is cutting off its digits and carrying, and scientific notation
is read as the digits it was written with.
-/

/-! ## Digits read as numbers -/

namespace Format

theorem digitValue?_of_isDigit {c : Char} (digit : c.isDigit = true) :
    digitValue? c = some (c.toNat - '0'.toNat) :=
  if_pos digit

theorem digitValue?_le {c : Char} {digit : Nat} (value : digitValue? c = some digit) :
    digit ≤ 9 := by
  unfold digitValue? at value
  split at value
  · rename_i decimal
    have greatest := (Decimal.toNat_of_isDigit decimal).2
    have nine : '9'.toNat - '0'.toNat = 9 := by decide
    cases value
    omega
  · cases value

theorem digitValue?_digitChar {digit : Nat} (small : digit < 10) :
    digitValue? (Nat.digitChar digit) = some digit := by
  have all : ∀ digit : Fin 10, digitValue? (Nat.digitChar digit) = some digit.val := by decide
  exact all ⟨digit, small⟩

end Format

open Format (digitValue?_of_isDigit digitValue?_le digitValue?_digitChar)

/-- A row of written digits, counted in units of the last one, is the number they are read as. -/
theorem fraction_digitValues {digits : List Char} (all : Digits digits) :
    DigitString.fraction (digits.filterMap digitValue?) * 10 ^ digits.length =
      Nat.ofDigitChars 10 digits 0 := by
  induction digits with
  | nil => simp [DigitString.fraction]
  | cons c digits ih =>
      have others := ih (fun d member => all d (List.mem_cons_of_mem _ member))
      rw [List.filterMap_cons_some (digitValue?_of_isDigit (all c List.mem_cons_self)),
        DigitString.fraction, Nat.ofDigitChars_cons, Nat.ofDigitChars_eq_ofDigitChars_zero,
        Nat.mul_zero, Nat.zero_add, List.length_cons, pow_succ]
      push_cast
      rw [← others]
      ring

namespace Decimal

/-- The digits of a decimal as numbers, with its point. -/
def digitString (d : Decimal) : DigitString :=
  ⟨d.digits.filterMap digitValue?, d.point⟩

theorem digits_digits (d : Decimal) : Digits d.digits := by
  intro c member
  unfold digits at member
  split at member
  · cases member
  · exact digits_toDigits _ c member

theorem value_digitString (d : Decimal) : d.digitString.value = d.toRat := by
  have counted := fraction_digitValues d.digits_digits
  have split : d.digitString.value =
      DigitString.fraction (d.digits.filterMap digitValue?) * 10 ^ d.digits.length *
        10 ^ d.exponent := by
    rw [DigitString.value, digitString, point, zpow_add₀ (by norm_num), zpow_natCast, mul_assoc]
  rw [split, counted, toRat]
  unfold digits
  split
  · rename_i zero
    rw [zero]
    rfl
  · rw [Nat.ofDigitChars_ten_toDigits]

theorem digitString_of_zero {d : Decimal} (zero : d.coefficient = 0) :
    d.digitString = ⟨[], 0⟩ := by
  have exponent := (d.normal.resolve_left (by simp [zero])).2
  rw [digitString, point, digits, if_pos zero, exponent]
  rfl

/-- The last digit of a number is what remains when tens are taken away. -/
theorem exists_toDigits_eq_append (n : Nat) :
    ∃ front, Nat.toDigits 10 n = front ++ [Nat.digitChar (n % 10)] := by
  by_cases small : n < 10
  · refine ⟨[], ?_⟩
    rw [Nat.toDigits_of_lt_base small, Nat.mod_eq_of_lt small, List.nil_append]
  · exact ⟨Nat.toDigits 10 (n / 10), Nat.toDigits_of_base_le (by decide) (by omega)⟩

/-- The first digit of a decimal is none that could be left out, and neither is the last. -/
theorem normalized_digitString (d : Decimal) : d.digitString.Normalized := by
  by_cases zero : d.coefficient = 0
  · rw [digitString_of_zero zero]
    decide
  have written : d.digits = Nat.toDigits 10 d.coefficient := if_neg zero
  rcases exists_toDigits_eq_append d.coefficient with ⟨front, ending⟩
  have last : d.digitString.digits = front.filterMap digitValue? ++ [d.coefficient % 10] := by
    rw [digitString, written, ending, List.filterMap_append,
      List.filterMap_cons_some (digitValue?_digitChar (Nat.mod_lt _ (by decide))),
      List.filterMap_nil]
  refine ⟨?_, ?_, ?_, ?_⟩
  · intro digit member
    rcases List.mem_filterMap.mp member with ⟨c, _, value⟩
    exact digitValue?_le value
  · rcases exists_toDigits_eq_cons zero with ⟨c, rest, opening, nonzero⟩
    have decimal : c.isDigit = true := by
      apply d.digits_digits
      rw [written, opening]
      exact List.mem_cons_self
    rw [digitString, written, opening, List.filterMap_cons_some (digitValue?_of_isDigit decimal),
      List.head?_cons, ne_eq, Option.some_inj]
    have least := (toNat_of_isDigit decimal).1
    have other : c.toNat ≠ '0'.toNat := fun same => nonzero (Char.toNat_inj.mp same)
    omega
  · rw [last, List.getLast?_append, List.getLast?_singleton, Option.some_or, ne_eq, Option.some_inj]
    exact d.normal.resolve_right (fun both => zero both.1)
  · intro none
    rw [last] at none
    exact absurd none (List.append_ne_nil_of_right_ne_nil _ (List.cons_ne_nil _ _))

/-- Every row in normal form is the digits of a decimal. -/
theorem exists_digitString {row : DigitString} (normalized : row.Normalized) :
    ∃ d : Decimal, d.digitString = row := by
  rcases DigitString.exists_whole row.digits with ⟨whole, counted⟩
  refine ⟨scaled whole (row.point - row.digits.length), ?_⟩
  apply (normalized_digitString _).unique normalized
  rw [value_digitString, toRat_scaled, ← counted, zpow_sub₀ (by norm_num), zpow_natCast,
    DigitString.value]
  field_simp

/-! ## Calculating -/

/-- Rounding a decimal cuts off its digits. -/
theorem digitString_roundAt (d : Decimal) (keep : Int) :
    (d.roundAt (d.point - keep)).digitString = d.digitString.roundAt keep := by
  have normalized := d.normalized_digitString
  apply (normalized_digitString _).unique (DigitString.normalized_roundAt normalized keep)
  rw [value_digitString, toRat_roundAt, DigitString.value_roundAt normalized.decimal,
    value_digitString]
  rfl

theorem digitString_roundFraction (d : Decimal) (maximum : Nat) :
    (d.roundFraction maximum).digitString = d.digitString.roundFraction maximum := by
  have rounded := d.digitString_roundAt (d.point + maximum)
  rwa [sub_add_cancel_left] at rounded

theorem digitString_roundSignificant (d : Decimal) (maximum : Nat) :
    (d.roundSignificant maximum).digitString = d.digitString.roundSignificant maximum :=
  d.digitString_roundAt maximum

theorem digitString_shift (d : Decimal) (power : Int) :
    (d.shift power).digitString = d.digitString.shift power := by
  have normalized := d.normalized_digitString
  apply (normalized_digitString _).unique (DigitString.normalized_shift normalized power)
  rw [value_digitString, toRat_shift, DigitString.value_shift, value_digitString]

theorem isZero_digitString (d : Decimal) : d.digitString.isZero = d.isZero := by
  apply Bool.eq_iff_iff.mpr
  rw [DigitString.isZero_iff_value d.normalized_digitString, value_digitString, toRat_eq_zero,
    isZero_iff]

/-! ## Scientific notation -/

/-- A power of ten behind its mark. -/
def exponentPart (exponent : Int) : List Char :=
  'e' :: ((if decide (exponent < 0) then ['-'] else []) ++ Nat.toDigits 10 exponent.natAbs)

/-- The digits with the point behind the first of them; a decimal that has none is written `0`. -/
def mantissaPart (d : Decimal) : List Char :=
  let digits := Nat.toDigits 10 d.coefficient
  digits.take 1 ++ pointed '.' (digits.drop 1)

/-- The decimal in scientific notation: `4.2e3`, `7e-5`, `0e0`. -/
def scientific (d : Decimal) : List Char :=
  d.mantissaPart ++ exponentPart d.leadingExponent

theorem exponentPart_spelling (exponent : Int) :
    ExponentSpelling exponent (exponentPart exponent) := by
  have spelled : ExponentSpelling _ (exponentPart exponent) :=
    .present (Or.inl rfl) (Binary64.signSpelling_minus _) (digits_toDigits _) Nat.toDigits_ne_nil
  have value : Binary64.signedNumber (decide (exponent < 0)) (Nat.toDigits 10 exponent.natAbs) =
      exponent := by
    rw [Binary64.signedNumber, Nat.ofDigitChars_ten_toDigits]
    split
    · rename_i negative
      have below := of_decide_eq_true negative
      omega
    · rename_i nonnegative
      have above := of_decide_eq_false (Bool.eq_false_iff.mpr nonnegative)
      omega
  rwa [value] at spelled

theorem digitValues_mantissaPart (d : Decimal) :
    d.mantissaPart.filterMap digitValue? =
      (Nat.toDigits 10 d.coefficient).filterMap digitValue? := by
  have behind (fraction : List Char) :
      (pointed '.' fraction).filterMap digitValue? = fraction.filterMap digitValue? := by
    unfold pointed
    split
    · rename_i none
      rw [none]
    · exact List.filterMap_cons_none rfl
  rw [mantissaPart, List.filterMap_append, behind, ← List.filterMap_append, List.take_append_drop]

theorem mantissaPart_unmarked (d : Decimal) : ∀ c ∈ d.mantissaPart, (c != 'e') = true := by
  have digit {c : Char} (member : c ∈ Nat.toDigits 10 d.coefficient) : (c != 'e') = true := by
    have decimal := digits_toDigits _ c member
    apply bne_iff_ne.mpr
    rintro rfl
    cases decimal
  intro c member
  rcases List.mem_append.mp member with first | behind
  · exact digit (List.mem_of_mem_take first)
  · unfold pointed at behind
    split at behind
    · cases behind
    · rcases List.mem_cons.mp behind with rfl | other
      · decide
      · exact digit (List.mem_of_mem_drop other)

theorem mantissaPart_spelling (d : Decimal) :
    MantissaSpelling ((Nat.toDigits 10 d.coefficient).take 1)
      ((Nat.toDigits 10 d.coefficient).drop 1) d.mantissaPart := by
  have all := digits_toDigits d.coefficient
  have some : (Nat.toDigits 10 d.coefficient).take 1 ≠ [] := by
    rw [ne_eq, List.take_eq_nil_iff]
    exact not_or.mpr ⟨Nat.one_ne_zero, Nat.toDigits_ne_nil⟩
  have first : Digits ((Nat.toDigits 10 d.coefficient).take 1) :=
    fun c member => all c (List.mem_of_mem_take member)
  have behind : Digits ((Nat.toDigits 10 d.coefficient).drop 1) :=
    fun c member => all c (List.mem_of_mem_drop member)
  unfold mantissaPart pointed
  dsimp only
  split
  · rename_i none
    rw [none, List.append_nil]
    exact .whole first some
  · exact .pointed first behind (List.append_ne_nil_of_left_ne_nil some _)

/-- The digits of a decimal and its power of ten make the decimal again. -/
theorem decimalOf_mantissaPart (d : Decimal) :
    Binary64.decimalOf ((Nat.toDigits 10 d.coefficient).take 1)
      ((Nat.toDigits 10 d.coefficient).drop 1) d.leadingExponent = d := by
  rw [Binary64.decimalOf, List.take_append_drop, Nat.ofDigitChars_ten_toDigits, List.length_drop]
  by_cases zero : d.coefficient = 0
  · rw [zero]
    exact eq_of_parts zero.symm (d.normal.resolve_left (by simp [zero])).2.symm
  · apply scaled_of_value zero (Nat.mul_one d.coefficient).symm (k := 0)
    have some : 0 < (Nat.toDigits 10 d.coefficient).length := Nat.length_toDigits_pos
    rw [leadingExponent_of_nonzero zero, point, digits, if_neg zero]
    omega

/-- Scientific notation spells the number of the format nearest to the decimal. -/
theorem scientific_spelling (d : Decimal) :
    Spelling (Binary64.ofDecimal false d) d.scientific := by
  have spelled := Spelling.decimal .absent d.mantissaPart_spelling
    (exponentPart_spelling d.leadingExponent)
  rwa [decimalOf_mantissaPart] at spelled

end Decimal

namespace DigitString

/--
Scientific notation read digit by digit.  The point stands behind the first digit, whether it is
written or not.
-/
def ofScientific (text : List Char) : DigitString :=
  let exponent := match Binary64.takeExponent? (text.dropWhile (· != 'e')) with
    | some (exponent, []) => exponent
    | _ => 0
  normalize ⟨(text.takeWhile (· != 'e')).filterMap digitValue?, exponent + 1⟩

/-- Whatever the text, what is read from it has no zeros at its ends. -/
theorem normalized_ofScientific (text : List Char) : (ofScientific text).Normalized := by
  apply normalized_normalize
  intro digit member
  rcases List.mem_filterMap.mp member with ⟨c, _, value⟩
  exact digitValue?_le value

theorem ofScientific_eq (mantissa : List Char) (exponent : Int)
    (unmarked : ∀ c ∈ mantissa, (c != 'e') = true) :
    ofScientific (mantissa ++ Decimal.exponentPart exponent) =
      normalize ⟨mantissa.filterMap digitValue?, exponent + 1⟩ := by
  have marked : Text.StopsBefore (· != 'e') (Decimal.exponentPart exponent) := stopsBefore_cons rfl
  have taken := Binary64.takeExponent?_append (Decimal.exponentPart_spelling exponent)
    Text.stopsBefore_nil nofun
  rw [List.append_nil] at taken
  unfold ofScientific
  rw [takeWhile_run unmarked marked, dropWhile_run unmarked marked, taken]

theorem ofScientific_scientific (d : Decimal) : ofScientific d.scientific = d.digitString := by
  rw [Decimal.scientific, ofScientific_eq _ _ d.mantissaPart_unmarked,
    Decimal.digitValues_mantissaPart]
  by_cases zero : d.coefficient = 0
  · rw [Decimal.digitString_of_zero zero, Decimal.leadingExponent_of_zero zero, zero]
    decide
  · have written : d.digits = Nat.toDigits 10 d.coefficient := if_neg zero
    rw [Decimal.leadingExponent_of_nonzero zero, sub_add_cancel, ← written]
    exact normalize_of_normalized d.normalized_digitString

example : ofScientific "4.2e-2".toList = ⟨[4, 2], -1⟩ := by decide

end DigitString

/-! ## Digit by digit -/

/-- The point of a number of the format stands within four hundred places of its first digit. -/
theorem Magnitude.abs_point_shortest (m : Magnitude) : |m.shortest.point| ≤ 400 := by
  have reads := ofDecimal?_shortest m
  unfold ofDecimal? at reads
  split at reads
  · cases reads
  split at reads
  · cases reads
    decide
  · exact abs_le.mpr ⟨by omega, by omega⟩

/-- What it means that a decimal is calculated with digit by digit. -/
structure Decimal.Digitwise (d : Decimal) : Prop where
  value : d.toRat = d.digitString.value
  roundAt : ∀ keep : Int,
    (d.roundAt (d.point - keep)).digitString = d.digitString.roundAt keep
  roundFraction : ∀ maximum : Nat,
    (d.roundFraction maximum).digitString = d.digitString.roundFraction maximum
  roundSignificant : ∀ maximum : Nat,
    (d.roundSignificant maximum).digitString = d.digitString.roundSignificant maximum
  shift : ∀ power : Int, (d.shift power).digitString = d.digitString.shift power
  isZero : d.isZero = d.digitString.isZero

theorem Decimal.digitwise (d : Decimal) : d.Digitwise where
  value := d.value_digitString.symm
  roundAt := d.digitString_roundAt
  roundFraction := d.digitString_roundFraction
  roundSignificant := d.digitString_roundSignificant
  shift := d.digitString_shift
  isZero := d.isZero_digitString.symm

namespace DigitString

/--
The digits of a magnitude, taken from the scientific notation that reads back as it, are in normal
form, and their point stays close to them.  On rows in normal form rounding is correct, a half going
away from nought, shifting multiplies by a power of ten, and a row without digits is nought; all
that stays in normal form.  Every such row is the digits of a decimal, and decimals are calculated
with in just this way.
-/
theorem exact_digitwise :
    (∀ m : Magnitude,
      Binary64.read? m.shortest.scientific = some (.finite false m) ∧
        (ofScientific m.shortest.scientific).Normalized ∧
        |(ofScientific m.shortest.scientific).point| ≤ 400 ∧
        ofScientific m.shortest.scientific = m.shortest.digitString) ∧
    ∀ row : DigitString, row.Normalized →
      row.Exact ∧ ∃ d : Decimal, d.digitString = row ∧ d.Digitwise := by
  constructor
  · intro m
    have spelled := m.shortest.scientific_spelling
    have same := ofScientific_scientific m.shortest
    rw [Binary64.ofDecimal, Magnitude.ofDecimal?_shortest] at spelled
    refine ⟨Binary64.read?_eq_some_iff.mpr spelled, normalized_ofScientific _, ?_, same⟩
    rw [same]
    exact m.abs_point_shortest
  · intro row normalized
    rcases Decimal.exists_digitString normalized with ⟨d, same⟩
    exact ⟨normalized.exact, d, same, d.digitwise⟩

/-- A carry: with one digit behind the point 99.95 is 100. -/
theorem exact_digitwise_carry :
    (⟨[9, 9, 9, 5], 2⟩ : DigitString).Normalized ∧
      (⟨[9, 9, 9, 5], 2⟩ : DigitString).roundFraction 1 = ⟨[1], 3⟩ ∧
      RoundsHalfAway (1 / 10) (9995 / 100) 100 ∧
      ∃ d : Decimal, d.digitString = ⟨[9, 9, 9, 5], 2⟩ ∧
        (d.roundFraction 1).digitString = ⟨[1], 3⟩ := by
  have normalized : (⟨[9, 9, 9, 5], 2⟩ : DigitString).Normalized := by decide
  have cut : (⟨[9, 9, 9, 5], 2⟩ : DigitString).roundFraction 1 = ⟨[1], 3⟩ := by decide
  rcases exact_digitwise.2 _ normalized with ⟨exact, d, same, digitwise⟩
  have rounded := (exact.fraction 1).2
  have fraction := digitwise.roundFraction 1
  rw [cut] at rounded
  rw [same, cut] at fraction
  refine ⟨normalized, cut, ?_, d, same, fraction⟩
  have unit : (10 : ℚ) ^ (-((1 : Nat) : Int)) = 1 / 10 := by norm_num
  have before : (⟨[9, 9, 9, 5], 2⟩ : DigitString).value = 9995 / 100 := by
    norm_num [value, DigitString.fraction]
  have after : (⟨[1], 3⟩ : DigitString).value = 100 := by
    norm_num [value, DigitString.fraction]
  rwa [unit, before, after] at rounded

end DigitString
end NumberFormat
