import Mathlib.Tactic.Linarith
import NumberFormat.Proofs.Binary64.Spelling
import NumberFormat.Proofs.Decimal.Value

namespace NumberFormat
namespace Decimal

open Binary64 (Digits)
open Text (stopsBefore_cons stopsBefore_nil takeWhile_run dropWhile_run)

/-!
Decimals written as digits and read again.

Zeros in front of the whole part and behind the fraction do not change what is read, and neither do
separators between groups of three digits once they have been taken away.
-/

/-! ## Reading -/

/-- A text of digits with a point before its fraction, if it has one, read as a number. -/
def readPlain? (point : Char) (text : List Char) : Option ℚ :=
  let whole := text.takeWhile (· != point)
  let fraction := (text.dropWhile (· != point)).drop 1
  if whole ≠ [] ∧ (whole ++ fraction).all Char.isDigit then
    some ((Nat.ofDigitChars 10 (whole ++ fraction) 0 : ℚ) / 10 ^ fraction.length)
  else none

/-- The fraction behind the point, and nothing where there is none. -/
def pointed (point : Char) (fraction : List Char) : List Char :=
  if fraction = [] then [] else point :: fraction

theorem readPlain?_pointed {point : Char} {whole fraction : List Char}
    (foreign : point.isDigit = false) (wholeDigits : Digits whole) (nonempty : whole ≠ [])
    (fractionDigits : Digits fraction) :
    readPlain? point (whole ++ pointed point fraction) =
      some ((Nat.ofDigitChars 10 (whole ++ fraction) 0 : ℚ) / 10 ^ fraction.length) := by
  have unpointed : ∀ c ∈ whole, (c != point) = true := by
    intro c member
    rw [bne_iff_ne]
    rintro rfl
    rw [wholeDigits c member] at foreign
    cases foreign
  have stop : Text.StopsBefore (· != point) (pointed point fraction) := by
    unfold pointed
    split
    · exact stopsBefore_nil
    · exact stopsBefore_cons (bne_self_eq_false' point)
  have behind : (pointed point fraction).drop 1 = fraction := by
    unfold pointed
    split
    · rename_i none
      rw [none]
      rfl
    · rfl
  have all : (whole ++ fraction).all Char.isDigit = true := by
    rw [List.all_eq_true]
    intro c member
    rcases List.mem_append.mp member with front | back
    · exact wholeDigits c front
    · exact fractionDigits c back
  unfold readPlain?
  dsimp only
  rw [takeWhile_run unpointed stop, dropWhile_run unpointed stop, behind,
    if_pos ⟨nonempty, all⟩]

/-! ## Digits of the whole part -/

theorem wholeDigits_eq (d : Decimal) (minimum : Nat) :
    d.wholeDigits minimum =
      List.replicate (minimum - (Nat.toDigits 10 d.wholePart).length) '0' ++
        Nat.toDigits 10 d.wholePart :=
  rfl

theorem digits_replicate_zero (count : Nat) : Digits (List.replicate count '0') := by
  intro c member
  rw [List.eq_of_mem_replicate member]
  rfl

theorem digits_toDigits (n : Nat) : Digits (Nat.toDigits 10 n) :=
  fun _ member => Nat.isDigit_of_mem_toDigits (by decide) (by decide) member

theorem digits_append {first second : List Char} (left : Digits first) (right : Digits second) :
    Digits (first ++ second) := by
  intro c member
  rcases List.mem_append.mp member with front | back
  · exact left c front
  · exact right c back

theorem digits_wholeDigits (d : Decimal) (minimum : Nat) : Digits (d.wholeDigits minimum) := by
  rw [wholeDigits_eq]
  exact digits_append (digits_replicate_zero _) (digits_toDigits _)

theorem length_wholeDigits (d : Decimal) (minimum : Nat) :
    (d.wholeDigits minimum).length = max minimum (Nat.toDigits 10 d.wholePart).length := by
  rw [wholeDigits_eq, List.length_append, List.length_replicate]
  omega

theorem wholeDigits_ne_nil (d : Decimal) (minimum : Nat) : d.wholeDigits minimum ≠ [] := by
  rw [wholeDigits_eq]
  exact List.append_ne_nil_of_right_ne_nil _ Nat.toDigits_ne_nil

/-- More digits than were asked for, and more than one, do not open with a zero. -/
theorem head_wholeDigits {d : Decimal} {minimum : Nat}
    (long : max 1 minimum < (d.wholeDigits minimum).length) :
    (d.wholeDigits minimum).head? ≠ some '0' := by
  have several := long
  rw [length_wholeDigits] at several
  have unpadded : minimum - (Nat.toDigits 10 d.wholePart).length = 0 := by omega
  have positive : d.wholePart ≠ 0 := by
    intro zero
    rw [zero] at several
    simp only [Nat.toDigits_zero, List.length_singleton] at several
    omega
  rcases exists_toDigits_eq_cons positive with ⟨digit, digits, same, nonzero⟩
  rw [wholeDigits_eq, unpadded, same]
  simpa using nonzero

/-! ## Digits of the fraction -/

theorem fractionDigits_eq (d : Decimal) (minimum : Nat) :
    d.fractionDigits minimum =
      d.fractionDigits 0 ++ List.replicate (minimum - (d.fractionDigits 0).length) '0' := by
  unfold fractionDigits
  simp [List.rightpad]

theorem length_fractionDigits_zero (d : Decimal) : (d.fractionDigits 0).length = d.places := by
  by_cases fraction : d.places = 0
  · simp [fractionDigits, fraction, List.rightpad]
  · exact length_fractionDigits fraction

theorem digits_fractionDigits (d : Decimal) (minimum : Nat) :
    Digits (d.fractionDigits minimum) := by
  rw [fractionDigits_eq]
  apply digits_append
  · by_cases fraction : d.places = 0
    · have none := length_fractionDigits_zero d
      rw [fraction, List.length_eq_zero_iff] at none
      intro c member
      rw [none] at member
      cases member
    · exact fun _ => isDigit_of_mem_fractionDigits fraction
  · exact digits_replicate_zero _

/-- There are as many fraction digits as the decimal needs, or as were asked for. -/
theorem length_fractionDigits_max (d : Decimal) (minimum : Nat) :
    (d.fractionDigits minimum).length = max minimum d.places := by
  rw [fractionDigits_eq, List.length_append, List.length_replicate, length_fractionDigits_zero]
  omega

/-! ## The number that the digits make -/

theorem ofDigitChars_padded (count : Nat) (digits : List Char) :
    Nat.ofDigitChars 10 (List.replicate count '0' ++ digits) 0 = Nat.ofDigitChars 10 digits 0 := by
  rw [Nat.ofDigitChars_append, Nat.ofDigitChars_replicate_zero, Nat.mul_zero]

/-- The whole part and the fraction together are all digits of the decimal. -/
theorem whole_add_fraction (d : Decimal) :
    d.wholePart * 10 ^ d.places + d.fractionPart = d.coefficient * 10 ^ d.exponent.toNat := by
  unfold wholePart fractionPart
  simp only [Nat.pow_eq]
  rcases Int.le_total 0 d.exponent with whole | fraction
  · have none : d.places = 0 := by
      unfold places
      omega
    rw [none]
    simp [Nat.mod_one]
  · have noShift : d.exponent.toNat = 0 := by omega
    rw [noShift, Nat.pow_zero, Nat.mul_one]
    exact Nat.div_add_mod' _ _

/-- Digits of a fraction, none of which may be left out, make the fraction. -/
theorem ofDigitChars_fractionDigits_zero (d : Decimal) :
    Nat.ofDigitChars 10 (d.fractionDigits 0) 0 = d.fractionPart := by
  by_cases fraction : d.places = 0
  · have none := length_fractionDigits_zero d
    rw [fraction, List.length_eq_zero_iff] at none
    rw [none, fractionPart, fraction]
    exact (Nat.mod_one _).symm
  · exact ofDigitChars_fractionDigits fraction

/-- The digits of a decimal, with as many zeros around them as may be, make the decimal. -/
theorem ofDigitChars_rendered (d : Decimal) (minimumWhole minimumFraction : Nat) :
    (Nat.ofDigitChars 10 (d.wholeDigits minimumWhole ++ d.fractionDigits minimumFraction) 0 : ℚ) /
      10 ^ (d.fractionDigits minimumFraction).length = d.toRat := by
  have digits : Nat.ofDigitChars 10
      (d.wholeDigits minimumWhole ++ d.fractionDigits minimumFraction) 0 =
        d.coefficient * 10 ^ d.exponent.toNat * 10 ^ (minimumFraction - d.places) := by
    rw [wholeDigits_eq, fractionDigits_eq, List.append_assoc, ofDigitChars_padded,
      ← List.append_assoc, Nat.ofDigitChars_append, Nat.ofDigitChars_replicate_zero,
      Nat.ofDigitChars_append, Nat.ofDigitChars_ten_toDigits,
      Nat.ofDigitChars_eq_ofDigitChars_zero, ofDigitChars_fractionDigits_zero,
      length_fractionDigits_zero, ← whole_add_fraction]
    ring
  have length : (d.fractionDigits minimumFraction).length =
      d.places + (minimumFraction - d.places) := by
    rw [length_fractionDigits_max]
    omega
  have ten : (10 : ℚ) ≠ 0 := by norm_num
  rw [digits, length, toRat_eq_div, pow_add, Nat.cast_mul, Nat.cast_pow, Nat.cast_ofNat]
  exact mul_div_mul_right _ _ (pow_ne_zero _ ten)

/-! ## Groups of three -/

/-- Digits with a separator between a group of one to three of them and groups of three each. -/
def InThrees (separator : Char) (digits text : List Char) : Prop :=
  ∃ first others, digits = (first :: others).flatten ∧
    text = [separator].intercalate (first :: others) ∧
    1 ≤ first.length ∧ first.length ≤ 3 ∧ ∀ group ∈ others, group.length = 3

theorem length_flatten_threes {groups : List (List Char)}
    (threes : ∀ group ∈ groups, group.length = 3) : groups.flatten.length % 3 = 0 := by
  induction groups with
  | nil => rfl
  | cons group others ih =>
      have first := threes group List.mem_cons_self
      have rest := ih (fun other member => threes other (List.mem_cons_of_mem _ member))
      rw [List.flatten_cons, List.length_append, first]
      omega

theorem grouped_inThrees (separator : Char) {digits : List Char} (nonempty : digits ≠ []) :
    InThrees separator digits (grouped separator digits) := by
  induction digits with
  | nil => exact absurd rfl nonempty
  | cons digit rest ih =>
      by_cases last : rest = []
      · subst last
        exact ⟨[digit], [], rfl, rfl, by simp, by simp, by simp⟩
      · rcases ih last with ⟨first, others, split, written, some, short, threes⟩
        have count : rest.length % 3 = first.length % 3 := by
          have multiple := length_flatten_threes threes
          rw [split, List.flatten_cons, List.length_append]
          omega
        by_cases full : rest.length % 3 = 0
        · -- A full group follows, so the digit opens a group of its own.
          have whole : first.length = 3 := by omega
          refine ⟨[digit], first :: others, ?_, ?_, by simp, by simp, ?_⟩
          · rw [split]
            rfl
          · rw [grouped, if_pos ⟨full, last⟩, written, List.intercalate_cons_cons]
            rfl
          · intro group member
            rcases List.mem_cons.mp member with rfl | later
            · exact whole
            · exact threes group later
        · refine ⟨digit :: first, others, ?_, ?_, by simp, ?_, threes⟩
          · rw [split]
            rfl
          · rw [grouped, if_neg (fun both => full both.1), written]
            cases others with
            | nil => simp only [List.intercalate_singleton]
            | cons next more => simp only [List.intercalate_cons_cons, List.cons_append]
          · rw [List.length_cons]
            omega

end Decimal
end NumberFormat
