import NumberFormat.Proofs.Binary64.ReadBack
import NumberFormat.Proofs.Binary64.Spelling

namespace NumberFormat
namespace Binary64

open Text

/-!
The written form of a number is a spelling of it, so it reads back as the number itself.
-/

/-- The digits of a plain decimal are a mantissa, and they make the decimal again. -/
theorem plain_spelling (d : Decimal) :
    ∃ whole fraction, MantissaSpelling whole fraction d.plain ∧ decimalOf whole fraction 0 = d := by
  have wholeDigits : Digits (d.wholeDigits 1) := fun _ => Decimal.isDigit_of_mem_wholeDigits
  have nonempty : d.wholeDigits 1 ≠ [] := by
    rw [Decimal.wholeDigits_one]
    exact Nat.toDigits_ne_nil
  by_cases whole : d.places = 0
  · refine ⟨d.wholeDigits 1, [], ?_, decimalOf_plain_whole whole⟩
    rw [Decimal.plain, if_pos whole, List.append_nil]
    exact .whole wholeDigits nonempty
  · refine ⟨d.wholeDigits 1, d.fractionDigits 0, ?_, decimalOf_plain_fraction whole⟩
    rw [Decimal.plain, if_neg whole]
    have fractionDigits : Digits (d.fractionDigits 0) :=
      fun _ => Decimal.isDigit_of_mem_fractionDigits whole
    exact .pointed wholeDigits fractionDigits (List.append_ne_nil_of_left_ne_nil nonempty _)

theorem signSpelling_minus (negative : Bool) :
    SignSpelling negative (if negative then ['-'] else []) := by
  cases negative with
  | true => exact .minus
  | false => exact .absent

theorem written_spelling (x : Binary64) : Spelling x x.written := by
  cases x with
  | nan => exact .nan (by decide)
  | infinite negative => exact .infinite (signSpelling_minus negative) (Or.inl (by decide))
  | finite negative m =>
      rcases plain_spelling m.shortest with ⟨whole, fraction, mantissa, same⟩
      have spelled := Spelling.decimal (signSpelling_minus negative) mantissa .absent
      rw [same, List.append_nil, ofDecimal, Magnitude.ofDecimal?_shortest] at spelled
      exact spelled

/-- A text is read as a number exactly when it is a spelling of the number. -/
theorem read?_eq_some_iff {text : List Char} {x : Binary64} :
    read? text = some x ↔ Spelling x text := by
  constructor
  · intro found
    rw [read?] at found
    cases taken : take? text with
    | none =>
        rw [taken] at found
        cases found
    | some pair =>
        rcases pair with ⟨y, rest⟩
        rw [taken] at found
        cases rest with
        | cons => cases found
        | nil =>
            cases found
            rcases take?_eq_some taken with ⟨read, split, spelled⟩
            rw [List.append_nil] at split
            rwa [split]
  · intro spelled
    have taken := take?_append spelled stopsBefore_nil
    rw [List.append_nil] at taken
    rw [read?, taken]

theorem read?_written (x : Binary64) : read? x.written = some x :=
  read?_eq_some_iff.mpr (written_spelling x)

end Binary64
end NumberFormat
