import NumberFormat.Proofs.Format.Standard
import NumberFormat.Proofs.Plan.Numerals

namespace NumberFormat

open Decimal (pointed)
open Plan (latin)

/-!
How many fraction digits a text shows.

Options that bound the fraction digits from both sides get a number of them within these bounds.  In
the text they are all that stands behind the decimal point, which the locale uses for nothing else.
-/

namespace Decimal

/-- Rounding to a number of fraction digits leaves no more than those. -/
theorem places_roundFraction_le (d : Decimal) (maximum : Nat) :
    (d.roundFraction maximum).places ≤ maximum := by
  unfold roundFraction roundAt
  split
  · unfold places
    omega
  · exact places_scaled_le _ _

end Decimal

namespace Format

/-- What stands behind the first decimal point of a text. -/
def behindPoint (locale : Locale) (text : List Char) : List Char :=
  (text.dropWhile (· != locale.decimalPoint)).tail

/-- A locale whose decimal point is neither a digit nor another symbol of a number. -/
structure Pointed (tables : Tables) (locale : Locale) : Prop where
  point : ∀ system, ¬tables.IsDigitOf system locale.decimalPoint
  separator : locale.decimalPoint ≠ locale.groupSeparator
  minus : locale.decimalPoint ∉ locale.minusSign.toList

/-- What it means that a text has digits only, of whatever numbering system, and how many. -/
structure DigitsWithin (tables : Tables) (least most : Nat) (text : List Char) : Prop where
  digits : ∀ c ∈ text, ∃ system, tables.IsDigitOf system c
  least : least ≤ text.length
  most : text.length ≤ most

variable {tables : Tables} {locale : Locale}

/-! ## Text in the digits of a locale -/

theorem localize_append (first second : List Char) :
    localize tables locale (first ++ second) =
      localize tables locale first ++ localize tables locale second := by
  unfold localize
  split
  · exact List.map_append
  · rfl

theorem length_localize (text : List Char) :
    (localize tables locale text).length = text.length := by
  unfold localize
  split
  · exact List.length_map _
  · rfl

theorem localize_singleton {c : Char} (other : c.isDigit = false) :
    localize tables locale [c] = [c] := by
  unfold localize
  split
  · rw [respell, List.map_singleton, respellDigit, digitValue?, other]
    rfl
  · rfl

theorem localize_pointed {point : Char} (other : point.isDigit = false) (fraction : List Char) :
    localize tables locale (pointed point fraction) =
      pointed point (localize tables locale fraction) := by
  cases fraction with
  | nil =>
      have none : localize tables locale [] = [] :=
        List.eq_nil_of_length_eq_zero (length_localize [])
      rw [pointed, if_pos rfl, none]
      rfl
  | cons digit rest =>
      have split : localize tables locale ([point] ++ digit :: rest) =
          localize tables locale [point] ++ localize tables locale (digit :: rest) :=
        localize_append _ _
      have some : (localize tables locale (digit :: rest)) ≠ [] := by
        rw [← List.length_pos_iff, length_localize]
        exact Nat.succ_pos _
      rw [localize_singleton other] at split
      rw [pointed, if_neg (List.cons_ne_nil _ _), pointed, if_neg some]
      exact split

section

variable (numbered : tables.Numbered)

include numbered

theorem mem_localize {text : List Char} {c : Char} (member : c ∈ localize tables locale text) :
    (∃ system, tables.IsDigitOf system c) ∨ c ∈ text := by
  unfold localize at member
  split at member
  · rename_i zero known
    obtain ⟨system, _, known⟩ := Option.bind_eq_some_iff.mp known
    obtain ⟨before, inside, rfl⟩ := List.mem_map.mp member
    rcases Tables.respellDigit_spec numbered known before with ⟨_, digit⟩ | ⟨_, kept⟩
    · exact Or.inl ⟨system, digit⟩
    · rw [kept]
      exact Or.inr inside
  · exact Or.inr member

/-- Whatever numbering system a locale has, digits are shown as digits. -/
theorem isDigitOf_localize {digits : List Char} (all : Binary64.Digits digits) :
    ∀ c ∈ localize tables locale digits, ∃ system, tables.IsDigitOf system c := by
  intro c member
  rcases mem_localize numbered member with digit | ordinary
  · exact digit
  · exact ⟨latin, (Tables.isDigitOf_latin numbered).mpr (all c ordinary)⟩

end

/-! ## The decimal point -/

theorem behindPoint_append {front : List Char} (absent : locale.decimalPoint ∉ front)
    (fraction : List Char) :
    behindPoint locale (front ++ pointed locale.decimalPoint fraction) = fraction := by
  have before : ∀ c ∈ front, (c != locale.decimalPoint) = true := by
    intro c member
    rw [bne_iff_ne]
    rintro rfl
    exact absent member
  rw [behindPoint, List.dropWhile_append_of_pos before, pointed]
  split
  · rename_i empty
    rw [empty]
    rfl
  · rw [List.dropWhile_cons, bne_self_eq_false, if_neg Bool.false_ne_true, List.tail_cons]

/-- Options that ask for a plain number with bounds on its fraction digits. -/
structure AsksForFraction (options : Options) (least most : Nat) : Prop where
  unsigned : AsksForStandard { options with signDisplay := some .never }
  silent : options.signDisplay = none
  minimum : options.minimumFractionDigits = some (.ofNat least)
  maximum : options.maximumFractionDigits = some (.ofNat most)
  ordered : least ≤ most
  limited : most ≤ 20

section

variable {options : Options} {least most : Nat} (asks : AsksForFraction options least most)

include asks

/-- Where nothing is said about the sign, a minus stands before the digits and nothing else. -/
theorem number_silent (tables : Tables) (locale : Locale) (negative : Bool) (m : Magnitude) :
    number tables locale options (.finite negative m) =
      (if negative then locale.minusSign.toList else []) ++
        localize tables locale (digitText locale (DigitRule.ofOptions options (0, 3))
          (options.useGrouping.getD true)
          ((DigitRule.ofOptions options (0, 3)).round m.shortest)) := by
  have noMoney : (options.style == some .currency) = false := by
    rcases asks.unsigned.style with unset | decimal
    · exact beq_eq_false_iff_ne.mpr (fun same => nomatch unset.symm.trans same)
    · exact beq_eq_false_iff_ne.mpr (fun same => nomatch decimal.symm.trans same)
  have digits := (unsigned_signDisplay tables locale options (some .never) _).symm.trans
    (unsigned_standard asks.unsigned tables locale negative m)
  unfold unsigned at digits
  unfold number
  rw [noMoney, asks.silent]
  dsimp only
  rw [digits]
  cases negative <;> rfl

theorem fractionLength_of_bounds (d : Decimal) :
    least ≤ ((DigitRule.ofOptions options (0, 3)).fractionDigits
      ((DigitRule.ofOptions options (0, 3)).round d)).length ∧
    ((DigitRule.ofOptions options (0, 3)).fractionDigits
      ((DigitRule.ofOptions options (0, 3)).round d)).length ≤ most := by
  have rounding : (DigitRule.ofOptions options (0, 3)).rounding = .fraction least most := by
    have counts {n : Nat} (small : n ≤ 20) : (Options.Count.ofNat n).value = n :=
      Options.Count.value_ofNat (small.trans (by decide))
    refine (rounding_standard asks.unsigned).trans ?_
    unfold leastFraction mostFraction
    dsimp only
    rw [asks.minimum, asks.maximum, Option.map_some, Option.map_some, Option.getD_some,
      Option.getD_some, counts (asks.ordered.trans asks.limited), counts asks.limited,
      Nat.min_eq_right (asks.ordered.trans asks.limited), Nat.max_eq_right asks.ordered,
      Nat.min_eq_right asks.limited]
  rw [DigitRule.fractionDigits, DigitRule.round, rounding, Decimal.length_fractionDigits_max]
  exact ⟨Nat.le_max_left _ _, Nat.max_le.mpr ⟨asks.ordered, d.places_roundFraction_le most⟩⟩

/-- Behind the decimal point stand the fraction digits within their bounds, and nothing else. -/
theorem behindPoint_number (numbered : tables.Numbered) (pointed : Pointed tables locale)
    (negative : Bool) (m : Magnitude) :
    DigitsWithin tables least most
      (behindPoint locale (number tables locale options (.finite negative m))) := by
  obtain ⟨fewest, last⟩ := fractionLength_of_bounds asks m.shortest
  have noDigit : locale.decimalPoint.isDigit = false := by
    by_contra digit
    exact pointed.point _
      ((Tables.isDigitOf_latin numbered).mpr (Bool.eq_true_of_not_eq_false digit))
  rw [number_silent asks, digitText_eq, localize_append, localize_pointed noDigit,
    ← List.append_assoc, behindPoint_append]
  · refine ⟨isDigitOf_localize numbered (Decimal.digits_fractionDigits _ _), ?_, ?_⟩
    · rw [length_localize]
      exact fewest
    · rw [length_localize]
      exact last
  · intro member
    rcases List.mem_append.mp member with sign | whole
    · split at sign
      · exact pointed.minus sign
      · cases sign
    · rcases mem_localize numbered whole with ⟨system, digit⟩ | written
      · exact pointed.point system digit
      · have digits : Binary64.Digits ((DigitRule.ofOptions options (0, 3)).wholeDigits
            ((DigitRule.ofOptions options (0, 3)).round m.shortest)) :=
          Decimal.digits_wholeDigits _ _
        split at written
        · rcases mem_grouped written with separator | digit
          · exact pointed.separator separator
          · exact absurd (digits _ digit) (Bool.eq_false_iff.mp noDigit)
        · exact absurd (digits _ written) (Bool.eq_false_iff.mp noDigit)

end

/-! ## The locales of the library -/

/-- A check that the decimal point of a locale is no digit and no other symbol of a number. -/
def pointedCheck (locale : Locale) : Bool :=
  !Tables.isNumeral locale.decimalPoint && locale.decimalPoint != locale.groupSeparator &&
    decide (locale.decimalPoint ∉ locale.minusSign.toList)

theorem pointedCheck_sound {locale : Locale} (checked : pointedCheck locale = true) :
    Pointed Tables.builtIn locale := by
  simp only [pointedCheck, Bool.and_eq_true, Bool.not_eq_true', bne_iff_ne,
    decide_eq_true_eq] at checked
  obtain ⟨⟨noNumeral, apart⟩, noMinus⟩ := checked
  refine ⟨fun system digit => ?_, apart, noMinus⟩
  rw [Tables.isNumeral_of_isDigitOf digit] at noNumeral
  cases noNumeral

theorem pointed_builtIn (tag : String) :
    Pointed Tables.builtIn (Tables.builtIn.localeOrEnglish tag) :=
  pointedCheck_sound (Tables.checked_builtIn (by decide +kernel) tag)

end Format
end NumberFormat
