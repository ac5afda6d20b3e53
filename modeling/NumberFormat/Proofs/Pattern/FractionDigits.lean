import NumberFormat.Proofs.Binary64.Shortest
import NumberFormat.Proofs.Format.FractionDigits
import NumberFormat.Proofs.Pattern.Quotation
import NumberFormat.Proofs.Pattern.Reserialization

namespace NumberFormat
namespace Pattern

open Binary64 (Digits)

/-!
The fraction digits that a pattern asks for.

A pattern without required digits other than zeros bounds the fraction digits by its own.  One with
others makes an increment of them, and as many fraction digits are shown as the increment needs.
That is no more than the pattern requires, and fewer where the increment ends in a zero.
-/

/-! ## Digits of a pattern -/

/-- The characters that the digits of a pattern are written with. -/
def isDigitMark (c : Char) : Bool :=
  c == '#' || c == ',' || c.isDigit

theorem isNumeral_of_isDigitMark {c : Char} (mark : isDigitMark c = true) : isNumeral c = true := by
  simp only [isDigitMark, isNumeral, Bool.or_eq_true] at mark ⊢
  tauto

/-- The digits that a part of a pattern requires. -/
def requiredDigits (part : List Char) : List Char :=
  part.filter Char.isDigit

theorem requiredDigits_append (first second : List Char) :
    requiredDigits (first ++ second) = requiredDigits first ++ requiredDigits second :=
  List.filter_append _ _

theorem digits_required (whole fraction : List Char) :
    Digits (requiredDigits whole ++ requiredDigits fraction) := by
  rw [← requiredDigits_append]
  exact fun c member => (List.mem_filter.mp member).2

/-- Whether a token stands for digits or separates them. -/
def Token.isDigitMark : Token → Bool
  | optional _ => true
  | required _ => true
  | group => true
  | _ => false

/-- What a token stands for is what its characters stand for. -/
theorem takeToken_digitMark {c : Char} (mark : isDigitMark c = true) (rest : List Char) :
    (takeToken c rest).1.isDigitMark = true ∧ (∀ d ∈ (takeToken c rest).2, d ∈ rest) ∧
    (takeToken c rest).1.digits ++ requiredDigits (takeToken c rest).2 =
      requiredDigits (c :: rest) ∧
    (takeToken c rest).1.hashes + (takeToken c rest).2.count '#' = (c :: rest).count '#' := by
  have behind {kind : Char → Bool} {d : Char} (member : d ∈ rest.dropWhile kind) : d ∈ rest :=
    (List.dropWhile_sublist kind).subset member
  have split (kind : Char → Bool) :
      c :: rest = c :: rest.takeWhile kind ++ rest.dropWhile kind := by
    rw [List.cons_append, List.takeWhile_append_dropWhile]
  simp only [isDigitMark, Bool.or_eq_true, beq_iff_eq] at mark
  rcases mark with (rfl | rfl) | digit
  · have hashes : ∀ d ∈ '#' :: rest.takeWhile (· == '#'), d = '#' := by
      intro d member
      rcases List.mem_cons.mp member with rfl | inside
      · rfl
      · exact beq_iff_eq.mp (List.mem_takeWhile_imp (p := (· == '#')) inside)
    have none : requiredDigits ('#' :: rest.takeWhile (· == '#')) = [] :=
      List.filter_eq_nil_iff.mpr fun d member => by rw [hashes d member]; decide
    have all : ('#' :: rest.takeWhile (· == '#')).count '#' =
        (rest.takeWhile (· == '#')).length + 1 :=
      List.count_eq_length.mpr fun d member => (hashes d member).symm
    refine ⟨rfl, fun _ => behind, ?_, ?_⟩
    · rw [split (· == '#'), requiredDigits_append, none]
      rfl
    · rw [split (· == '#'), List.count_append, all]
      rfl
  · refine ⟨rfl, fun _ member => member, rfl, ?_⟩
    rw [List.count_cons_of_ne (by decide)]
    exact Nat.zero_add _
  · have token : takeToken c rest =
        (.required (c :: rest.takeWhile Char.isDigit), rest.dropWhile Char.isDigit) := by
      unfold takeToken
      split
      all_goals try cases digit
      rw [if_pos digit]
    have digits : Digits (c :: rest.takeWhile Char.isDigit) := by
      intro d member
      rcases List.mem_cons.mp member with rfl | inside
      · exact digit
      · exact List.mem_takeWhile_imp inside
    have none : (c :: rest.takeWhile Char.isDigit).count '#' = 0 :=
      List.count_eq_zero.mpr fun member => nomatch digits _ member
    rw [token]
    refine ⟨rfl, fun _ => behind, ?_, ?_⟩
    · have all : requiredDigits (c :: rest.takeWhile Char.isDigit) =
          c :: rest.takeWhile Char.isDigit := List.filter_eq_self.mpr digits
      rw [split Char.isDigit, requiredDigits_append, all]
      rfl
    · rw [split Char.isDigit, List.count_append, none]
      rfl

theorem tokens_digitMarks {text : List Char} (marks : ∀ c ∈ text, isDigitMark c = true) :
    (∀ token ∈ tokens text, token.isDigitMark = true) ∧
    (tokens text).flatMap Token.digits = requiredDigits text ∧
    openDigits (tokens text) = text.count '#' := by
  induction text using tokens_induction with
  | nil => exact ⟨nofun, rfl, rfl⟩
  | cons c rest ih =>
      obtain ⟨first, inside, digits, hashes⟩ :=
        takeToken_digitMark (marks c List.mem_cons_self) rest
      obtain ⟨others, otherDigits, otherHashes⟩ :=
        ih (fun d member => marks d (List.mem_cons_of_mem _ (inside d member)))
      rw [tokens_cons, List.flatMap_cons, openDigits, otherDigits, otherHashes]
      exact ⟨List.forall_mem_cons.mpr ⟨first, others⟩, digits, hashes⟩

/-! ## Numbers with a point -/

section

variable {whole fraction : List Char} (marks : ∀ c ∈ whole ++ fraction, isDigitMark c = true)

include marks

theorem tokens_pointed :
    tokens (whole ++ '.' :: fraction) = tokens whole ++ .point :: tokens fraction := by
  have own := (tokens_digitMarks (List.forall_mem_append.mp marks).1).1
  have placeholders : ∀ token ∈ tokens whole, token.isPlaceholder = true := by
    intro token member
    have mark := own token member
    cases token <;> first | rfl | cases mark
  rw [tokens_append placeholders (Text.stopsBefore_cons rfl), tokens_cons]
  rfl

/-- What is taken in with a number that has a point and no exponent. -/
theorem summary_pointed :
    (summary (tokens (whole ++ '.' :: fraction))).wholeDigits = requiredDigits whole ∧
    (summary (tokens (whole ++ '.' :: fraction))).fractionDigits = requiredDigits fraction ∧
    (summary (tokens (whole ++ '.' :: fraction))).fractionOptional = fraction.count '#' ∧
    (summary (tokens (whole ++ '.' :: fraction))).significant = none ∧
    (summary (tokens (whole ++ '.' :: fraction))).exponent = none := by
  obtain ⟨own, digits, _⟩ := tokens_digitMarks (List.forall_mem_append.mp marks).1
  obtain ⟨others, otherDigits, hashes⟩ := tokens_digitMarks (List.forall_mem_append.mp marks).2
  have pointless : .point ∉ tokens whole := fun member => nomatch own _ member
  have before : beforePoint (tokens whole ++ .point :: tokens fraction) = tokens whole :=
    takeWhile_mark pointless _
  have behind : behindPoint (tokens whole ++ .point :: tokens fraction) = tokens fraction := by
    rw [behindPoint, dropWhile_mark pointless, List.tail_cons]
  have all : ∀ token ∈ tokens whole ++ .point :: tokens fraction,
      token.significant? = none ∧ token.exponent? = none := by
    intro token member
    have mark : token.isDigitMark = true ∨ token = .point := by
      rcases List.mem_append.mp member with front | back
      · exact Or.inl (own token front)
      · rcases List.mem_cons.mp back with point | later
        · exact Or.inr point
        · exact Or.inl (others token later)
    rcases mark with mark | rfl
    · cases token <;> first | exact ⟨rfl, rfl⟩ | cases mark
    · exact ⟨rfl, rfl⟩
  rw [tokens_pointed marks, summary]
  dsimp only
  rw [before, behind]
  refine ⟨digits, otherDigits, hashes, ?_, ?_⟩
  · rw [List.head?_eq_none_iff]
    exact List.filterMap_eq_nil_iff.mpr fun token member => (all token member).1
  · rw [List.head?_eq_none_iff]
    exact List.filterMap_eq_nil_iff.mpr fun token member => (all token member).2

end

/-! ## What the digits ask for -/

/-- The number that required digits read as, to the multiples of which a value is to be rounded. -/
def increment (whole fraction : List Char) : Binary64 :=
  .ofDecimal false (Binary64.decimalOf (requiredDigits whole) (requiredDigits fraction) 0)

/-- The bounds that a precision sets on the fraction digits of a plan. -/
inductive BoundsFraction : Precision → Nat → Nat → Prop where
  | digits (least most : Nat) :
      BoundsFraction (.digits { minFraction := some least, maxFraction := some most }) least most
  | increment (step : Binary64) :
      BoundsFraction (.increment step) step.fractionPlaces step.fractionPlaces

theorem asksForFraction_optionsOf {s : Skeleton} (plain : s.Plain) (unitless : s.unit = none)
    (standard : s.form = none) {precision : Precision} (chosen : s.precision = some precision)
    {least most : Nat} (bounds : BoundsFraction precision least most) (ordered : least ≤ most)
    (limited : most ≤ 20) : Format.AsksForFraction (Plan.optionsOf s) least most := by
  cases bounds <;>
    refine ⟨⟨?_, ?_, rfl, ?_, ?_⟩, ?_, ?_, ?_, ordered, limited⟩ <;>
    simp [Plan.optionsOf, Options.ofSkeleton, Options.digitBoundsOf, chosen, unitless, standard,
      plain.sign]

/-- Skeletons of plain numbers show what the bounds on their fraction digits allow. -/
theorem behindPoint_formatted {s : Skeleton} (plain : s.Plain) (unitless : s.unit = none)
    {least most : Nat} (asks : Format.AsksForFraction (Plan.optionsOf s) least most)
    {own : List (String × Locale)} {tag : String}
    (pointed : ∀ locale ∈ own.lookup tag, Format.Pointed Tables.builtIn locale)
    {value : Binary64} (finite : value.isFinite = true) :
    Format.DigitsWithin Tables.builtIn least most
      (Format.behindPoint ((own.lookup tag).getD (Tables.builtIn.localeOrEnglish tag))
        (s.formatted own tag value).toList) := by
  have pointed : Format.Pointed Tables.builtIn
      ((own.lookup tag).getD (Tables.builtIn.localeOrEnglish tag)) := by
    cases given : own.lookup tag with
    | none => exact Format.pointed_builtIn tag
    | some locale => exact pointed locale given
  have steps : (Plan.ofSkeleton tag s).applySteps value = value := by
    rw [Plan.applySteps, Plan.ofSkeleton, plain.scale, unitless]
    rfl
  have text : (s.formatted own tag value).toList =
      Format.number Tables.builtIn ((own.lookup tag).getD (Tables.builtIn.localeOrEnglish tag))
        (Plan.optionsOf s) value := by
    rw [Skeleton.toList_formatted plain.affix, plain.numberingSystem, Skeleton.shown, steps]
    rfl
  rw [text]
  cases value with
  | finite negative m => exact Format.behindPoint_number asks Tables.numbered_builtIn pointed _ _
  | infinite => cases finite
  | nan => cases finite

theorem fields_settings (run : NumberRun) :
    (Skeleton.ofSettings run.settings).unit = none ∧
      (Skeleton.ofSettings run.settings).form = run.form ∧
      (Skeleton.ofSettings run.settings).precision = run.precision := by
  unfold NumberRun.settings
  cases run.grouping <;> cases run.integerWidth <;> cases run.precision <;> cases run.form <;>
    exact ⟨rfl, rfl, rfl⟩

section

variable {whole fraction : List Char} (marks : ∀ c ∈ whole ++ fraction, isDigitMark c = true)

include marks

theorem increment_pointed :
    (summary (tokens (whole ++ '.' :: fraction))).increment = increment whole fraction := by
  obtain ⟨wholeDigits, fractionDigits, _⟩ := summary_pointed marks
  rw [NumberRun.increment, wholeDigits, fractionDigits]
  rfl

omit marks in
theorem isPositive_required (few : (requiredDigits fraction).length ≤ 300) :
    (increment whole fraction).isPositive = true ↔
      ∃ c ∈ requiredDigits (whole ++ fraction), c ≠ '0' := by
  rw [requiredDigits_append]
  exact Binary64.isPositive_written few (digits_required _ _)

/-- Required digits other than zeros make an increment. -/
theorem precision_increment (few : (requiredDigits fraction).length ≤ 300)
    (other : ∃ c ∈ requiredDigits (whole ++ fraction), c ≠ '0') :
    (summary (tokens (whole ++ '.' :: fraction))).precision =
      some (.increment (increment whole fraction)) := by
  rw [NumberRun.precision, increment_pointed marks, if_pos ((isPositive_required few).mpr other)]

/-- Required zeros and optional digits bound the fraction digits. -/
theorem precision_zeros (few : (requiredDigits fraction).length ≤ 300)
    (zeros : ∀ c ∈ requiredDigits (whole ++ fraction), c = '0')
    (bounded : 1 ≤ (requiredDigits fraction).length + fraction.count '#') :
    (summary (tokens (whole ++ '.' :: fraction))).precision =
      some (.digits
        { minFraction := some (requiredDigits fraction).length
          maxFraction := some ((requiredDigits fraction).length + fraction.count '#') }) := by
  obtain ⟨_, fractionDigits, hashes, significant, exponent⟩ := summary_pointed marks
  have nought : ¬(increment whole fraction).isPositive = true := by
    rw [isPositive_required few]
    rintro ⟨c, member, other⟩
    exact other (zeros c member)
  have some : ¬((requiredDigits fraction).length = 0 ∧ fraction.count '#' = 0) := by omega
  have bounds : (summary (tokens (whole ++ '.' :: fraction))).fractionBounds =
      { minFraction := .some (requiredDigits fraction).length
        maxFraction := .some ((requiredDigits fraction).length + fraction.count '#') } := by
    rw [NumberRun.fractionBounds, fractionDigits, hashes]
    exact if_neg some
  rw [NumberRun.precision, increment_pointed marks, if_neg nought, significant, exponent]
  dsimp only
  rw [bounds]
  rfl

/-- A pattern of digits around a point chooses what its digits choose, and nothing else. -/
theorem eq_ofSettings_pointed {currency : Option String} {s : Skeleton}
    (translated : read currency (whole ++ '.' :: fraction) = .ok s) :
    s = Skeleton.ofSettings (summary (tokens (whole ++ '.' :: fraction))).settings := by
  have numerals : ∀ token ∈ tokens (whole ++ '.' :: fraction), token.isNumeral = true := by
    refine numeral_of_mem_tokens fun c member => ?_
    rcases List.mem_append.mp member with before | point
    · exact isNumeral_of_isDigitMark (marks c (List.mem_append_left _ before))
    · rcases List.mem_cons.mp point with rfl | behind
      · rfl
      · exact isNumeral_of_isDigitMark (marks c (List.mem_append_right _ behind))
  have nonempty : whole ++ '.' :: fraction ≠ [] :=
    List.append_ne_nil_of_right_ne_nil _ (List.cons_ne_nil _ _)
  obtain ⟨settings, run, unitsRead, runRead, rfl⟩ := exists_settings_of_read nonempty
    (fun token member => Token.isPlaceholder_of_isNumeral (numerals token member)) translated
  cases unitsRead.symm.trans (units_numerals currency numerals)
  rw [run_eq_summary (fun token member => genuine_of_mem_tokens member) runRead, List.nil_append]

/-- A pattern of digits around a point shows what the bounds of its precision allow. -/
theorem digitsWithin_pointed {currency : Option String} {s : Skeleton}
    (translated : read currency (whole ++ '.' :: fraction) = .ok s) {precision : Precision}
    (chosen : (summary (tokens (whole ++ '.' :: fraction))).precision = some precision)
    {least most : Nat} (bounds : BoundsFraction precision least most) (ordered : least ≤ most)
    (limited : most ≤ 20) {own : List (String × Locale)} {tag : String}
    (pointed : ∀ locale ∈ own.lookup tag, Format.Pointed Tables.builtIn locale)
    {value : Binary64} (finite : value.isFinite = true) :
    Format.DigitsWithin Tables.builtIn least most
      (Format.behindPoint ((own.lookup tag).getD (Tables.builtIn.localeOrEnglish tag))
        (s.formatted own tag value).toList) := by
  obtain rfl := eq_ofSettings_pointed marks translated
  obtain ⟨_, _, _, _, noExponent⟩ := summary_pointed marks
  obtain ⟨unitless, form, precision⟩ :=
    fields_settings (summary (tokens (whole ++ '.' :: fraction)))
  rw [NumberRun.form, noExponent] at form
  have plain : (Skeleton.ofSettings (summary (tokens (whole ++ '.' :: fraction))).settings).Plain :=
    plain_ofSettings (show units currency [] = .ok [] from rfl) _
  have asks := asksForFraction_optionsOf plain unitless form (precision.trans chosen) bounds
    ordered limited
  exact behindPoint_formatted plain unitless asks pointed finite

end

/-! ## What is shown of them -/

/--
What is shown behind the decimal point for a pattern with these digits around its own.  An increment
that ends in a zero has fewer decimals than the pattern requires, and so may one of so many digits
that a shorter number lies next to it.
-/
structure ShowsFraction (whole fraction : List Char) (shown : List Char) : Prop where
  digits : ∀ c ∈ shown, ∃ system, Tables.builtIn.IsDigitOf system c
  most : shown.length ≤ (requiredDigits fraction).length + fraction.count '#'
  least : (∀ c ∈ requiredDigits (whole ++ fraction), c = '0') →
    (requiredDigits fraction).length ≤ shown.length
  step : (∃ c ∈ requiredDigits (whole ++ fraction), c ≠ '0') →
    shown.length = (increment whole fraction).fractionPlaces ∧
      shown.length ≤ (requiredDigits fraction).length
  exact : (∃ c ∈ requiredDigits (whole ++ fraction), c ≠ '0') →
    (requiredDigits fraction).getLast? ≠ some '0' →
    ((requiredDigits (whole ++ fraction)).dropWhile (· == '0')).length ≤ 15 →
    shown.length = (requiredDigits fraction).length

/--
The digits behind the point of a pattern bound the fraction digits of every number.  They are never
more than the pattern has, and they are no fewer than it requires if it requires zeros only.
-/
theorem showsFraction_formatted {currency : Option String} {whole fraction : List Char}
    {s : Skeleton} (marks : ∀ c ∈ whole ++ fraction, isDigitMark c = true)
    (translated : read currency (whole ++ '.' :: fraction) = .ok s)
    (bounded : 1 ≤ (requiredDigits fraction).length + fraction.count '#')
    (limited : (requiredDigits fraction).length + fraction.count '#' ≤ 20)
    {own : List (String × Locale)} {tag : String}
    (pointed : ∀ locale ∈ own.lookup tag, Format.Pointed Tables.builtIn locale)
    {value : Binary64} (finite : value.isFinite = true) :
    ShowsFraction whole fraction
      (Format.behindPoint ((own.lookup tag).getD (Tables.builtIn.localeOrEnglish tag))
        (s.formatted own tag value).toList) := by
  have few : (requiredDigits fraction).length ≤ 300 := by omega
  have places : (increment whole fraction).fractionPlaces ≤ (requiredDigits fraction).length :=
    Binary64.fractionPlaces_written_le few
  by_cases zeros : ∀ c ∈ requiredDigits (whole ++ fraction), c = '0'
  · obtain ⟨digits, least, most⟩ := digitsWithin_pointed marks translated
      (precision_zeros marks few zeros bounded) (.digits _ _) (Nat.le_add_right _ _) limited
      pointed finite
    have none : ¬∃ c ∈ requiredDigits (whole ++ fraction), c ≠ '0' := by
      rintro ⟨c, member, other⟩
      exact other (zeros c member)
    exact ⟨digits, most, fun _ => least, fun other => absurd other none,
      fun other => absurd other none⟩
  · have other : ∃ c ∈ requiredDigits (whole ++ fraction), c ≠ '0' := by
      push Not at zeros
      exact zeros
    obtain ⟨digits, least, most⟩ := digitsWithin_pointed marks translated
      (precision_increment marks few other) (.increment _) (Nat.le_refl _) (by omega)
      pointed finite
    have same := Nat.le_antisymm most least
    refine ⟨digits, by omega, fun all => absurd all zeros, fun _ => ⟨same, by omega⟩, ?_⟩
    intro _ ends short
    rw [requiredDigits_append] at short
    exact same.trans (Binary64.fractionPlaces_written_eq few (digits_required _ _) ends short)

/-- English with the Swiss separator and Thai digits. -/
def thaiSwiss : Locale :=
  (Tables.builtIn.localeOrEnglish "en").change
    { groupSeparator := some '’', numberingSystem := some "thai" }

/-- Two fraction digits are required, and an increment with a digit at their end shows both. -/
theorem showsFraction_formatted_thaiSwiss :
    (∀ c ∈ "#,##0".toList ++ "05##".toList, isDigitMark c = true) ∧
      (∀ locale ∈ [("de-CH", thaiSwiss)].lookup "de-CH",
        Format.Pointed Tables.builtIn locale) ∧
      (Binary64.ofDecimal true (.scaled 12345678 (-4))).isFinite = true ∧
      ∃ s, read none "#,##0.05##".toList = .ok s ∧
        s.formatted [("de-CH", thaiSwiss)] "de-CH" (.ofDecimal true (.scaled 12345678 (-4))) =
          "-๑’๒๓๔.๕๗" ∧
        ShowsFraction "#,##0".toList "05##".toList
          (Format.behindPoint thaiSwiss "-๑’๒๓๔.๕๗".toList) := by
  have marks : ∀ c ∈ "#,##0".toList ++ "05##".toList, isDigitMark c = true :=
    List.all_eq_true.mp (by decide)
  have pointed : ∀ locale ∈ [("de-CH", thaiSwiss)].lookup "de-CH",
      Format.Pointed Tables.builtIn locale := by
    rintro locale ⟨⟩
    exact Format.pointedCheck_sound (by decide +kernel)
  have finite : (Binary64.ofDecimal true (.scaled 12345678 (-4))).isFinite = true := by
    decide +kernel
  obtain ⟨s, translated, text⟩ : ∃ s, read none "#,##0.05##".toList = .ok s ∧
      s.formatted [("de-CH", thaiSwiss)] "de-CH" (.ofDecimal true (.scaled 12345678 (-4))) =
        "-๑’๒๓๔.๕๗" :=
    exists_ok_of_map (by decide +kernel)
  have shown := showsFraction_formatted marks translated (by decide) (by decide) pointed finite
  rw [text] at shown
  exact ⟨marks, pointed, finite, s, translated, text, shown⟩

/-- Two fraction digits are required, and the increment of a half shows one. -/
theorem half_shows_one_digit :
    (∀ c ∈ "0".toList ++ "50".toList, isDigitMark c = true) ∧
      (requiredDigits "50".toList).length = 2 ∧
      ∃ s, read none "0.50".toList = .ok s ∧
        s.formatted [] "en" (.ofDecimal false (.scaled 1234 (-3))) = "1.2" ∧
        (Format.behindPoint (Tables.builtIn.localeOrEnglish "en") "1.2".toList).length = 1 := by
  obtain ⟨s, translated, text⟩ : ∃ s, read none "0.50".toList = .ok s ∧
      s.formatted [] "en" (.ofDecimal false (.scaled 1234 (-3))) = "1.2" :=
    exists_ok_of_map (by decide +kernel)
  exact ⟨List.all_eq_true.mp (by decide), by decide, s, translated, text, by decide +kernel⟩

end Pattern
end NumberFormat
