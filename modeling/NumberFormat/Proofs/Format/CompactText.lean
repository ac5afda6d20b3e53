import Mathlib.Data.List.Nodup
import NumberFormat.Proofs.Format.FractionDigits
import NumberFormat.Proofs.Format.Respelling
import NumberFormat.Proofs.Format.Shown

namespace NumberFormat

open Binary64 (Digits)
open Plan (latin)
open Text (StopsBefore)

/-!
Which number is read from a compact text.

The name of a tier never goes on with the digits before it, so both can be read back from the text,
and with them the number, if no two tiers have the same name.  The tier below a thousand has none.
Where that of the thousands has none either, the text leaves open which of the two is meant, and
among the locales of the library this happens in Italian.
-/

namespace Format

/-! ## Digits of a locale -/

section

variable {tables : Tables} (numbered : tables.Numbered) {system : String} {zero : Char}
  (known : tables.zeroDigit? system = some zero)

include numbered known

/-- An ordinary digit and a character that is no foreign digit are never respelled alike. -/
theorem eq_of_respelled_digit {c d : Char} (digit : d.isDigit = true)
    (value : c.toNat = zero.toNat + (d.toNat - '0'.toNat))
    (plain : (∃ other, tables.IsDigitOf other c) → tables.IsDigitOf latin c) : c = d := by
  have bounds := Decimal.toNat_of_isDigit digit
  have nine : '9'.toNat + 1 = '0'.toNat + 10 := by decide
  have own : tables.IsDigitOf system c := ⟨zero, known, by omega, by omega⟩
  have ordinary := Decimal.toNat_of_isDigit
    ((Tables.isDigitOf_latin numbered).mp (plain ⟨system, own⟩))
  apply Char.toNat_inj.mp
  rcases numbered.apart known with same | above
  · rw [same, numbered.ordinary, Option.some.injEq] at known
    rw [← known] at value
    omega
  · omega

theorem respellsTo_inj {c d spelled : Char} (left : RespellsTo zero c spelled)
    (right : RespellsTo zero d spelled)
    (plain : (∃ other, tables.IsDigitOf other c) → tables.IsDigitOf latin c)
    (otherPlain : (∃ other, tables.IsDigitOf other d) → tables.IsDigitOf latin d) : c = d := by
  rcases left with rfl | ⟨digit, value⟩
  · rcases right with same | ⟨digit, value⟩
    · exact same.symm
    · exact eq_of_respelled_digit numbered known digit value plain
  · rcases right with rfl | ⟨otherDigit, otherValue⟩
    · exact (eq_of_respelled_digit numbered known digit value otherPlain).symm
    · have bounds := Decimal.toNat_of_isDigit digit
      have otherBounds := Decimal.toNat_of_isDigit otherDigit
      exact Char.toNat_inj.mp (by omega)

/-- Texts in ordinary digits that are respelled alike are the same. -/
theorem respelled_inj {text other spelled : List Char} (left : Respelled zero text spelled)
    (right : Respelled zero other spelled) (written : tables.WrittenIn latin text)
    (otherWritten : tables.WrittenIn latin other) : text = other := by
  induction left generalizing other with
  | nil =>
      cases right
      rfl
  | cons first _ ih =>
      cases right with
      | cons otherFirst otherRest =>
          have head := respellsTo_inj numbered known first otherFirst
            (written _ List.mem_cons_self) (otherWritten _ List.mem_cons_self)
          have tail := ih otherRest
            (written.of_subset (fun c member => List.mem_cons_of_mem _ member))
            (otherWritten.of_subset (fun c member => List.mem_cons_of_mem _ member))
          rw [head, tail]

end

section

variable {tables : Tables} {locale : Locale} (numbered : tables.Numbered)

include numbered

/-- A text keeps all its digits apart in the numbering system of a locale. -/
theorem localize_inj (unmixed : Unmixed tables locale) {text other : List Char}
    (written : tables.WrittenIn latin text) (otherWritten : tables.WrittenIn latin other)
    (same : localize tables locale text = localize tables locale other) : text = other := by
  unfold localize at same
  cases own : locale.numberingSystem with
  | none =>
      rw [own] at same
      exact same
  | some system =>
      obtain ⟨zero, known⟩ := Option.isSome_iff_exists.mp (unmixed.known system own).2
      rw [own, Option.bind_some, known] at same
      have spelled : respell zero text = respell zero other := same
      have left := respelled_respell numbered known text
      rw [spelled] at left
      exact respelled_inj numbered known left (respelled_respell numbered known other) written
        otherWritten

/-- A text that begins with a digit does so in every numbering system. -/
theorem exists_digit_localize {digit : Char} (ordinary : digit.isDigit = true)
    (rest : List Char) :
    ∃ first behind system, localize tables locale (digit :: rest) = first :: behind ∧
      tables.IsDigitOf system first := by
  have single : (localize tables locale [digit]).length = 1 := length_localize [digit]
  have digits : Digits [digit] := fun c member => List.mem_singleton.mp member ▸ ordinary
  have split : localize tables locale (digit :: rest) =
      localize tables locale [digit] ++ localize tables locale rest := localize_append [digit] rest
  obtain ⟨first, spelled⟩ := List.length_eq_one_iff.mp single
  have member : first ∈ localize tables locale [digit] := spelled ▸ List.mem_singleton_self first
  obtain ⟨system, numeral⟩ := isDigitOf_localize numbered digits first member
  rw [spelled] at split
  exact ⟨first, localize tables locale rest, system, split, numeral⟩

end

/-! ## Mantissas and the names behind them -/

/-- Whether a character can stand in a mantissa. -/
def inMantissa (locale : Locale) (c : Char) : Bool :=
  c.isDigit || c == locale.decimalPoint || c == locale.groupSeparator

/--
What it means that the names of tiers can be told from the digits before them and from each other.
The first one may be empty.
-/
structure Distinctive (locale : Locale) (names : List String) : Prop where
  legible : Legible { locale with numberingSystem := none }
  apart : ∀ name ∈ names, StopsBefore (inMantissa locale) name.toList
  different : names.Nodup
  later : "" ∉ names.tail

variable {locale : Locale} {names : List String}

theorem inMantissa_digitText (locale : Locale) (rule : DigitRule) (grouping : Bool) (d : Decimal) :
    ∀ c ∈ digitText locale rule grouping d, inMantissa locale c = true := by
  intro c member
  rcases mem_digitText member with digit | rfl | rfl
  · simp [inMantissa, digit]
  · simp [inMantissa]
  · simp [inMantissa]

theorem stopsBefore_tierName (distinctive : Distinctive locale names) (tier : Nat) :
    StopsBefore (inMantissa locale) (tierName names tier).toList := by
  cases tier with
  | zero => exact Text.stopsBefore_nil
  | succ tier =>
      rw [tierName]
      cases found : names[tier]? with
      | none => exact Text.stopsBefore_nil
      | some name => exact distinctive.apart name (List.mem_of_getElem? found)

/-- Without the separators a mantissa is read back from its text. -/
theorem toRat_of_digitText {rule : DigitRule} {grouping : Bool} {d e : Decimal}
    (legible : Legible { locale with numberingSystem := none })
    (same : digitText locale rule grouping d = digitText locale rule grouping e) :
    d.toRat = e.toRat := by
  have read (f : Decimal) : Decimal.readPlain? locale.decimalPoint
      ((digitText locale rule grouping f).filter (· != locale.groupSeparator)) = some f.toRat := by
    have digits : (digitText locale rule grouping f).filter (· != locale.groupSeparator) =
        rule.wholeDigits f ++ Decimal.pointed locale.decimalPoint (rule.fractionDigits f) :=
      filter_digitText legible rule grouping f
    have point : locale.decimalPoint.isDigit = false := legible.point
    rw [digits, DigitRule.wholeDigits, DigitRule.fractionDigits,
      Decimal.readPlain?_pointed point (f.digits_wholeDigits _)
      (f.wholeDigits_ne_nil _) (f.digits_fractionDigits _)]
    exact congrArg some (f.ofDigitChars_rendered _ _)
  have both := read d
  rw [same, read e] at both
  exact (Option.some.inj both).symm

/-- Only the first two tiers can be without a name. -/
theorem tier_of_unnamed (later : "" ∉ names.tail) {tier : Nat} (named : tier ≤ names.length)
    (unnamed : tierName names tier = "") : tier = 0 ∨ tier = 1 ∧ names.head? = some "" := by
  cases tier with
  | zero => exact Or.inl rfl
  | succ tier =>
      rw [tierName, List.getElem?_eq_getElem named, Option.getD_some] at unnamed
      cases names with
      | nil => cases named
      | cons first others =>
          cases tier with
          | zero =>
              rw [List.getElem_cons_zero] at unnamed
              exact Or.inr ⟨rfl, congrArg some unnamed⟩
          | succ tier =>
              rw [List.getElem_cons_succ] at unnamed
              exact absurd (unnamed ▸ List.getElem_mem _) later

/-- A tier is known by its name, unless the thousands have none. -/
theorem tier_of_tierName (distinctive : Distinctive locale names) {tier other : Nat}
    (named : tier ≤ names.length) (otherNamed : other ≤ names.length)
    (same : tierName names tier = tierName names other) :
    tier = other ∨ tier ≤ 1 ∧ other ≤ 1 ∧ names.head? = some "" := by
  cases tier with
  | zero =>
      rcases tier_of_unnamed distinctive.later otherNamed same.symm with none | ⟨one, empty⟩
      · exact Or.inl none.symm
      · exact Or.inr ⟨Nat.zero_le 1, one.le, empty⟩
  | succ tier =>
      cases other with
      | zero =>
          rcases tier_of_unnamed distinctive.later named same with none | ⟨one, empty⟩
          · exact Or.inl none
          · exact Or.inr ⟨one.le, Nat.zero_le 1, empty⟩
      | succ other =>
          rw [tierName, tierName, List.getElem?_eq_getElem named,
            List.getElem?_eq_getElem otherNamed, Option.getD_some, Option.getD_some,
            List.Nodup.getElem_inj_iff distinctive.different] at same
          exact Or.inl (congrArg (· + 1) same)

/-- The mantissa is read back from a compact text, and the tier, unless the thousands have no name. -/
theorem mantissa_of_text (distinctive : Distinctive locale names) {rule : DigitRule}
    {grouping : Bool} {d e : Decimal} {tier other : Nat} (named : tier ≤ names.length)
    (otherNamed : other ≤ names.length)
    (same : (Written.ofMantissa rule d (.tier tier)).text locale grouping names =
      (Written.ofMantissa rule e (.tier other)).text locale grouping names) :
    d.toRat = e.toRat ∧ (tier = other ∨ tier ≤ 1 ∧ other ≤ 1 ∧ names.head? = some "") := by
  have text (f : Decimal) (thousands : Nat) :
      (Written.ofMantissa rule f (.tier thousands)).text locale grouping names =
        digitText locale rule grouping f ++ (tierName names thousands).toList :=
    congrArg (· ++ (tierName names thousands).toList) (digitText_eq locale rule grouping f).symm
  rw [text, text] at same
  obtain ⟨digits, name⟩ := Text.run_append_inj (inMantissa_digitText locale rule grouping d)
    (inMantissa_digitText locale rule grouping e) (stopsBefore_tierName distinctive tier)
    (stopsBefore_tierName distinctive other) same
  exact ⟨toRat_of_digitText distinctive.legible digits,
    tier_of_tierName distinctive named otherNamed (String.toList_inj.mp name)⟩

/-! ## Signs -/

/-- A text that begins with a digit. -/
def StartsWithDigit (text : List Char) : Prop :=
  ∃ digit rest, text = digit :: rest ∧ digit.isDigit = true

theorem startsWithDigit_digitText (locale : Locale) (rule : DigitRule) (grouping : Bool)
    (d : Decimal) (rest : List Char) :
    StartsWithDigit (digitText locale rule grouping d ++ rest) := by
  have whole : Digits (rule.wholeDigits d) := d.digits_wholeDigits _
  have nonempty : rule.wholeDigits d ≠ [] := d.wholeDigits_ne_nil _
  rw [digitText_eq]
  cases digits : rule.wholeDigits d with
  | nil => exact absurd digits nonempty
  | cons digit others =>
      have ordinary : digit.isDigit = true := whole digit (digits ▸ List.mem_cons_self)
      cases grouping with
      | false => exact ⟨digit, _, rfl, ordinary⟩
      | true =>
          rw [if_pos rfl, Decimal.grouped]
          split
          · exact ⟨digit, _, rfl, ordinary⟩
          · exact ⟨digit, _, rfl, ordinary⟩

/-- A minus sign that can be told from digits. -/
structure Marked (locale : Locale) : Prop where
  shown : locale.minusSign.toList ≠ []
  apart : StopsBefore Tables.isNumeral locale.minusSign.toList

theorem minus_append_ne_localize (marked : Marked locale) {digit : Char}
    (ordinary : digit.isDigit = true) (text rest : List Char) :
    locale.minusSign.toList ++ text ≠ localize Tables.builtIn locale (digit :: rest) := by
  intro same
  obtain ⟨first, behind, system, localized, numeral⟩ :=
    exists_digit_localize Tables.numbered_builtIn ordinary rest
  rw [localized] at same
  cases minus : locale.minusSign.toList with
  | nil => exact marked.shown minus
  | cons mark others =>
      rw [minus, List.cons_append, List.cons.injEq] at same
      have foreign := marked.apart mark (by rw [minus]; rfl)
      rw [same.1, Tables.isNumeral_of_isDigitOf numeral] at foreign
      cases foreign

/-- A minus sign is seen in front of a number, and so is the lack of one. -/
theorem negative_of_text (marked : Marked locale) {text other : List Char}
    (starts : StartsWithDigit text) (otherStarts : StartsWithDigit other)
    {negative otherNegative : Bool}
    (same : (if negative then locale.minusSign.toList else []) ++
        localize Tables.builtIn locale text =
      (if otherNegative then locale.minusSign.toList else []) ++
        localize Tables.builtIn locale other) :
    negative = otherNegative ∧
      localize Tables.builtIn locale text = localize Tables.builtIn locale other := by
  obtain ⟨digit, rest, rfl, ordinary⟩ := starts
  obtain ⟨otherDigit, otherRest, rfl, otherOrdinary⟩ := otherStarts
  cases negative with
  | false =>
      cases otherNegative with
      | false => exact ⟨rfl, same⟩
      | true => exact absurd same.symm (minus_append_ne_localize marked ordinary _ _)
  | true =>
      cases otherNegative with
      | false => exact absurd same (minus_append_ne_localize marked otherOrdinary _ _)
      | true => exact ⟨rfl, List.append_cancel_left same⟩

/-! ## The locales of the library -/

/-- Options that ask for compact numbers and leave everything else open. -/
def compactOptions (display : Options.CompactDisplay) : Options where
  form := some .compact
  compactDisplay := some display

/-- A magnitude as it is written in compact notation. -/
def compactNumber (tag : String) (display : Options.CompactDisplay) (m : Magnitude) : Written :=
  writtenValue Tables.builtIn (Tables.builtIn.localeOrEnglish tag) (compactOptions display) m

instance (locale : Locale) (names : List String) : Decidable (Distinctive locale names) :=
  decidable_of_iff
    ((locale.decimalPoint ≠ locale.groupSeparator ∧ locale.decimalPoint.isDigit = false ∧
        locale.groupSeparator.isDigit = false) ∧
      (∀ name ∈ names, StopsBefore (inMantissa locale) name.toList) ∧ names.Nodup ∧
      "" ∉ names.tail)
    ⟨fun ⟨⟨distinct, point, separator⟩, apart, different, later⟩ =>
      ⟨⟨rfl, distinct, point, separator⟩, apart, different, later⟩,
    fun distinctive =>
      ⟨⟨distinctive.legible.distinct, distinctive.legible.point, distinctive.legible.separator⟩,
        distinctive.apart, distinctive.different, distinctive.later⟩⟩

theorem distinctive_builtIn (display : Options.CompactDisplay) :
    ∀ entry ∈ Tables.builtIn.locales,
      Distinctive entry.2 (tierNames entry.2 (compactOptions display)) := by
  cases display <;> decide +kernel

/-- Of all the locales of the library only Italian has no name for the thousands, where it is short. -/
theorem italian_of_unnamed (display : Options.CompactDisplay) :
    ∀ entry ∈ Tables.builtIn.locales,
      (tierNames entry.2 (compactOptions display)).head? = some "" →
        entry.1 = "it" ∧ display = .short := by
  cases display <;> decide +kernel

theorem marked_builtIn (tag : String) : Marked (Tables.builtIn.localeOrEnglish tag) := by
  have all : ∀ entry ∈ Tables.builtIn.locales, entry.2.minusSign.toList ≠ [] ∧
      StopsBefore Tables.isNumeral entry.2.minusSign.toList := by decide +kernel
  obtain ⟨name, listed, _⟩ := Tables.localeOrEnglish_builtIn tag
  exact ⟨(all _ listed).1, (all _ listed).2⟩

theorem shows_compact (tag : String) (display : Options.CompactDisplay) (negative : Bool)
    (m : Magnitude) :
    Shows (Tables.builtIn.localeOrEnglish tag) true
      (tierNames (Tables.builtIn.localeOrEnglish tag) (compactOptions display))
      (showValue Tables.builtIn (Tables.builtIn.localeOrEnglish tag) (compactOptions display)
        (.finite negative m)).1 (compactNumber tag display m) :=
  shows_showValue Tables.builtIn _ (compactOptions display) negative m

/-- A compact number is a mantissa in some tier, in digits that its magnitude has no part in. -/
theorem exists_compactNumber (tag : String) (display : Options.CompactDisplay) (m : Magnitude) :
    ∃ d tier, compactNumber tag display m =
      .ofMantissa (DigitRule.ofOptions (compactOptions display) (0, 3)) d (.tier tier) :=
  ⟨_, _, rfl⟩

/-- In compact notation a minus stands before the digits of a negative value, and nothing else. -/
theorem formatted_compact (tag : String) (display : Options.CompactDisplay) (negative : Bool)
    (m : Magnitude) :
    (Formatter.builtIn [] tag (compactOptions display) (.finite negative m)).toList =
      (if negative then (Tables.builtIn.localeOrEnglish tag).minusSign.toList else []) ++
        localize Tables.builtIn (Tables.builtIn.localeOrEnglish tag)
          (showValue Tables.builtIn (Tables.builtIn.localeOrEnglish tag) (compactOptions display)
            (.finite negative m)).1 := by
  cases negative <;> exact String.toList_ofList

section

variable {tag : String} {display : Options.CompactDisplay} {negative otherNegative : Bool}
  {m n : Magnitude}

/-- Texts are the same only if the signs are, and so are the digits with the names behind them. -/
theorem showValue_of_formatted
    (same : Formatter.builtIn [] tag (compactOptions display) (.finite negative m) =
      Formatter.builtIn [] tag (compactOptions display) (.finite otherNegative n)) :
    negative = otherNegative ∧
      (showValue Tables.builtIn (Tables.builtIn.localeOrEnglish tag) (compactOptions display)
          (.finite negative m)).1 =
        (showValue Tables.builtIn (Tables.builtIn.localeOrEnglish tag) (compactOptions display)
          (.finite otherNegative n)).1 := by
  have starts (negative : Bool) (m : Magnitude) : StartsWithDigit (showValue Tables.builtIn
      (Tables.builtIn.localeOrEnglish tag) (compactOptions display) (.finite negative m)).1 :=
    startsWithDigit_digitText _ _ _ _ _
  have written (negative : Bool) (m : Magnitude) :=
    writtenIn_showValue Tables.numbered_builtIn (Tables.unmixed_builtIn tag)
      (compactOptions display) (.finite negative m)
  have texts := congrArg String.toList same
  rw [formatted_compact, formatted_compact] at texts
  obtain ⟨signs, localized⟩ :=
    negative_of_text (marked_builtIn tag) (starts negative m) (starts otherNegative n) texts
  exact ⟨signs, localize_inj Tables.numbered_builtIn (Tables.unmixed_builtIn tag)
    (written negative m) (written otherNegative n) localized⟩

/--
Two numbers with the same mantissa, each of them below a thousand or in the thousands, where these
have no name.
-/
structure SharesUnnamed (tag : String) (display : Options.CompactDisplay) (first second : Written) :
    Prop where
  italian : Tables.language tag = "it"
  short : display = .short
  mantissa : first.mantissa = second.mantissa
  low : first.scale = .tier 0 ∨ first.scale = .tier 1
  otherLow : second.scale = .tier 0 ∨ second.scale = .tier 1

/--
A compact text tells the number it shows, with its sign: the rounded mantissa times the thousands
that are named behind it.  Only short Italian does not tell a number of thousands from as many ones.
-/
theorem compactNumber_of_text
    (same : Formatter.builtIn [] tag (compactOptions display) (.finite negative m) =
      Formatter.builtIn [] tag (compactOptions display) (.finite otherNegative n)) :
    negative = otherNegative ∧
      ((compactNumber tag display m).value = (compactNumber tag display n).value ∨
        SharesUnnamed tag display (compactNumber tag display m) (compactNumber tag display n)) := by
  obtain ⟨name, listed, named⟩ := Tables.localeOrEnglish_builtIn tag
  obtain ⟨signs, texts⟩ := showValue_of_formatted same
  have shown := shows_compact tag display negative m
  have otherShown := shows_compact tag display otherNegative n
  obtain ⟨d, tier, first⟩ := exists_compactNumber tag display m
  obtain ⟨e, other, second⟩ := exists_compactNumber tag display n
  rw [first] at shown ⊢
  rw [second] at otherShown ⊢
  rw [shown.text, otherShown.text] at texts
  obtain ⟨mantissas, tiers⟩ := mantissa_of_text (distinctive_builtIn display _ listed)
    shown.named otherShown.named texts
  refine ⟨signs, ?_⟩
  rcases tiers with rfl | ⟨low, otherLow, unnamed⟩
  · left
    rw [Written.value_ofMantissa, Written.value_ofMantissa, mantissas]
  · right
    obtain ⟨italian, short⟩ := italian_of_unnamed display _ listed unnamed
    have lowScale {thousands : Nat} (low : thousands ≤ 1) :
        Scale.tier thousands = .tier 0 ∨ Scale.tier thousands = .tier 1 :=
      (Nat.le_one_iff_eq_zero_or_eq_one.mp low).imp (congrArg Scale.tier) (congrArg Scale.tier)
    refine ⟨?_, short, ?_, lowScale low, lowScale otherLow⟩
    · rcases named with own | ⟨english, _⟩
      · exact own.symm.trans italian
      · exact absurd (english.symm.trans italian) (by decide)
    · rw [Written.mantissa_ofMantissa, Written.mantissa_ofMantissa, mantissas]

end

/-- The magnitude of a whole number. -/
def magnitudeOf (n : Nat) : Magnitude :=
  (Magnitude.ofDecimal? (Decimal.scaled n 0)).getD .zero

/-- Two amounts that both round to twelve hundred. -/
theorem compactNumber_of_text_german :
    Formatter.builtIn [] "de" (compactOptions .short) (.finite false (magnitudeOf 1230)) =
        Formatter.builtIn [] "de" (compactOptions .short) (.finite false (magnitudeOf 1249)) ∧
      (compactNumber "de" .short (magnitudeOf 1230)).value =
        (compactNumber "de" .short (magnitudeOf 1249)).value := by
  have same : Formatter.builtIn [] "de" (compactOptions .short)
      (.finite false (magnitudeOf 1230)) =
        Formatter.builtIn [] "de" (compactOptions .short) (.finite false (magnitudeOf 1249)) := by
    decide +kernel
  refine ⟨same, (compactNumber_of_text same).2.resolve_right (fun shares => ?_)⟩
  exact absurd shares.italian (by decide +kernel)

/-- In short Italian five and five thousand have the same text. -/
theorem italian_thousands_unnamed :
    Formatter.builtIn [] "it" (compactOptions .short) (.finite false (magnitudeOf 5)) = "5" ∧
      Formatter.builtIn [] "it" (compactOptions .short) (.finite false (magnitudeOf 5000)) = "5" ∧
      (compactNumber "it" .short (magnitudeOf 5)).value = 5 ∧
      (compactNumber "it" .short (magnitudeOf 5000)).value = 5000 := by
  refine ⟨by decide +kernel, by decide +kernel, ?_, ?_⟩
  · decide +kernel
  · decide +kernel

end Format
end NumberFormat
