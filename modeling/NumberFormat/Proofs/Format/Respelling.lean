import Mathlib.Data.List.Forall2
import NumberFormat.Proofs.Plan.Numerals

namespace NumberFormat

open Plan (latin)

/-!
The numbering system of a locale changes the digits of a text and nothing else.

A number is respelled before it is wrapped, so what is wrapped around it could depend on its digits.
Letters do not touch digits more closely in one system than in another.  Only the singular does: a
number is named in it when it is written as an ordinary one, and in no other system is it.
-/

namespace Format

/-- The same character, or the digit of the same value in the numbering system of a zero. -/
def RespellsTo (zero c d : Char) : Prop :=
  c = d ∨ c.isDigit = true ∧ d.toNat = zero.toNat + (c.toNat - '0'.toNat)

/-- A text of the same length, with the same characters but for the digits. -/
def Respelled (zero : Char) : List Char → List Char → Prop :=
  List.Forall₂ (RespellsTo zero)

variable {zero : Char}

theorem respelled_refl (text : List Char) : Respelled zero text text :=
  List.forall₂_same.mpr (fun _ _ => Or.inl rfl)

theorem Respelled.append {first second other another : List Char}
    (left : Respelled zero first other) (right : Respelled zero second another) :
    Respelled zero (first ++ second) (other ++ another) :=
  List.rel_append left right

/-! ## Wrapping -/

theorem respelled_fill {number other : List Char} (respelled : Respelled zero number other)
    (template : List Char) :
    Respelled zero (Text.fill number template) (Text.fill other template) := by
  induction template using Text.fill.induct with
  | case1 rest ih => exact respelled.append ih
  | case2 c rest plain ih =>
      rw [Text.fill, Text.fill]
      · exact .cons (Or.inl rfl) ih
      · exact plain
      · exact plain
  | case3 => exact .nil

/-- The digits of a numbering system are no letters, as ordinary digits are none. -/
def Letterless (zero : Char) : Prop :=
  ∀ {c d : Char}, RespellsTo zero c d → Text.isLetter c = Text.isLetter d

theorem endsInLetter_respelled (letterless : Letterless zero) {text other : List Char}
    (respelled : Respelled zero text other) {last otherLast : Option Char}
    (same : endsInLetter last = endsInLetter otherLast) :
    endsInLetter (text.getLast? <|> last) = endsInLetter (other.getLast? <|> otherLast) := by
  have reversed := List.rel_reverse respelled
  rw [List.getLast?_eq_head?_reverse, List.getLast?_eq_head?_reverse]
  generalize text.reverse = text at reversed ⊢
  generalize other.reverse = other at reversed ⊢
  cases reversed with
  | nil => exact same
  | cons first _ => exact letterless first

theorem respelled_placeCurrency (letterless : Letterless zero) {number other : List Char}
    (respelled : Respelled zero number other) (symbol pattern : List Char)
    {last otherLast : Option Char} (same : endsInLetter last = endsInLetter otherLast) :
    Respelled zero (placeCurrency number symbol last pattern)
      (placeCurrency other symbol otherLast pattern) := by
  induction last, pattern using placeCurrency.induct number symbol generalizing otherLast with
  | case1 last rest piece =>
      rename_i ih
      have touching : Respelled zero (if endsInLetter last then [unbrokenSpace] else [])
          (if endsInLetter otherLast then [unbrokenSpace] else []) := by
        rw [same]
        exact respelled_refl _
      have pieces := (touching.append respelled).append
        (respelled_refl (if letterFollows symbol rest then [unbrokenSpace] else []))
      rw [placeCurrency, placeCurrency]
      exact pieces.append (ih (endsInLetter_respelled letterless pieces same))
  | case2 last rest ih =>
      rw [placeCurrency, placeCurrency]
      exact (respelled_refl symbol).append
        (ih (endsInLetter_respelled letterless (respelled_refl symbol) same))
  | case3 last c rest slotless other ih =>
      rw [placeCurrency, placeCurrency]
      · exact .cons (Or.inl rfl) (ih rfl)
      all_goals assumption
  | case4 => exact .nil

/-- A currency that is shown by its name, which is another in the plural. -/
def NamesCurrency (entry : Option Currency) (display : Options.CurrencyDisplay) : Prop :=
  display = .name ∧ ∃ currency, entry = some currency ∧ currency.one ≠ currency.other

/-- A measure unit that is written out, and otherwise in the plural. -/
def NamesUnit (entry : Option MeasureUnit) (display : Options.UnitDisplay) : Prop :=
  display = .long ∧ ∃ unit, entry = some unit ∧ unit.one ≠ unit.other

/-- The unit that a compound unit counts, or the unit itself. -/
def countedUnit (id : String) : List Char :=
  match splitAt? perMark id.toList with
  | none => id.toList
  | some (counted, _) => counted

/-- Options that name what is counted in the singular or in the plural. -/
def NamesByNumber (tables : Tables) (options : Options) : Prop :=
  match options.style, options.currency, options.unit with
  | some .currency, some code, _ =>
      NamesCurrency (tables.currency? code) (options.currencyDisplay.getD .symbol)
  | some .unit, _, some id =>
      NamesUnit (tables.unit? (String.ofList (countedUnit id))) (options.unitDisplay.getD .short)
  | _, _, _ => False

section

variable {number other : List Char} (respelled : Respelled zero number other)

include respelled

theorem respelled_withCurrency (letterless : Letterless zero) (locale : Locale) (code : String)
    {entry : Option Currency} {display : Options.CurrencyDisplay}
    (same : isOne number = isOne other ∨ ¬NamesCurrency entry display) :
    Respelled zero (withCurrency locale code entry display number)
      (withCurrency locale code entry display other) := by
  unfold withCurrency
  split
  · rename_i byName
    have name : currencyName code entry number = currencyName code entry other := by
      cases entry with
      | none => rfl
      | some currency =>
          rcases same with equal | nameless
          · rw [currencyName, currencyName, equal]
          · have alike : currency.one = currency.other := by
              by_contra different
              exact nameless ⟨byName, currency, rfl, different⟩
            rw [currencyName, currencyName, alike, ite_self, ite_self]
    rw [name]
    exact respelled.append (respelled_refl _)
  · exact respelled_placeCurrency letterless respelled _ _ rfl

omit respelled in
theorem unitPattern_congr {id : List Char} {entry : Option MeasureUnit}
    {display : Options.UnitDisplay}
    (same : isOne number = isOne other ∨ ¬NamesUnit entry display) :
    unitPattern id entry display number = unitPattern id entry display other := by
  cases entry with
  | none => rfl
  | some unit =>
      cases display with
      | short => rfl
      | narrow => rfl
      | long =>
          rcases same with equal | nameless
          · rw [unitPattern, unitPattern, equal]
          · have alike : unit.one = unit.other := by
              by_contra different
              exact nameless ⟨rfl, unit, rfl, different⟩
            rw [unitPattern, unitPattern, alike, ite_self, ite_self]

theorem respelled_withUnit (tables : Tables) {id : String} {display : Options.UnitDisplay}
    (same : isOne number = isOne other ∨
      ¬NamesUnit (tables.unit? (String.ofList (countedUnit id))) display) :
    Respelled zero (withUnit tables id display number) (withUnit tables id display other) := by
  unfold withUnit
  unfold countedUnit at same
  dsimp only
  cases split : splitAt? perMark id.toList with
  | none =>
      rw [split] at same
      dsimp only at same ⊢
      rw [unitPattern_congr same]
      exact respelled_fill respelled _
  | some sides =>
      rw [split] at same
      dsimp only at same ⊢
      rw [unitPattern_congr same]
      exact respelled_fill respelled _

/-- What is wrapped around a number depends on its digits only where it is named by number. -/
theorem respelled_wrap (letterless : Letterless zero) (tables : Tables) (locale : Locale)
    {options : Options} (same : isOne number = isOne other ∨ ¬NamesByNumber tables options) :
    Respelled zero (wrap tables locale options number) (wrap tables locale options other) := by
  unfold NamesByNumber at same
  unfold wrap
  split
  · rename_i money named
    rw [money, named] at same
    exact respelled_withCurrency respelled letterless _ _ same
  · exact respelled_fill respelled _
  · rename_i measure named
    rw [measure, named] at same
    exact respelled_withUnit respelled tables same
  · exact respelled

theorem respelled_withSign (locale : Locale) (accounting : Bool) (mark : SignMark) :
    Respelled zero (withSign locale accounting number mark)
      (withSign locale accounting other mark) := by
  cases mark with
  | none => exact respelled
  | plus => exact (respelled_refl _).append respelled
  | minus =>
      cases accounting with
      | true => exact .cons (Or.inl rfl) (respelled.append (respelled_refl _))
      | false => exact (respelled_refl _).append respelled

end

/-! ## Respelled numbers -/

section

variable {tables : Tables} (numbered : tables.Numbered) {system : String}
  (known : tables.zeroDigit? system = some zero)

include numbered known

theorem respelled_respell (text : List Char) : Respelled zero text (respell zero text) := by
  refine List.forall₂_map_right_iff.mpr (List.forall₂_same.mpr (fun c _ => ?_))
  unfold respellDigit digitValue?
  cases digit : c.isDigit with
  | false => exact Or.inl rfl
  | true =>
      have bounds := Decimal.toNat_of_isDigit digit
      have nine : '9'.toNat + 1 = '0'.toNat + 10 := by decide
      have valid := numbered.valid known (c.toNat - '0'.toNat) (by omega)
      simp only [if_true, if_pos valid]
      exact Or.inr ⟨digit, Tables.toNat_ofNat valid⟩

/-- Ordinary digits respell to themselves, and those of any other system are never ordinary. -/
theorem respellsTo_one {c : Char} (respells : RespellsTo zero c '1') : c = '1' := by
  rcases respells with same | ⟨digit, value⟩
  · exact same
  · have bounds := Decimal.toNat_of_isDigit digit
    rcases numbered.apart known with ordinary | above
    · rw [ordinary, numbered.ordinary, Option.some.injEq] at known
      rw [← known] at value
      exact Char.toNat_inj.mp (by omega)
    · have below : '1'.toNat < '9'.toNat := by decide
      omega

theorem isOne_respelled {text other : List Char} (respelled : Respelled zero text other)
    (same : system = latin ∨ text ≠ ['1']) : isOne text = isOne other := by
  rw [isOne, isOne, Bool.eq_iff_iff, beq_iff_eq, beq_iff_eq]
  constructor
  · rintro rfl
    have ordinary := same.resolve_right (fun different => different rfl)
    rw [ordinary, numbered.ordinary, Option.some.injEq] at known
    subst known
    cases respelled with
    | cons first rest =>
        cases rest
        rcases first with rfl | ⟨_, value⟩
        · rfl
        · rw [Char.toNat_inj.mp (value.trans (by decide : _ = '1'.toNat))]
  · rintro rfl
    cases respelled with
    | cons first rest =>
        cases rest
        rw [respellsTo_one numbered known first]

end

/-- A number changes in its digits alone, unless they take it out of the singular. -/
theorem respelled_number {tables : Tables} (numbered : tables.Numbered)
    (letterless : Letterless zero) {system : String}
    (known : tables.zeroDigit? system = some zero) {locale : Locale}
    (plain : locale.numberingSystem = none) {options : Options} {value : Binary64}
    (same : system = latin ∨ (showValue tables locale options value).1 ≠ ['1'] ∨
      ¬NamesByNumber tables options) :
    Respelled zero (number tables locale options value)
      (number tables { locale with numberingSystem := some system } options value) := by
  have spelled := respelled_respell numbered known (showValue tables locale options value).1
  have ordinary (text : List Char) : localize tables locale text = text := by
    rw [localize, plain]
    rfl
  have own (text : List Char) :
      localize tables { locale with numberingSystem := some system } text = respell zero text := by
    rw [localize, Option.bind_some, known]
  have shown : showValue tables { locale with numberingSystem := some system } options value =
      showValue tables locale options value := rfl
  unfold number
  rw [shown]
  dsimp only
  rw [ordinary, own]
  refine respelled_withSign (respelled_wrap spelled letterless tables locale ?_) locale _ _
  rw [← or_assoc] at same
  exact same.imp_left (isOne_respelled numbered known spelled)

/-- The digits of a numbering system of the library lie outside all ranges of letters. -/
theorem isLetter_digit {system : String} (known : Tables.builtIn.zeroDigit? system = some zero)
    {c : Char} (least : zero.toNat ≤ c.toNat) (most : c.toNat < zero.toNat + 10) :
    Text.isLetter c = false := by
  have apart : ∀ entry ∈ Tables.BuiltIn.zeroDigits,
      ∀ range ∈ Text.basicLetters ++ Text.supplementaryLetters,
        range.2 < entry.2.toNat ∨ entry.2.toNat + 10 ≤ range.1 := by decide +kernel
  have outside : ∀ range ∈ Text.basicLetters ++ Text.supplementaryLetters,
      ¬(decide (range.1 ≤ c.toNat) && decide (c.toNat ≤ range.2)) = true := by
    intro range member
    have gap := apart _ (mem_of_lookup known) range member
    rw [Bool.and_eq_true, decide_eq_true_eq, decide_eq_true_eq]
    dsimp only at gap
    omega
  obtain ⟨basic, supplementary⟩ := List.forall_mem_append.mp outside
  unfold Text.isLetter
  split
  · exact List.any_eq_false.mpr basic
  · exact List.any_eq_false.mpr supplementary

/-- No numbering system of the library has letters for digits. -/
theorem letterless_builtIn {system : String}
    (known : Tables.builtIn.zeroDigit? system = some zero) : Letterless zero := by
  intro c d respells
  rcases respells with rfl | ⟨digit, value⟩
  · rfl
  · obtain ⟨_, ordinary, least, most⟩ :=
      (Tables.isDigitOf_latin Tables.numbered_builtIn).mpr digit
    cases Tables.numbered_builtIn.ordinary.symm.trans ordinary
    rw [isLetter_digit Tables.numbered_builtIn.ordinary least most,
      isLetter_digit known (by omega) (by omega)]

/--
A locale without a numbering system of its own can be given any of the library, and its numbers
change in their digits alone.  Only a number that is written as an ordinary one, and named in the
singular for that, is named in the plural then.
-/
theorem number_respelled {locale : Locale} (plain : locale.numberingSystem = none)
    {system : String} (known : Tables.builtIn.zeroDigit? system = some zero)
    {options : Options} {value : Binary64}
    (same : system = latin ∨ (showValue Tables.builtIn locale options value).1 ≠ ['1'] ∨
      ¬NamesByNumber Tables.builtIn options) :
    Respelled zero (number Tables.builtIn locale options value)
      (number Tables.builtIn { locale with numberingSystem := some system } options value) :=
  respelled_number Tables.numbered_builtIn (letterless_builtIn known) known plain same

/-- Amounts of money with the code of their currency and powers of ten. -/
def scientificFrancs : Options where
  style := some .currency
  currency := some "CHF"
  currencyDisplay := some .code
  form := some .scientific

/-- The space between a code and a number does not depend on the digits of the number. -/
theorem number_respelled_francs :
    ((Tables.builtIn.localeOrEnglish "en").numberingSystem = none ∧
      Tables.builtIn.zeroDigit? "thai" = some '๐' ∧
      ¬NamesByNumber Tables.builtIn scientificFrancs) ∧
    Respelled '๐' "-CHF\u00a01.23E6".toList "-CHF\u00a0๑.๒๓E๖".toList := by
  have plain : (Tables.builtIn.localeOrEnglish "en").numberingSystem = none := by decide +kernel
  have known : Tables.builtIn.zeroDigit? "thai" = some '๐' := by decide
  have byCode : ¬NamesByNumber Tables.builtIn scientificFrancs := nofun
  have respelled : Respelled '๐'
      (number Tables.builtIn (Tables.builtIn.localeOrEnglish "en") scientificFrancs
        ((Binary64.read? "-1234567.5".toList).getD .nan))
      (number Tables.builtIn
        { Tables.builtIn.localeOrEnglish "en" with numberingSystem := some "thai" }
        scientificFrancs ((Binary64.read? "-1234567.5".toList).getD .nan)) :=
    number_respelled plain known (Or.inr (Or.inr byCode))
  have ordinary : number Tables.builtIn (Tables.builtIn.localeOrEnglish "en") scientificFrancs
      ((Binary64.read? "-1234567.5".toList).getD .nan) = "-CHF\u00a01.23E6".toList := by
    decide +kernel
  have thai : number Tables.builtIn
      { Tables.builtIn.localeOrEnglish "en" with numberingSystem := some "thai" } scientificFrancs
      ((Binary64.read? "-1234567.5".toList).getD .nan) = "-CHF\u00a0๑.๒๓E๖".toList := by
    decide +kernel
  rw [ordinary, thai] at respelled
  exact ⟨⟨plain, known, byCode⟩, respelled⟩

/-- Whole amounts of money with the name of their currency. -/
def wholeDollars : Options where
  style := some .currency
  currency := some "USD"
  currencyDisplay := some .name
  maximumFractionDigits := some (.ofNat 0)

/-- The ordinary one is named in the singular, and a one in other digits in the plural. -/
theorem singular_only_ordinary :
    (Tables.builtIn.localeOrEnglish "en").numberingSystem = none ∧
      Tables.builtIn.zeroDigit? "arab" = some '٠' ∧
      number Tables.builtIn (Tables.builtIn.localeOrEnglish "en") wholeDollars
        ((Binary64.read? "1".toList).getD .nan) = "1 US dollar".toList ∧
      number Tables.builtIn
        { Tables.builtIn.localeOrEnglish "en" with numberingSystem := some "arab" } wholeDollars
        ((Binary64.read? "1".toList).getD .nan) = "١ US dollars".toList ∧
      ¬Respelled '٠' "1 US dollar".toList "١ US dollars".toList :=
  ⟨by decide +kernel, by decide, by decide +kernel, by decide +kernel,
    fun respelled => absurd respelled.length_eq (by decide)⟩

end Format
end NumberFormat
