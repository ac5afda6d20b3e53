import NumberFormat.Proofs.Format.Shown

namespace NumberFormat
namespace Format

/-!
Signs are put to a number and change nothing in it.

The text of a value and of its negative are the same where signs are never shown.  Every other way
of showing signs puts one in front of that text, or parentheses around it, and which of these
depends on the sign of the value and on whether all its digits are zeros.
-/

/-- A value as text, with its sign displayed in the given way. -/
def numberSigned (tables : Tables) (locale : Locale) (options : Options)
    (display : Options.SignDisplay) (value : Binary64) : List Char :=
  number tables locale { options with signDisplay := some display } value

/-- A text with a plus sign. -/
def aboveZero (locale : Locale) (text : List Char) : List Char :=
  locale.plusSign.toList ++ text

/--
A text with a minus sign, or in parentheses where options ask for an amount of money as accounting
shows it.
-/
def belowZero (locale : Locale) (options : Options) (text : List Char) : List Char :=
  if options.style = some .currency ∧ options.currencySign = some .accounting then
    '(' :: text ++ [')']
  else locale.minusSign.toList ++ text

/-- A finite value whose text is that of a number all in zeros. -/
def RoundsToZero (tables : Tables) (locale : Locale) (options : Options) (value : Binary64) :
    Prop :=
  ∃ negative m, value = .finite negative m ∧
    Shows locale (options.useGrouping.getD true) (tierNames locale options)
      (showValue tables locale options value).1 (writtenValue tables locale options m) ∧
    ∀ c ∈ (writtenValue tables locale options m).whole ++
      (writtenValue tables locale options m).fraction, c = '0'

/--
What it means that signs are put to the text of a value, and to that of its negative, whatever
display they have.
-/
structure SignsApart (locale : Locale) (options : Options)
    (text : Options.SignDisplay → Binary64 → List Char) (value : Binary64) (zero : Prop) :
    Prop where
  auto : text .auto value = text .never value
  always : text .always value = aboveZero locale (text .never value)
  exceptZero : zero → text .exceptZero value = text .never value
  exceptOther : ¬zero → text .exceptZero value = aboveZero locale (text .never value)
  negativeNever : text .never value.negate = text .never value
  negativeAuto : text .auto value.negate = belowZero locale options (text .never value)
  negativeAlways : text .always value.negate = belowZero locale options (text .never value)
  negativeZero : zero → text .exceptZero value.negate = text .never value
  negativeOther : ¬zero →
    text .exceptZero value.negate = belowZero locale options (text .never value)

theorem withSign_minus (locale : Locale) (options : Options) (text : List Char) :
    withSign locale
      (options.style == some .currency && options.currencySign == some .accounting) text .minus =
        belowZero locale options text := by
  unfold withSign belowZero
  simp only [Bool.and_eq_true, beq_iff_eq]

variable (tables : Tables) (locale : Locale) (options : Options)

/-- A sign is put to the text without sign, and whether it is shown depends on the display. -/
theorem numberSigned_eq (display : Options.SignDisplay) (value : Binary64) :
    numberSigned tables locale options display value =
      withSign locale
        (options.style == some .currency && options.currencySign == some .accounting)
        (unsigned tables locale options value)
        (signMark value.hasMinus (showValue tables locale options value).2 display) := by
  rw [← unsigned_signDisplay tables locale options (some display) value]
  cases value <;> rfl

theorem hasMinus_negate {value : Binary64} (noMinus : value.hasMinus = false)
    (someNumber : value ≠ .nan) : value.negate.hasMinus = true := by
  cases value with
  | nan => exact absurd rfl someNumber
  | infinite negative => exact congrArg not noMinus
  | finite negative m => exact congrArg not noMinus

/-- A value counts as zero exactly if it is finite and all its digits are zeros. -/
theorem zero_iff_roundsToZero (value : Binary64) :
    (showValue tables locale options value).2 = true ↔
      RoundsToZero tables locale options value := by
  unfold RoundsToZero
  cases value with
  | nan => exact iff_of_false Bool.false_ne_true (fun ⟨_, _, same, _⟩ => nomatch same)
  | infinite negative =>
      exact iff_of_false Bool.false_ne_true (fun ⟨_, _, same, _⟩ => nomatch same)
  | finite negative m =>
      rw [zero_showValue]
      constructor
      · intro zeros
        exact ⟨negative, m, rfl, shows_showValue tables locale options negative m, zeros⟩
      · rintro ⟨_, _, same, _, zeros⟩
        cases same
        exact zeros

/--
Whatever the options say about digits, units and the form of numbers, the sign is put to a text that
a value and its negative share.  Where zeros have no sign, a value that is rounded to zeros has none,
on whichever side of zero it lies.
-/
theorem signsApart_number {value : Binary64} (noMinus : value.hasMinus = false)
    (someNumber : value ≠ .nan) :
    SignsApart locale options (numberSigned tables locale options) value
      (RoundsToZero tables locale options value) := by
  have minus := hasMinus_negate noMinus someNumber
  have bare : numberSigned tables locale options .never value =
      unsigned tables locale options value := numberSigned_eq tables locale options .never value
  have above (display : Options.SignDisplay) := numberSigned_eq tables locale options display value
  have below (display : Options.SignDisplay) :=
    numberSigned_eq tables locale options display value.negate
  simp only [noMinus] at above
  simp only [minus, unsigned_negate, showValue_negate] at below
  rw [← zero_iff_roundsToZero]
  refine ⟨?_, ?_, ?_, ?_, ?_, ?_, ?_, ?_, ?_⟩
  · rw [above, bare]
    rfl
  · rw [above, bare]
    rfl
  · intro zero
    rw [above, bare, zero]
    rfl
  · intro other
    rw [above, bare, eq_false_of_ne_true other]
    rfl
  · rw [below, bare]
    rfl
  · rw [below, bare]
    exact withSign_minus locale options _
  · rw [below, bare]
    exact withSign_minus locale options _
  · intro zero
    rw [below, bare, zero]
    rfl
  · intro other
    rw [below, bare, eq_false_of_ne_true other]
    exact withSign_minus locale options _

/-- Amounts of dollars as accounting shows them. -/
def dollarAccounts : Options where
  style := some .currency
  currency := some "USD"
  currencySign := some .accounting

/-- An amount of less than half a cent. -/
def fewMills : Binary64 :=
  (Binary64.read? "0.004".toList).getD .nan

/-- Less than half a cent has no sign where zeros have none, and parentheses otherwise. -/
theorem signsApart_number_mills :
    (fewMills.hasMinus = false ∧ fewMills ≠ .nan) ∧
      RoundsToZero Tables.builtIn Locale.standard dollarAccounts fewMills ∧
      numberSigned Tables.builtIn Locale.standard dollarAccounts .exceptZero fewMills.negate =
        "US$0.00".toList ∧
      numberSigned Tables.builtIn Locale.standard dollarAccounts .auto fewMills.negate =
        "(US$0.00)".toList := by
  have noMinus : fewMills.hasMinus = false := by decide +kernel
  have someNumber : fewMills ≠ .nan := by decide +kernel
  have apart := signsApart_number Tables.builtIn Locale.standard dollarAccounts noMinus someNumber
  have zero : RoundsToZero Tables.builtIn Locale.standard dollarAccounts fewMills :=
    (zero_iff_roundsToZero _ _ _ _).mp (by decide +kernel)
  have bare : numberSigned Tables.builtIn Locale.standard dollarAccounts .never fewMills =
      "US$0.00".toList := by decide +kernel
  refine ⟨⟨noMinus, someNumber⟩, zero, (apart.negativeZero zero).trans bare, ?_⟩
  rw [apart.negativeAuto, bare]
  decide

end Format
end NumberFormat
