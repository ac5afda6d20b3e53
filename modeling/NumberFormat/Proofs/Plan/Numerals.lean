import NumberFormat.Proofs.Decimal.Rendering
import NumberFormat.Proofs.Plan.Formatting
import NumberFormat.Proofs.Skeleton.RoundTrip

namespace NumberFormat

open Binary64 (Digits)
open Plan (latin)

/-!
Which digits a number is written with.

A locale with a numbering system of its own writes its numbers in that system, and every other
locale writes them in ordinary digits.  A plan respells ordinary digits only, and not at all where
these are what the skeleton names.  So the system that a skeleton names decides the digits in all
locales without a system of their own, which among those of the library only Arabic has.
-/

namespace Tables

/-! ## Digits of numbering systems -/

/-- A digit of a numbering system: one of the ten characters from its zero on. -/
def IsDigitOf (tables : Tables) (system : String) (c : Char) : Prop :=
  ∃ zero, tables.zeroDigit? system = some zero ∧
    zero.toNat ≤ c.toNat ∧ c.toNat < zero.toNat + 10

/-- A text without a digit of any other numbering system. -/
def WrittenIn (tables : Tables) (system : String) (text : List Char) : Prop :=
  ∀ c ∈ text, (∃ other, tables.IsDigitOf other c) → tables.IsDigitOf system c

/-- Tables with ordinary digits, whose other numbering systems share no digit with those. -/
structure Numbered (tables : Tables) : Prop where
  ordinary : tables.zeroDigit? latin = some '0'
  apart : ∀ {system zero}, tables.zeroDigit? system = some zero →
    system = latin ∨ '9'.toNat < zero.toNat
  valid : ∀ {system zero}, tables.zeroDigit? system = some zero →
    ∀ value < 10, (zero.toNat + value).isValidChar

variable {tables : Tables} {system : String} {zero : Char}

theorem writtenIn_nil : tables.WrittenIn system [] :=
  fun _ member => absurd member List.not_mem_nil

theorem writtenIn_append {first second : List Char} (left : tables.WrittenIn system first)
    (right : tables.WrittenIn system second) : tables.WrittenIn system (first ++ second) :=
  List.forall_mem_append.mpr ⟨left, right⟩

theorem WrittenIn.of_subset {text larger : List Char} (written : tables.WrittenIn system larger)
    (inside : ∀ c ∈ text, c ∈ larger) : tables.WrittenIn system text :=
  fun c member => written c (inside c member)

theorem isDigitOf_latin (numbered : tables.Numbered) {c : Char} :
    tables.IsDigitOf latin c ↔ c.isDigit = true := by
  have nine : '9'.toNat + 1 = '0'.toNat + 10 := by decide
  have range : c.isDigit = true ↔ '0'.toNat ≤ c.toNat ∧ c.toNat < '0'.toNat + 10 := by
    constructor
    · intro digit
      have bounds := Decimal.toNat_of_isDigit digit
      omega
    · intro bounds
      rw [Char.isDigit, Bool.and_eq_true, decide_eq_true_eq, decide_eq_true_eq]
      exact ⟨bounds.1, Nat.le_of_lt_succ (by omega : c.toNat < '9'.toNat + 1)⟩
  rw [IsDigitOf, numbered.ordinary, range]
  simp

theorem writtenIn_of_digits (numbered : tables.Numbered) {text : List Char}
    (digits : Digits text) : tables.WrittenIn latin text :=
  fun c member _ => (isDigitOf_latin numbered).mpr (digits c member)

theorem toNat_ofNat {code : Nat} (valid : code.isValidChar) : (Char.ofNat code).toNat = code := by
  rw [Char.ofNat, dif_pos valid]
  rfl

/-- Respelling takes an ordinary digit to a digit of the system and leaves all else as it is. -/
theorem respellDigit_spec (numbered : tables.Numbered)
    (known : tables.zeroDigit? system = some zero) (c : Char) :
    c.isDigit = true ∧ tables.IsDigitOf system (Format.respellDigit zero c) ∨
      c.isDigit = false ∧ Format.respellDigit zero c = c := by
  unfold Format.respellDigit Format.digitValue?
  cases digit : c.isDigit with
  | false => exact Or.inr ⟨rfl, rfl⟩
  | true =>
      left
      have bounds := Decimal.toNat_of_isDigit digit
      have nine : '9'.toNat + 1 = '0'.toNat + 10 := by decide
      have valid := numbered.valid known (c.toNat - '0'.toNat) (by omega)
      simp only [if_true, if_pos valid]
      refine ⟨trivial, zero, known, ?_⟩
      rw [toNat_ofNat valid]
      omega

theorem writtenIn_respell (numbered : tables.Numbered)
    (known : tables.zeroDigit? system = some zero) {text : List Char}
    (written : tables.WrittenIn latin text) :
    tables.WrittenIn system (Format.respell zero text) := by
  intro c member digit
  rw [Format.respell, List.mem_map] at member
  obtain ⟨before, inside, rfl⟩ := member
  rcases respellDigit_spec numbered known before with ⟨_, respelled⟩ | ⟨other, kept⟩
  · exact respelled
  · rw [kept] at digit
    rw [(isDigitOf_latin numbered).mp (written before inside digit)] at other
    cases other

/-- A text in other than ordinary digits has nothing to respell. -/
theorem respell_of_writtenIn (numbered : tables.Numbered) (other : system ≠ latin)
    {text : List Char} (written : tables.WrittenIn system text) (zero : Char) :
    Format.respell zero text = text := by
  have unchanged : ∀ c ∈ text, Format.respellDigit zero c = c := by
    intro c member
    unfold Format.respellDigit Format.digitValue?
    cases digit : c.isDigit with
    | false => rfl
    | true =>
        obtain ⟨own, known, least, _⟩ :=
          written c member ⟨latin, (isDigitOf_latin numbered).mpr digit⟩
        have above := (numbered.apart known).resolve_left other
        have bounds := Decimal.toNat_of_isDigit digit
        omega
  rw [Format.respell, List.map_congr_left unchanged, List.map_id']

end Tables

namespace Format

/-! ## Digits of formatted numbers -/

/-- The symbols of a locale that stand among the digits of a number. -/
def innerSymbols (locale : Locale) : List Char :=
  locale.decimalPoint :: locale.groupSeparator ::
    (locale.minusSign.toList ++ locale.exponentSymbol.toList ++ locale.nanSymbol.toList ++
      locale.infinitySymbol.toList ++ locale.compactShort.flatMap String.toList ++
      locale.compactLong.flatMap String.toList)

/-- The symbols of a locale that numbers without a currency or a measure unit are wrapped in. -/
def outerSymbols (locale : Locale) : List Char :=
  locale.minusSign.toList ++ locale.plusSign.toList ++ Text.fill [] locale.percentPattern.toList

/-- The numbering system a locale writes its numbers in. -/
def ownSystem (locale : Locale) : String :=
  locale.numberingSystem.getD latin

/-- A locale whose symbols bring no digits of foreign numbering systems into a number. -/
structure Unmixed (tables : Tables) (locale : Locale) : Prop where
  known : ∀ system, locale.numberingSystem = some system →
    system ≠ latin ∧ (tables.zeroDigit? system).isSome
  inner : tables.WrittenIn latin (innerSymbols locale)
  outer : tables.WrittenIn (ownSystem locale) (outerSymbols locale)

/-- Options that show neither an amount of money nor a measure. -/
structure Uncounted (options : Options) : Prop where
  currency : options.style ≠ some .currency
  measure : options.style ≠ some .unit

theorem mem_grouped {separator c : Char} {digits : List Char}
    (member : c ∈ Decimal.grouped separator digits) : c = separator ∨ c ∈ digits := by
  induction digits with
  | nil => exact absurd member List.not_mem_nil
  | cons digit rest ih =>
      have later (found : c ∈ Decimal.grouped separator rest) : c = separator ∨ c ∈ digit :: rest :=
        (ih found).imp_right (List.mem_cons_of_mem digit)
      unfold Decimal.grouped at member
      split at member
      · rcases List.mem_cons.mp member with rfl | found
        · exact Or.inr List.mem_cons_self
        · rcases List.mem_cons.mp found with rfl | found
          · exact Or.inl rfl
          · exact later found
      · rcases List.mem_cons.mp member with rfl | found
        · exact Or.inr List.mem_cons_self
        · exact later found

theorem mem_fill {value template : List Char} {c : Char} (member : c ∈ Text.fill value template) :
    c ∈ value ∨ c ∈ Text.fill [] template := by
  induction template using Text.fill.induct with
  | case1 rest ih =>
      rw [Text.fill, List.mem_append] at member
      rcases member with inside | later
      · exact Or.inl inside
      · exact (ih later).imp_right id
  | case2 d rest plain ih =>
      rw [Text.fill, List.mem_cons] at member
      · rcases member with rfl | later
        · right
          rw [Text.fill]
          · exact List.mem_cons_self
          · exact plain
        · rcases ih later with inside | behind
          · exact Or.inl inside
          · right
            rw [Text.fill]
            · exact List.mem_cons_of_mem _ behind
            · exact plain
      · exact plain
  | case3 => exact absurd member List.not_mem_nil

variable {tables : Tables} {locale : Locale}

/-- A rounded decimal is shown in ordinary digits, with separators and a point between them. -/
theorem mem_digitText {rule : DigitRule} {grouping : Bool} {d : Decimal} {c : Char}
    (member : c ∈ digitText locale rule grouping d) :
    c.isDigit = true ∨ c = locale.groupSeparator ∨ c = locale.decimalPoint := by
  have whole : Digits (rule.wholeDigits d) := d.digits_wholeDigits _
  have fraction : Digits (rule.fractionDigits d) := d.digits_fractionDigits _
  unfold digitText at member
  rcases List.mem_append.mp member with front | back
  · split at front
    · rcases mem_grouped front with separator | found
      · exact Or.inr (Or.inl separator)
      · exact Or.inl (whole c found)
    · exact Or.inl (whole c front)
  · split at back
    · cases back
    · rcases List.mem_cons.mp back with point | found
      · exact Or.inr (Or.inr point)
      · exact Or.inl (fraction c found)

section Inner

variable (numbered : tables.Numbered) (unmixed : Unmixed tables locale)

include unmixed in
theorem writtenIn_symbols {text : List Char} (inside : ∀ c ∈ text, c ∈ innerSymbols locale) :
    tables.WrittenIn latin text :=
  unmixed.inner.of_subset inside

include numbered unmixed

theorem writtenIn_digitText (rule : DigitRule) (grouping : Bool) (d : Decimal) :
    tables.WrittenIn latin (digitText locale rule grouping d) := by
  intro c member digit
  rcases mem_digitText member with ordinary | rfl | rfl
  · exact (Tables.isDigitOf_latin numbered).mpr ordinary
  · exact unmixed.inner _ (by simp [innerSymbols]) digit
  · exact unmixed.inner _ (by simp [innerSymbols]) digit

theorem writtenIn_exponentText (exponent : Int) :
    tables.WrittenIn latin (exponentText locale exponent) := by
  refine Tables.writtenIn_append (Tables.writtenIn_append ?_ ?_) ?_
  · exact writtenIn_symbols unmixed (fun c found => by simp [found, innerSymbols])
  · split
    · exact writtenIn_symbols unmixed (fun c found => by simp [found, innerSymbols])
    · exact Tables.writtenIn_nil
  · exact Tables.writtenIn_of_digits numbered
      (fun _ found => Nat.isDigit_of_mem_toDigits (by decide) (by decide) found)

omit numbered in
theorem writtenIn_tierName {names : List String} (tier : Nat)
    (inside : ∀ c ∈ names.flatMap String.toList, c ∈ innerSymbols locale) :
    tables.WrittenIn latin (tierName names tier).toList := by
  refine writtenIn_symbols unmixed (fun c found => inside c ?_)
  cases tier with
  | zero => simp [tierName] at found
  | succ tier =>
      rw [tierName] at found
      cases named : names[tier]? with
      | none => simp [named] at found
      | some name =>
          rw [named] at found
          exact List.mem_flatMap.mpr ⟨name, List.mem_of_getElem? named, found⟩

theorem writtenIn_showDecimal (options : Options) (d : Decimal) :
    tables.WrittenIn latin (showDecimal tables locale options d).text := by
  have digits := writtenIn_digitText numbered unmixed
  have power := writtenIn_exponentText numbered unmixed
  unfold showDecimal
  dsimp only
  split
  · exact digits _ _ _
  · exact Tables.writtenIn_append (digits _ _ _) (power _)
  · exact Tables.writtenIn_append (digits _ _ _) (power _)
  · refine Tables.writtenIn_append (digits _ _ _) (writtenIn_tierName unmixed _ ?_)
    split
    · exact fun c found => by simp_all [innerSymbols]
    · exact fun c found => by simp_all [innerSymbols]

theorem writtenIn_showValue (options : Options) (value : Binary64) :
    tables.WrittenIn latin (showValue tables locale options value).1 := by
  cases value with
  | nan =>
      have inside : ∀ c ∈ locale.nanSymbol.toList, c ∈ innerSymbols locale :=
        fun c found => by simp [innerSymbols, found]
      exact writtenIn_symbols unmixed inside
  | infinite negative =>
      have inside : ∀ c ∈ locale.infinitySymbol.toList, c ∈ innerSymbols locale :=
        fun c found => by simp [innerSymbols, found]
      exact writtenIn_symbols unmixed inside
  | finite negative m => exact writtenIn_showDecimal numbered unmixed options _

theorem writtenIn_localize {text : List Char} (written : tables.WrittenIn latin text) :
    tables.WrittenIn (ownSystem locale) (localize tables locale text) := by
  unfold localize ownSystem
  cases own : locale.numberingSystem with
  | none => exact written
  | some system =>
      obtain ⟨zero, known⟩ := Option.isSome_iff_exists.mp (unmixed.known system own).2
      rw [Option.bind_some, known]
      exact Tables.writtenIn_respell numbered known written

omit numbered in
theorem writtenIn_wrap {options : Options} (uncounted : Uncounted options) {text : List Char}
    (written : tables.WrittenIn (ownSystem locale) text) :
    tables.WrittenIn (ownSystem locale) (wrap tables locale options text) := by
  unfold wrap
  split
  · exact absurd (by assumption) uncounted.currency
  · intro c member digit
    rcases mem_fill member with inside | pattern
    · exact written c inside digit
    · exact unmixed.outer c (by simp [outerSymbols, pattern]) digit
  · exact absurd (by assumption) uncounted.measure
  · exact written

omit numbered in
theorem writtenIn_withSign {text : List Char} (mark : SignMark)
    (written : tables.WrittenIn (ownSystem locale) text) :
    tables.WrittenIn (ownSystem locale) (withSign locale false text mark) := by
  cases mark with
  | none => exact written
  | plus =>
      exact Tables.writtenIn_append
        (unmixed.outer.of_subset (fun c found => by simp [outerSymbols, found])) written
  | minus =>
      exact Tables.writtenIn_append
        (unmixed.outer.of_subset (fun c found => by simp [outerSymbols, found])) written

/-- A formatter writes in the numbering system of its locale, and in ordinary digits otherwise. -/
theorem writtenIn_number {options : Options} (uncounted : Uncounted options) (value : Binary64) :
    tables.WrittenIn (ownSystem locale) (number tables locale options value) := by
  have noMoney : (options.style == some .currency) = false := by
    rw [beq_eq_false_iff_ne]
    exact uncounted.currency
  unfold number
  rw [noMoney]
  exact writtenIn_withSign unmixed _ (writtenIn_wrap unmixed uncounted
    (writtenIn_localize numbered unmixed (writtenIn_showValue numbered unmixed options value)))

end Inner

end Format

namespace Tables

/-! ## The tables of the library -/

/-- Whether a character is a digit of some numbering system of the library. -/
def isNumeral (c : Char) : Bool :=
  BuiltIn.zeroDigits.any
    (fun entry => entry.2.toNat ≤ c.toNat && c.toNat < entry.2.toNat + 10)

theorem isNumeral_of_isDigitOf {system : String} {c : Char}
    (digit : builtIn.IsDigitOf system c) : isNumeral c = true := by
  obtain ⟨zero, known, least, greatest⟩ := digit
  exact List.any_eq_true.mpr ⟨_, mem_of_lookup known, by simp [least, greatest]⟩

theorem numbered_builtIn : builtIn.Numbered where
  ordinary := by decide
  apart := by
    intro system zero known
    have all : ∀ entry ∈ BuiltIn.zeroDigits,
        entry.1 = latin ∨ '9'.toNat < entry.2.toNat := by decide
    exact all _ (mem_of_lookup known)
  valid := by
    intro system zero known
    have all : ∀ entry ∈ BuiltIn.zeroDigits, ∀ value < 10,
        (entry.2.toNat + value).isValidChar := by decide
    exact all _ (mem_of_lookup known)

/-- A check that the symbols of a locale are free of digits from foreign numbering systems. -/
def unmixed (locale : Locale) : Bool :=
  (Format.innerSymbols locale).all (fun c => c.isDigit || !isNumeral c) &&
    match locale.numberingSystem with
    | none => (Format.outerSymbols locale).all (fun c => c.isDigit || !isNumeral c)
    | some system => system != latin && (builtIn.zeroDigit? system).isSome &&
        (Format.outerSymbols locale).all (fun c => !isNumeral c)

theorem unmixed_sound {locale : Locale} (checked : unmixed locale = true) :
    Format.Unmixed builtIn locale := by
  have ordinaryOnly {symbols : List Char} {system : String} (ordinary : system = latin)
      (all : symbols.all (fun c => c.isDigit || !isNumeral c) = true) :
      builtIn.WrittenIn system symbols := by
    intro c member ⟨other, digit⟩
    have fine := List.all_eq_true.mp all c member
    rw [isNumeral_of_isDigitOf digit, Bool.not_true, Bool.or_false] at fine
    rw [ordinary]
    exact (isDigitOf_latin numbered_builtIn).mpr fine
  rw [unmixed, Bool.and_eq_true] at checked
  cases own : locale.numberingSystem with
  | none =>
      rw [own] at checked
      refine ⟨?_, ordinaryOnly rfl checked.1, ordinaryOnly ?_ checked.2⟩
      · intro system some
        rw [own] at some
        cases some
      · rw [Format.ownSystem, own]
        rfl
  | some system =>
      rw [own] at checked
      simp only [Bool.and_eq_true, bne_iff_ne, ne_eq] at checked
      refine ⟨?_, ordinaryOnly rfl checked.1, ?_⟩
      · intro other same
        rw [own, Option.some.injEq] at same
        exact same ▸ checked.2.1
      · intro c member ⟨other, digit⟩
        have fine := List.all_eq_true.mp checked.2.2 c member
        rw [isNumeral_of_isDigitOf digit] at fine
        cases fine

/-- A tag names a locale of the library by its language, or else it is given the English one. -/
theorem localeOrEnglish_builtIn (tag : String) :
    ∃ name, (name, builtIn.localeOrEnglish tag) ∈ builtIn.locales ∧
      (name = language tag ∨ name = "en" ∧ builtIn.locales.lookup (language tag) = none) := by
  have languages : ∀ entry ∈ builtIn.locales, language entry.1 = entry.1 := by decide +kernel
  have english : ("en", (builtIn.locale? "en").getD Locale.standard) ∈ builtIn.locales := by
    decide +kernel
  unfold localeOrEnglish
  cases found : builtIn.locale? tag with
  | some locale =>
      rw [locale?, Option.orElse_eq_some] at found
      rcases found with whole | ⟨_, byLanguage⟩
      · exact ⟨tag, mem_of_lookup whole, Or.inl (languages _ (mem_of_lookup whole)).symm⟩
      · exact ⟨language tag, mem_of_lookup byLanguage, Or.inl rfl⟩
  | none =>
      rw [locale?, Option.orElse_eq_none] at found
      exact ⟨"en", english, Or.inr ⟨rfl, found.2⟩⟩

/-- What holds of all locales of the library holds of the one that a tag gives. -/
theorem checked_builtIn {check : Locale → Bool}
    (all : ∀ entry ∈ builtIn.locales, check entry.2 = true) (tag : String) :
    check (builtIn.localeOrEnglish tag) = true := by
  obtain ⟨name, listed, _⟩ := localeOrEnglish_builtIn tag
  exact all (name, _) listed

theorem unmixed_builtIn (tag : String) : Format.Unmixed builtIn (builtIn.localeOrEnglish tag) :=
  unmixed_sound (checked_builtIn (by decide +kernel) tag)

/-- The numbering system of the locales of the library, by the language a tag names. -/
def systemOfLanguage (language : String) : Option String :=
  if language = "ar" then some "arab" else none

theorem numberingSystem_builtIn (tag : String) :
    (builtIn.localeOrEnglish tag).numberingSystem = systemOfLanguage (language tag) := by
  have all : ∀ entry ∈ builtIn.locales,
      entry.2.numberingSystem = systemOfLanguage entry.1 := by decide +kernel
  have arabic : (builtIn.locales.lookup "ar").isSome := by decide +kernel
  obtain ⟨name, listed, named⟩ := localeOrEnglish_builtIn tag
  rw [all _ listed]
  rcases named with own | ⟨english, missing⟩
  · rw [own]
  · have other : language tag ≠ "ar" := by
      intro same
      rw [← same, missing] at arabic
      cases arabic
    rw [english, systemOfLanguage, systemOfLanguage, if_neg other]
    rfl

end Tables

namespace Skeleton

/-! ## Digits of formatted values -/

/-- A skeleton that counts neither money nor measures. -/
structure Uncounted (s : Skeleton) : Prop where
  currency : ∀ code, s.unit ≠ some (.currency code)
  measure : ∀ id, s.unit ≠ some (.measure id)

theorem uncounted_optionsOf {s : Skeleton} (uncounted : s.Uncounted) :
    Format.Uncounted (Plan.optionsOf s) := by
  have different : (Plan.optionsOf s).style ≠ some .currency ∧
      (Plan.optionsOf s).style ≠ some .unit := by
    rw [style_optionsOf]
    rcases chosen : s.unit with _ | unit
    · exact ⟨nofun, nofun⟩
    · cases unit with
      | currency code => exact absurd chosen (uncounted.currency code)
      | measure id => exact absurd chosen (uncounted.measure id)
      | _ => exact ⟨nofun, nofun⟩
  exact ⟨different.1, different.2⟩

/-- Which digits a text has, given the system of its locale and the one that its skeleton names. -/
structure DecidesDigits (tables : Tables) (own : Option String) (system : String)
    (text : List Char) : Prop where
  decides : own = none → tables.WrittenIn system text
  ordinary : system = latin → tables.WrittenIn (own.getD latin) text
  noOther : ∀ c ∈ text, (∃ other, tables.IsDigitOf other c) →
    tables.IsDigitOf system c ∨ ∃ foreign, own = some foreign ∧ tables.IsDigitOf foreign c

theorem decidesDigits_of_written {tables : Tables} {own : Option String} {system : String}
    {text : List Char} (written : tables.WrittenIn (own.getD system) text) :
    DecidesDigits tables own system text := by
  refine ⟨?_, ?_, ?_⟩
  · rintro rfl
    exact written
  · rintro rfl
    exact written
  · intro c member digit
    have inside := written c member digit
    cases own with
    | none => exact Or.inl inside
    | some foreign => exact Or.inr ⟨foreign, rfl, inside⟩

/--
A numbering system that a skeleton names decides the digits of every value in every language but
Arabic.  To name the ordinary digits changes nothing, so Arabic keeps its own then, and it never has
others than its own and those named.
-/
theorem decidesDigits_formatted {text : List Char} {system : String}
    (chosen : (read text).result.numberingSystem = some system)
    (known : (Tables.builtIn.zeroDigit? system).isSome) (uncounted : (read text).result.Uncounted)
    (tag : String) (value : Binary64) :
    DecidesDigits Tables.builtIn (Tables.systemOfLanguage (Tables.language tag)) system
      ((read text).result.formatted [] tag value).toList := by
  have numbered := Tables.numbered_builtIn
  have unmixed := Tables.unmixed_builtIn tag
  obtain ⟨zero, found⟩ := Option.isSome_iff_exists.mp known
  have number : Tables.builtIn.WrittenIn _ ((read text).result.shown [] tag value) :=
    Format.writtenIn_number numbered unmixed (uncounted_optionsOf uncounted) _
  rw [← Tables.numberingSystem_builtIn, toList_formatted (affix_read text), chosen,
    Option.bind_some, Plan.zeroDigit?, found]
  generalize (read text).result.shown [] tag value = digits at number ⊢
  rw [Format.ownSystem] at number
  apply decidesDigits_of_written
  cases own : (Tables.builtIn.localeOrEnglish tag).numberingSystem with
  | none =>
      rw [own] at number
      by_cases ordinary : system = latin
      · rw [if_pos ordinary, ordinary]
        exact number
      · rw [if_neg ordinary]
        exact Tables.writtenIn_respell numbered found number
  | some foreign =>
      rw [own] at number
      have kept := Tables.respell_of_writtenIn numbered (unmixed.known foreign own).1 number
      split
      · rw [kept]
        exact number
      · exact number

/-- A number in Thai digits with the separators of German. -/
theorem decidesDigits_formatted_german :
    ((read "numbering-system/thai .00".toList).result.numberingSystem = some "thai" ∧
      (Tables.builtIn.zeroDigit? "thai").isSome ∧
      (read "numbering-system/thai .00".toList).result.Uncounted) ∧
    DecidesDigits Tables.builtIn none "thai" "๑.๒๓๔,๕๐".toList := by
  have chosen : (read "numbering-system/thai .00".toList).result.numberingSystem =
      some "thai" := by decide +kernel
  have known : (Tables.builtIn.zeroDigit? "thai").isSome := by decide
  have unit : (read "numbering-system/thai .00".toList).result.unit = none := by decide +kernel
  have uncounted : (read "numbering-system/thai .00".toList).result.Uncounted :=
    ⟨fun _ => by rw [unit]; nofun, fun _ => by rw [unit]; nofun⟩
  have decided := decidesDigits_formatted chosen known uncounted "de"
    ((Binary64.read? "1234.5".toList).getD .nan)
  have german : Tables.systemOfLanguage (Tables.language "de") = none := by decide +kernel
  have shown : (read "numbering-system/thai .00".toList).result.formatted [] "de"
      ((Binary64.read? "1234.5".toList).getD .nan) = "๑.๒๓๔,๕๐" := by decide +kernel
  rw [german, shown] at decided
  exact ⟨⟨chosen, known, uncounted⟩, decided⟩

/-- Arabic keeps its own digits where a skeleton names the ordinary ones. -/
theorem arabic_keeps_digits :
    (read "numbering-system/latn".toList).result.numberingSystem = some latin ∧
      (read "numbering-system/latn".toList).result.unit = none ∧
      (read "numbering-system/latn".toList).result.formatted [] "ar"
        ((Binary64.read? "42".toList).getD .nan) = "٤٢" ∧
      ¬ Tables.builtIn.WrittenIn latin "٤٢".toList := by
  refine ⟨by decide +kernel, by decide +kernel, by decide +kernel, fun written => ?_⟩
  have arabic : Tables.builtIn.IsDigitOf "arab" '٤' := ⟨'\u0660', by decide⟩
  have ordinary := written '٤' (by decide) ⟨_, arabic⟩
  rw [Tables.isDigitOf_latin Tables.numbered_builtIn] at ordinary
  revert ordinary
  decide

end Skeleton
end NumberFormat
