import NumberFormat.Proofs.Pattern.Parts
import NumberFormat.Proofs.Plan.Formatting

namespace NumberFormat
namespace Pattern

open Text

/-!
Quoted text in patterns.

Every text can be quoted, and then stands before or behind the number as it is.  Apostrophes at
its front become tokens of their own, since a pair of apostrophes is taken as one apostrophe
before a quotation is looked for.
-/

/-! ## Quoted text -/

/-- A text with every apostrophe twice. -/
def doubled (text : List Char) : List Char :=
  text.flatMap (fun c => if c = '\'' then ['\'', '\''] else [c])

/-- A text as it is quoted in a pattern.  A text of apostrophes alone stands between no others. -/
def quotedForm (text : List Char) : List Char :=
  if text.all (· == '\'') then doubled text else '\'' :: (doubled text ++ ['\''])

/-- The tokens of a text that is quoted. -/
def quotedTokens : List Char → List Token
  | [] => []
  | c :: rest =>
      if c = '\'' then .literal '\'' :: quotedTokens rest else [.quoted (c :: rest)]

theorem doubled_apostrophe (text : List Char) :
    doubled ('\'' :: text) = '\'' :: '\'' :: doubled text :=
  rfl

theorem doubled_cons {c : Char} (other : c ≠ '\'') (text : List Char) :
    doubled (c :: text) = c :: doubled text := by
  rw [doubled, List.flatMap_cons, if_neg other]
  rfl

/-- A text with doubled apostrophes is read up to the single one behind it. -/
theorem takeQuoted_doubled (text : List Char) {rest : List Char}
    (stop : StopsBefore (· == '\'') rest) :
    takeQuoted (doubled text ++ '\'' :: rest) = (text, some rest) := by
  induction text with
  | nil =>
      cases rest with
      | nil => rfl
      | cons c rest =>
          have other : c ≠ '\'' := beq_eq_false_iff_ne.mp (stop c rfl)
          simp [doubled, takeQuoted, other]
  | cons c text ih =>
      by_cases apostrophe : c = '\''
      · subst apostrophe
        rw [doubled_apostrophe, List.cons_append, List.cons_append, takeQuoted, ih]
      · rw [doubled_cons apostrophe, List.cons_append, takeQuoted, ih]
        · rintro more rfl
          exact absurd rfl apostrophe
        · exact apostrophe

theorem quotedForm_apostrophe (text : List Char) :
    quotedForm ('\'' :: text) = '\'' :: '\'' :: quotedForm text := by
  unfold quotedForm
  rw [List.all_cons, beq_self_eq_true, Bool.true_and, doubled_apostrophe]
  split <;> rfl

theorem quotedForm_cons {c : Char} (other : c ≠ '\'') (text : List Char) :
    quotedForm (c :: text) = '\'' :: (doubled (c :: text) ++ ['\'']) := by
  unfold quotedForm
  rw [List.all_cons, beq_eq_false_iff_ne.mpr other, Bool.false_and]
  rfl

theorem takeToken_quoted {text rest : List Char} {c : Char} (other : c ≠ '\'')
    (stop : StopsBefore (· == '\'') rest) :
    takeToken '\'' (doubled (c :: text) ++ '\'' :: rest) = (.quoted (c :: text), rest) := by
  have read := takeQuoted_doubled (c :: text) stop
  rw [doubled_cons other, List.cons_append] at read ⊢
  unfold takeToken
  simp only
  split
  · rename_i equal
    cases equal
    exact absurd rfl other
  · rw [read]

/-- A quoted text has its tokens before every text that does not go on with an apostrophe. -/
theorem tokens_quotedForm (text : List Char) {rest : List Char}
    (stop : StopsBefore (· == '\'') rest) :
    tokens (quotedForm text ++ rest) = quotedTokens text ++ tokens rest := by
  induction text with
  | nil => rfl
  | cons c text ih =>
      by_cases apostrophe : c = '\''
      · subst apostrophe
        rw [quotedForm_apostrophe, quotedTokens, if_pos rfl, List.cons_append, List.cons_append,
          tokens_cons, List.cons_append]
        exact congrArg _ ih
      · rw [quotedForm_cons apostrophe, quotedTokens, if_neg apostrophe, List.cons_append,
          List.append_assoc, List.singleton_append, tokens_cons, takeToken_quoted apostrophe stop]
        rfl

theorem quotedForm_stops (text : List Char) {rest : List Char}
    (stop : StopsBefore isRunCharacter rest) :
    StopsBefore isRunCharacter (quotedForm text ++ rest) := by
  cases text with
  | nil => exact stop
  | cons c text =>
      by_cases apostrophe : c = '\''
      · subst apostrophe
        rw [quotedForm_apostrophe]
        exact stopsBefore_cons rfl
      · rw [quotedForm_cons apostrophe]
        exact stopsBefore_cons rfl

/-- A token that stands for text and ends none of it early. -/
theorem text_of_mem_quotedTokens {text : List Char} {token : Token}
    (member : token ∈ quotedTokens text) :
    token.isPlaceholder = false ∧ token ≠ .separator ∧ unterminated? token = none := by
  induction text with
  | nil => cases member
  | cons c text ih =>
      rw [quotedTokens] at member
      split at member
      · rcases List.mem_cons.mp member with rfl | later
        · exact ⟨rfl, nofun, rfl⟩
        · exact ih later
      · rw [List.mem_singleton.mp member]
        exact ⟨rfl, nofun, rfl⟩

/-- What is quoted is shown as it is. -/
theorem literalTexts_quotedTokens (side : Side) (text : List Char) :
    literalTexts side (quotedTokens text) = String.ofList text := by
  have characters : (quotedTokens text).flatMap (literalText side) = text := by
    induction text with
    | nil => rfl
    | cons c text ih =>
        rw [quotedTokens]
        split
        · rename_i apostrophe
          rw [List.flatMap_cons, ih, apostrophe]
          rfl
        · rw [List.flatMap_singleton]
          rfl
  rw [literalTexts, characters]

/-! ## Text around a number -/

/-- The tokens up to the first placeholder. -/
theorem takeWhile_text {front middle back : List Token}
    (texts : ∀ token ∈ front, token.isPlaceholder = false)
    (placeholders : ∀ token ∈ middle, token.isPlaceholder = true) (some : middle ≠ []) :
    (front ++ middle ++ back).takeWhile (fun token => !token.isPlaceholder) = front := by
  have outside : ∀ token ∈ front, (!token.isPlaceholder) = true := by
    intro token member
    rw [texts token member]
    rfl
  rcases List.exists_cons_of_ne_nil some with ⟨first, others, rfl⟩
  have inside := placeholders first List.mem_cons_self
  rw [List.append_assoc, List.takeWhile_append_of_pos outside, List.cons_append,
    List.takeWhile_cons, inside, Bool.not_true, if_neg Bool.false_ne_true, List.append_nil]

/-- Tokens with quoted text before and behind them. -/
def enclosed (before : List Char) (middle : List Token) (after : List Char) : List Token :=
  quotedTokens before ++ middle ++ quotedTokens after

section

variable {middle : List Token} (placeholders : ∀ token ∈ middle, token.isPlaceholder = true)
  (before after : List Char)

include placeholders

theorem filter_enclosed :
    (enclosed before middle after).filter Token.isPlaceholder = middle := by
  have quoted (text : List Char) : (quotedTokens text).filter Token.isPlaceholder = [] := by
    rw [List.filter_eq_nil_iff]
    intro token member
    rw [(text_of_mem_quotedTokens member).1]
    exact Bool.false_ne_true
  rw [enclosed, List.filter_append, List.filter_append, quoted, quoted, List.nil_append,
    List.append_nil, List.filter_eq_self.mpr placeholders]

theorem separator_notMem_enclosed : .separator ∉ enclosed before middle after := by
  intro member
  rw [enclosed, List.mem_append, List.mem_append] at member
  rcases member with (front | inside) | back
  · exact (text_of_mem_quotedTokens front).2.1 rfl
  · cases placeholders _ inside
  · exact (text_of_mem_quotedTokens back).2.1 rfl

theorem units_enclosed (currency : Option String) :
    units currency (enclosed before middle after) = units currency middle := by
  rw [← units_filter, filter_enclosed placeholders]

theorem ofTokens_enclosed :
    NumberRun.ofTokens (enclosed before middle after) = NumberRun.ofTokens middle := by
  rw [← ofTokens_filter, filter_enclosed placeholders]

/-- The text around the number is what was quoted. -/
theorem surround_enclosed (some : middle ≠ []) (side : Side) :
    surround side (enclosed before middle after) =
      .ok ⟨String.ofList before, String.ofList after⟩ := by
  have terminated : (enclosed before middle after).findSome? unterminated? = none := by
    rw [List.findSome?_eq_none_iff]
    intro token member
    rw [enclosed, List.mem_append, List.mem_append] at member
    rcases member with (front | inside) | back
    · exact (text_of_mem_quotedTokens front).2.2
    · cases token <;> first | rfl | cases placeholders _ inside
    · exact (text_of_mem_quotedTokens back).2.2
  have front : (enclosed before middle after).takeWhile (fun token => !token.isPlaceholder) =
      quotedTokens before :=
    takeWhile_text (fun _ member => (text_of_mem_quotedTokens member).1) placeholders some
  -- Read from the end, the tokens are text before placeholders once more.
  have back : (enclosed before middle after).reverse.takeWhile
      (fun token => !token.isPlaceholder) = (quotedTokens after).reverse := by
    rw [enclosed, List.reverse_append, List.reverse_append, ← List.append_assoc]
    refine takeWhile_text ?_ ?_ (mt List.reverse_eq_nil_iff.mp some)
    · exact fun _ member => (text_of_mem_quotedTokens (List.mem_reverse.mp member)).1
    · exact fun token member => placeholders token (List.mem_reverse.mp member)
  have notAll : (enclosed before middle after).all (fun token => !token.isPlaceholder) = false := by
    rcases List.exists_mem_of_ne_nil middle some with ⟨token, inside⟩
    rw [List.all_eq_false]
    refine ⟨token, ?_, ?_⟩
    · rw [enclosed, List.mem_append, List.mem_append]
      exact Or.inl (Or.inr inside)
    · rw [placeholders token inside]
      exact Bool.false_ne_true
  unfold surround
  rw [terminated]
  simp only [front, back, notAll, List.reverse_reverse, literalTexts_quotedTokens,
    Bool.false_eq_true, if_false]

end

/-! ## Whole patterns -/

/-- A pattern of a number with quoted text before and behind it. -/
def quotedPattern (before number after : List Char) : List Char :=
  quotedForm before ++ number ++ quotedForm after

theorem apostropheStops_of_placeholders {number : List Char} (nonempty : number ≠ [])
    (placeholders : ∀ token ∈ tokens number, token.isPlaceholder = true) (rest : List Char) :
    StopsBefore (· == '\'') (number ++ rest) := by
  rcases List.exists_cons_of_ne_nil nonempty with ⟨c, others, rfl⟩
  refine stopsBefore_cons (beq_eq_false_iff_ne.mpr ?_)
  rintro rfl
  rw [tokens_cons] at placeholders
  have first := placeholders _ List.mem_cons_self
  unfold takeToken at first
  simp only at first
  split at first
  · cases first
  · split at first <;> cases first

theorem tokens_quotedPattern {number : List Char} (nonempty : number ≠ [])
    (placeholders : ∀ token ∈ tokens number, token.isPlaceholder = true)
    (before after : List Char) {rest : List Char} (ends : StopsBefore isRunCharacter rest)
    (closed : StopsBefore (· == '\'') rest) :
    tokens (quotedPattern before number after ++ rest) =
      enclosed before (tokens number) after ++ tokens rest := by
  have opened := apostropheStops_of_placeholders nonempty placeholders (quotedForm after ++ rest)
  rw [quotedPattern, List.append_assoc, List.append_assoc, tokens_quotedForm before opened,
    tokens_append placeholders (quotedForm_stops after ends), tokens_quotedForm after closed,
    enclosed, List.append_assoc, List.append_assoc]

theorem tokens_ne_nil {text : List Char} (nonempty : text ≠ []) : tokens text ≠ [] := by
  rcases List.exists_cons_of_ne_nil nonempty with ⟨c, rest, rfl⟩
  rw [tokens_cons]
  exact List.cons_ne_nil _ _

namespace Token

/-- Whether a token stands for a unit. -/
def isUnit : Token → Bool
  | currency _ => true
  | percent => true
  | permille => true
  | _ => false

theorem isUnit_of_isNumeral {token : Token} (numeral : token.isNumeral = true) :
    token.isUnit = false := by
  cases token <;> first | rfl | cases numeral

end Token

theorem units_unitless (currency : Option String) {tokens : List Token}
    (unitless : ∀ token ∈ tokens, token.isUnit = false) : units currency tokens = .ok [] := by
  induction tokens with
  | nil => rfl
  | cons token tokens ih =>
      have first : unitSettings currency token = .ok [] := by
        cases token <;> first | rfl | cases unitless _ List.mem_cons_self
      have others := ih (fun other member => unitless other (List.mem_cons_of_mem _ member))
      rw [units_cons, first, others]
      rfl

/-- Digits, points, separators and significant digits say nothing about the unit. -/
theorem units_numerals (currency : Option String) {tokens : List Token}
    (numerals : ∀ token ∈ tokens, token.isNumeral = true) : units currency tokens = .ok [] :=
  units_unitless currency
    (fun token member => Token.isUnit_of_isNumeral (numerals token member))

/-- A pattern of placeholders chooses what its units and its number choose. -/
theorem exists_settings_of_read {currency : Option String} {number : List Char} {s : Skeleton}
    (nonempty : number ≠ [])
    (placeholders : ∀ token ∈ tokens number, token.isPlaceholder = true)
    (read : read currency number = .ok s) :
    ∃ settings run, units currency (tokens number) = .ok settings ∧
      NumberRun.ofTokens (tokens number) = .ok run ∧
      s = Skeleton.ofSettings (settings ++ run.settings) := by
  have whole : tokens number = enclosed [] (tokens number) [] := by
    rw [enclosed, quotedTokens, List.nil_append, List.append_nil]
  have one := separator_notMem_enclosed placeholders [] []
  rw [← whole] at one
  rcases parts_of_no_separator one with ⟨positive, negative⟩
  rcases exists_readAs read with ⟨⟨settings, others, run, text, otherText⟩, readAs, rfl⟩
  have unitsRead := readAs.positiveUnits
  have othersRead := readAs.negativeUnits
  have runRead := readAs.run
  have textRead := readAs.positiveText
  rcases readAs.negativeText with ⟨_, _, noText⟩
  rw [positive] at unitsRead runRead textRead
  rw [negative] at othersRead noText
  rw [whole, surround_enclosed placeholders [] [] (tokens_ne_nil nonempty)] at textRead
  cases othersRead
  cases textRead
  cases noText
  refine ⟨settings, run, unitsRead, runRead, ?_⟩
  have bare := Skeleton.with_no_affix
    (Skeleton.affix_ofSettings (settings ++ [] ++ run.settings))
  rw [List.append_nil] at bare
  rw [← bare, Parts.skeleton, Parts.settings, List.append_nil]
  rfl

section

variable {currency : Option String} {number : List Char} {settings : List Setting}
  {run : NumberRun} (nonempty : number ≠ [])
  (placeholders : ∀ token ∈ tokens number, token.isPlaceholder = true)
  (unitsRead : units currency (tokens number) = .ok settings)
  (runRead : NumberRun.ofTokens (tokens number) = .ok run) (before after : List Char)

include nonempty placeholders unitsRead runRead

theorem read_quotedPattern :
    read currency (quotedPattern before number after) =
      .ok { Skeleton.ofSettings (settings ++ run.settings) with
        affix := affix ⟨String.ofList before, String.ofList after⟩ none } := by
  have split := tokens_quotedPattern nonempty placeholders before after stopsBefore_nil
    stopsBefore_nil
  rw [List.append_nil, tokens_nil, List.append_nil] at split
  rcases parts_of_no_separator (separator_notMem_enclosed placeholders before after) with
    ⟨positive, negative⟩
  have parts : ReadAs currency (enclosed before (tokens number) after)
      ⟨settings, [], run, ⟨String.ofList before, String.ofList after⟩, none⟩ := by
    constructor
    · rw [positive, units_enclosed placeholders]
      exact unitsRead
    · rw [negative]
      rfl
    · rw [positive, ofTokens_enclosed placeholders]
      exact runRead
    · rw [positive]
      exact surround_enclosed placeholders before after (tokens_ne_nil nonempty) .positive
    · rw [negative]
      exact ⟨_, rfl, rfl⟩
  rw [read, split, ofTokens_of_readAs parts, Parts.skeleton, Parts.settings, List.append_nil]

/-- The second subpattern gives the text around numbers below zero and nothing else. -/
theorem read_quotedPatterns {other : List Char} (otherNonempty : other ≠ [])
    (numerals : ∀ c ∈ other, isNumeral c = true) (otherBefore otherAfter : List Char) :
    read currency (quotedPattern before number after ++
        ';' :: quotedPattern otherBefore other otherAfter) =
      .ok { Skeleton.ofSettings (settings ++ run.settings) with
        sign := some .never
        affix := some ⟨⟨String.ofList before, String.ofList after⟩,
          some ⟨String.ofList otherBefore, String.ofList otherAfter⟩⟩ } := by
  have otherNumerals := numeral_of_mem_tokens numerals
  have otherPlaceholders : ∀ token ∈ tokens other, token.isPlaceholder = true :=
    fun token member => Token.isPlaceholder_of_isNumeral (otherNumerals token member)
  have second := tokens_quotedPattern otherNonempty otherPlaceholders otherBefore otherAfter
    stopsBefore_nil stopsBefore_nil
  rw [List.append_nil, tokens_nil, List.append_nil] at second
  have split : tokens (quotedPattern before number after ++
      ';' :: quotedPattern otherBefore other otherAfter) =
      enclosed before (tokens number) after ++
        .separator :: enclosed otherBefore (tokens other) otherAfter := by
    rw [tokens_quotedPattern nonempty placeholders before after (stopsBefore_cons rfl)
      (stopsBefore_cons rfl), tokens_cons, ← second]
    rfl
  rcases parts_at_separator (separator_notMem_enclosed placeholders before after)
    (enclosed otherBefore (tokens other) otherAfter) with ⟨positive, negative⟩
  have filled : (enclosed otherBefore (tokens other) otherAfter).isEmpty = false := by
    rw [List.isEmpty_eq_false_iff, enclosed]
    intro empty
    exact tokens_ne_nil otherNonempty
      (List.append_eq_nil_iff.mp (List.append_eq_nil_iff.mp empty).1).2
  have parts : ReadAs currency (enclosed before (tokens number) after ++
      .separator :: enclosed otherBefore (tokens other) otherAfter)
      ⟨settings, [], run, ⟨String.ofList before, String.ofList after⟩,
        some ⟨String.ofList otherBefore, String.ofList otherAfter⟩⟩ := by
    constructor
    · rw [positive, units_enclosed placeholders]
      exact unitsRead
    · rw [negative, units_enclosed otherPlaceholders]
      exact units_numerals currency otherNumerals
    · rw [positive, ofTokens_enclosed placeholders]
      exact runRead
    · rw [positive]
      exact surround_enclosed placeholders before after (tokens_ne_nil nonempty) .positive
    · rw [negative, filled]
      exact ⟨_, surround_enclosed otherPlaceholders otherBefore otherAfter
        (tokens_ne_nil otherNonempty) .negative, rfl⟩
  rw [read, split, ofTokens_of_readAs parts, Parts.skeleton, Parts.settings, List.append_nil]
  rfl

end

/-! ## Formatted values -/

/-- Units and a number choose neither a sign nor text nor anything that comes after formatting. -/
theorem plain_of_unitSettings {currency : Option String} {settings : List Setting}
    (made : ∀ setting ∈ settings, UnitSetting currency setting) (run : NumberRun) :
    (Skeleton.ofSettings (settings ++ run.settings)).Plain := by
  constructor
  · exact Option.map_eq_none_iff.mp (choice?_eq_none made run .sign (by decide))
  · exact Skeleton.affix_ofSettings _
  · exact Option.map_eq_none_iff.mp (choice?_eq_none made run .scale (by decide))
  · exact Option.map_eq_none_iff.mp (choice?_eq_none made run .numberingSystem (by decide))

theorem plain_ofSettings {currency : Option String} {tokens : List Token}
    {settings : List Setting} (unitsRead : units currency tokens = .ok settings)
    (run : NumberRun) : (Skeleton.ofSettings (settings ++ run.settings)).Plain :=
  plain_of_unitSettings (fun _ member => unitSetting_of_mem_units unitsRead member) run

/-- Text without any need for an affix is text with nothing around it. -/
theorem formatted_affix (s : Skeleton) (before after : String) (own : List (String × Locale))
    (locale : String) (value : Binary64) :
    { s with affix := affix ⟨before, after⟩ none }.formatted own locale value =
      before ++ { s with affix := none }.formatted own locale value ++ after := by
  unfold affix
  split
  · rfl
  · rename_i bare
    simp only [Option.isSome_none, Bool.false_or, Bool.or_eq_true, Bool.not_eq_true', not_or,
      Bool.not_eq_false, String.isEmpty_iff] at bare
    rw [bare.1, bare.2, String.empty_append, String.append_empty]

/--
Quoted text stands around numbers as it is.  A number without sign of its own is shown the same
above zero and below, whatever digits the second subpattern has.
-/
theorem formatted_quotedPattern {currency : Option String} {number other : List Char}
    {s : Skeleton} (nonempty : number ≠ [])
    (placeholders : ∀ token ∈ tokens number, token.isPlaceholder = true)
    (translated : read currency number = .ok s) (otherNonempty : other ≠ [])
    (numerals : ∀ c ∈ other, isNumeral c = true)
    (before after otherBefore otherAfter : List Char) :
    ∃ plain signed,
      read currency (quotedPattern before number after) = .ok plain ∧
      read currency (quotedPattern before number after ++
        ';' :: quotedPattern otherBefore other otherAfter) = .ok signed ∧
      ∀ own locale value, value.isPositive = true →
        plain.formatted own locale value =
          String.ofList before ++ s.formatted own locale value ++ String.ofList after ∧
        signed.formatted own locale value =
          String.ofList before ++ s.formatted own locale value ++ String.ofList after ∧
        signed.formatted own locale value.negate =
          String.ofList otherBefore ++ s.formatted own locale value ++
            String.ofList otherAfter := by
  rcases exists_settings_of_read nonempty placeholders translated with
    ⟨settings, run, unitsRead, runRead, rfl⟩
  have plain := plain_ofSettings unitsRead run
  refine ⟨_, _, read_quotedPattern nonempty placeholders unitsRead runRead before after,
    read_quotedPatterns nonempty placeholders unitsRead runRead before after otherNonempty
      numerals otherBefore otherAfter, ?_⟩
  generalize Skeleton.ofSettings (settings ++ run.settings) = s at plain
  intro own locale value positive
  have shown := Skeleton.formatted_positive plain own locale positive
  have aboveZero : value.isNegative = false := Binary64.isNegative_of_isPositive positive
  have belowZero : value.negate.isNegative = true := Binary64.isNegative_negate positive
  have affixed (affix : Affix) (value : Binary64) :
      { s with sign := some .never, affix := some affix }.formatted own locale value =
        affix.around value (s.unsigned own locale value) := by
    have bare : { s with sign := some .never }.affix = none := plain.affix
    rw [← Skeleton.formatted_never plain]
    exact Skeleton.formatted_around bare affix own locale value
  refine ⟨?_, ?_, ?_⟩
  · rw [formatted_affix, Skeleton.with_no_affix plain.affix]
  · rw [affixed, Affix.around, Affix.sideOf, aboveZero, shown]
    rfl
  · rw [affixed, Affix.around, Affix.sideOf, belowZero, Skeleton.unsigned_negate, shown]
    rfl

/--
Text with apostrophes and separators stands around a percentage, and a second number that could
not stand first is passed over.
-/
theorem formatted_quotedPattern_percent :
    (∀ token ∈ tokens "#,##0.0%".toList, token.isPlaceholder = true) ∧
      (∀ c ∈ "0#".toList, isNumeral c = true) ∧
      ∃ plain signed,
        read none "'it''s; '#,##0.0%''".toList = .ok plain ∧
        read none "'it''s; '#,##0.0%'';''''0#'%'".toList = .ok signed ∧
        plain.formatted [] "en" (.ofDecimal false (.scaled 99875 (-3))) = "it's; 99.9%'" ∧
        signed.formatted [] "en" (.ofDecimal false (.scaled 99875 (-3))) = "it's; 99.9%'" ∧
        signed.formatted [] "en" (Binary64.ofDecimal false (.scaled 99875 (-3))).negate =
          "''99.9%%" := by
  have placeholders : ∀ token ∈ tokens "#,##0.0%".toList, token.isPlaceholder = true := by decide
  have numerals : ∀ c ∈ "0#".toList, isNumeral c = true := List.all_eq_true.mp (by decide)
  have translated : ∃ s, read none "#,##0.0%".toList = .ok s ∧
      s.formatted [] "en" (.ofDecimal false (.scaled 99875 (-3))) = "99.9%" := by
    have computed : (read none "#,##0.0%".toList).toOption.map
        (fun s => s.formatted [] "en" (.ofDecimal false (.scaled 99875 (-3)))) = some "99.9%" := by
      decide +kernel
    cases translated : read none "#,##0.0%".toList with
    | error e =>
        rw [translated] at computed
        cases computed
    | ok s =>
        rw [translated] at computed
        exact ⟨s, rfl, Option.some.inj computed⟩
  rcases translated with ⟨s, translated, shown⟩
  rcases formatted_quotedPattern (by decide) placeholders translated (by decide) numerals
    "it's; ".toList "'".toList "''".toList "%".toList with ⟨plain, signed, first, second, formatted⟩
  have values := formatted [] "en" (.ofDecimal false (.scaled 99875 (-3))) (by decide +kernel)
  have around : String.ofList "it's; ".toList ++ "99.9%" ++ String.ofList "'".toList =
      "it's; 99.9%'" := by decide
  have aroundNegative : String.ofList "''".toList ++ "99.9%" ++ String.ofList "%".toList =
      "''99.9%%" := by decide
  rw [shown, around, aroundNegative] at values
  exact ⟨placeholders, numerals, plain, signed, first, second, values⟩

end Pattern
end NumberFormat
