import NumberFormat.Proofs.Pattern.Quotation

namespace NumberFormat
namespace Pattern

open Text

/-!
Numbers from zero up, in patterns with a second subpattern.

The second subpattern gives the text around numbers below zero, and no number that carries no minus
shows anything of that text.  Its unit is another matter: a pattern has one unit only, so that of
the second subpattern holds on both sides.
-/

/-! ## Where a separator is read -/

/-- Whether a text that is read token by token comes to stand before its end, `rest`. -/
inductive ReadsUpTo (rest : List Char) : List Char → Prop where
  | here : ReadsUpTo rest rest
  | next {c : Char} {text : List Char} :
      ReadsUpTo rest (takeToken c text).2 → ReadsUpTo rest (c :: text)

theorem ReadsUpTo.length_le {rest text : List Char} (reads : ReadsUpTo rest text) :
    rest.length ≤ text.length := by
  induction reads with
  | here => exact Nat.le_refl _
  | @next c text _ ih => exact Nat.le_succ_of_le (Nat.le_trans ih (takeToken_shorter c text))

section

variable {text back : List Char}

theorem single_append (single : ∀ more, text = '\'' :: more → False) :
    ∀ more, text ++ ';' :: back = '\'' :: more → False := by
  intro more same
  cases text with
  | nil => cases same
  | cons c text =>
      rw [List.cons_append, List.cons.injEq] at same
      exact single text (by rw [same.1])

/-- A quotation that ends before a separator ends there without what comes behind. -/
theorem takeQuoted_append {quoted rest : List Char}
    (closed : takeQuoted (text ++ ';' :: back) = (quoted, some rest))
    (before : (';' :: back).length ≤ rest.length) :
    ∃ between, takeQuoted text = (quoted, some between) ∧ rest = between ++ ';' :: back := by
  induction text using takeQuoted.induct generalizing quoted with
  | case1 =>
      have shorter := takeQuoted_shorter ([] ++ ';' :: back) rest (by rw [closed]; rfl)
      rw [List.nil_append] at shorter
      omega
  | case2 text ih =>
      rw [List.cons_append, List.cons_append, takeQuoted, Prod.mk.injEq] at closed
      obtain ⟨between, read, rfl⟩ := ih (Prod.ext rfl closed.2)
      refine ⟨between, ?_, rfl⟩
      rw [takeQuoted, read, ← closed.1]
  | case3 text single =>
      rw [List.cons_append, takeQuoted.eq_3 _ (single_append single), Prod.mk.injEq,
        Option.some.injEq] at closed
      rw [takeQuoted.eq_3 _ single, ← closed.1, ← closed.2]
      exact ⟨text, rfl, rfl⟩
  | case4 c text pair other ih =>
      have apart : c ≠ '\'' := other
      rw [List.cons_append, takeQuoted, Prod.mk.injEq] at closed
      · obtain ⟨between, read, rfl⟩ := ih (Prod.ext rfl closed.2)
        refine ⟨between, ?_, rfl⟩
        rw [takeQuoted, read, ← closed.1]
        · exact pair
        · exact other
      · rintro more rfl
        exact absurd rfl apart
      · exact other

theorem takeExponent?_separator (zeroless : takeExponent? text = none) :
    takeExponent? (text ++ ';' :: back) = none := by
  cases text with
  | nil => rfl
  | cons c text =>
      have stop : StopsBefore (· == '0') (';' :: back) := stopsBefore_cons rfl
      rw [takeExponent?_eq, exponentZeros?] at zeroless ⊢
      rw [exponentSign_append (List.cons_ne_nil _ _), takeWhile_append_stop _ stop]
      split at zeroless
      · rfl
      · cases zeroless

/-- The token of a quotation, with what follows. -/
def quotation : List Char × Option (List Char) → Token × List Char
  | (text, some rest) => (.quoted text, rest)
  | (text, none) => (.unterminated text, [])

theorem takeToken_quotation (single : ∀ more, text = '\'' :: more → False) :
    takeToken '\'' text = quotation (takeQuoted text) := by
  unfold takeToken
  simp only
  split
  all_goals
    rename_i read
    rw [read]
    rfl

theorem takeToken_apostrophe
    (before : (';' :: back).length ≤ (takeToken '\'' (text ++ ';' :: back)).2.length) :
    takeToken '\'' (text ++ ';' :: back) =
      ((takeToken '\'' text).1, (takeToken '\'' text).2 ++ ';' :: back) := by
  by_cases pair : ∃ more, text = '\'' :: more
  · obtain ⟨more, rfl⟩ := pair
    rfl
  · have single : ∀ more, text = '\'' :: more → False := fun more same => pair ⟨more, same⟩
    rw [takeToken_quotation (single_append single)] at before ⊢
    rw [takeToken_quotation single]
    cases closed : takeQuoted (text ++ ';' :: back) with
    | mk quoted rest =>
        rw [closed] at before
        cases rest with
        | none => exact absurd before (Nat.not_succ_le_zero _)
        | some rest =>
            obtain ⟨between, read, rfl⟩ := takeQuoted_append closed before
            rw [read]
            rfl

/-- A token that ends before a separator is the same without what comes behind. -/
theorem takeToken_before {c : Char}
    (before : (';' :: back).length ≤ (takeToken c (text ++ ';' :: back)).2.length) :
    takeToken c (text ++ ';' :: back) =
      ((takeToken c text).1, (takeToken c text).2 ++ ';' :: back) := by
  have stop : StopsBefore isRunCharacter (';' :: back) := stopsBefore_cons rfl
  rcases runStops stop with ⟨currency, atSign, hash, zero, digit⟩
  by_cases apostrophe : c = '\''
  · subst apostrophe
    exact takeToken_apostrophe before
  unfold takeToken at before ⊢
  split at before
  · exact absurd rfl apostrophe
  · cases text with
    | nil => exact absurd before (Nat.not_succ_le_self _)
    | cons filler text => rfl
  · simp only [takeWhile_append_stop _ currency, dropWhile_append_stop _ currency]
  · simp only [takeWhile_append_stop _ atSign, dropWhile_append_stop _ atSign,
      takeWhile_append_stop _ hash, dropWhile_append_stop _ hash]
  · simp only [takeWhile_append_stop _ hash, dropWhile_append_stop _ hash]
  · cases taken : takeExponent? text with
    | none =>
        simp only [takeExponent?_separator taken, Option.getD_none]
    | some pair =>
        rcases pair with ⟨token, behind⟩
        simp only [takeExponent?_append taken zero, Option.getD_some]
  · by_cases isDigit : c.isDigit = true
    · simp only [if_pos isDigit, takeWhile_append_stop _ digit, dropWhile_append_stop _ digit]
    · simp only [if_neg isDigit]

end

/-- A separator that is read as one stands between the tokens of the subpatterns. -/
theorem tokens_at_separator {front back : List Char}
    (reads : ReadsUpTo (';' :: back) (front ++ ';' :: back)) :
    tokens (front ++ ';' :: back) = tokens front ++ .separator :: tokens back := by
  induction front using tokens_induction with
  | nil => exact tokens_cons ';' back
  | cons c text ih =>
      rw [List.cons_append] at reads ⊢
      generalize whole : c :: (text ++ ';' :: back) = pattern at reads
      cases reads with
      | here =>
          have lengths := congrArg List.length whole
          simp only [List.length_cons, List.length_append] at lengths
          omega
      | next behind =>
          cases whole
          have first := takeToken_before behind.length_le
          rw [first] at behind
          rw [tokens_cons, first, ih behind, tokens_cons, List.cons_append]

/-! ## Units of two subpatterns -/

section

variable {currency : Option String} {negative : List Setting}
  (made : ∀ setting ∈ negative, UnitSetting currency setting)

include made

theorem choice?_units {axis : Axis} (foreign : axis ≠ .unit ∧ axis ≠ .unitWidth) :
    (Skeleton.ofSettings negative).choice? axis = none := by
  rw [Skeleton.choice?_ofSettings, List.getLast?_eq_none_iff, List.filter_eq_nil_iff]
  intro setting member
  rw [decide_eq_true_eq]
  rintro rfl
  cases made setting member with
  | width => exact foreign.2 rfl
  | _ => exact foreign.1 rfl

/-- The units of a second subpattern decide on the unit and its width, and on nothing else. -/
theorem ofSettings_units (positive rest : List Setting) :
    Skeleton.ofSettings (positive ++ negative ++ rest) =
      { Skeleton.ofSettings (positive ++ rest) with
        unit := (Skeleton.ofSettings (positive ++ negative ++ rest)).unit
        unitWidth := (Skeleton.ofSettings (positive ++ negative ++ rest)).unitWidth } := by
  have other {axis : Axis} (foreign : axis ≠ .unit ∧ axis ≠ .unitWidth) :
      (Skeleton.ofSettings (positive ++ negative ++ rest)).choice? axis =
        (Skeleton.ofSettings (positive ++ rest)).choice? axis := by
    simp only [Skeleton.ofSettings_append, Skeleton.choice?_overlay, choice?_units made foreign,
      Option.none_or]
  refine Skeleton.eq_of_choices (fun axis => ?_) ?_
  · cases axis with
    | unit => rfl
    | unitWidth => rfl
    | _ => exact other ⟨nofun, nofun⟩
  · rw [Skeleton.affix_ofSettings]
    exact (Skeleton.affix_ofSettings _).symm

end

/-! ## Numbers from zero up -/

/-- Where no sign is shown, a number without a minus stands in the text for numbers from zero up. -/
theorem formatted_sides {s : Skeleton} (plain : s.Plain) (text : Surround)
    (negative : Option Surround) (own : List (String × Locale)) (locale : String)
    {value : Binary64} (noMinus : value.hasMinus = false) :
    { s with sign := some .never, affix := some ⟨text, negative⟩ }.formatted own locale value =
      { s with affix := affix text none }.formatted own locale value := by
  have bare : { s with sign := some .never }.affix = none := plain.affix
  have side : Affix.sideOf ⟨text, negative⟩ value = text := by
    unfold Affix.sideOf
    rw [Binary64.isNegative_of_hasMinus_eq_false noMinus]
    cases negative <;> rfl
  calc
    _ = Affix.around ⟨text, negative⟩ value
          ({ s with sign := some .never }.formatted own locale value) :=
        Skeleton.formatted_around bare _ own locale value
    _ = text.before ++ s.formatted own locale value ++ text.after := by
        rw [Affix.around, side, Skeleton.formatted_never plain,
          Skeleton.formatted_unmarked plain own locale noMinus]
    _ = _ := by rw [formatted_affix, Skeleton.with_no_affix plain.affix]

namespace Parts

variable (parts : Parts)

theorem unit_skeleton : parts.skeleton.unit = (Skeleton.ofSettings parts.settings).unit ∧
    parts.skeleton.unitWidth = (Skeleton.ofSettings parts.settings).unitWidth := by
  unfold skeleton
  split <;> exact ⟨rfl, rfl⟩

/-- The text for numbers below zero plays no part in other numbers. -/
theorem formatted_skeleton (plain : (Skeleton.ofSettings parts.settings).Plain)
    (own : List (String × Locale)) (locale : String) {value : Binary64}
    (noMinus : value.hasMinus = false) :
    parts.skeleton.formatted own locale value =
      { Skeleton.ofSettings parts.settings with
        affix := affix parts.positiveText none }.formatted own locale value := by
  unfold skeleton
  cases parts.negativeText with
  | none => rfl
  | some negative => exact formatted_sides plain _ (some negative) own locale noMinus

end Parts

section

variable {currency : Option String} {front back : List Char} {s t : Skeleton}
  (one : .separator ∉ tokens front)
  (separates : ReadsUpTo (';' :: back) (front ++ ';' :: back))
  (alone : read currency front = .ok s) (both : read currency (front ++ ';' :: back) = .ok t)

include one separates alone both

/-- The parts of two subpatterns hold those of the first one alone. -/
theorem exists_parts : ∃ parts : Parts,
    units currency (tokens front) = .ok parts.positiveUnits ∧
    units currency (tokens back) = .ok parts.negativeUnits ∧
    s = { Skeleton.ofSettings (parts.positiveUnits ++ parts.run.settings) with
      affix := affix parts.positiveText none } ∧
    t = parts.skeleton := by
  obtain ⟨positive, negative⟩ := parts_of_no_separator one
  obtain ⟨⟨units, _, run, text, _⟩, first, rfl⟩ := exists_readAs alone
  obtain ⟨unitsRead, othersRead, runRead, textRead, _, _, noText⟩ := first
  rw [positive] at unitsRead runRead textRead
  rw [negative] at othersRead noText
  cases othersRead
  cases noText
  obtain ⟨positive, negative⟩ := parts_at_separator one (tokens back)
  rw [read, tokens_at_separator separates] at both
  obtain ⟨⟨_, more, _, _, otherText⟩, second, rfl⟩ := exists_readAs both
  obtain ⟨bothUnits, moreUnits, bothRun, bothText, _⟩ := second
  rw [positive] at bothUnits bothRun bothText
  rw [negative] at moreUnits
  cases unitsRead.symm.trans bothUnits
  cases runRead.symm.trans bothRun
  cases textRead.symm.trans bothText
  refine ⟨⟨units, more, run, text, otherText⟩, unitsRead, moreUnits, ?_, rfl⟩
  rw [Parts.skeleton, Parts.settings, List.append_nil]

/--
A second subpattern changes numbers without a minus by the unit it names, which then stands for that
of the first, and by nothing else.  One that names no unit leaves them as they are.
-/
theorem formatted_without_minus (own : List (String × Locale)) (locale : String)
    {value : Binary64} (noMinus : value.hasMinus = false) :
    t.formatted own locale value =
        { s with unit := t.unit, unitWidth := t.unitWidth }.formatted own locale value ∧
      ((∀ token ∈ tokens back, token.isUnit = false) →
        t.formatted own locale value = s.formatted own locale value) := by
  obtain ⟨parts, unitsRead, moreRead, rfl, rfl⟩ := exists_parts one separates alone both
  have made : ∀ setting ∈ parts.negativeUnits, UnitSetting currency setting :=
    fun _ member => unitSetting_of_mem_units moreRead member
  have plain : (Skeleton.ofSettings parts.settings).Plain :=
    plain_of_unitSettings (List.forall_mem_append.mpr
      ⟨fun _ member => unitSetting_of_mem_units unitsRead member, made⟩) parts.run
  rw [parts.formatted_skeleton plain own locale noMinus]
  obtain ⟨unit, width⟩ := parts.unit_skeleton
  constructor
  · rw [unit, width, Parts.settings, ofSettings_units made]
  · intro unitless
    have none := Except.ok.inj (moreRead.symm.trans (units_unitless currency unitless))
    rw [Parts.settings, none, List.append_nil]

end

/-- A quoted and a padding separator do not end the first subpattern, and a third is text. -/
theorem formatted_without_minus_quoted :
    (.separator ∉ tokens "'a;b '#,##0.0*;".toList ∧
      ReadsUpTo ";(0.00);x".toList "'a;b '#,##0.0*;;(0.00);x".toList ∧
      (∀ token ∈ tokens "(0.00);x".toList, token.isUnit = false) ∧
      (Binary64.ofDecimal false (.scaled 123456 (-2))).hasMinus = false) ∧
    ∃ s t, read none "'a;b '#,##0.0*;".toList = .ok s ∧
      read none "'a;b '#,##0.0*;;(0.00);x".toList = .ok t ∧
      t.formatted [] "en" (.ofDecimal false (.scaled 123456 (-2))) = "a;b 1,234.6" ∧
      s.formatted [] "en" (.ofDecimal false (.scaled 123456 (-2))) = "a;b 1,234.6" := by
  have one : .separator ∉ tokens "'a;b '#,##0.0*;".toList := by decide
  have separates : ReadsUpTo ";(0.00);x".toList "'a;b '#,##0.0*;;(0.00);x".toList :=
    .next (.next (.next (.next (.next (.next (.next (.next .here)))))))
  have unitless : ∀ token ∈ tokens "(0.00);x".toList, token.isUnit = false := by decide
  have noMinus : (Binary64.ofDecimal false (.scaled 123456 (-2))).hasMinus = false := by
    decide +kernel
  obtain ⟨s, alone, shown⟩ : ∃ s, read none "'a;b '#,##0.0*;".toList = .ok s ∧
      s.formatted [] "en" (.ofDecimal false (.scaled 123456 (-2))) = "a;b 1,234.6" :=
    exists_ok_of_map (by decide +kernel)
  obtain ⟨t, both, -⟩ : ∃ t, read none "'a;b '#,##0.0*;;(0.00);x".toList = .ok t ∧
      t.sign = some .never :=
    exists_ok_of_map (by decide +kernel)
  have same := (formatted_without_minus one separates alone both [] "en" noMinus).2 unitless
  exact ⟨⟨one, separates, unitless, noMinus⟩, s, t, alone, both, same.trans shown, shown⟩

/-- A percent sign below zero makes percentages of all numbers. -/
theorem percent_of_second_subpattern :
    .separator ∉ tokens "0".toList ∧ ReadsUpTo ";0%".toList "0;0%".toList ∧
    ∃ s t, read none "0".toList = .ok s ∧ read none "0;0%".toList = .ok t ∧
      s.formatted [] "en" (.ofDecimal false (.scaled 42 0)) = "42" ∧
      t.formatted [] "en" (.ofDecimal false (.scaled 42 0)) = "42%" := by
  obtain ⟨s, alone, shown⟩ : ∃ s, read none "0".toList = .ok s ∧
      s.formatted [] "en" (.ofDecimal false (.scaled 42 0)) = "42" :=
    exists_ok_of_map (by decide +kernel)
  obtain ⟨t, both, percent⟩ : ∃ t, read none "0;0%".toList = .ok t ∧
      t.formatted [] "en" (.ofDecimal false (.scaled 42 0)) = "42%" :=
    exists_ok_of_map (by decide +kernel)
  exact ⟨by decide, .next .here, s, t, alone, both, shown, percent⟩

end Pattern
end NumberFormat
