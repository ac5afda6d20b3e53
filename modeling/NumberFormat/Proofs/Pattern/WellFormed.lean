import NumberFormat.Proofs.Pattern.Reserialization
import NumberFormat.Proofs.Skeleton.WellFormed

namespace NumberFormat

/-!
Skeletons of patterns make sense as those of texts do.

The digits of a pattern are counted, so the largest numbers are the least ones with something added.
The sign is left out exactly where the pattern has text of its own for numbers below zero.
-/

/-- What holds of a skeleton that was read from a pattern. -/
structure Skeleton.FromPattern (s : Skeleton) : Prop where
  silent : s.sign = some .never ↔ ∃ affix ∈ s.affix, affix.negative ≠ none
  sign : s.sign = some .never ∨ s.sign = none
  affix : ∀ affix ∈ s.affix, affix.positive = ⟨"", ""⟩ → affix.negative ≠ none
  perUnit : s.perUnit = none
  scale : s.scale = none
  numberingSystem : s.numberingSystem = none
  decimalMark : s.decimalMark = none
  roundingMode : s.roundingMode = none

namespace Pattern

/-! ## Numbers -/

/-- An exponent in a pattern has one digit at least. -/
theorem exponent_summary {tokens : List Token} (genuine : ∀ token ∈ tokens, token.Genuine) :
    ∀ exponent ∈ (summary tokens).exponent, 1 ≤ exponent.1 := by
  intro exponent first
  rcases List.mem_filterMap.mp (List.mem_of_mem_head? first) with ⟨token, inside, same⟩
  cases token with
  | exponent digits plus =>
      cases same
      exact Nat.pos_of_ne_zero (genuine _ inside)
  | _ => cases same

theorem wellFormed_integerWidth (run : NumberRun) :
    ∀ width ∈ run.integerWidth, width.WellFormed := by
  intro width chosen
  cases integerWidth_numberSetting run width chosen with
  | integerWidth positive ordered => exact ordered

/-- The significant digits of a mantissa include all those it requires. -/
theorem wellFormed_mantissaBounds (run : NumberRun) : run.mantissaBounds.WellFormed := by
  unfold NumberRun.mantissaBounds
  dsimp only
  split
  · refine ⟨nofun, ?_, ?_, ?_⟩
    · intro least member most same
      cases same
      split at member <;> cases member
      exact Nat.le_trans (Nat.le_max_right _ _) (Nat.le_add_right _ _)
    · intro least member
      split at member <;> cases member
      rename_i several
      exact Nat.le_of_lt several
    · intro most same
      cases same
      exact Nat.le_trans (Nat.le_max_left _ _) (Nat.le_add_right _ _)
  · refine ⟨nofun, nofun, nofun, ?_⟩
    intro most member
    split at member <;> cases member
    assumption

theorem wellFormed_fractionBounds (run : NumberRun) : run.fractionBounds.WellFormed := by
  unfold NumberRun.fractionBounds
  dsimp only
  split
  · exact DigitBounds.wellFormed_unset
  · refine ⟨?_, nofun, nofun, nofun⟩
    intro least member most same
    cases member
    cases same
    exact Nat.le_add_right _ _

theorem wellFormed_digitBounds {run : NumberRun}
    (significant : ∀ bounds ∈ run.significant, 0 < bounds.1 ∧ bounds.1 ≤ bounds.2) :
    (digitBounds run).WellFormed := by
  unfold digitBounds
  split
  · rename_i minimum maximum chosen
    rcases significant _ chosen with ⟨positive, ordered⟩
    have inOrder : ∀ most ∈ some maximum, minimum ≤ most := by
      intro most member
      cases member
      exact ordered
    exact DigitBounds.wellFormed_unset.withSignificant positive inOrder none
  · exact wellFormed_mantissaBounds run
  · exact wellFormed_fractionBounds run

theorem wellFormed_precision {run : NumberRun}
    (significant : ∀ bounds ∈ run.significant, 0 < bounds.1 ∧ bounds.1 ≤ bounds.2) :
    ∀ precision ∈ run.precision, precision.WellFormed := by
  intro precision chosen
  have chosen : precision ∈ if run.increment.isPositive then some (.increment run.increment)
      else if (digitBounds run).boundsFraction || (digitBounds run).boundsSignificant then
        some (.digits (digitBounds run))
      else none := chosen
  split at chosen
  · rename_i positive
    cases chosen
    exact positive
  · split at chosen <;> cases chosen
    exact wellFormed_digitBounds significant

/-- Every setting that the tokens of a number make has its counts in order. -/
theorem wellFormed_of_mem_settings {tokens : List Token}
    (genuine : ∀ token ∈ tokens, token.Genuine) {setting : Setting}
    (member : setting ∈ (summary tokens).settings) : setting.WellFormed := by
  unfold NumberRun.settings at member
  simp only [List.mem_append, Option.mem_toList, Option.map_eq_some_iff] at member
  rcases member with ((⟨grouping, _, rfl⟩ | ⟨width, chosen, rfl⟩) | ⟨precision, chosen, rfl⟩) |
    ⟨form, chosen, rfl⟩
  · trivial
  · exact wellFormed_integerWidth _ width chosen
  · exact wellFormed_precision (significant_summary genuine) precision chosen
  · rcases Option.map_eq_some_iff.mp chosen with ⟨exponent, written, rfl⟩
    intro count member
    cases member
    exact exponent_summary genuine exponent written

theorem UnitSetting.wellFormed {currency : Option String} {setting : Setting}
    (made : UnitSetting currency setting) : setting.WellFormed := by
  cases made <;> trivial

/-! ## Whole patterns -/

theorem wellFormed_parts {currency : Option String} {text : List Char} {parts : Parts}
    (readAs : ReadAs currency (tokens text) parts) : parts.skeleton.WellFormed := by
  have genuine : ∀ token ∈ positiveTokens (tokens text), token.Genuine :=
    fun token member => genuine_of_mem_tokens ((List.takeWhile_sublist _).subset member)
  have run := run_eq_summary genuine readAs.run
  apply Skeleton.wellFormed_of_choices
  intro setting member
  rcases mem_choices_skeleton member with chosen | rfl
  · rcases List.mem_append.mp chosen with unit | number
    · rcases List.mem_append.mp unit with positive | negative
      · exact (unitSetting_of_mem_units readAs.positiveUnits positive).wellFormed
      · exact (unitSetting_of_mem_units readAs.negativeUnits negative).wellFormed
    · rw [run] at number
      exact wellFormed_of_mem_settings genuine number
  · trivial

theorem affix_none {positive : Surround} {made : Affix} (shown : affix positive none = some made) :
    made.negative = none ∧ made.positive ≠ ⟨"", ""⟩ := by
  unfold affix at shown
  split at shown
  · rename_i filled
    cases shown
    refine ⟨rfl, ?_⟩
    rintro rfl
    cases filled
  · cases shown

theorem fromPattern_parts {currency : Option String} {tokens : List Token} {parts : Parts}
    (readAs : ReadAs currency tokens parts) : parts.skeleton.FromPattern := by
  have made : ∀ setting ∈ parts.positiveUnits ++ parts.negativeUnits,
      UnitSetting currency setting := by
    intro setting member
    rcases List.mem_append.mp member with positive | negative
    · exact unitSetting_of_mem_units readAs.positiveUnits positive
    · exact unitSetting_of_mem_units readAs.negativeUnits negative
  have unchosen (axis : Axis) (foreign : axis ∉ patternAxes) :
      (Skeleton.ofSettings parts.settings).choice? axis = none :=
    choice?_eq_none made parts.run axis foreign
  have sign : (Skeleton.ofSettings parts.settings).sign = none :=
    Option.map_eq_none_iff.mp (unchosen .sign (by decide))
  have perUnit : (Skeleton.ofSettings parts.settings).perUnit = none :=
    Option.map_eq_none_iff.mp (unchosen .perUnit (by decide))
  have scale : (Skeleton.ofSettings parts.settings).scale = none :=
    Option.map_eq_none_iff.mp (unchosen .scale (by decide))
  have numberingSystem : (Skeleton.ofSettings parts.settings).numberingSystem = none :=
    Option.map_eq_none_iff.mp (unchosen .numberingSystem (by decide))
  have decimalMark : (Skeleton.ofSettings parts.settings).decimalMark = none :=
    Option.map_eq_none_iff.mp (unchosen .decimalMark (by decide))
  have roundingMode : (Skeleton.ofSettings parts.settings).roundingMode = none :=
    Option.map_eq_none_iff.mp (unchosen .roundingMode (by decide))
  unfold Parts.skeleton
  dsimp only
  split
  · refine ⟨?_, Or.inr sign, ?_, perUnit, scale, numberingSystem, decimalMark, roundingMode⟩
    · constructor
      · intro silent
        rw [sign] at silent
        cases silent
      · rintro ⟨affix, shown, negative⟩
        exact absurd (affix_none shown).1 negative
    · intro affix shown empty
      exact absurd empty (affix_none shown).2
  · refine ⟨?_, Or.inl rfl, ?_, perUnit, scale, numberingSystem, decimalMark, roundingMode⟩
    · exact iff_of_true rfl ⟨_, rfl, nofun⟩
    · intro affix shown empty
      cases shown
      exact nofun

/--
Every skeleton that is read from text or from a pattern has its counts in order.  A text gives
finite numbers, currency codes and unit ids, and no text around the number.  A pattern leaves the
sign to the text it gives for numbers below zero and says nothing about scales, numbering systems
and the like.
-/
theorem read_wellFormed :
    (∀ text : List Char,
      (Skeleton.read text).result.WellFormed ∧ (Skeleton.read text).result.FromText) ∧
    ∀ (currency : Option String) (text : List Char) (s : Skeleton),
      read currency text = .ok s → s.WellFormed ∧ s.FromPattern := by
  constructor
  · intro text
    exact ⟨Skeleton.wellFormed_read text, Skeleton.fromText_read text⟩
  · intro currency text s translated
    rcases exists_readAs translated with ⟨parts, readAs, rfl⟩
    exact ⟨wellFormed_parts readAs, fromPattern_parts readAs⟩

/-- Open digits in front of an exponent, and parentheses in place of the sign. -/
theorem read_wellFormed_parentheses :
    ∃ s, read none "##0.0#E00;(0)".toList = .ok s ∧ s.sign = some .never ∧
      s.integerWidth = some ⟨1, some 3, none⟩ ∧
      s.precision = some (.digits { minSignificant := some 2, maxSignificant := some 3 }) ∧
      s.WellFormed ∧ s.FromPattern := by
  have computed : (read none "##0.0#E00;(0)".toList).toOption.map
      (fun s => (s.sign, s.integerWidth, s.precision)) =
        some (some .never, some ⟨1, some 3, none⟩,
          some (.digits { minSignificant := some 2, maxSignificant := some 3 })) := by
    decide +kernel
  cases translated : read none "##0.0#E00;(0)".toList with
  | error e =>
      rw [translated] at computed
      cases computed
  | ok s =>
      rw [translated] at computed
      have fields := Option.some.inj computed
      rw [Prod.mk.injEq, Prod.mk.injEq] at fields
      have sound := read_wellFormed.2 none _ s translated
      exact ⟨s, rfl, fields.1, fields.2.1, fields.2.2, sound.1, sound.2⟩

end Pattern
end NumberFormat
