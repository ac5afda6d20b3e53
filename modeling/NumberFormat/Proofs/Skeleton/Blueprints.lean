import NumberFormat.Proofs.Skeleton.Rereading

namespace NumberFormat

/-!
Words of settings that have no text of their own.

Keywords stand for themselves, numbers are spelled out, and counts of digits become blueprints.
Each word is read without complaint, as the setting together with the text it was written as.
-/

namespace Blueprint

theorem all_replicate_zero (count : Nat) : (List.replicate count '0').all (· == '0') = true := by
  rw [List.all_eq_true]
  intro c member
  rw [List.eq_of_mem_replicate member]
  rfl

/-- Hashes and zeros are read as the width they stand for, if there are any. -/
theorem width?_hashes {hashes zeros : Nat} (nonempty : 0 < hashes + zeros) :
    width? (List.replicate hashes '#' ++ List.replicate zeros '0') =
      some (zeros, some (hashes + zeros)) := by
  have required : (List.replicate hashes '#' ++ List.replicate zeros '0').dropWhile (· == '#') =
      List.replicate zeros '0' := by
    refine (split_run '#' _ _ ?_).2
    intro c member
    rw [List.eq_of_mem_replicate (List.mem_of_mem_head? member)]
    decide
  have length : (List.replicate hashes '#' ++ List.replicate zeros '0').length =
      hashes + zeros := by
    rw [List.length_append, List.length_replicate, List.length_replicate]
  have signless : ∀ c ∈ List.replicate hashes '#' ++ List.replicate zeros '0',
      ¬(c = '+' ∨ c = '*') := by
    intro c member
    rcases List.mem_append.mp member with hash | zero
    · rw [List.eq_of_mem_replicate hash]
      decide
    · rw [List.eq_of_mem_replicate zero]
      decide
  cases text : List.replicate hashes '#' ++ List.replicate zeros '0' with
  | nil =>
      rw [text, List.length_nil] at length
      omega
  | cons c rest =>
      rw [text] at required length signless
      unfold width?
      dsimp only
      rw [if_neg (signless c List.mem_cons_self), required, if_pos (all_replicate_zero zeros),
        List.length_replicate, length]

/-- The width of a whole part is read as it is written, if it has a digit. -/
theorem width?_width {least : Nat} {most : Option Nat} (positive : 0 < least)
    (ordered : ∀ m ∈ most, least ≤ m) : width? (width (least, most)) = some (least, most) := by
  cases most with
  | none =>
      have plus : width (least, none) = '+' :: List.replicate least '0' := rfl
      rw [plus]
      unfold width?
      dsimp only
      rw [if_pos (Or.inl rfl), if_pos (all_replicate_zero least), List.length_replicate]
  | some most =>
      have enough : most - least + least = most := Nat.sub_add_cancel (ordered most rfl)
      have spelled : width (least, some most) =
          List.replicate (most - least) '#' ++ List.replicate least '0' := rfl
      rw [spelled, width?_hashes (by omega), enough]

end Blueprint

namespace Skeleton

open Stem (Part ofParts)

/-! ## Words without options -/

theorem readsAs_plain {setting : Setting}
    (unbroken : setting.word.toList.all (fun c => !Text.isBlank c) = true)
    (read : readWord setting.word.toList = ⟨some setting, []⟩) : ReadsAs setting setting := by
  refine ⟨?_, read⟩
  intro c member
  have clear := List.all_eq_true.mp unbroken c member
  rwa [Bool.not_eq_true'] at clear

theorem readsAs_unitWidth (width : UnitWidth) :
    ReadsAs (.unitWidth width) (.unitWidth width) := by
  cases width <;> exact readsAs_plain (by decide) (by decide)

theorem readsAs_grouping (grouping : Grouping) :
    ReadsAs (.grouping grouping) (.grouping grouping) := by
  cases grouping <;> exact readsAs_plain (by decide) (by decide)

/-! ## Words with one option -/

/-- A text holds together if each of its characters does. -/
theorem part_of_all {text : List Char}
    (clear : text.all (fun c => c != '/' && !Text.isBlank c) = true) : Part text := by
  intro c member
  have own := Bool.and_eq_true_iff.mp (List.all_eq_true.mp clear c member)
  exact ⟨bne_iff_ne.mp own.1, Bool.not_inj own.2⟩

theorem part_word (kind : Stem.Kind) : Part (Text.Vocabulary.word kind).toList := by
  cases kind <;> exact part_of_all (by decide)

theorem ofKeyword?_word (kind : Stem.Kind) :
    Stem.ofKeyword? (Text.Vocabulary.word kind).toList = some (.needing kind) := by
  cases kind <;> decide

/-- A keyword and an option are read as the setting the option asks for. -/
theorem readsAs_needing {setting other : Setting} {kind : Stem.Kind} {option : String}
    (written : setting.word.toList =
      ['/'].intercalate [(Text.Vocabulary.word kind).toList, option.toList])
    (part : Part option.toList) (read : kind.setting? option.toList = some other) :
    ReadsAs setting other := by
  apply readsAs_of_parts written
  · intro inside listed
    rcases List.mem_cons.mp listed with rfl | last
    · exact part_word kind
    · rw [List.mem_singleton.mp last]
      exact part
  · rw [ofParts, ofKeyword?_word]
    simp only [Stem.setting, read]

/-- A currency code is three capital letters. -/
def IsCurrencyCode (code : String) : Prop :=
  code.toList.length = 3 ∧ code.toList.all Char.isUpper = true

theorem readsAs_currency {code : String} (valid : IsCurrencyCode code) :
    ReadsAs (.unit (.currency code)) (.unit (.currency code)) := by
  have read : Stem.Kind.currency.setting? code.toList = some (.unit (.currency code)) := by
    unfold IsCurrencyCode at valid
    rw [Stem.Kind.setting?, if_pos valid, String.ofList_toList]
  refine readsAs_needing (toList_slash (by decide) code) ?_ read
  intro c member
  have upper : c.isUpper = true := List.all_eq_true.mp valid.2 c member
  have alphabetic : c.isAlpha = true := Bool.or_eq_true_iff.mpr (Or.inl upper)
  have alphanum : c.isAlphanum = true := Bool.or_eq_true_iff.mpr (Or.inl alphabetic)
  refine ⟨?_, isBlank_of_isAlphanum alphanum⟩
  rintro rfl
  cases upper

theorem readsAs_increment {step : Binary64} (finite : step.isFinite = true)
    (positive : step.isPositive = true) :
    ReadsAs (.precision (.increment step)) (.precision (.increment step)) := by
  have spelled : step.text.toList = step.written := String.toList_ofList
  have number : Stem.finiteNumber? step.written = some step := by
    rw [Stem.finiteNumber?, Binary64.read?_written, Option.filter_some, if_pos finite]
  have read : Stem.Kind.increment.setting? step.text.toList =
      some (.precision (.increment step)) := by
    rw [spelled, Stem.Kind.setting?, number, Option.filter_some, if_pos positive]
    rfl
  refine readsAs_needing (toList_slash (by decide) step.text) ?_ read
  rw [spelled]
  exact part_written step

/-- The characters of blueprints. -/
def blueprintCharacters : List Char :=
  ['.', '@', '0', '#', '+', 'e']

theorem part_of_blueprint {text : List Char} (inside : ∀ c ∈ text, c ∈ blueprintCharacters) :
    Part text := by
  have clear : Part blueprintCharacters := part_of_all (by decide)
  exact fun c member => clear c (inside c member)

theorem readsAs_integerWidth {least : Nat} {most : Option Nat} (positive : 0 < least)
    (ordered : ∀ m ∈ most, least ≤ m) :
    ReadsAs (.integerWidth ⟨least, most, none⟩)
      (.integerWidth (IntegerWidth.reread ⟨least, most, none⟩)) := by
  have spelled : (IntegerWidth.sourceText ⟨least, most, none⟩).toList =
      Blueprint.width (least, most) := String.toList_ofList
  have read : Stem.Kind.integerWidth.setting?
      (IntegerWidth.sourceText ⟨least, most, none⟩).toList =
        some (.integerWidth (IntegerWidth.reread ⟨least, most, none⟩)) := by
    rw [spelled, Stem.Kind.setting?, Blueprint.width?_width positive ordered]
    rfl
  refine readsAs_needing (toList_slash (by decide) _) ?_ read
  rw [spelled]
  apply part_of_blueprint
  intro c member
  rcases List.mem_append.mp member with optional | zero
  · cases most with
    | none =>
        rw [List.mem_singleton.mp optional]
        decide
    | some most =>
        rw [List.eq_of_mem_replicate optional]
        decide
  · rw [List.eq_of_mem_replicate zero]
    decide

/-! ## Blueprints of digits -/

theorem mem_written {lead : Char} {least most : Nat} {c : Char}
    (member : c ∈ Blueprint.written lead (least, some most)) : c = lead ∨ c = '#' := by
  rcases List.mem_append.mp member with required | optional
  · exact Or.inl (List.eq_of_mem_replicate required)
  · exact Or.inr (List.eq_of_mem_replicate optional)

/-- A blueprint that is a keyword is read as the bounds it stands for, with itself as their text. -/
theorem readsAs_digits {bounds : DigitBounds} (bare : bounds.source = none)
    (part : Part bounds.blueprint)
    (read : Stem.ofKeyword? bounds.blueprint =
      some (.digits { bounds.reread with source := none })) :
    ReadsAs (.precision (.digits bounds)) (.precision (.digits bounds.reread)) := by
  have source : bounds.sourceText = String.ofList bounds.blueprint := by
    rw [DigitBounds.sourceText, bare]
    rfl
  have written : (Setting.precision (.digits bounds)).word.toList =
      ['/'].intercalate [bounds.blueprint] := by
    have word : (Setting.precision (.digits bounds)).word = bounds.sourceText := rfl
    rw [word, source, String.toList_ofList, List.intercalate_singleton]
  apply readsAs_of_parts written
  · intro inside listed
    rw [List.mem_singleton.mp listed]
    exact part
  · rw [ofParts, read]
    simp only [Stem.setting, List.take_nil, List.drop_nil, Stem.withSignificant]
    rw [← source]
    rfl

theorem readsAs_fraction {least most : Nat} (ordered : least ≤ most) :
    ReadsAs (.precision (.digits { minFraction := some least, maxFraction := some most }))
      (.precision (.digits
        (DigitBounds.reread { minFraction := some least, maxFraction := some most }))) := by
  have read : Blueprint.read? '0' (Blueprint.written '0' (least, some most)) =
      some (least, some most) :=
    Blueprint.read?_written (by decide) (by decide) least (some most) (by simpa using ordered)
  apply readsAs_digits rfl
  · apply part_of_blueprint
    intro c member
    rcases List.mem_cons.mp member with rfl | inside
    · decide
    · rcases mem_written inside with rfl | rfl <;> decide
  · have keyword : DigitBounds.blueprint { minFraction := some least, maxFraction := some most } =
        '.' :: Blueprint.written '0' (least, some most) := rfl
    rw [keyword, Stem.ofKeyword?, read]
    rfl

theorem significant?_written {least most : Nat} (positive : 0 < least) (ordered : least ≤ most) :
    Blueprint.significant? (Blueprint.written '@' (least, some most)) =
      some (least, some most) := by
  rw [Blueprint.significant?, Blueprint.read?_written (by decide) (by decide) least (some most)
    (by simpa using ordered)]
  cases least with
  | zero => cases positive
  | succ least => rfl

/-- Significant digits are a keyword of their own, which opens with an at sign. -/
theorem ofKeyword?_of_significant? {keyword : List Char} {counts : Blueprint.Counts}
    (read : Blueprint.significant? keyword = some counts) :
    Stem.ofKeyword? keyword =
      some (.digits { minSignificant := some counts.1, maxSignificant := counts.2 }) := by
  have opens : ∃ marks, keyword = '@' :: marks := by
    unfold Blueprint.significant? at read
    split at read
    · rename_i minimum maximum found
      rcases Option.map_eq_some_iff.mp found with ⟨further, _, same⟩
      have required := congrArg Prod.fst same
      cases keyword with
      | nil => cases required
      | cons c rest =>
          by_cases mark : c = '@'
          · exact ⟨rest, by rw [mark]⟩
          · rw [List.takeWhile_cons_of_neg (by rwa [beq_iff_eq])] at required
            cases required
    · cases read
  rcases opens with ⟨marks, rfl⟩
  rw [Stem.ofKeyword?, read]
  rfl

theorem ofKeyword?_significant {least most : Nat} (positive : 0 < least) (ordered : least ≤ most) :
    Stem.ofKeyword? (Blueprint.written '@' (least, some most)) =
      some (.digits { minSignificant := some least, maxSignificant := some most }) :=
  ofKeyword?_of_significant? (significant?_written positive ordered)

theorem readsAs_significant {least : Option Nat} {most : Nat} (positive : 0 < most)
    (ordered : ∀ n ∈ least, n ≤ most) :
    ReadsAs (.precision (.digits { minSignificant := least, maxSignificant := some most }))
      (.precision (.digits
        (DigitBounds.reread { minSignificant := least, maxSignificant := some most }))) := by
  have atLeast : 0 < Nat.max 1 (least.getD 1) := Nat.le_max_left _ _
  have atMost : Nat.max 1 (least.getD 1) ≤ most := by
    refine Nat.max_le.mpr ⟨positive, ?_⟩
    cases least with
    | none => exact positive
    | some least => exact ordered least rfl
  have keyword : DigitBounds.blueprint { minSignificant := least, maxSignificant := some most } =
      Blueprint.written '@' (Nat.max 1 (least.getD 1), some most) := by
    cases least <;> rfl
  apply readsAs_digits rfl
  · rw [keyword]
    apply part_of_blueprint
    intro c member
    rcases mem_written member with rfl | rfl <;> decide
  · rw [keyword, ofKeyword?_significant atLeast atMost]
    cases least <;> rfl

/-! ## Exponents -/

/-- A front and options with a slash before each of them are parts with slashes between them. -/
theorem toList_slashes (front : String) (options : List String) :
    (front ++ String.join (options.map ("/" ++ ·))).toList =
      ['/'].intercalate (front.toList :: options.map String.toList) := by
  induction options generalizing front with
  | nil =>
      rw [List.map_nil, String.join_nil, String.append_empty, List.map_nil,
        List.intercalate_singleton]
  | cons option options ih =>
      rw [List.map_cons, String.join_cons, List.map_cons, List.intercalate_cons_cons, ← ih option,
        String.toList_append, String.toList_append, String.toList_append, String.toList_append,
        List.append_assoc, List.append_assoc]
      rfl

theorem read?_digitsOption {count : Nat} (positive : 0 < count) :
    Stem.PowerOption.read? (ExponentStyle.digitsOption count).toList = some (.digits count) := by
  rw [ExponentStyle.digitsOption, String.toList_ofList, Stem.PowerOption.read?]
  cases count with
  | zero => cases positive
  | succ count => simp

theorem read?_signOption (sign : Sign) :
    Stem.PowerOption.read? (Text.Vocabulary.word sign).toList = some (.sign sign) := by
  cases sign <;> decide

theorem joined_options (options : List String) :
    Stem.joined (options.map String.toList) = String.intercalate "/" options := by
  apply String.toList_injective
  rw [Stem.joined, String.toList_ofList, String.toList_intercalate]
  rfl

/-- No option is found unreadable exactly if each can be read. -/
theorem find?_unreadable {options : List (List Char)} :
    options.find? (fun option => (Stem.PowerOption.read? option).isNone) = none ↔
      ∀ option ∈ options, (Stem.PowerOption.read? option).isSome = true := by
  rw [List.find?_eq_none]
  refine forall₂_congr fun option _ => ?_
  rw [← Option.not_isSome, Bool.not_eq_true', Bool.not_eq_false]

/-- A style without a text of its own is read as its options say. -/
theorem exponentStyle_options {style : ExponentStyle} (bare : style.source = none) :
    (∀ option ∈ style.options.map String.toList, (Stem.PowerOption.read? option).isSome = true) ∧
      Stem.exponentStyle (style.options.map String.toList) = style.reread := by
  have source : style.sourceText = Stem.joined (style.options.map String.toList) := by
    rw [ExponentStyle.sourceText, bare, joined_options]
    rfl
  have count {digits : Nat} (wide : style.wideDigits = some digits) :
      Stem.PowerOption.read? (ExponentStyle.digitsOption digits).toList = some (.digits digits) :=
    read?_digitsOption (Nat.lt_trans Nat.one_pos
      (of_decide_eq_true (Option.filter_eq_some_iff.mp wide).2))
  rw [ExponentStyle.reread, ExponentStyle.isCustomized, source, ExponentStyle.options]
  cases wide : style.wideDigits with
  | none =>
      cases unusual : style.unusualSign with
      | none => exact ⟨fun _ member => absurd member List.not_mem_nil, rfl⟩
      | some sign =>
          have sign := read?_signOption sign
          simp [Stem.exponentStyle, Stem.PowerOption.apply, sign]
  | some digits =>
      have digits := count wide
      cases unusual : style.unusualSign with
      | none => simp [Stem.exponentStyle, Stem.PowerOption.apply, digits]
      | some sign =>
          have sign := read?_signOption sign
          simp [Stem.exponentStyle, Stem.PowerOption.apply, digits, sign]

theorem part_options (style : ExponentStyle) :
    ∀ option ∈ style.options.map String.toList, Part option := by
  intro option member
  rcases List.mem_map.mp member with ⟨word, listed, rfl⟩
  rcases List.mem_append.mp listed with wide | unusual
  · rcases Option.map_eq_some_iff.mp (Option.mem_toList.mp wide) with ⟨count, _, rfl⟩
    rw [ExponentStyle.digitsOption, String.toList_ofList]
    apply part_of_blueprint
    intro c inside
    rcases List.mem_cons.mp inside with rfl | mark
    · decide
    · rw [List.eq_of_mem_replicate mark]
      decide
  · rcases Option.map_eq_some_iff.mp (Option.mem_toList.mp unusual) with ⟨sign, _, rfl⟩
    cases sign <;> exact part_of_all (by decide)

/-- A power of ten without a text of its own is read as the options of its style say. -/
theorem readsAs_scientific {style : ExponentStyle} (bare : style.source = none) :
    ReadsAs (.form (.scientific style)) (.form (.scientific style.reread)) := by
  have written : (Setting.form (.scientific style)).word.toList =
      ['/'].intercalate ("scientific".toList :: style.options.map String.toList) := by
    have word : (Setting.form (.scientific style)).word = "scientific" ++ style.suffix := rfl
    rw [word, ExponentStyle.suffix, bare]
    exact toList_slashes "scientific" style.options
  have few : (style.options.map String.toList).length ≤ 2 := by
    rw [List.length_map, ExponentStyle.options, List.length_append]
    exact Nat.add_le_add Option.length_toList_le Option.length_toList_le
  rcases exponentStyle_options bare with ⟨all, read⟩
  apply readsAs_of_parts written
  · intro part listed
    rcases List.mem_cons.mp listed with rfl | option
    · exact part_of_all (by decide)
    · exact part_options style part option
  · have keyword : Stem.ofKeyword? "scientific".toList = some (.power .scientific) := by decide
    have none := find?_unreadable.mpr all
    rw [ofParts, keyword]
    simp only [Stem.setting, if_pos few, none, read, Stem.Power.form]

end Skeleton

end NumberFormat
