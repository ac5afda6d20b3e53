import Mathlib.Data.List.Forall2
import NumberFormat.Proofs.Skeleton.Overlay
import NumberFormat.Proofs.Skeleton.WellFormed

namespace NumberFormat

/-!
The language of skeleton words, and that the reader accepts exactly what it derives.

A word is a keyword without options, a keyword with the one option it needs, a power of ten with two
options at most, or a blueprint of digits.  A reader of runs never goes back to a shorter one, and
it need not: no run is followed by a character that could belong to it.
-/

/-! ## Blueprints -/

namespace Blueprint

/-- What says how many digits there may be beyond those required, none if there is no limit. -/
inductive Beyond : List Char → Option Nat → Prop where
  | hashes (count : Nat) : Beyond (List.replicate count '#') (some count)
  | plus : Beyond ['+'] none
  | star : Beyond ['*'] none

/-- Blueprints: required digits and what there may be beyond them. -/
inductive Spelling (lead : Char) : List Char → Counts → Prop where
  | digits (least : Nat) {behind : List Char} {further : Option Nat} : Beyond behind further →
      Spelling lead (List.replicate least lead ++ behind) (least, further.map (least + ·))

/-- Widths of a whole part, of which there is some: the required digits stand at the end. -/
inductive WidthSpelling : List Char → Counts → Prop where
  | plus (zeros : Nat) : WidthSpelling ('+' :: List.replicate zeros '0') (zeros, none)
  | star (zeros : Nat) : WidthSpelling ('*' :: List.replicate zeros '0') (zeros, none)
  | hashes {hashes zeros : Nat} : 0 < hashes + zeros →
      WidthSpelling (List.replicate hashes '#' ++ List.replicate zeros '0')
        (zeros, some (hashes + zeros))

theorem beyond?_eq_some_iff {text : List Char} {further : Option Nat} :
    beyond? text = some further ↔ Beyond text further := by
  constructor
  · intro found
    unfold beyond? at found
    split at found
    · cases found
      exact .plus
    · cases found
      exact .star
    · split at found <;> cases found
      rename_i all
      rw [Text.eq_replicate_of_all all, List.length_replicate]
      exact .hashes _
  · intro spelled
    cases spelled with
    | hashes count => exact beyond?_hashes count
    | plus => rfl
    | star => rfl

theorem Beyond.head {text : List Char} {further : Option Nat} (spelled : Beyond text further) :
    ∀ c ∈ text.head?, c ∈ ['#', '+', '*'] := by
  intro c first
  cases spelled with
  | hashes count =>
      rw [List.eq_of_mem_replicate (List.mem_of_mem_head? first)]
      decide
  | plus =>
      cases first
      decide
  | star =>
      cases first
      decide

/-- A run of digits comes back whole, if none of the characters behind it leads one. -/
theorem read?_eq_some_iff {lead : Char} (distinct : lead ∉ ['#', '+', '*']) {text : List Char}
    {counts : Counts} : read? lead text = some counts ↔ Spelling lead text counts := by
  constructor
  · intro found
    rcases Option.map_eq_some_iff.mp found with ⟨further, behind, rfl⟩
    have spelled := @Spelling.digits lead (text.takeWhile (· == lead)).length _ _
      (beyond?_eq_some_iff.mp behind)
    rwa [Text.replicate_append_dropWhile] at spelled
  · intro spelled
    cases spelled with
    | @digits least behind further beyond =>
        have stop : ∀ c ∈ behind.head?, c ≠ lead := by
          rintro c first rfl
          exact distinct (beyond.head c first)
        rcases split_run lead least behind stop with ⟨required, others⟩
        rw [read?, required, others, beyond?_eq_some_iff.mpr beyond, List.length_replicate]
        rfl

theorem significant?_eq_some_iff {text : List Char} {counts : Counts} :
    significant? text = some counts ↔ Spelling '@' text counts ∧ 1 ≤ counts.1 := by
  have read := @read?_eq_some_iff '@' (by decide) text
  constructor
  · intro found
    unfold significant? at found
    split at found
    · rename_i minimum maximum some
      cases found
      exact ⟨read.mp some, Nat.le_add_left 1 minimum⟩
    · cases found
  · rintro ⟨spelled, positive⟩
    rcases counts with ⟨_ | minimum, maximum⟩
    · cases positive
    · rw [significant?, read.mpr spelled]

theorem width?_eq_some_iff {text : List Char} {counts : Counts} :
    width? text = some counts ↔ WidthSpelling text counts := by
  constructor
  · intro found
    unfold width? at found
    split at found
    · cases found
    · rename_i c rest
      split at found
      · rename_i unlimited
        split at found <;> cases found
        rename_i zeros
        rw [Text.eq_replicate_of_all zeros, List.length_replicate]
        rcases unlimited with rfl | rfl
        · exact .plus _
        · exact .star _
      · dsimp only at found
        split at found <;> cases found
        rename_i zeros
        have parts := Text.replicate_append_dropWhile '#' (c :: rest)
        rw [Text.eq_replicate_of_all zeros] at parts
        have length := congrArg List.length parts
        rw [List.length_append, List.length_replicate, List.length_replicate] at length
        have nonempty := Nat.lt_of_lt_of_eq (Nat.zero_lt_succ rest.length) length.symm
        have spelled := WidthSpelling.hashes nonempty
        rwa [parts, length] at spelled
  · intro spelled
    cases spelled with
    | plus zeros =>
        unfold width?
        dsimp only
        rw [if_pos (Or.inl rfl), if_pos (all_replicate_zero zeros), List.length_replicate]
    | star zeros =>
        unfold width?
        dsimp only
        rw [if_pos (Or.inr rfl), if_pos (all_replicate_zero zeros), List.length_replicate]
    | hashes nonempty => exact width?_hashes nonempty

end Blueprint

/-! ## Options -/

namespace Stem

/-- Options of a power of ten: a plus sign and an `e` for each digit, or the keyword of a sign. -/
inductive PowerSpelling : List Char → PowerOption → Prop where
  | digits {count : Nat} : 1 ≤ count →
      PowerSpelling ('+' :: List.replicate count 'e') (.digits count)
  | sign (sign : Sign) : PowerSpelling (Text.Vocabulary.word sign).toList (.sign sign)

/-- The options that keywords ask for. -/
inductive OptionSpelling : Kind → List Char → Setting → Prop where
  | currency {code : String} : Skeleton.IsCurrencyCode code →
      OptionSpelling .currency code.toList (.unit (.currency code))
  | measureUnit {id : String} : Skeleton.IsUnitId id →
      OptionSpelling .measureUnit id.toList (.unit (.measure id))
  | perMeasureUnit {id : String} : Skeleton.IsUnitId id →
      OptionSpelling .perMeasureUnit id.toList (.perUnit id)
  | increment {option : List Char} {step : Binary64} : Binary64.Spelling step option →
      step.isFinite = true → step.isPositive = true →
      OptionSpelling .increment option (.precision (.increment step))
  | integerWidth {option : List Char} {least : Nat} {most : Option Nat} :
      Blueprint.WidthSpelling option (least, most) →
      OptionSpelling .integerWidth option
        (.integerWidth ⟨least, most, some (String.ofList option)⟩)
  | scale {option : List Char} {factor : Binary64} : Binary64.Spelling factor option →
      factor.isFinite = true → OptionSpelling .scale option (.scale factor)
  | numberingSystem {name : String} : 3 ≤ name.toList.length → name.toList.length ≤ 8 →
      (∀ c ∈ name.toList, c.isLower = true ∨ c.isDigit = true) →
      OptionSpelling .numberingSystem name.toList (.numberingSystem name)

theorem read?_eq_some_iff {option : List Char} {power : PowerOption} :
    PowerOption.read? option = some power ↔ PowerSpelling option power := by
  constructor
  · intro found
    unfold PowerOption.read? at found
    split at found
    · rename_i marks
      split at found <;> cases found
      rename_i spelled
      rw [Bool.and_eq_true, Bool.not_eq_true', List.isEmpty_eq_false_iff] at spelled
      have digits := PowerSpelling.digits (List.length_pos_iff.mpr spelled.1)
      rwa [← Text.eq_replicate_of_all spelled.2] at digits
    · rcases Option.map_eq_some_iff.mp found with ⟨sign, known, rfl⟩
      have word := Text.word_of_valueOf? known
      rw [← String.toList_ofList (l := option), ← word]
      exact .sign sign
  · intro spelled
    cases spelled with
    | digits positive =>
        have read := Skeleton.read?_digitsOption positive
        rwa [ExponentStyle.digitsOption, String.toList_ofList] at read
    | sign sign => exact Skeleton.read?_signOption sign

theorem isUnitId_iff {text : List Char} :
    isUnitId text = true ↔ Skeleton.IsUnitId (String.ofList text) := by
  refine ⟨isUnitId_of_isUnitId, ?_⟩
  rintro ⟨segments, nonempty, joined, identifiers⟩
  rw [String.toList_ofList] at joined
  have hyphenless : ∀ segment ∈ segments, '-' ∉ segment := by
    intro segment member inside
    rcases (identifiers segment member).2 '-' inside with lower | digit
    · cases lower
    · cases digit
  unfold isUnitId
  rw [joined, List.splitOn_intercalate '-' hyphenless nonempty, List.all_eq_true]
  intro segment member
  rcases identifiers segment member with ⟨some, characters⟩
  rw [Bool.and_eq_true, Bool.not_eq_true', List.isEmpty_eq_false_iff, List.all_eq_true]
  exact ⟨some, fun c inside => Bool.or_eq_true_iff.mpr (characters c inside)⟩

theorem finiteNumber?_eq_some_iff {option : List Char} {x : Binary64} :
    finiteNumber? option = some x ↔ Binary64.Spelling x option ∧ x.isFinite = true := by
  rw [finiteNumber?, Option.filter_eq_some_iff, Binary64.read?_eq_some_iff]

theorem optionSpelling_of_setting? {kind : Kind} {option : List Char} {setting : Setting}
    (found : kind.setting? option = some setting) : OptionSpelling kind option setting := by
  have spelled : (String.ofList option).toList = option := String.toList_ofList
  cases kind with
  | currency =>
      rw [Kind.setting?] at found
      split at found <;> cases found
      rename_i code
      have made := @OptionSpelling.currency (String.ofList option)
      rw [Skeleton.IsCurrencyCode, spelled] at made
      exact made code
  | measureUnit =>
      rw [Kind.setting?] at found
      split at found <;> cases found
      rename_i id
      have made := OptionSpelling.measureUnit (isUnitId_iff.mp id)
      rwa [spelled] at made
  | perMeasureUnit =>
      rw [Kind.setting?] at found
      split at found <;> cases found
      rename_i id
      have made := OptionSpelling.perMeasureUnit (isUnitId_iff.mp id)
      rwa [spelled] at made
  | increment =>
      rcases Option.map_eq_some_iff.mp found with ⟨step, read, rfl⟩
      rcases Option.filter_eq_some_iff.mp read with ⟨number, positive⟩
      rcases finiteNumber?_eq_some_iff.mp number with ⟨literal, finite⟩
      exact .increment literal finite positive
  | integerWidth =>
      rcases Option.map_eq_some_iff.mp found with ⟨counts, read, rfl⟩
      exact .integerWidth (Blueprint.width?_eq_some_iff.mp read)
  | scale =>
      rcases Option.map_eq_some_iff.mp found with ⟨factor, number, rfl⟩
      rcases finiteNumber?_eq_some_iff.mp number with ⟨literal, finite⟩
      exact .scale literal finite
  | numberingSystem =>
      rw [Kind.setting?] at found
      split at found <;> cases found
      rename_i name
      have made := @OptionSpelling.numberingSystem (String.ofList option)
      rw [spelled] at made
      refine made name.1 name.2.1 ?_
      intro c inside
      exact Bool.or_eq_true_iff.mp (List.all_eq_true.mp name.2.2 c inside)

theorem setting?_of_optionSpelling {kind : Kind} {option : List Char} {setting : Setting}
    (spelled : OptionSpelling kind option setting) : kind.setting? option = some setting := by
  cases spelled with
  | @currency code valid =>
      unfold Skeleton.IsCurrencyCode at valid
      rw [Kind.setting?, if_pos valid, String.ofList_toList]
  | @measureUnit id valid =>
      rw [← String.ofList_toList (s := id)] at valid
      rw [Kind.setting?, if_pos (isUnitId_iff.mpr valid), String.ofList_toList]
  | @perMeasureUnit id valid =>
      rw [← String.ofList_toList (s := id)] at valid
      rw [Kind.setting?, if_pos (isUnitId_iff.mpr valid), String.ofList_toList]
  | increment literal finite positive =>
      rw [Kind.setting?, finiteNumber?_eq_some_iff.mpr ⟨literal, finite⟩, Option.filter_some,
        if_pos positive]
      rfl
  | integerWidth width =>
      rw [Kind.setting?, Blueprint.width?_eq_some_iff.mpr width]
      rfl
  | scale literal finite =>
      rw [Kind.setting?, finiteNumber?_eq_some_iff.mpr ⟨literal, finite⟩]
      rfl
  | @numberingSystem name least most identifier =>
      have all : name.toList.all isIdCharacter = true := by
        rw [List.all_eq_true]
        exact fun c inside => Bool.or_eq_true_iff.mpr (identifier c inside)
      rw [Kind.setting?, if_pos ⟨least, most, all⟩, String.ofList_toList]

/-- An option is taken exactly if it is spelled as its keyword asks. -/
theorem setting?_eq_some_iff {kind : Kind} {option : List Char} {setting : Setting} :
    kind.setting? option = some setting ↔ OptionSpelling kind option setting :=
  ⟨optionSpelling_of_setting?, setting?_of_optionSpelling⟩

/-! ## Powers of ten -/

namespace PowerOption

/-- The number of exponent digits an option asks for. -/
def count? : PowerOption → Option Nat
  | digits count => some count
  | sign _ => none

/-- The sign an option asks for. -/
def sign? : PowerOption → Option Sign
  | digits _ => none
  | sign mark => some mark

end PowerOption

/-- The style of options one after another: the last count of digits and the last sign. -/
def styleOf (options : List (List Char)) (powers : List PowerOption) : ExponentStyle where
  minDigits := (powers.filterMap PowerOption.count?).getLast?
  sign := (powers.filterMap PowerOption.sign?).getLast?
  source := if options = [] then none else some (joined options)

/-- The last option that says something about digits or sign decides. -/
theorem foldl_apply (powers : List PowerOption) (style : ExponentStyle) :
    powers.foldl PowerOption.apply style =
      { style with
        minDigits := (powers.filterMap PowerOption.count?).getLast?.or style.minDigits
        sign := (powers.filterMap PowerOption.sign?).getLast?.or style.sign } := by
  induction powers generalizing style with
  | nil => rfl
  | cons power powers ih =>
      rw [List.foldl_cons, ih]
      cases power with
      | digits count =>
          have counts : (PowerOption.digits count :: powers).filterMap PowerOption.count? =
              count :: powers.filterMap PowerOption.count? := rfl
          have signs : (PowerOption.digits count :: powers).filterMap PowerOption.sign? =
              powers.filterMap PowerOption.sign? := rfl
          rw [counts, signs, List.getLast?_cons]
          cases (powers.filterMap PowerOption.count?).getLast? <;> rfl
      | sign mark =>
          have counts : (PowerOption.sign mark :: powers).filterMap PowerOption.count? =
              powers.filterMap PowerOption.count? := rfl
          have signs : (PowerOption.sign mark :: powers).filterMap PowerOption.sign? =
              mark :: powers.filterMap PowerOption.sign? := rfl
          rw [counts, signs, List.getLast?_cons]
          cases (powers.filterMap PowerOption.sign?).getLast? <;> rfl

theorem exponentStyle_eq (options : List (List Char)) :
    exponentStyle options = styleOf options (options.filterMap PowerOption.read?) := by
  rw [exponentStyle, foldl_apply, styleOf]
  cases options <;> simp

/-- Options that can be read are spelled as what they are read as. -/
theorem forall₂_read? {options : List (List Char)}
    (readable : ∀ option ∈ options, (PowerOption.read? option).isSome = true) :
    List.Forall₂ PowerSpelling options (options.filterMap PowerOption.read?) := by
  induction options with
  | nil => exact .nil
  | cons option options ih =>
      have others := ih fun other member => readable other (List.mem_cons_of_mem _ member)
      cases read : PowerOption.read? option with
      | none =>
          have first := readable option List.mem_cons_self
          rw [read] at first
          cases first
      | some power =>
          rw [List.filterMap_cons_some read]
          exact .cons (read?_eq_some_iff.mp read) others

theorem filterMap_read? {options : List (List Char)} {powers : List PowerOption}
    (spelled : List.Forall₂ PowerSpelling options powers) :
    options.filterMap PowerOption.read? = powers := by
  induction spelled with
  | nil => rfl
  | cons first _ ih => rw [List.filterMap_cons_some (read?_eq_some_iff.mpr first), ih]

theorem isSome_read? {options : List (List Char)} {powers : List PowerOption}
    (spelled : List.Forall₂ PowerSpelling options powers) :
    ∀ option ∈ options, (PowerOption.read? option).isSome = true := by
  have both := spelled.imp fun option power first =>
    And.intro (Option.isSome_of_eq_some (read?_eq_some_iff.mpr first)) first
  exact ((List.forall₂_and_left options powers).mp both).1

end Stem

/-! ## Words -/

namespace Skeleton

open Stem (ofParts)

/-- The words that make a setting. -/
inductive WordSpelling : List Char → Setting → Prop where
  | plain {keyword : String} {setting : Setting} : (keyword, setting) ∈ Stem.plainStems →
      WordSpelling keyword.toList setting
  | needing {kind : Stem.Kind} {option : List Char} {setting : Setting} :
      Stem.OptionSpelling kind option setting →
      WordSpelling ((Text.Vocabulary.word kind).toList ++ '/' :: option) setting
  | power (power : Stem.Power) {options : List (List Char)} {powers : List Stem.PowerOption} :
      options.length ≤ 2 → List.Forall₂ Stem.PowerSpelling options powers →
      WordSpelling (['/'].intercalate ((Text.Vocabulary.word power).toList :: options))
        (.form (power.form (Stem.styleOf options powers)))
  | fraction {zeros : List Char} {least : Nat} {most : Option Nat} :
      Blueprint.Spelling '0' zeros (least, most) →
      WordSpelling ('.' :: zeros) (.precision (.digits {
        minFraction := some least, maxFraction := most
        source := some (String.ofList ('.' :: zeros)) }))
  | fractionSignificant {zeros marks : List Char} {least leastSignificant : Nat}
      {most mostSignificant : Option Nat} : Blueprint.Spelling '0' zeros (least, most) →
      Blueprint.Spelling '@' marks (leastSignificant, mostSignificant) → 1 ≤ leastSignificant →
      WordSpelling ('.' :: zeros ++ '/' :: marks) (.precision (.digits {
        minFraction := some least, maxFraction := most
        minSignificant := some leastSignificant, maxSignificant := mostSignificant
        source := some (String.ofList ('.' :: zeros ++ '/' :: marks)) }))
  | significant {marks : List Char} {least : Nat} {most : Option Nat} :
      Blueprint.Spelling '@' marks (least, most) → 1 ≤ least →
      WordSpelling marks (.precision (.digits {
        minSignificant := some least, maxSignificant := most
        source := some (String.ofList marks) }))

/-! ## Words are read as they are spelled -/

theorem plain_known : ∀ entry ∈ Stem.plainStems,
    Stem.ofKeyword? entry.1.toList = some (.plain entry.2) ∧ '/' ∉ entry.1.toList := by
  decide +kernel

theorem slash_notMem_blueprint {lead : Char} (other : lead ≠ '/') {text : List Char}
    {counts : Blueprint.Counts} (spelled : Blueprint.Spelling lead text counts) : '/' ∉ text := by
  intro inside
  cases spelled with
  | digits least beyond =>
      rcases List.mem_append.mp inside with required | behind
      · exact other (List.eq_of_mem_replicate required).symm
      · cases beyond with
        | hashes count => cases List.eq_of_mem_replicate behind
        | plus => cases List.mem_singleton.mp behind
        | star => cases List.mem_singleton.mp behind

theorem slash_notMem_fraction {zeros : List Char} {counts : Blueprint.Counts}
    (spelled : Blueprint.Spelling '0' zeros counts) : '/' ∉ '.' :: zeros := by
  intro inside
  rcases List.mem_cons.mp inside with point | behind
  · cases point
  · exact slash_notMem_blueprint (by decide) spelled behind

theorem slash_notMem_power {option : List Char} {power : Stem.PowerOption}
    (spelled : Stem.PowerSpelling option power) : '/' ∉ option := by
  intro inside
  cases spelled with
  | digits positive =>
      rcases List.mem_cons.mp inside with plus | digits
      · cases plus
      · cases List.eq_of_mem_replicate digits
  | sign sign => cases sign <;> revert inside <;> decide

theorem slash_notMem_powers {options : List (List Char)} {powers : List Stem.PowerOption}
    (spelled : List.Forall₂ Stem.PowerSpelling options powers) :
    ∀ option ∈ options, '/' ∉ option := by
  have both := spelled.imp fun option power first => And.intro (slash_notMem_power first) first
  exact ((List.forall₂_and_left options powers).mp both).1

theorem slash_notMem_unitId {id : String} (valid : IsUnitId id) : '/' ∉ id.toList := by
  rcases valid with ⟨segments, _, joined, identifiers⟩
  intro inside
  rw [joined] at inside
  rcases mem_joined inside with hyphen | ⟨segment, listed, slash⟩
  · cases hyphen
  · rcases (identifiers segment listed).2 '/' slash with lower | digit
    · cases lower
    · cases digit

theorem slash_notMem_width {option : List Char} {counts : Blueprint.Counts}
    (spelled : Blueprint.WidthSpelling option counts) : '/' ∉ option := by
  intro inside
  cases spelled with
  | plus zeros =>
      rcases List.mem_cons.mp inside with plus | digits
      · cases plus
      · cases List.eq_of_mem_replicate digits
  | star zeros =>
      rcases List.mem_cons.mp inside with star | digits
      · cases star
      · cases List.eq_of_mem_replicate digits
  | hashes nonempty =>
      rcases List.mem_append.mp inside with hashes | digits
      · cases List.eq_of_mem_replicate hashes
      · cases List.eq_of_mem_replicate digits

theorem slash_notMem_option {kind : Stem.Kind} {option : List Char} {setting : Setting}
    (spelled : Stem.OptionSpelling kind option setting) : '/' ∉ option := by
  intro inside
  cases spelled with
  | currency valid => cases List.all_eq_true.mp valid.2 '/' inside
  | measureUnit valid => exact slash_notMem_unitId valid inside
  | perMeasureUnit valid => exact slash_notMem_unitId valid inside
  | increment literal finite positive => cases literal.inNumber '/' inside
  | integerWidth width => exact slash_notMem_width width inside
  | scale literal finite => cases literal.inNumber '/' inside
  | numberingSystem least most identifier =>
      rcases identifier '/' inside with lower | digit
      · cases lower
      · cases digit

theorem ofKeyword?_fraction {zeros : List Char} {least : Nat} {most : Option Nat}
    (spelled : Blueprint.Spelling '0' zeros (least, most)) :
    Stem.ofKeyword? ('.' :: zeros) =
      some (.digits { minFraction := some least, maxFraction := most }) := by
  rw [Stem.ofKeyword?, (Blueprint.read?_eq_some_iff (by decide)).mpr spelled]
  rfl

theorem digitOptions_fraction (least : Nat) (most : Option Nat) :
    Stem.digitOptions { minFraction := some least, maxFraction := most } = 1 :=
  rfl

theorem intercalate_pair (first second : List Char) :
    ['/'].intercalate [first, second] = first ++ '/' :: second := by
  rw [List.intercalate_cons_cons, List.intercalate_singleton, List.append_assoc,
    List.singleton_append]

/-- A word that is a keyword. -/
theorem readWord_alone {keyword : List Char} (whole : '/' ∉ keyword) :
    readWord keyword = ofParts keyword [] := by
  rw [← readWord_cut, List.intercalate_singleton]
  intro part listed
  rwa [List.mem_singleton.mp listed]

/-- A word that is a keyword and one option. -/
theorem readWord_slash {keyword option : List Char} (whole : '/' ∉ keyword)
    (wholeOption : '/' ∉ option) :
    readWord (keyword ++ '/' :: option) = ofParts keyword [option] := by
  rw [← readWord_cut, intercalate_pair]
  intro part listed
  rcases List.mem_cons.mp listed with rfl | last
  · exact whole
  · rwa [List.mem_singleton.mp last]

theorem readWord_power (power : Stem.Power) {options : List (List Char)}
    {powers : List Stem.PowerOption} (few : options.length ≤ 2)
    (spelled : List.Forall₂ Stem.PowerSpelling options powers) :
    readWord (['/'].intercalate ((Text.Vocabulary.word power).toList :: options)) =
      ⟨some (.form (power.form (Stem.styleOf options powers))), []⟩ := by
  have known : Stem.ofKeyword? (Text.Vocabulary.word power).toList = some (.power power) := by
    cases power <;> decide
  have whole : ∀ part ∈ (Text.Vocabulary.word power).toList :: options, '/' ∉ part := by
    intro part listed
    rcases List.mem_cons.mp listed with rfl | option
    · cases power <;> decide
    · exact slash_notMem_powers spelled part option
  have readable := find?_unreadable.mpr (Stem.isSome_read? spelled)
  rw [readWord_cut whole, ofParts, known]
  simp only [Stem.setting, if_pos few, readable, Stem.exponentStyle_eq,
    Stem.filterMap_read? spelled]

/-- Significant digits behind a fraction are the one option it takes. -/
theorem readWord_fractionSignificant {zeros marks : List Char} {least leastSignificant : Nat}
    {most mostSignificant : Option Nat} (blueprint : Blueprint.Spelling '0' zeros (least, most))
    (significant : Blueprint.Spelling '@' marks (leastSignificant, mostSignificant))
    (positive : 1 ≤ leastSignificant) :
    readWord ('.' :: zeros ++ '/' :: marks) = ⟨some (.precision (.digits {
      minFraction := some least, maxFraction := most
      minSignificant := some leastSignificant, maxSignificant := mostSignificant
      source := some (String.ofList ('.' :: zeros ++ '/' :: marks)) })), []⟩ := by
  have option := slash_notMem_blueprint (by decide) significant
  have counts := Blueprint.significant?_eq_some_iff.mpr ⟨significant, positive⟩
  have source : Stem.joined ['.' :: zeros, marks] =
      String.ofList ('.' :: zeros ++ '/' :: marks) := by
    rw [Stem.joined, intercalate_pair]
  rw [readWord_slash (slash_notMem_fraction blueprint) option, ofParts,
    ofKeyword?_fraction blueprint, ← source]
  simp only [Stem.setting, digitOptions_fraction, List.take_succ_cons, List.take_zero,
    Stem.withSignificant, counts]
  rfl

theorem readWord_of_spelling {word : List Char} {setting : Setting}
    (spelled : WordSpelling word setting) : readWord word = ⟨some setting, []⟩ := by
  cases spelled with
  | plain listed =>
      rcases plain_known _ listed with ⟨known, whole⟩
      rw [readWord_alone whole, ofParts, known]
      rfl
  | @needing kind option _ spelled =>
      have whole : '/' ∉ (Text.Vocabulary.word kind).toList := by
        cases kind <;> decide
      rw [readWord_slash whole (slash_notMem_option spelled), ofParts, ofKeyword?_word]
      simp only [Stem.setting, Stem.setting?_eq_some_iff.mpr spelled]
  | power power few spelled => exact readWord_power power few spelled
  | fraction blueprint =>
      rw [readWord_alone (slash_notMem_fraction blueprint), ofParts,
        ofKeyword?_fraction blueprint]
      rfl
  | fractionSignificant blueprint significant positive =>
      exact readWord_fractionSignificant blueprint significant positive
  | significant blueprint positive =>
      have whole := slash_notMem_blueprint (by decide) blueprint
      have read := Blueprint.significant?_eq_some_iff.mpr ⟨blueprint, positive⟩
      rw [readWord_alone whole, ofParts, ofKeyword?_of_significant? read]
      rfl

/-! ## What is read is spelled so -/

section

variable {keyword : List Char} {options : List (List Char)} {setting : Setting}

theorem spelling_plain {choice : Setting}
    (listed : Stem.plainStems.lookup (String.ofList keyword) = some choice)
    (made : (Stem.plain choice).setting keyword options = ⟨some setting, []⟩) :
    WordSpelling (['/'].intercalate (keyword :: options)) setting := by
  cases options with
  | nil =>
      cases made
      have spelled := WordSpelling.plain (mem_of_lookup listed)
      rw [List.intercalate_singleton]
      rwa [String.toList_ofList] at spelled
  | cons first more =>
      unfold Stem.setting at made
      dsimp only at made
      split at made <;> cases made

theorem spelling_needing {kind : Stem.Kind}
    (made : (Stem.needing kind).setting (Text.Vocabulary.word kind).toList options =
      ⟨some setting, []⟩) :
    WordSpelling (['/'].intercalate ((Text.Vocabulary.word kind).toList :: options)) setting := by
  rcases options with _ | ⟨option, _ | ⟨second, more⟩⟩
  · cases made
  · cases found : kind.setting? option with
    | none =>
        simp only [Stem.setting, found] at made
        cases made
    | some choice =>
        simp only [Stem.setting, found] at made
        cases made
        rw [intercalate_pair]
        exact .needing (Stem.setting?_eq_some_iff.mp found)
  · cases made

theorem spelling_power {power : Stem.Power}
    (made : (Stem.power power).setting (Text.Vocabulary.word power).toList options =
      ⟨some setting, []⟩) :
    WordSpelling (['/'].intercalate ((Text.Vocabulary.word power).toList :: options)) setting := by
  unfold Stem.setting at made
  dsimp only at made
  split at made
  · rename_i few
    split at made
    · cases made
    · rename_i readable
      cases made
      rw [Stem.exponentStyle_eq]
      exact .power power few (Stem.forall₂_read? (find?_unreadable.mp readable))
  · cases made

/-- A blueprint of digits with nothing to report has no options beyond those it takes. -/
theorem digits_of_setting {bounds : DigitBounds}
    (made : (Stem.digits bounds).setting keyword options = ⟨some setting, []⟩) :
    options.drop (Stem.digitOptions bounds) = [] ∧
      ∃ found, Stem.withSignificant keyword bounds (options.take (Stem.digitOptions bounds)) =
        .ok found ∧ setting = .precision (.digits found) := by
  cases read : Stem.withSignificant keyword bounds (options.take (Stem.digitOptions bounds)) with
  | error bad =>
      simp only [Stem.setting, read] at made
      cases made
  | ok found =>
      simp only [Stem.setting, read, Reported.mk.injEq, Option.some.injEq] at made
      rcases made with ⟨rfl, silent⟩
      refine ⟨?_, found, rfl, rfl⟩
      split at silent
      · rename_i none
        exact List.isEmpty_iff.mp none
      · cases silent

theorem spelling_digits {bounds : DigitBounds}
    (known : Stem.ofKeyword? keyword = some (.digits bounds))
    (made : (Stem.digits bounds).setting keyword options = ⟨some setting, []⟩) :
    WordSpelling (['/'].intercalate (keyword :: options)) setting := by
  rcases digits_of_setting made with ⟨noMore, found, read, rfl⟩
  rcases ofKeyword?_digits known with ⟨zeros, counts, rfl, blueprint, rfl⟩ | ⟨counts, marks, rfl⟩
  -- A fraction takes one option and significant digits none, so there are as many at most.
  · have blueprint := (Blueprint.read?_eq_some_iff (by decide)).mp blueprint
    rcases options with _ | ⟨option, _ | ⟨second, more⟩⟩
    · cases read
      rw [List.intercalate_singleton]
      exact .fraction blueprint
    · rw [digitOptions_fraction, List.take_succ_cons, List.take_zero, Stem.withSignificant] at read
      split at read
      · cases read
      · rename_i marks
        cases read
        rcases Blueprint.significant?_eq_some_iff.mp marks with ⟨significant, positive⟩
        rw [Stem.joined, intercalate_pair]
        exact .fractionSignificant blueprint significant positive
    · cases noMore
  · cases noMore
    cases read
    rcases Blueprint.significant?_eq_some_iff.mp marks with ⟨spelled, positive⟩
    rw [List.intercalate_singleton]
    exact .significant spelled positive

end

theorem spelling_of_readWord {word : List Char} {setting : Setting}
    (made : readWord word = ⟨some setting, []⟩) : WordSpelling word setting := by
  rw [← joined_parts word]
  rw [readWord_eq] at made
  cases known : Stem.ofKeyword? (keyword word) with
  | none =>
      rw [ofParts, known] at made
      cases made
  | some stem =>
      rw [ofParts, known] at made
      rcases ofKeyword?_cases known with ⟨bounds, rfl⟩ | ⟨choice, rfl, listed⟩ |
        ⟨kind, rfl, word⟩ | ⟨power, rfl, word⟩
      · exact spelling_digits known made
      · exact spelling_plain listed made
      · rw [word] at made ⊢
        exact spelling_needing made
      · rw [word] at made ⊢
        exact spelling_power made

/-! ## The language -/

theorem skeleton_injective {setting other : Setting}
    (same : setting.skeleton = other.skeleton) : setting = other := by
  have own := choice?_skeleton setting setting.axis
  rw [same, choice?_skeleton, if_pos rfl] at own
  split at own <;> cases own
  rfl

/--
A token sets a field, and has nothing to report, exactly if it is a word of the language.  What it
sets the field to is what the word is spelled for.
-/
theorem read_eq_skeleton_iff {token : List Char} (whole : Token token) (setting : Setting) :
    read token = ⟨setting.skeleton, []⟩ ↔ WordSpelling token setting := by
  constructor
  · intro set
    have result : (read token).result = setting.skeleton := congrArg Reported.result set
    rw [read_token whole] at set
    have silent : (readWord token).diagnostics = [] := congrArg Reported.diagnostics set
    rcases read_token_cases whole with ⟨_, nothing⟩ | ⟨other, made, same⟩
    · have chosen := choice?_skeleton setting setting.axis
      rw [← result, nothing, choice?_empty, if_pos rfl] at chosen
      cases chosen
    · cases skeleton_injective (same.symm.trans result)
      apply spelling_of_readWord
      rw [← made, ← silent]
  · intro spelled
    rw [read_token whole, readWord_of_spelling spelled]
    exact congrArg (Reported.mk · []) (ofSettings_singleton setting)

theorem read_eq_skeleton_iff_digits :
    Token ".00##/@@+".toList ∧
      read ".00##/@@+".toList = ⟨(Setting.precision (.digits {
        minFraction := some 2, maxFraction := some 4, minSignificant := some 2
        source := some ".00##/@@+" })).skeleton, []⟩ := by
  have whole : Token ".00##/@@+".toList := by decide
  have spelled := WordSpelling.fractionSignificant (.digits 2 (.hashes 2)) (.digits 2 .plus)
    (by decide)
  exact ⟨whole, (read_eq_skeleton_iff whole _).mpr spelled⟩

end Skeleton
end NumberFormat
