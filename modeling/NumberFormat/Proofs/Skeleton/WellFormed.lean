import NumberFormat.Proofs.Skeleton.Blueprints

namespace NumberFormat

/-!
Skeletons whose counts and names make sense.

What can be counted is counted in order, the least number never above the largest, and an increment
is above zero.  Each word of a text makes a setting of this kind, and a skeleton has no choices but
those that settings made.
-/

/-! ## Counts in order -/

namespace IntegerWidth

def WellFormed (width : IntegerWidth) : Prop :=
  ∀ most ∈ width.max, width.min ≤ most

end IntegerWidth

namespace DigitBounds

/-- Bounds in order, with at least one significant digit where these are bounded. -/
structure WellFormed (bounds : DigitBounds) : Prop where
  fraction : ∀ least ∈ bounds.minFraction, ∀ most ∈ bounds.maxFraction, least ≤ most
  significant : ∀ least ∈ bounds.minSignificant, ∀ most ∈ bounds.maxSignificant, least ≤ most
  leastSignificant : ∀ least ∈ bounds.minSignificant, 1 ≤ least
  mostSignificant : ∀ most ∈ bounds.maxSignificant, 1 ≤ most

end DigitBounds

def Precision.WellFormed : Precision → Prop
  | .digits bounds => bounds.WellFormed
  | .increment step => step.isPositive = true
  | _ => True

namespace ExponentStyle

def WellFormed (style : ExponentStyle) : Prop :=
  ∀ count ∈ style.minDigits, 1 ≤ count

end ExponentStyle

def Notation.WellFormed : Notation → Prop
  | .scientific style => style.WellFormed
  | .engineering style => style.WellFormed
  | _ => True

def Setting.WellFormed : Setting → Prop
  | .integerWidth width => width.WellFormed
  | .precision digits => digits.WellFormed
  | .form style => style.WellFormed
  | _ => True

namespace Skeleton

structure WellFormed (s : Skeleton) : Prop where
  integerWidth : ∀ width ∈ s.integerWidth, width.WellFormed
  precision : ∀ digits ∈ s.precision, digits.WellFormed
  form : ∀ style ∈ s.form, style.WellFormed

/-- A unit id: lowercase letters and digits, in segments joined by hyphens. -/
def IsUnitId (id : String) : Prop :=
  ∃ segments, segments ≠ [] ∧ id.toList = ['-'].intercalate segments ∧
    ∀ segment ∈ segments, segment ≠ [] ∧ ∀ c ∈ segment, c.isLower = true ∨ c.isDigit = true

/-- What holds of a skeleton that was read from text. -/
structure FromText (s : Skeleton) : Prop where
  scale : ∀ factor ∈ s.scale, factor.isFinite = true
  increment : ∀ step, s.precision = some (.increment step) → step.isFinite = true
  currency : ∀ code, s.unit = some (.currency code) → IsCurrencyCode code
  measure : ∀ id, s.unit = some (.measure id) → IsUnitId id
  perUnit : ∀ id ∈ s.perUnit, IsUnitId id
  affix : s.affix = none

end Skeleton

open Skeleton (IsCurrencyCode IsUnitId)
open Stem (ofParts)

/-- What holds of a setting that was read from a word. -/
def Setting.FromWord : Setting → Prop
  | .unit (.currency code) => IsCurrencyCode code
  | .unit (.measure id) => IsUnitId id
  | .perUnit id => IsUnitId id
  | .precision (.increment step) => step.isFinite = true
  | .scale factor => factor.isFinite = true
  | _ => True

/-! ## Blueprints -/

namespace Blueprint

theorem read?_ordered {lead : Char} {text : List Char} {counts : Counts}
    (read : read? lead text = some counts) : ∀ most ∈ counts.2, counts.1 ≤ most := by
  rcases Option.map_eq_some_iff.mp read with ⟨further, _, rfl⟩
  intro most member
  rcases Option.map_eq_some_iff.mp member with ⟨more, _, rfl⟩
  exact Nat.le_add_right _ _

theorem significant?_ordered {text : List Char} {counts : Counts}
    (read : significant? text = some counts) :
    1 ≤ counts.1 ∧ ∀ most ∈ counts.2, counts.1 ≤ most := by
  unfold significant? at read
  split at read
  · rename_i minimum maximum found
    cases read
    exact ⟨Nat.le_add_left 1 minimum, read?_ordered found⟩
  · cases read

theorem width?_ordered {text : List Char} {counts : Counts} (read : width? text = some counts) :
    ∀ most ∈ counts.2, counts.1 ≤ most := by
  intro most member
  unfold width? at read
  split at read
  · cases read
  · split at read
    · split at read <;> cases read
      cases member
    · dsimp only at read
      split at read <;> cases read
      cases member
      exact (List.dropWhile_sublist _).length_le

end Blueprint

namespace DigitBounds

theorem wellFormed_unset : WellFormed {} :=
  ⟨nofun, nofun, nofun, nofun⟩

theorem WellFormed.withSource {bounds : DigitBounds} (wellFormed : bounds.WellFormed)
    (source : Option String) : WellFormed { bounds with source := source } :=
  ⟨wellFormed.fraction, wellFormed.significant, wellFormed.leastSignificant,
    wellFormed.mostSignificant⟩

theorem wellFormed_fraction {counts : Blueprint.Counts}
    (ordered : ∀ most ∈ counts.2, counts.1 ≤ most) :
    WellFormed { minFraction := some counts.1, maxFraction := counts.2 } := by
  refine ⟨?_, nofun, nofun, nofun⟩
  intro least member
  cases member
  exact ordered

/-- Significant digits take the place of those there were, and leave the fraction alone. -/
theorem WellFormed.withSignificant {bounds : DigitBounds} (wellFormed : bounds.WellFormed)
    {least : Nat} {most : Option Nat} (positive : 1 ≤ least) (ordered : ∀ m ∈ most, least ≤ m)
    (source : Option String) :
    WellFormed { bounds with
      minSignificant := some least, maxSignificant := most, source := source } := by
  refine ⟨wellFormed.fraction, ?_, ?_, ?_⟩
  · intro n member
    cases member
    exact ordered
  · intro n member
    cases member
    exact positive
  · intro m member
    exact Nat.le_trans positive (ordered m member)

end DigitBounds

/-! ## Words -/

namespace Stem

theorem isUnitId_of_isUnitId {text : List Char} (id : isUnitId text = true) :
    IsUnitId (String.ofList text) := by
  refine ⟨text.splitOn '-', List.splitOn_ne_nil _ _, ?_, ?_⟩
  · rw [String.toList_ofList, List.intercalate_splitOn]
  · intro segment member
    have parts := List.all_eq_true.mp id segment member
    rw [Bool.and_eq_true, Bool.not_eq_true', List.isEmpty_eq_false_iff] at parts
    refine ⟨parts.1, ?_⟩
    intro c inside
    exact Bool.or_eq_true_iff.mp (List.all_eq_true.mp parts.2 c inside)

theorem wellFormed_of_digits {keyword : List Char} {bounds : DigitBounds}
    (known : ofKeyword? keyword = some (.digits bounds)) : bounds.WellFormed := by
  rcases Skeleton.ofKeyword?_digits known with ⟨_, counts, _, read, rfl⟩ | ⟨counts, read, rfl⟩
  · exact DigitBounds.wellFormed_fraction (Blueprint.read?_ordered read)
  · have ordered := Blueprint.significant?_ordered read
    exact DigitBounds.wellFormed_unset.withSignificant ordered.1 ordered.2 none

theorem wellFormed_withSignificant {keyword : List Char} {bounds found : DigitBounds}
    (wellFormed : bounds.WellFormed) {options : List (List Char)}
    (read : withSignificant keyword bounds options = .ok found) : found.WellFormed := by
  unfold withSignificant at read
  split at read
  · cases read
    exact wellFormed.withSource _
  · split at read
    · cases read
    · rename_i counts known
      cases read
      have ordered := Blueprint.significant?_ordered known
      exact wellFormed.withSignificant ordered.1 ordered.2 _

/-- An option that counts exponent digits counts one at least. -/
theorem PowerOption.digits_pos {option : List Char} {count : Nat}
    (read : read? option = some (.digits count)) : 1 ≤ count := by
  unfold read? at read
  split at read
  · rename_i marks
    split at read
    · rename_i spelled
      cases read
      rw [Bool.and_eq_true, Bool.not_eq_true', List.isEmpty_eq_false_iff] at spelled
      exact List.length_pos_iff.mpr spelled.1
    · cases read
  · rcases Option.map_eq_some_iff.mp read with ⟨sign, _, same⟩
    cases same

theorem wellFormed_exponentStyle (options : List (List Char)) :
    (exponentStyle options).WellFormed := by
  have applied (powers : List PowerOption) (counted : ∀ count, .digits count ∈ powers → 1 ≤ count)
      (style : ExponentStyle) (wellFormed : style.WellFormed) :
      (powers.foldl PowerOption.apply style).WellFormed := by
    induction powers generalizing style with
    | nil => exact wellFormed
    | cons power powers ih =>
        apply ih (fun count member => counted count (List.mem_cons_of_mem _ member))
        cases power with
        | digits count =>
            intro least member
            cases member
            exact counted count List.mem_cons_self
        | sign mark => exact wellFormed
  apply applied
  · intro count member
    rcases List.mem_filterMap.mp member with ⟨option, _, read⟩
    exact PowerOption.digits_pos read
  · exact nofun

theorem sound_of_mem_plainStems {entry : String × Setting} (listed : entry ∈ plainStems) :
    entry.2.WellFormed ∧ entry.2.FromWord := by
  have ofWords {α : Type} [Text.Vocabulary α] {setting : α → Setting}
      (inside : entry ∈ wordsOf setting)
      (sound : ∀ value, (setting value).WellFormed ∧ (setting value).FromWord) :
      entry.2.WellFormed ∧ entry.2.FromWord := by
    rcases List.mem_map.mp inside with ⟨value, _, rfl⟩
    exact sound value
  simp only [plainStems, List.mem_append, List.map_cons, List.map_nil] at listed
  rcases listed with
    (((((((form | unit) | width) | grouping) | precision) | rounding) | sign) | mark) | latin
  · simp only [List.mem_cons, List.not_mem_nil, or_false] at form
    rcases form with rfl | rfl | rfl <;> exact ⟨trivial, trivial⟩
  · simp only [List.mem_cons, List.not_mem_nil, or_false] at unit
    rcases unit with rfl | rfl | rfl <;> exact ⟨trivial, trivial⟩
  · exact ofWords width (fun _ => ⟨trivial, trivial⟩)
  · exact ofWords grouping (fun _ => ⟨trivial, trivial⟩)
  · simp only [List.mem_cons, List.not_mem_nil, or_false] at precision
    rcases precision with rfl | rfl | rfl | rfl <;> exact ⟨trivial, trivial⟩
  · exact ofWords rounding (fun _ => ⟨trivial, trivial⟩)
  · exact ofWords sign (fun _ => ⟨trivial, trivial⟩)
  · exact ofWords mark (fun _ => ⟨trivial, trivial⟩)
  · rw [List.mem_singleton.mp latin]
    exact ⟨trivial, trivial⟩

/-- What a keyword makes of the one option it needs. -/
theorem sound_of_setting? {kind : Kind} {option : List Char} {setting : Setting}
    (made : kind.setting? option = some setting) : setting.WellFormed ∧ setting.FromWord := by
  cases kind with
  | currency =>
      rw [Kind.setting?] at made
      split at made <;> cases made
      rename_i code
      refine ⟨trivial, ?_⟩
      rw [Setting.FromWord, IsCurrencyCode, String.toList_ofList]
      exact code
  | measureUnit =>
      rw [Kind.setting?] at made
      split at made <;> cases made
      rename_i id
      exact ⟨trivial, isUnitId_of_isUnitId id⟩
  | perMeasureUnit =>
      rw [Kind.setting?] at made
      split at made <;> cases made
      rename_i id
      exact ⟨trivial, isUnitId_of_isUnitId id⟩
  | increment =>
      rcases Option.map_eq_some_iff.mp made with ⟨step, read, rfl⟩
      rcases Option.filter_eq_some_iff.mp read with ⟨found, positive⟩
      exact ⟨positive, (Option.filter_eq_some_iff.mp found).2⟩
  | integerWidth =>
      rcases Option.map_eq_some_iff.mp made with ⟨counts, read, rfl⟩
      exact ⟨Blueprint.width?_ordered read, trivial⟩
  | scale =>
      rcases Option.map_eq_some_iff.mp made with ⟨factor, found, rfl⟩
      exact ⟨trivial, (Option.filter_eq_some_iff.mp found).2⟩
  | numberingSystem =>
      rw [Kind.setting?] at made
      split at made <;> cases made
      exact ⟨trivial, trivial⟩

end Stem

namespace Skeleton

section

variable {keyword : List Char} {options : List (List Char)} {setting : Setting}

theorem sound_plain {choice : Setting}
    (listed : Stem.plainStems.lookup (String.ofList keyword) = some choice)
    (made : ((Stem.plain choice).setting keyword options).result = some setting) :
    setting.WellFormed ∧ setting.FromWord := by
  cases options with
  | cons first more =>
      unfold Stem.setting at made
      dsimp only at made
      split at made <;> cases made
  | nil =>
      cases made
      exact Stem.sound_of_mem_plainStems (mem_of_lookup listed)

theorem sound_needing {kind : Stem.Kind}
    (made : ((Stem.needing kind).setting keyword options).result = some setting) :
    setting.WellFormed ∧ setting.FromWord := by
  rcases options with _ | ⟨option, _ | ⟨second, more⟩⟩
  · cases made
  · cases found : kind.setting? option with
    | none =>
        simp only [Stem.setting, found] at made
        cases made
    | some choice =>
        simp only [Stem.setting, found] at made
        cases made
        exact Stem.sound_of_setting? found
  · cases made

theorem sound_power {power : Stem.Power}
    (made : ((Stem.power power).setting keyword options).result = some setting) :
    setting.WellFormed ∧ setting.FromWord := by
  unfold Stem.setting at made
  dsimp only at made
  split at made
  · split at made
    · cases made
    · cases made
      cases power <;> exact ⟨Stem.wellFormed_exponentStyle _, trivial⟩
  · cases made

theorem sound_digits {bounds : DigitBounds}
    (known : Stem.ofKeyword? keyword = some (.digits bounds))
    (made : ((Stem.digits bounds).setting keyword options).result = some setting) :
    setting.WellFormed ∧ setting.FromWord := by
  cases read : Stem.withSignificant keyword bounds (options.take (Stem.digitOptions bounds)) with
  | error bad =>
      simp only [Stem.setting, read] at made
      cases made
  | ok found =>
      simp only [Stem.setting, read] at made
      cases made
      exact ⟨Stem.wellFormed_withSignificant (Stem.wellFormed_of_digits known) read, trivial⟩

end

/-- What a word sets is in order and well spelled. -/
theorem sound_of_readWord {word : List Char} {setting : Setting}
    (made : (readWord word).result = some setting) : setting.WellFormed ∧ setting.FromWord := by
  rw [readWord_eq] at made
  cases known : Stem.ofKeyword? (keyword word) with
  | none =>
      rw [ofParts, known] at made
      cases made
  | some stem =>
      rw [ofParts, known] at made
      rcases ofKeyword?_cases known with ⟨bounds, rfl⟩ | ⟨choice, rfl, listed⟩ |
        ⟨kind, rfl, _⟩ | ⟨power, rfl, _⟩
      · exact sound_digits known made
      · exact sound_plain listed made
      · exact sound_needing made
      · exact sound_power made

/-! ## Skeletons -/

theorem mem_choices {s : Skeleton} (axis : Axis) {setting : Setting}
    (chosen : s.choice? axis = some setting) : setting ∈ s.choices := by
  apply List.mem_filterMap.mpr
  exact ⟨axis, by cases axis <;> simp [Axis.all], chosen⟩

/-- A skeleton whose choices are in order is in order itself. -/
theorem wellFormed_of_choices {s : Skeleton}
    (all : ∀ setting ∈ s.choices, setting.WellFormed) : s.WellFormed := by
  constructor
  · intro width chosen
    have member := mem_choices .integerWidth (Option.map_eq_some_iff.mpr ⟨width, chosen, rfl⟩)
    exact all _ member
  · intro digits chosen
    have member := mem_choices .precision (Option.map_eq_some_iff.mpr ⟨digits, chosen, rfl⟩)
    exact all _ member
  · intro style chosen
    have member := mem_choices .form (Option.map_eq_some_iff.mpr ⟨style, chosen, rfl⟩)
    exact all _ member

theorem sound_of_mem_choices_read {text : List Char} {setting : Setting}
    (member : setting ∈ (read text).result.choices) : setting.WellFormed ∧ setting.FromWord := by
  rw [read_result] at member
  rcases List.mem_filterMap.mp (mem_of_mem_choices member) with ⟨reported, listed, made⟩
  rcases List.mem_map.mp listed with ⟨word, _, rfl⟩
  exact sound_of_readWord made

theorem wellFormed_read (text : List Char) : (read text).result.WellFormed :=
  wellFormed_of_choices (fun _ member => (sound_of_mem_choices_read member).1)

theorem fromText_read (text : List Char) : (read text).result.FromText := by
  have chosen (axis : Axis) {setting : Setting}
      (made : (read text).result.choice? axis = some setting) : setting.FromWord :=
    (sound_of_mem_choices_read (mem_choices axis made)).2
  constructor
  · intro factor made
    exact chosen .scale (Option.map_eq_some_iff.mpr ⟨factor, made, rfl⟩)
  · intro step made
    exact chosen .precision (Option.map_eq_some_iff.mpr ⟨.increment step, made, rfl⟩)
  · intro code made
    exact chosen .unit (Option.map_eq_some_iff.mpr ⟨.currency code, made, rfl⟩)
  · intro id made
    exact chosen .unit (Option.map_eq_some_iff.mpr ⟨.measure id, made, rfl⟩)
  · intro id made
    exact chosen .perUnit (Option.map_eq_some_iff.mpr ⟨id, made, rfl⟩)
  · exact affix_read text

end Skeleton
end NumberFormat
