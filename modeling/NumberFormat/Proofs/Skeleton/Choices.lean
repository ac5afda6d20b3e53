import NumberFormat.Skeleton.Printer

namespace NumberFormat

/-!
Skeletons axis by axis.

A skeleton without text around the number is determined by what it chooses on each axis.  Settings
made one after another act on their own axes only, and on each axis the last of them decides.
-/

/-- The axes on which a setting can choose, in the order in which a skeleton is written. -/
inductive Axis where
  | unit
  | perUnit
  | unitWidth
  | grouping
  | integerWidth
  | precision
  | form
  | sign
  | decimalMark
  | roundingMode
  | scale
  | numberingSystem
deriving DecidableEq

namespace Axis

def all : List Axis :=
  [unit, perUnit, unitWidth, grouping, integerWidth, precision, form, sign, decimalMark,
    roundingMode, scale, numberingSystem]

theorem filter_all (axis : Axis) : all.filter (· = axis) = [axis] := by
  cases axis <;> rfl

end Axis

namespace Setting

/-- The axis a setting chooses on. -/
def axis : Setting → Axis
  | .unit _ => .unit
  | .perUnit _ => .perUnit
  | .unitWidth _ => .unitWidth
  | .grouping _ => .grouping
  | .integerWidth _ => .integerWidth
  | .precision _ => .precision
  | .form _ => .form
  | .sign _ => .sign
  | .decimalMark _ => .decimalMark
  | .roundingMode _ => .roundingMode
  | .scale _ => .scale
  | .numberingSystem _ => .numberingSystem

/-- The word a setting is written as. -/
def word : Setting → String
  | .unit value => Skeleton.unitWord value
  | .perUnit id => "per-measure-unit/" ++ id
  | .unitWidth value => Text.Vocabulary.word value
  | .grouping value => Text.Vocabulary.word value
  | .integerWidth width => "integer-width/" ++ width.sourceText
  | .precision value => Skeleton.precisionWord value
  | .form value => Skeleton.formWord value
  | .sign value => Text.Vocabulary.word value
  | .decimalMark value => Text.Vocabulary.word value
  | .roundingMode value => Text.Vocabulary.word value
  | .scale factor => "scale/" ++ factor.text
  | .numberingSystem name => "numbering-system/" ++ name

end Setting

namespace Skeleton

/-- What a skeleton chooses on an axis, as a setting. -/
def choice? (s : Skeleton) : Axis → Option Setting
  | .unit => s.unit.map .unit
  | .perUnit => s.perUnit.map .perUnit
  | .unitWidth => s.unitWidth.map .unitWidth
  | .grouping => s.grouping.map .grouping
  | .integerWidth => s.integerWidth.map .integerWidth
  | .precision => s.precision.map .precision
  | .form => s.form.map .form
  | .sign => s.sign.map .sign
  | .decimalMark => s.decimalMark.map .decimalMark
  | .roundingMode => s.roundingMode.map .roundingMode
  | .scale => s.scale.map .scale
  | .numberingSystem => s.numberingSystem.map .numberingSystem

/-- All choices of a skeleton, in the order of the axes. -/
def choices (s : Skeleton) : List Setting :=
  Axis.all.filterMap s.choice?

/-! ## One axis at a time -/

theorem axis_of_choice? {s : Skeleton} {axis : Axis} {setting : Setting}
    (chosen : s.choice? axis = some setting) : setting.axis = axis := by
  cases axis <;> rcases Option.map_eq_some_iff.mp chosen with ⟨value, _, rfl⟩ <;> rfl

theorem choice?_empty (axis : Axis) : empty.choice? axis = none := by
  cases axis <;> rfl

theorem choice?_overlay (lower upper : Skeleton) (axis : Axis) :
    (lower.overlay upper).choice? axis = (upper.choice? axis).or (lower.choice? axis) := by
  cases axis <;> simp [choice?, overlay, Option.map_or]

/-- A setting chooses on its own axis and on no other. -/
theorem choice?_skeleton (setting : Setting) (axis : Axis) :
    setting.skeleton.choice? axis = if setting.axis = axis then some setting else none := by
  cases setting <;> cases axis <;> rfl

/-- The choices on all axes determine a skeleton, the text around the number apart. -/
theorem eq_of_choices {s t : Skeleton} (same : ∀ axis, s.choice? axis = t.choice? axis)
    (affixes : s.affix = t.affix) : s = t := by
  have unit := Option.map_injective (fun _ _ => Setting.unit.inj) (same .unit)
  have perUnit := Option.map_injective (fun _ _ => Setting.perUnit.inj) (same .perUnit)
  have unitWidth := Option.map_injective (fun _ _ => Setting.unitWidth.inj) (same .unitWidth)
  have grouping := Option.map_injective (fun _ _ => Setting.grouping.inj) (same .grouping)
  have integerWidth :=
    Option.map_injective (fun _ _ => Setting.integerWidth.inj) (same .integerWidth)
  have precision := Option.map_injective (fun _ _ => Setting.precision.inj) (same .precision)
  have form := Option.map_injective (fun _ _ => Setting.form.inj) (same .form)
  have sign := Option.map_injective (fun _ _ => Setting.sign.inj) (same .sign)
  have decimalMark := Option.map_injective (fun _ _ => Setting.decimalMark.inj) (same .decimalMark)
  have roundingMode :=
    Option.map_injective (fun _ _ => Setting.roundingMode.inj) (same .roundingMode)
  have scale := Option.map_injective (fun _ _ => Setting.scale.inj) (same .scale)
  have numberingSystem :=
    Option.map_injective (fun _ _ => Setting.numberingSystem.inj) (same .numberingSystem)
  cases s
  cases t
  simp only at *
  subst unit perUnit unitWidth grouping integerWidth precision form sign decimalMark roundingMode
    scale numberingSystem affixes
  rfl

/-! ## Settings one after another -/

theorem affix_ofSettings (settings : List Setting) : (ofSettings settings).affix = none := by
  induction settings with
  | nil => rfl
  | cons first later ih =>
      rw [ofSettings, overlay]
      dsimp only
      rw [ih]
      cases first <;> rfl

theorem with_no_affix {s : Skeleton} (bare : s.affix = none) : { s with affix := none } = s := by
  cases s
  cases bare
  rfl

/-- On each axis the last setting decides. -/
theorem choice?_ofSettings (settings : List Setting) (axis : Axis) :
    (ofSettings settings).choice? axis = (settings.filter (·.axis = axis)).getLast? := by
  induction settings with
  | nil => exact choice?_empty axis
  | cons first later ih =>
      rw [ofSettings, choice?_overlay, ih, choice?_skeleton]
      by_cases own : first.axis = axis
      · rw [if_pos own, List.filter_cons_of_pos (by simpa using own), List.getLast?_cons]
        cases (later.filter (·.axis = axis)).getLast? <;> rfl
      · rw [if_neg own, List.filter_cons_of_neg (by simpa using own), Option.or_none]

/-- Settings that agree axis by axis make the same skeleton, in whatever order they stand. -/
theorem ofSettings_congr {settings others : List Setting}
    (same : ∀ axis, settings.filter (·.axis = axis) = others.filter (·.axis = axis)) :
    ofSettings settings = ofSettings others := by
  apply eq_of_choices
  · intro axis
    rw [choice?_ofSettings, choice?_ofSettings, same axis]
  · rw [affix_ofSettings, affix_ofSettings]

/-! ## Choices -/

/-- A skeleton is written as the words of its choices. -/
theorem stems_eq (s : Skeleton) : s.stems = s.choices.map Setting.word := by
  have words : s.stems =
      (Axis.all.map (fun axis => (s.choice? axis).map Setting.word)).filterMap id := by
    simp only [stems, Axis.all, List.map_cons, List.map_nil, choice?, Option.map_map]
    rfl
  rw [words, choices, List.map_filterMap, List.filterMap_map]
  rfl

theorem filter_choices (s : Skeleton) (axis : Axis) :
    s.choices.filter (·.axis = axis) = (s.choice? axis).toList := by
  have own : ∀ other, (s.choice? other).filter (·.axis = axis) =
      if decide (other = axis) = true then s.choice? other else none := by
    intro other
    cases chosen : s.choice? other with
    | none => simp
    | some setting =>
        rw [Option.filter_some, axis_of_choice? chosen]
  rw [choices, List.filter_filterMap, funext own, ← List.filterMap_filter, Axis.filter_all]
  cases chosen : s.choice? axis <;> simp [chosen]

/-- The choices of a skeleton make it again. -/
theorem ofSettings_choices {s : Skeleton} (bare : s.affix = none) : ofSettings s.choices = s := by
  apply eq_of_choices
  · intro axis
    rw [choice?_ofSettings, filter_choices]
    cases s.choice? axis <;> rfl
  · rw [affix_ofSettings, bare]

theorem mem_of_mem_choices {settings : List Setting} {setting : Setting}
    (member : setting ∈ (ofSettings settings).choices) : setting ∈ settings := by
  rcases List.mem_filterMap.mp member with ⟨axis, _, chosen⟩
  rw [choice?_ofSettings] at chosen
  exact (List.mem_filter.mp (List.mem_of_getLast? chosen)).1

end Skeleton
end NumberFormat
