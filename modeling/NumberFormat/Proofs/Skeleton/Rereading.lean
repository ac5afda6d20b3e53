import NumberFormat.Proofs.Plan.Formatting
import NumberFormat.Proofs.Skeleton.RoundTrip

namespace NumberFormat

/-!
Skeletons that were never text, once they have been written and read.

Settings that come without a text of their own are written as blueprints, and a blueprint says
only what differs from the usual.  What is read remembers the blueprint and may bound the
significant digits where nothing bounded them, but it shows every number the same and leaves out
the same.
-/

/-! ## Settings -/

namespace IntegerWidth

/-- The width with the text it is written as. -/
def reread (width : IntegerWidth) : IntegerWidth :=
  { width with source := some width.sourceText }

end IntegerWidth

namespace DigitBounds

/-- The bounds with the text they are written as, which asks for one significant digit at least. -/
def reread (bounds : DigitBounds) : DigitBounds :=
  { bounds with
    minSignificant :=
      if bounds.boundsSignificant then some (Nat.max 1 (bounds.minSignificant.getD 1)) else none
    source := some bounds.sourceText }

theorem boundsSignificant_reread (bounds : DigitBounds) :
    bounds.reread.boundsSignificant = bounds.boundsSignificant := by
  cases known : bounds.boundsSignificant with
  | true =>
      rw [reread, known]
      rfl
  | false =>
      have none : bounds.maxSignificant.isSome = false := (Bool.or_eq_false_iff.mp known).2
      rw [reread, known, boundsSignificant, none]
      rfl

end DigitBounds

namespace ExponentStyle

/-- The style with the text it is written as, if there is anything unusual about it. -/
def reread (style : ExponentStyle) : ExponentStyle where
  minDigits := style.wideDigits
  sign := style.unusualSign
  source := if style.isCustomized then some style.sourceText else none

end ExponentStyle

def Precision.reread : Precision → Precision
  | .digits bounds => .digits bounds.reread
  | precision => precision

def Notation.reread : Notation → Notation
  | .scientific style => .scientific style.reread
  | .engineering style => .engineering style.reread
  | form => form

def Setting.reread : Setting → Setting
  | .integerWidth width => .integerWidth width.reread
  | .precision value => .precision value.reread
  | .form value => .form value.reread
  | setting => setting

/-! ## Reports -/

theorem unsupportedIntegerWidth_reread (width : IntegerWidth) :
    Skeleton.unsupportedIntegerWidth width.reread = Skeleton.unsupportedIntegerWidth width :=
  rfl

theorem unsupportedPrecision_reread (precision : Precision) :
    Skeleton.unsupportedPrecision precision.reread = Skeleton.unsupportedPrecision precision := by
  cases precision with
  | digits bounds =>
      unfold Precision.reread Skeleton.unsupportedPrecision
      dsimp only
      rw [DigitBounds.boundsSignificant_reread]
      rfl
  | _ => rfl

theorem filter_again {α : Type} (value : Option α) (p : α → Bool) :
    (value.filter p).filter p = value.filter p := by
  rw [Option.filter_filter]
  simp only [Bool.and_self]

theorem isCustomized_reread (style : ExponentStyle) :
    style.reread.isCustomized = style.isCustomized := by
  have digits : style.reread.wideDigits = style.wideDigits := filter_again _ _
  have sign : style.reread.unusualSign = style.unusualSign := filter_again _ _
  rw [ExponentStyle.isCustomized, digits, sign, ExponentStyle.isCustomized]

/-- What is reported of an unusual style is its text. -/
theorem sourceText_reread {style : ExponentStyle} (customized : style.isCustomized = true) :
    style.reread.sourceText = style.sourceText := by
  rw [ExponentStyle.sourceText, ExponentStyle.reread, if_pos customized, Option.getD_some]

theorem unsupportedForm_reread (form : Notation) :
    Skeleton.unsupportedForm form.reread = Skeleton.unsupportedForm form := by
  have same (style : ExponentStyle) (stem : String) :
      (if style.reread.isCustomized then
        some (Diagnostic.unsupported stem (some style.reread.sourceText)) else none) =
      if style.isCustomized then
        some (Diagnostic.unsupported stem (some style.sourceText)) else none := by
    rw [isCustomized_reread]
    split
    · rename_i customized
      rw [sourceText_reread customized]
    · rfl
  cases form with
  | scientific style => exact same style _
  | engineering style => exact same style _
  | _ => rfl

namespace Skeleton

/-- The skeleton as it is read from the text it is written as, with the text around numbers. -/
def reread (s : Skeleton) : Skeleton :=
  { s with
    integerWidth := s.integerWidth.map IntegerWidth.reread
    precision := s.precision.map Precision.reread
    form := s.form.map Notation.reread }

/-- Writing and reading leaves out what was left out before. -/
theorem unsupported_reread (s : Skeleton) : s.reread.unsupported = s.unsupported := by
  unfold unsupported reread
  simp only [Option.bind_map, Function.comp_def, unsupportedIntegerWidth_reread,
    unsupportedPrecision_reread, unsupportedForm_reread]

end Skeleton

/-! ## Formatted values -/

/-- One significant digit at least is what is shown anyway. -/
theorem ofSignificant_atLeastOne (least most : Option Nat) :
    Rounding.ofSignificant (some (Options.Count.ofNat (Nat.max 1 (least.getD 1))).value) most =
      Rounding.ofSignificant ((least.map Options.Count.ofNat).map Options.Count.value) most := by
  have same : Nat.max 1 (Options.Count.ofNat (Nat.max 1 (least.getD 1))).value =
      Nat.max 1 (((least.map Options.Count.ofNat).map Options.Count.value).getD 1) := by
    cases least with
    | none => rfl
    | some least =>
        change max 1 (min (max 1 least) Options.countLimit) = max 1 (min least Options.countLimit)
        unfold Options.countLimit
        omega
  unfold Rounding.ofSignificant
  rw [Option.getD_some, same]

namespace Format

/-- The least number of significant digits plays a part in the rule for digits only. -/
theorem number_congr {options : Options} {count : Option Options.Count}
    (same : ∀ usual, DigitRule.ofOptions { options with minimumSignificantDigits := count } usual =
      DigitRule.ofOptions options usual)
    (tables : Tables) (locale : Locale) (value : Binary64) :
    number tables locale { options with minimumSignificantDigits := count } value =
      number tables locale options value := by
  have shown (d : Decimal) :
      showDecimal tables locale { options with minimumSignificantDigits := count } d =
        showDecimal tables locale options d := by
    unfold showDecimal
    rw [same]
    rfl
  have shownValue :
      showValue tables locale { options with minimumSignificantDigits := count } value =
        showValue tables locale options value := by
    cases value with
    | finite negative m =>
        unfold showValue
        dsimp only
        rw [shown]
    | _ => rfl
  unfold number
  rw [shownValue]
  rfl

end Format

namespace Skeleton

/-- The bounds on digits that a skeleton asks for. -/
def bounds (s : Skeleton) : DigitBounds :=
  (s.precision.map Options.digitBoundsOf).getD {}

theorem ofSkeleton_reread (s : Skeleton) :
    Options.ofSkeleton s.reread = { Options.ofSkeleton s with
      minimumSignificantDigits := s.reread.bounds.minSignificant.map .ofNat } := by
  have width : (s.integerWidth.map IntegerWidth.reread).map IntegerWidth.min =
      s.integerWidth.map IntegerWidth.min := by
    rw [Option.map_map]
    rfl
  have form : (s.form.map Notation.reread).map Options.formOf = s.form.map Options.formOf := by
    rw [Option.map_map]
    exact congrArg (s.form.map ·) (funext fun form => by cases form <;> rfl)
  have compact : (s.form.map Notation.reread).bind Options.compactDisplayOf =
      s.form.bind Options.compactDisplayOf := by
    rw [Option.bind_map]
    exact congrArg (s.form.bind ·) (funext fun form => by cases form <;> rfl)
  unfold Options.ofSkeleton reread bounds
  dsimp only
  rw [width, form, compact]
  cases s.precision with
  | none => rfl
  | some precision => cases precision <;> rfl

theorem significant_optionsOf (s : Skeleton) :
    (Plan.optionsOf s).minimumSignificantDigits = s.bounds.minSignificant.map .ofNat ∧
      (Plan.optionsOf s).maximumSignificantDigits = s.bounds.maxSignificant.map .ofNat := by
  unfold Plan.optionsOf
  split <;> exact ⟨rfl, rfl⟩

/-- Reading what was written changes the least number of significant digits at most. -/
theorem optionsOf_reread (s : Skeleton) :
    Plan.optionsOf s.reread = { Plan.optionsOf s with
      minimumSignificantDigits := s.reread.bounds.minSignificant.map .ofNat } := by
  have precision : s.reread.precision = s.precision.map Precision.reread := rfl
  unfold Plan.optionsOf
  rw [precision, ofSkeleton_reread]
  cases s.precision with
  | none => rfl
  | some precision => cases precision <;> rfl

theorem minSignificant_reread (s : Skeleton) :
    s.reread.bounds.minSignificant =
      if s.bounds.boundsSignificant then some (Nat.max 1 (s.bounds.minSignificant.getD 1))
      else none := by
  unfold bounds reread
  dsimp only
  cases s.precision with
  | none => rfl
  | some precision => cases precision <;> rfl

theorem ofOptions_reread (s : Skeleton) (usual : Nat × Nat) :
    DigitRule.ofOptions { Plan.optionsOf s with
      minimumSignificantDigits := s.reread.bounds.minSignificant.map .ofNat } usual =
        DigitRule.ofOptions (Plan.optionsOf s) usual := by
  rcases significant_optionsOf s with ⟨least, most⟩
  rw [minSignificant_reread]
  -- Only where the significant digits were bounded is there anything new to ask for.
  cases bounded : s.bounds.boundsSignificant with
  | true =>
      have asked : ((s.bounds.minSignificant.map Options.Count.ofNat).map
          Options.Count.value).isSome ||
          ((s.bounds.maxSignificant.map Options.Count.ofNat).map Options.Count.value).isSome := by
        rw [DigitBounds.boundsSignificant] at bounded
        simpa only [Option.isSome_map] using bounded
      have rounding : DigitRule.roundingOf { Plan.optionsOf s with
          minimumSignificantDigits :=
            some (.ofNat (Nat.max 1 (s.bounds.minSignificant.getD 1))) } usual =
          DigitRule.roundingOf (Plan.optionsOf s) usual := by
        unfold DigitRule.roundingOf
        dsimp only
        rw [least, most, if_pos asked]
        exact ofSignificant_atLeastOne _ _
      exact congrArg (DigitRule.mk _) rounding
  | false =>
      have none : s.bounds.minSignificant = none := by
        rw [DigitBounds.boundsSignificant, Bool.or_eq_false_iff] at bounded
        exact Option.isNone_iff_eq_none.mp (Option.isSome_eq_false_iff.mp bounded.1)
      have unchanged : (Plan.optionsOf s).minimumSignificantDigits = .none := by
        rw [least, none]
        rfl
      rw [if_neg Bool.false_ne_true, Option.map_none, ← unchanged]

theorem formatted_reread (s : Skeleton) (own : List (String × Locale)) (locale : String)
    (value : Binary64) : s.reread.formatted own locale value = s.formatted own locale value := by
  unfold formatted Plan.format Plan.ofSkeleton
  rw [optionsOf_reread]
  unfold Formatter.builtIn Formatter.ofTables
  dsimp only
  rw [Format.number_congr (ofOptions_reread s)]
  rfl

/-! ## Written and read -/

theorem choice?_reread (s : Skeleton) (axis : Axis) :
    s.reread.choice? axis = (s.choice? axis).map Setting.reread := by
  have kept {α : Type} (value : Option α) (setting : α → Setting)
      (same : ∀ value, (setting value).reread = setting value) :
      value.map setting = (value.map setting).map Setting.reread := by
    rw [Option.map_map]
    exact congrArg (value.map ·) (funext fun value => (same value).symm)
  cases axis with
  | integerWidth =>
      change (s.integerWidth.map _).map _ = (s.integerWidth.map _).map _
      rw [Option.map_map, Option.map_map]
      rfl
  | precision =>
      change (s.precision.map _).map _ = (s.precision.map _).map _
      rw [Option.map_map, Option.map_map]
      rfl
  | form =>
      change (s.form.map _).map _ = (s.form.map _).map _
      rw [Option.map_map, Option.map_map]
      rfl
  | _ => exact kept _ _ (fun _ => rfl)

theorem ofSettings_choices_reread (s : Skeleton) :
    ofSettings (s.choices.map Setting.reread) = { s.reread with affix := none } := by
  have axes (setting : Setting) : setting.reread.axis = setting.axis := by
    cases setting <;> rfl
  apply eq_of_choices
  · intro axis
    have chosen : ({ s.reread with affix := none } : Skeleton).choice? axis =
        s.reread.choice? axis := by
      cases axis <;> rfl
    have own : ((fun setting : Setting => decide (setting.axis = axis)) ∘ Setting.reread) =
        fun setting => decide (setting.axis = axis) :=
      funext fun setting => by rw [Function.comp_apply, axes]
    rw [chosen, choice?_reread, choice?_ofSettings, List.filter_map, own, filter_choices]
    cases s.choice? axis <;> rfl
  · exact affix_ofSettings _

/-- A skeleton whose settings are read as they are written is read again as itself. -/
theorem read_text_reread {s : Skeleton}
    (reads : ∀ setting ∈ s.choices, ReadsAs setting setting.reread) :
    read s.text.toList = ⟨{ s.reread with affix := none }, []⟩ := by
  rw [read_text_as reads, ofSettings_choices_reread]

end Skeleton
end NumberFormat
