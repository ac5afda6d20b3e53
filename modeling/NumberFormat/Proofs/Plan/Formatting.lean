import NumberFormat.Plan.Compile
import NumberFormat.Proofs.Format.Sign

namespace NumberFormat

/-!
Values formatted as skeletons ask for.

A skeleton that says nothing about signs shows the values above zero as it would without any sign,
and text around a number is put there afterwards.
-/

namespace Step

theorem apply_negate (step : Step) (value : Binary64) :
    step.apply value.negate = (step.apply value).negate := by
  cases step with
  | scale factor => exact value.multiply_negate factor
  | percent => exact value.hundredth_negate

end Step

theorem Plan.applySteps_negate (plan : Plan) (value : Binary64) :
    plan.applySteps value.negate = (plan.applySteps value).negate := by
  unfold Plan.applySteps
  induction plan.steps generalizing value with
  | nil => rfl
  | cons step steps ih => rw [List.foldl_cons, List.foldl_cons, step.apply_negate, ih]

namespace Skeleton

theorem formatted_around {s : Skeleton} (bare : s.affix = none) (affix : Affix)
    (own : List (String × Locale)) (locale : String) (value : Binary64) :
    { s with affix := some affix }.formatted own locale value =
      affix.around value (s.formatted own locale value) := by
  cases s
  cases bare
  rfl

/-- A value as the formatter of a skeleton's options writes it, before the plan respells it. -/
def shown (s : Skeleton) (own : List (String × Locale)) (locale : String) (value : Binary64) :
    List Char :=
  Format.number Tables.builtIn ((own.lookup locale).getD (Tables.builtIn.localeOrEnglish locale))
    (Plan.optionsOf s) ((Plan.ofSkeleton locale s).applySteps value)

/-- Without text around it a value is what the formatter writes, in the digits of the plan. -/
theorem toList_formatted {s : Skeleton} (bare : s.affix = none) (own : List (String × Locale))
    (locale : String) (value : Binary64) :
    (s.formatted own locale value).toList =
      match s.numberingSystem.bind Plan.zeroDigit? with
      | some zero => Format.respell zero (s.shown own locale value)
      | none => s.shown own locale value := by
  unfold formatted Plan.format Plan.ofSkeleton Formatter.builtIn Formatter.ofTables
  rw [bare]
  dsimp only
  cases s.numberingSystem.bind Plan.zeroDigit? with
  | none => exact String.toList_ofList
  | some zero =>
      dsimp only
      rw [Plan.respell, String.toList_ofList, String.toList_ofList]
      rfl

/-- A skeleton that decides on digits and units only. -/
structure Plain (s : Skeleton) : Prop where
  sign : s.sign = none
  affix : s.affix = none
  scale : s.scale = none
  numberingSystem : s.numberingSystem = none

/-- A value without sign as a skeleton shows it, its numbering system and affix apart. -/
def unsigned (s : Skeleton) (own : List (String × Locale)) (locale : String) (value : Binary64) :
    String :=
  String.ofList (Format.unsigned Tables.builtIn
    ((own.lookup locale).getD (Tables.builtIn.localeOrEnglish locale)) (Plan.optionsOf s)
    ((Plan.ofSkeleton locale s).applySteps value))

theorem style_optionsOf (s : Skeleton) :
    (Plan.optionsOf s).style = s.unit.bind Options.styleOf := by
  unfold Plan.optionsOf
  split <;> rfl

theorem signDisplay_optionsOf (s : Skeleton) :
    (Plan.optionsOf s).signDisplay = s.sign.bind Options.signDisplayOf := by
  unfold Plan.optionsOf
  split <;> rfl

theorem optionsOf_never {s : Skeleton} (silent : s.sign = none) :
    Plan.optionsOf { s with sign := some .never } =
      { Plan.optionsOf s with signDisplay := some .never } := by
  unfold Plan.optionsOf Options.ofSkeleton
  dsimp only
  rw [silent]
  split <;> rfl

variable {s : Skeleton} (plain : s.Plain) (own : List (String × Locale)) (locale : String)

include plain

theorem hasMinus_applySteps (value : Binary64) :
    ((Plan.ofSkeleton locale s).applySteps value).hasMinus = value.hasMinus := by
  have steps : (Plan.ofSkeleton locale s).steps = (s.unit.bind Plan.unitStep).toList := by
    rw [Plan.ofSkeleton, plain.scale]
    rfl
  rw [Plan.applySteps, steps]
  cases s.unit with
  | none => rfl
  | some unit =>
      cases unit with
      | percent => exact value.hasMinus_hundredth
      | _ => rfl

/-- A value without a minus sign is shown without sign. -/
theorem formatted_unmarked {value : Binary64} (noMinus : value.hasMinus = false) :
    s.formatted own locale value = s.unsigned own locale value := by
  have noMinus : ((Plan.ofSkeleton locale s).applySteps value).hasMinus = false := by
    rw [hasMinus_applySteps plain, noMinus]
  have silent : (Plan.optionsOf s).signDisplay = none := by
    rw [signDisplay_optionsOf, plain.sign]
    rfl
  unfold formatted Plan.format Plan.ofSkeleton Formatter.builtIn Formatter.ofTables
  rw [plain.affix, plain.numberingSystem]
  exact congrArg String.ofList (Format.number_plain silent _ _ noMinus)

/-- A value above zero is shown without sign. -/
theorem formatted_positive {value : Binary64} (positive : value.isPositive = true) :
    s.formatted own locale value = s.unsigned own locale value :=
  formatted_unmarked plain own locale (Binary64.hasMinus_of_isPositive positive)

/-- A skeleton whose sign is never shown shows every value without sign. -/
theorem formatted_never (value : Binary64) :
    { s with sign := some .never }.formatted own locale value = s.unsigned own locale value := by
  unfold formatted Plan.format Plan.ofSkeleton Formatter.builtIn Formatter.ofTables
  rw [optionsOf_never plain.sign, plain.affix, plain.numberingSystem]
  exact congrArg String.ofList
    ((Format.number_never rfl _ _ _).trans (Format.unsigned_signDisplay _ _ _ _ _))

omit plain in
theorem unsigned_negate (value : Binary64) :
    s.unsigned own locale value.negate = s.unsigned own locale value := by
  rw [unsigned, Plan.applySteps_negate, Format.unsigned_negate, unsigned]

end Skeleton
end NumberFormat
