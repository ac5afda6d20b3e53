import NumberFormat.Binary64.Arithmetic
import NumberFormat.Format.Number
import NumberFormat.Skeleton.Basic

namespace NumberFormat

/-!
Plans: everything there is to know about formatting a value, once its skeleton has been read.

A value goes through the steps of a plan and then to a formatter.  The formatted text is respelled
in another numbering system and put between affixes, if the plan says so.
-/

/-- A change to a value before it is formatted. -/
inductive Step where
  | scale (factor : Binary64)
  /-- A formatter counts percent in hundredths, so that the value has to be taken down first. -/
  | percent
deriving DecidableEq

namespace Step

def apply : Step → Binary64 → Binary64
  | scale factor, value => value.multiply factor
  | percent, value => value.hundredth

end Step

namespace Affix

/-- What stands around a value.  A zero counts as positive, whatever its sign. -/
def sideOf (affix : Affix) (value : Binary64) : Surround :=
  match affix.negative with
  | some negative => if value.isNegative then negative else affix.positive
  | none => affix.positive

/-- A text with what stands around it. -/
def around (affix : Affix) (value : Binary64) (text : String) : String :=
  (affix.sideOf value).before ++ text ++ (affix.sideOf value).after

end Affix

structure Plan where
  locale : String
  options : Options
  steps : List Step
  zeroDigit : Option Char
  affix : Option Affix
deriving DecidableEq

namespace Plan

/-- The value after all steps. -/
def applySteps (plan : Plan) (value : Binary64) : Binary64 :=
  plan.steps.foldl (fun value step => step.apply value) value

/-- The digits of a text in the numbering system of a zero. -/
def respell (zero : Char) (text : String) : String :=
  String.ofList (Format.respell zero text.toList)

/-- The value as text.  Its affixes follow its sign before the steps. -/
def format (plan : Plan) (formatter : Formatter) (value : Binary64) : String :=
  let number := formatter plan.locale plan.options (plan.applySteps value)
  let spelled := match plan.zeroDigit with
    | some zero => respell zero number
    | none => number
  match plan.affix with
  | some affix => affix.around value spelled
  | none => spelled

end Plan
end NumberFormat
