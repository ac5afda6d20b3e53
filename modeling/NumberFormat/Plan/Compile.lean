import NumberFormat.Options.OfSkeleton
import NumberFormat.Plan.Basic

namespace NumberFormat

/-!
Compiling skeletons into plans, and values into texts by the plan of a skeleton.
-/

namespace Plan

/-- The numbering system every text is written in to begin with. -/
def latin : String := "latn"

/-- The zero of a numbering system other than the one texts are written in to begin with. -/
def zeroDigit? (name : String) : Option Char :=
  if name = latin then none else Tables.builtIn.zeroDigit? name

/-- The step that a unit takes. -/
def unitStep : NumberUnit → Option Step
  | .percent => some .percent
  | _ => none

/--
The options of a skeleton.  An increment shows as many fraction digits as it has itself; the
value is not moved to a multiple of it.
-/
def optionsOf (s : Skeleton) : Options :=
  match s.precision with
  | some (.increment step) => { Options.ofSkeleton s with
      minimumFractionDigits := some (.ofNat step.fractionPlaces)
      maximumFractionDigits := some (.ofNat step.fractionPlaces) }
  | _ => Options.ofSkeleton s

/-- The plan of a skeleton in a locale. -/
def ofSkeleton (locale : String) (s : Skeleton) : Plan where
  locale := locale
  options := optionsOf s
  steps := (s.scale.map .scale).toList ++ (s.unit.bind unitStep).toList
  zeroDigit := s.numberingSystem.bind zeroDigit?
  affix := s.affix

end Plan

namespace Skeleton

/-- A value as a skeleton shows it in a locale, given locales of one's own. -/
def formatted (s : Skeleton) (own : List (String × Locale)) (locale : String) (value : Binary64) :
    String :=
  (Plan.ofSkeleton locale s).format (Formatter.builtIn own) value

/-- A numbering system that is not in the tables. -/
def unsupportedNumberingSystem (name : String) : Option Diagnostic :=
  if name = Plan.latin ∨ (Tables.builtIn.zeroDigit? name).isSome then none
  else some (.unsupported "numbering-system" (some name))

/-- What the plan of a skeleton leaves out or only approximates. -/
def planDiagnostics (s : Skeleton) : List Diagnostic :=
  s.unsupported ++ (s.numberingSystem.bind unsupportedNumberingSystem).toList

end Skeleton
end NumberFormat
