import NumberFormat.Skeleton.Basic

namespace NumberFormat

/-!
Settings: single choices, each on one axis of a skeleton.

A list of settings makes a skeleton by laying them over one another in turn, so the last setting
on an axis decides it.
-/

/-- A choice on one axis.  The text around a number is the axis that no setting chooses. -/
inductive Setting where
  | unit (unit : NumberUnit)
  | perUnit (id : String)
  | unitWidth (width : UnitWidth)
  | grouping (grouping : Grouping)
  | integerWidth (width : IntegerWidth)
  | precision (precision : Precision)
  | form (form : Notation)
  | sign (sign : Sign)
  | decimalMark (mark : DecimalMark)
  | roundingMode (mode : RoundingMode)
  | scale (factor : Binary64)
  | numberingSystem (name : String)
deriving DecidableEq

namespace Setting

/-- The skeleton that makes this choice and no other. -/
def skeleton : Setting → Skeleton
  | .unit value => { Skeleton.empty with unit := some value }
  | .perUnit value => { Skeleton.empty with perUnit := some value }
  | .unitWidth value => { Skeleton.empty with unitWidth := some value }
  | .grouping value => { Skeleton.empty with grouping := some value }
  | .integerWidth value => { Skeleton.empty with integerWidth := some value }
  | .precision value => { Skeleton.empty with precision := some value }
  | .form value => { Skeleton.empty with form := some value }
  | .sign value => { Skeleton.empty with sign := some value }
  | .decimalMark value => { Skeleton.empty with decimalMark := some value }
  | .roundingMode value => { Skeleton.empty with roundingMode := some value }
  | .scale value => { Skeleton.empty with scale := some value }
  | .numberingSystem value => { Skeleton.empty with numberingSystem := some value }

end Setting

namespace Skeleton

/-- The skeleton of settings that are made one after another. -/
def ofSettings : List Setting → Skeleton
  | [] => empty
  | first :: later => first.skeleton.overlay (ofSettings later)

theorem ofSettings_append (earlier later : List Setting) :
    ofSettings (earlier ++ later) = (ofSettings earlier).overlay (ofSettings later) := by
  induction earlier with
  | nil => simp [ofSettings]
  | cons first rest ih => rw [List.cons_append, ofSettings, ofSettings, ih, overlay_assoc]

end Skeleton
end NumberFormat
