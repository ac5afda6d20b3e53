import NumberFormat.Binary64.Basic
import NumberFormat.Skeleton.Axes

namespace NumberFormat

/-!
Skeletons: how a number is to be shown, one optional choice per axis.

A choice that was not made leaves the axis to the locale.  Skeletons can be laid over one another,
and then the upper one decides wherever it makes a choice.
-/

/-- What a number counts. -/
inductive NumberUnit where
  | base
  | currency (code : String)
  | measure (id : String)
  | percent
  | permille
deriving DecidableEq

/--
The least and, if there is one, the largest number of digits of the whole part, with the option
text that asked for them.
-/
structure IntegerWidth where
  min : Nat
  max : Option Nat := none
  source : Option String := none
deriving DecidableEq

/--
Bounds on fraction digits and on significant digits, each of them optional, with the stem text
that asked for them.
-/
structure DigitBounds where
  minFraction : Option Nat := none
  maxFraction : Option Nat := none
  minSignificant : Option Nat := none
  maxSignificant : Option Nat := none
  source : Option String := none
deriving DecidableEq

namespace DigitBounds

def boundsFraction (bounds : DigitBounds) : Bool :=
  bounds.minFraction.isSome || bounds.maxFraction.isSome

def boundsSignificant (bounds : DigitBounds) : Bool :=
  bounds.minSignificant.isSome || bounds.maxSignificant.isSome

end DigitBounds

/-- How far a number is rounded. -/
inductive Precision where
  | digits (bounds : DigitBounds)
  | integer
  | unlimited
  | currencyStandard
  | currencyCash
  | increment (step : Binary64)
deriving DecidableEq

/-- How the exponent is written: its least number of digits and its sign. -/
structure ExponentStyle where
  minDigits : Option Nat := none
  sign : Option Sign := none
  source : Option String := none
deriving DecidableEq

/-- Whether powers of ten are written out, split off or named. -/
inductive Notation where
  | simple
  | scientific (exponent : ExponentStyle)
  | engineering (exponent : ExponentStyle)
  | compactShort
  | compactLong
deriving DecidableEq

/-- Text before and behind a number. -/
structure Surround where
  before : String
  after : String
deriving DecidableEq

/-- The text around a number, with another one for numbers below zero if there is one. -/
structure Affix where
  positive : Surround
  negative : Option Surround := none
deriving DecidableEq

structure Skeleton where
  unit : Option NumberUnit := none
  perUnit : Option String := none
  unitWidth : Option UnitWidth := none
  grouping : Option Grouping := none
  integerWidth : Option IntegerWidth := none
  precision : Option Precision := none
  form : Option Notation := none
  sign : Option Sign := none
  decimalMark : Option DecimalMark := none
  roundingMode : Option RoundingMode := none
  affix : Option Affix := none
  scale : Option Binary64 := none
  numberingSystem : Option String := none
deriving DecidableEq

namespace Skeleton

/-- The skeleton that makes no choice. -/
def empty : Skeleton := {}

/-- Both skeletons' choices, those of the upper one where both make one. -/
def overlay (lower upper : Skeleton) : Skeleton where
  unit := upper.unit <|> lower.unit
  perUnit := upper.perUnit <|> lower.perUnit
  unitWidth := upper.unitWidth <|> lower.unitWidth
  grouping := upper.grouping <|> lower.grouping
  integerWidth := upper.integerWidth <|> lower.integerWidth
  precision := upper.precision <|> lower.precision
  form := upper.form <|> lower.form
  sign := upper.sign <|> lower.sign
  decimalMark := upper.decimalMark <|> lower.decimalMark
  roundingMode := upper.roundingMode <|> lower.roundingMode
  affix := upper.affix <|> lower.affix
  scale := upper.scale <|> lower.scale
  numberingSystem := upper.numberingSystem <|> lower.numberingSystem

@[simp] theorem empty_overlay (s : Skeleton) : empty.overlay s = s := by
  simp [overlay, empty]

@[simp] theorem overlay_empty (s : Skeleton) : s.overlay empty = s := by
  simp [overlay, empty]

theorem overlay_assoc (a b c : Skeleton) :
    (a.overlay b).overlay c = a.overlay (b.overlay c) := by
  simp [overlay, Option.or_assoc]

end Skeleton
end NumberFormat
