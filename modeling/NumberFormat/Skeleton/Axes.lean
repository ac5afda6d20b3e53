import NumberFormat.Text.Vocabulary

namespace NumberFormat

/-!
The axes of a skeleton that choose from a closed list.  Each choice is written as one keyword.
-/

/-- How much of a currency or measure unit is shown. -/
inductive UnitWidth where
  | fullName
  | hidden
  | isoCode
  | narrow
  | short
deriving DecidableEq

instance : Text.Vocabulary UnitWidth where
  values := [.fullName, .hidden, .isoCode, .narrow, .short]
  word
    | .fullName => "unit-width-full-name"
    | .hidden => "unit-width-hidden"
    | .isoCode => "unit-width-iso-code"
    | .narrow => "unit-width-narrow"
    | .short => "unit-width-short"
  complete := by intro value; cases value <;> simp
  distinct := by intro value other; cases value <;> cases other <;> simp

/-- Where separators stand between the digits of the whole part. -/
inductive Grouping where
  | auto
  | off
  | min2
  | onAligned
  | thousands
deriving DecidableEq

instance : Text.Vocabulary Grouping where
  values := [.auto, .off, .min2, .onAligned, .thousands]
  word
    | .auto => "group-auto"
    | .off => "group-off"
    | .min2 => "group-min2"
    | .onAligned => "group-on-aligned"
    | .thousands => "group-thousands"
  complete := by intro value; cases value <;> simp
  distinct := by intro value other; cases value <;> cases other <;> simp

/-- When a sign is shown, and whether an amount below zero goes into parentheses. -/
inductive Sign where
  | auto
  | always
  | never
  | accounting
  | accountingAlways
  | exceptZero
  | accountingExceptZero
deriving DecidableEq

instance : Text.Vocabulary Sign where
  values := [.auto, .always, .never, .accounting, .accountingAlways, .exceptZero,
    .accountingExceptZero]
  word
    | .auto => "sign-auto"
    | .always => "sign-always"
    | .never => "sign-never"
    | .accounting => "sign-accounting"
    | .accountingAlways => "sign-accounting-always"
    | .exceptZero => "sign-except-zero"
    | .accountingExceptZero => "sign-accounting-except-zero"
  complete := by intro value; cases value <;> simp
  distinct := by intro value other; cases value <;> cases other <;> simp

/-- When the decimal point is shown. -/
inductive DecimalMark where
  | auto
  | always
deriving DecidableEq

instance : Text.Vocabulary DecimalMark where
  values := [.auto, .always]
  word
    | .auto => "decimal-auto"
    | .always => "decimal-always"
  complete := by intro value; cases value <;> simp
  distinct := by intro value other; cases value <;> cases other <;> simp

/-- The direction of rounding. -/
inductive RoundingMode where
  | ceiling
  | floor
  | down
  | up
  | halfEven
  | halfDown
  | halfUp
  | unnecessary
deriving DecidableEq

instance : Text.Vocabulary RoundingMode where
  values := [.ceiling, .floor, .down, .up, .halfEven, .halfDown, .halfUp, .unnecessary]
  word
    | .ceiling => "rounding-mode-ceiling"
    | .floor => "rounding-mode-floor"
    | .down => "rounding-mode-down"
    | .up => "rounding-mode-up"
    | .halfEven => "rounding-mode-half-even"
    | .halfDown => "rounding-mode-half-down"
    | .halfUp => "rounding-mode-half-up"
    | .unnecessary => "rounding-mode-unnecessary"
  complete := by intro value; cases value <;> simp
  distinct := by intro value other; cases value <;> cases other <;> simp

end NumberFormat
