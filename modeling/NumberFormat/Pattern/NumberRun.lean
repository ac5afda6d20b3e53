import NumberFormat.Binary64.Literal
import NumberFormat.Pattern.Error
import NumberFormat.Pattern.Token
import NumberFormat.Skeleton.Setting

namespace NumberFormat
namespace Pattern

/-!
The number in the middle of a pattern: its digits, separators and exponent.

The tokens are taken in one after another.  Each of them either fits what came before or is an error.
What has been taken in then says how digits are grouped, how many there are, how they are rounded
and whether a power of ten is split off.
-/

structure NumberRun where
  grouped : Bool := false
  pointed : Bool := false
  wholeOptional : Nat := 0
  wholeDigits : List Char := []
  fractionDigits : List Char := []
  fractionOptional : Nat := 0
  significant : Option (Nat × Nat) := none
  exponent : Option (Nat × Bool) := none
deriving DecidableEq

namespace NumberRun

/-- The run together with one more token.  Tokens that are not part of a number are passed over. -/
def push (run : NumberRun) : Token → Except Error NumberRun
  | .optional count =>
      if run.pointed then .ok { run with fractionOptional := run.fractionOptional + count }
      else if run.wholeDigits = [] then
        .ok { run with wholeOptional := run.wholeOptional + count }
      else .error .hashAfterDigits
  | .required digits =>
      if run.pointed then
        if run.fractionOptional = 0 then
          .ok { run with fractionDigits := run.fractionDigits ++ digits }
        else .error .digitsAfterHash
      else .ok { run with wholeDigits := run.wholeDigits ++ digits }
  | .significant required further =>
      if run.significant.isSome then .error .severalPrecisions
      else .ok { run with significant := some (required, required + further) }
  | .group =>
      if run.exponent.isSome then .error .groupedExponent
      else .ok { run with grouped := true }
  | .point =>
      if run.pointed then .error .severalPoints
      else .ok { run with pointed := true }
  | .exponent digits plus =>
      if run.exponent.isSome then .error .severalExponents
      else if run.grouped then .error .groupedExponent
      else .ok { run with exponent := some (digits, plus) }
  | _ => .ok run

/-- The required digits as a number, which is the increment to round to unless it is nought. -/
def increment (run : NumberRun) : Binary64 :=
  Binary64.ofDecimal false (Binary64.decimalOf run.wholeDigits run.fractionDigits 0)

/-- Significant digits leave no place for an increment nor for required fraction digits. -/
def conflicting (run : NumberRun) : Bool :=
  run.significant.isSome && (!run.fractionDigits.isEmpty || run.increment.isPositive)

/-- The run of all tokens. -/
def ofTokens (tokens : List Token) : Except Error NumberRun := do
  let run ← tokens.foldlM push {}
  if run.conflicting then throw .severalPrecisions
  return run

/-- Grouping, which is off only where four digits or more stand without a separator. -/
def grouping (run : NumberRun) : Option Grouping :=
  if run.grouped then some .auto
  else if 3 < run.wholeOptional + run.wholeDigits.length then some .off
  else none

/-- The significant digits of a number with an exponent that spells no precision of its own. -/
def mantissaBounds (run : NumberRun) : DigitBounds :=
  let required := run.wholeDigits.length + run.fractionDigits.length
  if run.pointed then
    { minSignificant := if 1 < required then some required else none
      maxSignificant := some (Nat.max 1 required + run.fractionOptional) }
  else { maxSignificant := if 0 < required then some required else none }

/-- The fraction digits of a number without exponent that spells no precision of its own. -/
def fractionBounds (run : NumberRun) : DigitBounds :=
  let required := run.fractionDigits.length
  if required = 0 ∧ run.fractionOptional = 0 then {}
  else { minFraction := some required, maxFraction := some (required + run.fractionOptional) }

def precision (run : NumberRun) : Option Precision :=
  if run.increment.isPositive then some (.increment run.increment)
  else
    let bounds := match run.significant, run.exponent with
      | some (minimum, maximum), _ =>
          { minSignificant := some minimum, maxSignificant := some maximum }
      | none, some _ => run.mantissaBounds
      | none, none => run.fractionBounds
    if bounds.boundsFraction || bounds.boundsSignificant then some (.digits bounds) else none

def integerWidth (run : NumberRun) : Option IntegerWidth :=
  let required := run.wholeDigits.length
  match run.exponent with
  | none => if 1 < required then some { min := required } else none
  | some _ =>
      if run.significant.isSome then some { min := 1, max := some 1 }
      else if 0 < run.wholeOptional then some { min := 1, max := some (run.wholeOptional + required) }
      else some { min := Nat.max 1 required }

def form (run : NumberRun) : Option Notation :=
  run.exponent.map (fun exponent => .scientific
    { minDigits := some exponent.1, sign := some (if exponent.2 then .always else .auto) })

/-- What the run chooses. -/
def settings (run : NumberRun) : List Setting :=
  (run.grouping.map .grouping).toList ++ (run.integerWidth.map .integerWidth).toList ++
    (run.precision.map .precision).toList ++ (run.form.map .form).toList

end NumberRun
end Pattern
end NumberFormat
