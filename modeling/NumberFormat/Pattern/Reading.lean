import NumberFormat.Pattern.NumberRun

namespace NumberFormat
namespace Pattern

/-!
Reading patterns as skeletons.

A pattern is a subpattern for all numbers or, with a separator between them, one for the numbers
from zero up and one for those below.  The first decides everything about the digits.  The second
gives only the text around them, and with it the sign is no longer shown.
-/

/-- The settings a token makes on the unit, given the code that stands for the currency sign. -/
def unitSettings (currency : Option String) : Token → Except Error (List Setting)
  | .currency count => do
      let width ← match count with
        | 1 => pure []
        | 2 => pure [Setting.unitWidth .isoCode]
        | 3 => pure [Setting.unitWidth .fullName]
        | 5 => pure [Setting.unitWidth .narrow]
        | _ => throw (.currencyRun count)
      match currency with
      | some code => return .unit (.currency code) :: width
      | none => throw .missingCurrency
  | .percent => return [.unit .percent]
  | .permille => return [.unit .permille]
  | _ => return []

/-- Whether the numbers of a subpattern are below zero. -/
inductive Side where
  | positive
  | negative
deriving DecidableEq

/-- The text a token adds to the text around the number.  A minus is shown only below zero. -/
def literalText (side : Side) : Token → List Char
  | .literal c => [c]
  | .quoted text => text
  | .unterminated text => text
  | .minus => if side = .negative then ['-'] else []
  | .separator => [';']
  | _ => []

/-- The text of an unterminated literal. -/
def unterminated? : Token → Option (List Char)
  | .unterminated text => some text
  | _ => none

/-- The text of tokens one after another. -/
def literalTexts (side : Side) (tokens : List Token) : String :=
  String.ofList (tokens.flatMap (literalText side))

/--
The text before the first placeholder and behind the last one.  Text between placeholders is
dropped, and without any placeholder all text counts as standing before the number.
-/
def surround (side : Side) (tokens : List Token) : Except Error Surround :=
  match tokens.findSome? unterminated? with
  | some text => .error (.unterminatedQuote (String.ofList text))
  | none =>
      let outside := fun (token : Token) => !token.isPlaceholder
      .ok {
        before := literalTexts side (tokens.takeWhile outside)
        after :=
          if tokens.all outside then ""
          else literalTexts side (tokens.reverse.takeWhile outside).reverse }

/-- The affix of a pattern; text that is empty all around makes none. -/
def affix (positive : Surround) (negative : Option Surround) : Option Affix :=
  if negative.isSome || !positive.before.isEmpty || !positive.after.isEmpty then
    some ⟨positive, negative⟩
  else none

/-- The tokens before the first separator. -/
def positiveTokens (tokens : List Token) : List Token :=
  tokens.takeWhile (· != .separator)

/-- The tokens behind the first separator. -/
def negativeTokens (tokens : List Token) : List Token :=
  (tokens.dropWhile (· != .separator)).tail

/-- The skeleton of a pattern's tokens. -/
def ofTokens (currency : Option String) (tokens : List Token) : Except Error Skeleton := do
  let positive := positiveTokens tokens
  let negative := negativeTokens tokens
  let positiveUnits ← positive.mapM (unitSettings currency)
  let negativeUnits ← negative.mapM (unitSettings currency)
  let run ← NumberRun.ofTokens positive
  let positiveText ← surround .positive positive
  let negativeText ← surround .negative negative
  let chosen := Skeleton.ofSettings
    (positiveUnits.flatten ++ negativeUnits.flatten ++ run.settings)
  if negative.isEmpty then return { chosen with affix := affix positiveText none }
  else return { chosen with sign := some .never, affix := affix positiveText (some negativeText) }

/-- The skeleton of a pattern. -/
def read (currency : Option String) (text : List Char) : Except Error Skeleton :=
  ofTokens currency (tokens text)

end Pattern
end NumberFormat
