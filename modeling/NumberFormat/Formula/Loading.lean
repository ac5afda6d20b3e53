import NumberFormat.Formula.Error
import NumberFormat.Formula.Term
import NumberFormat.Formula.Tree
import NumberFormat.Options.Record

namespace NumberFormat
namespace Formula

/-!
From trees to functions: what is called gets its arguments, in the right number and of the right
kind.

The number of arguments is checked first, then the arguments from left to right.  The function of a
call is put together from the functions of its arguments, so that no tree is looked at when a value
is formatted.
-/

/-- Where a function stands that makes the other kind of value. -/
def misplaced (name expected : String) : Error :=
  .wrongKind name expected 0

/-- Where something stands that is no call. -/
def misplacedLeaf (expected : String) : Error :=
  .wrongKind "expression" expected 0

def wordOf (function : Function) : String :=
  Text.Vocabulary.word function

def numberLiteral (function : Function) (position : Nat) : Tree → Except Error Binary64
  | .number value => .ok value
  | _ => .error (.wrongKind (wordOf function) "a number literal" position)

def textLiteral (function : Function) (position : Nat) : Tree → Except Error String
  | .json (.string text) => .ok text
  | _ => .error (.wrongKind (wordOf function) "a string literal" position)

def pairLiteral (function : Function) (position : Nat) : Tree → Except Error Surround
  | .json (.array [.string before, .string after]) => .ok ⟨before, after⟩
  | _ => .error (.wrongKind (wordOf function) "a pair of strings" position)

def optionsLiteral (function : Function) (position : Nat) : Tree → Except Error Options
  | .json (.object members) =>
      match Options.ofJson? (.object members) with
      | some options => .ok options
      | none => .error .badOptions
  | _ => .error (.wrongKind (wordOf function) "an options record" position)

def digitLiteral (function : Function) (position : Nat) (tree : Tree) : Except Error Char := do
  match (← textLiteral function position tree).toList with
  | [zero] => return zero
  | _ => throw (.wrongKind (wordOf function) "a single digit" position)

def wrongCount (function : Function) (expected : Nat) (arguments : List Tree) : Error :=
  .wrongCount (wordOf function) expected arguments.length

/-- The function from numbers to numbers that a tree makes. -/
def numberFunction : Tree → Except Error (Binary64 → Binary64)
  | .input => .ok fun x => x
  | .number value => .ok fun _ => value
  | .json _ => .error (misplacedLeaf "a number")
  | .call name arguments =>
      match Text.valueOf? Function name, arguments with
      | none, _ => .error (.unknownFunction name)
      | some .scale, [value, factor] => do
          let value ← numberFunction value
          let factor ← numberLiteral .scale 2 factor
          return fun x => (value x).multiply factor
      | some .scale, arguments => .error (wrongCount .scale 2 arguments)
      | some .percent, [value] => do
          let value ← numberFunction value
          return fun x => (value x).hundredth
      | some .percent, arguments => .error (wrongCount .percent 1 arguments)
      | some _, _ => .error (misplaced name "a number")

/-- The function from numbers to texts that a tree makes. -/
def textFunction (formatter : Formatter) : Tree → Except Error (Binary64 → String)
  | .json (.string text) => .ok fun _ => text
  | .call name arguments =>
      match Text.valueOf? Function name, arguments with
      | none, _ => .error (.unknownFunction name)
      | some .nf, [locale, options, value] => do
          let locale ← textLiteral .nf 1 locale
          let options ← optionsLiteral .nf 2 options
          let value ← numberFunction value
          return fun x => formatter locale options (value x)
      | some .nf, arguments => .error (wrongCount .nf 3 arguments)
      | some .digits, [text, zero] => do
          let text ← textFunction formatter text
          let zero ← digitLiteral .digits 2 zero
          return fun x => Plan.respell zero (text x)
      | some .digits, arguments => .error (wrongCount .digits 2 arguments)
      | some .affix, value :: text :: positive :: negatives => do
          if 1 < negatives.length then throw (wrongCount .affix 3 arguments)
          let value ← numberFunction value
          let text ← textFunction formatter text
          let positive ← pairLiteral .affix 3 positive
          let negative ← negatives.head?.mapM (pairLiteral .affix 4)
          return fun x => Affix.around ⟨positive, negative⟩ (value x) (text x)
      | some .affix, arguments => .error (wrongCount .affix 3 arguments)
      | some _, _ => .error (misplaced name "a string")
  | _ => .error (misplacedLeaf "a string")

/-- The function a text stands for, if it is a formula. -/
def loaded (formatter : Formatter) (text : List Char) : Except Error (Binary64 → String) :=
  match readTree text with
  | .ok tree => textFunction formatter tree
  | .error rest => .error (.malformed (byteCount text - byteCount rest))

end Formula
end NumberFormat
