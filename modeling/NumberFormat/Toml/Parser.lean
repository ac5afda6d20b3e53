import NumberFormat.Toml.Number
import NumberFormat.Toml.Quoted
import NumberFormat.Toml.Table

namespace NumberFormat
namespace Toml

/-!
Reading TOML text as statements, one on a line.

A line holds a header, an assignment or nothing, and behind it there may be a comment.  Only an
array and a block of text go on over several lines.
-/

/--
How deep arrays and tables between braces may nest, and how many parts a key may have.  The grammar
knows no such limit.
-/
def depthLimit : Nat := 79

/-! ## Keys -/

def isBare (c : Char) : Bool :=
  c.isAlphanum || c == '_' || c == '-'

/-- One part of a key: bare or a string on one line. -/
def takePart? (text : List Char) : Option (String × List Char) :=
  match text.takeWhile isBare with
  | [] => (takeLine? text).map (fun read => (String.ofList read.1, read.2))
  | name => some (String.ofList name, text.dropWhile isBare)

/-- A key with points between its parts, within a budget of parts. -/
def takeKey? : (budget : Nat) → List Char → Option (Key × List Char)
  | 0, _ => none
  | budget + 1, text => do
      let (part, rest) ← takePart? text
      match skipGap rest with
      | '.' :: rest => do
          let (further, rest) ← takeKey? budget (skipGap rest)
          return (part :: further, rest)
      | rest => return ([part], rest)

/-! ## Values -/

/-- A value that is neither array nor table. -/
def takeScalar? : List Char → Option (Value × List Char)
  | 't' :: 'r' :: 'u' :: 'e' :: rest => some (.boolean true, rest)
  | 'f' :: 'a' :: 'l' :: 's' :: 'e' :: rest => some (.boolean false, rest)
  | text =>
      match takeString? text, takeMoment? text with
      | some (text, rest), _ => some (.string text, rest)
      | none, some (moment, rest) => some (.moment moment, rest)
      | none, none => takeNumber? text

section

variable (value : List Char → Option (Value × List Char))

/--
The items of an array up to its closing bracket, within a budget of items.  A comma may follow the
last of them.
-/
def takeItems? : (budget : Nat) → List Char → Option (List Value × List Char)
  | 0, _ => none
  | budget + 1, text =>
      match skipLines text.length text with
      | ']' :: rest => some ([], rest)
      | text => do
          let (first, rest) ← value text
          match skipLines rest.length rest with
          | ',' :: rest => do
              let (further, rest) ← takeItems? budget rest
              return (first :: further, rest)
          | ']' :: rest => return ([first], rest)
          | _ => none

/-- A key, an equals sign and a value. -/
def takeAssignment? (text : List Char) : Option (Assignment × List Char) := do
  let (key, rest) ← takeKey? depthLimit text
  match rest with
  | '=' :: rest => do
      let (value, rest) ← value (skipGap rest)
      return (⟨key, value⟩, rest)
  | _ => none

/-- One assignment or more up to a closing brace, on one line and within a budget. -/
def takeAssignments? : (budget : Nat) → List Char → Option (List Assignment × List Char)
  | 0, _ => none
  | budget + 1, text => do
      let (first, rest) ← takeAssignment? value (skipGap text)
      match skipGap rest with
      | ',' :: rest => do
          let (further, rest) ← takeAssignments? budget rest
          return (first :: further, rest)
      | '\x7d' :: rest => return ([first], rest)
      | _ => none

/-- The members of a table between braces, behind the opening one. -/
def takeMembers? (text : List Char) : Option (Members × List Char) :=
  match skipGap text with
  | '\x7d' :: rest => some ([], rest)
  | text => do
      let (assignments, rest) ← takeAssignments? value text.length text
      return (← assignAll assignments, rest)

end

/-- A value in which arrays and tables nest no deeper than allowed. -/
def takeValue? : (nesting : Nat) → List Char → Option (Value × List Char)
  | nesting + 1, '[' :: rest => do
      let (items, rest) ← takeItems? (takeValue? nesting) (rest.length + 1) rest
      return (.array items, rest)
  | nesting + 1, '\x7b' :: rest => do
      let (members, rest) ← takeMembers? (takeValue? nesting) rest
      return (.table .braces members, rest)
  | _, text => takeScalar? text

/-! ## Statements -/

/-- A header behind its opening bracket. -/
def takeHeader? (text : List Char) : Option (Statement × List Char) := do
  let (path, rest) ← takeKey? depthLimit (skipGap text)
  match rest with
  | ']' :: rest => return (.header path, rest)
  | _ => none

def takeStatement? : List Char → Option (Statement × List Char)
  | '[' :: rest => takeHeader? rest
  | rest =>
      (takeAssignment? (takeValue? depthLimit) rest).map
        (fun read => (.assignment read.1, read.2))

/-- The statements of a text, within a budget of lines. -/
def statementsWithin? : (budget : Nat) → List Char → Option (List Statement)
  | 0, _ => none
  | budget + 1, text =>
      match skipLines text.length text with
      | [] => some []
      | '#' :: rest => if skipComment ('#' :: rest) = [] then some [] else none
      | text => do
          let (first, rest) ← takeStatement? text
          let further ← statementsWithin? budget (← takeEnd? rest)
          return first :: further

/-- The statements of a text, which may open with a byte order mark. -/
def statements? : List Char → Option (List Statement)
  | '\ufeff' :: rest => statementsWithin? (rest.length + 1) rest
  | text => statementsWithin? (text.length + 1) text

end Toml
end NumberFormat
