import NumberFormat.Json.Parser

namespace NumberFormat
namespace Formula

/-!
Reading the text of a formula as a tree, before anything is known about its functions.

An expression is a call, a JSON string, array or object, a number, or the variable `x`, tried in
this order.  A name followed by an opening parenthesis is a call and nothing else, so that an error
behind it is an error of the whole text.  Elsewhere what cannot be read is tried as the
next kind of expression.  A failure keeps the text from where it was noticed.
-/

inductive Tree where
  | input
  | number (value : Binary64)
  | json (value : Json)
  | call (name : String) (arguments : List Tree)

/-- What became of an attempt to take something off the beginning of a text. -/
inductive Outcome (α : Type) where
  | found (value : α) (rest : List Char)
  | absent
  | broken (rest : List Char)

def isNameCharacter (c : Char) : Bool :=
  c.isLower || c == '_'

/-- The name of a function with its opening parenthesis. -/
def takeCallee? (text : List Char) : Option (List Char × List Char) :=
  match text.takeWhile isNameCharacter with
  | [] => none
  | name =>
      match Text.skipSpace (text.dropWhile isNameCharacter) with
      | '(' :: rest => some (name, Text.skipSpace rest)
      | _ => none

/-- A JSON string, array or object. -/
def takeJson? : List Char → Option (Json × List Char)
  | '"' :: rest => Json.takeValue? Json.nestingLimit ('"' :: rest)
  | '[' :: rest => Json.takeValue? Json.nestingLimit ('[' :: rest)
  | '{' :: rest => Json.takeValue? Json.nestingLimit ('{' :: rest)
  | _ => none

/-- An expression that is no call. -/
def takeLeaf (text : List Char) : Outcome Tree :=
  match takeJson? text with
  | some (value, rest) => .found (.json value) rest
  | none =>
      match Binary64.take? text with
      | some (value, rest) => .found (.number value) rest
      | none =>
          match text with
          | 'x' :: rest => .found .input rest
          | _ => .absent

section

variable (expression : List Char → Outcome Tree)

/--
The arguments that follow a first one, each behind a comma.  A comma without an argument behind it is
left where it stands.
-/
def takeFurther : (budget : Nat) → List Char → Outcome (List Tree)
  | budget + 1, ',' :: rest =>
      match expression (Text.skipSpace rest) with
      | .found first rest =>
          match takeFurther budget (Text.skipSpace rest) with
          | .found further rest => .found (first :: further) rest
          | other => other
      | .absent => .found [] (',' :: rest)
      | .broken rest => .broken rest
  | _, rest => .found [] rest

/-- Any number of arguments. -/
def takeArguments (text : List Char) : Outcome (List Tree) :=
  match expression text with
  | .found first rest =>
      match takeFurther expression rest.length (Text.skipSpace rest) with
      | .found further rest => .found (first :: further) rest
      | other => other
  | .absent => .found [] text
  | .broken rest => .broken rest

/-- The arguments of a call and its closing parenthesis. -/
def takeCall (name : List Char) (text : List Char) : Outcome Tree :=
  match takeArguments expression text with
  | .found arguments (')' :: rest) => .found (.call (String.ofList name) arguments) rest
  | .found _ rest => .broken rest
  | .broken rest => .broken rest
  | .absent => .broken text

end

/-- An expression in which calls nest no deeper than allowed. -/
def takeExpression : (nesting : Nat) → List Char → Outcome Tree
  | 0, _ => .absent
  | nesting + 1, text =>
      match takeCallee? text with
      | some (name, rest) => takeCall (takeExpression nesting) name rest
      | none => takeLeaf text

/-- The variable between its bars, or the text from where it was missed. -/
def takeHead (text : List Char) : Except (List Char) (List Char) :=
  match Text.skipSpace text with
  | '|' :: rest =>
      match Text.skipSpace rest with
      | 'x' :: rest =>
          match Text.skipSpace rest with
          | '|' :: rest => .ok (Text.skipSpace rest)
          | rest => .error rest
      | rest => .error rest
  | rest => .error rest

/--
The tree of a whole text, or the text from where reading stopped.  Calls cannot nest deeper than the
text is long.
-/
def readTree (text : List Char) : Except (List Char) Tree := do
  let body ← takeHead text
  match takeExpression body.length body with
  | .found tree rest =>
      if Text.skipSpace rest = [] then return tree else throw (Text.skipSpace rest)
  | .absent => throw body
  | .broken rest => throw rest

/-- How many bytes a text takes. -/
def byteCount : List Char → Nat
  | [] => 0
  | c :: rest => c.utf8Size + byteCount rest

end Formula
end NumberFormat
