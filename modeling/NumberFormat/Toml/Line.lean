namespace NumberFormat
namespace Toml

/-!
What stands between the parts of TOML text: blanks, comments and the ends of lines.
-/

def isGap (c : Char) : Bool :=
  c == ' ' || c == '\t'

def skipGap (text : List Char) : List Char :=
  text.dropWhile isGap

/-- Whether a character may stand in strings and comments: a tab or no control character. -/
def isPrintable (c : Char) : Bool :=
  c == '\t' || (0x20 ≤ c.toNat && c.toNat != 0x7f)

/-- What follows a comment, if there is one. -/
def skipComment : List Char → List Char
  | '#' :: rest => rest.dropWhile isPrintable
  | rest => rest

/-- What follows the end of a line. -/
def takeNewline? : List Char → Option (List Char)
  | '\n' :: rest => some rest
  | '\r' :: '\n' :: rest => some rest
  | _ => none

/-- The next line, where nothing but a comment may be left of this one. -/
def takeEnd? (text : List Char) : Option (List Char) :=
  match skipComment (skipGap text) with
  | [] => some []
  | rest => takeNewline? rest

/-- A text from where neither blanks nor comments nor line ends stand, within a budget of lines. -/
def skipLines : (budget : Nat) → List Char → List Char
  | 0, text => text
  | budget + 1, text =>
      match takeNewline? (skipComment (skipGap text)) with
      | some rest => skipLines budget rest
      | none => skipGap text

/-- A text from where neither blanks nor line ends stand. -/
def skipBlank : List Char → List Char
  | ' ' :: rest => skipBlank rest
  | '\t' :: rest => skipBlank rest
  | '\n' :: rest => skipBlank rest
  | '\r' :: '\n' :: rest => skipBlank rest
  | rest => rest

end Toml
end NumberFormat
