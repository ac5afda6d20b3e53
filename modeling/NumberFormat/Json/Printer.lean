import NumberFormat.Json.Basic
import NumberFormat.Binary64.Literal

namespace NumberFormat
namespace Json

/-!
JSON written without spaces.

In a string the quotation mark, the backslash and the control characters are escaped, those with a
short escape by it and the others by four lowercase hexadecimal digits.  Every other character
stands for itself.
-/

/-- A character as it stands inside a string. -/
def escaped (c : Char) : List Char :=
  if c = '"' then ['\\', '"']
  else if c = '\\' then ['\\', '\\']
  else if c = '\x08' then ['\\', 'b']
  else if c = '\x0c' then ['\\', 'f']
  else if c = '\n' then ['\\', 'n']
  else if c = '\r' then ['\\', 'r']
  else if c = '\t' then ['\\', 't']
  else if c.toNat < 0x20 then
    ['\\', 'u', '0', '0', Nat.digitChar (c.toNat / 16), Nat.digitChar (c.toNat % 16)]
  else [c]

/-- A text between quotation marks. -/
def quoted (text : List Char) : List Char :=
  '"' :: text.flatMap escaped ++ ['"']

mutual

/-- The value as JSON text. -/
def written : Json → List Char
  | null => ['n', 'u', 'l', 'l']
  | boolean true => ['t', 'r', 'u', 'e']
  | boolean false => ['f', 'a', 'l', 's', 'e']
  | whole value => Nat.toDigits 10 value
  | number value => value.written
  | string value => quoted value.toList
  | array items => '[' :: writtenItems items ++ [']']
  | object members => '{' :: writtenMembers members ++ ['}']

/-- The items with commas between them. -/
def writtenItems : List Json → List Char
  | [] => []
  | [item] => written item
  | item :: next :: rest => written item ++ ',' :: writtenItems (next :: rest)

/-- The members with commas between them. -/
def writtenMembers : List (String × Json) → List Char
  | [] => []
  | [(name, value)] => quoted name.toList ++ ':' :: written value
  | (name, value) :: next :: rest =>
      quoted name.toList ++ ':' :: written value ++ ',' :: writtenMembers (next :: rest)

end

def render (json : Json) : String :=
  String.ofList json.written

end Json
end NumberFormat
