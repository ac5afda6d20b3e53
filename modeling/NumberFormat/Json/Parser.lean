import NumberFormat.Json.Number
import NumberFormat.Text.HexDigit
import NumberFormat.Text.Space

namespace NumberFormat
namespace Json

/-!
Reading JSON, strictly as RFC 8259 has it: no control character in a string, no half of a surrogate
pair alone, no zero before other digits, no comma before a closing bracket.  Beyond the grammar a
number must lie within the range of binary64, and arrays and objects nest 127 deep at most.  Of
members with one name the last counts.

Every reader takes a value off the beginning of a text and returns what follows it.
-/

/-- How deep arrays and objects may nest. -/
def nestingLimit : Nat := 127

/-! ## Strings -/

/-- The code unit of four hexadecimal digits. -/
def codeUnit? (a b c d : Char) : Option Nat := do
  let high := (← Text.hexDigit? a) * 16 + (← Text.hexDigit? b)
  let low := (← Text.hexDigit? c) * 16 + (← Text.hexDigit? d)
  return high * 256 + low

/-- Whether a code unit opens a surrogate pair. -/
def opensPair (unit : Nat) : Bool :=
  0xD800 ≤ unit && unit < 0xDC00

/-- Whether a code unit closes a surrogate pair. -/
def closesPair (unit : Nat) : Bool :=
  0xDC00 ≤ unit && unit < 0xE000

/-- The character behind a backslash, the four-digit form apart. -/
def unescaped? (c : Char) : Option Char :=
  match c with
  | '"' => some '"'
  | '\\' => some '\\'
  | '/' => some '/'
  | 'b' => some '\x08'
  | 'f' => some '\x0c'
  | 'n' => some '\n'
  | 'r' => some '\r'
  | 't' => some '\t'
  | _ => none

/-- The rest of a string whose opening quotation mark has been read. -/
def takeString? : List Char → Option (List Char × List Char)
  | [] => none
  | '"' :: rest => some ([], rest)
  | '\\' :: 'u' :: a :: b :: c :: d :: rest => do
      let unit ← codeUnit? a b c d
      if opensPair unit then
        match rest with
        | '\\' :: 'u' :: e :: f :: g :: h :: rest => do
            let second ← codeUnit? e f g h
            if closesPair second then
              let (text, rest) ← takeString? rest
              return (Char.ofNat (0x10000 + (unit - 0xD800) * 0x400 + (second - 0xDC00)) :: text, rest)
            else none
        | _ => none
      else if closesPair unit then none
      else
        let (text, rest) ← takeString? rest
        return (Char.ofNat unit :: text, rest)
  | '\\' :: c :: rest => do
      let plain ← unescaped? c
      let (text, rest) ← takeString? rest
      return (plain :: text, rest)
  | c :: rest =>
      if c.toNat < 0x20 then none
      else do
        let (text, rest) ← takeString? rest
        return (c :: text, rest)

/-! ## Values -/

/-- A value that is neither array nor object. -/
def takeScalar? : List Char → Option (Json × List Char)
  | 'n' :: 'u' :: 'l' :: 'l' :: rest => some (null, rest)
  | 't' :: 'r' :: 'u' :: 'e' :: rest => some (boolean true, rest)
  | 'f' :: 'a' :: 'l' :: 's' :: 'e' :: rest => some (boolean false, rest)
  | '"' :: rest => (takeString? rest).map (fun read => (string (String.ofList read.1), read.2))
  | rest => takeNumber? rest

section

variable {α : Type} (item : List Char → Option (α × List Char)) (close : Char)

/-- One item or more with commas between them, up to the closing character. -/
def takeItems? : (budget : Nat) → List Char → Option (List α × List Char)
  | 0, _ => none
  | budget + 1, text => do
      let (first, rest) ← item (Text.skipSpace text)
      match Text.skipSpace rest with
      | [] => none
      | ',' :: rest => do
          let (others, rest) ← takeItems? budget rest
          return (first :: others, rest)
      | c :: rest => if c = close then return ([first], rest) else none

/-- Any number of items with commas between them, up to the closing character. -/
def takeSequence? (text : List Char) : Option (List α × List Char) :=
  match Text.skipSpace text with
  | [] => none
  | c :: rest => if c = close then some ([], rest) else takeItems? item close text.length text

end

/-- A member of an object: a name, a colon and a value. -/
def takeMember? (value : List Char → Option (Json × List Char)) :
    List Char → Option ((String × Json) × List Char)
  | '"' :: rest => do
      let (name, rest) ← takeString? rest
      match Text.skipSpace rest with
      | ':' :: rest => do
          let (value, rest) ← value (Text.skipSpace rest)
          return ((String.ofList name, value), rest)
      | _ => none
  | _ => none

/-- A value in which arrays and objects nest no deeper than allowed. -/
def takeValue? : (nesting : Nat) → List Char → Option (Json × List Char)
  | nesting + 1, '[' :: rest => do
      let (items, rest) ← takeSequence? (takeValue? nesting) ']' rest
      return (array items, rest)
  | nesting + 1, '{' :: rest => do
      let (members, rest) ← takeSequence? (takeMember? (takeValue? nesting)) '}' rest
      return (object (keepLast members), rest)
  | _, rest => takeScalar? rest

/-- The value a whole text is, spaces around it apart. -/
def read? (text : String) : Option Json :=
  match takeValue? nestingLimit (Text.skipSpace text.toList) with
  | some (value, rest) => if Text.skipSpace rest = [] then some value else none
  | none => none

end Json
end NumberFormat
