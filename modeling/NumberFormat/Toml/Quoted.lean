import NumberFormat.Text.HexDigit
import NumberFormat.Toml.Line

namespace NumberFormat
namespace Toml

/-!
Strings of TOML text.

A basic string stands between quotation marks and knows escapes; in a literal string, between
apostrophes, every character is itself.  Either may be a block over several lines, opened and
closed by three marks.  A line end right behind the opening marks does not belong to a block, and
every other one counts as a line feed.
-/

/-! ## Escapes -/

/-- The character with the code point of hexadecimal digits. -/
def codePoint? (digits : List Char) : Option Char := do
  let values ← digits.mapM Text.hexDigit?
  let code := values.foldl (fun code value => 16 * code + value) 0
  if code.isValidChar then return Char.ofNat code else none

/-- The character behind a backslash, the forms with hexadecimal digits apart. -/
def unescaped? (c : Char) : Option Char :=
  match c with
  | 'b' => some '\x08'
  | 't' => some '\t'
  | 'n' => some '\n'
  | 'f' => some '\x0c'
  | 'r' => some '\r'
  | '"' => some '"'
  | '\\' => some '\\'
  | _ => none

/-- What an escape stands for, behind its backslash. -/
def takeEscape? : List Char → Option (Char × List Char)
  | 'u' :: a :: b :: c :: d :: rest => (codePoint? [a, b, c, d]).map (·, rest)
  | 'U' :: a :: b :: c :: d :: e :: f :: g :: h :: rest =>
      (codePoint? [a, b, c, d, e, f, g, h]).map (·, rest)
  | c :: rest => (unescaped? c).map (·, rest)
  | [] => none

/-! ## Strings on one line -/

/-- The rest of a basic string behind its opening mark, within a budget of characters. -/
def takeBasic? : (budget : Nat) → List Char → Option (List Char × List Char)
  | 0, _ => none
  | _, [] => none
  | _, '"' :: rest => some ([], rest)
  | budget + 1, '\\' :: rest => do
      let (first, rest) ← takeEscape? rest
      let (text, rest) ← takeBasic? budget rest
      return (first :: text, rest)
  | budget + 1, c :: rest =>
      if isPrintable c then do
        let (text, rest) ← takeBasic? budget rest
        return (c :: text, rest)
      else none

/-- The rest of a literal string behind its opening mark. -/
def takeLiteral? (text : List Char) : Option (List Char × List Char) :=
  let inside := text.takeWhile (· != '\'')
  match text.dropWhile (· != '\'') with
  | _ :: rest => if inside.all isPrintable then some (inside, rest) else none
  | [] => none

/-- A string on one line. -/
def takeLine? : List Char → Option (List Char × List Char)
  | '"' :: rest => takeBasic? (rest.length + 1) rest
  | '\'' :: rest => takeLiteral? rest
  | _ => none

/-! ## Blocks -/

/--
What follows three marks that close a block.  Of more marks in a row the last three close it, so up
to two that follow here belong to its text.
-/
def takeClosing (mark : Char) (text : List Char) : List Char × List Char :=
  let further := (text.take 2).takeWhile (· == mark)
  (further, text.drop further.length)

/-- A character of a block that is itself, or a line end, which counts as a line feed. -/
def takePlain? (text : List Char) : Option (Char × List Char) :=
  match takeNewline? text with
  | some rest => some ('\n', rest)
  | none =>
      match text with
      | c :: rest => if isPrintable c then some (c, rest) else none
      | [] => none

/--
The rest of a basic block behind its opening marks, within a budget of characters.  A backslash at
the end of a line takes away all that is blank up to the next character.
-/
def takeBasicBlock? : (budget : Nat) → List Char → Option (List Char × List Char)
  | 0, _ => none
  | _, '"' :: '"' :: '"' :: rest => some (takeClosing '"' rest)
  | budget + 1, '\\' :: rest =>
      match takeNewline? (skipGap rest) with
      | some rest => takeBasicBlock? budget (skipBlank rest)
      | none => do
          let (first, rest) ← takeEscape? rest
          let (text, rest) ← takeBasicBlock? budget rest
          return (first :: text, rest)
  | budget + 1, text => do
      let (first, rest) ← takePlain? text
      let (text, rest) ← takeBasicBlock? budget rest
      return (first :: text, rest)

/-- The rest of a literal block behind its opening marks, within a budget of characters. -/
def takeLiteralBlock? : (budget : Nat) → List Char → Option (List Char × List Char)
  | 0, _ => none
  | _, '\'' :: '\'' :: '\'' :: rest => some (takeClosing '\'' rest)
  | budget + 1, text => do
      let (first, rest) ← takePlain? text
      let (text, rest) ← takeLiteralBlock? budget rest
      return (first :: text, rest)

/-- A block without the line end that may stand right behind its opening marks. -/
def afterOpening (text : List Char) : List Char :=
  (takeNewline? text).getD text

/-- A string of any kind. -/
def takeString? : List Char → Option (List Char × List Char)
  | '"' :: '"' :: '"' :: rest => takeBasicBlock? (rest.length + 1) (afterOpening rest)
  | '\'' :: '\'' :: '\'' :: rest => takeLiteralBlock? (rest.length + 1) (afterOpening rest)
  | text => takeLine? text

end Toml
end NumberFormat
