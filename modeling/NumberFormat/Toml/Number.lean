import NumberFormat.Binary64.Literal
import NumberFormat.Text.HexDigit
import NumberFormat.Toml.Basic

namespace NumberFormat
namespace Toml

/-!
Numbers of TOML text: integers of 64 bits with a sign, in base ten and without sign in three others,
and binary64 numbers.  Single underscores may stand between digits.
-/

/-- The value of a digit in the given base. -/
def digitBelow? (base : Nat) (c : Char) : Option Nat :=
  (Text.hexDigit? c).filter (· < base)

/-- Whether a character may stand in a number: a digit, or an underscore between digits. -/
def isNumeral (base : Nat) (c : Char) : Bool :=
  c == '_' || (digitBelow? base c).isSome

/-- The digits of a number, one at least, without the underscores between them, and what follows. -/
def takeDigits? (base : Nat) (text : List Char) : Option (List Char × List Char) :=
  let parts := (text.takeWhile (isNumeral base)).splitOn '_'
  if parts.all (fun part => !part.isEmpty) then
    some (parts.flatten, text.dropWhile (isNumeral base))
  else none

/-! ## Integers -/

def leastInteger : Int := -9223372036854775808

def greatestInteger : Int := 9223372036854775807

/-- The value of an integer within range. -/
def integer? (value : Int) : Option Value :=
  if leastInteger ≤ value ∧ value ≤ greatestInteger then some (.integer value) else none

/-- An integer without sign in the given base. -/
def takeBased? (base : Nat) (text : List Char) : Option (Value × List Char) := do
  let (digits, rest) ← takeDigits? base text
  let values := digits.filterMap Text.hexDigit?
  let number := values.foldl (fun number value => base * number + value) 0
  return (← integer? number, rest)

/-! ## Decimal numbers -/

/-- The digits of a fraction, if there is one. -/
def takeFraction? : List Char → Option (List Char × List Char)
  | '.' :: rest => takeDigits? 10 rest
  | rest => some ([], rest)

/-- An exponent, nought if there is none. -/
def takeExponent? : List Char → Option (Int × List Char)
  | [] => some (0, [])
  | c :: rest =>
      if c = 'e' ∨ c = 'E' then do
        let (negative, rest) := Binary64.takeSign rest
        let (digits, rest) ← takeDigits? 10 rest
        let size := Nat.ofDigitChars 10 digits 0
        return (if negative then -(size : Int) else size, rest)
      else some (0, c :: rest)

/-- The value of a float.  Only a negative one may lie beyond the range of binary64. -/
def float? (value : Binary64) : Option Value :=
  if value = .infinite false then none else some (.float value)

/--
A decimal number behind its sign: a float if it has a fraction or an exponent, and an integer
otherwise.  No zero stands before other digits of the whole part.
-/
def takeDecimal? (negative : Bool) (text : List Char) : Option (Value × List Char) := do
  let (whole, tail) ← takeDigits? 10 text
  match whole with
  | '0' :: _ :: _ => none
  | _ =>
      let (fraction, rest) ← takeFraction? tail
      let (exponent, rest) ← takeExponent? rest
      if Binary64.goesOn tail then
        let decimal := Binary64.decimalOf whole fraction exponent
        return (← float? (Binary64.ofDecimal negative decimal), rest)
      else
        let size : Int := Nat.ofDigitChars 10 whole 0
        return (← integer? (if negative then -size else size), rest)

/-- A decimal number, or a word for infinity or for what is no number, with or without a sign. -/
def takeSigned? (text : List Char) : Option (Value × List Char) :=
  let (negative, body) := Binary64.takeSign text
  match body with
  | 'i' :: 'n' :: 'f' :: rest => some (.float (.infinite negative), rest)
  | 'n' :: 'a' :: 'n' :: rest => some (.float .nan, rest)
  | body => takeDecimal? negative body

/-- A number. -/
def takeNumber? : List Char → Option (Value × List Char)
  | '0' :: 'x' :: rest => takeBased? 16 rest
  | '0' :: 'o' :: rest => takeBased? 8 rest
  | '0' :: 'b' :: rest => takeBased? 2 rest
  | text => takeSigned? text

end Toml
end NumberFormat
