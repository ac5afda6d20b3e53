import NumberFormat.Binary64.Shortest
import NumberFormat.Decimal.Digits

namespace NumberFormat
namespace Binary64

/-!
Written numbers.

A number is written with the shortest digits that read back and never with an exponent.  Reading
accepts more: a sign, digits with a point anywhere among them, an exponent, and the words for
infinity and for what is no number in any mixture of cases.  A number begun with an exponent mark
that no digits follow is no number at all.
-/

/-- The written form: `42`, `-0`, `0.0000001`, `NaN`, `inf` or `-inf`. -/
def written : Binary64 → List Char
  | nan => ['N', 'a', 'N']
  | infinite negative => (if negative then ['-'] else []) ++ ['i', 'n', 'f']
  | finite negative m => (if negative then ['-'] else []) ++ m.shortest.plain

def text (x : Binary64) : String :=
  String.ofList x.written

/-- How many digits stand behind the point of the written form. -/
def fractionPlaces : Binary64 → Nat
  | finite _ m => m.shortest.places
  | _ => 0

/-- What follows a word at the beginning of a text, whatever the case of the word's letters. -/
def afterWord? : (word text : List Char) → Option (List Char)
  | [], rest => some rest
  | _ :: _, [] => none
  | w :: word, c :: rest => if c.toLower = w then afterWord? word rest else none

/-- A sign, if there is one, and what follows; the sign counts as true when it is a minus. -/
def takeSign : List Char → Bool × List Char
  | '-' :: rest => (true, rest)
  | '+' :: rest => (false, rest)
  | rest => (false, rest)

/-- The digits at the beginning of a text and what follows them. -/
def takeDigits (text : List Char) : List Char × List Char :=
  (text.takeWhile Char.isDigit, text.dropWhile Char.isDigit)

/-- The digits of a whole part and of a fraction, at least one of them, and what follows. -/
def takeMantissa? (text : List Char) : Option ((List Char × List Char) × List Char) :=
  match takeDigits text with
  | ([], '.' :: rest) =>
      match takeDigits rest with
      | ([], _) => none
      | (fraction, rest) => some (([], fraction), rest)
  | ([], _) => none
  | (whole, '.' :: rest) => some ((whole, (takeDigits rest).1), (takeDigits rest).2)
  | (whole, rest) => some ((whole, []), rest)

/-- An exponent, nought if there is none, and what follows; none if the mark lacks digits. -/
def takeExponent? : List Char → Option (Int × List Char)
  | [] => some (0, [])
  | c :: rest =>
      if c = 'e' ∨ c = 'E' then
        let (negative, rest) := takeSign rest
        match takeDigits rest with
        | ([], _) => none
        | (digits, rest) =>
            let size := Nat.ofDigitChars 10 digits 0
            some (if negative then -(size : Int) else size, rest)
      else some (0, c :: rest)

/-- Whether a text goes on with a fraction or an exponent. -/
def goesOn : List Char → Bool
  | '.' :: _ => true
  | 'e' :: _ => true
  | 'E' :: _ => true
  | _ => false

/-- The decimal of written digits, a whole part and a fraction, times a power of ten. -/
def decimalOf (whole fraction : List Char) (exponent : Int) : Decimal :=
  Decimal.scaled (Nat.ofDigitChars 10 (whole ++ fraction) 0) (exponent - fraction.length)

/-- The number at the beginning of a text and what follows it. -/
def take? (text : List Char) : Option (Binary64 × List Char) :=
  match afterWord? ['n', 'a', 'n'] text with
  | some rest => some (nan, rest)
  | none =>
      let (negative, body) := takeSign text
      match afterWord? ['i', 'n', 'f'] body with
      | some rest =>
          some (infinite negative, (afterWord? ['i', 'n', 'i', 't', 'y'] rest).getD rest)
      | none => do
          let ((whole, fraction), rest) ← takeMantissa? body
          let (exponent, rest) ← takeExponent? rest
          return (ofDecimal negative (decimalOf whole fraction exponent), rest)

/-- The number a whole text is. -/
def read? (text : List Char) : Option Binary64 :=
  match take? text with
  | some (x, []) => some x
  | _ => none

end Binary64
end NumberFormat
