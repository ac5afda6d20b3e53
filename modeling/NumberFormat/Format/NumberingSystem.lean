namespace NumberFormat
namespace Format

/-!
Writing the digits of another numbering system.
-/

/-- The value of an ordinary digit. -/
def digitValue? (c : Char) : Option Nat :=
  if c.isDigit then some (c.toNat - '0'.toNat) else none

/-- A digit in the numbering system of the given zero, if that system has a character for it. -/
def respellDigit (zero c : Char) : Char :=
  match digitValue? c with
  | some value =>
      if (zero.toNat + value).isValidChar then Char.ofNat (zero.toNat + value) else c
  | none => c

/-- A text with all its digits in the numbering system of the given zero. -/
def respell (zero : Char) (text : List Char) : List Char :=
  text.map (respellDigit zero)

end Format
end NumberFormat
