namespace NumberFormat
namespace Toml

/-!
Dates and times of TOML text: a day, a time of day, or both together with or without an offset from
universal time.
-/

/-- A day of the calendar. -/
structure Date where
  year : Nat
  month : Nat
  day : Nat

/-- A time of day, with the digits of the fraction of its second. -/
structure Time where
  hour : Nat
  minute : Nat
  second : Nat
  fraction : List Char

inductive Moment where
  | date (date : Date)
  | time (time : Time)
  /-- A time on a day, and by how many minutes it is ahead of universal time if that is known. -/
  | point (date : Date) (time : Time) (offset : Option Int)

/-- Whether a year has a day in February more than others. -/
def isLeapYear (year : Nat) : Bool :=
  year % 4 == 0 && (year % 100 != 0 || year % 400 == 0)

def daysOfMonth (year month : Nat) : Nat :=
  match month with
  | 2 => if isLeapYear year then 29 else 28
  | 4 | 6 | 9 | 11 => 30
  | _ => 31

/-! ## Reading -/

/-- What follows a mark at the beginning of a text. -/
def afterMark? (mark : Char) : List Char → Option (List Char)
  | c :: rest => if c = mark then some rest else none
  | [] => none

/-- A number written with so many digits, between two bounds. -/
def takeCount? (width least greatest : Nat) (text : List Char) : Option (Nat × List Char) :=
  let digits := text.take width
  let number := Nat.ofDigitChars 10 digits 0
  if digits.length = width ∧ digits.all Char.isDigit ∧ least ≤ number ∧ number ≤ greatest then
    some (number, text.drop width)
  else none

def takeDate? (text : List Char) : Option (Date × List Char) := do
  let (year, rest) ← takeCount? 4 0 9999 text
  let (month, rest) ← takeCount? 2 1 12 (← afterMark? '-' rest)
  let (day, rest) ← takeCount? 2 1 (daysOfMonth year month) (← afterMark? '-' rest)
  return (⟨year, month, day⟩, rest)

def takeHourMinute? (text : List Char) : Option ((Nat × Nat) × List Char) := do
  let (hour, rest) ← takeCount? 2 0 23 text
  let (minute, rest) ← takeCount? 2 0 59 (← afterMark? ':' rest)
  return ((hour, minute), rest)

/-- The digits of the fraction of a second, none if no digit follows a point. -/
def takeSecondFraction : List Char → List Char × List Char
  | '.' :: rest =>
      match rest.takeWhile Char.isDigit with
      | [] => ([], '.' :: rest)
      | digits => (digits, rest.dropWhile Char.isDigit)
  | rest => ([], rest)

/-- A time of day, whose minute may have a leap second. -/
def takeTime? (text : List Char) : Option (Time × List Char) := do
  let ((hour, minute), rest) ← takeHourMinute? text
  let (second, rest) ← takeCount? 2 0 60 (← afterMark? ':' rest)
  let (fraction, rest) := takeSecondFraction rest
  return (⟨hour, minute, second, fraction⟩, rest)

/-- An offset in minutes, if there is one: a Z for none, or hours and minutes with a sign. -/
def takeOffset (text : List Char) : Option Int × List Char :=
  let signed (sign : Int) (rest : List Char) : Option Int × List Char :=
    match takeHourMinute? rest with
    | some ((hour, minute), rest) => (some (sign * (60 * hour + minute : Nat)), rest)
    | none => (none, text)
  match text with
  | 'Z' :: rest => (some 0, rest)
  | 'z' :: rest => (some 0, rest)
  | '+' :: rest => signed 1 rest
  | '-' :: rest => signed (-1) rest
  | _ => (none, text)

/-- What follows the character between a day and a time. -/
def afterDay? : List Char → Option (List Char)
  | 'T' :: rest => some rest
  | 't' :: rest => some rest
  | ' ' :: rest => some rest
  | _ => none

def takeMoment? (text : List Char) : Option (Moment × List Char) :=
  match takeDate? text with
  | some (date, rest) =>
      match (afterDay? rest).bind takeTime? with
      | some (time, rest) =>
          let (offset, rest) := takeOffset rest
          some (.point date time offset, rest)
      | none => some (.date date, rest)
  | none => (takeTime? text).map (fun read => (.time read.1, read.2))

end Toml
end NumberFormat
