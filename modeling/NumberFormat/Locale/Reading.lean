import NumberFormat.Locale.Tables
import NumberFormat.Toml.Document
import NumberFormat.Toml.Parser

namespace NumberFormat
namespace Tables

/-!
Reading tables from TOML.

There is one table each for locales, currencies, units and numbering systems, and nothing else.  A
record is a table with its members, or an array of its members in their order; it has no
others.
-/

open Toml

def text? : Value → Option String
  | .string text => some (String.ofList text)
  | _ => none

def character? : Value → Option Char
  | .string [c] => some c
  | _ => none

def texts? : Value → Option (List String)
  | .array items => items.mapM text?
  | _ => none

/-- The largest number of minor digits that is read. -/
def countLimit : Int := 4294967295

def count? : Value → Option Nat
  | .integer value =>
      if 0 ≤ value ∧ value ≤ countLimit then some value.toNat else none
  | _ => none

/--
The members of a record.  An array gives them in order, and not fewer than the least number; what
it holds beyond the last of them is passed over.
-/
def record? (names : List String) (least : Nat) : Value → Option Members
  | .table _ members =>
      if members.all (fun member => names.contains member.1) then some members else none
  | .array items => if least ≤ items.length then some (names.zip items) else none
  | _ => none

section

variable {α : Type}

/-- A member that has to be there. -/
def needed? (members : Members) (name : String) (read : Value → Option α) : Option α :=
  (members.lookup name).bind read

/-- A member that may be left out. -/
def optional? (members : Members) (name : String) (read : Value → Option α) :
    Option (Option α) :=
  match members.lookup name with
  | none => some none
  | some value => (read value).map some

/-- The entries of a table, none if there is no table. -/
def entries? (members : Members) (name : String) (read : Value → Option α) :
    Option (List (String × α)) :=
  match members.lookup name with
  | none => some []
  | some (.table _ inside) =>
      inside.mapM (fun member => (read member.2).map (fun value => (member.1, value)))
  | some _ => none

end

def changesNames : List String :=
  ["decimal", "group", "minus", "plus", "exponent", "nan", "infinity", "currency_pattern",
    "percent_pattern", "compact_short", "compact_long", "numbering_system"]

def changes? (value : Value) : Option Locale.Changes := do
  let members ← record? changesNames changesNames.length value
  return {
    decimalPoint := ← optional? members "decimal" character?
    groupSeparator := ← optional? members "group" character?
    minusSign := ← optional? members "minus" text?
    plusSign := ← optional? members "plus" text?
    exponentSymbol := ← optional? members "exponent" text?
    nanSymbol := ← optional? members "nan" text?
    infinitySymbol := ← optional? members "infinity" text?
    currencyPattern := ← optional? members "currency_pattern" text?
    percentPattern := ← optional? members "percent_pattern" text?
    compactShort := ← optional? members "compact_short" texts?
    compactLong := ← optional? members "compact_long" texts?
    numberingSystem := ← optional? members "numbering_system" text? }

def currencyNames : List String :=
  ["symbol", "narrow", "one", "other", "digits"]

/-- A currency, whose number of minor digits may be left out. -/
def currencyEntry? (value : Value) : Option Currency := do
  let members ← record? currencyNames 4 value
  return {
    symbol := ← needed? members "symbol" text?
    narrow := ← needed? members "narrow" text?
    one := ← needed? members "one" text?
    other := ← needed? members "other" text?
    digits := (← optional? members "digits" count?).getD 2 }

def unitNames : List String :=
  ["short", "narrow", "one", "other", "per"]

def unitEntry? (value : Value) : Option MeasureUnit := do
  let members ← record? unitNames unitNames.length value
  return {
    short := ← needed? members "short" text?
    narrow := ← needed? members "narrow" text?
    one := ← needed? members "one" text?
    other := ← needed? members "other" text?
    per := ← optional? members "per" text? }

def tableNames : List String :=
  ["locales", "currencies", "units", "numbering_systems"]

/-- The tables of a document. -/
def ofMembers? (members : Members) : Option Tables := do
  if members.all (fun member => tableNames.contains member.1) then
    return {
      locales := derived (← entries? members "locales" changes?)
      currencies := ← entries? members "currencies" currencyEntry?
      units := ← entries? members "units" unitEntry?
      zeroDigits := ← entries? members "numbering_systems" character? }
  else none

/-- The tables of a text. -/
def read? (text : List Char) : Option Tables := do
  ofMembers? (← document (← statements? text))

end Tables
end NumberFormat
