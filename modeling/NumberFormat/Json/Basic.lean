import NumberFormat.Binary64.Basic

namespace NumberFormat

/-!
JSON values.

A number written with digits alone is a whole number, as long as it fits in 64 bits; any other
number, be it negative, with a fraction or with an exponent, is kept as a binary64 number.  The
members of an object stand in written order, each name once.
-/

inductive Json where
  | null
  | boolean (value : Bool)
  | whole (value : Nat)
  | number (value : Binary64)
  | string (value : String)
  | array (items : List Json)
  | object (members : List (String × Json))

namespace Json

/-- The members without those whose name comes again later. -/
def keepLast : List (String × Json) → List (String × Json)
  | [] => []
  | member :: later =>
      if later.any (fun other => other.1 == member.1) then keepLast later
      else member :: keepLast later

/-- The value of a member of an object. -/
def member? (name : String) : Json → Option Json
  | object members => members.lookup name
  | _ => none

end Json
end NumberFormat
