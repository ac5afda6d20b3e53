import NumberFormat.Binary64.Basic
import NumberFormat.Toml.Moment

namespace NumberFormat
namespace Toml

/-!
TOML documents: values, among them tables that headers open, dotted keys extend or braces enclose.
-/

/-- How a table came to be, which decides what may still be added to it. -/
inductive Origin where
  /-- By a header of its own. -/
  | header
  /-- By a header of a table inside it. -/
  | inner
  /-- By a dotted key. -/
  | dotted
  /-- By braces, which hold all that is in it. -/
  | braces
deriving DecidableEq

inductive Value where
  | string (text : List Char)
  | integer (value : Int)
  | float (value : Binary64)
  | boolean (value : Bool)
  | moment (value : Moment)
  | array (items : List Value)
  | table (origin : Origin) (members : List (String × Value))

/-- What stands in a table, each name once. -/
abbrev Members : Type := List (String × Value)

/-- A key with its parts, of which there is one at least. -/
abbrev Key : Type := List String

/-- A value and the key it belongs to. -/
structure Assignment where
  key : Key
  value : Value

/-- What a line says. -/
inductive Statement where
  | header (path : Key)
  | assignment (assignment : Assignment)

end Toml
end NumberFormat
