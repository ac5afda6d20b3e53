import NumberFormat.Toml.Basic

namespace NumberFormat
namespace Toml

/-!
Tables that grow.

Nothing is defined twice.  A table may be opened by a header after tables inside it were, but not
after it was opened or extended by a dotted key.  A dotted key extends tables of dotted keys, and
passes through tables that headers inside them have brought about.  A table between braces stays
as it is.
-/

/-- The members with a value put in place of the one with the same name, or behind all of them. -/
def replace (name : String) (value : Value) : Members → Members
  | [] => [(name, value)]
  | (other, old) :: rest =>
      if other = name then (name, value) :: rest else (other, old) :: replace name value rest

/-- The members with the table of a path opened. -/
def openTable : Key → Members → Option Members
  | [], _ => none
  | [name], members =>
      match members.lookup name with
      | none => some (replace name (.table .header []) members)
      | some (.table .inner inside) => some (replace name (.table .header inside) members)
      | some _ => none
  | name :: path, members =>
      match members.lookup name with
      | none => (openTable path []).map (fun inside => replace name (.table .inner inside) members)
      | some (.table .braces _) => none
      | some (.table origin inside) =>
          (openTable path inside).map (fun inside => replace name (.table origin inside) members)
      | some _ => none

/-- Whether a dotted key may lead through a table, the last one before the value or another. -/
def extensible (last : Bool) : Origin → Bool
  | .header => false
  | .inner => !last
  | .dotted => true
  | .braces => false

/-- The members with a value at a key. -/
def assign (value : Value) : Key → Members → Option Members
  | [], _ => none
  | [name], members =>
      match members.lookup name with
      | none => some (replace name value members)
      | some _ => none
  | name :: key, members =>
      match members.lookup name with
      | none =>
          (assign value key []).map (fun inside => replace name (.table .dotted inside) members)
      | some (.table origin inside) =>
          if extensible (key.length == 1) origin then
            (assign value key inside).map
              (fun inside => replace name (.table origin inside) members)
          else none
      | some _ => none

/-- The members that assignments make one after the other. -/
def assignAll (assignments : List Assignment) : Option Members :=
  assignments.foldlM (fun members next => assign next.value next.key members) []

end Toml
end NumberFormat
