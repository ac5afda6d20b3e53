import NumberFormat.Toml.Table

namespace NumberFormat
namespace Toml

/-!
Documents from statements: an assignment belongs to the table that the last header before it opened.
-/

/-- The members with a change made to the table of a path, which has been opened before. -/
def within (change : Members → Option Members) : Key → Members → Option Members
  | [], members => change members
  | name :: path, members =>
      match members.lookup name with
      | some (.table origin inside) =>
          (within change path inside).map
            (fun inside => replace name (.table origin inside) members)
      | _ => none

/-- The members with all statements followed, given the path of the last header. -/
def follow : (opened : Key) → List Statement → Members → Option Members
  | _, [], members => some members
  | _, .header path :: rest, members => do
      follow path rest (← openTable path members)
  | opened, .assignment next :: rest, members => do
      follow opened rest (← within (assign next.value next.key) opened members)

/-- The document of statements, if they do not contradict each other. -/
def document (statements : List Statement) : Option Members :=
  follow [] statements []

end Toml
end NumberFormat
