namespace NumberFormat
namespace Formula

/-!
What can be wrong with the text of a formula.
-/

inductive Error where
  /-- The text has no form at all beyond this many bytes. -/
  | malformed (offset : Nat)
  | unknownFunction (name : String)
  | wrongCount (function : String) (expected found : Nat)
  | wrongKind (function expected : String) (position : Nat)
  | badOptions
deriving DecidableEq

namespace Error

/-- The error as a sentence. -/
def message : Error → String
  | malformed offset => "Invalid formatter source at offset " ++ toString offset
  | unknownFunction name => "Unknown function: " ++ name
  | wrongCount function expected found =>
      function ++ " expects " ++ toString expected ++ " arguments, found " ++ toString found
  | wrongKind function expected position =>
      function ++ " expects " ++ expected ++ " as argument " ++ toString position
  | badOptions => "Invalid options record"

end Error
end Formula
end NumberFormat
