namespace NumberFormat
namespace Text

/-!
The four characters that may stand between the parts of formula text and of JSON: space, tab, line
feed and carriage return.
-/

def isSpace (c : Char) : Bool :=
  c == ' ' || c == '\t' || c == '\n' || c == '\r'

/-- The text from its first character that is no space. -/
def skipSpace (text : List Char) : List Char :=
  text.dropWhile isSpace

theorem skipSpace_of_not_isSpace {c : Char} (solid : isSpace c = false) (rest : List Char) :
    skipSpace (c :: rest) = c :: rest := by
  simp [skipSpace, solid]

theorem skipSpace_append {spaces : List Char} (blank : ∀ c ∈ spaces, isSpace c = true)
    (rest : List Char) : skipSpace (spaces ++ rest) = skipSpace rest := by
  induction spaces with
  | nil => rfl
  | cons c spaces ih =>
      have first := blank c List.mem_cons_self
      have others := ih (fun d member => blank d (List.mem_cons_of_mem _ member))
      simpa [skipSpace, first] using others

theorem skipSpace_skipSpace (text : List Char) : skipSpace (skipSpace text) = skipSpace text := by
  induction text with
  | nil => rfl
  | cons c rest ih =>
      cases solid : isSpace c with
      | true => simpa [skipSpace, solid] using ih
      | false => simp [skipSpace, solid]

end Text
end NumberFormat
