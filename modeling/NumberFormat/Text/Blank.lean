namespace NumberFormat
namespace Text

/-!
Blank characters, the words they separate, and text with its blank ends cut off.

Text is handled as a list of characters, so that every statement about it is one about lists.
-/

/-- A character is blank when Unicode counts it as white space. -/
def isBlank (c : Char) : Bool :=
  let n := c.toNat
  (0x9 ≤ n && n ≤ 0xD) || n == 0x20 || n == 0x85 || n == 0xA0 || n == 0x1680 ||
    (0x2000 ≤ n && n ≤ 0x200A) || n == 0x2028 || n == 0x2029 || n == 0x202F ||
    n == 0x205F || n == 0x3000

/-- The words of a text are its longest runs without a blank, in order. -/
def words (text : List Char) : List (List Char) :=
  (text.splitOnP isBlank).filter (fun word => !word.isEmpty)

/-- The text without the blanks at either end. -/
def trim (text : List Char) : List Char :=
  ((text.dropWhile isBlank).reverse.dropWhile isBlank).reverse

theorem isBlank_of_isWhitespace {c : Char} (white : c.isWhitespace = true) :
    isBlank c = true := by
  simp only [Char.isWhitespace, Bool.or_eq_true, decide_eq_true_eq] at white
  rcases white with ((rfl | rfl) | rfl) | rfl <;> rfl

theorem words_nil : words [] = [] := by
  simp [words]

/-- A blank separates: the words of two texts with a blank between them are those of both. -/
theorem words_append_blank (left right : List Char) {c : Char} (blank : isBlank c = true) :
    words (left ++ c :: right) = words left ++ words right := by
  rw [words, List.splitOnP_append_cons _ _ blank, List.filter_append]
  rfl

theorem words_of_unbroken {word : List Char} (nonempty : word ≠ [])
    (unbroken : ∀ c ∈ word, isBlank c = false) : words word = [word] := by
  rw [words, List.splitOnP_eq_singleton unbroken]
  simp [nonempty]

end Text
end NumberFormat
