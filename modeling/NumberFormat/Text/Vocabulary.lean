namespace NumberFormat
namespace Text

/-!
Vocabularies: types whose finitely many values are each written as one word.

The same list of words serves for writing and for reading, so reading a written word gives the
value back.
-/

/-- A type with a word for each of its values, no two values sharing one. -/
class Vocabulary (α : Type) where
  values : List α
  word : α → String
  complete : ∀ value, value ∈ values
  distinct : ∀ value other, word value = word other → value = other

/-- The value a word stands for, if it stands for any. -/
def valueOf? (α : Type) [Vocabulary α] (text : String) : Option α :=
  (Vocabulary.values : List α).find? (fun value => Vocabulary.word value == text)

section

variable {α : Type} [Vocabulary α]

theorem word_of_valueOf? {text : String} {value : α} (found : valueOf? α text = some value) :
    Vocabulary.word value = text := by
  have matched := List.find?_some found
  simpa using matched

theorem valueOf?_word (value : α) : valueOf? α (Vocabulary.word value) = some value := by
  cases found : valueOf? α (Vocabulary.word value) with
  | none =>
      have unmatched := List.find?_eq_none.mp found value (Vocabulary.complete value)
      simp at unmatched
  | some other =>
      rw [Vocabulary.distinct other value (word_of_valueOf? found)]

/-- A word is read exactly as the value that is written so. -/
theorem valueOf?_eq_some_iff {text : String} {value : α} :
    valueOf? α text = some value ↔ text = Vocabulary.word value := by
  constructor
  · intro found
    exact (word_of_valueOf? found).symm
  · intro written
    rw [written, valueOf?_word]

end

end Text
end NumberFormat
