namespace NumberFormat
namespace Text

/-!
Templates: text with slots into which another text is put.

A slot is written as an opening brace, a zero and a closing brace.  Everything else in a template
stands for itself.
-/

/-- The way a slot is written. -/
def slot : List Char := ['{', '0', '}']

/-- The slot as a text. -/
def slotText : String := String.ofList slot

/-- The template with every slot replaced by the value.  The value itself is not searched. -/
def fill (value : List Char) : List Char → List Char
  | '{' :: '0' :: '}' :: rest => value ++ fill value rest
  | c :: rest => c :: fill value rest
  | [] => []

theorem fill_slot (value rest : List Char) : fill value (slot ++ rest) = value ++ fill value rest :=
  rfl

/-- A template that never opens a slot is its own filling. -/
theorem fill_of_not_mem {value template : List Char} (plain : '{' ∉ template) :
    fill value template = template := by
  induction template with
  | nil => rfl
  | cons c rest ih =>
      have different : c ≠ '{' := fun same => plain (by simp [same])
      rw [fill, ih (fun member => plain (List.mem_cons_of_mem _ member))]
      rintro _ rfl
      simp at different

end Text
end NumberFormat
