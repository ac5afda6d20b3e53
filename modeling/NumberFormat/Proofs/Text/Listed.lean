import NumberFormat.Proofs.Text.Run

namespace NumberFormat
namespace Text

/-!
Lists in text: one item or more, with commas between them and spaces around each.

Arguments of a formula, items of a JSON array and members of a JSON object are all written so.
-/

/-- The texts of items with commas between them and any spaces around each. -/
inductive Listed {α : Type} (item : α → List Char → Prop) : List α → List Char → Prop where
  | one {value : α} {before text after : List Char} :
      Spaces before → item value text → Spaces after →
      Listed item [value] (before ++ text ++ after)
  | more {value : α} {before text after : List Char} {others : List α} {tail : List Char} :
      Spaces before → item value text → Spaces after → Listed item others tail →
      Listed item (value :: others) (before ++ text ++ after ++ ',' :: tail)

/-- The texts of any number of items; where there is none, spaces may stand alone. -/
inductive Sequenced {α : Type} (item : α → List Char → Prop) : List α → List Char → Prop where
  | none {gap : List Char} : Spaces gap → Sequenced item [] gap
  | some {values : List α} {text : List Char} : Listed item values text →
      Sequenced item values text

/-- Whether a text begins with a character that is neither a space nor the one given. -/
def OpensWithout (close : Char) (text : List Char) : Prop :=
  ∃ c tail, text = c :: tail ∧ isSpace c = false ∧ c ≠ close

theorem OpensWithout.stopsBefore {close : Char} {text : List Char} (opens : OpensWithout close text)
    (rest : List Char) : StopsBefore isSpace (text ++ rest) := by
  rcases opens with ⟨c, tail, rfl, solid, _⟩
  exact stopsBefore_cons solid

theorem OpensWithout.ne_nil {close : Char} {text : List Char} (opens : OpensWithout close text) :
    text ≠ [] := by
  rcases opens with ⟨c, tail, rfl, _⟩
  exact List.cons_ne_nil c tail

/-- The spaces in front of an item are skipped, and nothing of the item with them. -/
theorem OpensWithout.skipSpace_item {close : Char} {text : List Char}
    (opens : OpensWithout close text) {before : List Char} (spaces : Spaces before)
    (after rest : List Char) :
    skipSpace (before ++ text ++ after ++ rest) = text ++ (after ++ rest) := by
  simp only [List.append_assoc]
  exact skipSpace_gap spaces (opens.stopsBefore _)

/-- A text between two characters, and what follows the second. -/
theorem enclosed_append (first last : Char) (text rest : List Char) :
    first :: (text ++ [last]) ++ rest = first :: (text ++ last :: rest) := by
  simp only [List.cons_append, List.append_assoc, List.nil_append]

/-- Spaces may be put in front of a list. -/
theorem Listed.gap {α : Type} {item : α → List Char → Prop} {values : List α} {text : List Char}
    (listed : Listed item values text) {gap : List Char} (spaces : Spaces gap) :
    Listed item values (gap ++ text) := by
  have longer {before : List Char} (blank : Spaces before) : Spaces (gap ++ before) := by
    intro c member
    rcases List.mem_append.mp member with front | behind
    · exact spaces c front
    · exact blank c behind
  cases listed with
  | one before written after =>
      simp only [← List.append_assoc]
      exact .one (longer before) written after
  | more before written after others =>
      simp only [← List.append_assoc]
      exact .more (longer before) written after others

/-- No item is longer than the list. -/
theorem Listed.within {α : Type} {item : α → List Char → Prop} {values : List α} {text : List Char}
    (listed : Listed item values text) {bound : Nat} (enough : text.length ≤ bound) :
    Listed (fun value text => item value text ∧ text.length ≤ bound) values text := by
  induction listed with
  | one before written after =>
      simp only [List.length_append] at enough
      exact .one before ⟨written, by omega⟩ after
  | more before written after _ ih =>
      simp only [List.length_append, List.length_cons] at enough
      exact .more before ⟨written, by omega⟩ after (ih (by omega))

theorem Sequenced.within {α : Type} {item : α → List Char → Prop} {values : List α}
    {text : List Char} (sequence : Sequenced item values text) {bound : Nat}
    (enough : text.length ≤ bound) :
    Sequenced (fun value text => item value text ∧ text.length ≤ bound) values text := by
  cases sequence with
  | none spaces => exact .none spaces
  | some listed => exact .some (listed.within enough)

/-- The first character of a list that is no space opens its first item. -/
theorem Listed.skipSpace_eq {α : Type} {item : α → List Char → Prop} {close : Char}
    {values : List α} {text : List Char} (listed : Listed item values text)
    (opens : ∀ value text, item value text → OpensWithout close text) (rest : List Char) :
    ∃ c tail, skipSpace (text ++ rest) = c :: tail ∧ c ≠ close := by
  have first {value : α} {before text : List Char} (spaces : Spaces before)
      (written : item value text) (more : List Char) :
      ∃ c tail, skipSpace (before ++ (text ++ more)) = c :: tail ∧ c ≠ close := by
    rcases opens _ _ written with ⟨c, tail, rfl, solid, different⟩
    exact ⟨c, tail ++ more, skipSpace_gap spaces (stopsBefore_cons solid), different⟩
  cases listed with
  | one spaces written _ =>
      simp only [List.append_assoc]
      exact first spaces written _
  | more spaces written _ _ =>
      simp only [List.append_assoc]
      exact first spaces written _

theorem Listed.length_le {α : Type} {item : α → List Char → Prop} {close : Char} {values : List α}
    {text : List Char} (listed : Listed item values text)
    (opens : ∀ value text, item value text → OpensWithout close text) :
    values.length ≤ text.length := by
  induction listed with
  | one _ item _ =>
      have some := List.length_pos_iff.mpr (opens _ _ item).ne_nil
      simp only [List.length_append, List.length_singleton]
      omega
  | more _ item _ _ ih =>
      simp only [List.length_append, List.length_cons]
      omega

end Text
end NumberFormat
