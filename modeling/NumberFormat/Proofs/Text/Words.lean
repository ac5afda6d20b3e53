import NumberFormat.Text.Blank

namespace NumberFormat
namespace Text

/-!
Words put together and taken apart again.

The words of a text hold no blank, and words with single blanks between them come back.  How long a
run of blanks is makes no difference.
-/

/-- No separator is left in the parts of a text. -/
theorem separator_of_mem_splitOnP {kind : Char → Bool} {text part : List Char}
    (member : part ∈ text.splitOnP kind) : ∀ c ∈ part, kind c = false := by
  induction text generalizing part with
  | nil =>
      rw [List.splitOnP_nil, List.mem_singleton] at member
      subst member
      intro c inside
      cases inside
  | cons d rest ih =>
      have inRest : ∀ later ∈ rest.splitOnP kind, ∀ c ∈ later, kind c = false :=
        fun later member => ih member
      rw [List.splitOnP_cons_eq_if_modifyHead] at member
      cases separates : kind d with
      | true =>
          rw [if_pos separates] at member
          rcases List.mem_cons.mp member with rfl | later
          · intro c inside
            cases inside
          · exact inRest part later
      | false =>
          rw [if_neg (Bool.eq_false_iff.mp separates)] at member
          cases parts : rest.splitOnP kind with
          | nil => exact absurd parts (List.splitOnP_ne_nil kind rest)
          | cons first others =>
              rw [parts] at member inRest
              rcases List.mem_cons.mp member with rfl | later
              · intro c inside
                rcases List.mem_cons.mp inside with rfl | inside
                · exact separates
                · exact inRest first List.mem_cons_self c inside
              · exact inRest part (List.mem_cons_of_mem _ later)

theorem not_mem_of_mem_splitOn {separator : Char} {text part : List Char}
    (member : part ∈ text.splitOn separator) : separator ∉ part := by
  intro inside
  have other := separator_of_mem_splitOnP member separator inside
  simp at other

theorem unbroken_of_mem_words {text word : List Char} (member : word ∈ words text) :
    word ≠ [] ∧ ∀ c ∈ word, isBlank c = false := by
  rcases List.mem_filter.mp member with ⟨part, nonempty⟩
  exact ⟨by simpa using nonempty, separator_of_mem_splitOnP part⟩

/-- Words with a blank between each two are the words of the whole. -/
theorem words_intercalate {all : List (List Char)}
    (unbroken : ∀ word ∈ all, word ≠ [] ∧ ∀ c ∈ word, isBlank c = false) :
    words ([' '].intercalate all) = all := by
  induction all with
  | nil => exact words_nil
  | cons word others ih =>
      rcases unbroken word List.mem_cons_self with ⟨nonempty, solid⟩
      have rest := ih (fun other member => unbroken other (List.mem_cons_of_mem _ member))
      cases others with
      | nil =>
          rw [List.intercalate_singleton]
          exact words_of_unbroken nonempty solid
      | cons next more =>
          rw [List.intercalate_cons_cons, List.append_assoc, List.singleton_append,
            words_append_blank _ _ (c := ' ') rfl, words_of_unbroken nonempty solid, rest]
          rfl

/-- Blanks in front make no difference. -/
theorem words_blanks_append {gap : List Char} (blank : ∀ c ∈ gap, isBlank c = true)
    (text : List Char) : words (gap ++ text) = words text := by
  induction gap with
  | nil => rfl
  | cons c more ih =>
      have first := words_append_blank [] (more ++ text) (blank c List.mem_cons_self)
      rw [words_nil, List.nil_append, List.nil_append] at first
      rw [List.cons_append, first, ih (fun d member => blank d (List.mem_cons_of_mem _ member))]

/-- A run of blanks separates as a single one does. -/
theorem words_append_blanks (left right : List Char) {gap : List Char} (nonempty : gap ≠ [])
    (blank : ∀ c ∈ gap, isBlank c = true) :
    words (left ++ gap ++ right) = words left ++ words right := by
  cases gap with
  | nil => exact absurd rfl nonempty
  | cons c more =>
      rw [List.append_assoc, List.cons_append,
        words_append_blank left _ (blank c List.mem_cons_self),
        words_blanks_append (fun d member => blank d (List.mem_cons_of_mem _ member))]

end Text
end NumberFormat
