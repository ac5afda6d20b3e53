import NumberFormat.Proofs.Json.Numbers
import NumberFormat.Proofs.Json.Strings
import NumberFormat.Proofs.Text.Listed

namespace NumberFormat
namespace Json

open Text
open Binary64 (isNumberCharacter)

/-!
The grammar of JSON values, and that the reader accepts exactly what it derives.

A value nests as deep as a number says, and the grammar is built up layer by layer: the items and
members of one layer are values of the layers below.
-/

/-! ## The grammar -/

/-- A value that is neither array nor object. -/
inductive ScalarSpelling : Json → List Char → Prop where
  | nullWord : ScalarSpelling .null ['n', 'u', 'l', 'l']
  | trueWord : ScalarSpelling (.boolean true) ['t', 'r', 'u', 'e']
  | falseWord : ScalarSpelling (.boolean false) ['f', 'a', 'l', 's', 'e']
  | string {value : String} {text : List Char} : StringSpelling value text →
      ScalarSpelling (.string value) text
  | number {value : Json} {text : List Char} : NumberSpelling value text →
      ScalarSpelling value text

/-- A name, a colon with any spaces around it and a value. -/
inductive MemberSpelling (item : Json → List Char → Prop) : String × Json → List Char → Prop where
  | member {name : String} {value : Json} {front before after text : List Char} :
      StringSpelling name front → Spaces before → Spaces after → item value text →
      MemberSpelling item (name, value) (front ++ before ++ ':' :: (after ++ text))

/-- A scalar, or an array or object of such items. -/
inductive LayerSpelling (item : Json → List Char → Prop) : Json → List Char → Prop where
  | scalar {value : Json} {text : List Char} : ScalarSpelling value text →
      LayerSpelling item value text
  | array {items : List Json} {text : List Char} : Sequenced item items text →
      LayerSpelling item (.array items) ('[' :: (text ++ [']']))
  | object {members : List (String × Json)} {text : List Char} :
      Sequenced (MemberSpelling item) members text →
      LayerSpelling item (.object (keepLast members)) ('{' :: (text ++ ['}']))

/-- The ways to write a value in which arrays and objects nest no deeper than this. -/
def ValueSpelling : (nesting : Nat) → Json → List Char → Prop
  | 0 => ScalarSpelling
  | nesting + 1 => LayerSpelling (ValueSpelling nesting)

/-! ## Sequences -/

section

variable {α : Type} {item : α → List Char → Prop} {reader : List Char → Option (α × List Char)}
  {close : Char} {kind : Char → Bool}

/-- What follows an item begins with a space, with a comma or with the closing character. -/
theorem itemStops (clear : ∀ c, isSpace c = true ∨ c = ',' ∨ c = close → kind c = false)
    {gap : List Char} (spaces : Spaces gap) {c : Char} (ending : c = ',' ∨ c = close)
    (rest : List Char) : StopsBefore kind (gap ++ c :: rest) := by
  cases gap with
  | nil => exact stopsBefore_cons (clear c (Or.inr ending))
  | cons space more => exact stopsBefore_cons (clear space (Or.inl (spaces _ List.mem_cons_self)))

/-- An item is read through the spaces in front of it. -/
theorem item_read (clear : ∀ c, isSpace c = true ∨ c = ',' ∨ c = close → kind c = false)
    (opens : ∀ value text, item value text → OpensWithout close text)
    (reads : ∀ value text rest, item value text → StopsBefore kind rest →
      reader (text ++ rest) = some (value, rest))
    {value : α} {before text after : List Char} {c : Char} (spaces : Spaces before)
    (written : item value text) (behind : Spaces after) (ending : c = ',' ∨ c = close)
    (rest : List Char) :
    reader (skipSpace (before ++ text ++ after ++ c :: rest)) =
      some (value, after ++ c :: rest) := by
  rw [(opens _ _ written).skipSpace_item spaces,
    reads _ _ _ written (itemStops clear behind ending rest)]

theorem takeItems?_append (solid : isSpace close = false) (noComma : close ≠ ',')
    (clear : ∀ c, isSpace c = true ∨ c = ',' ∨ c = close → kind c = false)
    (opens : ∀ value text, item value text → OpensWithout close text)
    (reads : ∀ value text rest, item value text → StopsBefore kind rest →
      reader (text ++ rest) = some (value, rest))
    {values : List α} {text : List Char} (listed : Listed item values text) {budget : Nat}
    (enough : values.length ≤ budget) (rest : List Char) :
    takeItems? reader close budget (text ++ close :: rest) = some (values, rest) := by
  induction listed generalizing budget with
  | one spaces written behind =>
      cases budget with
      | zero => cases enough
      | succ budget =>
          have read := item_read clear opens reads spaces written behind (Or.inr rfl) rest
          simp only [takeItems?, read, Option.bind_eq_bind, Option.bind_some,
            skipSpace_gap behind (stopsBefore_cons solid)]
          simp
  | @more value before text after others tail spaces written behind _ ih =>
      cases budget with
      | zero => cases enough
      | succ budget =>
          have read := item_read clear opens reads spaces written behind (Or.inl rfl)
            (tail ++ close :: rest)
          have further := ih (Nat.le_of_succ_le_succ enough)
          rw [List.append_assoc _ _ (close :: rest), List.cons_append]
          simp only [takeItems?, read, Option.bind_eq_bind, Option.bind_some,
            skipSpace_gap behind (stopsBefore_cons (c := ',') rfl), further]
          rfl

theorem takeItems?_eq_some
    (reads : ∀ text value rest, reader text = some (value, rest) →
      ∃ read, text = read ++ rest ∧ item value read)
    {budget : Nat} {text rest : List Char} {values : List α}
    (taken : takeItems? reader close budget text = some (values, rest)) :
    ∃ inner, text = inner ++ close :: rest ∧ Listed item values inner := by
  induction budget generalizing text values with
  | zero => cases taken
  | succ budget ih =>
      rw [takeItems?] at taken
      rcases Option.bind_eq_some_iff.mp taken with ⟨⟨value, tail⟩, first, taken⟩
      rcases reads _ _ _ first with ⟨read, split, written⟩
      rcases exists_gap text with ⟨before, spaces, same, _⟩
      rcases exists_gap tail with ⟨after, behind, sameTail, _⟩
      dsimp only at taken
      split at taken
      · cases taken
      · rename_i last ending
        rcases Option.bind_eq_some_iff.mp taken with ⟨⟨others, beyond⟩, further, result⟩
        cases result
        rcases ih further with ⟨inner, innerSplit, listed⟩
        refine ⟨before ++ read ++ after ++ ',' :: inner, ?_, .more spaces written behind listed⟩
        rw [same, split, sameTail, ending, innerSplit]
        simp only [List.append_assoc, List.cons_append]
      · rename_i c last _ ending
        split at taken
        · rename_i closed
          cases taken
          refine ⟨before ++ read ++ after, ?_, .one spaces written behind⟩
          rw [same, split, sameTail, ending, closed]
          simp only [List.append_assoc]
        · cases taken

theorem takeSequence?_append (solid : isSpace close = false) (noComma : close ≠ ',')
    (clear : ∀ c, isSpace c = true ∨ c = ',' ∨ c = close → kind c = false)
    (opens : ∀ value text, item value text → OpensWithout close text)
    (reads : ∀ value text rest, item value text → StopsBefore kind rest →
      reader (text ++ rest) = some (value, rest))
    {values : List α} {text : List Char} (sequence : Sequenced item values text)
    (rest : List Char) :
    takeSequence? reader close (text ++ close :: rest) = some (values, rest) := by
  cases sequence with
  | none spaces =>
      rw [takeSequence?, skipSpace_gap spaces (stopsBefore_cons solid)]
      exact if_pos rfl
  | some listed =>
      have enough : values.length ≤ (text ++ close :: rest).length := by
        have bound := listed.length_le opens
        simp only [List.length_append]
        omega
      rcases listed.skipSpace_eq opens (close :: rest) with ⟨c, tail, front, other⟩
      rw [takeSequence?, front]
      dsimp only
      rw [if_neg other]
      exact takeItems?_append solid noComma clear opens reads listed enough rest

theorem takeSequence?_eq_some
    (reads : ∀ text value rest, reader text = some (value, rest) →
      ∃ read, text = read ++ rest ∧ item value read)
    {text rest : List Char} {values : List α}
    (taken : takeSequence? reader close text = some (values, rest)) :
    ∃ inner, text = inner ++ close :: rest ∧ Sequenced item values inner := by
  rw [takeSequence?] at taken
  split at taken
  · cases taken
  · rename_i c tail front
    split at taken
    · rename_i closed
      cases taken
      rcases exists_gap text with ⟨gap, spaces, same, _⟩
      rw [front, closed] at same
      exact ⟨gap, same, .none spaces⟩
    · rcases takeItems?_eq_some reads taken with ⟨inner, split, listed⟩
      exact ⟨inner, split, .some listed⟩

end

/-! ## Openings -/

/-- Whether a value may begin with this character. -/
def opensValue (c : Char) : Bool :=
  c == 'n' || c == 't' || c == 'f' || c == '"' || c == '-' || c.isDigit || c == '[' || c == '{'

theorem NumberSpelling.opens {value : Json} {text : List Char}
    (spelled : NumberSpelling value text) :
    ∃ c tail, text = c :: tail ∧ (c = '-' ∨ c.isDigit = true) := by
  have ofWhole {digits : List Char} (whole : WholeSpelling digits) (more : List Char) :
      ∃ c tail, digits ++ more = c :: tail ∧ (c = '-' ∨ c.isDigit = true) := by
    cases whole with
    | zero => exact ⟨'0', more, rfl, Or.inr rfl⟩
    | positive _ all => exact ⟨_, _, rfl, Or.inr (all _ List.mem_cons_self)⟩
  cases spelled with
  | whole whole _ =>
      have found := ofWhole whole []
      rwa [List.append_nil] at found
  | @number negative _ _ _ _ _ _ whole =>
      cases negative with
      | true => exact ⟨'-', _, rfl, Or.inl rfl⟩
      | false => exact ofWhole whole _

theorem StringSpelling.opens {value : String} {text : List Char}
    (spelled : StringSpelling value text) : ∃ tail, text = '"' :: tail := by
  cases spelled
  exact ⟨_, rfl⟩

theorem ScalarSpelling.opens {value : Json} {text : List Char}
    (spelled : ScalarSpelling value text) :
    ∃ c tail, text = c :: tail ∧ opensValue c = true ∧ c ≠ '[' ∧ c ≠ '{' := by
  cases spelled with
  | nullWord => exact ⟨'n', _, rfl, by decide⟩
  | trueWord => exact ⟨'t', _, rfl, by decide⟩
  | falseWord => exact ⟨'f', _, rfl, by decide⟩
  | string spelled =>
      rcases spelled.opens with ⟨tail, rfl⟩
      exact ⟨'"', tail, rfl, by decide⟩
  | number spelled =>
      rcases spelled.opens with ⟨c, tail, rfl, rfl | digit⟩
      · exact ⟨'-', tail, rfl, by decide⟩
      · refine ⟨c, tail, rfl, by simp [opensValue, digit], ?_, ?_⟩ <;> rintro rfl <;> cases digit

theorem ValueSpelling.ofScalar {nesting : Nat} {value : Json} {text : List Char}
    (spelled : ScalarSpelling value text) : ValueSpelling nesting value text := by
  cases nesting with
  | zero => exact spelled
  | succ => exact .scalar spelled

theorem ValueSpelling.opens {nesting : Nat} {value : Json} {text : List Char}
    (spelled : ValueSpelling nesting value text) :
    ∃ c tail, text = c :: tail ∧ opensValue c = true := by
  have ofScalar (scalar : ScalarSpelling value text) :
      ∃ c tail, text = c :: tail ∧ opensValue c = true := by
    rcases scalar.opens with ⟨c, tail, same, opens, _⟩
    exact ⟨c, tail, same, opens⟩
  cases nesting with
  | zero => exact ofScalar spelled
  | succ nesting =>
      cases spelled with
      | scalar scalar => exact ofScalar scalar
      | array => exact ⟨'[', _, rfl, rfl⟩
      | object => exact ⟨'{', _, rfl, rfl⟩

theorem ValueSpelling.opensWithout {close : Char} (other : opensValue close = false) {nesting : Nat}
    {value : Json} {text : List Char} (spelled : ValueSpelling nesting value text) :
    OpensWithout close text := by
  rcases spelled.opens with ⟨c, tail, same, opens⟩
  refine ⟨c, tail, same, isSpace_eq_false (clear_of_isSpace rfl rfl rfl rfl) opens, ?_⟩
  rintro rfl
  rw [opens] at other
  cases other

theorem MemberSpelling.opensWithout {item : Json → List Char → Prop} {member : String × Json}
    {text : List Char} (spelled : MemberSpelling item member text) : OpensWithout '}' text := by
  cases spelled with
  | member name =>
      rcases name.opens with ⟨tail, rfl⟩
      exact ⟨'"', _, rfl, rfl, by decide⟩

/-! ## Values -/

theorem takeScalar?_append {value : Json} {text rest : List Char}
    (spelled : ScalarSpelling value text) (stop : StopsBefore isNumberCharacter rest) :
    takeScalar? (text ++ rest) = some (value, rest) := by
  cases spelled with
  | nullWord => rfl
  | trueWord => rfl
  | falseWord => rfl
  | string spelled =>
      cases spelled with
      | @quoted chars inner spelled =>
          rw [enclosed_append, takeScalar?, takeString?_append spelled]
          rfl
  | number spelled =>
      rcases spelled.opens with ⟨c, tail, rfl, first⟩
      have read := takeNumber?_append spelled stop
      rw [← read]
      have other : c ≠ 'n' ∧ c ≠ 't' ∧ c ≠ 'f' ∧ c ≠ '"' := by
        rcases first with rfl | digit
        · decide
        · refine ⟨?_, ?_, ?_, ?_⟩ <;> rintro rfl <;> cases digit
      unfold takeScalar?
      split
      · rename_i same
        exact absurd (List.cons.inj same).1 other.1
      · rename_i same
        exact absurd (List.cons.inj same).1 other.2.1
      · rename_i same
        exact absurd (List.cons.inj same).1 other.2.2.1
      · rename_i same
        exact absurd (List.cons.inj same).1 other.2.2.2
      · rfl

theorem takeScalar?_eq_some {text rest : List Char} {value : Json}
    (taken : takeScalar? text = some (value, rest)) :
    ∃ read, text = read ++ rest ∧ ScalarSpelling value read := by
  unfold takeScalar? at taken
  split at taken
  · cases taken
    exact ⟨_, rfl, .nullWord⟩
  · cases taken
    exact ⟨_, rfl, .trueWord⟩
  · cases taken
    exact ⟨_, rfl, .falseWord⟩
  · rename_i tail
    rcases Option.map_eq_some_iff.mp taken with ⟨⟨chars, last⟩, read, result⟩
    cases result
    rcases takeString?_eq_some read with ⟨inner, split, spelled⟩
    refine ⟨_, ?_, .string (.quoted spelled)⟩
    rw [split, enclosed_append]
  · rcases takeNumber?_eq_some taken with ⟨read, split, spelled⟩
    exact ⟨read, split, .number spelled⟩

/-- Without a bracket at the beginning only a scalar can be read. -/
theorem takeValue?_scalar (nesting : Nat) {text : List Char}
    (bare : nesting = 0 ∨ ∀ c ∈ text.head?, c ≠ '[' ∧ c ≠ '{') :
    takeValue? nesting text = takeScalar? text := by
  unfold takeValue?
  split
  · rcases bare with zero | bare
    · cases zero
    · exact absurd rfl (bare '[' rfl).1
  · rcases bare with zero | bare
    · cases zero
    · exact absurd rfl (bare '{' rfl).2
  · rfl

theorem takeMember?_append {reader : List Char → Option (Json × List Char)}
    {item : Json → List Char → Prop} {kind : Char → Bool}
    (opens : ∀ value text, item value text → OpensWithout ']' text)
    (reads : ∀ value text rest, item value text → StopsBefore kind rest →
      reader (text ++ rest) = some (value, rest))
    {member : String × Json} {text rest : List Char} (spelled : MemberSpelling item member text)
    (stop : StopsBefore kind rest) : takeMember? reader (text ++ rest) = some (member, rest) := by
  cases spelled with
  | @member name value front before after text named first second written =>
      cases named with
      | @quoted chars inner spelled =>
          have whole : '"' :: (inner ++ ['"']) ++ before ++ ':' :: (after ++ text) ++ rest =
              '"' :: (inner ++ '"' :: (before ++ ':' :: (after ++ (text ++ rest)))) := by
            simp only [List.cons_append, List.append_assoc, List.nil_append]
          rw [whole, takeMember?, takeString?_append spelled, Option.bind_eq_bind, Option.bind_some]
          simp only [skipSpace_gap first (stopsBefore_cons (c := ':') rfl),
            skipSpace_gap second ((opens _ _ written).stopsBefore rest),
            reads _ _ _ written stop]
          rfl

theorem takeMember?_eq_some {reader : List Char → Option (Json × List Char)}
    {item : Json → List Char → Prop}
    (reads : ∀ text value rest, reader text = some (value, rest) →
      ∃ read, text = read ++ rest ∧ item value read)
    {text rest : List Char} {member : String × Json}
    (taken : takeMember? reader text = some (member, rest)) :
    ∃ read, text = read ++ rest ∧ MemberSpelling item member read := by
  unfold takeMember? at taken
  split at taken
  · rename_i tail
    rcases Option.bind_eq_some_iff.mp taken with ⟨⟨chars, last⟩, name, taken⟩
    dsimp only at taken
    split at taken
    · rename_i beyond colon
      rcases Option.bind_eq_some_iff.mp taken with ⟨⟨value, final⟩, found, result⟩
      cases result
      rcases takeString?_eq_some name with ⟨inner, split, spelled⟩
      rcases reads _ _ _ found with ⟨read, valueSplit, written⟩
      rcases exists_gap last with ⟨before, first, same, _⟩
      rcases exists_gap beyond with ⟨after, second, sameBeyond, _⟩
      refine ⟨_, ?_, .member (.quoted spelled) first second written⟩
      rw [split, same, colon, sameBeyond, valueSplit]
      simp only [List.cons_append, List.append_assoc, List.nil_append]
    · cases taken
  · cases taken

/-- Every spelling of a value is read as the value, wherever a number would end. -/
theorem takeValue?_append {nesting : Nat} {value : Json} {text rest : List Char}
    (spelled : ValueSpelling nesting value text) (stop : StopsBefore isNumberCharacter rest) :
    takeValue? nesting (text ++ rest) = some (value, rest) := by
  induction nesting generalizing value text rest with
  | zero => rw [takeValue?_scalar 0 (Or.inl rfl), takeScalar?_append spelled stop]
  | succ nesting ih =>
      have reads : ∀ value text rest, ValueSpelling nesting value text →
          StopsBefore isNumberCharacter rest →
          takeValue? nesting (text ++ rest) = some (value, rest) :=
        fun value text rest written stop => ih written stop
      have clear {close : Char} (ending : isNumberCharacter close = false) (c : Char)
          (ends : isSpace c = true ∨ c = ',' ∨ c = close) : isNumberCharacter c = false := by
        rcases ends with space | rfl | rfl
        · exact clear_of_isSpace rfl rfl rfl rfl c space
        · rfl
        · exact ending
      have opens : ∀ value text, ValueSpelling nesting value text → OpensWithout ']' text :=
        fun value text written => written.opensWithout (by decide)
      cases spelled with
      | scalar scalar =>
          rcases scalar.opens with ⟨c, tail, rfl, _, noArray, noObject⟩
          have bare : ∀ d ∈ (c :: tail ++ rest).head?, d ≠ '[' ∧ d ≠ '{' := by
            intro d member
            cases member
            exact ⟨noArray, noObject⟩
          rw [takeValue?_scalar (nesting + 1) (Or.inr bare), takeScalar?_append scalar stop]
      | @array items text sequence =>
          have read := takeSequence?_append rfl (by decide) (clear rfl) opens reads sequence rest
          rw [enclosed_append, takeValue?, read]
          rfl
      | @object members text sequence =>
          have memberReads : ∀ member text rest,
              MemberSpelling (ValueSpelling nesting) member text →
              StopsBefore isNumberCharacter rest →
              takeMember? (takeValue? nesting) (text ++ rest) = some (member, rest) :=
            fun _ _ _ member stop => takeMember?_append opens reads member stop
          have read := takeSequence?_append rfl (by decide) (clear rfl)
            (fun _ _ member => member.opensWithout) memberReads sequence rest
          rw [enclosed_append, takeValue?, read]
          rfl

/-- Whatever is read as a value is a spelling of it. -/
theorem takeValue?_eq_some {nesting : Nat} {text rest : List Char} {value : Json}
    (taken : takeValue? nesting text = some (value, rest)) :
    ∃ read, text = read ++ rest ∧ ValueSpelling nesting value read := by
  induction nesting generalizing text value rest with
  | zero =>
      rw [takeValue?_scalar 0 (Or.inl rfl)] at taken
      exact takeScalar?_eq_some taken
  | succ nesting ih =>
      have reads : ∀ text value rest, takeValue? nesting text = some (value, rest) →
          ∃ read, text = read ++ rest ∧ ValueSpelling nesting value read :=
        fun text value rest taken => ih taken
      unfold takeValue? at taken
      split at taken
      · rename_i below tail same
        cases same
        rcases Option.bind_eq_some_iff.mp taken with ⟨⟨items, last⟩, sequence, result⟩
        cases result
        rcases takeSequence?_eq_some reads sequence with ⟨inner, split, spelled⟩
        refine ⟨_, ?_, .array spelled⟩
        rw [split, enclosed_append]
      · rename_i below tail same
        cases same
        rcases Option.bind_eq_some_iff.mp taken with ⟨⟨members, last⟩, sequence, result⟩
        cases result
        rcases takeSequence?_eq_some
          (fun _ _ _ taken => takeMember?_eq_some reads taken) sequence with ⟨inner, split, spelled⟩
        refine ⟨_, ?_, .object spelled⟩
        rw [split, enclosed_append]
      · rcases takeScalar?_eq_some taken with ⟨read, split, spelled⟩
        exact ⟨read, split, .ofScalar spelled⟩

end Json
end NumberFormat
