import NumberFormat.Formula.Tree
import NumberFormat.Proofs.Json.Values

namespace NumberFormat
namespace Formula

open Text
open Binary64 (isNumberCharacter)

/-!
The layouts of trees, and that the reader accepts exactly these.

An expression is followed by a comma, a closing parenthesis or nothing, with spaces in front.
None of these can go on with a name, a number or a value, so there is one way only to cut a text
into expressions.
-/

/-! ## Layouts -/

/-- Whether a text begins as a JSON string, array or object does. -/
def OpensJson (text : List Char) : Prop :=
  ∃ c tail, text = c :: tail ∧ (c = '"' ∨ c = '[' ∨ c = '{')

/-- Whether a text is the name of a function, known or not. -/
def Name (text : List Char) : Prop :=
  text ≠ [] ∧ ∀ c ∈ text, isNameCharacter c = true

/-- The ways to lay out a tree as text. -/
inductive Tree.Layout : Tree → List Char → Prop where
  | input : Tree.Layout .input ['x']
  | number {value : Binary64} {text : List Char} : Binary64.Spelling value text →
      Tree.Layout (.number value) text
  | json {value : Json} {text : List Char} : OpensJson text →
      Json.ValueSpelling Json.nestingLimit value text → Tree.Layout (.json value) text
  | call {name gap inner : List Char} {arguments : List Tree} : Name name → Spaces gap →
      Sequenced Tree.Layout arguments inner →
      Tree.Layout (.call (String.ofList name) arguments) (name ++ gap ++ '(' :: (inner ++ [')']))

/-- The variable between its bars, with any spaces around. -/
inductive HeadLayout : List Char → Prop where
  | bars {a b c d : List Char} : Spaces a → Spaces b → Spaces c → Spaces d →
      HeadLayout (a ++ '|' :: (b ++ 'x' :: (c ++ '|' :: d)))

/-- The ways to lay out a whole formula. -/
inductive FormulaLayout (body : List Char → Prop) : List Char → Prop where
  | formula {head text after : List Char} : HeadLayout head → body text → Spaces after →
      FormulaLayout body (head ++ text ++ after)

/-- Whether a text goes on as it does behind an expression. -/
def Ends (text : List Char) : Prop :=
  ∀ c ∈ (skipSpace text).head?, c = ',' ∨ c = ')'

/-! ## Beginnings and ends -/

theorem ends_of_spaces {gap : List Char} (spaces : Spaces gap) : Ends gap := by
  intro c member
  rw [skipSpace_of_spaces spaces] at member
  cases member

theorem ends_gap {gap rest : List Char} {c : Char} (spaces : Spaces gap)
    (ending : c = ',' ∨ c = ')') : Ends (gap ++ c :: rest) := by
  have solid : isSpace c = false := by rcases ending with rfl | rfl <;> rfl
  intro d member
  rw [skipSpace_gap spaces (stopsBefore_cons solid)] at member
  cases member
  exact ending

/-- The first character behind an expression is a space, a comma or a closing parenthesis. -/
theorem Ends.stopsBefore {kind : Char → Bool} {rest : List Char} (ends : Ends rest)
    (clear : ∀ c, isSpace c = true ∨ c = ',' ∨ c = ')' → kind c = false) :
    StopsBefore kind rest := by
  intro c member
  apply clear c
  cases space : isSpace c with
  | true => exact Or.inl rfl
  | false =>
      refine Or.inr (ends c ?_)
      rcases List.head?_eq_some_iff.mp member with ⟨tail, rfl⟩
      rw [skipSpace_of_not_isSpace space]
      rfl

theorem Ends.numberStops {rest : List Char} (ends : Ends rest) :
    StopsBefore isNumberCharacter rest := by
  apply ends.stopsBefore
  intro c clear
  rcases clear with space | rfl | rfl
  · exact clear_of_isSpace rfl rfl rfl rfl c space
  · rfl
  · rfl

theorem Ends.nameStops {rest : List Char} (ends : Ends rest) :
    StopsBefore isNameCharacter rest := by
  apply ends.stopsBefore
  intro c clear
  rcases clear with space | rfl | rfl
  · exact clear_of_isSpace rfl rfl rfl rfl c space
  · rfl
  · rfl

/-! ## Callees -/

theorem takeCallee?_append {name gap : List Char} (named : Name name) (spaces : Spaces gap)
    (rest : List Char) :
    takeCallee? (name ++ gap ++ '(' :: rest) = some (name, skipSpace rest) := by
  have stop : StopsBefore isNameCharacter (gap ++ '(' :: rest) := by
    cases gap with
    | nil => exact stopsBefore_cons rfl
    | cons space more =>
        exact stopsBefore_cons
          (clear_of_isSpace rfl rfl rfl rfl space (spaces _ List.mem_cons_self))
  rw [takeCallee?, List.append_assoc, takeWhile_run named.2 stop, dropWhile_run named.2 stop]
  cases name with
  | nil => exact absurd rfl named.1
  | cons c tail => simp only [skipSpace_gap spaces (stopsBefore_cons (c := '(') rfl)]

theorem takeCallee?_eq_some {text name rest : List Char}
    (taken : takeCallee? text = some (name, rest)) :
    ∃ gap inner, text = name ++ gap ++ '(' :: inner ∧ Name name ∧ Spaces gap ∧
      rest = skipSpace inner := by
  unfold takeCallee? at taken
  split at taken
  · cases taken
  · rename_i nonempty
    split at taken
    · rename_i inner opened
      cases taken
      rcases exists_gap (text.dropWhile isNameCharacter) with ⟨gap, spaces, same, _⟩
      refine ⟨gap, inner, ?_, ⟨nonempty, fun _ member => mem_takeWhile_imp member⟩, spaces, rfl⟩
      rw [opened] at same
      rw [List.append_assoc, ← same, List.takeWhile_append_dropWhile]
    · cases taken

/-- A text of solid characters is no callee where an expression ends behind it. -/
theorem takeCallee?_eq_none {text rest : List Char}
    (solid : ∀ c ∈ text, isSpace c = false ∧ c ≠ '(') (ends : Ends rest) :
    takeCallee? (text ++ rest) = none := by
  have closed : ∀ tail, skipSpace ((text ++ rest).dropWhile isNameCharacter) ≠ '(' :: tail := by
    intro tail opened
    rw [List.dropWhile_append] at opened
    cases left : text.dropWhile isNameCharacter with
    | nil =>
        rw [left, dropWhile_of_stopsBefore ends.nameStops] at opened
        have ending := ends '(' (by rw [List.isEmpty_nil, if_pos rfl] at opened; rw [opened]; rfl)
        rcases ending with comma | parenthesis
        · cases comma
        · cases parenthesis
    | cons c more =>
        have inside : c ∈ text := by
          refine List.dropWhile_suffix isNameCharacter |>.mem ?_
          rw [left]
          exact List.mem_cons_self
        rw [left, List.isEmpty_cons, if_neg (by decide), List.cons_append,
          skipSpace_of_not_isSpace (solid c inside).1] at opened
        exact (solid c inside).2 (List.cons.inj opened).1
  unfold takeCallee?
  split
  · rfl
  · split
    · rename_i opened
      exact absurd opened (closed _)
    · rfl

/-! ## Leaves -/

theorem takeJson?_append {value : Json} {text rest : List Char} (opens : OpensJson text)
    (spelled : Json.ValueSpelling Json.nestingLimit value text) (ends : Ends rest) :
    takeJson? (text ++ rest) = some (value, rest) := by
  have read := Json.takeValue?_append spelled ends.numberStops
  rcases opens with ⟨c, tail, rfl, rfl | rfl | rfl⟩
  · exact read
  · exact read
  · exact read

theorem takeJson?_eq_some {text rest : List Char} {value : Json}
    (taken : takeJson? text = some (value, rest)) :
    ∃ read, text = read ++ rest ∧ OpensJson read ∧
      Json.ValueSpelling Json.nestingLimit value read := by
  have opened {c : Char} {tail : List Char} (first : c = '"' ∨ c = '[' ∨ c = '{')
      (found : Json.takeValue? Json.nestingLimit (c :: tail) = some (value, rest)) :
      ∃ read, c :: tail = read ++ rest ∧ OpensJson read ∧
        Json.ValueSpelling Json.nestingLimit value read := by
    rcases Json.takeValue?_eq_some found with ⟨read, split, spelled⟩
    rcases spelled.opens with ⟨d, more, rfl, _⟩
    cases split
    exact ⟨_, rfl, ⟨_, _, rfl, first⟩, spelled⟩
  unfold takeJson? at taken
  split at taken
  · exact opened (Or.inl rfl) taken
  · exact opened (Or.inr (Or.inl rfl)) taken
  · exact opened (Or.inr (Or.inr rfl)) taken
  · cases taken

theorem takeJson?_eq_none {text : List Char}
    (other : ∀ c ∈ text.head?, c ≠ '"' ∧ c ≠ '[' ∧ c ≠ '{') : takeJson? text = none := by
  unfold takeJson?
  split
  · exact absurd rfl (other '"' rfl).1
  · exact absurd rfl (other '[' rfl).2.1
  · exact absurd rfl (other '{' rfl).2.2
  · rfl

theorem takeLeaf_input (rest : List Char) : takeLeaf ('x' :: rest) = .found .input rest :=
  rfl

theorem takeLeaf_number {value : Binary64} {text rest : List Char}
    (spelled : Binary64.Spelling value text) (ends : Ends rest) :
    takeLeaf (text ++ rest) = .found (.number value) rest := by
  have noJson : takeJson? (text ++ rest) = none := by
    refine takeJson?_eq_none ?_
    intro c member
    cases text with
    | nil => exact absurd rfl spelled.ne_nil
    | cons d tail =>
        cases member
        have inside := spelled.inNumber c List.mem_cons_self
        refine ⟨?_, ?_, ?_⟩ <;> rintro rfl <;> cases inside
  unfold takeLeaf
  rw [noJson, Binary64.take?_append spelled ends.numberStops]

theorem takeLeaf_json {value : Json} {text rest : List Char} (opens : OpensJson text)
    (spelled : Json.ValueSpelling Json.nestingLimit value text) (ends : Ends rest) :
    takeLeaf (text ++ rest) = .found (.json value) rest := by
  unfold takeLeaf
  rw [takeJson?_append opens spelled ends]

theorem takeLeaf_found {text rest : List Char} {tree : Tree}
    (taken : takeLeaf text = .found tree rest) :
    ∃ read, text = read ++ rest ∧ Tree.Layout tree read := by
  unfold takeLeaf at taken
  split at taken
  · rename_i found
    cases taken
    rcases takeJson?_eq_some found with ⟨read, split, opens, spelled⟩
    exact ⟨read, split, .json opens spelled⟩
  · split at taken
    · rename_i found
      cases taken
      rcases Binary64.take?_eq_some found with ⟨read, split, spelled⟩
      exact ⟨read, split, .number spelled⟩
    · split at taken
      · cases taken
        exact ⟨_, rfl, .input⟩
      · cases taken

/-! ## Arguments -/

section

variable {expression : List Char → Outcome Tree} {item : Tree → List Char → Prop}

/-- Without a comma in front there are no further arguments. -/
theorem takeFurther_closed (budget : Nat) (rest : List Char) :
    takeFurther expression budget (')' :: rest) = .found [] (')' :: rest) := by
  cases budget <;> rfl

theorem skipSpace_ending {gap rest : List Char} {c : Char} (spaces : Spaces gap)
    (ending : c = ',' ∨ c = ')') : skipSpace (gap ++ c :: rest) = c :: rest := by
  refine skipSpace_gap spaces (stopsBefore_cons ?_)
  rcases ending with rfl | rfl <;> rfl

/-- An item is read through the spaces around it. -/
theorem item_found (opens : ∀ tree text, item tree text → OpensWithout ')' text)
    (reads : ∀ tree text rest, item tree text → Ends rest →
      expression (text ++ rest) = .found tree rest)
    {tree : Tree} {before text after : List Char} {c : Char} (spaces : Spaces before)
    (written : item tree text) (behind : Spaces after) (ending : c = ',' ∨ c = ')')
    (rest : List Char) :
    expression (skipSpace (before ++ text ++ after ++ c :: rest)) =
      .found tree (after ++ c :: rest) := by
  rw [(opens _ _ written).skipSpace_item spaces, reads _ _ _ written (ends_gap behind ending)]

theorem takeFurther_append (opens : ∀ tree text, item tree text → OpensWithout ')' text)
    (reads : ∀ tree text rest, item tree text → Ends rest →
      expression (text ++ rest) = .found tree rest)
    {arguments : List Tree} {text : List Char} (listed : Listed item arguments text) {budget : Nat}
    (enough : arguments.length ≤ budget) (rest : List Char) :
    takeFurther expression budget (',' :: (text ++ ')' :: rest)) =
      .found arguments (')' :: rest) := by
  induction listed generalizing budget with
  | one spaces written behind =>
      cases budget with
      | zero => cases enough
      | succ budget =>
          have found := item_found opens reads spaces written behind (Or.inr rfl) rest
          simp only [takeFurther, found, skipSpace_ending behind (Or.inr rfl), takeFurther_closed]
  | @more tree before text after others tail spaces written behind _ ih =>
      cases budget with
      | zero => cases enough
      | succ budget =>
          have found := item_found opens reads spaces written behind (Or.inl rfl)
            (tail ++ ')' :: rest)
          have further := ih (Nat.le_of_succ_le_succ enough)
          rw [List.append_assoc _ _ (')' :: rest), List.cons_append]
          simp only [takeFurther, found, skipSpace_ending behind (Or.inl rfl), further]

/-- An item and what is listed behind it, any spaces around the item. -/
theorem exists_listed {tree : Tree} {arguments : List Tree} {text last rest : List Char}
    (front : ∃ read, skipSpace text = read ++ last ∧ item tree read)
    (further : arguments = [] ∧ skipSpace last = rest ∨
      ∃ inner, skipSpace last = ',' :: (inner ++ rest) ∧ Listed item arguments inner) :
    ∃ inner, text = inner ++ rest ∧ Listed item (tree :: arguments) inner := by
  rcases front with ⟨read, split, written⟩
  rcases exists_gap text with ⟨before, spaces, sameText, _⟩
  rcases exists_gap last with ⟨after, behind, sameLast, _⟩
  rcases further with ⟨rfl, ended⟩ | ⟨inner, comma, listed⟩
  · refine ⟨before ++ read ++ after, ?_, .one spaces written behind⟩
    rw [sameText, split, sameLast, ended]
    simp only [List.append_assoc]
  · refine ⟨before ++ read ++ after ++ ',' :: inner, ?_, .more spaces written behind listed⟩
    rw [sameText, split, sameLast, comma]
    simp only [List.append_assoc, List.cons_append]

theorem takeFurther_found
    (reads : ∀ text tree rest, expression text = .found tree rest →
      ∃ read, text = read ++ rest ∧ item tree read)
    {budget : Nat} {text rest : List Char} {arguments : List Tree}
    (taken : takeFurther expression budget text = .found arguments rest) :
    arguments = [] ∧ text = rest ∨
      ∃ inner, text = ',' :: (inner ++ rest) ∧ Listed item arguments inner := by
  induction budget generalizing text arguments with
  | zero =>
      cases taken
      exact Or.inl ⟨rfl, rfl⟩
  | succ budget ih =>
      unfold takeFurther at taken
      split at taken
      · rename_i below tail same
        cases same
        split at taken
        · rename_i first last found
          split at taken
          · rename_i further beyond others
            cases taken
            rcases exists_listed (reads _ _ _ found) (ih others) with ⟨inner, whole, listed⟩
            exact Or.inr ⟨inner, congrArg _ whole, listed⟩
          · rename_i other
            exact absurd taken (other _ _)
        · cases taken
          exact Or.inl ⟨rfl, rfl⟩
        · cases taken
      · cases taken
        exact Or.inl ⟨rfl, rfl⟩

theorem takeArguments_append (opens : ∀ tree text, item tree text → OpensWithout ')' text)
    (reads : ∀ tree text rest, item tree text → Ends rest →
      expression (text ++ rest) = .found tree rest)
    (missing : ∀ rest, expression (')' :: rest) = .absent)
    {arguments : List Tree} {text : List Char} (sequence : Sequenced item arguments text)
    (rest : List Char) :
    takeArguments expression (skipSpace (text ++ ')' :: rest)) =
      .found arguments (')' :: rest) := by
  cases sequence with
  | none spaces =>
      rw [skipSpace_gap spaces (stopsBefore_cons (c := ')') rfl), takeArguments, missing]
  | some listed =>
      cases listed with
      | one spaces written behind =>
          have found := item_found opens reads spaces written behind (Or.inr rfl) rest
          simp only [takeArguments, found, skipSpace_ending behind (Or.inr rfl),
            takeFurther_closed]
      | @more tree before text after others tail spaces written behind listed =>
          have enough : others.length ≤ (after ++ ',' :: (tail ++ ')' :: rest)).length := by
            have bound := listed.length_le opens
            simp only [List.length_append, List.length_cons]
            omega
          have found := item_found opens reads spaces written behind (Or.inl rfl)
            (tail ++ ')' :: rest)
          have further := takeFurther_append opens reads listed enough rest
          rw [List.append_assoc _ _ (')' :: rest), List.cons_append]
          simp only [takeArguments, found, skipSpace_ending behind (Or.inl rfl), further]

theorem takeArguments_found
    (reads : ∀ text tree rest, expression text = .found tree rest →
      ∃ read, text = read ++ rest ∧ item tree read)
    {text rest : List Char} {arguments : List Tree}
    (taken : takeArguments expression (skipSpace text) = .found arguments rest) :
    ∃ inner, text = inner ++ rest ∧ Sequenced item arguments inner := by
  unfold takeArguments at taken
  split at taken
  · rename_i first last found
    split at taken
    · rename_i further beyond others
      cases taken
      rcases exists_listed (reads _ _ _ found) (takeFurther_found reads others) with
        ⟨inner, whole, listed⟩
      exact ⟨inner, whole, .some listed⟩
    · rename_i other
      exact absurd taken (other _ _)
  · cases taken
    rcases exists_gap text with ⟨before, spaces, sameText, _⟩
    exact ⟨before, sameText, .none spaces⟩
  · cases taken

end

/-! ## Expressions -/

theorem Name.opens {name : List Char} (named : Name name) :
    ∃ c tail, name = c :: tail ∧ isNameCharacter c = true := by
  cases name with
  | nil => exact absurd rfl named.1
  | cons c tail => exact ⟨c, tail, rfl, named.2 c List.mem_cons_self⟩

theorem Tree.Layout.opensWithout {tree : Tree} {text : List Char} (layout : tree.Layout text) :
    OpensWithout ')' text := by
  cases layout with
  | input => exact ⟨'x', [], rfl, rfl, by decide⟩
  | number spelled =>
      cases text with
      | nil => exact absurd rfl spelled.ne_nil
      | cons c tail =>
          have inside := spelled.inNumber c List.mem_cons_self
          refine ⟨c, tail, rfl, isSpace_eq_false (clear_of_isSpace rfl rfl rfl rfl) inside, ?_⟩
          rintro rfl
          cases inside
  | json opens =>
      rcases opens with ⟨c, tail, rfl, rfl | rfl | rfl⟩
      · exact ⟨'"', tail, rfl, rfl, by decide⟩
      · exact ⟨'[', tail, rfl, rfl, by decide⟩
      · exact ⟨'{', tail, rfl, rfl, by decide⟩
  | call named =>
      rcases named.opens with ⟨c, tail, rfl, first⟩
      refine ⟨c, _, rfl, isSpace_eq_false (clear_of_isSpace rfl rfl rfl rfl) first, ?_⟩
      rintro rfl
      cases first

/-- A closing parenthesis is no expression. -/
theorem takeExpression_closed (nesting : Nat) (rest : List Char) :
    takeExpression nesting (')' :: rest) = .absent := by
  cases nesting <;> rfl

/-- A leaf is not mistaken for the beginning of a call. -/
theorem takeExpression_leaf (nesting : Nat) {text rest : List Char} {tree : Tree}
    (uncalled : takeCallee? (text ++ rest) = none)
    (found : takeLeaf (text ++ rest) = .found tree rest) :
    takeExpression (nesting + 1) (text ++ rest) = .found tree rest := by
  rw [takeExpression, uncalled]
  exact found

/--
Every layout of a tree is read as the tree where an expression ends behind it.  The text of an
argument is shorter than that of its call, so it nests less deep than the call is long.
-/
theorem takeExpression_append {nesting : Nat} {tree : Tree} {text rest : List Char}
    (layout : tree.Layout text) (deep : text.length ≤ nesting) (ends : Ends rest) :
    takeExpression nesting (text ++ rest) = .found tree rest := by
  induction nesting generalizing tree text rest with
  | zero =>
      rcases layout.opensWithout with ⟨c, tail, rfl, _⟩
      cases deep
  | succ nesting ih =>
      cases layout with
      | input =>
          have solid : ∀ c ∈ ['x'], isSpace c = false ∧ c ≠ '(' := by
            intro c member
            rw [List.mem_singleton.mp member]
            decide
          exact takeExpression_leaf nesting (takeCallee?_eq_none solid ends) (takeLeaf_input rest)
      | number spelled =>
          have solid : ∀ c ∈ text, isSpace c = false ∧ c ≠ '(' := by
            intro c member
            have inside := spelled.inNumber c member
            refine ⟨isSpace_eq_false (clear_of_isSpace rfl rfl rfl rfl) inside, ?_⟩
            rintro rfl
            cases inside
          exact takeExpression_leaf nesting (takeCallee?_eq_none solid ends)
            (takeLeaf_number spelled ends)
      | json opens spelled =>
          refine takeExpression_leaf nesting ?_ (takeLeaf_json opens spelled ends)
          rcases opens with ⟨c, tail, rfl, rfl | rfl | rfl⟩ <;> rfl
      | @call name gap inner arguments named spaces sequence =>
          have enough : inner.length ≤ nesting := by
            simp only [List.length_append, List.length_cons] at deep
            omega
          have arguments := takeArguments_append (fun _ _ written => written.1.opensWithout)
            (fun _ _ _ written ends => ih written.1 written.2 ends)
            (takeExpression_closed nesting) (sequence.within enough) rest
          have split : name ++ gap ++ '(' :: (inner ++ [')']) ++ rest =
              name ++ gap ++ '(' :: (inner ++ ')' :: rest) := by
            simp only [List.append_assoc, List.cons_append, List.nil_append]
          rw [split, takeExpression, takeCallee?_append named spaces]
          simp only [takeCall, arguments]

theorem takeExpression_found {nesting : Nat} {tree : Tree} {text rest : List Char}
    (taken : takeExpression nesting text = .found tree rest) :
    ∃ read, text = read ++ rest ∧ tree.Layout read := by
  induction nesting generalizing tree text rest with
  | zero => cases taken
  | succ nesting ih =>
      rw [takeExpression] at taken
      cases callee : takeCallee? text with
      | none =>
          rw [callee] at taken
          exact takeLeaf_found taken
      | some found =>
          rcases found with ⟨name, inside⟩
          rw [callee] at taken
          rcases takeCallee?_eq_some callee with ⟨gap, inner, split, named, spaces, rfl⟩
          dsimp only at taken
          unfold takeCall at taken
          split at taken
          · rename_i arguments last found
            cases taken
            rcases takeArguments_found (fun _ _ _ found => ih found) found with
              ⟨read, innerSplit, sequence⟩
            refine ⟨_, ?_, .call named spaces sequence⟩
            rw [split, innerSplit]
            simp only [List.append_assoc, List.cons_append, List.nil_append]
          · cases taken
          · cases taken
          · cases taken

/-! ## Formulas -/

theorem takeHead_append {head body : List Char} (layout : HeadLayout head)
    (solid : StopsBefore isSpace body) : takeHead (head ++ body) = .ok body := by
  cases layout with
  | @bars a b c d first second third fourth =>
      have split : a ++ '|' :: (b ++ 'x' :: (c ++ '|' :: d)) ++ body =
          a ++ '|' :: (b ++ 'x' :: (c ++ '|' :: (d ++ body))) := by
        simp only [List.append_assoc, List.cons_append]
      simp only [split, takeHead, skipSpace_gap first (stopsBefore_cons (c := '|') rfl),
        skipSpace_gap second (stopsBefore_cons (c := 'x') rfl),
        skipSpace_gap third (stopsBefore_cons (c := '|') rfl), skipSpace_gap fourth solid]

theorem takeHead_ok {text body : List Char} (taken : takeHead text = .ok body) :
    ∃ head, text = head ++ body ∧ HeadLayout head := by
  rcases exists_gap text with ⟨a, first, sameText, _⟩
  unfold takeHead at taken
  split at taken
  · rename_i afterBar bar
    rcases exists_gap afterBar with ⟨b, second, sameBar, _⟩
    split at taken
    · rename_i afterName name
      rcases exists_gap afterName with ⟨c, third, sameName, _⟩
      split at taken
      · rename_i last closing
        rcases exists_gap last with ⟨d, fourth, sameLast, _⟩
        cases taken
        refine ⟨_, ?_, .bars first second third fourth⟩
        rw [bar, sameBar, name, sameName, closing] at sameText
        rw [sameText]
        simp only [List.append_assoc, List.cons_append, ← sameLast]
      · cases taken
    · cases taken
  · cases taken

/-- A text is read as a tree exactly when it is a layout of the tree. -/
theorem readTree_ok_iff {text : List Char} {tree : Tree} :
    readTree text = .ok tree ↔ FormulaLayout tree.Layout text := by
  constructor
  · intro taken
    unfold readTree at taken
    cases begun : takeHead text with
    | error rest =>
        rw [begun] at taken
        cases taken
    | ok body =>
        simp only [begun, bind, Except.bind] at taken
        rcases takeHead_ok begun with ⟨head, split, layout⟩
        split at taken
        · rename_i found rest read
          split at taken
          · rename_i ended
            cases taken
            rcases takeExpression_found read with ⟨inner, bodySplit, written⟩
            have whole := FormulaLayout.formula layout written (spaces_of_skipSpace_eq_nil ended)
            rw [List.append_assoc, ← bodySplit, ← split] at whole
            exact whole
          · cases taken
        · cases taken
        · cases taken
  · intro layout
    cases layout with
    | @formula head inner after begun written spaces =>
        have solid : StopsBefore isSpace (inner ++ after) := written.opensWithout.stopsBefore after
        have deep : inner.length ≤ (inner ++ after).length := by
          simp only [List.length_append]
          omega
        have found := takeExpression_append written deep (ends_of_spaces spaces)
        rw [readTree, List.append_assoc, takeHead_append begun solid]
        simp only [bind, Except.bind, found, skipSpace_of_spaces spaces]
        rfl

end Formula
end NumberFormat
