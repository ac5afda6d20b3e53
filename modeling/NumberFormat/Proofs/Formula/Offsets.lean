import NumberFormat.Proofs.Formula.Language

namespace NumberFormat
namespace Formula

open Text

/-!
Where a text that is no formula goes wrong.

Whatever is read before the reader stops can be the beginning of a formula.  A call that was opened
can be closed wherever its arguments break off, as they may end behind any of them, and where an
expression is missing there can be one.  So the reader never stops too late, however deep calls nest
and however much was tried in vain before.
-/

/-! ## Stopping on the way -/

/-- The texts of all values there are. -/
def Texts {α : Type} (item : α → List Char → Prop) (text : List Char) : Prop :=
  ∃ value, item value text

/-- Whether reading stops at the rest of a text, with something read that could have gone on. -/
def StopsWithin (whole : List Char → Prop) (text rest : List Char) : Prop :=
  ∃ read, text = read ++ rest ∧ ∃ more, whole (read ++ more)

section

variable {whole other : List Char → Prop} {text rest : List Char}

/-- Behind something whole nothing has to follow. -/
theorem StopsWithin.behind {read : List Char} (done : whole read) (rest : List Char) :
    StopsWithin whole (read ++ rest) rest :=
  ⟨read, rfl, [], by rwa [List.append_nil]⟩

/-- What can go on can still do so with something in front, if both can be made whole together. -/
theorem StopsWithin.prepend (stops : StopsWithin whole text rest) (front : List Char)
    (together : ∀ inner, whole inner → ∃ tail, other (front ++ inner ++ tail)) :
    StopsWithin other (front ++ text) rest := by
  rcases stops with ⟨read, rfl, more, done⟩
  rcases together _ done with ⟨tail, joined⟩
  refine ⟨front ++ read, (List.append_assoc ..).symm, more ++ tail, ?_⟩
  simp only [List.append_assoc] at joined ⊢
  exact joined

theorem StopsWithin.imp (stops : StopsWithin whole text rest)
    (weaker : ∀ read, whole read → other read) : StopsWithin other text rest := by
  rcases stops with ⟨read, split, more, done⟩
  exact ⟨read, split, more, weaker _ done⟩

end

/-! ## Arguments -/

section

variable {item : Tree → List Char → Prop} {text rest : List Char}

/-- A list that breaks off within its first item. -/
theorem stopsWithin_first (stops : StopsWithin (Texts item) (skipSpace text) rest) :
    StopsWithin (Texts (Listed item)) text rest := by
  rcases exists_gap text with ⟨before, spaces, same, _⟩
  rw [same]
  refine stops.prepend before ?_
  rintro inner ⟨tree, written⟩
  exact ⟨[], [tree], .one spaces written spaces_nil⟩

/-- A list that breaks off behind the comma that follows its first item. -/
theorem stopsWithin_further {tree : Tree} {last tail : List Char}
    (front : ∃ read, skipSpace text = read ++ last ∧ item tree read)
    (comma : skipSpace last = ',' :: tail)
    (stops : StopsWithin (Texts (Listed item)) tail rest) :
    StopsWithin (Texts (Listed item)) text rest := by
  rcases front with ⟨read, split, written⟩
  rcases exists_gap text with ⟨before, spaces, sameText, _⟩
  rcases exists_gap last with ⟨after, behind, sameLast, _⟩
  have whole : text = before ++ read ++ after ++ [','] ++ tail := by
    rw [sameText, split, sameLast, comma]
    simp only [List.append_assoc, List.singleton_append]
  rw [whole]
  refine stops.prepend _ ?_
  rintro inner ⟨arguments, listed⟩
  refine ⟨[], tree :: arguments, ?_⟩
  rw [List.append_nil, List.append_assoc _ [','], List.singleton_append]
  exact .more spaces written behind listed

end

section

variable {expression : List Char → Outcome Tree} {item : Tree → List Char → Prop}
  (reads : ∀ text tree rest, expression text = .found tree rest →
    ∃ read, text = read ++ rest ∧ item tree read)
  (breaks : ∀ text rest, expression text = .broken rest →
    StopsWithin (Texts item) text rest)

include reads breaks

/-- Further arguments can break off behind a comma only. -/
theorem takeFurther_broken {budget : Nat} {text rest : List Char}
    (taken : takeFurther expression budget text = .broken rest) :
    ∃ tail, text = ',' :: tail ∧
      StopsWithin (Texts (Listed item)) tail rest := by
  induction budget generalizing text with
  | zero => cases taken
  | succ budget ih =>
      unfold takeFurther at taken
      split at taken
      · rename_i below tail same
        cases same
        refine ⟨tail, rfl, ?_⟩
        split at taken
        · rename_i first last found
          split at taken
          · cases taken
          · rcases ih taken with ⟨later, comma, stops⟩
            exact stopsWithin_further (reads _ _ _ found) comma stops
        · cases taken
        · rename_i broken
          cases taken
          exact stopsWithin_first (breaks _ _ broken)
      · cases taken

theorem takeArguments_broken {text rest : List Char}
    (taken : takeArguments expression (skipSpace text) = .broken rest) :
    StopsWithin (Texts (Listed item)) text rest := by
  unfold takeArguments at taken
  split at taken
  · rename_i first last found
    split at taken
    · cases taken
    · rcases takeFurther_broken reads breaks taken with ⟨tail, comma, stops⟩
      exact stopsWithin_further (reads _ _ _ found) comma stops
  · cases taken
  · rename_i broken
    cases taken
    exact stopsWithin_first (breaks _ _ broken)

/-- Wherever the arguments of a call break off, they could have been followed by a parenthesis. -/
theorem takeCall_broken {name text rest : List Char}
    (taken : takeCall expression name (skipSpace text) = .broken rest) :
    StopsWithin (Texts (Sequenced item)) text rest := by
  unfold takeCall at taken
  split at taken
  · cases taken
  · rename_i found
    cases taken
    rcases takeArguments_found reads found with ⟨inner, rfl, sequence⟩
    exact .behind ⟨_, sequence⟩ rest
  · rename_i broken
    cases taken
    refine (takeArguments_broken reads breaks broken).imp ?_
    rintro read ⟨arguments, listed⟩
    exact ⟨arguments, .some listed⟩
  -- Nothing but spaces is read then, and spaces lay out a call without arguments.
  · cases taken
    rcases exists_gap text with ⟨gap, spaces, same, _⟩
    have stops : StopsWithin (Texts (Sequenced item))
        (gap ++ skipSpace text) (skipSpace text) := .behind ⟨[], .none spaces⟩ _
    rwa [← same] at stops

end

/-! ## Expressions -/

theorem takeLeaf_ne_broken (text rest : List Char) : takeLeaf text ≠ .broken rest := by
  unfold takeLeaf
  split
  · nofun
  · split
    · nofun
    · split <;> nofun

/-- Only a call can break off, and what was read of it can be completed. -/
theorem takeExpression_broken {nesting : Nat} {text rest : List Char}
    (taken : takeExpression nesting text = .broken rest) :
    StopsWithin (Texts Tree.Layout) text rest := by
  induction nesting generalizing text rest with
  | zero => cases taken
  | succ nesting ih =>
      rw [takeExpression] at taken
      cases callee : takeCallee? text with
      | none =>
          rw [callee] at taken
          exact absurd taken (takeLeaf_ne_broken text rest)
      | some found =>
          rcases found with ⟨name, inside⟩
          rw [callee] at taken
          rcases takeCallee?_eq_some callee with ⟨gap, inner, split, named, spaces, rfl⟩
          have stops := takeCall_broken (fun _ _ _ found => takeExpression_found found)
            (fun _ _ broken => ih broken) taken
          have whole : text = name ++ gap ++ ['('] ++ inner := by
            rw [split, List.append_assoc _ ['('], List.singleton_append]
          rw [whole]
          -- The parenthesis that closes the call comes behind whatever its arguments lack.
          refine stops.prepend _ ?_
          rintro read ⟨arguments, sequence⟩
          refine ⟨[')'], .call (String.ofList name) arguments, ?_⟩
          have layout := Tree.Layout.call named spaces sequence
          simp only [List.append_assoc, List.singleton_append] at layout ⊢
          exact layout

/-! ## Formulas -/

/-- A bar or the variable is missed where it could have stood. -/
theorem takeHead_error {text rest : List Char} (taken : takeHead text = .error rest) :
    StopsWithin HeadLayout text rest := by
  rcases exists_gap text with ⟨a, first, sameText, _⟩
  unfold takeHead at taken
  split at taken
  · rename_i afterBar bar
    rcases exists_gap afterBar with ⟨b, second, sameBar, _⟩
    rw [bar] at sameText
    split at taken
    · rename_i afterName name
      rcases exists_gap afterName with ⟨c, third, sameName, _⟩
      rw [name] at sameBar
      split at taken
      · cases taken
      · cases taken
        refine ⟨a ++ '|' :: (b ++ 'x' :: c), ?_, ['|'], ?_⟩
        · rw [sameText, sameBar]
          simp only [List.append_assoc, List.cons_append, ← sameName]
        · simp only [List.append_assoc, List.cons_append]
          exact .bars first second third spaces_nil
    · cases taken
      refine ⟨a ++ ['|'] ++ b, ?_, ['x', '|'], ?_⟩
      · rw [sameText]
        simp only [List.append_assoc, List.cons_append, List.nil_append, ← sameBar]
      · simp only [List.append_assoc, List.cons_append, List.nil_append]
        exact .bars first second spaces_nil spaces_nil
  · cases taken
    exact ⟨a, sameText, ['|', 'x', '|'], .bars first spaces_nil spaces_nil spaces_nil⟩

/-- Where a text stops being a formula, it could have gone on as one. -/
theorem readTree_error {text rest : List Char} (taken : readTree text = .error rest) :
    StopsWithin (FormulaLayout (Texts Tree.Layout)) text rest := by
  have anything : Texts Tree.Layout ['x'] := ⟨.input, .input⟩
  unfold readTree at taken
  cases begun : takeHead text with
  | error missed =>
      rw [begun] at taken
      cases taken
      refine (takeHead_error begun).prepend [] ?_
      intro head layout
      have formula := FormulaLayout.formula layout anything spaces_nil
      rw [List.append_nil] at formula
      exact ⟨['x'], formula⟩
  | ok body =>
      simp only [begun, bind, Except.bind] at taken
      rcases takeHead_ok begun with ⟨head, rfl, layout⟩
      split at taken
      · rename_i tree last found
        rcases takeExpression_found found with ⟨read, rfl, written⟩
        rcases exists_gap last with ⟨gap, spaces, same, _⟩
        split at taken
        · cases taken
        · cases taken
          have stops : StopsWithin (FormulaLayout (Texts Tree.Layout))
              (head ++ read ++ gap ++ skipSpace last) (skipSpace last) :=
            .behind (.formula layout ⟨tree, written⟩ spaces) _
          rw [List.append_assoc _ gap, ← same, List.append_assoc] at stops
          exact stops
      · cases taken
        refine ⟨head, rfl, ['x'], ?_⟩
        have formula := FormulaLayout.formula layout anything spaces_nil
        rwa [List.append_nil] at formula
      · rename_i broken
        cases taken
        refine (takeExpression_broken broken).prepend head ?_
        intro read written
        exact ⟨[], .formula layout written spaces_nil⟩

/-! ## Functions -/

/-- Whether a result is anything but the complaint that a text has no form. -/
def HasForm {α : Type} (result : Except Error α) : Prop :=
  ∀ offset, result ≠ .error (.malformed offset)

theorem HasForm.ok {α : Type} (value : α) : HasForm (.ok value) :=
  nofun

theorem HasForm.bind {α β : Type} {result : Except Error α} (form : HasForm result)
    {next : α → Except Error β} (further : ∀ value, HasForm (next value)) :
    HasForm (result >>= next) := by
  intro offset same
  cases result with
  | error e =>
      cases same
      exact form offset rfl
  | ok value => exact further value offset same

theorem hasForm_numberLiteral (function : Function) (position : Nat) (tree : Tree) :
    HasForm (numberLiteral function position tree) := by
  unfold numberLiteral
  split <;> nofun

theorem hasForm_textLiteral (function : Function) (position : Nat) (tree : Tree) :
    HasForm (textLiteral function position tree) := by
  unfold textLiteral
  split <;> nofun

theorem hasForm_pairLiteral (function : Function) (position : Nat) (tree : Tree) :
    HasForm (pairLiteral function position tree) := by
  unfold pairLiteral
  split <;> nofun

theorem hasForm_optionsLiteral (function : Function) (position : Nat) (tree : Tree) :
    HasForm (optionsLiteral function position tree) := by
  unfold optionsLiteral
  split
  · split <;> nofun
  · nofun

theorem hasForm_digitLiteral (function : Function) (position : Nat) (tree : Tree) :
    HasForm (digitLiteral function position tree) := by
  refine (hasForm_textLiteral function position tree).bind ?_
  intro text
  split <;> nofun

theorem hasForm_numberFunction (tree : Tree) : HasForm (numberFunction tree) := by
  fun_induction numberFunction tree with
  | case5 name value factor known ih =>
      exact ih.bind fun _ => (hasForm_numberLiteral _ _ _).bind fun _ => .ok _
  | case7 name value known ih => exact ih.bind fun _ => .ok _
  | _ =>
      intro offset same
      cases same

theorem hasForm_textFunction (formatter : Formatter) (tree : Tree) :
    HasForm (textFunction formatter tree) := by
  fun_induction textFunction formatter tree with
  | case3 name locale options value known =>
      exact (hasForm_textLiteral _ _ _).bind fun _ => (hasForm_optionsLiteral _ _ _).bind fun _ =>
        (hasForm_numberFunction _).bind fun _ => .ok _
  | case5 name inner digit known ih =>
      exact ih.bind fun _ => (hasForm_digitLiteral _ _ _).bind fun _ => .ok _
  | case8 name value inner positive negatives known next few ih =>
      have form : HasForm (negatives.head?.mapM (pairLiteral .affix 4)) := by
        cases negatives with
        | nil => exact .ok _
        | cons negative more => exact (hasForm_pairLiteral _ _ _).bind fun _ => .ok _
      exact (hasForm_numberFunction _).bind fun _ => ih.bind fun _ =>
        (hasForm_pairLiteral _ _ _).bind fun _ => form.bind fun _ => .ok _
  | _ =>
      intro offset same
      cases same

/-! ## Offsets -/

theorem byteCount_append (front back : List Char) :
    byteCount (front ++ back) = byteCount front + byteCount back := by
  induction front with
  | nil => exact (Nat.zero_add _).symm
  | cons c front ih => rw [List.cons_append, byteCount, byteCount, ih, Nat.add_assoc]

theorem utf8ByteSize_ofList (text : List Char) :
    (String.ofList text).utf8ByteSize = byteCount text := by
  induction text with
  | nil => rfl
  | cons c text ih =>
      rw [String.ofList_cons, String.utf8ByteSize_append, String.utf8ByteSize_singleton, ih,
        byteCount]

/-- The layouts of a formula have a form, whatever is wrong with its functions. -/
theorem hasForm_loaded (formatter : Formatter) {text : List Char}
    (layout : FormulaLayout (Texts Tree.Layout) text) : HasForm (loaded formatter text) := by
  cases layout with
  | formula head inner after =>
      rcases inner with ⟨tree, written⟩
      rw [loaded, readTree_ok_iff.mpr (.formula head written after)]
      exact hasForm_textFunction formatter tree

/--
The offset of a syntax error is where the text goes wrong, and no later.  It lies on a boundary
between characters, and what stands before it can be continued so that it is a formula in form,
whatever its numbers are formatted by.
-/
theorem load_malformed {formatter : Formatter} {source : String} {offset : Nat}
    (failed : loaded formatter source.toList = .error (.malformed offset)) :
    offset ≤ source.utf8ByteSize ∧ String.Pos.Raw.IsValid source ⟨offset⟩ ∧
      ∃ before after : String, source = before ++ after ∧ before.utf8ByteSize = offset ∧
        ∃ more : String, ∀ (any : Formatter) (other : Nat),
          loaded any (before ++ more).toList ≠ .error (.malformed other) := by
  unfold loaded at failed
  split at failed
  · rename_i tree read
    exact absurd failed (hasForm_textFunction formatter tree offset)
  · rename_i rest read
    cases failed
    rcases readTree_error read with ⟨front, split, more, layout⟩
    have whole : source = String.ofList front ++ String.ofList rest := by
      rw [← String.ofList_append, ← split, String.ofList_toList]
    have offset : byteCount source.toList - byteCount rest =
        (String.ofList front).utf8ByteSize := by
      rw [split, byteCount_append, Nat.add_sub_cancel, utf8ByteSize_ofList]
    rw [offset]
    refine ⟨?_, ?_, String.ofList front, String.ofList rest, whole, rfl, String.ofList more, ?_⟩
    · rw [whole, String.utf8ByteSize_append]
      exact Nat.le_add_right _ _
    · exact String.Pos.Raw.isValid_iff_exists_append.mpr ⟨_, _, whole, rfl⟩
    · rw [← String.ofList_append, String.toList_ofList]
      intro any
      exact hasForm_loaded any layout

theorem load_malformed_comma :
    loaded (Formatter.builtIn []) "|x| affix(x, digits(\"é\", y".toList =
        .error (.malformed 24) ∧
      String.Pos.Raw.IsValid "|x| affix(x, digits(\"é\", y" ⟨24⟩ ∧
      ∃ before after : String, "|x| affix(x, digits(\"é\", y" = before ++ after ∧
        before.utf8ByteSize = 24 ∧
        ∃ more : String, ∀ (any : Formatter) (other : Nat),
          loaded any (before ++ more).toList ≠ .error (.malformed other) := by
  have failed : loaded (Formatter.builtIn []) "|x| affix(x, digits(\"é\", y".toList =
      .error (.malformed 24) := rfl
  exact ⟨failed, (load_malformed failed).2⟩

end Formula
end NumberFormat
