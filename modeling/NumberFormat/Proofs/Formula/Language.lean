import Mathlib.Data.List.Forall2
import NumberFormat.Formula.Loading
import NumberFormat.Proofs.Formula.Layout
import NumberFormat.Proofs.Sequence

namespace NumberFormat
namespace Formula

open Text
open Json (StringSpelling ValueSpelling nestingLimit)

/-!
The language of formulas, and that loading accepts exactly its texts, each as the function that its
term denotes.

The grammar speaks of terms and not of trees: every function is written with arguments of its own,
in their number and of their kind.  Loading knows of no terms, it makes functions of the trees it
has read.  For each tree it makes one of, there is a term that denotes the same function and that
all texts of the tree lay out.
-/

/-! ## The grammar -/

/-- A call of a function with the texts of its arguments, any spaces around each. -/
inductive CallLayout (function : Function) : List (List Char) → List Char → Prop where
  | call {gap inner : List Char} {arguments : List (List Char)} : Spaces gap →
      Listed Eq arguments inner →
      CallLayout function arguments ((wordOf function).toList ++ gap ++ '(' :: (inner ++ [')']))

/-- A JSON object that is strictly read as options. -/
def OptionsSpelling (options : Options) (text : List Char) : Prop :=
  ∃ members, ValueSpelling nestingLimit (.object members) text ∧
    Options.ofJson? (.object members) = some options

/-- A JSON array of two strings. -/
def PairSpelling (pair : Surround) (text : List Char) : Prop :=
  ValueSpelling nestingLimit (.array [.string pair.before, .string pair.after]) text

/-- The ways to lay out a number term. -/
inductive NumberTerm.Layout : NumberTerm → List Char → Prop where
  | input : NumberTerm.Layout .input ['x']
  | constant {value : Binary64} {text : List Char} : Binary64.Spelling value text →
      NumberTerm.Layout (.constant value) text
  | scale {term : NumberTerm} {factor : Binary64} {value literal text : List Char} :
      NumberTerm.Layout term value → Binary64.Spelling factor literal →
      CallLayout .scale [value, literal] text → NumberTerm.Layout (.scale term factor) text
  | percent {term : NumberTerm} {value text : List Char} : NumberTerm.Layout term value →
      CallLayout .percent [value] text → NumberTerm.Layout (.percent term) text

/-- The ways to lay out a text term. -/
inductive TextTerm.Layout : TextTerm → List Char → Prop where
  | constant {value : String} {text : List Char} : StringSpelling value text →
      TextTerm.Layout (.constant value) text
  | number {locale : String} {options : Options} {term : NumberTerm}
      {first second third text : List Char} : StringSpelling locale first →
      OptionsSpelling options second → term.Layout third →
      CallLayout .nf [first, second, third] text →
      TextTerm.Layout (.number locale options term) text
  | digits {term : TextTerm} {zero : Char} {first second text : List Char} :
      TextTerm.Layout term first → StringSpelling (String.ofList [zero]) second →
      CallLayout .digits [first, second] text → TextTerm.Layout (.digits term zero) text
  | affix {value : NumberTerm} {term : TextTerm} {positive : Surround}
      {first second third text : List Char} : value.Layout first → TextTerm.Layout term second →
      PairSpelling positive third → CallLayout .affix [first, second, third] text →
      TextTerm.Layout (.affix value term ⟨positive, none⟩) text
  | affixes {value : NumberTerm} {term : TextTerm} {positive negative : Surround}
      {first second third fourth text : List Char} : value.Layout first →
      TextTerm.Layout term second → PairSpelling positive third → PairSpelling negative fourth →
      CallLayout .affix [first, second, third, fourth] text →
      TextTerm.Layout (.affix value term ⟨positive, some negative⟩) text

/-! ## Literals -/

theorem valueSpelling_string_iff {value : String} {text : List Char} (nesting : Nat) :
    ValueSpelling nesting (.string value) text ↔ StringSpelling value text := by
  constructor
  · intro spelled
    have ofScalar (scalar : Json.ScalarSpelling (.string value) text) :
        StringSpelling value text := by
      cases scalar with
      | string spelled => exact spelled
      | number spelled => cases spelled
    cases nesting with
    | zero => exact ofScalar spelled
    | succ nesting =>
        cases spelled with
        | scalar scalar => exact ofScalar scalar
  · intro spelled
    exact .ofScalar (.string spelled)

theorem StringSpelling.layout {value : String} {text : List Char}
    (spelled : StringSpelling value text) : (Tree.json (.string value)).Layout text := by
  rcases spelled.opens with ⟨tail, same⟩
  exact .json ⟨_, _, same, Or.inl rfl⟩ ((valueSpelling_string_iff _).mpr spelled)

theorem PairSpelling.layout {pair : Surround} {text : List Char}
    (spelled : PairSpelling pair text) :
    (Tree.json (.array [.string pair.before, .string pair.after])).Layout text := by
  refine .json ?_ spelled
  cases spelled with
  | scalar scalar =>
      cases scalar with
      | number spelled => cases spelled
  | array => exact ⟨_, _, rfl, Or.inr (Or.inl rfl)⟩

theorem objectLayout {members : List (String × Json)} {text : List Char}
    (spelled : ValueSpelling nestingLimit (.object members) text) :
    (Tree.json (.object members)).Layout text := by
  refine .json ?_ spelled
  generalize same : Json.object members = value at spelled
  cases spelled with
  | scalar scalar =>
      cases same
      cases scalar with
      | number spelled => cases spelled
  | array => cases same
  | object => exact ⟨_, _, rfl, Or.inr (Or.inr rfl)⟩

theorem Tree.Layout.spelling {value : Json} {text : List Char}
    (layout : (Tree.json value).Layout text) : ValueSpelling nestingLimit value text := by
  cases layout with
  | json _ spelled => exact spelled

/-! ## Calls -/

theorem wordOf_name (function : Function) : Name (wordOf function).toList := by
  cases function <;> exact ⟨by decide, List.all_eq_true.mp (by decide)⟩

theorem listed_of_forall₂ {α : Type} {item : α → List Char → Prop} {values : List α}
    {texts : List (List Char)} (spelled : List.Forall₂ item values texts) {inner : List Char}
    (listed : Listed Eq texts inner) : Listed item values inner := by
  induction listed generalizing values with
  | one before same after =>
      cases same
      rcases List.forall₂_cons_right_iff.mp spelled with ⟨value, others, written, rest, rfl⟩
      cases rest
      exact .one before written after
  | more before same after _ ih =>
      cases same
      rcases List.forall₂_cons_right_iff.mp spelled with ⟨value, others, written, rest, rfl⟩
      exact .more before written after (ih rest)

theorem exists_texts {α : Type} {item : α → List Char → Prop} {values : List α} {inner : List Char}
    (listed : Listed item values inner) :
    ∃ texts, List.Forall₂ item values texts ∧ Listed Eq texts inner := by
  induction listed with
  | one before written after => exact ⟨_, .cons written .nil, .one before rfl after⟩
  | more before written after _ ih =>
      rcases ih with ⟨texts, others, listed⟩
      exact ⟨_, .cons written others, .more before rfl after listed⟩

/-- A call of a function is a tree of the arguments' trees. -/
theorem CallLayout.tree {function : Function} {texts : List (List Char)} {text : List Char}
    (layout : CallLayout function texts text) {arguments : List Tree}
    (written : List.Forall₂ Tree.Layout arguments texts) :
    (Tree.call (wordOf function) arguments).Layout text := by
  cases layout with
  | call spaces listed =>
      have call := Tree.Layout.call (wordOf_name function) spaces
        (.some (listed_of_forall₂ written listed))
      rwa [String.ofList_toList] at call

theorem Tree.Layout.callLayout {name : String} {first : Tree} {others : List Tree}
    {text : List Char} (layout : (Tree.call name (first :: others)).Layout text)
    {function : Function} (known : valueOf? Function name = some function) :
    ∃ texts, List.Forall₂ Tree.Layout (first :: others) texts ∧ CallLayout function texts text := by
  have word : wordOf function = name := word_of_valueOf? known
  cases layout with
  | call named spaces sequence =>
      cases sequence with
      | some listed =>
          rcases exists_texts listed with ⟨texts, written, listed⟩
          have call : CallLayout function texts _ := .call spaces listed
          rw [word, String.toList_ofList] at call
          exact ⟨texts, written, call⟩

/-! ## From layouts to functions -/

theorem digitLiteral_digit (function : Function) (position : Nat) (zero : Char) :
    digitLiteral function position (.json (.string (String.ofList [zero]))) = .ok zero := by
  simp only [digitLiteral, textLiteral, bind, Except.bind, String.toList_ofList]
  rfl

theorem numberFunction_of_layout {term : NumberTerm} {text : List Char}
    (layout : term.Layout text) :
    ∃ tree : Tree, tree.Layout text ∧ numberFunction tree = .ok (fun x => term.eval x) := by
  induction layout with
  | input => exact ⟨.input, .input, rfl⟩
  | constant spelled => exact ⟨.number _, .number spelled, rfl⟩
  | scale _ literal call ih =>
      rcases ih with ⟨tree, written, made⟩
      refine ⟨.call (wordOf .scale) [tree, .number _],
        call.tree (.cons written (.cons (.number literal) .nil)), ?_⟩
      simp only [numberFunction, wordOf, valueOf?_word, made]
      rfl
  | percent _ call ih =>
      rcases ih with ⟨tree, written, made⟩
      refine ⟨.call (wordOf .percent) [tree], call.tree (.cons written .nil), ?_⟩
      simp only [numberFunction, wordOf, valueOf?_word, made]
      rfl

theorem textFunction_of_layout (formatter : Formatter) {term : TextTerm} {text : List Char}
    (layout : term.Layout text) :
    ∃ tree : Tree, tree.Layout text ∧
      textFunction formatter tree = .ok (fun x => term.eval formatter x) := by
  induction layout with
  | constant spelled => exact ⟨_, StringSpelling.layout spelled, rfl⟩
  | number locale options value call =>
      rcases options with ⟨members, object, read⟩
      rcases numberFunction_of_layout value with ⟨tree, written, made⟩
      refine ⟨.call (wordOf .nf) [_, _, tree], call.tree (.cons (StringSpelling.layout locale)
        (.cons (objectLayout object) (.cons written .nil))), ?_⟩
      simp only [textFunction, wordOf, valueOf?_word, textLiteral, optionsLiteral, read, made]
      rfl
  | digits _ zero call ih =>
      rcases ih with ⟨tree, written, made⟩
      refine ⟨.call (wordOf .digits) [tree, _],
        call.tree (.cons written (.cons (StringSpelling.layout zero) .nil)), ?_⟩
      simp only [textFunction, wordOf, valueOf?_word, made, digitLiteral_digit]
      rfl
  | affix value _ positive call ih =>
      rcases numberFunction_of_layout value with ⟨number, numberWritten, numberMade⟩
      rcases ih with ⟨tree, written, made⟩
      refine ⟨.call (wordOf .affix) [number, tree, _], call.tree (.cons numberWritten
        (.cons written (.cons (PairSpelling.layout positive) .nil))), ?_⟩
      simp only [textFunction, wordOf, valueOf?_word, numberMade, made, pairLiteral]
      rfl
  | affixes value _ positive negative call ih =>
      rcases numberFunction_of_layout value with ⟨number, numberWritten, numberMade⟩
      rcases ih with ⟨tree, written, made⟩
      refine ⟨.call (wordOf .affix) [number, tree, _, _], call.tree (.cons numberWritten
        (.cons written (.cons (PairSpelling.layout positive)
          (.cons (PairSpelling.layout negative) .nil)))), ?_⟩
      simp only [textFunction, wordOf, valueOf?_word, numberMade, made, pairLiteral]
      rfl

/-! ## From functions to layouts -/

theorem numberLiteral_eq_ok {function : Function} {position : Nat} {tree : Tree} {value : Binary64}
    (typed : numberLiteral function position tree = .ok value) : tree = .number value := by
  cases tree <;> cases typed
  rfl

theorem textLiteral_eq_ok {function : Function} {position : Nat} {tree : Tree} {value : String}
    (typed : textLiteral function position tree = .ok value) : tree = .json (.string value) := by
  unfold textLiteral at typed
  split at typed <;> cases typed
  rfl

theorem pairLiteral_eq_ok {function : Function} {position : Nat} {tree : Tree} {pair : Surround}
    (typed : pairLiteral function position tree = .ok pair) :
    tree = .json (.array [.string pair.before, .string pair.after]) := by
  unfold pairLiteral at typed
  split at typed <;> cases typed
  rfl

theorem optionsLiteral_eq_ok {function : Function} {position : Nat} {tree : Tree}
    {options : Options} (typed : optionsLiteral function position tree = .ok options) :
    ∃ members, tree = .json (.object members) ∧
      Options.ofJson? (.object members) = some options := by
  unfold optionsLiteral at typed
  split at typed
  · split at typed
    · rename_i read
      cases typed
      exact ⟨_, rfl, read⟩
    · cases typed
  · cases typed

theorem digitLiteral_eq_ok {function : Function} {position : Nat} {tree : Tree} {zero : Char}
    (typed : digitLiteral function position tree = .ok zero) :
    tree = .json (.string (String.ofList [zero])) := by
  unfold digitLiteral at typed
  cases read : textLiteral function position tree with
  | error error =>
      rw [read] at typed
      cases typed
  | ok value =>
      simp only [read, bind, Except.bind] at typed
      split at typed
      · rename_i single
        cases typed
        rw [textLiteral_eq_ok read, ← single, String.ofList_toList]
      · cases typed

/-- What is made of a tree as a number is the number of a term, which the tree's texts lay out. -/
theorem numberFunction_eq_ok {tree : Tree} {function : Binary64 → Binary64}
    (made : numberFunction tree = .ok function) :
    ∃ term : NumberTerm, (function = fun x => term.eval x) ∧
      ∀ text, tree.Layout text → term.Layout text := by
  fun_induction numberFunction tree generalizing function with
  | case1 =>
      cases made
      refine ⟨.input, rfl, ?_⟩
      intro text layout
      cases layout
      exact .input
  | case2 value =>
      cases made
      refine ⟨.constant value, rfl, ?_⟩
      intro text layout
      cases layout with
      | number spelled => exact .constant spelled
  | case5 name value factor known ih =>
      rcases exists_ok_of_bind made with ⟨inner, innerMade, made⟩
      rcases exists_ok_of_bind made with ⟨literal, literalTyped, result⟩
      cases result
      cases numberLiteral_eq_ok literalTyped
      rcases ih innerMade with ⟨term, rfl, laidOut⟩
      refine ⟨.scale term literal, rfl, ?_⟩
      intro text layout
      rcases layout.callLayout known with ⟨texts, written, call⟩
      rcases written with _ | ⟨first, _ | ⟨second, _ | _⟩⟩
      cases second with
      | number spelled => exact .scale (laidOut _ first) spelled call
  | case7 name value known ih =>
      rcases exists_ok_of_bind made with ⟨inner, innerMade, result⟩
      cases result
      rcases ih innerMade with ⟨term, rfl, laidOut⟩
      refine ⟨.percent term, rfl, ?_⟩
      intro text layout
      rcases layout.callLayout known with ⟨texts, written, call⟩
      rcases written with _ | ⟨first, _ | _⟩
      exact .percent (laidOut _ first) call
  | _ => cases made

/-- What is made of a tree as a text is the text of a term, which the tree's texts lay out. -/
theorem textFunction_eq_ok {formatter : Formatter} {tree : Tree} {function : Binary64 → String}
    (made : textFunction formatter tree = .ok function) :
    ∃ term : TextTerm, (function = fun x => term.eval formatter x) ∧
      ∀ text, tree.Layout text → term.Layout text := by
  fun_induction textFunction formatter tree generalizing function with
  | case1 value =>
      cases made
      refine ⟨.constant value, rfl, ?_⟩
      intro text layout
      exact .constant ((valueSpelling_string_iff _).mp layout.spelling)
  | case3 name locale options value known =>
      rcases exists_ok_of_bind made with ⟨localeText, localeTyped, made⟩
      rcases exists_ok_of_bind made with ⟨record, optionsTyped, made⟩
      rcases exists_ok_of_bind made with ⟨inner, innerMade, result⟩
      cases result
      cases textLiteral_eq_ok localeTyped
      rcases optionsLiteral_eq_ok optionsTyped with ⟨members, rfl, read⟩
      rcases numberFunction_eq_ok innerMade with ⟨number, rfl, laidOut⟩
      refine ⟨.number localeText record number, rfl, ?_⟩
      intro text layout
      rcases layout.callLayout known with ⟨texts, written, call⟩
      rcases written with _ | ⟨first, _ | ⟨second, _ | ⟨third, _ | _⟩⟩⟩
      exact .number ((valueSpelling_string_iff _).mp first.spelling)
        ⟨members, second.spelling, read⟩ (laidOut _ third) call
  | case5 name inner digit known ih =>
      rcases exists_ok_of_bind made with ⟨innerText, innerMade, made⟩
      rcases exists_ok_of_bind made with ⟨zero, digitTyped, result⟩
      cases result
      cases digitLiteral_eq_ok digitTyped
      rcases ih innerMade with ⟨term, rfl, laidOut⟩
      refine ⟨.digits term zero, rfl, ?_⟩
      intro text layout
      rcases layout.callLayout known with ⟨texts, written, call⟩
      rcases written with _ | ⟨first, _ | ⟨second, _ | _⟩⟩
      exact .digits (laidOut _ first) ((valueSpelling_string_iff _).mp second.spelling) call
  | case8 name value inner positive negatives known next few =>
      rename_i ih
      rcases exists_ok_of_bind made with ⟨numberOf, numberMade, made⟩
      rcases exists_ok_of_bind made with ⟨innerText, innerMade, made⟩
      rcases exists_ok_of_bind made with ⟨pair, pairTyped, made⟩
      rcases exists_ok_of_bind made with ⟨other, otherTyped, result⟩
      cases result
      cases pairLiteral_eq_ok pairTyped
      rcases numberFunction_eq_ok numberMade with ⟨number, rfl, numberLaidOut⟩
      rcases ih innerMade with ⟨term, rfl, laidOut⟩
      refine ⟨.affix number term ⟨pair, other⟩, rfl, ?_⟩
      intro text layout
      rcases layout.callLayout known with ⟨texts, written, call⟩
      cases negatives with
      | nil =>
          cases otherTyped
          rcases written with _ | ⟨first, _ | ⟨second, _ | ⟨third, _ | _⟩⟩⟩
          exact .affix (numberLaidOut _ first) (laidOut _ second) third.spelling call
      | cons negative more =>
          cases more with
          | cons => exact absurd (Nat.succ_lt_succ (Nat.zero_lt_succ _)) few
          | nil =>
              rcases exists_ok_of_bind otherTyped with ⟨negativePair, negativeTyped, result⟩
              cases result
              cases pairLiteral_eq_ok negativeTyped
              rcases written with _ | ⟨first, _ | ⟨second, _ | ⟨third, _ | ⟨fourth, _ | _⟩⟩⟩⟩
              exact .affixes (numberLaidOut _ first) (laidOut _ second) third.spelling
                fourth.spelling call
  | _ => cases made

/-! ## Loading -/

theorem FormulaLayout.imp {body other : List Char → Prop} {text : List Char}
    (layout : FormulaLayout body text) (weaker : ∀ inner, body inner → other inner) :
    FormulaLayout other text := by
  cases layout with
  | formula head inner after => exact .formula head (weaker _ inner) after

theorem loaded_of_layout (formatter : Formatter) {term : TextTerm} {text : List Char}
    (layout : FormulaLayout term.Layout text) :
    loaded formatter text = .ok (fun x => term.eval formatter x) := by
  cases layout with
  | formula head inner after =>
      rcases textFunction_of_layout formatter inner with ⟨tree, written, made⟩
      rw [loaded, readTree_ok_iff.mpr (.formula head written after)]
      exact made

/-- What is loaded is what a term denotes that the text lays out. -/
theorem loaded_ok_iff {formatter : Formatter} {text : List Char} {function : Binary64 → String} :
    loaded formatter text = .ok function ↔ ∃ term : TextTerm,
      FormulaLayout term.Layout text ∧ function = fun x => term.eval formatter x := by
  constructor
  · intro done
    unfold loaded at done
    split at done
    · rename_i tree read
      rcases textFunction_eq_ok done with ⟨term, denoted, laidOut⟩
      exact ⟨term, (readTree_ok_iff.mp read).imp laidOut, denoted⟩
    · cases done
  · rintro ⟨term, layout, rfl⟩
    exact loaded_of_layout formatter layout

/--
A text is loaded exactly when it lays out a term, and then as the function the term denotes.  So
layouts of one term differ in nothing but their spelling.
-/
theorem loaded_iff_layout (formatter : Formatter) (text : List Char) :
    ((∃ function, loaded formatter text = .ok function) ↔
        ∃ term : TextTerm, FormulaLayout term.Layout text) ∧
      ∀ term : TextTerm, FormulaLayout term.Layout text →
        loaded formatter text = .ok (fun x => term.eval formatter x) ∧
          ∀ other, FormulaLayout term.Layout other →
            loaded formatter other = loaded formatter text := by
  refine ⟨⟨?_, ?_⟩, ?_⟩
  · rintro ⟨function, done⟩
    rcases loaded_ok_iff.mp done with ⟨term, layout, _⟩
    exact ⟨term, layout⟩
  · rintro ⟨term, layout⟩
    exact ⟨_, loaded_of_layout formatter layout⟩
  · intro term layout
    refine ⟨loaded_of_layout formatter layout, ?_⟩
    intro other otherLayout
    rw [loaded_of_layout formatter layout, loaded_of_layout formatter otherLayout]

end Formula
end NumberFormat
