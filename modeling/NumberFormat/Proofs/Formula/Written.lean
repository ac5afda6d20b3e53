import NumberFormat.Formula.OfPlan
import NumberFormat.Formula.Printer
import NumberFormat.Proofs.Binary64.Written
import NumberFormat.Proofs.Formula.Language
import NumberFormat.Proofs.Options.Record

namespace NumberFormat
namespace Formula

open Text
open Json (StringSpelling ValueSpelling nestingLimit quoted_spelling)

/-!
Written formulas are layouts of their terms, so they are loaded as the terms they are written from.
-/

/-! ## Parts -/

theorem listed_intercalate (argument : List Char) (others : List (List Char)) :
    Listed Eq (argument :: others) ([',', ' '].intercalate (argument :: others)) := by
  induction others generalizing argument with
  | nil =>
      have listed := Listed.one spaces_nil (Eq.refl argument) spaces_nil
      simpa using listed
  | cons next more ih =>
      have listed := Listed.more spaces_nil (Eq.refl argument) spaces_nil
        ((ih next).gap spaces_singleton)
      simpa using listed

theorem writtenCall_layout (function : Function) (argument : List Char)
    (others : List (List Char)) :
    CallLayout function (argument :: others) (writtenCall function (argument :: others)) := by
  have call : CallLayout function _ _ := .call spaces_nil (listed_intercalate argument others)
  rw [List.append_nil] at call
  rw [writtenCall, List.append_assoc, List.cons_append]
  exact call

theorem writtenPair_spelling (pair : Surround) : PairSpelling pair (writtenPair pair) := by
  have before : ValueSpelling 126 (.string pair.before) (Json.quoted pair.before.toList) :=
    (valueSpelling_string_iff _).mpr (quoted_spelling pair.before)
  have after : ValueSpelling 126 (.string pair.after) (Json.quoted pair.after.toList) :=
    (valueSpelling_string_iff _).mpr (quoted_spelling pair.after)
  have last := Listed.one spaces_singleton after spaces_nil
  have listed := Listed.more spaces_nil before spaces_nil last
  rw [List.append_nil, List.append_nil, List.nil_append] at listed
  have array := Json.LayerSpelling.array (.some listed)
  have split : writtenPair pair = '[' :: (Json.quoted pair.before.toList ++
      ',' :: ([' '] ++ Json.quoted pair.after.toList) ++ [']']) := by
    simp only [writtenPair, List.cons_append, List.nil_append]
  rw [split]
  exact array

theorem options_spelling (options : Options) : OptionsSpelling options options.json.written :=
  ⟨_, options.json_spelling 126, options.ofJson?_json⟩

/-! ## Terms -/

theorem NumberTerm.written_layout (term : NumberTerm) : term.Layout term.written := by
  induction term with
  | input => exact .input
  | constant value => exact .constant value.written_spelling
  | scale term factor ih => exact .scale ih factor.written_spelling (writtenCall_layout _ _ _)
  | percent term ih => exact .percent ih (writtenCall_layout _ _ _)

theorem TextTerm.written_layout (term : TextTerm) : term.Layout term.written := by
  induction term with
  | constant text => exact .constant (quoted_spelling text)
  | number locale options value =>
      exact .number (quoted_spelling locale) (options_spelling options) value.written_layout
        (writtenCall_layout _ _ _)
  | digits text zero ih =>
      have spelled := quoted_spelling (String.ofList [zero])
      rw [String.toList_ofList] at spelled
      exact .digits ih spelled (writtenCall_layout _ _ _)
  | affix value text around ih =>
      rcases around with ⟨positive, negative⟩
      cases negative with
      | none =>
          exact .affix value.written_layout ih (writtenPair_spelling positive)
            (writtenCall_layout _ _ _)
      | some negative =>
          exact .affixes value.written_layout ih (writtenPair_spelling positive)
            (writtenPair_spelling negative) (writtenCall_layout _ _ _)

theorem TextTerm.formulaText_layout (term : TextTerm) :
    FormulaLayout term.Layout term.formulaText.toList := by
  have head := HeadLayout.bars spaces_nil spaces_nil spaces_nil spaces_singleton
  have whole := FormulaLayout.formula head term.written_layout spaces_nil
  rw [List.append_nil] at whole
  rw [TextTerm.formulaText, String.toList_ofList]
  exact whole

/-- A plan written as a formula is loaded, and the loaded function makes the texts of the plan. -/
theorem loaded_formulaText (plan : Plan) (formatter : Formatter) :
    loaded formatter plan.formula.formulaText.toList = .ok (plan.format formatter) := by
  rw [loaded_of_layout formatter plan.formula.formulaText_layout]
  congr 1
  funext x
  exact plan.eval_formula formatter x

end Formula
end NumberFormat
