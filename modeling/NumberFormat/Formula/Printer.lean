import NumberFormat.Formula.Term
import NumberFormat.Options.Record

namespace NumberFormat
namespace Formula

/-!
Writing formulas as text: `|x| nf("en", {}, scale(x, 100))`.

Texts, pairs of texts and options are written as JSON.
-/

/-- A call with a comma and a space between its arguments. -/
def writtenCall (function : Function) (arguments : List (List Char)) : List Char :=
  (Text.Vocabulary.word function).toList ++ '(' :: [',', ' '].intercalate arguments ++ [')']

/-- Both texts of a pair. -/
def writtenPair (pair : Surround) : List Char :=
  '[' :: Json.quoted pair.before.toList ++ ',' :: ' ' :: Json.quoted pair.after.toList ++ [']']

namespace NumberTerm

def written : NumberTerm → List Char
  | .input => ['x']
  | .constant value => value.written
  | .scale term factor => writtenCall .scale [term.written, factor.written]
  | .percent term => writtenCall .percent [term.written]

end NumberTerm

namespace TextTerm

def written : TextTerm → List Char
  | .constant text => Json.quoted text.toList
  | .number locale options value =>
      writtenCall .nf [Json.quoted locale.toList, options.json.written, value.written]
  | .digits text zero => writtenCall .digits [text.written, Json.quoted [zero]]
  | .affix value text around =>
      writtenCall .affix ([value.written, text.written, writtenPair around.positive] ++
        (around.negative.map writtenPair).toList)

/-- The formula with the variable it is made of. -/
def formulaText (term : TextTerm) : String :=
  String.ofList (['|', 'x', '|', ' '] ++ term.written)

end TextTerm
end Formula
end NumberFormat
