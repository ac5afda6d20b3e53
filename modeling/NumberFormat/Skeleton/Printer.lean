import NumberFormat.Binary64.Literal
import NumberFormat.Skeleton.Stem

namespace NumberFormat
namespace Skeleton

/-!
Writing a skeleton as text: one word for each choice, axis by axis.

The text around a number has no word and is left out.
-/

def unitWord : NumberUnit → String
  | .currency code => "currency/" ++ code
  | .measure id => "measure-unit/" ++ id
  | unit => unit.stem

def precisionWord : Precision → String
  | .digits bounds => bounds.sourceText
  | .increment step => "precision-increment/" ++ step.text
  | precision => precision.stem

def formWord : Notation → String
  | .scientific style => "scientific" ++ style.suffix
  | .engineering style => "engineering" ++ style.suffix
  | form => form.stem

/-- The words of the choices that were made. -/
def stems (s : Skeleton) : List String :=
  [s.unit.map unitWord,
    s.perUnit.map ("per-measure-unit/" ++ ·),
    s.unitWidth.map Text.Vocabulary.word,
    s.grouping.map Text.Vocabulary.word,
    s.integerWidth.map (fun width => "integer-width/" ++ width.sourceText),
    s.precision.map precisionWord,
    s.form.map formWord,
    s.sign.map Text.Vocabulary.word,
    s.decimalMark.map Text.Vocabulary.word,
    s.roundingMode.map Text.Vocabulary.word,
    s.scale.map (fun factor => "scale/" ++ factor.text),
    s.numberingSystem.map ("numbering-system/" ++ ·)].filterMap id

/-- The skeleton as text. -/
def text (s : Skeleton) : String :=
  String.intercalate " " s.stems

end Skeleton
end NumberFormat
