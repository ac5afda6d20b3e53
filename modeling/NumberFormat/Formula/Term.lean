import NumberFormat.Plan.Basic

namespace NumberFormat
namespace Formula

/-!
Formulas: formatters written down as terms.

A formula has one variable, the value to be formatted.  Number terms stand for the numbers computed
from it, text terms for the texts made of those.  What a term denotes is said by recursion on it,
whatever way formulas are read and run.
-/

/-- The functions a formula may call. -/
inductive Function where
  | nf
  | digits
  | affix
  | scale
  | percent
deriving DecidableEq

instance : Text.Vocabulary Function where
  values := [.nf, .digits, .affix, .scale, .percent]
  word
    | .nf => "nf"
    | .digits => "digits"
    | .affix => "affix"
    | .scale => "scale"
    | .percent => "percent"
  complete := by intro value; cases value <;> simp
  distinct := by intro value other; cases value <;> cases other <;> simp

inductive NumberTerm where
  | input
  | constant (value : Binary64)
  | scale (term : NumberTerm) (factor : Binary64)
  | percent (term : NumberTerm)
deriving DecidableEq

inductive TextTerm where
  | constant (text : String)
  | number (locale : String) (options : Options) (value : NumberTerm)
  | digits (text : TextTerm) (zero : Char)
  | affix (value : NumberTerm) (text : TextTerm) (affix : Affix)
deriving DecidableEq

namespace NumberTerm

/-- The number a term denotes. -/
def eval (x : Binary64) : NumberTerm → Binary64
  | .input => x
  | .constant value => value
  | .scale term factor => (Step.scale factor).apply (term.eval x)
  | .percent term => Step.percent.apply (term.eval x)

end NumberTerm

namespace TextTerm

/-- The text a term denotes. -/
def eval (formatter : Formatter) (x : Binary64) : TextTerm → String
  | .constant text => text
  | .number locale options value => formatter locale options (value.eval x)
  | .digits text zero => Plan.respell zero (text.eval formatter x)
  | .affix value text around => around.around (value.eval x) (text.eval formatter x)

end TextTerm
end Formula
end NumberFormat
