import NumberFormat.Formula.Term

namespace NumberFormat

/-!
The formula of a plan, which stands for the same texts as the plan makes.
-/

namespace Formula
namespace NumberTerm

/-- A term with one more step behind it. -/
def andThen (term : NumberTerm) : Step → NumberTerm
  | .scale factor => scale term factor
  | .percent => percent term

theorem eval_andThen (x : Binary64) (term : NumberTerm) (step : Step) :
    (term.andThen step).eval x = step.apply (term.eval x) := by
  cases step <;> rfl

theorem eval_foldl_andThen (x : Binary64) (steps : List Step) (term : NumberTerm) :
    (steps.foldl andThen term).eval x =
      steps.foldl (fun value step => step.apply value) (term.eval x) := by
  induction steps generalizing term with
  | nil => rfl
  | cons step steps ih => rw [List.foldl_cons, ih, eval_andThen, List.foldl_cons]

end NumberTerm
end Formula

namespace Plan

/-- The formula of a plan. -/
def formula (plan : Plan) : Formula.TextTerm :=
  let number := .number plan.locale plan.options
    (plan.steps.foldl Formula.NumberTerm.andThen .input)
  let spelled := match plan.zeroDigit with
    | some zero => .digits number zero
    | none => number
  match plan.affix with
  | some affix => .affix .input spelled affix
  | none => spelled

/-- A plan and its formula make the same text of every value. -/
theorem eval_formula (plan : Plan) (formatter : Formatter) (x : Binary64) :
    plan.formula.eval formatter x = plan.format formatter x := by
  cases plan with
  | mk locale options steps zeroDigit affix =>
      cases zeroDigit <;> cases affix <;>
        simp [formula, format, applySteps, Formula.TextTerm.eval,
          Formula.NumberTerm.eval_foldl_andThen, Formula.NumberTerm.eval]

end Plan
end NumberFormat
