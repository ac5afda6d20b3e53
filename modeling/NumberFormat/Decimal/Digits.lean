import NumberFormat.Decimal.Basic

namespace NumberFormat
namespace Decimal

/-!
Decimals as written digits: the whole part, the fraction, the plain form without exponent, and
the whole part in groups of three.
-/

/-- The digits before the decimal point, at least one and at least `minimum` of them. -/
def wholeDigits (d : Decimal) (minimum : Nat) : List Char :=
  (Nat.toDigits 10 d.wholePart).leftpad minimum '0'

/-- The digits behind the decimal point, at least `minimum` of them. -/
def fractionDigits (d : Decimal) (minimum : Nat) : List Char :=
  (if d.places = 0 then []
    else (Nat.toDigits 10 d.fractionPart).leftpad d.places '0').rightpad minimum '0'

/-- The decimal written without exponent: `0.05`, `42`, `1200`. -/
def plain (d : Decimal) : List Char :=
  d.wholeDigits 1 ++ (if d.places = 0 then [] else '.' :: d.fractionDigits 0)

/-- The digits with a separator between groups of three, counted from the end. -/
def grouped (separator : Char) : List Char → List Char
  | [] => []
  | digit :: rest =>
      if rest.length % 3 = 0 ∧ rest ≠ [] then digit :: separator :: grouped separator rest
      else digit :: grouped separator rest

/-- Taking the separators away gives the digits back. -/
theorem filter_grouped {separator : Char} {digits : List Char} (foreign : separator ∉ digits) :
    (grouped separator digits).filter (· != separator) = digits := by
  induction digits with
  | nil => rfl
  | cons digit rest ih =>
      have different : digit ≠ separator := fun same => foreign (by simp [same])
      have inner := ih (fun member => foreign (List.mem_cons_of_mem _ member))
      unfold grouped
      split <;> simp [different, inner]

end Decimal
end NumberFormat
