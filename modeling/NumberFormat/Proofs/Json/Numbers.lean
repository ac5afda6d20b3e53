import NumberFormat.Json.Number
import NumberFormat.Proofs.Binary64.Spelling

namespace NumberFormat
namespace Json

open Text
open Binary64 (Digits ExponentSpelling isNumberCharacter takeDigits takeDigits_append
  takeDigits_spelling takeExponent? takeExponent?_append takeExponent?_eq_some goesOn)

/-!
The grammar of JSON numbers, and that the reader accepts exactly what it derives.

The parts of a number decide whether it is whole.  What they are worth is left to the digits
collected from them, as the reader computes it.
-/

/-! ## The grammar -/

/-- A whole part: nought, or digits of which the first is another. -/
inductive WholeSpelling : List Char → Prop where
  | zero : WholeSpelling ['0']
  | positive {digit : Char} {digits : List Char} : digit ≠ '0' → Digits (digit :: digits) →
      WholeSpelling (digit :: digits)

/-- A fraction behind its point, or none. -/
inductive FractionSpelling : List Char → List Char → Prop where
  | absent : FractionSpelling [] []
  | present {digits : List Char} : Digits digits → digits ≠ [] →
      FractionSpelling digits ('.' :: digits)

def minus (negative : Bool) : List Char :=
  if negative then ['-'] else []

/--
The ways to write a number.  It is whole if it is written with digits alone that all fit, and of
binary64 otherwise.
-/
inductive NumberSpelling : Json → List Char → Prop where
  | whole {digits : List Char} : WholeSpelling digits →
      (Collected.ofDigits digits [] 0).power = 0 →
      NumberSpelling (.whole (Collected.ofDigits digits [] 0).number) digits
  | number {negative : Bool} {exponent : Int} {digits fraction point power : List Char}
      {m : Magnitude} : WholeSpelling digits → FractionSpelling fraction point →
      ExponentSpelling exponent power →
      negative = true ∨ point ++ power ≠ [] ∨
        (Collected.ofDigits digits fraction exponent).power ≠ 0 →
      (Collected.ofDigits digits fraction exponent).magnitude? = some m →
      NumberSpelling (.number (.finite negative m)) (minus negative ++ (digits ++ (point ++ power)))

/-! ## Parts -/

theorem WholeSpelling.digits {digits : List Char} (spelled : WholeSpelling digits) :
    Digits digits := by
  cases spelled with
  | zero =>
      intro c member
      rw [List.mem_singleton.mp member]
      rfl
  | positive _ all => exact all

theorem takeFraction?_append {fraction point rest : List Char}
    (spelled : FractionSpelling fraction point) (stop : StopsBefore Char.isDigit rest)
    (unpointed : ∀ c ∈ rest.head?, c ≠ '.') :
    takeFraction? (point ++ rest) = some (fraction, rest) := by
  cases spelled with
  | absent =>
      rw [List.nil_append]
      unfold takeFraction?
      split
      · exact absurd rfl (unpointed '.' rfl)
      · rfl
  | present all some =>
      rw [List.cons_append, takeFraction?, takeDigits_append all stop]
      cases fraction with
      | nil => exact absurd rfl some
      | cons => rfl

/-- A fraction is only found missing where its point is missing. -/
theorem takeFraction?_eq_some {text fraction rest : List Char}
    (taken : takeFraction? text = some (fraction, rest)) :
    ∃ point, text = point ++ rest ∧ FractionSpelling fraction point ∧
      (point = [] → ∀ c ∈ rest.head?, c ≠ '.') := by
  unfold takeFraction? at taken
  split at taken
  · rename_i tail
    rcases first : takeDigits tail with ⟨digits, last⟩
    rcases takeDigits_spelling first with ⟨split, all, _⟩
    rw [first] at taken
    cases digits with
    | nil => cases taken
    | cons digit digits =>
        cases taken
        exact ⟨_, by rw [split]; rfl, .present all (List.cons_ne_nil _ _),
          fun empty => absurd empty (List.cons_ne_nil _ _)⟩
  · rename_i unpointed
    cases taken
    refine ⟨[], rfl, .absent, ?_⟩
    rintro _ c member rfl
    rcases List.head?_eq_some_iff.mp member with ⟨tail, same⟩
    exact unpointed tail same

/-! ## Numbers -/

/-- What the parts of a number are worth, and what follows it. -/
def valueOf? (negative marked : Bool) (collected : Collected) (rest : List Char) :
    Option (Json × List Char) := do
  if negative ∨ marked ∨ collected.power ≠ 0 then
    return (number (.finite negative (← collected.magnitude?)), rest)
  else return (whole collected.number, rest)

/-- Behind a minus, or none, and a whole part a number goes on with a fraction and an exponent. -/
theorem takeNumber?_whole {digits tail : List Char} (negative : Bool)
    (spelled : WholeSpelling digits) (stop : StopsBefore Char.isDigit tail) :
    takeNumber? (minus negative ++ (digits ++ tail)) = (takeFraction? tail).bind (fun fraction =>
      (takeExponent? fraction.2).bind (fun exponent =>
        valueOf? negative (goesOn tail) (Collected.ofDigits digits fraction.1 exponent.1)
          exponent.2)) := by
  have taken := takeDigits_append spelled.digits stop
  unfold takeNumber?
  split
  rename_i sign body read
  have parts : (negative, digits ++ tail) = (sign, body) := by
    rw [← read]
    cases negative with
    | true => rfl
    | false =>
        split
        · rename_i same
          cases spelled with
          | zero => cases same
          | positive _ all =>
              cases same
              cases all '-' List.mem_cons_self
        · rfl
  cases parts
  rw [taken]
  cases spelled with
  | zero => rfl
  | positive nonzero =>
      split
      · rename_i same
        cases same
      · rename_i same
        cases same
        exact absurd rfl nonzero
      · rename_i same
        cases same
        rfl

/-- A text goes on as a number exactly when it begins with one of three characters. -/
theorem goesOn_eq_false {text : List Char} (unpointed : ∀ c ∈ text.head?, c ≠ '.')
    (unmarked : ∀ c ∈ text.head?, c ≠ 'e' ∧ c ≠ 'E') : goesOn text = false := by
  unfold goesOn
  split
  · exact absurd rfl (unpointed '.' rfl)
  · exact absurd rfl (unmarked 'e' rfl).1
  · exact absurd rfl (unmarked 'E' rfl).2
  · rfl

theorem goesOn_append {fraction point power rest : List Char} {exponent : Int}
    (pointed : FractionSpelling fraction point) (powered : ExponentSpelling exponent power)
    (ended : point ++ power = [] → goesOn rest = false) :
    goesOn (point ++ (power ++ rest)) = !(point ++ power).isEmpty := by
  cases pointed with
  | present => rfl
  | absent =>
      cases powered with
      | present marked => rcases marked with rfl | rfl <;> rfl
      | absent => exact ended rfl

/-- The parts of a number, one behind the other, are read as what they are worth. -/
theorem takeNumber?_parts (negative : Bool) {digits fraction point power rest : List Char}
    {exponent : Int} (spelled : WholeSpelling digits) (pointed : FractionSpelling fraction point)
    (powered : ExponentSpelling exponent power) (stop : StopsBefore isNumberCharacter rest) :
    takeNumber? (minus negative ++ (digits ++ (point ++ power)) ++ rest) =
      valueOf? negative (!(point ++ power).isEmpty) (Collected.ofDigits digits fraction exponent)
        rest := by
  rcases Binary64.numberStops stop with ⟨noDigit, noPoint, noMark, _⟩
  have powerDigit : StopsBefore Char.isDigit (power ++ rest) := powered.stopsBefore noDigit
  have powerPoint : ∀ c ∈ (power ++ rest).head?, c ≠ '.' := powered.unpointed noPoint
  have pointDigit : StopsBefore Char.isDigit (point ++ (power ++ rest)) := by
    cases pointed with
    | absent => exact powerDigit
    | present => exact stopsBefore_cons rfl
  simp only [List.append_assoc]
  rw [takeNumber?_whole negative spelled pointDigit,
    goesOn_append pointed powered (fun _ => goesOn_eq_false noPoint noMark),
    takeFraction?_append pointed powerDigit powerPoint, Option.bind_some,
    takeExponent?_append powered noDigit noMark, Option.bind_some]

theorem takeNumber?_append {value : Json} {text rest : List Char}
    (spelled : NumberSpelling value text) (stop : StopsBefore isNumberCharacter rest) :
    takeNumber? (text ++ rest) = some (value, rest) := by
  cases spelled with
  | whole spelled fits =>
      have read := takeNumber?_parts false spelled .absent .absent stop
      simp only [minus, Bool.false_eq_true, if_false, List.nil_append, List.append_nil] at read
      have unmarked : ¬(false = true ∨ (!([] : List Char).isEmpty) = true ∨
          (Collected.ofDigits text [] 0).power ≠ 0) := by
        simp [fits]
      rw [read, valueOf?, if_neg unmarked]
      rfl
  | @number negative exponent digits fraction point power m spelled pointed powered marked value =>
      rw [takeNumber?_parts negative spelled pointed powered stop, valueOf?, if_pos, value]
      · rfl
      · rcases marked with minus | written | shifted
        · exact Or.inl minus
        · exact Or.inr (Or.inl (by simpa using written))
        · exact Or.inr (Or.inr shifted)

/-- Whatever is read as a number begins with a minus, or none, and a whole part. -/
theorem exists_whole_of_takeNumber? {text : List Char} {found : Json × List Char}
    (taken : takeNumber? text = some found) :
    ∃ negative digits tail, text = minus negative ++ (digits ++ tail) ∧ WholeSpelling digits ∧
      StopsBefore Char.isDigit tail := by
  unfold takeNumber? at taken
  split at taken
  rename_i negative body read
  have front : text = minus negative ++ body := by
    split at read <;> cases read <;> rfl
  rcases first : takeDigits body with ⟨digits, tail⟩
  rcases takeDigits_spelling first with ⟨split, all, stop⟩
  refine ⟨negative, digits, tail, by rw [front, split], ?_, stop⟩
  rw [first] at taken
  cases digits with
  | nil => cases taken
  | cons digit digits =>
      by_cases zero : digit = '0'
      · subst zero
        cases digits with
        | nil => exact .zero
        | cons => cases taken
      · exact .positive zero all

theorem takeNumber?_eq_some {text rest : List Char} {value : Json}
    (taken : takeNumber? text = some (value, rest)) :
    ∃ read, text = read ++ rest ∧ NumberSpelling value read := by
  rcases exists_whole_of_takeNumber? taken with ⟨negative, digits, tail, rfl, spelled, stop⟩
  rw [takeNumber?_whole negative spelled stop] at taken
  rcases Option.bind_eq_some_iff.mp taken with ⟨⟨fraction, last⟩, fractionTaken, taken⟩
  rcases Option.bind_eq_some_iff.mp taken with ⟨⟨exponent, beyond⟩, exponentTaken, taken⟩
  dsimp only at exponentTaken taken
  rcases takeFraction?_eq_some fractionTaken with ⟨point, rfl, pointed, unpointed⟩
  rcases takeExponent?_eq_some exponentTaken with ⟨power, rfl, powered, unmarked⟩
  have ended : point ++ power = [] → goesOn beyond = false := by
    intro empty
    rcases List.append_eq_nil_iff.mp empty with ⟨rfl, rfl⟩
    exact goesOn_eq_false (unpointed rfl) (unmarked rfl)
  rw [goesOn_append pointed powered ended, valueOf?] at taken
  split at taken
  · rename_i marked
    rcases Option.bind_eq_some_iff.mp taken with ⟨m, value, result⟩
    cases result
    refine ⟨minus negative ++ (digits ++ (point ++ power)), ?_,
      .number spelled pointed powered ?_ value⟩
    · simp only [List.append_assoc]
    · simpa using marked
  · rename_i bare
    cases taken
    rcases not_or.mp bare with ⟨unsigned, unmarked⟩
    rcases not_or.mp unmarked with ⟨unwritten, unshifted⟩
    have alone : point ++ power = [] := by simpa using unwritten
    rcases List.append_eq_nil_iff.mp alone with ⟨rfl, rfl⟩
    cases pointed
    cases powered
    cases negative with
    | true => exact absurd rfl unsigned
    | false => exact ⟨digits, rfl, .whole spelled (Decidable.not_not.mp unshifted)⟩

end Json
end NumberFormat
