import NumberFormat.Binary64.Literal
import NumberFormat.Proofs.Text.Run

namespace NumberFormat
namespace Binary64

open Text

/-!
The grammar of written numbers, and that the reader accepts exactly what it derives.

A number is a word for infinity or for what is no number, in any mixture of cases, or a mantissa
with an exponent behind it or none.  The reader takes the longest number, so a spelling comes back
when what follows it cannot be part of a number.
-/

/-! ## The grammar -/

/-- Whether a text consists of digits. -/
def Digits (text : List Char) : Prop :=
  ∀ c ∈ text, c.isDigit = true

/-- A sign or none; it counts as true when it is a minus. -/
inductive SignSpelling : Bool → List Char → Prop where
  | absent : SignSpelling false []
  | plus : SignSpelling false ['+']
  | minus : SignSpelling true ['-']

/-- The digits of a whole part and of a fraction, of which there are some. -/
inductive MantissaSpelling : List Char → List Char → List Char → Prop where
  | whole {digits : List Char} : Digits digits → digits ≠ [] → MantissaSpelling digits [] digits
  | pointed {whole fraction : List Char} : Digits whole → Digits fraction →
      whole ++ fraction ≠ [] → MantissaSpelling whole fraction (whole ++ '.' :: fraction)

/-- The number of digits with a sign. -/
def signedNumber (negative : Bool) (digits : List Char) : Int :=
  if negative then -(Nat.ofDigitChars 10 digits 0 : Nat) else (Nat.ofDigitChars 10 digits 0 : Nat)

/-- A power of ten, nought if nothing is written. -/
inductive ExponentSpelling : Int → List Char → Prop where
  | absent : ExponentSpelling 0 []
  | present {mark : Char} {negative : Bool} {sign digits : List Char} :
      mark = 'e' ∨ mark = 'E' → SignSpelling negative sign → Digits digits → digits ≠ [] →
      ExponentSpelling (signedNumber negative digits) (mark :: (sign ++ digits))

/-- The ways to write a number. -/
inductive Spelling : Binary64 → List Char → Prop where
  | nan {word : List Char} : word.map Char.toLower = ['n', 'a', 'n'] → Spelling .nan word
  | infinite {negative : Bool} {sign word : List Char} : SignSpelling negative sign →
      word.map Char.toLower = ['i', 'n', 'f'] ∨
        word.map Char.toLower = ['i', 'n', 'f', 'i', 'n', 'i', 't', 'y'] →
      Spelling (.infinite negative) (sign ++ word)
  | decimal {negative : Bool} {exponent : Int} {sign whole fraction mantissa power : List Char} :
      SignSpelling negative sign → MantissaSpelling whole fraction mantissa →
      ExponentSpelling exponent power →
      Spelling (ofDecimal negative (decimalOf whole fraction exponent))
        (sign ++ (mantissa ++ power))

/-- Whether a character may go on with a number: a digit, a letter or a decimal point. -/
def isNumberCharacter (c : Char) : Bool :=
  c.isAlphanum || c == '.'

/-! ## Words and signs -/

theorem afterWord?_append {word text : List Char} (same : text.map Char.toLower = word)
    (rest : List Char) : afterWord? word (text ++ rest) = some rest := by
  induction text generalizing word with
  | nil =>
      cases same
      rfl
  | cons c text ih =>
      cases same
      simp only [List.map_cons, List.cons_append, afterWord?, if_true]
      exact ih rfl

theorem afterWord?_eq_some {word text rest : List Char} (found : afterWord? word text = some rest) :
    ∃ read, text = read ++ rest ∧ read.map Char.toLower = word := by
  induction word generalizing text with
  | nil =>
      cases found
      exact ⟨[], rfl, rfl⟩
  | cons w word ih =>
      cases text with
      | nil => cases found
      | cons c text =>
          simp only [afterWord?] at found
          split at found
          · rename_i same
            rcases ih found with ⟨read, split, spelled⟩
            exact ⟨c :: read, by rw [split, List.cons_append], by rw [List.map_cons, same, spelled]⟩
          · cases found

/-- A word is not found where its first letter is missing. -/
theorem afterWord?_eq_none {w : Char} {word text : List Char}
    (missing : ∀ c ∈ text.head?, c.toLower ≠ w) : afterWord? (w :: word) text = none := by
  cases text with
  | nil => rfl
  | cons c rest => simp [afterWord?, missing c rfl]

theorem takeSign_append {negative : Bool} {sign : List Char} (spelled : SignSpelling negative sign)
    {rest : List Char} (unsigned : ∀ c ∈ rest.head?, c ≠ '-' ∧ c ≠ '+') :
    takeSign (sign ++ rest) = (negative, rest) := by
  cases spelled with
  | plus => rfl
  | minus => rfl
  | absent =>
      rw [List.nil_append]
      unfold takeSign
      split
      · exact absurd rfl (unsigned '-' rfl).1
      · exact absurd rfl (unsigned '+' rfl).2
      · rfl

theorem takeSign_spelling (text : List Char) :
    ∃ sign, text = sign ++ (takeSign text).2 ∧ SignSpelling (takeSign text).1 sign := by
  unfold takeSign
  split
  · exact ⟨['-'], rfl, .minus⟩
  · exact ⟨['+'], rfl, .plus⟩
  · exact ⟨[], rfl, .absent⟩

/-! ## Digits -/

theorem takeDigits_append {digits rest : List Char} (all : Digits digits)
    (stop : StopsBefore Char.isDigit rest) : takeDigits (digits ++ rest) = (digits, rest) := by
  rw [takeDigits, takeWhile_run all stop, dropWhile_run all stop]

theorem takeDigits_spelling {text digits rest : List Char}
    (taken : takeDigits text = (digits, rest)) :
    text = digits ++ rest ∧ Digits digits ∧ StopsBefore Char.isDigit rest := by
  cases taken
  exact ⟨List.takeWhile_append_dropWhile.symm, fun _ member => mem_takeWhile_imp member,
    stopsBefore_dropWhile text⟩

/-! ## Mantissas and exponents -/

theorem takeMantissa?_append {whole fraction text rest : List Char}
    (spelled : MantissaSpelling whole fraction text) (stop : StopsBefore Char.isDigit rest)
    (unpointed : ∀ c ∈ rest.head?, c ≠ '.') :
    takeMantissa? (text ++ rest) = some ((whole, fraction), rest) := by
  cases spelled with
  | whole all some =>
      rw [takeMantissa?, takeDigits_append all stop]
      cases whole with
      | nil => exact absurd rfl some
      | cons digit digits =>
          cases rest with
          | nil => rfl
          | cons c tail => simp [unpointed c rfl]
  | pointed wholeDigits fractionDigits some =>
      have split : whole ++ '.' :: fraction ++ rest = whole ++ ('.' :: (fraction ++ rest)) := by
        rw [List.append_assoc, List.cons_append]
      have point : StopsBefore Char.isDigit ('.' :: (fraction ++ rest)) := stopsBefore_cons rfl
      rw [takeMantissa?, split, takeDigits_append wholeDigits point]
      cases whole with
      | nil =>
          simp only [takeDigits_append fractionDigits stop]
          cases fraction with
          | nil => exact absurd rfl some
          | cons => rfl
      | cons => simp only [takeDigits_append fractionDigits stop]

theorem takeMantissa?_eq_some {text whole fraction rest : List Char}
    (taken : takeMantissa? text = some ((whole, fraction), rest)) :
    ∃ read, text = read ++ rest ∧ MantissaSpelling whole fraction read := by
  rcases first : takeDigits text with ⟨digits, tail⟩
  rcases takeDigits_spelling first with ⟨split, all, _⟩
  rw [takeMantissa?, first] at taken
  cases tail with
  | nil =>
      cases digits with
      | nil => cases taken
      | cons digit digits =>
          cases taken
          exact ⟨_, split, .whole all (List.cons_ne_nil _ _)⟩
  | cons c tail =>
      by_cases point : c = '.'
      · subst point
        rcases second : takeDigits tail with ⟨more, last⟩
        rcases takeDigits_spelling second with ⟨inner, moreAll, _⟩
        have whole : text = digits ++ '.' :: more ++ last := by
          rw [split, inner, List.append_assoc, List.cons_append]
        cases digits with
        | nil =>
            simp only [second] at taken
            cases more with
            | nil => cases taken
            | cons digit more =>
                cases taken
                exact ⟨_, whole, .pointed all moreAll (List.cons_ne_nil _ _)⟩
        | cons digit digits =>
            simp only [second] at taken
            cases taken
            exact ⟨_, whole, .pointed all moreAll (List.cons_ne_nil _ _)⟩
      · cases digits with
        | nil => simp [point] at taken
        | cons digit digits =>
            simp [point] at taken
            rcases taken with ⟨⟨rfl, rfl⟩, rfl⟩
            exact ⟨_, split, .whole all (List.cons_ne_nil _ _)⟩

/-- An exponent begins with neither digit nor point. -/
theorem ExponentSpelling.stopsBefore {exponent : Int} {power rest : List Char}
    (spelled : ExponentSpelling exponent power) (stop : StopsBefore Char.isDigit rest) :
    StopsBefore Char.isDigit (power ++ rest) := by
  cases spelled with
  | absent => exact stop
  | present marked => rcases marked with rfl | rfl <;> exact stopsBefore_cons rfl

theorem ExponentSpelling.unpointed {exponent : Int} {power rest : List Char}
    (spelled : ExponentSpelling exponent power) (unpointed : ∀ c ∈ rest.head?, c ≠ '.') :
    ∀ c ∈ (power ++ rest).head?, c ≠ '.' := by
  cases spelled with
  | absent => exact unpointed
  | present marked =>
      intro c member
      cases member
      rcases marked with rfl | rfl <;> decide

theorem takeExponent?_append {exponent : Int} {text rest : List Char}
    (spelled : ExponentSpelling exponent text) (stop : StopsBefore Char.isDigit rest)
    (unmarked : ∀ c ∈ rest.head?, c ≠ 'e' ∧ c ≠ 'E') :
    takeExponent? (text ++ rest) = some (exponent, rest) := by
  cases spelled with
  | absent =>
      cases rest with
      | nil => rfl
      | cons c tail =>
          have other := unmarked c rfl
          simp [takeExponent?, other]
  | @present mark negative sign digits marked signed all some =>
      have unsigned : ∀ c ∈ (digits ++ rest).head?, c ≠ '-' ∧ c ≠ '+' := by
        cases digits with
        | nil => exact absurd rfl some
        | cons digit digits =>
            intro c member
            cases member
            have isDigit := all digit List.mem_cons_self
            constructor <;> rintro rfl <;> cases isDigit
      have marked : mark = 'e' ∨ mark = 'E' := marked
      rw [List.cons_append, List.append_assoc, takeExponent?, if_pos marked,
        takeSign_append signed unsigned]
      simp only [takeDigits_append all stop]
      cases digits with
      | nil => exact absurd rfl some
      | cons => rfl

/-- An exponent is only found missing where its mark is missing. -/
theorem takeExponent?_eq_some {text rest : List Char} {exponent : Int}
    (taken : takeExponent? text = some (exponent, rest)) :
    ∃ read, text = read ++ rest ∧ ExponentSpelling exponent read ∧
      (read = [] → ∀ c ∈ rest.head?, c ≠ 'e' ∧ c ≠ 'E') := by
  cases text with
  | nil =>
      cases taken
      exact ⟨[], rfl, .absent, fun _ _ member => nomatch member⟩
  | cons c tail =>
      rw [takeExponent?] at taken
      by_cases marked : c = 'e' ∨ c = 'E'
      · rcases takeSign_spelling tail with ⟨sign, split, signed⟩
        rcases taking : takeDigits (takeSign tail).2 with ⟨digits, last⟩
        rcases takeDigits_spelling taking with ⟨inner, all, _⟩
        simp only [if_pos marked, taking] at taken
        cases digits with
        | nil => cases taken
        | cons digit digits =>
            cases taken
            refine ⟨c :: (sign ++ digit :: digits), ?_,
              .present marked signed all (List.cons_ne_nil _ _),
              fun empty => absurd empty (List.cons_ne_nil _ _)⟩
            rw [split, inner]
            simp only [List.cons_append, List.append_assoc]
      · rw [if_neg marked] at taken
        cases taken
        refine ⟨[], rfl, .absent, ?_⟩
        intro _ d member
        cases member
        exact not_or.mp marked

/-! ## Numbers -/

theorem toLower_of_isDigit {c : Char} (digit : c.isDigit = true) : c.toLower = c := by
  unfold Char.toLower
  rw [dif_neg]
  intro upper
  simp only [Char.isDigit, Bool.and_eq_true, decide_eq_true_eq] at digit
  exact absurd (Nat.le_trans upper.1 digit.2) (by decide)

/-- The beginning of a mantissa is no sign and no letter of a word. -/
theorem MantissaSpelling.head {whole fraction text : List Char}
    (spelled : MantissaSpelling whole fraction text) :
    ∃ c tail, text = c :: tail ∧ c ≠ '-' ∧ c ≠ '+' ∧ c.toLower ≠ 'n' ∧ c.toLower ≠ 'i' := by
  have ofDigit {c : Char} (digit : c.isDigit = true) :
      c ≠ '-' ∧ c ≠ '+' ∧ c.toLower ≠ 'n' ∧ c.toLower ≠ 'i' := by
    rw [toLower_of_isDigit digit]
    refine ⟨?_, ?_, ?_, ?_⟩ <;> rintro rfl <;> cases digit
  cases spelled with
  | whole all some =>
      cases whole with
      | nil => exact absurd rfl some
      | cons digit digits => exact ⟨digit, digits, rfl, ofDigit (all digit List.mem_cons_self)⟩
  | pointed wholeDigits fractionDigits some =>
      cases whole with
      | nil => exact ⟨'.', fraction, rfl, by decide⟩
      | cons digit digits =>
          exact ⟨digit, _, rfl, ofDigit (wholeDigits digit List.mem_cons_self)⟩

theorem isAlphanum_of_toLower {c : Char} (lower : c.toLower.isAlphanum = true) :
    c.isAlphanum = true := by
  unfold Char.toLower at lower
  split at lower
  · rename_i upper
    have letter : c.isUpper = true := decide_eq_true upper
    have alphabetic : c.isAlpha = true := Bool.or_eq_true_iff.mpr (Or.inl letter)
    simp only [Char.isAlphanum, alphabetic, Bool.true_or]
  · exact lower

/-- What follows a number keeps clear of everything a number may go on with. -/
theorem numberStops {rest : List Char} (stop : StopsBefore isNumberCharacter rest) :
    StopsBefore Char.isDigit rest ∧ (∀ c ∈ rest.head?, c ≠ '.') ∧
      (∀ c ∈ rest.head?, c ≠ 'e' ∧ c ≠ 'E') ∧ (∀ c ∈ rest.head?, c.toLower ≠ 'i') := by
  refine ⟨stop.mono ?_, ?_, ?_, ?_⟩
  · intro c other
    simp only [isNumberCharacter, Char.isAlphanum, Bool.or_eq_false_iff] at other
    exact other.1.2
  · rintro c member rfl
    cases stop _ member
  · intro c member
    constructor <;> rintro rfl <;> cases stop _ member
  · intro c member lower
    have letter : c.isAlphanum = true := isAlphanum_of_toLower (by rw [lower]; rfl)
    have other := stop c member
    rw [isNumberCharacter, letter] at other
    cases other

/-! ## Characters of a number -/

/-- Whether a character may stand in a number. -/
def isInNumber (c : Char) : Bool :=
  isNumberCharacter c || c == '-' || c == '+'

theorem isInNumber_of_isDigit {c : Char} (digit : c.isDigit = true) : isInNumber c = true := by
  simp only [isInNumber, isNumberCharacter, Char.isAlphanum, digit, Bool.or_true, Bool.true_or]

theorem SignSpelling.inNumber {negative : Bool} {sign : List Char}
    (spelled : SignSpelling negative sign) : ∀ c ∈ sign, isInNumber c = true := by
  cases spelled <;> exact List.all_eq_true.mp (by decide)

theorem word_inNumber {word lower : List Char} (same : word.map Char.toLower = lower)
    (letters : lower.all Char.isAlphanum = true) : ∀ c ∈ word, isInNumber c = true := by
  intro c member
  have inside : c.toLower ∈ lower := same ▸ List.mem_map_of_mem member
  have letter := isAlphanum_of_toLower (List.all_eq_true.mp letters _ inside)
  simp only [isInNumber, isNumberCharacter, letter, Bool.true_or]

theorem MantissaSpelling.inNumber {whole fraction text : List Char}
    (spelled : MantissaSpelling whole fraction text) : ∀ c ∈ text, isInNumber c = true := by
  intro c member
  cases spelled with
  | whole all _ => exact isInNumber_of_isDigit (all c member)
  | pointed wholeDigits fractionDigits _ =>
      rcases List.mem_append.mp member with front | behind
      · exact isInNumber_of_isDigit (wholeDigits c front)
      · rcases List.mem_cons.mp behind with rfl | behind
        · rfl
        · exact isInNumber_of_isDigit (fractionDigits c behind)

theorem ExponentSpelling.inNumber {exponent : Int} {text : List Char}
    (spelled : ExponentSpelling exponent text) : ∀ c ∈ text, isInNumber c = true := by
  intro c member
  cases spelled with
  | absent => cases member
  | present marked signed all _ =>
      rcases List.mem_cons.mp member with rfl | behind
      · rcases marked with rfl | rfl <;> rfl
      · rcases List.mem_append.mp behind with front | behind
        · exact signed.inNumber c front
        · exact isInNumber_of_isDigit (all c behind)

theorem Spelling.inNumber {x : Binary64} {text : List Char} (spelled : Spelling x text) :
    ∀ c ∈ text, isInNumber c = true := by
  cases spelled with
  | nan word => exact word_inNumber word (by decide)
  | infinite signed word =>
      intro c member
      rcases List.mem_append.mp member with front | behind
      · exact signed.inNumber c front
      · rcases word with short | long
        · exact word_inNumber short (by decide) c behind
        · exact word_inNumber long (by decide) c behind
  | decimal signed mantissa powered =>
      intro c member
      rcases List.mem_append.mp member with front | behind
      · exact signed.inNumber c front
      · rcases List.mem_append.mp behind with middle | last
        · exact mantissa.inNumber c middle
        · exact powered.inNumber c last

/-! ## Reading numbers -/

/-- Behind a sign, or none, a number is infinite or has a mantissa. -/
theorem take?_signed {negative : Bool} {sign : List Char} (signed : SignSpelling negative sign)
    {c : Char} (tail : List Char) (unsigned : c ≠ '-' ∧ c ≠ '+') (other : c.toLower ≠ 'n') :
    take? (sign ++ c :: tail) =
      match afterWord? ['i', 'n', 'f'] (c :: tail) with
      | some rest =>
          some (infinite negative, (afterWord? ['i', 'n', 'i', 't', 'y'] rest).getD rest)
      | none => do
          let ((whole, fraction), rest) ← takeMantissa? (c :: tail)
          let (exponent, rest) ← takeExponent? rest
          return (ofDecimal negative (decimalOf whole fraction exponent), rest) := by
  have unnamed : afterWord? ['n', 'a', 'n'] (sign ++ c :: tail) = none := by
    refine afterWord?_eq_none ?_
    intro d member
    cases signed with
    | absent =>
        cases member
        exact other
    | plus =>
        cases member
        decide
    | minus =>
        cases member
        decide
  have taken : takeSign (sign ++ c :: tail) = (negative, c :: tail) := by
    apply takeSign_append signed
    intro d member
    cases member
    exact unsigned
  rw [take?, unnamed]
  dsimp only
  rewrite [taken]
  rfl

theorem take?_append {x : Binary64} {text rest : List Char} (spelled : Spelling x text)
    (stop : StopsBefore isNumberCharacter rest) : take? (text ++ rest) = some (x, rest) := by
  rcases numberStops stop with ⟨noDigit, noPoint, noMark, noLetter⟩
  cases spelled with
  | nan word => rw [take?, afterWord?_append word]
  | @infinite negative sign word signed spelled =>
      cases word with
      | nil => rcases spelled with short | long <;> contradiction
      | cons c tail =>
          have letter : c.toLower = 'i' := by
            rcases spelled with short | long
            · exact (List.cons.inj short).1
            · exact (List.cons.inj long).1
          have unsigned : c ≠ '-' ∧ c ≠ '+' := by
            constructor <;> rintro rfl <;> cases letter
          have other : c.toLower ≠ 'n' := by
            rw [letter]
            decide
          rw [List.append_assoc, List.cons_append, take?_signed signed _ unsigned other,
            ← List.cons_append]
          rcases spelled with short | long
          · simp only [afterWord?_append short, afterWord?_eq_none noLetter, Option.getD_none]
          · have parts : (c :: tail).map Char.toLower =
                ['i', 'n', 'f'] ++ ['i', 'n', 'i', 't', 'y'] := long
            rcases List.map_eq_append_iff.mp parts with ⟨first, second, split, inf, inity⟩
            rw [split, List.append_assoc, afterWord?_append inf]
            simp only [afterWord?_append inity, Option.getD_some]
  | @decimal negative exponent sign whole fraction mantissa power signed spelled powered =>
      rcases spelled.head with ⟨c, tail, rfl, noMinus, noPlus, notN, notI⟩
      have finite : afterWord? ['i', 'n', 'f'] (c :: (tail ++ power ++ rest)) = none :=
        afterWord?_eq_none (by
          intro d member
          cases member
          exact notI)
      have mantissa := takeMantissa?_append spelled (powered.stopsBefore noDigit)
        (powered.unpointed noPoint)
      have exponent := takeExponent?_append powered noDigit noMark
      have whole : sign ++ (c :: tail ++ power) ++ rest = sign ++ c :: (tail ++ power ++ rest) := by
        simp only [List.append_assoc, List.cons_append]
      have body : c :: (tail ++ power ++ rest) = c :: tail ++ (power ++ rest) := by
        simp only [List.append_assoc, List.cons_append]
      rw [whole, take?_signed signed _ ⟨noMinus, noPlus⟩ notN, finite, body]
      simp only [mantissa, Option.bind_eq_bind, Option.bind_some, exponent]
      rfl

/-- No number is read off an empty text, so no spelling is empty. -/
theorem Spelling.ne_nil {x : Binary64} {spelling : List Char} (spelled : Spelling x spelling) :
    spelling ≠ [] := by
  rintro rfl
  have taken := take?_append spelled stopsBefore_nil
  cases taken

theorem take?_eq_some {text rest : List Char} {x : Binary64} (taken : take? text = some (x, rest)) :
    ∃ read, text = read ++ rest ∧ Spelling x read := by
  rw [take?] at taken
  cases nanFound : afterWord? ['n', 'a', 'n'] text with
  | some last =>
      rw [nanFound] at taken
      cases taken
      rcases afterWord?_eq_some nanFound with ⟨read, split, word⟩
      exact ⟨read, split, .nan word⟩
  | none =>
      rcases takeSign_spelling text with ⟨sign, split, signed⟩
      rcases signs : takeSign text with ⟨negative, body⟩
      rw [signs] at split signed
      simp only [nanFound, signs] at taken split
      cases infFound : afterWord? ['i', 'n', 'f'] body with
      | some last =>
          rcases afterWord?_eq_some infFound with ⟨first, inner, word⟩
          rw [infFound] at taken
          cases long : afterWord? ['i', 'n', 'i', 't', 'y'] last with
          | none =>
              simp only [long, Option.getD_none] at taken
              cases taken
              exact ⟨sign ++ first, by rw [split, inner, List.append_assoc],
                .infinite signed (Or.inl word)⟩
          | some beyond =>
              rcases afterWord?_eq_some long with ⟨second, innermost, ending⟩
              simp only [long, Option.getD_some] at taken
              cases taken
              refine ⟨sign ++ (first ++ second), ?_, .infinite signed (Or.inr ?_)⟩
              · rw [split, inner, innermost]
                simp only [List.append_assoc]
              · rw [List.map_append, word, ending]
                rfl
      | none =>
          simp only [infFound, Option.bind_eq_bind, Option.bind_eq_some_iff] at taken
          rcases taken with ⟨⟨⟨whole, fraction⟩, tail⟩, mantissa, ⟨exponent, last⟩, power, result⟩
          cases result
          dsimp only at power
          rcases takeMantissa?_eq_some mantissa with ⟨first, inner, spelled⟩
          rcases takeExponent?_eq_some power with ⟨second, innermost, powered, _⟩
          refine ⟨sign ++ (first ++ second), ?_, .decimal signed spelled powered⟩
          rw [split, inner, innermost]
          simp only [List.append_assoc]

end Binary64
end NumberFormat
