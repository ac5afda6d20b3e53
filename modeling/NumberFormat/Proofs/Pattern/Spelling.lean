import NumberFormat.Proofs.Pattern.Quotation

namespace NumberFormat
namespace Pattern

open Text

/-!
Tokens as they are spelled.

A token is looked for in ten ways, one after another, and the first way that finds one counts.  The
last way takes any character whatever, so tokens are found until nothing of the pattern is left.
Nothing gets lost on the way: the tokens, each spelled as it was read, make the pattern again.
-/

/-! ## Spellings -/

/-- The text that a token is read from. -/
def Token.spelling : Token → List Char
  | literal c => doubled [c]
  | quoted text => '\'' :: (doubled text ++ ['\''])
  | unterminated text => '\'' :: doubled text
  | pad c => ['*', c]
  | currency count => List.replicate count '¤'
  | percent => ['%']
  | permille => ['‰']
  | minus => ['-']
  | separator => [';']
  | optional count => List.replicate count '#'
  | required digits => digits
  | significant least further => List.replicate least '@' ++ List.replicate further '#'
  | group => [',']
  | point => ['.']
  | exponent digits plus => 'E' :: ((if plus then ['+'] else []) ++ List.replicate digits '0')

/-! ## Ways to find a token -/

/-- A way to take a token off the front of a text, if there is one of its kind. -/
abbrev Finder : Type :=
  List Char → Option (Token × List Char)

namespace Finder

/-- Tokens that open with a mark and go on behind it as `behind` finds. -/
def opening (mark : Char) (behind : Finder) : Finder
  | c :: rest => if c = mark then behind rest else none
  | [] => none

/-- Two apostrophes, which stand for one. -/
def escaped : Finder :=
  opening '\'' fun
    | '\'' :: rest => some (.literal '\'', rest)
    | _ => none

/-- Text behind an apostrophe, up to the next single one or to the end. -/
def quotation : Finder :=
  opening '\'' fun text =>
    match takeQuoted text with
    | (quoted, some rest) => some (.quoted quoted, rest)
    | (quoted, none) => some (.unterminated quoted, [])

def pad : Finder :=
  opening '*' fun
    | filler :: rest => some (.pad filler, rest)
    | [] => none

def currency : Finder :=
  opening '¤' fun text =>
    some (.currency ((text.takeWhile (· == '¤')).length + 1), text.dropWhile (· == '¤'))

def significant : Finder :=
  opening '@' fun text =>
    let further := text.dropWhile (· == '@')
    some (.significant ((text.takeWhile (· == '@')).length + 1)
      (further.takeWhile (· == '#')).length, further.dropWhile (· == '#'))

def optional : Finder :=
  opening '#' fun text =>
    some (.optional ((text.takeWhile (· == '#')).length + 1), text.dropWhile (· == '#'))

def required : Finder
  | c :: rest =>
      if c.isDigit then
        some (.required (c :: rest.takeWhile Char.isDigit), rest.dropWhile Char.isDigit)
      else none
  | [] => none

def exponent : Finder :=
  opening 'E' takeExponent?

/-- The characters with a meaning of their own that make no runs. -/
def symbols : List (Char × Token) :=
  [('%', .percent), ('‰', .permille), ('-', .minus), (';', .separator), (',', .group),
    ('.', .point)]

def symbol : Finder
  | c :: rest => (symbols.lookup c).map (·, rest)
  | [] => none

/-- Any character at all, which stands for itself. -/
def literal : Finder
  | c :: rest => some (.literal c, rest)
  | [] => none

/-- The ways to find a token, in the order in which they are tried. -/
def all : List Finder :=
  [escaped, quotation, pad, currency, significant, optional, required, exponent, symbol, literal]

/-- The token that the first way that finds one finds. -/
def first : Finder :=
  fun text => all.findSome? (fun finder => finder text)

end Finder

/--
Tokens taken off a text one after another, as long as one is found, and what is left then.  Each
token has to take something.
-/
inductive Repeated (finder : Finder) : List Char → List Token → List Char → Prop where
  | stop {text : List Char} : finder text = none → Repeated finder text [] text
  | next {text rest left : List Char} {token : Token} {others : List Token} :
      finder text = some (token, rest) → rest.length < text.length →
      Repeated finder rest others left → Repeated finder text (token :: others) left

/-! ## The first token -/

namespace Finder

theorem first_eq (text : List Char) :
    first text = (escaped text).or ((quotation text).or ((pad text).or ((currency text).or
      ((significant text).or ((optional text).or ((required text).or ((exponent text).or
        ((symbol text).or (literal text))))))))) := by
  have cons (finder : Finder) (others : List Finder) :
      (finder :: others).findSome? (fun finder => finder text) =
        (finder text).or (others.findSome? (fun finder => finder text)) := by
    rw [List.findSome?_cons]
    cases finder text <;> rfl
  simp only [first, all, cons, List.findSome?_nil, Option.or_none]

theorem opening_other {mark c : Char} (other : c ≠ mark) (behind : Finder) (rest : List Char) :
    opening mark behind (c :: rest) = none :=
  if_neg other

/-- Behind an apostrophe that no other one follows a quotation is found. -/
theorem first_apostrophe {rest : List Char} (alone : ∀ more, rest = '\'' :: more → False) :
    first ('\'' :: rest) = some (takeToken '\'' rest) := by
  have notEscaped : escaped ('\'' :: rest) = none := by
    unfold escaped
    rw [opening, if_pos rfl]
    split
    · exact absurd rfl (alone _)
    · rfl
  have found : quotation ('\'' :: rest) = some (takeToken '\'' rest) := by
    unfold quotation takeToken
    rw [opening, if_pos rfl]
    simp only
    rcases takeQuoted rest with ⟨quoted, _ | more⟩ <;> rfl
  rw [first_eq, notEscaped, found]
  rfl

/-- Where the zeros are missing, the mark of an exponent is a letter. -/
theorem first_mark (rest : List Char) : first ('E' :: rest) = some (takeToken 'E' rest) := by
  have found : first ('E' :: rest) = (takeExponent? rest).or (some (.literal 'E', rest)) :=
    first_eq _
  rw [found]
  unfold takeToken
  cases takeExponent? rest <;> rfl

theorem symbol_or_literal (c : Char) (rest : List Char) :
    (symbol (c :: rest)).or (literal (c :: rest)) = some (single c, rest) := by
  unfold single
  split
  case h_7 percent permille minus separator group point =>
    simp [symbol, literal, symbols, List.lookup_cons, beq_eq_false_iff_ne.mpr percent,
      beq_eq_false_iff_ne.mpr permille, beq_eq_false_iff_ne.mpr minus,
      beq_eq_false_iff_ne.mpr separator, beq_eq_false_iff_ne.mpr group,
      beq_eq_false_iff_ne.mpr point]
  all_goals rfl

/-- Wherever there is text left, the ways to find a token agree with reading it. -/
theorem first_cons (c : Char) (rest : List Char) : first (c :: rest) = some (takeToken c rest) := by
  by_cases apostrophe : c = '\''
  · subst apostrophe
    by_cases pair : ∃ more, rest = '\'' :: more
    · rcases pair with ⟨more, rfl⟩
      rfl
    · exact first_apostrophe fun more same => pair ⟨more, same⟩
  by_cases letter : c = 'E'
  · subst letter
    exact first_mark rest
  unfold takeToken
  split
  · exact absurd rfl apostrophe
  · cases rest <;> rfl
  · rfl
  · rfl
  · rfl
  · exact absurd rfl letter
  · rename_i star sign hash ats _
    have unopened : first (c :: rest) =
        (required (c :: rest)).or ((symbol (c :: rest)).or (literal (c :: rest))) := by
      rw [first_eq, escaped, quotation, pad, currency, significant, optional, exponent]
      simp only [opening_other apostrophe, opening_other letter, opening_other star,
        opening_other sign, opening_other hash, opening_other ats, Option.none_or]
    rw [unopened, symbol_or_literal, required]
    split <;> rfl

end Finder

/-! ## Nothing gets lost -/

theorem takeQuoted_spelled (text : List Char) :
    text = doubled (takeQuoted text).1 ++ (match (takeQuoted text).2 with
      | some rest => '\'' :: rest
      | none => []) := by
  fun_induction takeQuoted text with
  | case1 => rfl
  | case2 rest ih =>
      rw [doubled_apostrophe, List.cons_append, List.cons_append, ← ih]
  | case3 rest => rfl
  | case4 c rest _ other ih =>
      rw [doubled_cons other, List.cons_append, ← ih]

theorem single_spelling {c : Char} (other : c ≠ '\'') : (single c).spelling = [c] := by
  unfold single
  split
  case h_7 => exact doubled_cons other []
  all_goals rfl

theorem takeExponent?_spelling {text rest : List Char} {token : Token}
    (taken : takeExponent? text = some (token, rest)) :
    token.spelling ++ rest = 'E' :: text := by
  have sign : text = (if (exponentSign text).1 then ['+'] else []) ++ (exponentSign text).2 := by
    unfold exponentSign
    split <;> rfl
  rw [takeExponent?_eq] at taken
  rcases exponentZeros?_eq_some taken with ⟨-, rfl, rfl⟩
  rw [Token.spelling, List.cons_append, List.append_assoc, replicate_append_dropWhile, ← sign]

/-- A token and what follows it make the text it was taken from. -/
theorem takeToken_spelling (c : Char) (rest : List Char) :
    (takeToken c rest).1.spelling ++ (takeToken c rest).2 = c :: rest := by
  unfold takeToken
  split
  · split
    · rfl
    · have spelled := takeQuoted_spelled rest
      split <;> rename_i read <;> rw [read] at spelled
      · rw [spelled, Token.spelling]
        simp only [List.cons_append, List.append_assoc, List.nil_append]
      · rw [spelled, Token.spelling]
        rfl
  · split <;> rfl
  · rw [Token.spelling, List.replicate_succ, List.cons_append, replicate_append_dropWhile]
  · rw [Token.spelling, List.replicate_succ, List.append_assoc, replicate_append_dropWhile,
      List.cons_append, replicate_append_dropWhile]
  · rw [Token.spelling, List.replicate_succ, List.cons_append, replicate_append_dropWhile]
  · cases taken : takeExponent? rest with
    | none => rfl
    | some pair => exact takeExponent?_spelling taken
  · rename_i apostrophe _ _ _ _ _
    split
    · rw [Token.spelling, List.cons_append, List.takeWhile_append_dropWhile]
    · rw [single_spelling apostrophe, List.singleton_append]

theorem spelling_tokens (text : List Char) : (tokens text).flatMap Token.spelling = text := by
  induction text using tokens_induction with
  | nil => rfl
  | cons c rest ih => rw [tokens_cons, List.flatMap_cons, ih, takeToken_spelling]

/-! ## Nothing is left -/

theorem repeated_tokens (text : List Char) : Repeated Finder.first text (tokens text) [] := by
  induction text using tokens_induction with
  | nil => exact .stop rfl
  | cons c rest ih =>
      rw [tokens_cons]
      exact .next (Finder.first_cons c rest) (Nat.lt_succ_of_le (takeToken_shorter c rest)) ih

/-- What is found again and again does not depend on anything but the text. -/
theorem Repeated.unique {finder : Finder} {text left other : List Char} {found others : List Token}
    (repeated : Repeated finder text found left) (again : Repeated finder text others other) :
    found = others ∧ left = other := by
  induction repeated generalizing others other with
  | stop none =>
      cases again with
      | stop => exact ⟨rfl, rfl⟩
      | next some => cases none.symm.trans some
  | next some _ _ ih =>
      cases again with
      | stop none => cases none.symm.trans some
      | next same _ later =>
          cases some.symm.trans same
          rcases ih later with ⟨rfl, rfl⟩
          exact ⟨rfl, rfl⟩

/--
However a pattern is taken apart into tokens found one after another, its tokens are what comes out
and nothing of it is left.  Their spellings make the pattern again.
-/
theorem repeated_iff_tokens (text : List Char) :
    (∀ found left, Repeated Finder.first text found left ↔ found = tokens text ∧ left = []) ∧
      (tokens text).flatMap Token.spelling = text := by
  refine ⟨?_, spelling_tokens text⟩
  intro found left
  constructor
  · intro repeated
    exact repeated.unique (repeated_tokens text)
  · rintro ⟨rfl, rfl⟩
    exact repeated_tokens text

end Pattern
end NumberFormat
