namespace NumberFormat
namespace Pattern

/-!
The tokens of decimal patterns such as `#,##0.00;(#)`.

Some characters have a meaning of their own, alone or in runs; every other character stands for
itself.  Text between apostrophes stands for itself whatever its characters are, and a pair of
apostrophes stands for one apostrophe inside such text as well as outside.  A token is always
the longest one, so two runs of one character never follow each other.
-/

inductive Token where
  | literal (c : Char)
  | quoted (text : List Char)
  | unterminated (text : List Char)
  | pad (c : Char)
  | currency (count : Nat)
  | percent
  | permille
  | minus
  | separator
  | optional (count : Nat)
  | required (digits : List Char)
  | significant (required further : Nat)
  | group
  | point
  | exponent (digits : Nat) (plus : Bool)
deriving DecidableEq

namespace Token

/-- Whether the token belongs to the number or stands for a symbol next to it. -/
def isPlaceholder : Token → Bool
  | literal _ => false
  | quoted _ => false
  | unterminated _ => false
  | pad _ => false
  | minus => false
  | separator => false
  | _ => true

end Token

/--
The text behind an opening apostrophe and what follows the closing one, or nothing if there is
no closing one.
-/
def takeQuoted : List Char → List Char × Option (List Char)
  | [] => ([], none)
  | '\'' :: '\'' :: rest => ('\'' :: (takeQuoted rest).1, (takeQuoted rest).2)
  | '\'' :: rest => ([], some rest)
  | c :: rest => (c :: (takeQuoted rest).1, (takeQuoted rest).2)

/-- The exponent behind its mark, with what follows; it has one zero at least. -/
def takeExponent? (text : List Char) : Option (Token × List Char) :=
  let (plus, zeros) := match text with
    | '+' :: rest => (true, rest)
    | rest => (false, rest)
  match zeros.takeWhile (· == '0') with
  | [] => none
  | run => some (.exponent run.length plus, zeros.dropWhile (· == '0'))

/-- What a character means that stands alone. -/
def single (c : Char) : Token :=
  match c with
  | '%' => .percent
  | '‰' => .permille
  | '-' => .minus
  | ';' => .separator
  | ',' => .group
  | '.' => .point
  | c => .literal c

/-- The first token of a text that opens with `c`, and what follows the token. -/
def takeToken (c : Char) (rest : List Char) : Token × List Char :=
  match c with
  | '\'' =>
      match rest with
      | '\'' :: rest => (.literal '\'', rest)
      | rest =>
          match takeQuoted rest with
          | (text, some rest) => (.quoted text, rest)
          | (text, none) => (.unterminated text, [])
  | '*' =>
      match rest with
      | [] => (.literal '*', [])
      | filler :: rest => (.pad filler, rest)
  | '¤' => (.currency ((rest.takeWhile (· == '¤')).length + 1), rest.dropWhile (· == '¤'))
  | '@' =>
      let further := rest.dropWhile (· == '@')
      (.significant ((rest.takeWhile (· == '@')).length + 1) (further.takeWhile (· == '#')).length,
        further.dropWhile (· == '#'))
  | '#' => (.optional ((rest.takeWhile (· == '#')).length + 1), rest.dropWhile (· == '#'))
  | 'E' => (takeExponent? rest).getD (.literal 'E', rest)
  | c =>
      if c.isDigit then (.required (c :: rest.takeWhile Char.isDigit), rest.dropWhile Char.isDigit)
      else (single c, rest)

/-- The tokens of a text within a budget of as many tokens. -/
def tokensWithin : (budget : Nat) → List Char → List Token
  | 0, _ => []
  | _, [] => []
  | budget + 1, c :: rest => (takeToken c rest).1 :: tokensWithin budget (takeToken c rest).2

/-- The tokens of a pattern.  There are no more of them than characters. -/
def tokens (text : List Char) : List Token :=
  tokensWithin text.length text

theorem takeQuoted_shorter (text : List Char) :
    ∀ rest ∈ (takeQuoted text).2, rest.length < text.length := by
  fun_induction takeQuoted text with
  | case1 => simp
  | case2 rest ih =>
      intro tail member
      have inner := ih tail member
      simp only [List.length_cons]
      omega
  | case3 rest => simp
  | case4 c rest _ _ ih =>
      intro tail member
      have inner := ih tail member
      simp only [List.length_cons]
      omega

theorem dropWhile_shorter (p : Char → Bool) (text : List Char) :
    (text.dropWhile p).length ≤ text.length :=
  (List.dropWhile_sublist p).length_le

/-- A token takes at least the character it opens with. -/
theorem takeToken_shorter (c : Char) (rest : List Char) :
    (takeToken c rest).2.length ≤ rest.length := by
  unfold takeToken
  split
  · split
    · simp
    · split
      · rename_i read
        have inner := takeQuoted_shorter rest _ (by rw [read]; rfl)
        exact Nat.le_of_lt inner
      · simp
  · split <;> simp
  · exact dropWhile_shorter _ _
  · exact Nat.le_trans (dropWhile_shorter _ _) (dropWhile_shorter _ _)
  · exact dropWhile_shorter _ _
  · unfold takeExponent?
    dsimp only
    split
    · simp
    · refine Nat.le_trans (dropWhile_shorter _ _) ?_
      split <;> simp
  · split
    · exact dropWhile_shorter _ _
    · simp

/-- Two budgets that are large enough give the same tokens. -/
theorem tokensWithin_eq {budget other : Nat} {text : List Char} (enough : text.length ≤ budget)
    (enoughToo : text.length ≤ other) : tokensWithin budget text = tokensWithin other text := by
  induction budget generalizing other text with
  | zero =>
      have empty : text = [] := List.length_eq_zero_iff.mp (Nat.le_zero.mp enough)
      cases other <;> simp [empty, tokensWithin]
  | succ budget ih =>
      cases text with
      | nil => cases other <;> simp [tokensWithin]
      | cons c rest =>
          cases other with
          | zero => simp at enoughToo
          | succ other =>
              have shorter := takeToken_shorter c rest
              simp only [List.length_cons] at enough enoughToo
              rw [tokensWithin, tokensWithin]
              exact congrArg _ (ih (by omega) (by omega))

@[simp] theorem tokens_nil : tokens [] = [] :=
  rfl

theorem tokens_cons (c : Char) (rest : List Char) :
    tokens (c :: rest) = (takeToken c rest).1 :: tokens (takeToken c rest).2 := by
  rw [tokens, List.length_cons, tokensWithin, tokens,
    tokensWithin_eq (takeToken_shorter c rest) (Nat.le_refl _)]

end Pattern
end NumberFormat
