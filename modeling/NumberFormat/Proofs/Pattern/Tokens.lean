import Mathlib.Data.List.TakeWhile
import NumberFormat.Pattern.Token
import NumberFormat.Proofs.Binary64.Spelling

namespace NumberFormat
namespace Pattern

open Binary64 (Digits)
open Text

/-!
Tokens of patterns that are put together from parts.

A run stands for at least one character.  A number in the middle of a pattern has the same tokens
wherever it stands, as long as no character behind it goes on with its last run.
-/

namespace Token

/-- Whether a token stands for something written: no run is empty, and digits are digits. -/
def Genuine : Token → Prop
  | required digits => digits ≠ [] ∧ Digits digits
  | optional count => count ≠ 0
  | significant least _ => least ≠ 0
  | exponent digits _ => digits ≠ 0
  | _ => True

end Token

/-! ## What a token can be -/

/-- The sign behind the mark of an exponent, with what follows. -/
def exponentSign : List Char → Bool × List Char
  | '+' :: rest => (true, rest)
  | rest => (false, rest)

/-- The zeros of an exponent whose sign has been read, with what follows. -/
def exponentZeros? (plus : Bool) (text : List Char) : Option (Token × List Char) :=
  match text.takeWhile (· == '0') with
  | [] => none
  | run => some (.exponent run.length plus, text.dropWhile (· == '0'))

theorem takeExponent?_eq (text : List Char) :
    takeExponent? text = exponentZeros? (exponentSign text).1 (exponentSign text).2 :=
  rfl

theorem exponentZeros?_eq_some {plus : Bool} {text rest : List Char} {token : Token}
    (taken : exponentZeros? plus text = some (token, rest)) :
    text.takeWhile (· == '0') ≠ [] ∧
      token = .exponent (text.takeWhile (· == '0')).length plus ∧
      rest = text.dropWhile (· == '0') := by
  unfold exponentZeros? at taken
  split at taken
  · cases taken
  · rename_i nonempty
    cases taken
    exact ⟨nonempty, rfl, rfl⟩

theorem takeExponent?_genuine {text rest : List Char} {token : Token}
    (taken : takeExponent? text = some (token, rest)) : token.Genuine := by
  rw [takeExponent?_eq] at taken
  rcases exponentZeros?_eq_some taken with ⟨nonempty, rfl, -⟩
  exact mt List.eq_nil_of_length_eq_zero nonempty

theorem single_genuine (c : Char) : (single c).Genuine := by
  unfold single
  split <;> trivial

theorem takeToken_genuine (c : Char) (rest : List Char) : (takeToken c rest).1.Genuine := by
  unfold takeToken
  split
  · split
    · trivial
    · split <;> trivial
  · split <;> trivial
  · trivial
  · exact Nat.succ_ne_zero _
  · exact Nat.succ_ne_zero _
  · cases taken : takeExponent? rest with
    | none => trivial
    | some pair =>
        rcases pair with ⟨token, behind⟩
        exact takeExponent?_genuine taken
  · split
    · rename_i digit
      refine ⟨List.cons_ne_nil _ _, ?_⟩
      intro d member
      rcases List.mem_cons.mp member with rfl | later
      · exact digit
      · exact mem_takeWhile_imp later
    · exact single_genuine _

/-- Texts are taken apart token by token, each token leaving a shorter text. -/
theorem tokens_induction {motive : List Char → Prop} (nil : motive [])
    (cons : ∀ c rest, motive (takeToken c rest).2 → motive (c :: rest)) (text : List Char) :
    motive text := by
  generalize enough : text.length = count
  induction count using Nat.strongRecOn generalizing text with
  | ind count ih =>
      cases text with
      | nil => exact nil
      | cons c rest =>
          have shorter := takeToken_shorter c rest
          rw [List.length_cons] at enough
          exact cons c rest (ih _ (by omega) _ rfl)

theorem genuine_of_mem_tokens {text : List Char} {token : Token} (member : token ∈ tokens text) :
    token.Genuine := by
  induction text using tokens_induction with
  | nil => cases member
  | cons c rest ih =>
      rw [tokens_cons] at member
      rcases List.mem_cons.mp member with rfl | later
      · exact takeToken_genuine c rest
      · exact ih later

/-! ## Placeholders -/

/-- Whether a character may go on with a run. -/
def isRunCharacter (c : Char) : Bool :=
  c == '¤' || c == '@' || c == '#' || c.isDigit

theorem runStops {rest : List Char} (stop : StopsBefore isRunCharacter rest) :
    StopsBefore (· == '¤') rest ∧ StopsBefore (· == '@') rest ∧ StopsBefore (· == '#') rest ∧
      StopsBefore (· == '0') rest ∧ StopsBefore Char.isDigit rest := by
  have parts (c : Char) (other : isRunCharacter c = false) :
      (((c == '¤') = false ∧ (c == '@') = false) ∧ (c == '#') = false) ∧ c.isDigit = false := by
    simpa only [isRunCharacter, Bool.or_eq_false_iff] using other
  refine ⟨stop.mono ?_, stop.mono ?_, stop.mono ?_, stop.mono ?_, stop.mono ?_⟩
  · exact fun c other => (parts c other).1.1.1
  · exact fun c other => (parts c other).1.1.2
  · exact fun c other => (parts c other).1.2
  · intro c other
    rw [beq_eq_false_iff_ne]
    rintro rfl
    cases (parts _ other).2
  · exact fun c other => (parts c other).2

theorem exponentSign_append {text : List Char} (nonempty : text ≠ []) (rest : List Char) :
    exponentSign (text ++ rest) = ((exponentSign text).1, (exponentSign text).2 ++ rest) := by
  cases text with
  | nil => exact absurd rfl nonempty
  | cons c text =>
      by_cases plus : c = '+'
      · subst plus
        rfl
      · simp [exponentSign, plus]

theorem takeExponent?_append {text behind rest : List Char} {token : Token}
    (taken : takeExponent? text = some (token, behind)) (stop : StopsBefore (· == '0') rest) :
    takeExponent? (text ++ rest) = some (token, behind ++ rest) := by
  have nonempty : text ≠ [] := by
    rintro rfl
    cases taken
  rw [takeExponent?_eq] at taken
  rcases exponentZeros?_eq_some taken with ⟨zeros, rfl, rfl⟩
  rw [takeExponent?_eq, exponentSign_append nonempty, exponentZeros?,
    takeWhile_append_stop _ stop, dropWhile_append_stop _ stop]
  split
  · rename_i none
    exact absurd none zeros
  · rfl

/-- A placeholder is taken as before when text is put behind that does not go on with it. -/
theorem takeToken_append {c : Char} {text rest : List Char}
    (placeholder : (takeToken c text).1.isPlaceholder = true)
    (stop : StopsBefore isRunCharacter rest) :
    takeToken c (text ++ rest) = ((takeToken c text).1, (takeToken c text).2 ++ rest) := by
  rcases runStops stop with ⟨currency, atSign, hash, zero, digit⟩
  -- Apostrophes and pads make no placeholder, and of the other tokens only runs look ahead.
  unfold takeToken at placeholder ⊢
  split at placeholder
  · split at placeholder
    · cases placeholder
    · split at placeholder <;> cases placeholder
  · split at placeholder <;> cases placeholder
  · simp only [takeWhile_append_stop _ currency, dropWhile_append_stop _ currency]
  · simp only [takeWhile_append_stop _ atSign, dropWhile_append_stop _ atSign,
      takeWhile_append_stop _ hash, dropWhile_append_stop _ hash]
  · simp only [takeWhile_append_stop _ hash, dropWhile_append_stop _ hash]
  · cases taken : takeExponent? text with
    | none =>
        rw [taken] at placeholder
        cases placeholder
    | some pair =>
        rcases pair with ⟨token, behind⟩
        simp only [takeExponent?_append taken zero, Option.getD_some]
  · by_cases isDigit : c.isDigit = true
    · simp only [if_pos isDigit, takeWhile_append_stop _ digit, dropWhile_append_stop _ digit]
    · simp only [if_neg isDigit]

/-- A text of placeholders has its tokens wherever it stands. -/
theorem tokens_append {text rest : List Char}
    (placeholders : ∀ token ∈ tokens text, token.isPlaceholder = true)
    (stop : StopsBefore isRunCharacter rest) :
    tokens (text ++ rest) = tokens text ++ tokens rest := by
  induction text using tokens_induction with
  | nil => rfl
  | cons c text ih =>
      rw [tokens_cons] at placeholders
      have first := placeholders _ List.mem_cons_self
      have others := ih (fun token member => placeholders token (List.mem_cons_of_mem _ member))
      rw [List.cons_append, tokens_cons, tokens_cons, takeToken_append first stop, others,
        List.cons_append]

/-! ## Numbers -/

/-- The characters a number without exponent is written with. -/
def isNumeral (c : Char) : Bool :=
  c == '#' || c == ',' || c == '.' || c == '@' || c.isDigit

namespace Token

/-- The tokens of a number without exponent. -/
def isNumeral : Token → Bool
  | optional _ => true
  | required _ => true
  | significant _ _ => true
  | group => true
  | point => true
  | _ => false

theorem isPlaceholder_of_isNumeral {token : Token} (numeral : token.isNumeral = true) :
    token.isPlaceholder = true := by
  cases token <;> first | rfl | cases numeral

end Token

theorem takeToken_numeral {c : Char} (numeral : isNumeral c = true) (rest : List Char) :
    (takeToken c rest).1.isNumeral = true ∧ ∀ d ∈ (takeToken c rest).2, d ∈ rest := by
  have behind {kind : Char → Bool} {d : Char} {text : List Char}
      (member : d ∈ text.dropWhile kind) : d ∈ text :=
    (List.dropWhile_sublist kind).subset member
  simp only [isNumeral, Bool.or_eq_true, beq_iff_eq] at numeral
  rcases numeral with (((rfl | rfl) | rfl) | rfl) | digit
  · exact ⟨rfl, fun _ member => behind member⟩
  · exact ⟨rfl, fun _ member => member⟩
  · exact ⟨rfl, fun _ member => member⟩
  · exact ⟨rfl, fun _ member => behind (behind member)⟩
  · unfold takeToken
    split
    all_goals try cases digit
    rw [if_pos digit]
    exact ⟨rfl, fun _ member => behind member⟩

theorem numeral_of_mem_tokens {text : List Char} (numerals : ∀ c ∈ text, isNumeral c = true) :
    ∀ token ∈ tokens text, token.isNumeral = true := by
  induction text using tokens_induction with
  | nil =>
      intro token member
      cases member
  | cons c rest ih =>
      rcases takeToken_numeral (numerals c List.mem_cons_self) rest with ⟨first, inside⟩
      intro token member
      rw [tokens_cons] at member
      rcases List.mem_cons.mp member with rfl | later
      · exact first
      · exact ih (fun d behind => numerals d (List.mem_cons_of_mem _ (inside d behind))) token later

/-! ## Tokens around a mark -/

section

variable {mark : Token} {front : List Token} (absent : mark ∉ front) (back : List Token)

include absent

theorem ne_of_absent : ∀ token ∈ front, (token != mark) = true := by
  intro token member
  rw [bne_iff_ne]
  rintro rfl
  exact absent member

theorem takeWhile_mark : (front ++ mark :: back).takeWhile (· != mark) = front := by
  have ends : ¬(mark != mark) = true := by rw [bne_self_eq_false]; exact Bool.false_ne_true
  rw [List.takeWhile_append_of_pos (ne_of_absent absent), List.takeWhile_cons, if_neg ends,
    List.append_nil]

theorem dropWhile_mark : (front ++ mark :: back).dropWhile (· != mark) = mark :: back := by
  have ends : ¬(mark != mark) = true := by rw [bne_self_eq_false]; exact Bool.false_ne_true
  rw [List.dropWhile_append_of_pos (ne_of_absent absent), List.dropWhile_cons, if_neg ends]

theorem takeWhile_absent : front.takeWhile (· != mark) = front :=
  List.takeWhile_eq_self_iff.mpr (ne_of_absent absent)

theorem dropWhile_absent : front.dropWhile (· != mark) = [] :=
  List.dropWhile_eq_nil_iff.mpr (ne_of_absent absent)

end

end Pattern
end NumberFormat
