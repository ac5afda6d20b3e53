import NumberFormat.Json.Parser
import NumberFormat.Json.Printer

namespace NumberFormat
namespace Json

/-!
The grammar of JSON strings, and that the reader accepts exactly what it derives.

Every character of a string has a spelling of its own, so a string is read character by character
and the quotation mark that closes it cannot be mistaken for one inside.
-/

/-! ## The grammar -/

/-- The ways for a character to stand inside a string. -/
inductive CharSpelling : Char → List Char → Prop where
  | plain {c : Char} : 0x20 ≤ c.toNat → c ≠ '"' → c ≠ '\\' → CharSpelling c [c]
  | short {c letter : Char} : unescaped? letter = some c → CharSpelling c ['\\', letter]
  | unit {a b c d : Char} {unit : Nat} : codeUnit? a b c d = some unit →
      opensPair unit = false → closesPair unit = false →
      CharSpelling (Char.ofNat unit) ['\\', 'u', a, b, c, d]
  | pair {a b c d e f g h : Char} {first second : Nat} : codeUnit? a b c d = some first →
      opensPair first = true → codeUnit? e f g h = some second → closesPair second = true →
      CharSpelling (Char.ofNat (0x10000 + (first - 0xD800) * 0x400 + (second - 0xDC00)))
        ['\\', 'u', a, b, c, d, '\\', 'u', e, f, g, h]

/-- The spellings of characters one behind the other. -/
inductive CharsSpelling : List Char → List Char → Prop where
  | nil : CharsSpelling [] []
  | cons {c : Char} {chars first rest : List Char} : CharSpelling c first →
      CharsSpelling chars rest → CharsSpelling (c :: chars) (first ++ rest)

/-- A string between quotation marks. -/
inductive StringSpelling : String → List Char → Prop where
  | quoted {chars inner : List Char} : CharsSpelling chars inner →
      StringSpelling (String.ofList chars) ('"' :: (inner ++ ['"']))

/-! ## Reading -/

/-- A spelled character is read and the rest of the string goes on behind it. -/
theorem takeString?_char {c : Char} {first : List Char} (spelled : CharSpelling c first)
    (text : List Char) :
    takeString? (first ++ text) =
      (takeString? text).bind (fun read => some (c :: read.1, read.2)) := by
  cases spelled with
  | plain printable noQuote noSlash =>
      rw [List.singleton_append, takeString?, if_neg (Nat.not_lt_of_ge printable)]
      · rfl
      · exact noQuote
      · intro _ _ _ _ _ same
        exact absurd same noSlash
      · intro _ _ same
        exact absurd same noSlash
  | @short c letter escape =>
      have other : letter ≠ 'u' := by
        rintro rfl
        cases escape
      rw [List.cons_append, List.singleton_append, takeString?, escape]
      · rfl
      · intro _ _ _ _ _ same
        exact absurd same other
  | unit digits noOpen noClose =>
      simp only [List.cons_append, List.nil_append]
      rw [takeString?, digits, Option.bind_eq_bind, Option.bind_some, noOpen, noClose]
      rfl
  | pair digits opened more closed =>
      simp only [List.cons_append, List.nil_append]
      rw [takeString?, digits, Option.bind_eq_bind, Option.bind_some, opened, if_pos rfl]
      simp only [more, Option.bind_some, closed, if_true]
      rfl

theorem takeString?_append {chars inner : List Char} (spelled : CharsSpelling chars inner)
    (rest : List Char) : takeString? (inner ++ '"' :: rest) = some (chars, rest) := by
  induction spelled with
  | nil => rw [List.nil_append, takeString?]
  | cons first _ ih => rw [List.append_assoc, takeString?_char first, ih, Option.bind_some]

theorem takeString?_eq_some {text chars rest : List Char}
    (taken : takeString? text = some (chars, rest)) :
    ∃ inner, text = inner ++ '"' :: rest ∧ CharsSpelling chars inner := by
  fun_induction takeString? text generalizing chars rest with
  | case1 => cases taken
  | case2 tail =>
      cases taken
      exact ⟨[], rfl, .nil⟩
  | case3 a b c d tail ihPair ihUnit =>
      simp only [Option.bind_eq_bind, Option.bind_eq_some_iff] at taken
      rcases taken with ⟨unit, digits, taken⟩
      by_cases opened : opensPair unit = true
      · rw [if_pos opened] at taken
        split at taken
        · rcases Option.bind_eq_some_iff.mp taken with ⟨second, more, taken⟩
          by_cases closed : closesPair second = true
          · rw [if_pos closed] at taken
            rcases Option.bind_eq_some_iff.mp taken with ⟨⟨others, last⟩, read, result⟩
            cases result
            rcases ihPair read with ⟨inner, split, spelled⟩
            exact ⟨_, by rw [split]; rfl, .cons (.pair digits opened more closed) spelled⟩
          · rw [if_neg closed] at taken
            cases taken
        · cases taken
      · rw [if_neg opened] at taken
        by_cases closed : closesPair unit = true
        · rw [if_pos closed] at taken
          cases taken
        · rw [if_neg closed] at taken
          rcases Option.bind_eq_some_iff.mp taken with ⟨⟨others, last⟩, read, result⟩
          cases result
          rcases ihUnit read with ⟨inner, split, spelled⟩
          have alone := CharSpelling.unit digits (Bool.eq_false_iff.mpr opened)
            (Bool.eq_false_iff.mpr closed)
          exact ⟨_, by rw [split]; rfl, .cons alone spelled⟩
  | case4 letter tail _ ih =>
      simp only [Option.bind_eq_bind, Option.bind_eq_some_iff] at taken
      rcases taken with ⟨plain, escape, ⟨others, last⟩, read, result⟩
      cases result
      rcases ih read with ⟨inner, split, spelled⟩
      exact ⟨_, by rw [split]; rfl, .cons (.short escape) spelled⟩
  | case5 => cases taken
  | case6 c tail noQuote _ noEscape printable ih =>
      simp only [Option.bind_eq_bind, Option.bind_eq_some_iff] at taken
      rcases taken with ⟨⟨others, last⟩, read, result⟩
      cases result
      rcases ih read with ⟨inner, split, spelled⟩
      have noSlash : c ≠ '\\' := by
        intro same
        cases tail with
        | nil => cases read
        | cons letter more => exact noEscape letter more same rfl
      have alone := CharSpelling.plain (Nat.le_of_not_lt printable) noQuote noSlash
      exact ⟨_, by rw [split]; rfl, .cons alone spelled⟩

end Json
end NumberFormat
