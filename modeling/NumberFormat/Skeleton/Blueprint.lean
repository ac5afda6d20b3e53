import NumberFormat.Skeleton.Basic

namespace NumberFormat

/-!
Blueprints: counts of digits spelled out as runs of characters.

A blueprint repeats a leading character once for each digit that is required.  Behind them it says
how many digits there may be: a `#` for each one more, or `+` or `*` for as many as it takes.
The width of the whole part is spelled the other way round, as its digits are, with the required
ones at the end.
-/

namespace Blueprint

/-- The least count and the largest count, none if there is no limit. -/
abbrev Counts : Type := Nat × Option Nat

/-- How many digits there may be beyond those required, none if there is no limit. -/
def beyond? : List Char → Option (Option Nat)
  | ['+'] => some none
  | ['*'] => some none
  | hashes => if hashes.all (· == '#') then some (some hashes.length) else none

/-- Required digits followed by what there may be beyond them. -/
def read? (lead : Char) (text : List Char) : Option Counts :=
  let required := (text.takeWhile (· == lead)).length
  (beyond? (text.dropWhile (· == lead))).map
    (fun further => (required, further.map (required + ·)))

/-- The counts as a blueprint.  A largest count below the least one is not written. -/
def written (lead : Char) (counts : Counts) : List Char :=
  List.replicate counts.1 lead ++
    (match counts.2 with
    | none => ['+']
    | some maximum => List.replicate (maximum - counts.1) '#')

theorem beyond?_hashes (count : Nat) : beyond? (List.replicate count '#') = some (some count) := by
  unfold beyond?
  split
  · rename_i plus
    cases count <;> simp [List.replicate_succ] at plus
  · rename_i star
    cases count <;> simp [List.replicate_succ] at star
  · simp

theorem split_run (lead : Char) (count : Nat) (further : List Char)
    (stop : ∀ c ∈ further.head?, c ≠ lead) :
    (List.replicate count lead ++ further).takeWhile (· == lead) = List.replicate count lead ∧
      (List.replicate count lead ++ further).dropWhile (· == lead) = further := by
  have required : ∀ c ∈ List.replicate count lead, (c == lead) = true := by
    intro c member
    simp [List.eq_of_mem_replicate member]
  rw [List.takeWhile_append_of_pos required, List.dropWhile_append_of_pos required]
  cases further with
  | nil => simp
  | cons c rest =>
      have other : (c == lead) = false := by simpa using stop c rfl
      simp [other]

/-- A written blueprint reads back as its counts. -/
theorem read?_written {lead : Char} (plus : '+' ≠ lead) (hash : '#' ≠ lead) (minimum : Nat)
    (maximum : Option Nat) (ordered : ∀ m ∈ maximum, minimum ≤ m) :
    read? lead (written lead (minimum, maximum)) = some (minimum, maximum) := by
  cases maximum with
  | none =>
      have run := split_run lead minimum ['+'] (by simpa using plus)
      simp [read?, written, run, beyond?]
  | some m =>
      have enough : minimum ≤ m := ordered m rfl
      have run := split_run lead minimum (List.replicate (m - minimum) '#')
        (by cases m - minimum <;> simp [List.replicate_succ, hash])
      simp only [read?, written, run, beyond?_hashes]
      simp
      omega

/-- Significant digits: `@` once for each one required, of which there is at least one. -/
def significant? (text : List Char) : Option Counts :=
  match read? '@' text with
  | some (minimum + 1, maximum) => some (minimum + 1, maximum)
  | _ => none

/-- A whole part: `+` or `*` and zeros without limit, or hashes and zeros, of which there is some. -/
def width? : List Char → Option Counts
  | [] => none
  | c :: rest =>
      if c = '+' ∨ c = '*' then
        if rest.all (· == '0') then some (rest.length, none) else none
      else
        let zeros := (c :: rest).dropWhile (· == '#')
        if zeros.all (· == '0') then some (zeros.length, some (c :: rest).length) else none

/-- The width of a whole part as a blueprint. -/
def width (counts : Counts) : List Char :=
  (match counts.2 with
    | none => ['+']
    | some maximum => List.replicate (maximum - counts.1) '#') ++ List.replicate counts.1 '0'

end Blueprint

namespace IntegerWidth

/-- The option text the width was read from, or a blueprint of it. -/
def sourceText (width : IntegerWidth) : String :=
  width.source.getD (String.ofList (Blueprint.width (width.min, width.max)))

end IntegerWidth

namespace DigitBounds

/--
The blueprint of the fraction bounds.  Without a least count there is always a largest one, so
that no bound appears which the bounds do not have.
-/
def fractionBlueprint (bounds : DigitBounds) : List Char :=
  '.' :: Blueprint.written '0' (match bounds.minFraction with
    | some minimum => (minimum, bounds.maxFraction)
    | none => (0, some (bounds.maxFraction.getD 0)))

/-- The blueprint of the significant bounds, which require one digit at least. -/
def significantBlueprint (bounds : DigitBounds) : List Char :=
  Blueprint.written '@' (Nat.max 1 (bounds.minSignificant.getD 1), bounds.maxSignificant)

/-- The blueprints of those bounds there are. -/
def blueprint (bounds : DigitBounds) : List Char :=
  match bounds.boundsFraction, bounds.boundsSignificant with
  | true, true => bounds.fractionBlueprint ++ '/' :: bounds.significantBlueprint
  | true, false => bounds.fractionBlueprint
  | false, true => bounds.significantBlueprint
  | false, false => []

/-- The stem text the bounds were read from, or their blueprints. -/
def sourceText (bounds : DigitBounds) : String :=
  bounds.source.getD (String.ofList bounds.blueprint)

end DigitBounds

namespace ExponentStyle

/-- The number of exponent digits as far as it asks for more than one. -/
def wideDigits (style : ExponentStyle) : Option Nat :=
  style.minDigits.filter (1 < ·)

/-- The sign of the exponent as far as it differs from the usual one. -/
def unusualSign (style : ExponentStyle) : Option Sign :=
  style.sign.filter (· ≠ .auto)

/-- Whether the exponent asks for anything beyond its usual form. -/
def isCustomized (style : ExponentStyle) : Bool :=
  style.wideDigits.isSome || style.unusualSign.isSome

/-- An option asking for this many exponent digits: `+` and one `e` for each of them. -/
def digitsOption (count : Nat) : String :=
  String.ofList ('+' :: List.replicate count 'e')

/-- The options that ask for the style's departures from the usual form. -/
def options (style : ExponentStyle) : List String :=
  (style.wideDigits.map digitsOption).toList ++
    (style.unusualSign.map Text.Vocabulary.word).toList

/-- The option text the style was read from, or its options. -/
def sourceText (style : ExponentStyle) : String :=
  style.source.getD (String.intercalate "/" style.options)

/-- What follows the stem when the skeleton is written. -/
def suffix (style : ExponentStyle) : String :=
  match style.source with
  | some source => "/" ++ source
  | none => String.join (style.options.map ("/" ++ ·))

end ExponentStyle
end NumberFormat
