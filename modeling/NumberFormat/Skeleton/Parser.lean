import NumberFormat.Binary64.Literal
import NumberFormat.Diagnostic
import NumberFormat.Skeleton.Stem
import NumberFormat.Text.Blank

namespace NumberFormat

/-!
Reading skeleton text.

The text consists of words between blanks.  A word is a keyword and options, with a slash before
each option, and makes at most one setting.  What cannot be read is reported and leaves
the rest of the text unaffected.
-/

/-- What was read: a result and what was reported on the way. -/
structure Reported (α : Type) where
  result : α
  diagnostics : List Diagnostic
deriving DecidableEq

namespace Stem

/-- Options with slashes between them. -/
def joined (options : List (List Char)) : String :=
  String.ofList (['/'].intercalate options)

def isIdCharacter (c : Char) : Bool :=
  c.isLower || c.isDigit

/-- Whether a text is a unit id: lowercase letters and digits, in parts joined by hyphens. -/
def isUnitId (text : List Char) : Bool :=
  (text.splitOn '-').all (fun part => !part.isEmpty && part.all isIdCharacter)

/-- The finite number an option spells. -/
def finiteNumber? (option : List Char) : Option Binary64 :=
  (Binary64.read? option).filter Binary64.isFinite

/-- The setting an option asks for, if it has the form its keyword needs. -/
def Kind.setting? : Kind → List Char → Option Setting
  | currency, option =>
      if option.length = 3 ∧ option.all Char.isUpper then
        some (.unit (.currency (String.ofList option)))
      else none
  | measureUnit, option =>
      if isUnitId option then some (.unit (.measure (String.ofList option))) else none
  | perMeasureUnit, option =>
      if isUnitId option then some (.perUnit (String.ofList option)) else none
  | increment, option =>
      ((finiteNumber? option).filter Binary64.isPositive).map
        (fun step => .precision (.increment step))
  | integerWidth, option =>
      (Blueprint.width? option).map
        (fun counts => .integerWidth ⟨counts.1, counts.2, some (String.ofList option)⟩)
  | scale, option => (finiteNumber? option).map .scale
  | numberingSystem, option =>
      if 3 ≤ option.length ∧ option.length ≤ 8 ∧ option.all isIdCharacter then
        some (.numberingSystem (String.ofList option))
      else none

/-- What an option says about the exponent. -/
inductive PowerOption where
  | digits (count : Nat)
  | sign (sign : Sign)
deriving DecidableEq

namespace PowerOption

/-- A plus sign and one `e` for each exponent digit, or the keyword of a sign. -/
def read? : List Char → Option PowerOption
  | '+' :: marks =>
      if !marks.isEmpty && marks.all (· == 'e') then some (digits marks.length) else none
  | option => (Text.valueOf? Sign (String.ofList option)).map sign

def apply (style : ExponentStyle) : PowerOption → ExponentStyle
  | .digits count => { style with minDigits := some count }
  | .sign mark => { style with sign := some mark }

end PowerOption

/-- The exponent style of options each of which can be read. -/
def exponentStyle (options : List (List Char)) : ExponentStyle :=
  { (options.filterMap PowerOption.read?).foldl PowerOption.apply {} with
    source := if options.isEmpty then none else some (joined options) }

/-- How many options a blueprint of digits takes: one, if it counts fraction digits. -/
def digitOptions (bounds : DigitBounds) : Nat :=
  if bounds.boundsFraction then 1 else 0

/-- The bounds together with those the options add, or the option that cannot be read. -/
def withSignificant (keyword : List Char) (bounds : DigitBounds) :
    List (List Char) → Except (List Char) DigitBounds
  | [] => .ok { bounds with source := some (String.ofList keyword) }
  | option :: more =>
      match Blueprint.significant? option with
      | none => .error option
      | some counts => .ok { bounds with
          minSignificant := some counts.1
          maxSignificant := counts.2
          source := some (joined (keyword :: option :: more)) }

/-- The setting of a stem with its options, and what is wrong with them. -/
def setting (keyword : List Char) (options : List (List Char)) :
    Stem → Reported (Option Setting)
  | .plain choice =>
      match options with
      | [] => ⟨some choice, []⟩
      | first :: _ =>
          if choice = .form .simple then
            ⟨none, [.badOption (String.ofList keyword) (String.ofList first)]⟩
          else ⟨none, [.tooManyOptions (String.ofList keyword) (joined options)]⟩
  | .needing kind =>
      match options with
      | [] => ⟨none, [.missingOption (String.ofList keyword)]⟩
      | [option] =>
          match kind.setting? option with
          | some choice => ⟨some choice, []⟩
          | none => ⟨none, [.badOption (String.ofList keyword) (String.ofList option)]⟩
      | _ :: excess => ⟨none, [.tooManyOptions (String.ofList keyword) (joined excess)]⟩
  | .power kind =>
      if options.length ≤ 2 then
        match options.find? (fun option => (PowerOption.read? option).isNone) with
        | some bad => ⟨none, [.badOption (String.ofList keyword) (String.ofList bad)]⟩
        | none => ⟨some (.form (kind.form (exponentStyle options))), []⟩
      else ⟨none, [.tooManyOptions (String.ofList keyword) (joined (options.drop 2))]⟩
  | .digits bounds =>
      let excess := options.drop (digitOptions bounds)
      let report := if excess.isEmpty then []
        else [.tooManyOptions (String.ofList keyword) (joined excess)]
      match withSignificant keyword bounds (options.take (digitOptions bounds)) with
      | .ok bounds => ⟨some (.precision (.digits bounds)), report⟩
      | .error bad =>
          ⟨none, report ++ [.badOption (String.ofList keyword) (String.ofList bad)]⟩

end Stem

namespace Skeleton

/-- The setting one word makes, and what is wrong with the word. -/
def readWord (word : List Char) : Reported (Option Setting) :=
  let parts := word.splitOn '/'
  let keyword := parts.headD []
  match Stem.ofKeyword? keyword with
  | some stem => stem.setting keyword parts.tail
  | none => ⟨none, [.badStem (String.ofList keyword)]⟩

/-- The skeleton of a text, and what is wrong with the text. -/
def read (text : List Char) : Reported Skeleton :=
  let words := (Text.words text).map readWord
  ⟨ofSettings (words.filterMap Reported.result), words.flatMap Reported.diagnostics⟩

/-- Texts with a blank between them are read one by one, the second laid over the first. -/
theorem read_append_blank (left right : List Char) {c : Char} (blank : Text.isBlank c = true) :
    read (left ++ c :: right) =
      ⟨(read left).result.overlay (read right).result,
        (read left).diagnostics ++ (read right).diagnostics⟩ := by
  simp [read, Text.words_append_blank left right blank, ofSettings_append]

end Skeleton
end NumberFormat
