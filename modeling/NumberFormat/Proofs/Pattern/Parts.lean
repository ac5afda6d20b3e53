import NumberFormat.Pattern.Reading
import NumberFormat.Proofs.Pattern.Tokens
import NumberFormat.Proofs.Sequence
import NumberFormat.Proofs.Skeleton.Choices

namespace NumberFormat
namespace Pattern

/-!
The parts a pattern is read in.

The units of both subpatterns, the number of the first one and the text around the numbers are read
one after another, and the first part that fails gives the error.  Text plays no part in units and
numbers, and placeholders play none in text.
-/

/-! ## Units -/

/-- The settings that tokens make on the unit, one token after another. -/
def units (currency : Option String) (tokens : List Token) : Except Error (List Setting) :=
  (tokens.mapM (unitSettings currency)).map List.flatten

theorem units_cons (currency : Option String) (token : Token) (tokens : List Token) :
    units currency (token :: tokens) = (do
      let first ← unitSettings currency token
      let others ← units currency tokens
      return first ++ others) := by
  unfold units
  rw [List.mapM_cons]
  cases unitSettings currency token with
  | error => rfl
  | ok first => cases tokens.mapM (unitSettings currency) <;> rfl

theorem unitSettings_text {token : Token} (text : token.isPlaceholder = false)
    (currency : Option String) : unitSettings currency token = .ok [] := by
  cases token <;> first | rfl | cases text

/-- The units of a pattern are those of its placeholders. -/
theorem units_filter (currency : Option String) (tokens : List Token) :
    units currency (tokens.filter Token.isPlaceholder) = units currency tokens := by
  induction tokens with
  | nil => rfl
  | cons token tokens ih =>
      cases placeholder : token.isPlaceholder with
      | true => rw [List.filter_cons_of_pos placeholder, units_cons, units_cons, ih]
      | false =>
          rw [List.filter_cons_of_neg (Bool.eq_false_iff.mp placeholder), ih, units_cons,
            unitSettings_text placeholder]
          cases units currency tokens <;> rfl

/-- What the number of currency signs in a row says about the width of the currency. -/
def currencyWidth? : Nat → Option (List Setting)
  | 1 => some []
  | 2 => some [.unitWidth .isoCode]
  | 3 => some [.unitWidth .fullName]
  | 5 => some [.unitWidth .narrow]
  | _ => none

theorem unitSettings_currency (currency : Option String) (count : Nat) :
    unitSettings currency (.currency count) =
      match currencyWidth? count, currency with
      | none, _ => .error (.currencyRun count)
      | some width, some code => .ok (.unit (.currency code) :: width)
      | some _, none => .error .missingCurrency := by
  unfold unitSettings
  dsimp only
  split
  · cases currency <;> rfl
  · cases currency <;> rfl
  · cases currency <;> rfl
  · cases currency <;> rfl
  · have unknown : currencyWidth? count = none := by
      unfold currencyWidth?
      split <;> first | contradiction | rfl
    rw [unknown]
    rfl

theorem width_of_mem_currencyWidth? {count : Nat} {settings : List Setting}
    (found : currencyWidth? count = some settings) {setting : Setting}
    (member : setting ∈ settings) : ∃ width, setting = .unitWidth width := by
  unfold currencyWidth? at found
  split at found
  · cases found
    cases member
  · cases found
    exact ⟨_, List.mem_singleton.mp member⟩
  · cases found
    exact ⟨_, List.mem_singleton.mp member⟩
  · cases found
    exact ⟨_, List.mem_singleton.mp member⟩
  · cases found

/-- The settings that a pattern can make on the unit, given the currency. -/
inductive UnitSetting (currency : Option String) : Setting → Prop where
  | currency {code : String} : currency = some code →
      UnitSetting currency (.unit (.currency code))
  | percent : UnitSetting currency (.unit .percent)
  | permille : UnitSetting currency (.unit .permille)
  | width (width : UnitWidth) : UnitSetting currency (.unitWidth width)

theorem unitSetting_of_mem {currency : Option String} {token : Token} {settings : List Setting}
    (read : unitSettings currency token = .ok settings) {setting : Setting}
    (member : setting ∈ settings) : UnitSetting currency setting := by
  cases token with
  | currency count =>
      rw [unitSettings_currency] at read
      split at read
      · cases read
      · rename_i width code known
        cases read
        rcases List.mem_cons.mp member with rfl | shown
        · exact .currency rfl
        · rcases width_of_mem_currencyWidth? known shown with ⟨width, rfl⟩
          exact .width width
      · cases read
  | percent =>
      cases read
      rw [List.mem_singleton.mp member]
      exact .percent
  | permille =>
      cases read
      rw [List.mem_singleton.mp member]
      exact .permille
  | _ =>
      cases read
      cases member

theorem unitSetting_of_mem_units {currency : Option String} {tokens : List Token}
    {settings : List Setting} (read : units currency tokens = .ok settings) {setting : Setting}
    (member : setting ∈ settings) : UnitSetting currency setting := by
  induction tokens generalizing settings with
  | nil =>
      cases read
      cases member
  | cons token tokens ih =>
      rw [units_cons] at read
      rcases exists_ok_of_bind read with ⟨first, firstRead, read⟩
      rcases exists_ok_of_bind read with ⟨others, othersRead, result⟩
      cases result
      rcases List.mem_append.mp member with front | back
      · exact unitSetting_of_mem firstRead front
      · exact ih othersRead back

/-! ## Numbers -/

theorem push_text {token : Token} (text : token.isPlaceholder = false) (run : NumberRun) :
    run.push token = .ok run := by
  cases token <;> first | rfl | cases text

/-- The number of a pattern is made of its placeholders. -/
theorem foldlM_push_filter (tokens : List Token) (run : NumberRun) :
    (tokens.filter Token.isPlaceholder).foldlM NumberRun.push run =
      tokens.foldlM NumberRun.push run := by
  induction tokens generalizing run with
  | nil => rfl
  | cons token tokens ih =>
      cases placeholder : token.isPlaceholder with
      | true =>
          rw [List.filter_cons_of_pos placeholder, List.foldlM_cons, List.foldlM_cons]
          exact congrArg _ (funext ih)
      | false =>
          rw [List.filter_cons_of_neg (Bool.eq_false_iff.mp placeholder), List.foldlM_cons,
            push_text placeholder, ih]
          rfl

theorem ofTokens_filter (tokens : List Token) :
    NumberRun.ofTokens (tokens.filter Token.isPlaceholder) = NumberRun.ofTokens tokens := by
  unfold NumberRun.ofTokens
  rw [foldlM_push_filter]

/-! ## The whole pattern -/

/-- What is read of a pattern; the text of the second subpattern only if there is one. -/
structure Parts where
  positiveUnits : List Setting
  negativeUnits : List Setting
  run : NumberRun
  positiveText : Surround
  negativeText : Option Surround

namespace Parts

def settings (parts : Parts) : List Setting :=
  parts.positiveUnits ++ parts.negativeUnits ++ parts.run.settings

/-- The skeleton of the parts, which shows no sign if there is text for numbers below zero. -/
def skeleton (parts : Parts) : Skeleton :=
  let chosen := Skeleton.ofSettings parts.settings
  match parts.negativeText with
  | none => { chosen with affix := affix parts.positiveText none }
  | some text => { chosen with sign := some .never, affix := affix parts.positiveText (some text) }

end Parts

/-- The parts that tokens are read in, given the text of the second subpattern. -/
structure ReadAs (currency : Option String) (tokens : List Token) (parts : Parts) : Prop where
  positiveUnits : units currency (positiveTokens tokens) = .ok parts.positiveUnits
  negativeUnits : units currency (negativeTokens tokens) = .ok parts.negativeUnits
  run : NumberRun.ofTokens (positiveTokens tokens) = .ok parts.run
  positiveText : surround .positive (positiveTokens tokens) = .ok parts.positiveText
  negativeText : ∃ text, surround .negative (negativeTokens tokens) = .ok text ∧
    parts.negativeText = if (negativeTokens tokens).isEmpty then none else some text

/-- A pattern is read part by part. -/
theorem ofTokens_eq (currency : Option String) (tokens : List Token) :
    ofTokens currency tokens = (do
      let positiveUnits ← units currency (positiveTokens tokens)
      let negativeUnits ← units currency (negativeTokens tokens)
      let run ← NumberRun.ofTokens (positiveTokens tokens)
      let positiveText ← surround .positive (positiveTokens tokens)
      let negativeText ← surround .negative (negativeTokens tokens)
      return Parts.skeleton ⟨positiveUnits, negativeUnits, run, positiveText,
        if (negativeTokens tokens).isEmpty then none else some negativeText⟩) := by
  unfold ofTokens units
  dsimp only
  cases (positiveTokens tokens).mapM (unitSettings currency) with
  | error => rfl
  | ok positiveUnits =>
  cases (negativeTokens tokens).mapM (unitSettings currency) with
  | error => rfl
  | ok negativeUnits =>
  cases NumberRun.ofTokens (positiveTokens tokens) with
  | error => rfl
  | ok run =>
  cases surround .positive (positiveTokens tokens) with
  | error => rfl
  | ok positiveText =>
  cases surround .negative (negativeTokens tokens) with
  | error => rfl
  | ok negativeText => cases (negativeTokens tokens).isEmpty <;> rfl

theorem ofTokens_of_readAs {currency : Option String} {tokens : List Token} {parts : Parts}
    (read : ReadAs currency tokens parts) : ofTokens currency tokens = .ok parts.skeleton := by
  rcases read.negativeText with ⟨text, negative, same⟩
  rw [ofTokens_eq, read.positiveUnits, read.negativeUnits, read.run, read.positiveText, negative]
  cases parts
  cases same
  rfl

theorem exists_readAs {currency : Option String} {tokens : List Token} {s : Skeleton}
    (read : ofTokens currency tokens = .ok s) :
    ∃ parts, ReadAs currency tokens parts ∧ s = parts.skeleton := by
  rw [ofTokens_eq] at read
  rcases exists_ok_of_bind read with ⟨positiveUnits, first, read⟩
  rcases exists_ok_of_bind read with ⟨negativeUnits, second, read⟩
  rcases exists_ok_of_bind read with ⟨run, third, read⟩
  rcases exists_ok_of_bind read with ⟨positiveText, fourth, read⟩
  rcases exists_ok_of_bind read with ⟨negativeText, fifth, result⟩
  cases result
  exact ⟨_, ⟨first, second, third, fourth, negativeText, fifth, rfl⟩, rfl⟩

theorem parts_of_no_separator {tokens : List Token} (one : .separator ∉ tokens) :
    positiveTokens tokens = tokens ∧ negativeTokens tokens = [] := by
  constructor
  · exact takeWhile_absent one
  · rw [negativeTokens, dropWhile_absent one, List.tail_nil]

theorem parts_at_separator {front : List Token} (one : .separator ∉ front) (behind : List Token) :
    positiveTokens (front ++ .separator :: behind) = front ∧
      negativeTokens (front ++ .separator :: behind) = behind := by
  constructor
  · exact takeWhile_mark one behind
  · rw [negativeTokens, dropWhile_mark one, List.tail_cons]

/-! ## Axes that patterns leave alone -/

/-- The axes a pattern can choose on. -/
def patternAxes : List Axis :=
  [.unit, .unitWidth, .grouping, .integerWidth, .precision, .form]

theorem axis_of_unitSetting {currency : Option String} {setting : Setting}
    (made : UnitSetting currency setting) : setting.axis ∈ patternAxes := by
  cases made <;> simp [patternAxes, Setting.axis]

theorem axis_of_mem_settings {run : NumberRun} {setting : Setting}
    (member : setting ∈ run.settings) : setting.axis ∈ patternAxes := by
  have made {α : Type} {choose : α → Setting} {value : Option α}
      (inside : setting ∈ (value.map choose).toList) : ∃ chosen, setting = choose chosen := by
    rw [Option.mem_toList, Option.map_eq_some_iff] at inside
    rcases inside with ⟨chosen, _, rfl⟩
    exact ⟨chosen, rfl⟩
  unfold NumberRun.settings at member
  simp only [List.mem_append] at member
  rcases member with ((grouping | width) | precision) | form
  · rcases made grouping with ⟨_, rfl⟩
    simp [patternAxes, Setting.axis]
  · rcases made width with ⟨_, rfl⟩
    simp [patternAxes, Setting.axis]
  · rcases made precision with ⟨_, rfl⟩
    simp [patternAxes, Setting.axis]
  · rcases made form with ⟨_, rfl⟩
    simp [patternAxes, Setting.axis]

/-- Settings of units and numbers leave the other axes open. -/
theorem choice?_eq_none {currency : Option String} {unitsMade : List Setting}
    (made : ∀ setting ∈ unitsMade, UnitSetting currency setting) (run : NumberRun) (axis : Axis)
    (foreign : axis ∉ patternAxes) :
    (Skeleton.ofSettings (unitsMade ++ run.settings)).choice? axis = none := by
  rw [Skeleton.choice?_ofSettings, List.getLast?_eq_none_iff, List.filter_eq_nil_iff]
  intro setting member
  rw [decide_eq_true_eq]
  rintro rfl
  rcases List.mem_append.mp member with unit | number
  · exact foreign (axis_of_unitSetting (made setting unit))
  · exact foreign (axis_of_mem_settings number)

end Pattern
end NumberFormat
