import NumberFormat.Proofs.Binary64.Range
import NumberFormat.Proofs.Pattern.Parts
import NumberFormat.Proofs.Pattern.Scan
import NumberFormat.Proofs.Skeleton.Blueprints

namespace NumberFormat
namespace Pattern

open Binary64 (Digits)
open Skeleton (IsCurrencyCode ReadsAs)

/-!
Skeletons of patterns as text.

What a pattern chooses has no text of its own, so it is written as blueprints.  Every one of them is
read without complaint, and the skeleton that is read shows every number as the pattern does.
-/

/-! ## What patterns choose -/

/-- The settings that the number of a pattern can make. -/
inductive NumberSetting : Setting → Prop where
  | grouping (grouping : Grouping) : NumberSetting (.grouping grouping)
  | integerWidth {least : Nat} {most : Option Nat} : 0 < least → (∀ m ∈ most, least ≤ m) →
      NumberSetting (.integerWidth ⟨least, most, none⟩)
  | fraction {least most : Nat} : least ≤ most →
      NumberSetting (.precision (.digits { minFraction := some least, maxFraction := some most }))
  | significant {least : Option Nat} {most : Nat} : 0 < most → (∀ n ∈ least, n ≤ most) →
      NumberSetting (.precision (.digits { minSignificant := least, maxSignificant := some most }))
  | increment {step : Binary64} : step.isFinite = true → step.isPositive = true →
      NumberSetting (.precision (.increment step))
  | scientific {style : ExponentStyle} : style.source = none →
      NumberSetting (.form (.scientific style))

theorem NumberSetting.readsAs {setting : Setting} (made : NumberSetting setting) :
    ReadsAs setting setting.reread := by
  cases made with
  | grouping grouping => exact Skeleton.readsAs_grouping grouping
  | integerWidth positive ordered => exact Skeleton.readsAs_integerWidth positive ordered
  | fraction ordered => exact Skeleton.readsAs_fraction ordered
  | significant positive ordered => exact Skeleton.readsAs_significant positive ordered
  | increment finite positive => exact Skeleton.readsAs_increment finite positive
  | scientific bare => exact Skeleton.readsAs_scientific bare

theorem UnitSetting.readsAs {currency : Option String}
    (valid : ∀ code ∈ currency, IsCurrencyCode code) {setting : Setting}
    (made : UnitSetting currency setting) : ReadsAs setting setting.reread := by
  cases made with
  | currency given => exact Skeleton.readsAs_currency (valid _ given)
  | percent => exact Skeleton.readsAs_plain (by decide) (by decide)
  | permille => exact Skeleton.readsAs_plain (by decide) (by decide)
  | width width => exact Skeleton.readsAs_unitWidth width

/-- What holds of a number of which not too many digits were required. -/
structure Sound (run : NumberRun) : Prop where
  significant : ∀ bounds ∈ run.significant, 0 < bounds.1 ∧ bounds.1 ≤ bounds.2
  digits : Digits (run.wholeDigits ++ run.fractionDigits)
  few : run.wholeDigits.length ≤ 308

/-- Significant digits that are asked for in a pattern are one at least. -/
theorem significant_summary {tokens : List Token} (genuine : ∀ token ∈ tokens, token.Genuine) :
    ∀ bounds ∈ (summary tokens).significant, 0 < bounds.1 ∧ bounds.1 ≤ bounds.2 := by
  intro bounds first
  rcases List.mem_filterMap.mp (List.mem_of_mem_head? first) with ⟨token, inside, same⟩
  cases token with
  | significant least further =>
      cases same
      exact ⟨Nat.pos_of_ne_zero (genuine _ inside), Nat.le_add_right _ _⟩
  | _ => cases same

theorem sound_summary {tokens : List Token} (genuine : ∀ token ∈ tokens, token.Genuine)
    (few : (summary tokens).wholeDigits.length ≤ 308) : Sound (summary tokens) := by
  refine ⟨significant_summary genuine, ?_, few⟩
  · rcases digits_summary genuine with ⟨whole, fraction⟩
    intro c member
    rcases List.mem_append.mp member with before | behind
    · exact whole c before
    · exact fraction c behind

theorem integerWidth_numberSetting (run : NumberRun) :
    ∀ width ∈ run.integerWidth, NumberSetting (.integerWidth width) := by
  intro width chosen
  have fixed {least : Nat} (positive : 0 < least) :
      NumberSetting (.integerWidth ⟨least, none, none⟩) :=
    .integerWidth positive nofun
  have upTo {most : Nat} (positive : 1 ≤ most) :
      NumberSetting (.integerWidth ⟨1, some most, none⟩) := by
    refine .integerWidth Nat.one_pos ?_
    intro m member
    cases member
    exact positive
  unfold NumberRun.integerWidth at chosen
  dsimp only at chosen
  split at chosen
  · split at chosen
    · rename_i several
      cases chosen
      exact fixed (Nat.lt_trans Nat.one_pos several)
    · cases chosen
  · split at chosen
    · cases chosen
      exact upTo (Nat.le_refl 1)
    · split at chosen
      · rename_i optional
        cases chosen
        exact upTo (Nat.le_trans optional (Nat.le_add_right _ _))
      · cases chosen
        exact fixed (Nat.le_max_left _ _)

/-- The bounds on digits that a number asks for. -/
def digitBounds (run : NumberRun) : DigitBounds :=
  match run.significant, run.exponent with
  | some (minimum, maximum), _ =>
      { minSignificant := some minimum, maxSignificant := some maximum }
  | none, some _ => run.mantissaBounds
  | none, none => run.fractionBounds

theorem mantissaBounds_numberSetting (run : NumberRun)
    (bounded : (run.mantissaBounds.boundsFraction || run.mantissaBounds.boundsSignificant) = true) :
    NumberSetting (.precision (.digits run.mantissaBounds)) := by
  unfold NumberRun.mantissaBounds at bounded ⊢
  dsimp only at bounded ⊢
  split at bounded
  · rename_i pointed
    rw [if_pos pointed]
    have some := Nat.le_max_left 1 (run.wholeDigits.length + run.fractionDigits.length)
    have all := Nat.le_max_right 1 (run.wholeDigits.length + run.fractionDigits.length)
    refine .significant (Nat.lt_of_lt_of_le some (Nat.le_add_right _ _)) ?_
    intro n member
    split at member
    · cases member
      exact Nat.le_trans all (Nat.le_add_right _ _)
    · cases member
  · rename_i pointless
    rw [if_neg pointless]
    split at bounded
    · rename_i positive
      rw [if_pos positive]
      exact .significant positive nofun
    · cases bounded

theorem fractionBounds_numberSetting (run : NumberRun)
    (bounded : (run.fractionBounds.boundsFraction || run.fractionBounds.boundsSignificant) = true) :
    NumberSetting (.precision (.digits run.fractionBounds)) := by
  unfold NumberRun.fractionBounds at bounded ⊢
  dsimp only at bounded ⊢
  split at bounded
  · cases bounded
  · rename_i some
    rw [if_neg some]
    exact .fraction (Nat.le_add_right _ _)

theorem bounds_numberSetting {run : NumberRun} (sound : Sound run)
    (bounded : ((digitBounds run).boundsFraction || (digitBounds run).boundsSignificant) = true) :
    NumberSetting (.precision (.digits (digitBounds run))) := by
  unfold digitBounds at bounded ⊢
  split at bounded
  · rename_i minimum maximum chosen
    rcases sound.significant _ chosen with ⟨positive, ordered⟩
    refine .significant (Nat.lt_of_lt_of_le positive ordered) ?_
    intro n member
    cases member
    exact ordered
  · exact mantissaBounds_numberSetting run bounded
  · exact fractionBounds_numberSetting run bounded

theorem precision_numberSetting {run : NumberRun} (sound : Sound run) :
    ∀ precision ∈ run.precision, NumberSetting (.precision precision) := by
  intro precision chosen
  have chosen : precision ∈ if run.increment.isPositive then some (.increment run.increment)
      else if (digitBounds run).boundsFraction || (digitBounds run).boundsSignificant then
        some (.digits (digitBounds run))
      else none := chosen
  split at chosen
  · rename_i positive
    cases chosen
    exact .increment (Binary64.isFinite_ofDecimal_written sound.digits sound.few) positive
  · split at chosen
    · rename_i bounded
      cases chosen
      exact bounds_numberSetting sound bounded
    · cases chosen

/-- Every setting of a number has an own text that it can be read from. -/
theorem numberSetting_of_mem {run : NumberRun} (sound : Sound run) {setting : Setting}
    (member : setting ∈ run.settings) : NumberSetting setting := by
  unfold NumberRun.settings at member
  simp only [List.mem_append, Option.mem_toList, Option.map_eq_some_iff] at member
  rcases member with ((⟨grouping, _, rfl⟩ | ⟨width, chosen, rfl⟩) | ⟨precision, chosen, rfl⟩) |
    ⟨form, chosen, rfl⟩
  · exact .grouping grouping
  · exact integerWidth_numberSetting run width chosen
  · exact precision_numberSetting sound precision chosen
  · rcases Option.map_eq_some_iff.mp chosen with ⟨exponent, _, rfl⟩
    exact .scientific rfl

theorem run_eq_summary {tokens : List Token} (genuine : ∀ token ∈ tokens, token.Genuine)
    {run : NumberRun} (read : NumberRun.ofTokens tokens = .ok run) : run = summary tokens := by
  unfold NumberRun.ofTokens at read
  rcases foldlM_push genuine with ⟨taken, _⟩ | ⟨e, failed, _⟩
  · rw [taken] at read
    rcases exists_ok_of_bind read with ⟨value, same, rest⟩
    cases same
    dsimp only at rest
    split at rest
    · cases rest
    · cases rest
      rfl
  · rw [failed] at read
    cases read

theorem mem_choices_skeleton {parts : Parts} {setting : Setting}
    (member : setting ∈ parts.skeleton.choices) :
    setting ∈ parts.settings ∨ setting = .sign .never := by
  rcases List.mem_filterMap.mp member with ⟨axis, listed, chosen⟩
  unfold Parts.skeleton at chosen
  dsimp only at chosen
  split at chosen
  · refine Or.inl (Skeleton.mem_of_mem_choices (List.mem_filterMap.mpr ⟨axis, listed, ?_⟩))
    rw [← chosen]
    cases axis <;> rfl
  · by_cases sign : axis = .sign
    · subst sign
      cases chosen
      exact Or.inr rfl
    · refine Or.inl (Skeleton.mem_of_mem_choices (List.mem_filterMap.mpr ⟨axis, listed, ?_⟩))
      rw [← chosen]
      cases axis <;> first | rfl | exact absurd rfl sign

/--
The skeleton of a pattern is written as text that is read without any report.  With the text around
numbers put back, what is read leaves out the same as the pattern does, and it shows every value
the same.
-/
theorem read_text_translated {currency : Option String} {text : List Char} {s : Skeleton}
    (valid : ∀ code ∈ currency, IsCurrencyCode code)
    (few : ((beforePoint (positiveTokens (tokens text))).flatMap Token.digits).length ≤ 308)
    (translated : read currency text = .ok s) :
    ∃ result, Skeleton.read s.text.toList = ⟨result, []⟩ ∧
      { result with affix := s.affix }.unsupported = s.unsupported ∧
      ∀ own locale value, { result with affix := s.affix }.formatted own locale value =
        s.formatted own locale value := by
  have reads : ∀ setting ∈ s.choices, ReadsAs setting setting.reread := by
    rcases exists_readAs translated with ⟨parts, readAs, rfl⟩
    have genuine : ∀ token ∈ positiveTokens (tokens text), token.Genuine :=
      fun token member => genuine_of_mem_tokens ((List.takeWhile_sublist _).subset member)
    have run := run_eq_summary genuine readAs.run
    have sound := sound_summary genuine few
    rw [← run] at sound
    intro setting member
    rcases mem_choices_skeleton member with chosen | rfl
    · rcases List.mem_append.mp chosen with unit | number
      · rcases List.mem_append.mp unit with positive | negative
        · exact (unitSetting_of_mem_units readAs.positiveUnits positive).readsAs valid
        · exact (unitSetting_of_mem_units readAs.negativeUnits negative).readsAs valid
      · exact (numberSetting_of_mem sound number).readsAs
    · exact Skeleton.readsAs_plain (by decide) (by decide)
  refine ⟨_, Skeleton.read_text_reread reads, s.unsupported_reread, ?_⟩
  intro own locale value
  exact s.formatted_reread own locale value

/-- Significant digits, an exponent and a currency are written out and read again. -/
theorem read_text_translated_exponent :
    (∀ code ∈ some "EUR", IsCurrencyCode code) ∧
      ∃ s result, read (some "EUR") "¤##0.#E+00".toList = .ok s ∧
        s.text = "currency/EUR integer-width/##0 @# scientific/+ee/sign-always" ∧
        Skeleton.read s.text.toList = ⟨result, []⟩ ∧
        { result with affix := s.affix }.unsupported = s.unsupported ∧
        ∀ own locale value, { result with affix := s.affix }.formatted own locale value =
          s.formatted own locale value := by
  have valid : ∀ code ∈ some "EUR", IsCurrencyCode code := by
    intro code given
    cases given
    exact ⟨by decide, by decide⟩
  have few : ((beforePoint (positiveTokens (tokens "¤##0.#E+00".toList))).flatMap
      Token.digits).length ≤ 308 := by decide
  have written : (read (some "EUR") "¤##0.#E+00".toList).toOption.map Skeleton.text =
      some "currency/EUR integer-width/##0 @# scientific/+ee/sign-always" := by decide +kernel
  cases translated : read (some "EUR") "¤##0.#E+00".toList with
  | error e =>
      rw [translated] at written
      cases written
  | ok s =>
      rw [translated] at written
      rcases read_text_translated valid few translated with ⟨result, again, reports, shown⟩
      exact ⟨valid, s, result, rfl, Option.some.inj written, again, reports, shown⟩

end Pattern
end NumberFormat
