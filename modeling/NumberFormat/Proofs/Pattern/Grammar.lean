import NumberFormat.Proofs.Binary64.Range
import NumberFormat.Proofs.Pattern.Parts
import NumberFormat.Proofs.Pattern.Scan

namespace NumberFormat
namespace Pattern

open Binary64 (Digits)

/-!
The grammar of patterns.

Which patterns can be read is a matter of which tokens they have and how these stand to one
another, and not of the order in which they are looked at.  What is wrong with the units is told
before what is wrong with the number, and an open quotation comes last.
-/

/-! ## Units -/

/-- Currency signs stand in runs of one, two, three or five, and only if there is a currency. -/
def UnitGrammar (currency : Option String) (tokens : List Token) : Prop :=
  ∀ count, .currency count ∈ tokens →
    (count = 1 ∨ count = 2 ∨ count = 3 ∨ count = 5) ∧ currency ≠ none

/-- The error that tells what is wrong with units. -/
inductive UnitFlaw (currency : Option String) (tokens : List Token) : Error → Prop where
  | currencyRun {count : Nat} : .currency count ∈ tokens →
      ¬(count = 1 ∨ count = 2 ∨ count = 3 ∨ count = 5) →
      UnitFlaw currency tokens (.currencyRun count)
  | missingCurrency {count : Nat} : .currency count ∈ tokens → currency = none →
      UnitFlaw currency tokens .missingCurrency

theorem UnitGrammar.not_flaw {currency : Option String} {tokens : List Token}
    (grammar : UnitGrammar currency tokens) {e : Error} : ¬UnitFlaw currency tokens e := by
  intro flaw
  cases flaw with
  | currencyRun member wrong => exact wrong (grammar _ member).1
  | missingCurrency member missing => exact (grammar _ member).2 missing

theorem UnitFlaw.mono {currency : Option String} {tokens others : List Token} {e : Error}
    (flaw : UnitFlaw currency tokens e) (inside : ∀ token ∈ tokens, token ∈ others) :
    UnitFlaw currency others e := by
  cases flaw with
  | currencyRun member wrong => exact .currencyRun (inside _ member) wrong
  | missingCurrency member missing => exact .missingCurrency (inside _ member) missing

theorem currencyWidth?_isSome (count : Nat) :
    (currencyWidth? count).isSome = true ↔ count = 1 ∨ count = 2 ∨ count = 3 ∨ count = 5 := by
  unfold currencyWidth?
  split <;> simp_all

theorem unitSettings_decides (currency : Option String) (token : Token) :
    Decides (unitSettings currency token) (UnitGrammar currency [token])
      (UnitFlaw currency [token]) := by
  cases token with
  | currency count =>
      have member : Token.currency count ∈ [Token.currency count] := List.mem_cons_self
      have runs := currencyWidth?_isSome count
      have made := unitSettings_currency currency count
      cases width : currencyWidth? count with
      | none =>
          rw [width] at made runs
          exact .rejected made (.currencyRun member (fun few => nomatch runs.mpr few))
      | some settings =>
          rw [width] at made runs
          cases given : currency with
          | none =>
              rw [given] at made
              exact .rejected made (.missingCurrency member rfl)
          | some code =>
              rw [given] at made
              refine .accepted made ?_
              intro other single
              cases List.mem_singleton.mp single
              exact ⟨runs.mp rfl, nofun⟩
  | _ =>
      refine .accepted rfl ?_
      intro count member
      cases List.mem_singleton.mp member

theorem unitGrammar_cons {currency : Option String} {token : Token} {tokens : List Token}
    (first : UnitGrammar currency [token]) (others : UnitGrammar currency tokens) :
    UnitGrammar currency (token :: tokens) := by
  intro count member
  rcases List.mem_cons.mp member with rfl | later
  · exact first count List.mem_cons_self
  · exact others count later

/-- The units of tokens are read as the grammar allows them. -/
theorem units_decides (currency : Option String) (tokens : List Token) :
    Decides (units currency tokens) (UnitGrammar currency tokens) (UnitFlaw currency tokens) := by
  induction tokens with
  | nil => exact .accepted rfl (fun _ member => absurd member List.not_mem_nil)
  | cons token tokens ih =>
      rw [units_cons]
      refine ((unitSettings_decides currency token).bind
        (fun first => ih.bind (fun others => .pure (first ++ others)))).mono ?_ ?_
      · rintro ⟨first, others, _⟩
        exact unitGrammar_cons first others
      · rintro e (wrong | ⟨_, wrong | ⟨_, wrong⟩⟩)
        · refine wrong.mono (fun other member => ?_)
          rw [List.mem_singleton.mp member]
          exact List.mem_cons_self
        · exact wrong.mono (fun other member => List.mem_cons_of_mem _ member)
        · exact wrong.elim

/-! ## Numbers -/

/-- Significant digits stand with no required digit but zeros before the point. -/
def Unrounded (tokens : List Token) : Prop :=
  (∀ token ∈ behindPoint tokens, token.digits = []) ∧
    ∀ token ∈ beforePoint tokens, ∀ c ∈ token.digits, c = '0'

/-- The tokens of a number are in order, and its precision is asked for in one way only. -/
structure NumberGrammar (tokens : List Token) : Prop where
  orderly : Orderly tokens
  unrounded : precisions tokens ≠ [] → Unrounded tokens

/-- The error that tells what is wrong with a number. -/
inductive NumberFlaw (tokens : List Token) : Error → Prop where
  | disorder {e : Error} : Disorder tokens e → NumberFlaw tokens e
  | severalPrecisions : precisions tokens ≠ [] → ¬Unrounded tokens →
      NumberFlaw tokens .severalPrecisions

theorem NumberGrammar.not_flaw {tokens : List Token} (grammar : NumberGrammar tokens) {e : Error} :
    ¬NumberFlaw tokens e := by
  intro flaw
  cases flaw with
  | disorder wrong => exact grammar.orderly.not_disorder wrong
  | severalPrecisions chosen rounded => exact rounded (grammar.unrounded chosen)

/-- Without required digits behind the point, those before it are the increment. -/
theorem isPositive_increment {run : NumberRun} (all : Digits run.wholeDigits)
    (whole : run.fractionDigits = []) :
    run.increment.isPositive = true ↔ ¬∀ c ∈ run.wholeDigits, c = '0' := by
  have decimal : Binary64.decimalOf run.wholeDigits run.fractionDigits 0 =
      Decimal.scaled (Nat.ofDigitChars 10 run.wholeDigits 0) 0 := by
    rw [whole, Binary64.decimalOf, List.append_nil]
    rfl
  rw [NumberRun.increment, decimal, Binary64.isPositive_ofDecimal_whole]
  exact not_congr (Decimal.ofDigitChars_eq_zero all)

theorem conflicting_summary {tokens : List Token} (genuine : ∀ token ∈ tokens, token.Genuine) :
    (summary tokens).conflicting = true ↔ precisions tokens ≠ [] ∧ ¬Unrounded tokens := by
  have chosen : (summary tokens).significant.isSome = true ↔ precisions tokens ≠ [] :=
    List.isSome_head?
  have behind : (summary tokens).fractionDigits = [] ↔
      ∀ token ∈ behindPoint tokens, token.digits = [] := List.flatMap_eq_nil_iff
  have before : (∀ c ∈ (summary tokens).wholeDigits, c = '0') ↔
      ∀ token ∈ beforePoint tokens, ∀ c ∈ token.digits, c = '0' := by
    simp only [summary, List.mem_flatMap]
    exact ⟨fun zeros token inside c digit => zeros c ⟨token, inside, digit⟩,
      fun zeros c found => Exists.elim found fun token inside => zeros token inside.1 c inside.2⟩
  have all : Digits (summary tokens).wholeDigits := (digits_summary genuine).1
  rw [NumberRun.conflicting, Bool.and_eq_true, chosen, Bool.or_eq_true, Unrounded, ← behind,
    ← before]
  refine and_congr_right (fun _ => ?_)
  by_cases whole : (summary tokens).fractionDigits = []
  · rw [isPositive_increment all whole]
    simp [whole]
  · simp [whole]

/-- The number of a pattern is read as the grammar allows it. -/
theorem ofTokens_decides {tokens : List Token} (genuine : ∀ token ∈ tokens, token.Genuine) :
    Decides (NumberRun.ofTokens tokens) (NumberGrammar tokens) (NumberFlaw tokens) := by
  unfold NumberRun.ofTokens
  rcases foldlM_push genuine with ⟨read, orderly⟩ | ⟨e, failed, disorder⟩
  · rw [read]
    cases conflict : (summary tokens).conflicting with
    | true =>
        have both := (conflicting_summary genuine).mp conflict
        refine .rejected ?_ (.severalPrecisions both.1 both.2)
        exact if_pos conflict
    | false =>
        have notBoth := mt (conflicting_summary genuine).mpr (Bool.eq_false_iff.mp conflict)
        refine .accepted (if_neg (Bool.eq_false_iff.mp conflict)) ⟨orderly, ?_⟩
        intro chosen
        exact Classical.not_not.mp (fun rounded => notBoth ⟨chosen, rounded⟩)
  · rw [failed]
    exact .rejected rfl (.disorder disorder)

/-! ## Quoted text -/

/-- Every quotation that is opened is closed. -/
def QuoteGrammar (tokens : List Token) : Prop :=
  ∀ text, .unterminated text ∉ tokens

/-- The error that shows an open quotation. -/
inductive QuoteFlaw (tokens : List Token) : Error → Prop where
  | unterminatedQuote {text : List Char} : .unterminated text ∈ tokens →
      QuoteFlaw tokens (.unterminatedQuote (String.ofList text))

theorem QuoteGrammar.not_flaw {tokens : List Token} (grammar : QuoteGrammar tokens) {e : Error} :
    ¬QuoteFlaw tokens e := by
  intro flaw
  cases flaw with
  | unterminatedQuote member => exact grammar _ member

theorem unterminated?_eq_some {token : Token} {text : List Char}
    (found : unterminated? token = some text) : token = .unterminated text := by
  cases token with
  | unterminated text =>
      cases found
      rfl
  | _ => cases found

theorem surround_decides (side : Side) (tokens : List Token) :
    Decides (surround side tokens) (QuoteGrammar tokens) (QuoteFlaw tokens) := by
  unfold surround
  cases found : tokens.findSome? unterminated? with
  | none =>
      refine .accepted rfl ?_
      intro text member
      cases List.findSome?_eq_none_iff.mp found _ member
  | some text =>
      rcases List.exists_of_findSome?_eq_some found with ⟨token, member, same⟩
      rw [unterminated?_eq_some same] at member
      exact .rejected rfl (.unterminatedQuote member)

/-! ## Whole patterns -/

/-- The grammar of a pattern's tokens. -/
structure Grammar (currency : Option String) (tokens : List Token) : Prop where
  positiveUnits : UnitGrammar currency (positiveTokens tokens)
  negativeUnits : UnitGrammar currency (negativeTokens tokens)
  number : NumberGrammar (positiveTokens tokens)
  quotes : QuoteGrammar tokens

/-- The error that tells of the first thing that is wrong with a pattern. -/
inductive FirstFlaw (currency : Option String) (tokens : List Token) : Error → Prop where
  | positiveUnits {e : Error} : UnitFlaw currency (positiveTokens tokens) e →
      FirstFlaw currency tokens e
  | negativeUnits {e : Error} : UnitGrammar currency (positiveTokens tokens) →
      UnitFlaw currency (negativeTokens tokens) e → FirstFlaw currency tokens e
  | number {e : Error} : UnitGrammar currency (positiveTokens tokens) →
      UnitGrammar currency (negativeTokens tokens) →
      NumberFlaw (positiveTokens tokens) e → FirstFlaw currency tokens e
  | quotes {e : Error} : UnitGrammar currency (positiveTokens tokens) →
      UnitGrammar currency (negativeTokens tokens) → NumberGrammar (positiveTokens tokens) →
      QuoteFlaw tokens e → FirstFlaw currency tokens e

theorem Grammar.not_firstFlaw {currency : Option String} {tokens : List Token}
    (grammar : Grammar currency tokens) {e : Error} : ¬FirstFlaw currency tokens e := by
  intro flaw
  cases flaw with
  | positiveUnits wrong => exact grammar.positiveUnits.not_flaw wrong
  | negativeUnits _ wrong => exact grammar.negativeUnits.not_flaw wrong
  | number _ _ wrong => exact grammar.number.not_flaw wrong
  | quotes _ _ _ wrong => exact grammar.quotes.not_flaw wrong

theorem mem_of_mem_positiveTokens {tokens : List Token} {token : Token}
    (member : token ∈ positiveTokens tokens) : token ∈ tokens :=
  (List.takeWhile_sublist _).subset member

theorem mem_of_mem_negativeTokens {tokens : List Token} {token : Token}
    (member : token ∈ negativeTokens tokens) : token ∈ tokens :=
  (List.dropWhile_sublist _).subset (List.mem_of_mem_tail member)

/-- All tokens but the first separator stand in one subpattern or the other. -/
theorem mem_parts {tokens : List Token} {token : Token} (member : token ∈ tokens)
    (other : token ≠ .separator) :
    token ∈ positiveTokens tokens ∨ token ∈ negativeTokens tokens := by
  by_cases two : .separator ∈ tokens
  · rcases List.eq_append_cons_of_mem two with ⟨front, behind, rfl, one⟩
    rcases parts_at_separator one behind with ⟨positive, negative⟩
    rw [positive, negative]
    rcases List.mem_append.mp member with first | second
    · exact Or.inl first
    · exact Or.inr ((List.mem_cons.mp second).resolve_left other)
  · rw [(parts_of_no_separator two).1]
    exact Or.inl member

theorem quoteGrammar_of_parts {tokens : List Token}
    (positive : QuoteGrammar (positiveTokens tokens))
    (negative : QuoteGrammar (negativeTokens tokens)) : QuoteGrammar tokens := by
  intro text member
  rcases mem_parts member nofun with first | second
  · exact positive text first
  · exact negative text second

theorem QuoteFlaw.mono {tokens others : List Token} {e : Error} (flaw : QuoteFlaw tokens e)
    (inside : ∀ token ∈ tokens, token ∈ others) : QuoteFlaw others e := by
  cases flaw with
  | unterminatedQuote member => exact .unterminatedQuote (inside _ member)

/-- The tokens of a pattern are read as the grammar allows them. -/
theorem grammar_decides (currency : Option String) {tokens : List Token}
    (genuine : ∀ token ∈ tokens, token.Genuine) :
    Decides (ofTokens currency tokens) (Grammar currency tokens) (FirstFlaw currency tokens) := by
  have number := ofTokens_decides
    (fun token member => genuine token (mem_of_mem_positiveTokens member))
  rw [ofTokens_eq]
  refine ((units_decides currency (positiveTokens tokens)).bind fun positiveUnits =>
    (units_decides currency (negativeTokens tokens)).bind fun negativeUnits =>
    number.bind fun run =>
    (surround_decides .positive (positiveTokens tokens)).bind fun positiveText =>
    (surround_decides .negative (negativeTokens tokens)).bind fun negativeText =>
    .pure _).mono ?_ ?_
  · rintro ⟨positive, negative, number, positiveQuotes, negativeQuotes, _⟩
    exact ⟨positive, negative, number, quoteGrammar_of_parts positiveQuotes negativeQuotes⟩
  · rintro e (wrong | ⟨positive, wrong | ⟨negative, wrong | ⟨number, quotes⟩⟩⟩)
    · exact .positiveUnits wrong
    · exact .negativeUnits positive wrong
    · exact .number positive negative wrong
    · rcases quotes with wrong | ⟨_, wrong | ⟨_, no⟩⟩
      · exact .quotes positive negative number (wrong.mono (fun _ => mem_of_mem_positiveTokens))
      · exact .quotes positive negative number (wrong.mono (fun _ => mem_of_mem_negativeTokens))
      · exact no.elim

/--
A pattern is read exactly if its tokens are in the grammar, and otherwise the error tells of the
first flaw there is.
-/
theorem read_iff_grammar (currency : Option String) (text : List Char) :
    ((∃ s, read currency text = .ok s) ↔ Grammar currency (tokens text)) ∧
      ((∃ s, read currency text = .ok s) ∨
        ∃ e, read currency text = .error e ∧ FirstFlaw currency (tokens text) e) := by
  have genuine : ∀ token ∈ tokens text, token.Genuine := fun _ => genuine_of_mem_tokens
  have decides := grammar_decides currency genuine
  rw [← read] at decides
  cases decides with
  | accepted read grammar =>
      exact ⟨iff_of_true ⟨_, read⟩ grammar, Or.inl ⟨_, read⟩⟩
  | rejected failed flaw =>
      refine ⟨iff_of_false ?_ (fun grammar => grammar.not_firstFlaw flaw), Or.inr ⟨_, failed, flaw⟩⟩
      rintro ⟨s, read⟩
      rw [failed] at read
      cases read

end Pattern
end NumberFormat
