import Mathlib.Data.List.Induction
import NumberFormat.Pattern.NumberRun
import NumberFormat.Proofs.Pattern.Tokens
import NumberFormat.Proofs.Sequence

namespace NumberFormat
namespace Pattern

open Binary64 (Digits)

/-!
Numbers taken in token by token.

What has been taken in depends only on which tokens stand before the point and which behind it.
Each token fits what came before it or makes a disorder, and a disorder remains whatever follows.
So the tokens are taken in exactly when they are in order.
-/

/-! ## Tokens of numbers -/

namespace Token

/-- The digits a token requires. -/
def digits : Token → List Char
  | required digits => digits
  | _ => []

/-- How many digits a token leaves open. -/
def hashes : Token → Nat
  | optional count => count
  | _ => 0

/-- The bounds on significant digits that a token sets. -/
def significant? : Token → Option (Nat × Nat)
  | significant least further => some (least, least + further)
  | _ => none

/-- The exponent that a token writes. -/
def exponent? : Token → Option (Nat × Bool)
  | exponent digits plus => some (digits, plus)
  | _ => none

end Token

/-- The tokens before the first point. -/
def beforePoint (tokens : List Token) : List Token :=
  tokens.takeWhile (· != .point)

/-- The tokens behind the first point. -/
def behindPoint (tokens : List Token) : List Token :=
  (tokens.dropWhile (· != .point)).tail

def precisions (tokens : List Token) : List (Nat × Nat) :=
  tokens.filterMap Token.significant?

def exponents (tokens : List Token) : List (Nat × Bool) :=
  tokens.filterMap Token.exponent?

/-- How many digits tokens leave open. -/
def openDigits : List Token → Nat
  | [] => 0
  | token :: later => token.hashes + openDigits later

theorem openDigits_append (tokens : List Token) (token : Token) :
    openDigits (tokens ++ [token]) = openDigits tokens + token.hashes := by
  induction tokens with
  | nil => exact Nat.add_comm _ _
  | cons first later ih => rw [List.cons_append, openDigits, ih, openDigits, Nat.add_assoc]

theorem openDigits_eq_zero {tokens : List Token} :
    openDigits tokens = 0 ↔ ∀ token ∈ tokens, token.hashes = 0 := by
  induction tokens with
  | nil => exact iff_of_true rfl (fun _ member => absurd member List.not_mem_nil)
  | cons first later ih => rw [openDigits, Nat.add_eq_zero_iff, ih, List.forall_mem_cons]

/-- What is taken in with all the tokens. -/
def summary (tokens : List Token) : NumberRun where
  grouped := decide (.group ∈ tokens)
  pointed := decide (.point ∈ tokens)
  wholeOptional := openDigits (beforePoint tokens)
  wholeDigits := (beforePoint tokens).flatMap Token.digits
  fractionDigits := (behindPoint tokens).flatMap Token.digits
  fractionOptional := openDigits (behindPoint tokens)
  significant := (precisions tokens).head?
  exponent := (exponents tokens).head?

/-! ## Order -/

/-- No open digit follows a required one. -/
def WholeOrder (tokens : List Token) : Prop :=
  tokens.Pairwise (fun earlier later => earlier.digits = [] ∨ later.hashes = 0)

/-- No required digit follows an open one. -/
def FractionOrder (tokens : List Token) : Prop :=
  tokens.Pairwise (fun earlier later => earlier.hashes = 0 ∨ later.digits = [])

/-- The order of the tokens of a number. -/
structure Orderly (tokens : List Token) : Prop where
  points : tokens.count .point ≤ 1
  exponents : (exponents tokens).length ≤ 1
  ungrouped : ¬(.group ∈ tokens ∧ Pattern.exponents tokens ≠ [])
  precisions : (precisions tokens).length ≤ 1
  whole : WholeOrder (beforePoint tokens)
  fraction : FractionOrder (behindPoint tokens)

/-- The error that tells what is out of order. -/
inductive Disorder (tokens : List Token) : Error → Prop where
  | severalPoints : 1 < tokens.count .point → Disorder tokens .severalPoints
  | severalExponents : 1 < (exponents tokens).length → Disorder tokens .severalExponents
  | groupedExponent : .group ∈ tokens ∧ exponents tokens ≠ [] → Disorder tokens .groupedExponent
  | severalPrecisions : 1 < (precisions tokens).length → Disorder tokens .severalPrecisions
  | hashAfterDigits : ¬WholeOrder (beforePoint tokens) → Disorder tokens .hashAfterDigits
  | digitsAfterHash : ¬FractionOrder (behindPoint tokens) → Disorder tokens .digitsAfterHash

theorem Orderly.not_disorder {tokens : List Token} (orderly : Orderly tokens) {e : Error} :
    ¬Disorder tokens e := by
  intro disorder
  cases disorder with
  | severalPoints several => exact absurd orderly.points (Nat.not_le_of_gt several)
  | severalExponents several => exact absurd orderly.exponents (Nat.not_le_of_gt several)
  | groupedExponent both => exact orderly.ungrouped both
  | severalPrecisions several => exact absurd orderly.precisions (Nat.not_le_of_gt several)
  | hashAfterDigits wrong => exact wrong orderly.whole
  | digitsAfterHash wrong => exact wrong orderly.fraction

/-! ## One more token -/

section

variable {tokens : List Token}

theorem beforePoint_of_point (pointed : .point ∈ tokens) (more : List Token) :
    beforePoint (tokens ++ more) = beforePoint tokens := by
  rcases List.eq_append_cons_of_mem pointed with ⟨front, back, rfl, pointless⟩
  rw [List.append_assoc, List.cons_append, beforePoint, takeWhile_mark pointless, beforePoint,
    takeWhile_mark pointless]

theorem behindPoint_of_point (pointed : .point ∈ tokens) (more : List Token) :
    behindPoint (tokens ++ more) = behindPoint tokens ++ more := by
  rcases List.eq_append_cons_of_mem pointed with ⟨front, back, rfl, pointless⟩
  rw [List.append_assoc, List.cons_append, behindPoint, dropWhile_mark pointless, behindPoint,
    dropWhile_mark pointless, List.tail_cons, List.tail_cons]

theorem beforePoint_of_no_point (pointless : .point ∉ tokens) (more : List Token) :
    beforePoint (tokens ++ more) = tokens ++ beforePoint more :=
  List.takeWhile_append_of_pos (ne_of_absent pointless)

theorem behindPoint_of_no_point (pointless : .point ∉ tokens) (more : List Token) :
    behindPoint (tokens ++ more) = behindPoint more := by
  rw [behindPoint, List.dropWhile_append_of_pos (ne_of_absent pointless), behindPoint]

theorem precisions_append (token : Token) :
    precisions (tokens ++ [token]) = precisions tokens ++ token.significant?.toList := by
  rw [precisions, List.filterMap_append, ← precisions]
  cases token <;> rfl

theorem exponents_append (token : Token) :
    exponents (tokens ++ [token]) = exponents tokens ++ token.exponent?.toList := by
  rw [exponents, List.filterMap_append, ← exponents]
  cases token <;> rfl

theorem group_append (token : Token) :
    decide (.group ∈ tokens ++ [token]) =
      (decide (.group ∈ tokens) || decide (.group = token)) := by
  simp only [List.mem_append, List.mem_singleton, Bool.decide_or]

/-- The run with one more token behind the point. -/
theorem summary_append_behind (pointed : .point ∈ tokens) (token : Token) :
    summary (tokens ++ [token]) = { summary tokens with
      grouped := (summary tokens).grouped || decide (.group = token)
      fractionDigits := (summary tokens).fractionDigits ++ token.digits
      fractionOptional := (summary tokens).fractionOptional + token.hashes
      significant := (summary tokens).significant.or token.significant?
      exponent := (summary tokens).exponent.or token.exponent? } := by
  have still : .point ∈ tokens ++ [token] := List.mem_append_left _ pointed
  have before := beforePoint_of_point pointed [token]
  have behind := behindPoint_of_point pointed [token]
  unfold summary
  rw [group_append]
  simp only [before, behind, precisions_append, exponents_append, List.head?_append,
    Option.head?_toList, List.flatMap_append, List.flatMap_singleton, openDigits_append, pointed,
    still]

/-- The run with one more token before the point. -/
theorem summary_append_before (pointless : .point ∉ tokens) (token : Token)
    (other : token ≠ .point) :
    summary (tokens ++ [token]) = { summary tokens with
      grouped := (summary tokens).grouped || decide (.group = token)
      wholeDigits := (summary tokens).wholeDigits ++ token.digits
      wholeOptional := (summary tokens).wholeOptional + token.hashes
      significant := (summary tokens).significant.or token.significant?
      exponent := (summary tokens).exponent.or token.exponent? } := by
  have still : .point ∉ tokens ++ [token] := by
    rw [List.mem_append, List.mem_singleton, not_or]
    exact ⟨pointless, Ne.symm other⟩
  have before : beforePoint (tokens ++ [token]) = beforePoint tokens ++ [token] := by
    rw [beforePoint, takeWhile_absent still, beforePoint, takeWhile_absent pointless]
  have behind : behindPoint (tokens ++ [token]) = behindPoint tokens := by
    rw [behindPoint, dropWhile_absent still, behindPoint, dropWhile_absent pointless]
  unfold summary
  rw [group_append]
  simp only [before, behind, precisions_append, exponents_append, List.head?_append,
    Option.head?_toList, List.flatMap_append, List.flatMap_singleton, openDigits_append, pointless,
    still]

/-- The run with one more token that stands for no digits. -/
theorem summary_append_other (token : Token) (other : token ≠ .point)
    (digitless : token.digits = []) (closed : token.hashes = 0) :
    summary (tokens ++ [token]) = { summary tokens with
      grouped := (summary tokens).grouped || decide (.group = token)
      significant := (summary tokens).significant.or token.significant?
      exponent := (summary tokens).exponent.or token.exponent? } := by
  by_cases pointed : .point ∈ tokens
  · rw [summary_append_behind pointed, digitless, closed, List.append_nil, Nat.add_zero]
  · rw [summary_append_before pointed token other, digitless, closed, List.append_nil,
      Nat.add_zero]

theorem summary_append_point (pointless : .point ∉ tokens) :
    summary (tokens ++ [.point]) = { summary tokens with pointed := true } := by
  have before : beforePoint (tokens ++ [.point]) = beforePoint tokens := by
    rw [beforePoint, takeWhile_mark pointless, beforePoint, takeWhile_absent pointless]
  have behind : behindPoint (tokens ++ [.point]) = behindPoint tokens := by
    rw [behindPoint, dropWhile_mark pointless, behindPoint, dropWhile_absent pointless]
    rfl
  have grouped : .group ∈ tokens ++ [.point] ↔ .group ∈ tokens := by simp
  have pointed : .point ∈ tokens ++ [.point] := List.mem_append_right _ List.mem_cons_self
  simp only [summary, before, behind, precisions_append, exponents_append, grouped, pointed,
    Token.significant?, Token.exponent?, Option.toList_none, List.append_nil, decide_true]

/-! ## Tokens that fit -/

/-- Whether a token fits what came before it. -/
def Fits (tokens : List Token) : Token → Prop
  | .optional _ => .point ∈ tokens ∨ (beforePoint tokens).flatMap Token.digits = []
  | .required _ => .point ∉ tokens ∨ openDigits (behindPoint tokens) = 0
  | .significant _ _ => precisions tokens = []
  | .group => exponents tokens = []
  | .point => .point ∉ tokens
  | .exponent _ _ => exponents tokens = [] ∧ .group ∉ tokens
  | _ => True

/-- A token that fits is taken in. -/
theorem push_of_fits {token : Token} (fits : Fits tokens token) :
    (summary tokens).push token = .ok (summary (tokens ++ [token])) := by
  have point : (summary tokens).pointed = decide (.point ∈ tokens) := rfl
  have group : (summary tokens).grouped = decide (.group ∈ tokens) := rfl
  cases token with
  | optional count =>
      by_cases pointed : .point ∈ tokens
      · rw [summary_append_behind pointed]
        simp [NumberRun.push, point, pointed, Token.hashes, Token.digits, Token.significant?,
          Token.exponent?]
      · have digitless : (summary tokens).wholeDigits = [] := fits.resolve_left pointed
        rw [summary_append_before pointed (.optional count) nofun]
        simp [NumberRun.push, point, pointed, digitless, Token.hashes, Token.digits,
          Token.significant?, Token.exponent?]
  | required digits =>
      by_cases pointed : .point ∈ tokens
      · have closed : (summary tokens).fractionOptional = 0 :=
          fits.resolve_left (not_not_intro pointed)
        rw [summary_append_behind pointed]
        simp [NumberRun.push, point, pointed, closed, Token.hashes, Token.digits,
          Token.significant?, Token.exponent?]
      · rw [summary_append_before pointed (.required digits) nofun]
        simp [NumberRun.push, point, pointed, Token.hashes, Token.digits, Token.significant?,
          Token.exponent?]
  | significant least further =>
      have first : (summary tokens).significant = none := List.head?_eq_none_iff.mpr fits
      rw [summary_append_other (.significant least further) nofun rfl rfl]
      simp [NumberRun.push, first, Token.significant?, Token.exponent?]
  | group =>
      have plain : (summary tokens).exponent = none := List.head?_eq_none_iff.mpr fits
      rw [summary_append_other .group nofun rfl rfl]
      simp [NumberRun.push, plain, Token.significant?, Token.exponent?]
  | exponent digits plus =>
      have plain : (summary tokens).exponent = none := List.head?_eq_none_iff.mpr fits.1
      rw [summary_append_other (.exponent digits plus) nofun rfl rfl]
      simp [NumberRun.push, plain, group, fits.2, Token.significant?, Token.exponent?]
  | point =>
      have pointless : .point ∉ tokens := fits
      rw [summary_append_point pointless]
      simp [NumberRun.push, point, pointless]
  | _ =>
      rw [summary_append_other]
      · simp [NumberRun.push, Token.significant?, Token.exponent?]
      · exact nofun
      · rfl
      · rfl

/-- A token that does not fit makes a disorder. -/
theorem push_of_not_fits {token : Token} (genuine : token.Genuine) (unfit : ¬Fits tokens token) :
    ∃ e, (summary tokens).push token = .error e ∧ Disorder (tokens ++ [token]) e := by
  have point : (summary tokens).pointed = decide (.point ∈ tokens) := rfl
  have group : (summary tokens).grouped = decide (.group ∈ tokens) := rfl
  cases token with
  | optional count =>
      rcases not_or.mp unfit with ⟨pointless, digits⟩
      have digits : (summary tokens).wholeDigits ≠ [] := digits
      refine ⟨.hashAfterDigits, by simp [NumberRun.push, point, pointless, digits],
        .hashAfterDigits ?_⟩
      intro ordered
      rw [beforePoint_of_no_point pointless, WholeOrder, List.pairwise_append] at ordered
      apply digits
      rw [summary, List.flatMap_eq_nil_iff, beforePoint, takeWhile_absent pointless]
      intro earlier member
      exact (ordered.2.2 earlier member _ List.mem_cons_self).resolve_right genuine
  | required digits =>
      rcases not_or.mp unfit with ⟨pointed, opened⟩
      have pointed := Decidable.not_not.mp pointed
      have opened : (summary tokens).fractionOptional ≠ 0 := opened
      refine ⟨.digitsAfterHash, by simp [NumberRun.push, point, pointed, opened],
        .digitsAfterHash ?_⟩
      intro ordered
      rw [behindPoint_of_point pointed, FractionOrder, List.pairwise_append] at ordered
      apply opened
      rw [summary, openDigits_eq_zero]
      intro earlier member
      exact (ordered.2.2 earlier member _ List.mem_cons_self).resolve_right genuine.1
  | significant least further =>
      have some : (summary tokens).significant.isSome = true := List.isSome_head?.mpr unfit
      refine ⟨.severalPrecisions, by simp [NumberRun.push, some], .severalPrecisions ?_⟩
      have before : 0 < (precisions tokens).length := List.length_pos_iff.mpr unfit
      rw [precisions_append, List.length_append]
      exact Nat.add_lt_add_of_lt_of_le before (Nat.le_refl 1)
  | group =>
      have some : (summary tokens).exponent.isSome = true := List.isSome_head?.mpr unfit
      refine ⟨.groupedExponent, by simp [NumberRun.push, some], .groupedExponent ⟨?_, ?_⟩⟩
      · exact List.mem_append_right _ List.mem_cons_self
      · rw [exponents_append]
        exact List.append_ne_nil_of_left_ne_nil unfit _
  | exponent digits plus =>
      by_cases several : exponents tokens = []
      · have grouped : .group ∈ tokens :=
          Decidable.not_not.mp (fun ungrouped => unfit ⟨several, ungrouped⟩)
        have none : (summary tokens).exponent = none := List.head?_eq_none_iff.mpr several
        refine ⟨.groupedExponent, by simp [NumberRun.push, none, group, grouped],
          .groupedExponent ⟨?_, ?_⟩⟩
        · exact List.mem_append_left _ grouped
        · rw [exponents_append]
          exact List.append_ne_nil_of_right_ne_nil _ (List.cons_ne_nil _ _)
      · have some : (summary tokens).exponent.isSome = true := List.isSome_head?.mpr several
        have before : 0 < (exponents tokens).length := List.length_pos_iff.mpr several
        refine ⟨.severalExponents, by simp [NumberRun.push, some], .severalExponents ?_⟩
        rw [exponents_append, List.length_append]
        exact Nat.add_lt_add_of_lt_of_le before (Nat.le_refl 1)
  | point =>
      have pointed : .point ∈ tokens := Decidable.not_not.mp unfit
      refine ⟨.severalPoints, by simp [NumberRun.push, point, pointed], .severalPoints ?_⟩
      rw [List.count_append]
      have once := List.count_pos_iff.mpr pointed
      have again : List.count Token.point [.point] = 1 := rfl
      omega
  | _ => exact absurd trivial unfit

/-- A grouping separator and an exponent do not stand together. -/
theorem ungrouped_append {token : Token} (ungrouped : ¬(.group ∈ tokens ∧ exponents tokens ≠ []))
    (fits : Fits tokens token) :
    ¬(.group ∈ tokens ++ [token] ∧ exponents (tokens ++ [token]) ≠ []) := by
  rw [exponents_append, List.mem_append, List.mem_singleton]
  rintro ⟨grouped, exponential⟩
  cases token with
  | group =>
      have plain : exponents tokens = [] := fits
      rw [plain] at exponential
      exact exponential rfl
  | exponent digits plus => exact fits.2 (grouped.resolve_right nofun)
  | _ =>
      refine ungrouped ⟨grouped.resolve_right nofun, ?_⟩
      exact fun plain => exponential (List.append_eq_nil_iff.mpr ⟨plain, rfl⟩)

theorem wholeOrder_append {token : Token} (ordered : WholeOrder (beforePoint tokens))
    (fits : Fits tokens token) : WholeOrder (beforePoint (tokens ++ [token])) := by
  by_cases pointed : .point ∈ tokens
  · rw [beforePoint_of_point pointed]
    exact ordered
  · rw [beforePoint_of_no_point pointed]
    rw [beforePoint, takeWhile_absent pointed] at ordered
    refine List.pairwise_append.mpr ⟨ordered, ?_, ?_⟩
    · cases token <;> first | exact List.pairwise_singleton _ _ | exact List.Pairwise.nil
    · intro earlier member later single
      cases token with
      | optional count =>
          have digitless := fits.resolve_left pointed
          rw [beforePoint, takeWhile_absent pointed, List.flatMap_eq_nil_iff] at digitless
          exact Or.inl (digitless earlier member)
      | point => cases single
      | _ =>
          rw [List.mem_singleton.mp single]
          exact Or.inr rfl

theorem fractionOrder_append {token : Token} (ordered : FractionOrder (behindPoint tokens))
    (fits : Fits tokens token) : FractionOrder (behindPoint (tokens ++ [token])) := by
  by_cases pointed : .point ∈ tokens
  · rw [behindPoint_of_point pointed]
    refine List.pairwise_append.mpr ⟨ordered, List.pairwise_singleton _ _, ?_⟩
    intro earlier member later single
    rw [List.mem_singleton.mp single]
    cases token with
    | required digits =>
        have closed := fits.resolve_left (not_not_intro pointed)
        exact Or.inl (openDigits_eq_zero.mp closed earlier member)
    | _ => exact Or.inr rfl
  · rw [behindPoint_of_no_point pointed]
    cases token <;> exact List.Pairwise.nil

/-- A token that fits leaves the tokens in order. -/
theorem Orderly.append {token : Token} (orderly : Orderly tokens) (fits : Fits tokens token) :
    Orderly (tokens ++ [token]) := by
  constructor
  · rw [List.count_append]
    cases token with
    | point =>
        rw [List.count_eq_zero.mpr fits]
        exact Nat.le_refl 1
    | _ => exact orderly.points
  · rw [exponents_append, List.length_append]
    cases token with
    | exponent digits plus =>
        rw [fits.1]
        exact Nat.le_refl 1
    | _ => exact orderly.exponents
  · exact ungrouped_append orderly.ungrouped fits
  · rw [precisions_append, List.length_append]
    cases token with
    | significant least further =>
        have first : Pattern.precisions tokens = [] := fits
        rw [first]
        exact Nat.le_refl 1
    | _ => exact orderly.precisions
  · exact wholeOrder_append orderly.whole fits
  · exact fractionOrder_append orderly.fraction fits

/-- Whatever follows, a disorder remains. -/
theorem Disorder.append {e : Error} (disorder : Disorder tokens e) (more : List Token) :
    Disorder (tokens ++ more) e := by
  cases disorder with
  | severalPoints several =>
      apply Disorder.severalPoints
      rw [List.count_append]
      exact Nat.lt_add_right _ several
  | severalExponents several =>
      apply Disorder.severalExponents
      rw [exponents, List.filterMap_append, List.length_append]
      exact Nat.lt_add_right _ several
  | groupedExponent both =>
      apply Disorder.groupedExponent
      rw [exponents, List.filterMap_append]
      exact ⟨List.mem_append_left _ both.1, List.append_ne_nil_of_left_ne_nil both.2 _⟩
  | severalPrecisions several =>
      apply Disorder.severalPrecisions
      rw [precisions, List.filterMap_append, List.length_append]
      exact Nat.lt_add_right _ several
  | hashAfterDigits wrong =>
      apply Disorder.hashAfterDigits
      intro ordered
      apply wrong
      by_cases pointed : .point ∈ tokens
      · rwa [beforePoint_of_point pointed] at ordered
      · rw [beforePoint_of_no_point pointed] at ordered
        rw [beforePoint, takeWhile_absent pointed]
        exact (List.pairwise_append.mp ordered).1
  | digitsAfterHash wrong =>
      apply Disorder.digitsAfterHash
      intro ordered
      apply wrong
      by_cases pointed : .point ∈ tokens
      · rw [behindPoint_of_point pointed] at ordered
        exact (List.pairwise_append.mp ordered).1
      · rw [behindPoint, dropWhile_absent pointed]
        exact List.Pairwise.nil

end

/-! ## All tokens -/

theorem orderly_nil : Orderly [] :=
  ⟨Nat.zero_le 1, Nat.zero_le 1, fun both => both.2 rfl, Nat.zero_le 1, List.Pairwise.nil,
    List.Pairwise.nil⟩

/-- Tokens are taken in with all of them in order, or with an error that tells of a disorder. -/
theorem foldlM_push {tokens : List Token} (genuine : ∀ token ∈ tokens, token.Genuine) :
    (tokens.foldlM NumberRun.push {} = .ok (summary tokens) ∧ Orderly tokens) ∨
      ∃ e, tokens.foldlM NumberRun.push {} = .error e ∧ Disorder tokens e := by
  -- From the last token: what comes before it has been taken in as its summary.
  induction tokens using List.reverseRecOn with
  | nil => exact Or.inl ⟨rfl, orderly_nil⟩
  | append_singleton tokens token ih =>
      have before := ih (fun other member => genuine other (List.mem_append_left _ member))
      rw [List.foldlM_append]
      rcases before with ⟨read, orderly⟩ | ⟨e, failed, disorder⟩
      · rw [read]
        by_cases fits : Fits tokens token
        · refine Or.inl ⟨?_, orderly.append fits⟩
          change [token].foldlM NumberRun.push (summary tokens) = _
          rw [List.foldlM_cons, push_of_fits fits]
          rfl
        · have own := genuine token (List.mem_append_right _ List.mem_cons_self)
          rcases push_of_not_fits own fits with ⟨e, failed, disorder⟩
          refine Or.inr ⟨e, ?_, disorder⟩
          change [token].foldlM NumberRun.push (summary tokens) = _
          rw [List.foldlM_cons, failed]
          rfl
      · rw [failed]
        exact Or.inr ⟨e, rfl, disorder.append [token]⟩

/-! ## Digits -/

theorem digits_of_genuine {tokens : List Token} (genuine : ∀ token ∈ tokens, token.Genuine) :
    Digits (tokens.flatMap Token.digits) := by
  intro c member
  rcases List.mem_flatMap.mp member with ⟨token, inside, digit⟩
  cases token with
  | required digits => exact (genuine _ inside).2 c digit
  | _ => cases digit

theorem digits_summary {tokens : List Token} (genuine : ∀ token ∈ tokens, token.Genuine) :
    Digits (summary tokens).wholeDigits ∧ Digits (summary tokens).fractionDigits := by
  constructor
  · exact digits_of_genuine
      (fun token member => genuine token ((List.takeWhile_sublist _).subset member))
  · exact digits_of_genuine (fun token member =>
      genuine token ((List.dropWhile_sublist _).subset (List.mem_of_mem_tail member)))

end Pattern
end NumberFormat
