import NumberFormat.Proofs.Skeleton.RoundTrip

namespace NumberFormat
namespace Skeleton

open Stem (ofParts)

/-!
Words of skeleton text act one by one.

A word sets one field or none, and texts with blanks between them are laid over one another.  A word
with something to report sets nothing, except for a blueprint of digits whose excess options are
dropped.
-/

/-! ## Tokens -/

/-- A word without blanks, as which it stands in a text. -/
def Token (word : List Char) : Prop :=
  word ≠ [] ∧ ∀ c ∈ word, Text.isBlank c = false

instance (word : List Char) : Decidable (Token word) :=
  decidable_of_iff (word ≠ [] ∧ word.all (fun c => !Text.isBlank c) = true)
    (by simp only [Token, List.all_eq_true, Bool.not_eq_true'])

theorem read_token {token : List Char} (whole : Token token) :
    read token =
      ⟨ofSettings (readWord token).result.toList, (readWord token).diagnostics⟩ := by
  rw [read, Text.words_of_unbroken whole.1 whole.2]
  simp only [List.map_cons, List.map_nil, List.flatMap_cons, List.flatMap_nil, List.append_nil]
  cases made : (readWord token).result with
  | none => simp only [List.filterMap_cons, made, List.filterMap_nil, Option.toList_none]
  | some setting => simp only [List.filterMap_cons, made, List.filterMap_nil, Option.toList_some]

theorem ofSettings_singleton (setting : Setting) : ofSettings [setting] = setting.skeleton := by
  rw [ofSettings, ofSettings, overlay_empty]

/-- A token makes one choice or none. -/
theorem read_token_cases {token : List Char} (whole : Token token) :
    (readWord token).result = none ∧ (read token).result = empty ∨
      ∃ setting, (readWord token).result = some setting ∧
        (read token).result = setting.skeleton := by
  rw [read_token whole]
  cases made : (readWord token).result with
  | none => exact Or.inl ⟨rfl, rfl⟩
  | some setting => exact Or.inr ⟨setting, rfl, ofSettings_singleton setting⟩

/-- Whether a token sets the field of an axis. -/
def Sets (token : List Char) (axis : Axis) : Prop :=
  (read token).result.choice? axis ≠ none

theorem sets_iff {token : List Char} (whole : Token token) (axis : Axis) :
    Sets token axis ↔ ∃ setting, (readWord token).result = some setting ∧ setting.axis = axis := by
  rcases read_token_cases whole with ⟨made, result⟩ | ⟨setting, made, result⟩
  · rw [Sets, result, choice?_empty, made]
    simp
  · rw [Sets, result, choice?_skeleton, made]
    simp

/-! ## Texts with blanks between them -/

theorem read_append_blanks (left right : List Char) {gap : List Char} (nonempty : gap ≠ [])
    (blank : ∀ c ∈ gap, Text.isBlank c = true) :
    read (left ++ gap ++ right) =
      ⟨(read left).result.overlay (read right).result,
        (read left).diagnostics ++ (read right).diagnostics⟩ := by
  simp only [read, Text.words_append_blanks left right nonempty blank, List.map_append,
    List.filterMap_append, ofSettings_append, List.flatMap_append]

/-! ## Reports -/

/-- Whether a token is a blueprint of digits that has only too many options to report. -/
def OnlyExcess (token : List Char) : Prop :=
  (∃ bounds, Stem.ofKeyword? (keyword token) = some (.digits bounds)) ∧
    ∃ report, (read token).diagnostics = [report] ∧ report.code = .tooManyOptions

/-- A blueprint of digits with the first options only, as many as it takes. -/
def permitted (token : List Char) : List Char :=
  match Stem.ofKeyword? (keyword token) with
  | some (.digits bounds) =>
      ['/'].intercalate (keyword token :: (options token).take (Stem.digitOptions bounds))
  | _ => token

/-- What a stem reports and what it sets exclude one another, excess options of digits apart. -/
theorem setting_cases (stem : Stem) (keyword : List Char) (options : List (List Char)) :
    (stem.setting keyword options).diagnostics = [] ∨
      (stem.setting keyword options).result = none ∨ ∃ bounds, stem = .digits bounds := by
  cases stem with
  | plain choice =>
      unfold Stem.setting
      cases options with
      | nil => exact Or.inl rfl
      | cons first more =>
          dsimp only
          split
          · exact Or.inr (Or.inl rfl)
          · exact Or.inr (Or.inl rfl)
  | needing kind =>
      unfold Stem.setting
      rcases options with _ | ⟨option, _ | _⟩
      · exact Or.inr (Or.inl rfl)
      · dsimp only
        split
        · exact Or.inl rfl
        · exact Or.inr (Or.inl rfl)
      · exact Or.inr (Or.inl rfl)
  | power power =>
      unfold Stem.setting
      dsimp only
      split
      · split
        · exact Or.inr (Or.inl rfl)
        · exact Or.inl rfl
      · exact Or.inr (Or.inl rfl)
  | digits bounds => exact Or.inr (Or.inr ⟨bounds, rfl⟩)

/-- A blueprint whose first options cannot be read sets nothing and says which. -/
theorem digits_error {keyword : List Char} {options : List (List Char)} {bounds : DigitBounds}
    {bad : List Char}
    (read : Stem.withSignificant keyword bounds (options.take (Stem.digitOptions bounds)) =
      .error bad) :
    ((Stem.digits bounds).setting keyword options).result = none ∧
      .badOption (String.ofList keyword) (String.ofList bad) ∈
        ((Stem.digits bounds).setting keyword options).diagnostics := by
  constructor
  · simp only [Stem.setting, read]
  · simp only [Stem.setting, read]
    exact List.mem_append_right _ List.mem_cons_self

/-- A blueprint whose first options can be read sets digits and reports at most the others. -/
theorem digits_ok {keyword : List Char} {options : List (List Char)} {bounds found : DigitBounds}
    (read : Stem.withSignificant keyword bounds (options.take (Stem.digitOptions bounds)) =
      .ok found) :
    ((Stem.digits bounds).setting keyword options).result = some (.precision (.digits found)) ∧
      (((Stem.digits bounds).setting keyword options).diagnostics = [] ∨
        ∃ excess, ((Stem.digits bounds).setting keyword options).diagnostics =
          [.tooManyOptions (String.ofList keyword) excess]) := by
  constructor
  · simp only [Stem.setting, read]
  · simp only [Stem.setting, read]
    split
    · exact Or.inl rfl
    · exact Or.inr ⟨_, rfl⟩

theorem diagnostics_token {token : List Char} (whole : Token token) :
    (read token).diagnostics = (ofParts (keyword token) (options token)).diagnostics := by
  rw [read_token whole, readWord_eq]

/-- A token with something to report sets nothing, but for excess options of digits. -/
theorem read_eq_empty {token : List Char} (whole : Token token)
    (reported : (read token).diagnostics ≠ []) (other : ¬OnlyExcess token) :
    (read token).result = empty := by
  have silent : (ofParts (keyword token) (options token)).result = none := by
    have reports := diagnostics_token whole
    cases known : Stem.ofKeyword? (keyword token) with
    | none => rw [ofParts, known]
    | some stem =>
        rw [ofParts, known] at reports ⊢
        dsimp only at reports ⊢
        rcases setting_cases stem (keyword token) (options token) with clean | none | ⟨bounds, rfl⟩
        · rw [clean] at reports
          exact absurd reports reported
        · exact none
        · cases kept : Stem.withSignificant (keyword token) bounds
              ((options token).take (Stem.digitOptions bounds)) with
          | error bad => exact (digits_error kept).1
          | ok found =>
              rcases (digits_ok kept).2 with clean | ⟨excess, only⟩
              · rw [clean] at reports
                exact absurd reports reported
              · rw [only] at reports
                exact absurd ⟨⟨bounds, known⟩, _, reports, rfl⟩ other
  rcases read_token_cases whole with ⟨_, result⟩ | ⟨setting, made, _⟩
  · exact result
  · rw [readWord_eq, silent] at made
    cases made

/-- Excess options of digits do no harm: the first options set the digits as they do alone. -/
theorem read_permitted {token : List Char} (whole : Token token) (excess : OnlyExcess token) :
    ∃ bounds, (read token).result = (Setting.precision (.digits bounds)).skeleton ∧
      read (permitted token) = ⟨(read token).result, []⟩ := by
  rcases excess with ⟨⟨bounds, known⟩, report, only, code⟩
  have parts := part_of_mem whole.2
  rw [diagnostics_token whole, ofParts, known] at only
  dsimp only at only
  cases kept : Stem.withSignificant (keyword token) bounds
      ((options token).take (Stem.digitOptions bounds)) with
  | error bad =>
      have complaint := (digits_error kept).2
      rw [only, List.mem_singleton] at complaint
      rw [← complaint] at code
      cases code
  | ok found =>
      have made : (readWord token).result = some (.precision (.digits found)) := by
        rw [readWord_eq, ofParts, known]
        exact (digits_ok kept).1
      have result : (read token).result = (Setting.precision (.digits found)).skeleton := by
        rw [read_token whole, made]
        exact ofSettings_singleton _
      have again : readWord (permitted token) = ⟨some (.precision (.digits found)), []⟩ := by
        rw [permitted, known]
        dsimp only
        rw [readWord_joined (part_take parts _), ofParts_take known kept]
      have first : Token (permitted token) := by
        refine ⟨ne_nil_of_readWord (congrArg Reported.result again), ?_⟩
        rw [permitted, known]
        exact unbroken_joined (part_take parts _)
      refine ⟨found, result, ?_⟩
      rw [read_token first, again, result]
      simp only [Option.toList_some, ofSettings_singleton]

/-! ## Order -/

/-- Orders of tokens that differ by exchanging neighbours which set no field in common. -/
inductive Reordered : List (List Char) → List (List Char) → Prop where
  | refl (tokens : List (List Char)) : Reordered tokens tokens
  | cons {tokens others : List (List Char)} (token : List Char) : Reordered tokens others →
      Reordered (token :: tokens) (token :: others)
  | swap {first second : List Char} (tokens : List (List Char)) :
      (∀ axis, ¬(Sets first axis ∧ Sets second axis)) →
      Reordered (first :: second :: tokens) (second :: first :: tokens)
  | trans {tokens others more : List (List Char)} : Reordered tokens others →
      Reordered others more → Reordered tokens more

/-- Tokens of which no two set a field in common may stand in any order. -/
theorem Reordered.of_perm {tokens others : List (List Char)} (perm : tokens.Perm others)
    (apart : tokens.Pairwise (fun first second => ∀ axis, ¬(Sets first axis ∧ Sets second axis))) :
    Reordered tokens others := by
  induction perm with
  | nil => exact .refl []
  | cons token _ ih => exact .cons token (ih (List.pairwise_cons.mp apart).2)
  | swap second first tokens =>
      apply Reordered.swap
      exact (List.pairwise_cons.mp apart).1 second List.mem_cons_self
  | trans one _ first second =>
      have moved := one.pairwise apart (fun sets axis both => sets axis both.symm)
      exact .trans (first apart) (second moved)

theorem Reordered.mem {tokens others : List (List Char)} (reordered : Reordered tokens others)
    {token : List Char} (member : token ∈ others) : token ∈ tokens := by
  induction reordered with
  | refl => exact member
  | cons first _ ih =>
      rcases List.mem_cons.mp member with rfl | later
      · exact List.mem_cons_self
      · exact List.mem_cons_of_mem _ (ih later)
  | swap tokens _ =>
      simp only [List.mem_cons] at member ⊢
      rcases member with rfl | rfl | later
      · exact Or.inr (Or.inl rfl)
      · exact Or.inl rfl
      · exact Or.inr (Or.inr later)
  | trans _ _ first second => exact first (second member)

theorem settings_cons (token : List Char) (tokens : List (List Char)) :
    settings (token :: tokens) = (readWord token).result.toList ++ settings tokens := by
  unfold settings
  rw [List.map_cons, List.filterMap_cons]
  cases (readWord token).result <;> rfl

/-- On each axis reordered tokens make the same settings in the same order. -/
theorem Reordered.filter_settings {tokens others : List (List Char)}
    (reordered : Reordered tokens others) (whole : ∀ token ∈ tokens, Token token) (axis : Axis) :
    (settings tokens).filter (·.axis = axis) = (settings others).filter (·.axis = axis) := by
  induction reordered with
  | refl => rfl
  | cons token _ ih =>
      rw [settings_cons, settings_cons, List.filter_append, List.filter_append,
        ih (fun later member => whole later (List.mem_cons_of_mem _ member))]
  | @swap first second tokens apart =>
      have apart := apart axis
      rw [sets_iff (whole first (by simp)), sets_iff (whole second (by simp))] at apart
      simp only [settings_cons, List.filter_append, ← List.append_assoc]
      congr 1
      cases firstMade : (readWord first).result with
      | none => simp
      | some a =>
          cases secondMade : (readWord second).result with
          | none => simp
          | some b =>
              by_cases own : a.axis = axis
              · have foreign : b.axis ≠ axis :=
                  fun same => apart ⟨⟨a, firstMade, own⟩, ⟨b, secondMade, same⟩⟩
                simp [foreign]
              · simp [own]
  | trans one _ first second =>
      rw [first whole, second (fun token member => whole token (one.mem member))]

/-- Exchanging tokens that set different fields changes no field. -/
theorem read_reordered {text other : List Char}
    (reordered : Reordered (Text.words text) (Text.words other)) :
    (read text).result = (read other).result := by
  apply ofSettings_congr
  intro axis
  exact reordered.filter_settings (fun _ => Text.unbroken_of_mem_words) axis

theorem read_perm {text other : List Char} (perm : (Text.words text).Perm (Text.words other))
    (apart : (Text.words text).Pairwise
      (fun first second => ∀ axis, ¬(Sets first axis ∧ Sets second axis))) :
    (read text).result = (read other).result :=
  read_reordered (Reordered.of_perm perm apart)

/-! ## The law of skeleton text -/

/--
Texts with blanks between them are read one by one and laid over one another.  A token sets one
field at most, and none if it has something to report, unless it is a blueprint of digits with
nothing wrong but options beyond those it takes: it sets digits as its first options do alone.  So
the order of tokens that set different fields does not matter.
-/
theorem read_by_tokens :
    (∀ left gap right : List Char, gap ≠ [] → (∀ c ∈ gap, Text.isBlank c = true) →
      read (left ++ gap ++ right) =
        ⟨(read left).result.overlay (read right).result,
          (read left).diagnostics ++ (read right).diagnostics⟩) ∧
    (∀ token, Token token → (read token).result.affix = none ∧
      ∀ axis other, Sets token axis → Sets token other → axis = other) ∧
    (∀ token, Token token → (read token).diagnostics ≠ [] → ¬OnlyExcess token →
      (read token).result = empty) ∧
    (∀ token, Token token → OnlyExcess token →
      ∃ bounds, (read token).result = (Setting.precision (.digits bounds)).skeleton ∧
        read (permitted token) = ⟨(read token).result, []⟩) ∧
    ∀ text other : List Char, Reordered (Text.words text) (Text.words other) →
      (read text).result = (read other).result := by
  refine ⟨?_, ?_, ?_, ?_, ?_⟩
  · intro left gap right nonempty blank
    exact read_append_blanks left right nonempty blank
  · intro token whole
    refine ⟨affix_read token, ?_⟩
    intro axis other first second
    rcases (sets_iff whole axis).mp first with ⟨setting, made, rfl⟩
    rcases (sets_iff whole other).mp second with ⟨same, again, rfl⟩
    rw [made] at again
    cases again
    rfl
  · intro token whole reported notExcess
    exact read_eq_empty whole reported notExcess
  · intro token whole excess
    exact read_permitted whole excess
  · intro text other reordered
    exact read_reordered reordered

theorem read_by_tokens_excess :
    Token ".00/@@/@@".toList ∧ OnlyExcess ".00/@@/@@".toList ∧
      read ".00/@@/@@".toList =
        ⟨(Setting.precision (.digits ⟨some 2, some 2, some 2, some 2, ".00/@@"⟩)).skeleton,
          [.tooManyOptions ".00" "@@"]⟩ ∧
      read (permitted ".00/@@/@@".toList) = ⟨(read ".00/@@/@@".toList).result, []⟩ := by
  have whole : Token ".00/@@/@@".toList := by decide
  have excess : OnlyExcess ".00/@@/@@".toList := ⟨⟨_, rfl⟩, _, rfl, rfl⟩
  rcases read_by_tokens.2.2.2.1 _ whole excess with ⟨bounds, set, alone⟩
  exact ⟨whole, excess, by decide +kernel, alone⟩

end Skeleton
end NumberFormat
