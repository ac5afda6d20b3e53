import NumberFormat.Proofs.Binary64.Written
import NumberFormat.Proofs.Skeleton.Choices
import NumberFormat.Proofs.Text.Words
import NumberFormat.Skeleton.Parser

namespace NumberFormat

/-!
The words of skeletons and the settings they make.

A word is cut at its slashes into a keyword and options.  The word that a setting is written as need
not be the one it was read from, but it is cut into parts that make the setting again.
-/

/-- What is found in a table is one of its entries. -/
theorem mem_of_lookup {α : Type} {entries : List (String × α)} {key : String} {value : α}
    (found : entries.lookup key = some value) : (key, value) ∈ entries := by
  rcases List.lookup_eq_some_iff.mp found with ⟨before, after, same, _⟩
  rw [same]
  exact List.mem_append_right before List.mem_cons_self

namespace Stem

/-- A text that can be a part of a word: without slash and without blank. -/
def Part (text : List Char) : Prop :=
  ∀ c ∈ text, c ≠ '/' ∧ Text.isBlank c = false

/-- What a word is read as, once it has been cut. -/
def ofParts (keyword : List Char) (options : List (List Char)) : Reported (Option Setting) :=
  match ofKeyword? keyword with
  | some stem => stem.setting keyword options
  | none => ⟨none, [.badStem (String.ofList keyword)]⟩

end Stem

namespace Skeleton

open Stem (Part ofParts)

/-! ## Cutting words -/

def keyword (word : List Char) : List Char :=
  (word.splitOn '/').headD []

def options (word : List Char) : List (List Char) :=
  (word.splitOn '/').tail

theorem readWord_eq (word : List Char) : readWord word = ofParts (keyword word) (options word) :=
  rfl

theorem keyword_cons_options (word : List Char) :
    keyword word :: options word = word.splitOn '/' := by
  cases cut : word.splitOn '/' with
  | nil => exact absurd cut (List.splitOn_ne_nil '/' word)
  | cons first others =>
      rw [keyword, options, cut]
      rfl

theorem mem_joined {separator : Char} {parts : List (List Char)} {c : Char}
    (member : c ∈ [separator].intercalate parts) : c = separator ∨ ∃ part ∈ parts, c ∈ part := by
  induction parts with
  | nil => cases member
  | cons first others ih =>
      cases others with
      | nil =>
          rw [List.intercalate_singleton] at member
          exact Or.inr ⟨first, List.mem_cons_self, member⟩
      | cons next more =>
          rw [List.intercalate_cons_cons, List.append_assoc] at member
          rcases List.mem_append.mp member with inside | behind
          · exact Or.inr ⟨first, List.mem_cons_self, inside⟩
          · rcases List.mem_append.mp behind with between | later
            · exact Or.inl (List.mem_singleton.mp between)
            · rcases ih later with between | ⟨part, listed, inside⟩
              · exact Or.inl between
              · exact Or.inr ⟨part, List.mem_cons_of_mem _ listed, inside⟩

theorem mem_joined_of_mem {parts : List (List Char)} {part : List Char} (listed : part ∈ parts)
    {c : Char} (inside : c ∈ part) : c ∈ ['/'].intercalate parts := by
  induction parts with
  | nil => cases listed
  | cons first others ih =>
      cases others with
      | nil =>
          rw [List.mem_singleton.mp listed] at inside
          rwa [List.intercalate_singleton]
      | cons next more =>
          rw [List.intercalate_cons_cons, List.append_assoc]
          rcases List.mem_cons.mp listed with rfl | later
          · exact List.mem_append_left _ inside
          · exact List.mem_append_right _ (List.mem_append_right _ (ih later))

/-- A word is cut at the slashes between its parts, if there are no others. -/
theorem readWord_cut {keyword : List Char} {options : List (List Char)}
    (whole : ∀ part ∈ keyword :: options, '/' ∉ part) :
    readWord (['/'].intercalate (keyword :: options)) = ofParts keyword options := by
  have cut : (['/'].intercalate (keyword :: options)).splitOn '/' = keyword :: options :=
    List.splitOn_intercalate '/' whole (List.cons_ne_nil _ _)
  rw [readWord_eq, Skeleton.keyword, Skeleton.options, cut]
  rfl

/-- A word put together from parts is read as its parts. -/
theorem readWord_joined {keyword : List Char} {options : List (List Char)}
    (parts : ∀ part ∈ keyword :: options, Part part) :
    readWord (['/'].intercalate (keyword :: options)) = ofParts keyword options :=
  readWord_cut fun part listed inside => (parts part listed '/' inside).1 rfl

/-- The keyword and the options of a word make the word. -/
theorem joined_parts (word : List Char) :
    ['/'].intercalate (keyword word :: options word) = word := by
  rw [keyword_cons_options]
  exact List.intercalate_splitOn '/'

theorem part_of_mem {word : List Char} (unbroken : ∀ c ∈ word, Text.isBlank c = false) :
    ∀ part ∈ keyword word :: options word, Part part := by
  intro part listed c inside
  refine ⟨?_, unbroken c ?_⟩
  · rintro rfl
    rw [keyword_cons_options] at listed
    exact Text.not_mem_of_mem_splitOn listed inside
  · rw [← joined_parts word]
    exact mem_joined_of_mem listed inside

/-! ## Settings that are read back -/

/-- Whether a setting is written as one word that is read as it. -/
structure ReadsBack (setting : Setting) : Prop where
  unbroken : ∀ c ∈ setting.word.toList, Text.isBlank c = false
  read : readWord setting.word.toList = ⟨some setting, []⟩

/-- Whether a setting is written as one word that is read as another setting. -/
structure ReadsAs (setting other : Setting) : Prop where
  unbroken : ∀ c ∈ setting.word.toList, Text.isBlank c = false
  read : readWord setting.word.toList = ⟨some other, []⟩

theorem ReadsBack.readsAs {setting : Setting} (back : ReadsBack setting) :
    ReadsAs setting setting :=
  ⟨back.unbroken, back.read⟩

theorem ReadsAs.readsBack {setting : Setting} (same : ReadsAs setting setting) :
    ReadsBack setting :=
  ⟨same.unbroken, same.read⟩

theorem unbroken_joined {parts : List (List Char)} (all : ∀ part ∈ parts, Part part) :
    ∀ c ∈ ['/'].intercalate parts, Text.isBlank c = false := by
  intro c member
  rcases mem_joined member with rfl | ⟨part, listed, inside⟩
  · rfl
  · exact (all part listed c inside).2

theorem readsAs_of_parts {setting other : Setting} {keyword : List Char}
    {options : List (List Char)}
    (written : setting.word.toList = ['/'].intercalate (keyword :: options))
    (parts : ∀ part ∈ keyword :: options, Part part)
    (read : ofParts keyword options = ⟨some other, []⟩) : ReadsAs setting other := by
  constructor
  · rw [written]
    exact unbroken_joined parts
  · rw [written, readWord_joined parts, read]

theorem readsBack_of_parts {setting : Setting} {keyword : List Char} {options : List (List Char)}
    (written : setting.word.toList = ['/'].intercalate (keyword :: options))
    (parts : ∀ part ∈ keyword :: options, Part part)
    (read : ofParts keyword options = ⟨some setting, []⟩) : ReadsBack setting :=
  (readsAs_of_parts written parts read).readsBack

/-- The empty word sets nothing, so a word that sets something is not empty. -/
theorem ne_nil_of_readWord {word : List Char} {setting : Setting}
    (made : (readWord word).result = some setting) : word ≠ [] := by
  rintro rfl
  have silent : (readWord []).result = none := by decide
  rw [silent] at made
  cases made

/-! ## Keywords -/

/-- A keyword without leading point or at sign stands for itself in one of three vocabularies. -/
theorem ofKeyword?_cases {keyword : List Char} {stem : Stem}
    (known : Stem.ofKeyword? keyword = some stem) :
    (∃ bounds, stem = .digits bounds) ∨
      (∃ setting, stem = .plain setting ∧
        Stem.plainStems.lookup (String.ofList keyword) = some setting) ∨
      (∃ kind, stem = .needing kind ∧ keyword = (Text.Vocabulary.word kind).toList) ∨
      ∃ power, stem = .power power ∧ keyword = (Text.Vocabulary.word power).toList := by
  unfold Stem.ofKeyword? at known
  split at known
  · rcases Option.map_eq_some_iff.mp known with ⟨counts, _, rfl⟩
    exact Or.inl ⟨_, rfl⟩
  · rcases Option.map_eq_some_iff.mp known with ⟨counts, _, rfl⟩
    exact Or.inl ⟨_, rfl⟩
  · apply Or.inr
    have spelled {α : Type} [Text.Vocabulary α] {value : α}
        (found : Text.valueOf? α (String.ofList keyword) = some value) :
        keyword = (Text.Vocabulary.word value).toList := by
      rw [Text.word_of_valueOf? found, String.toList_ofList]
    dsimp only at known
    cases plain : Stem.plainStems.lookup (String.ofList keyword) with
    | some setting =>
        rw [plain] at known
        cases known
        exact Or.inl ⟨setting, rfl, rfl⟩
    | none =>
        cases needing : Text.valueOf? Stem.Kind (String.ofList keyword) with
        | some kind =>
            rw [plain, needing] at known
            cases known
            exact Or.inr (Or.inl ⟨kind, rfl, spelled needing⟩)
        | none =>
            rw [plain, needing] at known
            rcases Option.map_eq_some_iff.mp known with ⟨power, found, rfl⟩
            exact Or.inr (Or.inr ⟨power, rfl, spelled found⟩)

/-- A keyword that is a blueprint counts the digits of a fraction or significant ones. -/
theorem ofKeyword?_digits {keyword : List Char} {bounds : DigitBounds}
    (known : Stem.ofKeyword? keyword = some (.digits bounds)) :
    (∃ zeros counts, keyword = '.' :: zeros ∧ Blueprint.read? '0' zeros = some counts ∧
        bounds = { minFraction := some counts.1, maxFraction := counts.2 }) ∨
      ∃ counts, Blueprint.significant? keyword = some counts ∧
        bounds = { minSignificant := some counts.1, maxSignificant := counts.2 } := by
  unfold Stem.ofKeyword? at known
  split at known
  · rcases Option.map_eq_some_iff.mp known with ⟨counts, read, same⟩
    cases same
    exact Or.inl ⟨_, counts, rfl, read, rfl⟩
  · rcases Option.map_eq_some_iff.mp known with ⟨counts, read, same⟩
    cases same
    exact Or.inr ⟨counts, read, rfl⟩
  · dsimp only at known
    cases plain : Stem.plainStems.lookup (String.ofList keyword) with
    | some setting =>
        rw [plain] at known
        cases known
    | none =>
        cases needing : Text.valueOf? Stem.Kind (String.ofList keyword) with
        | some kind =>
            rw [plain, needing] at known
            cases known
        | none =>
            rw [plain, needing] at known
            rcases Option.map_eq_some_iff.mp known with ⟨power, _, same⟩
            cases same

/-- A keyword without options is the word of the setting it stands for, but for one abbreviation. -/
theorem word_of_mem_plainStems {entry : String × Setting} (listed : entry ∈ Stem.plainStems) :
    entry.2.word = entry.1 ∨ entry.2 = .numberingSystem "latn" := by
  have ofWords {α : Type} [Text.Vocabulary α] {setting : α → Setting}
      (same : ∀ value, (setting value).word = Text.Vocabulary.word value)
      (inside : entry ∈ Stem.wordsOf setting) : entry.2.word = entry.1 := by
    rcases List.mem_map.mp inside with ⟨value, _, rfl⟩
    exact same value
  simp only [Stem.plainStems, List.mem_append, List.map_cons, List.map_nil] at listed
  rcases listed with
    (((((((form | unit) | width) | grouping) | precision) | rounding) | sign) | mark) | latin
  · simp only [List.mem_cons, List.not_mem_nil, or_false] at form
    rcases form with rfl | rfl | rfl <;> exact Or.inl rfl
  · simp only [List.mem_cons, List.not_mem_nil, or_false] at unit
    rcases unit with rfl | rfl | rfl <;> exact Or.inl rfl
  · exact Or.inl (ofWords (fun _ => rfl) width)
  · exact Or.inl (ofWords (fun _ => rfl) grouping)
  · simp only [List.mem_cons, List.not_mem_nil, or_false] at precision
    rcases precision with rfl | rfl | rfl | rfl <;> exact Or.inl rfl
  · exact Or.inl (ofWords (fun _ => rfl) rounding)
  · exact Or.inl (ofWords (fun _ => rfl) sign)
  · exact Or.inl (ofWords (fun _ => rfl) mark)
  · rw [List.mem_singleton.mp latin]
    exact Or.inr rfl

/-! ## Options -/

theorem finiteNumber?_written {option : List Char} {x : Binary64}
    (found : Stem.finiteNumber? option = some x) : Stem.finiteNumber? x.written = some x := by
  rcases Option.filter_eq_some_iff.mp found with ⟨_, finite⟩
  rw [Stem.finiteNumber?, Binary64.read?_written, Option.filter_some, if_pos finite]

theorem toNat_of_isAlphanum {c : Char} (inside : c.isAlphanum = true) :
    0x30 ≤ c.toNat ∧ c.toNat ≤ 0x7A := by
  have between {first last : Char} (within : first.val ≤ c.val ∧ c.val ≤ last.val)
      (least : 0x30 ≤ first.toNat) (greatest : last.toNat ≤ 0x7A) :
      0x30 ≤ c.toNat ∧ c.toNat ≤ 0x7A :=
    ⟨Nat.le_trans least (UInt32.le_iff_toNat_le.mp within.1),
      Nat.le_trans (UInt32.le_iff_toNat_le.mp within.2) greatest⟩
  have inside : c.isAlpha = true ∨ c.isDigit = true := Bool.or_eq_true_iff.mp inside
  rcases inside with letter | digit
  · have letter : c.isUpper = true ∨ c.isLower = true := Bool.or_eq_true_iff.mp letter
    rcases letter with upper | lower
    · exact between (of_decide_eq_true upper) (by decide) (by decide)
    · have lower := Bool.and_eq_true_iff.mp lower
      exact between ⟨of_decide_eq_true lower.1, of_decide_eq_true lower.2⟩ (by decide) (by decide)
  · have digit := Bool.and_eq_true_iff.mp digit
    exact between ⟨of_decide_eq_true digit.1, of_decide_eq_true digit.2⟩ (by decide) (by decide)

theorem isBlank_of_isAlphanum {c : Char} (inside : c.isAlphanum = true) :
    Text.isBlank c = false := by
  have range := toNat_of_isAlphanum inside
  unfold Text.isBlank
  simp only [Bool.or_eq_false_iff, Bool.and_eq_false_iff, decide_eq_false_iff_not,
    beq_eq_false_iff_ne]
  omega

/-- The characters of a number hold a word together. -/
theorem part_written (x : Binary64) : Part x.written := by
  intro c member
  have inside := x.written_spelling.inNumber c member
  constructor
  · rintro rfl
    cases inside
  · simp only [Binary64.isInNumber, Binary64.isNumberCharacter, Bool.or_eq_true, beq_iff_eq]
      at inside
    rcases inside with ((alphanum | rfl) | rfl) | rfl
    · exact isBlank_of_isAlphanum alphanum
    · rfl
    · rfl
    · rfl

/-- A keyword, a slash and an option make a word of two parts. -/
theorem toList_slash {front word : String} (slash : front.toList = word.toList ++ ['/'])
    (option : String) :
    (front ++ option).toList = ['/'].intercalate [word.toList, option.toList] := by
  rw [String.toList_append, slash, List.intercalate_cons_cons, List.intercalate_singleton]

/--
The setting of a keyword with one option is written with the same keyword, and with an option that
asks for it too: numbers are respelled, and every other option is kept.
-/
theorem exists_option {kind : Stem.Kind} {option : List Char} {setting : Setting}
    (part : Part option) (found : kind.setting? option = some setting) :
    ∃ other : String, Part other.toList ∧ kind.setting? other.toList = some setting ∧
      setting.word.toList =
        ['/'].intercalate [(Text.Vocabulary.word kind).toList, other.toList] := by
  have kept (written : setting.word.toList =
      ['/'].intercalate [(Text.Vocabulary.word kind).toList, (String.ofList option).toList]) :
      ∃ other : String, Part other.toList ∧ kind.setting? other.toList = some setting ∧
        setting.word.toList =
          ['/'].intercalate [(Text.Vocabulary.word kind).toList, other.toList] := by
    refine ⟨String.ofList option, ?_, ?_, written⟩
    · rwa [String.toList_ofList]
    · rwa [String.toList_ofList]
  have made := found
  cases kind with
  | currency =>
      rw [Stem.Kind.setting?] at made
      split at made <;> cases made
      exact kept (toList_slash (by decide) _)
  | measureUnit =>
      rw [Stem.Kind.setting?] at made
      split at made <;> cases made
      exact kept (toList_slash (by decide) _)
  | perMeasureUnit =>
      rw [Stem.Kind.setting?] at made
      split at made <;> cases made
      exact kept (toList_slash (by decide) _)
  | increment =>
      rcases Option.map_eq_some_iff.mp made with ⟨step, read, rfl⟩
      rcases Option.filter_eq_some_iff.mp read with ⟨finite, positive⟩
      refine ⟨step.text, ?_, ?_, toList_slash (by decide) _⟩
      · rw [Binary64.text, String.toList_ofList]
        exact part_written step
      · rw [Binary64.text, String.toList_ofList, Stem.Kind.setting?, finiteNumber?_written finite,
          Option.filter_some, if_pos positive]
        rfl
  | integerWidth =>
      rcases Option.map_eq_some_iff.mp made with ⟨counts, _, rfl⟩
      exact kept (toList_slash (by decide) _)
  | scale =>
      rcases Option.map_eq_some_iff.mp made with ⟨factor, finite, rfl⟩
      refine ⟨factor.text, ?_, ?_, toList_slash (by decide) _⟩
      · rw [Binary64.text, String.toList_ofList]
        exact part_written factor
      · rw [Binary64.text, String.toList_ofList, Stem.Kind.setting?, finiteNumber?_written finite]
        rfl
  | numberingSystem =>
      rw [Stem.Kind.setting?] at made
      split at made <;> cases made
      exact kept (toList_slash (by decide) _)

/-! ## Each kind of stem -/

section

variable {keyword : List Char} {options : List (List Char)} {setting : Setting}
  (parts : ∀ part ∈ keyword :: options, Part part)

include parts

theorem readsBack_plain {choice : Setting}
    (known : Stem.ofKeyword? keyword = some (.plain choice))
    (listed : Stem.plainStems.lookup (String.ofList keyword) = some choice)
    (made : ((Stem.plain choice).setting keyword options).result = some setting) :
    ReadsBack setting := by
  cases options with
  | cons first more =>
      unfold Stem.setting at made
      dsimp only at made
      split at made <;> cases made
  | nil =>
      cases made
      rcases word_of_mem_plainStems (mem_of_lookup listed) with same | latin
      · refine readsBack_of_parts ?_ parts ?_
        · dsimp only at same
          rw [same, String.toList_ofList, List.intercalate_singleton]
        · rw [ofParts, known]
          rfl
      · dsimp only at latin
        rw [latin]
        refine ⟨?_, by decide⟩
        intro c member
        exact Bool.eq_false_iff.mpr (List.any_eq_false.mp (by decide) c member)

theorem readsBack_needing {kind : Stem.Kind}
    (known : Stem.ofKeyword? keyword = some (.needing kind))
    (spelled : keyword = (Text.Vocabulary.word kind).toList)
    (made : ((Stem.needing kind).setting keyword options).result = some setting) :
    ReadsBack setting := by
  rcases options with _ | ⟨option, _ | ⟨second, more⟩⟩
  · cases made
  · cases found : kind.setting? option with
    | none =>
        simp only [Stem.setting, found] at made
        cases made
    | some choice =>
        simp only [Stem.setting, found] at made
        cases made
        rcases exists_option (parts option (by simp)) found with ⟨other, part, again, written⟩
        apply readsBack_of_parts (spelled ▸ written)
        · intro inside listed
          rcases List.mem_cons.mp listed with rfl | last
          · exact parts _ List.mem_cons_self
          · rw [List.mem_singleton.mp last]
            exact part
        · rw [ofParts, known]
          simp only [Stem.setting, again]
  · cases made

theorem readsBack_power {power : Stem.Power}
    (known : Stem.ofKeyword? keyword = some (.power power))
    (spelled : keyword = (Text.Vocabulary.word power).toList)
    (made : ((Stem.power power).setting keyword options).result = some setting) :
    ReadsBack setting := by
  have whole : (Stem.power power).setting keyword options = ⟨some setting, []⟩ ∧
      setting = .form (power.form (Stem.exponentStyle options)) := by
    unfold Stem.setting at made ⊢
    dsimp only at made ⊢
    split at made
    · rename_i few
      rw [if_pos few]
      split at made
      · cases made
      · rename_i good
        cases made
        exact ⟨rfl, rfl⟩
    · cases made
  rcases whole with ⟨read, rfl⟩
  refine readsBack_of_parts ?_ parts ?_
  · have word : (Setting.form (power.form (Stem.exponentStyle options))).word =
        Text.Vocabulary.word power ++ (Stem.exponentStyle options).suffix := by
      cases power <;> rfl
    rw [word, String.toList_append, ← spelled]
    cases options with
    | nil =>
        rw [List.intercalate_singleton]
        exact List.append_nil keyword
    | cons first more =>
        have suffix : (Stem.exponentStyle (first :: more)).suffix =
            "/" ++ Stem.joined (first :: more) := rfl
        rw [suffix, String.toList_append, Stem.joined, List.intercalate_cons_cons,
          List.append_assoc]
        exact congrArg (fun joined => keyword ++ (['/'] ++ joined)) String.toList_ofList
  · rw [ofParts, known]
    exact read

omit parts in
theorem source_withSignificant {bounds found : DigitBounds} {kept : List (List Char)}
    (read : Stem.withSignificant keyword bounds kept = .ok found) :
    found.source = some (Stem.joined (keyword :: kept)) := by
  unfold Stem.withSignificant at read
  split at read
  · cases read
    rw [Stem.joined, List.intercalate_singleton]
  · split at read
    · cases read
    · cases read
      rfl

omit parts in
/-- Options beyond those a blueprint takes can be dropped, and the others make the same setting. -/
theorem ofParts_take {bounds found : DigitBounds}
    (known : Stem.ofKeyword? keyword = some (.digits bounds))
    (read : Stem.withSignificant keyword bounds (options.take (Stem.digitOptions bounds)) =
      .ok found) :
    ofParts keyword (options.take (Stem.digitOptions bounds)) =
      ⟨some (.precision (.digits found)), []⟩ := by
  rw [ofParts, known]
  simp only [Stem.setting, List.take_take, Nat.min_self, read, List.drop_take, Nat.sub_self,
    List.take_zero]
  rfl

theorem part_take (count : Nat) : ∀ part ∈ keyword :: options.take count, Part part := by
  intro part listed
  rcases List.mem_cons.mp listed with rfl | inside
  · exact parts _ List.mem_cons_self
  · exact parts part (List.mem_cons_of_mem _ (List.mem_of_mem_take inside))

theorem readsBack_digits {bounds : DigitBounds}
    (known : Stem.ofKeyword? keyword = some (.digits bounds))
    (made : ((Stem.digits bounds).setting keyword options).result = some setting) :
    ReadsBack setting := by
  cases read : Stem.withSignificant keyword bounds (options.take (Stem.digitOptions bounds)) with
  | error bad =>
      simp only [Stem.setting, read] at made
      cases made
  | ok found =>
      simp only [Stem.setting, read] at made
      cases made
      have word : (Setting.precision (.digits found)).word = found.sourceText := rfl
      refine readsBack_of_parts ?_ (part_take parts _) (ofParts_take known read)
      rw [word, DigitBounds.sourceText, source_withSignificant read, Option.getD_some,
        Stem.joined, String.toList_ofList]

end

/-- The setting that a word makes is written as a word that makes it again, without complaint. -/
theorem readsBack_of_readWord {word : List Char} {setting : Setting}
    (unbroken : ∀ c ∈ word, Text.isBlank c = false)
    (made : (readWord word).result = some setting) : ReadsBack setting := by
  have parts := part_of_mem unbroken
  rw [readWord_eq] at made
  cases known : Stem.ofKeyword? (keyword word) with
  | none =>
      rw [ofParts, known] at made
      cases made
  | some stem =>
      rw [ofParts, known] at made
      rcases ofKeyword?_cases known with ⟨bounds, rfl⟩ | ⟨choice, rfl, listed⟩ |
        ⟨kind, rfl, spelled⟩ | ⟨power, rfl, spelled⟩
      · exact readsBack_digits parts known made
      · exact readsBack_plain parts known listed made
      · exact readsBack_needing parts known spelled made
      · exact readsBack_power parts known spelled made

end Skeleton
end NumberFormat
