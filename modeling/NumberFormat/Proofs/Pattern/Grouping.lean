import NumberFormat.Proofs.Pattern.Spelling

namespace NumberFormat
namespace Pattern

/-!
Where grouping separators stand.

A separator says that digits are grouped, and nothing else.  A run of digits that one of them cuts
in two is taken in as it would be in one piece, since taking in a run is taking in its characters
one after another.  So it does not matter where in a number the separators stand.
-/

/-! ## Characters one after another -/

/-- The token that a character makes on its own. -/
def alone (c : Char) : Token :=
  (takeToken c []).1

/-- The run together with one more character. -/
def NumberRun.pushAlone (run : NumberRun) (c : Char) : Except Error NumberRun :=
  run.push (alone c)

theorem alone_digit {c : Char} (digit : c.isDigit = true) : alone c = .required [c] := by
  unfold alone takeToken
  split
  all_goals try cases digit
  rw [if_pos digit]
  rfl

theorem push_optional_add (run : NumberRun) (first second : Nat) :
    run.push (.optional (first + second)) =
      run.push (.optional first) >>= (·.push (.optional second)) := by
  unfold NumberRun.push
  by_cases pointed : run.pointed = true
  · simp only [if_pos pointed, bind, Except.bind, Nat.add_assoc]
  · by_cases digitless : run.wholeDigits = []
    · simp only [if_neg pointed, if_pos digitless, bind, Except.bind, Nat.add_assoc]
    · simp only [if_neg pointed, if_neg digitless, bind, Except.bind]

theorem push_required_append (run : NumberRun) (first second : List Char) :
    run.push (.required (first ++ second)) =
      run.push (.required first) >>= (·.push (.required second)) := by
  unfold NumberRun.push
  by_cases pointed : run.pointed = true
  · by_cases closed : run.fractionOptional = 0
    · simp only [if_pos pointed, if_pos closed, bind, Except.bind, List.append_assoc]
    · simp only [if_pos pointed, if_neg closed, bind, Except.bind]
  · simp only [if_neg pointed, bind, Except.bind, List.append_assoc]

theorem push_hashes (run : NumberRun) (count : Nat) :
    run.push (.optional (count + 1)) =
      (List.replicate (count + 1) '#').foldlM NumberRun.pushAlone run := by
  induction count generalizing run with
  | zero => exact (bind_pure _).symm
  | succ count ih =>
      rw [Nat.add_comm (count + 1), push_optional_add, Nat.add_comm 1, List.replicate_succ,
        List.foldlM_cons]
      exact bind_congr ih

theorem push_digits (run : NumberRun) (digit : Char) (more : List Char)
    (digits : ∀ c ∈ digit :: more, c.isDigit = true) :
    run.push (.required (digit :: more)) = (digit :: more).foldlM NumberRun.pushAlone run := by
  induction more generalizing run digit with
  | nil =>
      rw [List.foldlM_cons, NumberRun.pushAlone, alone_digit (digits digit List.mem_cons_self)]
      exact (bind_pure _).symm
  | cons next more ih =>
      rw [← List.singleton_append, push_required_append, List.singleton_append, List.foldlM_cons,
        NumberRun.pushAlone, alone_digit (digits digit List.mem_cons_self)]
      exact bind_congr fun run =>
        ih run next fun c member => digits c (List.mem_cons_of_mem _ member)

/-- A numeral is taken in as the characters it is spelled with, significant digits apart. -/
theorem push_spelling {token : Token} (numeral : token.isNumeral = true) (genuine : token.Genuine)
    (plain : '@' ∉ token.spelling) (run : NumberRun) :
    run.push token = token.spelling.foldlM NumberRun.pushAlone run := by
  cases token with
  | optional count =>
      cases count with
      | zero => exact absurd rfl genuine
      | succ count => exact push_hashes run count
  | required digits =>
      cases digits with
      | nil => exact absurd rfl genuine.1
      | cons digit more => exact push_digits run digit more genuine.2
  | significant least further =>
      cases least with
      | zero => exact absurd rfl genuine
      | succ least => exact absurd List.mem_cons_self plain
  | group => exact (bind_pure _).symm
  | point => exact (bind_pure _).symm
  | _ => cases numeral

theorem foldlM_push_spelling {list : List Token}
    (alike : ∀ token ∈ list, ∀ run : NumberRun,
      run.push token = token.spelling.foldlM NumberRun.pushAlone run) (run : NumberRun) :
    list.foldlM NumberRun.push run =
      (list.flatMap Token.spelling).foldlM NumberRun.pushAlone run := by
  induction list generalizing run with
  | nil => rfl
  | cons token list ih =>
      rw [List.foldlM_cons, List.flatMap_cons, List.foldlM_append, alike token List.mem_cons_self]
      exact bind_congr (ih fun other member => alike other (List.mem_cons_of_mem _ member))

/-- A number is taken in character by character. -/
theorem foldlM_push_tokens {text : List Char} (numerals : ∀ c ∈ text, isNumeral c = true)
    (plain : '@' ∉ text) (run : NumberRun) :
    (tokens text).foldlM NumberRun.push run = text.foldlM NumberRun.pushAlone run := by
  have inside {token : Token} (member : token ∈ tokens text) : '@' ∉ token.spelling := by
    intro spelled
    rw [← spelling_tokens text] at plain
    exact plain (List.mem_flatMap.mpr ⟨token, member, spelled⟩)
  have alike : ∀ token ∈ tokens text, ∀ run : NumberRun,
      run.push token = token.spelling.foldlM NumberRun.pushAlone run := fun token member =>
    push_spelling (numeral_of_mem_tokens numerals token member) (genuine_of_mem_tokens member)
      (inside member)
  rw [foldlM_push_spelling alike, spelling_tokens]

/-! ## With separators and without -/

/-- A text without its grouping separators. -/
def ungrouped (text : List Char) : List Char :=
  text.filter (· != ',')

/-- A mark of digits in a number: an open digit, a required one or the point. -/
def Mark (c : Char) : Prop :=
  c = '#' ∨ c.isDigit = true ∨ c = '.'

theorem isNumeral_of_mark {c : Char} (mark : Mark c) : isNumeral c = true := by
  unfold isNumeral
  rcases mark with rfl | digit | rfl
  · rfl
  · rw [digit, Bool.or_true]
  · rfl

/-- The run with nothing changed but whether it is grouped. -/
def NumberRun.regrouped (run : NumberRun) (grouped : Bool) : NumberRun :=
  { run with grouped := grouped }

/-- Whether a mark fits, and what it adds, has nothing to do with grouping. -/
theorem pushAlone_mark (run : NumberRun) {c : Char} (mark : Mark c) (grouped : Bool) :
    (run.regrouped grouped).pushAlone c = (run.pushAlone c).map (·.regrouped grouped) := by
  -- Once the fields a mark depends on are known, both sides compute to the same run or error.
  rcases run with ⟨before, pointed, optional, digits, fraction, further, significant, exponent⟩
  unfold NumberRun.pushAlone
  rcases mark with rfl | digit | rfl
  · cases pointed with
    | true => rfl
    | false => cases digits <;> rfl
  · rw [alone_digit digit]
    cases pointed with
    | true => cases further <;> rfl
    | false => rfl
  · cases pointed <;> rfl

/-- Marks write no exponent. -/
theorem exponent_pushAlone {run next : NumberRun} {c : Char} (mark : Mark c)
    (done : run.pushAlone c = .ok next) : next.exponent = run.exponent := by
  rcases run with ⟨before, pointed, optional, digits, fraction, further, significant, exponent⟩
  unfold NumberRun.pushAlone at done
  rcases mark with rfl | digit | rfl
  · cases pointed with
    | true =>
        cases done
        rfl
    | false =>
        cases digits <;> cases done
        rfl
  · rw [alone_digit digit] at done
    cases pointed with
    | true =>
        cases further <;> cases done
        rfl
    | false =>
        cases done
        rfl
  · cases pointed <;> cases done
    rfl

theorem pushAlone_separator {run : NumberRun} (plain : run.exponent = none) :
    run.pushAlone ',' = .ok (run.regrouped true) := by
  rcases run with ⟨before, pointed, optional, digits, fraction, further, significant, exponent⟩
  cases plain
  rfl

/-- Separators between marks group what the marks add up to. -/
theorem foldlM_ungrouped {text : List Char} (marks : ∀ c ∈ ungrouped text, Mark c)
    (run : NumberRun) (plain : run.exponent = none) (grouped : Bool) :
    text.foldlM NumberRun.pushAlone (run.regrouped grouped) =
      ((ungrouped text).foldlM NumberRun.pushAlone run).map
        (·.regrouped (grouped || text.any (· == ','))) := by
  -- Along the text the two runs differ in nothing but whether they are grouped.
  induction text generalizing run grouped with
  | nil =>
      rw [List.any_nil, Bool.or_false]
      rfl
  | cons c rest ih =>
      rw [List.foldlM_cons, List.any_cons]
      by_cases separator : c = ','
      · subst separator
        have still : (run.regrouped grouped).exponent = none := plain
        rw [pushAlone_separator still, beq_self_eq_true, Bool.true_or, Bool.or_true]
        exact ih marks run plain true
      · have kept : ungrouped (c :: rest) = c :: ungrouped rest :=
          List.filter_cons_of_pos (bne_iff_ne.mpr separator)
        rw [kept] at marks ⊢
        have mark := marks c List.mem_cons_self
        rw [List.foldlM_cons, pushAlone_mark run mark, beq_eq_false_iff_ne.mpr separator,
          Bool.false_or]
        cases done : run.pushAlone c with
        | error e => rfl
        | ok next =>
            exact ih (fun d member => marks d (List.mem_cons_of_mem _ member)) next
              ((exponent_pushAlone mark done).trans plain) grouped

/-! ## Numbers and patterns -/

section

variable {text : List Char} (marks : ∀ c ∈ ungrouped text, Mark c)

include marks

theorem numerals_of_marks : ∀ c ∈ text, isNumeral c = true := by
  intro c member
  by_cases separator : c = ','
  · rw [separator]
    rfl
  · exact isNumeral_of_mark (marks c (List.mem_filter.mpr ⟨member, bne_iff_ne.mpr separator⟩))

theorem significant_notMem : '@' ∉ text := by
  intro member
  have mark := marks '@' (List.mem_filter.mpr ⟨member, rfl⟩)
  rcases mark with hash | digit | point
  · cases hash
  · cases digit
  · cases point

/-- A number with separators is the number without them, but for the grouping. -/
theorem ofTokens_ungrouped :
    NumberRun.ofTokens (tokens text) = (NumberRun.ofTokens (tokens (ungrouped text))).map
      (·.regrouped (text.any (· == ','))) := by
  have still : ∀ c ∈ ungrouped (ungrouped text), Mark c :=
    fun c member => marks c (List.mem_filter.mp member).1
  unfold NumberRun.ofTokens
  rw [foldlM_push_tokens (numerals_of_marks marks) (significant_notMem marks),
    foldlM_push_tokens (numerals_of_marks still) (significant_notMem still)]
  have characters := foldlM_ungrouped marks {} rfl false
  rw [Bool.false_or] at characters
  refine (congrArg (· >>= _) characters).trans ?_
  cases (ungrouped text).foldlM NumberRun.pushAlone {} with
  | error e => rfl
  | ok run =>
      have conflict : (run.regrouped (text.any (· == ','))).conflicting = run.conflicting := rfl
      simp only [Except.map, bind, Except.bind, conflict]
      cases run.conflicting <;> rfl

end

theorem ofSettings_regrouped (run : NumberRun) :
    Skeleton.ofSettings (run.regrouped true).settings =
      { Skeleton.ofSettings run.settings with grouping := some .auto } := by
  have width : (run.regrouped true).integerWidth = run.integerWidth := rfl
  have precision : (run.regrouped true).precision = run.precision := rfl
  have form : (run.regrouped true).form = run.form := rfl
  unfold NumberRun.settings
  rw [width, precision, form]
  cases run.grouping <;> cases run.integerWidth <;> cases run.precision <;> cases run.form <;> rfl

/-- No text stands around a number on its own. -/
theorem surround_numerals {list : List Token}
    (numerals : ∀ token ∈ list, token.isNumeral = true) (side : Side) :
    surround side list = .ok ⟨"", ""⟩ := by
  cases list with
  | nil => rfl
  | cons token list =>
      have whole : token :: list = enclosed [] (token :: list) [] := (List.append_nil _).symm
      rw [whole]
      exact surround_enclosed
        (fun token member => Token.isPlaceholder_of_isNumeral (numerals token member)) [] []
        (List.cons_ne_nil _ _) side

/-- A text of numerals is read as the number it spells, and fails as that does. -/
theorem read_numerals (currency : Option String) {text : List Char}
    (numerals : ∀ c ∈ text, isNumeral c = true) :
    read currency text = (NumberRun.ofTokens (tokens text)).map
      fun run => Skeleton.ofSettings run.settings := by
  have all := numeral_of_mem_tokens numerals
  have one : Token.separator ∉ tokens text := by
    intro member
    cases all _ member
  rcases parts_of_no_separator one with ⟨positive, negative⟩
  unfold read
  rw [ofTokens_eq, positive, negative, units_numerals currency all, surround_numerals all]
  cases NumberRun.ofTokens (tokens text) with
  | error e => rfl
  | ok run =>
      have bare := Skeleton.with_no_affix (Skeleton.affix_ofSettings run.settings)
      exact congrArg Except.ok bare

/--
It does not matter where separators stand between digits and the point.  However many there are,
the pattern is read as it is without them, errors included, and the number is grouped.
-/
theorem read_grouped (currency : Option String) {text grouped : List Char}
    (marks : ∀ c ∈ text, c = '#' ∨ c.isDigit = true ∨ c = '.')
    (inserted : ungrouped grouped = text) (separated : ',' ∈ grouped) :
    read currency grouped =
      (read currency text).map fun s => { s with grouping := some .auto } := by
  subst inserted
  have still : ∀ c ∈ ungrouped (ungrouped grouped), Mark c :=
    fun c member => marks c (List.mem_filter.mp member).1
  have present : grouped.any (· == ',') = true :=
    List.any_eq_true.mpr ⟨',', separated, beq_self_eq_true _⟩
  rw [read_numerals currency (numerals_of_marks marks),
    read_numerals currency (numerals_of_marks still), ofTokens_ungrouped marks, present]
  cases NumberRun.ofTokens (tokens (ungrouped grouped)) with
  | error e => rfl
  | ok run => exact congrArg Except.ok (ofSettings_regrouped run)

theorem read_grouped_everywhere :
    (∀ c ∈ "##0.05#".toList, c = '#' ∨ c.isDigit = true ∨ c = '.') ∧
      ungrouped ",#,#0,.0,5,#".toList = "##0.05#".toList ∧ ',' ∈ ",#,#0,.0,5,#".toList ∧
      read none ",#,#0,.0,5,#".toList =
        (read none "##0.05#".toList).map (fun s => { s with grouping := some .auto }) ∧
      read none "##0.05#".toList =
        .ok { precision := some (.increment (.ofDecimal false (.scaled 5 (-2)))) } ∧
      read none ",#,#0,.0,5,#".toList =
        .ok { precision := some (.increment (.ofDecimal false (.scaled 5 (-2)))),
              grouping := some .auto } := by
  have marks : ∀ c ∈ "##0.05#".toList, c = '#' ∨ c.isDigit = true ∨ c = '.' := by
    have checked : "##0.05#".toList.all (fun c => c == '#' || (c.isDigit || c == '.')) = true := by
      decide
    intro c member
    simpa only [Bool.or_eq_true, beq_iff_eq] using List.all_eq_true.mp checked c member
  have inserted : ungrouped ",#,#0,.0,5,#".toList = "##0.05#".toList := by decide
  have separated : ',' ∈ ",#,#0,.0,5,#".toList := by decide
  have plain : read none "##0.05#".toList =
      .ok { precision := some (.increment (.ofDecimal false (.scaled 5 (-2)))) } := by
    decide +kernel
  have grouped := read_grouped none marks inserted separated
  refine ⟨marks, inserted, separated, grouped, plain, ?_⟩
  rw [grouped, plain]
  rfl

end Pattern
end NumberFormat
