import NumberFormat.Text.Space

namespace NumberFormat
namespace Text

/-!
Runs of characters at the beginning of a text, and spaces.

A reader takes the longest run of characters of some kind.  So a run that is written down comes
back whole exactly when what follows it does not go on with the same kind of character.
-/

section

variable (kind : Char → Bool)

/-- Whether a text does not begin with a character of this kind. -/
def StopsBefore (text : List Char) : Prop :=
  ∀ c ∈ text.head?, kind c = false

variable {kind}

theorem stopsBefore_nil : StopsBefore kind [] := by
  intro c member
  cases member

theorem stopsBefore_cons {c : Char} {rest : List Char} (other : kind c = false) :
    StopsBefore kind (c :: rest) := by
  intro d member
  cases member
  exact other

instance : (text : List Char) → Decidable (StopsBefore kind text)
  | [] => isTrue stopsBefore_nil
  | c :: _ => decidable_of_iff (kind c = false) ⟨stopsBefore_cons, fun stop => stop c rfl⟩

theorem stopsBefore_dropWhile (text : List Char) : StopsBefore kind (text.dropWhile kind) := by
  intro c member
  have found := List.head?_dropWhile_not kind text
  rw [Option.mem_def] at member
  rw [member] at found
  simpa using found

theorem dropWhile_of_stopsBefore {rest : List Char} (stop : StopsBefore kind rest) :
    rest.dropWhile kind = rest := by
  cases rest with
  | nil => rfl
  | cons c tail => simp [stop c rfl]

theorem takeWhile_of_stopsBefore {rest : List Char} (stop : StopsBefore kind rest) :
    rest.takeWhile kind = [] := by
  cases rest with
  | nil => rfl
  | cons c tail => simp [stop c rfl]

theorem takeWhile_run {run rest : List Char} (all : ∀ c ∈ run, kind c = true)
    (stop : StopsBefore kind rest) : (run ++ rest).takeWhile kind = run := by
  rw [List.takeWhile_append_of_pos all, takeWhile_of_stopsBefore stop, List.append_nil]

theorem dropWhile_run {run rest : List Char} (all : ∀ c ∈ run, kind c = true)
    (stop : StopsBefore kind rest) : (run ++ rest).dropWhile kind = rest := by
  rw [List.dropWhile_append_of_pos all, dropWhile_of_stopsBefore stop]

/-- A run ends where it did if what is put behind the text does not go on with it. -/
theorem takeWhile_append_stop (text : List Char) {rest : List Char}
    (stop : StopsBefore kind rest) : (text ++ rest).takeWhile kind = text.takeWhile kind := by
  induction text with
  | nil => exact takeWhile_of_stopsBefore stop
  | cons c text ih =>
      cases inside : kind c with
      | true => rw [List.cons_append, List.takeWhile_cons_of_pos inside,
          List.takeWhile_cons_of_pos inside, ih]
      | false =>
          have outside : ¬kind c = true := Bool.eq_false_iff.mp inside
          rw [List.cons_append, List.takeWhile_cons_of_neg outside,
            List.takeWhile_cons_of_neg outside]

theorem dropWhile_append_stop (text : List Char) {rest : List Char}
    (stop : StopsBefore kind rest) :
    (text ++ rest).dropWhile kind = text.dropWhile kind ++ rest := by
  induction text with
  | nil => exact dropWhile_of_stopsBefore stop
  | cons c text ih =>
      cases inside : kind c with
      | true => rw [List.cons_append, List.dropWhile_cons_of_pos inside,
          List.dropWhile_cons_of_pos inside, ih]
      | false =>
          have outside : ¬kind c = true := Bool.eq_false_iff.mp inside
          rw [List.cons_append, List.dropWhile_cons_of_neg outside,
            List.dropWhile_cons_of_neg outside, List.cons_append]

/-- Two texts are the same only if their runs are, and so is what stops these. -/
theorem run_append_inj {run other rest behind : List Char} (all : ∀ c ∈ run, kind c = true)
    (otherAll : ∀ c ∈ other, kind c = true) (stop : StopsBefore kind rest)
    (otherStop : StopsBefore kind behind) (same : run ++ rest = other ++ behind) :
    run = other ∧ rest = behind := by
  have runs := congrArg (List.takeWhile kind) same
  have rests := congrArg (List.dropWhile kind) same
  rw [takeWhile_run all stop, takeWhile_run otherAll otherStop] at runs
  rw [dropWhile_run all stop, dropWhile_run otherAll otherStop] at rests
  exact ⟨runs, rests⟩

theorem StopsBefore.mono {other : Char → Bool} {rest : List Char} (stop : StopsBefore kind rest)
    (weaker : ∀ c, kind c = false → other c = false) : StopsBefore other rest :=
  fun c member => weaker c (stop c member)

end

theorem mem_takeWhile_imp {kind : Char → Bool} {text : List Char} {c : Char}
    (member : c ∈ text.takeWhile kind) : kind c = true :=
  List.all_eq_true.mp List.all_takeWhile c member

theorem eq_replicate_of_all {mark : Char} {text : List Char}
    (all : text.all (· == mark) = true) : text = List.replicate text.length mark := by
  refine List.eq_replicate_iff.mpr ⟨rfl, ?_⟩
  intro c member
  exact beq_iff_eq.mp (List.all_eq_true.mp all c member)

/-- A run of one character is that character as often as the run is long. -/
theorem replicate_append_dropWhile (mark : Char) (text : List Char) :
    List.replicate (text.takeWhile (· == mark)).length mark ++ text.dropWhile (· == mark) =
      text := by
  rw [← eq_replicate_of_all List.all_takeWhile, List.takeWhile_append_dropWhile]

/-! ## Spaces -/

/-- A kind of characters is clear of spaces if it is clear of each of the four. -/
theorem clear_of_isSpace {kind : Char → Bool} (blank : kind ' ' = false) (tab : kind '\t' = false)
    (feed : kind '\n' = false) (carriage : kind '\r' = false) (c : Char)
    (space : isSpace c = true) : kind c = false := by
  simp only [isSpace, Bool.or_eq_true, beq_iff_eq] at space
  rcases space with ((rfl | rfl) | rfl) | rfl
  · exact blank
  · exact tab
  · exact feed
  · exact carriage

theorem isSpace_eq_false {kind : Char → Bool} (clear : ∀ c, isSpace c = true → kind c = false)
    {c : Char} (inside : kind c = true) : isSpace c = false := by
  rw [Bool.eq_false_iff]
  intro space
  rw [clear c space] at inside
  cases inside

/-- Whether a text consists of spaces. -/
def Spaces (text : List Char) : Prop :=
  ∀ c ∈ text, isSpace c = true

theorem spaces_nil : Spaces [] := by
  intro c member
  cases member

theorem spaces_singleton : Spaces [' '] := by
  intro c member
  rw [List.mem_singleton.mp member]
  rfl

/-- Every text is a gap of spaces and what remains when they are skipped. -/
theorem exists_gap (text : List Char) :
    ∃ gap, Spaces gap ∧ text = gap ++ skipSpace text ∧ StopsBefore isSpace (skipSpace text) :=
  ⟨text.takeWhile isSpace, fun _ member => mem_takeWhile_imp member,
    List.takeWhile_append_dropWhile.symm, stopsBefore_dropWhile text⟩

theorem skipSpace_gap {gap rest : List Char} (spaces : Spaces gap)
    (stop : StopsBefore isSpace rest) : skipSpace (gap ++ rest) = rest :=
  dropWhile_run spaces stop

theorem skipSpace_of_spaces {gap : List Char} (spaces : Spaces gap) : skipSpace gap = [] := by
  have skipped := skipSpace_gap spaces stopsBefore_nil
  rwa [List.append_nil] at skipped

theorem spaces_of_skipSpace_eq_nil {text : List Char} (empty : skipSpace text = []) :
    Spaces text := by
  rcases exists_gap text with ⟨gap, spaces, same, _⟩
  rw [empty, List.append_nil] at same
  rwa [same]

end Text
end NumberFormat
