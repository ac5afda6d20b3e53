import NumberFormat.Options.Record
import NumberFormat.Proofs.Json.Written

namespace NumberFormat
namespace Options

open Text

/-!
Options written as JSON are read back as the options they were.

Every member that is set is a scalar with a name of its own, so the whole object is a spelling, and
reading it puts each option in its place again.
-/

/-! ## Members -/

theorem nullable?_wordJson {α : Type} [Vocabulary α] (value : α) :
    nullable? (word? α) (wordJson value) = some (some value) := by
  simp only [wordJson, nullable?, word?, valueOf?_word, Option.map_some]

theorem nullable?_string (value : String) :
    nullable? text? (.string value) = some (some value) :=
  rfl

theorem nullable?_boolean (value : Bool) :
    nullable? flag? (.boolean value) = some (some value) :=
  rfl

theorem nullable?_countJson (count : Count) :
    nullable? count? (countJson count) = some (some count) := by
  simp only [countJson, nullable?, count?, Count.ofNat?_value, Option.map_some]

/-- The options with one member read into them, if it is there. -/
def withOptional? (o : Options) (name : String) : Option Json → Option Options
  | none => some o
  | some value => o.withMember? name value

/--
A member puts its option in place, or leaves the place empty if it is missing.  How a member is
read depends on its name alone, and `put` is what that makes of a value.
-/
theorem withOptional?_bind {α : Type} {read : Json → Option α} {write : α → Json} {name : String}
    {o : Options} (inverse : ∀ value, nullable? read (write value) = some (some value))
    (put : Options → Option α → Options) (free : put o none = o)
    (member : ∀ value, o.withMember? name value = (nullable? read value).map (put o))
    (field : Option α) (next : Options → Option Options) :
    (o.withOptional? name (field.map write)).bind next = next (put o field) := by
  cases field with
  | none => rw [Option.map_none, withOptional?, Option.bind_some, free]
  | some value =>
      rw [Option.map_some, withOptional?, member, inverse, Option.map_some, Option.bind_some]

/-- The members that are set. -/
def present (members : List (String × Option Json)) : List (String × Json) :=
  members.filterMap (fun member => member.2.map (fun value => (member.1, value)))

theorem json_eq (o : Options) : o.json = .object (present o.members) :=
  rfl

/-- Members that are missing are passed over. -/
theorem foldlM_present (members : List (String × Option Json)) (o : Options) :
    (present members).foldlM (fun o member => o.withMember? member.1 member.2) o =
      members.foldlM (fun o member => o.withOptional? member.1 member.2) o := by
  induction members generalizing o with
  | nil => rfl
  | cons member members ih =>
      rcases member with ⟨name, value⟩
      cases value with
      | none => exact ih o
      | some value =>
          have first : present ((name, some value) :: members) = (name, value) :: present members :=
            rfl
          rw [first, List.foldlM_cons, List.foldlM_cons]
          exact congrArg _ (funext ih)

/-- Reading back what is written. -/
theorem ofJson?_json (o : Options) : ofJson? o.json = some o := by
  rw [json_eq, ofJson?, foldlM_present]
  simp only [members, List.foldlM_cons, List.foldlM_nil, Option.bind_eq_bind]
  refine (withOptional?_bind nullable?_wordJson (fun p x => { p with style := x }) (by rfl)
    (fun _ => by rfl) _ _).trans ?_
  refine (withOptional?_bind nullable?_string (fun p x => { p with currency := x }) (by rfl)
    (fun _ => by rfl) _ _).trans ?_
  refine (withOptional?_bind nullable?_wordJson (fun p x => { p with currencyDisplay := x })
    (by rfl) (fun _ => by rfl) _ _).trans ?_
  refine (withOptional?_bind nullable?_string (fun p x => { p with unit := x }) (by rfl)
    (fun _ => by rfl) _ _).trans ?_
  refine (withOptional?_bind nullable?_wordJson (fun p x => { p with unitDisplay := x }) (by rfl)
    (fun _ => by rfl) _ _).trans ?_
  refine (withOptional?_bind nullable?_boolean (fun p x => { p with useGrouping := x }) (by rfl)
    (fun _ => by rfl) _ _).trans ?_
  refine (withOptional?_bind nullable?_countJson (fun p x => { p with minimumIntegerDigits := x })
    (by rfl) (fun _ => by rfl) _ _).trans ?_
  refine (withOptional?_bind nullable?_countJson (fun p x => { p with minimumFractionDigits := x })
    (by rfl) (fun _ => by rfl) _ _).trans ?_
  refine (withOptional?_bind nullable?_countJson (fun p x => { p with maximumFractionDigits := x })
    (by rfl) (fun _ => by rfl) _ _).trans ?_
  refine (withOptional?_bind nullable?_countJson
    (fun p x => { p with minimumSignificantDigits := x }) (by rfl) (fun _ => by rfl) _ _).trans ?_
  refine (withOptional?_bind nullable?_countJson
    (fun p x => { p with maximumSignificantDigits := x }) (by rfl) (fun _ => by rfl) _ _).trans ?_
  refine (withOptional?_bind nullable?_wordJson (fun p x => { p with form := x }) (by rfl)
    (fun _ => by rfl) _ _).trans ?_
  refine (withOptional?_bind nullable?_wordJson (fun p x => { p with compactDisplay := x }) (by rfl)
    (fun _ => by rfl) _ _).trans ?_
  refine (withOptional?_bind nullable?_wordJson (fun p x => { p with signDisplay := x }) (by rfl)
    (fun _ => by rfl) _ _).trans ?_
  refine (withOptional?_bind nullable?_wordJson (fun p x => { p with currencySign := x }) (by rfl)
    (fun _ => by rfl) _ _).trans ?_
  rfl

/-! ## Spelling -/

section

open Json (ScalarSpelling)

theorem string_scalar (value : String) :
    ScalarSpelling (.string value) (Json.string value).written :=
  .string (Json.quoted_spelling value)

theorem boolean_scalar (value : Bool) :
    ScalarSpelling (.boolean value) (Json.boolean value).written := by
  cases value with
  | true => exact .trueWord
  | false => exact .falseWord

theorem count_scalar (count : Count) :
    ScalarSpelling (countJson count) (countJson count).written := by
  have fits : countLimit ≤ Json.wholeLimit := by decide
  exact .number (Json.whole_spelling (Nat.le_trans count.bounded fits))

theorem scalar_of_mem_map {α : Type} {write : α → Json} {field : Option α}
    (scalar : ∀ value, ScalarSpelling (write value) (write value).written) :
    ∀ value ∈ field.map write, ScalarSpelling value value.written := by
  intro value member
  rcases Option.map_eq_some_iff.mp member with ⟨inner, _, rfl⟩
  exact scalar inner

theorem scalar_of_mem_members (o : Options) :
    ∀ member ∈ o.members, ∀ value ∈ member.2, ScalarSpelling value value.written := by
  have word {α : Type} [Vocabulary α] (field : Option α) :
      ∀ value ∈ field.map wordJson, ScalarSpelling value value.written :=
    scalar_of_mem_map (fun value => string_scalar (Vocabulary.word value))
  have text (field : Option String) :
      ∀ value ∈ field.map Json.string, ScalarSpelling value value.written :=
    scalar_of_mem_map string_scalar
  have flag (field : Option Bool) :
      ∀ value ∈ field.map Json.boolean, ScalarSpelling value value.written :=
    scalar_of_mem_map boolean_scalar
  have count (field : Option Count) :
      ∀ value ∈ field.map countJson, ScalarSpelling value value.written :=
    scalar_of_mem_map count_scalar
  simp only [members, List.forall_mem_cons]
  exact ⟨word _, text _, word _, text _, word _, flag _, count _, count _, count _, count _,
    count _, word _, word _, word _, word _, fun _ member => nomatch member⟩

theorem names_sublist (members : List (String × Option Json)) :
    List.Sublist ((present members).map Prod.fst) (members.map Prod.fst) := by
  induction members with
  | nil => exact .slnil
  | cons member members ih =>
      rcases member with ⟨name, value⟩
      cases value with
      | none => exact .cons name ih
      | some value => exact .cons_cons name ih

theorem names_nodup (o : Options) : (o.members.map Prod.fst).Nodup := by
  simp only [members, List.map_cons, List.map_nil]
  decide

/-- Options are written as a spelling of their object. -/
theorem json_spelling (o : Options) (nesting : Nat) :
    Json.ValueSpelling (nesting + 1) o.json o.json.written := by
  refine Json.object_spelling ((names_sublist o.members).nodup o.names_nodup) ?_ nesting
  intro member inside
  rcases List.mem_filterMap.mp inside with ⟨optional, listed, same⟩
  rcases Option.map_eq_some_iff.mp same with ⟨value, present, rfl⟩
  exact scalar_of_mem_members o optional listed value present

end

end Options
end NumberFormat
