import NumberFormat.Proofs.Skeleton.Words

namespace NumberFormat
namespace Skeleton

/-!
Skeletons that were read are written as text that is read as them again.

What a text sets is made of the settings of its words.  Each choice of the skeleton is one of them
and has a word of its own, and the words of all choices with blanks between them make the skeleton.
-/

/-- The settings that words make, in order. -/
def settings (words : List (List Char)) : List Setting :=
  (words.map readWord).filterMap Reported.result

theorem read_result (text : List Char) :
    (read text).result = ofSettings (settings (Text.words text)) :=
  rfl

theorem affix_read (text : List Char) : (read text).result.affix = none := by
  rw [read_result, affix_ofSettings]

theorem readsBack_of_mem_settings {text : List Char} {setting : Setting}
    (member : setting ∈ settings (Text.words text)) : ReadsBack setting := by
  rcases List.mem_filterMap.mp member with ⟨reported, listed, made⟩
  rcases List.mem_map.mp listed with ⟨word, inside, rfl⟩
  exact readsBack_of_readWord (Text.unbroken_of_mem_words inside).2 made

theorem ReadsAs.nonempty {setting other : Setting} (reads : ReadsAs setting other) :
    setting.word.toList ≠ [] :=
  ne_nil_of_readWord (congrArg Reported.result reads.read)

section

variable {s : Skeleton} {again : Setting → Setting}
  (reads : ∀ setting ∈ s.choices, ReadsAs setting (again setting))

include reads

/-- The words of written text are those of the choices. -/
theorem words_text :
    Text.words s.text.toList = s.choices.map (fun setting => setting.word.toList) := by
  have spaced : s.text.toList =
      [' '].intercalate (s.choices.map (fun setting => setting.word.toList)) := by
    rw [text, String.toList_intercalate, stems_eq, List.map_map]
    rfl
  rw [spaced]
  apply Text.words_intercalate
  intro word listed
  rcases List.mem_map.mp listed with ⟨setting, inside, rfl⟩
  exact ⟨(reads setting inside).nonempty, (reads setting inside).unbroken⟩

/-- Written text makes what the words of the choices are read as, without any report. -/
theorem read_text_as : read s.text.toList = ⟨ofSettings (s.choices.map again), []⟩ := by
  have reports : (Text.words s.text.toList).map readWord =
      s.choices.map (fun setting => ⟨some (again setting), []⟩) := by
    rw [words_text reads, List.map_map]
    exact List.map_congr_left (fun setting inside => (reads setting inside).read)
  have made : settings (Text.words s.text.toList) = s.choices.map again := by
    rw [settings, reports, List.filterMap_map]
    exact List.filterMap_eq_map ▸ rfl
  have silent : ((Text.words s.text.toList).map readWord).flatMap Reported.diagnostics = [] := by
    rw [reports, List.flatMap_eq_nil_iff]
    intro reported listed
    rcases List.mem_map.mp listed with ⟨setting, _, rfl⟩
    rfl
  calc
    read s.text.toList = ⟨ofSettings (settings (Text.words s.text.toList)), []⟩ := by
      rw [read, silent, settings]
    _ = ⟨ofSettings (s.choices.map again), []⟩ := by rw [made]

end

theorem read_text {s : Skeleton} (bare : s.affix = none)
    (back : ∀ setting ∈ s.choices, ReadsBack setting) : read s.text.toList = ⟨s, []⟩ := by
  have reads : ∀ setting ∈ s.choices, ReadsAs setting (id setting) :=
    fun setting inside => (back setting inside).readsAs
  rw [read_text_as reads, List.map_id, ofSettings_choices bare]

/--
Whatever a text is read as, and whatever was reported on the way, is written as text that is read as
the same without any report.  So skeletons that are written alike are the same.
-/
theorem read_text_read (text : List Char) :
    read (read text).result.text.toList = ⟨(read text).result, []⟩ ∧
      ∀ other : List Char, (read other).result.text = (read text).result.text →
        (read other).result = (read text).result := by
  have again (source : List Char) :
      read (read source).result.text.toList = ⟨(read source).result, []⟩ :=
    read_text (affix_read source)
      (fun _ chosen => readsBack_of_mem_settings (mem_of_mem_choices chosen))
  refine ⟨again text, ?_⟩
  intro other same
  have first := again other
  rw [same, again text] at first
  exact (congrArg Reported.result first).symm

end Skeleton
end NumberFormat
