import NumberFormat.Text.Vocabulary

namespace NumberFormat

/-!
Diagnostics: what was left out or only approximated while a skeleton was read or compiled.

A diagnostic never interrupts anything.  It names the stem concerned and, where there is one, the
text of the option or value that gave the reason.
-/

namespace Diagnostic

/-- The kinds of diagnostics. -/
inductive Code where
  | badStem
  | missingOption
  | tooManyOptions
  | badOption
  | unsupported
deriving DecidableEq

instance : Text.Vocabulary Code where
  values := [.badStem, .missingOption, .tooManyOptions, .badOption, .unsupported]
  word
    | .badStem => "BAD_STEM"
    | .missingOption => "MISSING_OPTION"
    | .tooManyOptions => "TOO_MANY_OPTIONS"
    | .badOption => "BAD_OPTION"
    | .unsupported => "UNSUPPORTED"
  complete := by intro value; cases value <;> simp
  distinct := by intro value other; cases value <;> cases other <;> simp

end Diagnostic

structure Diagnostic where
  code : Diagnostic.Code
  stem : String
  source : Option String
deriving DecidableEq

namespace Diagnostic

/-- An unknown stem, which is ignored. -/
def badStem (stem : String) : Diagnostic :=
  ⟨.badStem, stem, none⟩

/-- A stem without the option it needs, which is ignored. -/
def missingOption (stem : String) : Diagnostic :=
  ⟨.missingOption, stem, none⟩

/-- Options beyond those a stem takes. -/
def tooManyOptions (stem excess : String) : Diagnostic :=
  ⟨.tooManyOptions, stem, some excess⟩

/-- An option that does not have the form its stem asks for. -/
def badOption (stem option : String) : Diagnostic :=
  ⟨.badOption, stem, some option⟩

/-- A stem that was understood but is not, or not exactly, followed. -/
def unsupported (stem : String) (source : Option String) : Diagnostic :=
  ⟨.unsupported, stem, source⟩

/-- The diagnostic as a sentence. -/
def message (d : Diagnostic) : String :=
  match d.code, d.source with
  | .badStem, _ => "Unknown stem: " ++ d.stem
  | .missingOption, _ => "A " ++ d.stem ++ " stem requires an option"
  | .tooManyOptions, some excess => "Too many options for " ++ d.stem ++ ", ignoring " ++ excess
  | .tooManyOptions, none => "Too many options for " ++ d.stem
  | .badOption, some option => "Bad option for " ++ d.stem ++ ": " ++ option
  | .badOption, none => "Bad option for " ++ d.stem
  | .unsupported, some source =>
      "The stem " ++ d.stem ++ " is not supported with value " ++ source
  | .unsupported, none => "The stem " ++ d.stem ++ " is not supported"

end Diagnostic
end NumberFormat
