import NumberFormat.Json.Parser
import NumberFormat.Json.Printer
import NumberFormat.Options.Basic

namespace NumberFormat
namespace Options

/-!
Options as JSON objects with one member for each option that is set.

Reading is strict.  A member is one of the options, its value has the option's type or is null, which
leaves the option unset, and a count is a whole number below `2 ^ 32`.  A word may also stand as
the only name in an object, over a null.
-/

/-! ## Writing -/

def wordJson {α : Type} [Text.Vocabulary α] (value : α) : Json :=
  .string (Text.Vocabulary.word value)

def countJson (count : Count) : Json :=
  .whole count.value

/-- All members in order, with nothing in place of those that are unset. -/
def members (o : Options) : List (String × Option Json) :=
  [("style", o.style.map wordJson),
    ("currency", o.currency.map .string),
    ("currencyDisplay", o.currencyDisplay.map wordJson),
    ("unit", o.unit.map .string),
    ("unitDisplay", o.unitDisplay.map wordJson),
    ("useGrouping", o.useGrouping.map .boolean),
    ("minimumIntegerDigits", o.minimumIntegerDigits.map countJson),
    ("minimumFractionDigits", o.minimumFractionDigits.map countJson),
    ("maximumFractionDigits", o.maximumFractionDigits.map countJson),
    ("minimumSignificantDigits", o.minimumSignificantDigits.map countJson),
    ("maximumSignificantDigits", o.maximumSignificantDigits.map countJson),
    ("notation", o.form.map wordJson),
    ("compactDisplay", o.compactDisplay.map wordJson),
    ("signDisplay", o.signDisplay.map wordJson),
    ("currencySign", o.currencySign.map wordJson)]

/-- The options as an object. -/
def json (o : Options) : Json :=
  .object (o.members.filterMap (fun member => member.2.map (fun value => (member.1, value))))

/-- The options as JSON text. -/
def text (o : Options) : String :=
  o.json.render

/-! ## Reading -/

/-- A value that may be null, which sets nothing. -/
def nullable? {α : Type} (read : Json → Option α) : Json → Option (Option α)
  | .null => some none
  | value => (read value).map some

def text? : Json → Option String
  | .string value => some value
  | _ => none

def flag? : Json → Option Bool
  | .boolean value => some value
  | _ => none

def count? : Json → Option Count
  | .whole value => Count.ofNat? value
  | _ => none

def word? (α : Type) [Text.Vocabulary α] : Json → Option α
  | .string word => Text.valueOf? α word
  | .object [(word, .null)] => Text.valueOf? α word
  | _ => none

/-- The options with one member read into them. -/
def withMember? (o : Options) (name : String) (value : Json) : Option Options :=
  match name with
  | "style" => (nullable? (word? Style) value).map (fun x => { o with style := x })
  | "currency" => (nullable? text? value).map (fun x => { o with currency := x })
  | "currencyDisplay" =>
      (nullable? (word? CurrencyDisplay) value).map (fun x => { o with currencyDisplay := x })
  | "unit" => (nullable? text? value).map (fun x => { o with unit := x })
  | "unitDisplay" =>
      (nullable? (word? UnitDisplay) value).map (fun x => { o with unitDisplay := x })
  | "useGrouping" => (nullable? flag? value).map (fun x => { o with useGrouping := x })
  | "minimumIntegerDigits" =>
      (nullable? count? value).map (fun x => { o with minimumIntegerDigits := x })
  | "minimumFractionDigits" =>
      (nullable? count? value).map (fun x => { o with minimumFractionDigits := x })
  | "maximumFractionDigits" =>
      (nullable? count? value).map (fun x => { o with maximumFractionDigits := x })
  | "minimumSignificantDigits" =>
      (nullable? count? value).map (fun x => { o with minimumSignificantDigits := x })
  | "maximumSignificantDigits" =>
      (nullable? count? value).map (fun x => { o with maximumSignificantDigits := x })
  | "notation" => (nullable? (word? Form) value).map (fun x => { o with form := x })
  | "compactDisplay" =>
      (nullable? (word? CompactDisplay) value).map (fun x => { o with compactDisplay := x })
  | "signDisplay" =>
      (nullable? (word? SignDisplay) value).map (fun x => { o with signDisplay := x })
  | "currencySign" =>
      (nullable? (word? CurrencySign) value).map (fun x => { o with currencySign := x })
  | _ => none

/-- The options of a JSON value. -/
def ofJson? : Json → Option Options
  | .object members => members.foldlM (fun o member => o.withMember? member.1 member.2) unset
  | _ => none

end Options
end NumberFormat
