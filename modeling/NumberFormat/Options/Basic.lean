import NumberFormat.Options.Count
import NumberFormat.Text.Vocabulary

namespace NumberFormat

/-!
Options: what is asked of a locale-aware formatter.

Every option may be left unset, and then the formatter decides.
-/

namespace Options

/-- What a number stands for. -/
inductive Style where
  | decimal
  | currency
  | percent
  | unit
deriving DecidableEq

instance : Text.Vocabulary Style where
  values := [.decimal, .currency, .percent, .unit]
  word
    | .decimal => "decimal"
    | .currency => "currency"
    | .percent => "percent"
    | .unit => "unit"
  complete := by intro value; cases value <;> simp
  distinct := by intro value other; cases value <;> cases other <;> simp

/-- How a currency is named. -/
inductive CurrencyDisplay where
  | symbol
  | narrowSymbol
  | code
  | name
deriving DecidableEq

instance : Text.Vocabulary CurrencyDisplay where
  values := [.symbol, .narrowSymbol, .code, .name]
  word
    | .symbol => "symbol"
    | .narrowSymbol => "narrowSymbol"
    | .code => "code"
    | .name => "name"
  complete := by intro value; cases value <;> simp
  distinct := by intro value other; cases value <;> cases other <;> simp

/-- How a measure unit is named. -/
inductive UnitDisplay where
  | short
  | narrow
  | long
deriving DecidableEq

instance : Text.Vocabulary UnitDisplay where
  values := [.short, .narrow, .long]
  word
    | .short => "short"
    | .narrow => "narrow"
    | .long => "long"
  complete := by intro value; cases value <;> simp
  distinct := by intro value other; cases value <;> cases other <;> simp

/-- Whether powers of ten are written out, split off or named. -/
inductive Form where
  | standard
  | scientific
  | engineering
  | compact
deriving DecidableEq

instance : Text.Vocabulary Form where
  values := [.standard, .scientific, .engineering, .compact]
  word
    | .standard => "standard"
    | .scientific => "scientific"
    | .engineering => "engineering"
    | .compact => "compact"
  complete := by intro value; cases value <;> simp
  distinct := by intro value other; cases value <;> cases other <;> simp

/-- How powers of a thousand are named. -/
inductive CompactDisplay where
  | short
  | long
deriving DecidableEq

instance : Text.Vocabulary CompactDisplay where
  values := [.short, .long]
  word
    | .short => "short"
    | .long => "long"
  complete := by intro value; cases value <;> simp
  distinct := by intro value other; cases value <;> cases other <;> simp

/-- Which numbers show a sign. -/
inductive SignDisplay where
  | auto
  | always
  | exceptZero
  | never
deriving DecidableEq

instance : Text.Vocabulary SignDisplay where
  values := [.auto, .always, .exceptZero, .never]
  word
    | .auto => "auto"
    | .always => "always"
    | .exceptZero => "exceptZero"
    | .never => "never"
  complete := by intro value; cases value <;> simp
  distinct := by intro value other; cases value <;> cases other <;> simp

/-- Whether amounts of money below zero go into parentheses. -/
inductive CurrencySign where
  | standard
  | accounting
deriving DecidableEq

instance : Text.Vocabulary CurrencySign where
  values := [.standard, .accounting]
  word
    | .standard => "standard"
    | .accounting => "accounting"
  complete := by intro value; cases value <;> simp
  distinct := by intro value other; cases value <;> cases other <;> simp

end Options

structure Options where
  style : Option Options.Style := none
  currency : Option String := none
  currencyDisplay : Option Options.CurrencyDisplay := none
  unit : Option String := none
  unitDisplay : Option Options.UnitDisplay := none
  useGrouping : Option Bool := none
  minimumIntegerDigits : Option Options.Count := none
  minimumFractionDigits : Option Options.Count := none
  maximumFractionDigits : Option Options.Count := none
  minimumSignificantDigits : Option Options.Count := none
  maximumSignificantDigits : Option Options.Count := none
  form : Option Options.Form := none
  compactDisplay : Option Options.CompactDisplay := none
  signDisplay : Option Options.SignDisplay := none
  currencySign : Option Options.CurrencySign := none
deriving DecidableEq

namespace Options

/-- The options that ask for nothing. -/
def unset : Options := {}

end Options
end NumberFormat
