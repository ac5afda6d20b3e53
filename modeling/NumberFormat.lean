import NumberFormat.Binary64.Arithmetic
import NumberFormat.Binary64.Basic
import NumberFormat.Binary64.Literal
import NumberFormat.Binary64.Rounding
import NumberFormat.Binary64.Shortest
import NumberFormat.Decimal.Basic
import NumberFormat.Decimal.Digits
import NumberFormat.Decimal.Rounding
import NumberFormat.Diagnostic
import NumberFormat.Format.DigitRule
import NumberFormat.Format.Number
import NumberFormat.Format.NumberingSystem
import NumberFormat.Format.PowerOfTen
import NumberFormat.Format.Sign
import NumberFormat.Format.Wrapping
import NumberFormat.Formula.Error
import NumberFormat.Formula.Loading
import NumberFormat.Formula.OfPlan
import NumberFormat.Formula.Printer
import NumberFormat.Formula.Term
import NumberFormat.Formula.Tree
import NumberFormat.Json.Basic
import NumberFormat.Json.Number
import NumberFormat.Json.Parser
import NumberFormat.Json.Printer
import NumberFormat.Locale.Basic
import NumberFormat.Locale.BuiltIn
import NumberFormat.Locale.Reading
import NumberFormat.Locale.Standard
import NumberFormat.Locale.Tables
import NumberFormat.Options.Basic
import NumberFormat.Options.Count
import NumberFormat.Options.OfSkeleton
import NumberFormat.Options.Record
import NumberFormat.Pattern.Error
import NumberFormat.Pattern.NumberRun
import NumberFormat.Pattern.Reading
import NumberFormat.Pattern.Token
import NumberFormat.Plan.Basic
import NumberFormat.Plan.Compile
import NumberFormat.Proofs.Binary64.Precision
import NumberFormat.Proofs.Binary64.Range
import NumberFormat.Proofs.Binary64.ReadBack
import NumberFormat.Proofs.Binary64.Shortest
import NumberFormat.Proofs.Binary64.Spelling
import NumberFormat.Proofs.Binary64.Written
import NumberFormat.Proofs.Decimal.Canonical
import NumberFormat.Proofs.Decimal.DigitString
import NumberFormat.Proofs.Decimal.Digitwise
import NumberFormat.Proofs.Decimal.Order
import NumberFormat.Proofs.Decimal.Rendering
import NumberFormat.Proofs.Decimal.Value
import NumberFormat.Proofs.Format.Compact
import NumberFormat.Proofs.Format.CompactText
import NumberFormat.Proofs.Format.Exponential
import NumberFormat.Proofs.Format.FractionDigits
import NumberFormat.Proofs.Format.Monotone
import NumberFormat.Proofs.Format.Respelling
import NumberFormat.Proofs.Format.Shown
import NumberFormat.Proofs.Format.Sign
import NumberFormat.Proofs.Format.SignDisplay
import NumberFormat.Proofs.Format.Significant
import NumberFormat.Proofs.Format.Standard
import NumberFormat.Proofs.Formula.Language
import NumberFormat.Proofs.Formula.Layout
import NumberFormat.Proofs.Formula.Offsets
import NumberFormat.Proofs.Formula.Written
import NumberFormat.Proofs.Json.Numbers
import NumberFormat.Proofs.Json.Strings
import NumberFormat.Proofs.Json.Values
import NumberFormat.Proofs.Json.Written
import NumberFormat.Proofs.Options.Record
import NumberFormat.Proofs.Pattern.FractionDigits
import NumberFormat.Proofs.Pattern.Grammar
import NumberFormat.Proofs.Pattern.Grouping
import NumberFormat.Proofs.Pattern.Parts
import NumberFormat.Proofs.Pattern.Quotation
import NumberFormat.Proofs.Pattern.Reserialization
import NumberFormat.Proofs.Pattern.Scan
import NumberFormat.Proofs.Pattern.Spelling
import NumberFormat.Proofs.Pattern.Subpatterns
import NumberFormat.Proofs.Pattern.Tokens
import NumberFormat.Proofs.Pattern.WellFormed
import NumberFormat.Proofs.Plan.Formatting
import NumberFormat.Proofs.Plan.Numerals
import NumberFormat.Proofs.Plan.Percent
import NumberFormat.Proofs.Sequence
import NumberFormat.Proofs.Skeleton.Blueprints
import NumberFormat.Proofs.Skeleton.Choices
import NumberFormat.Proofs.Skeleton.Language
import NumberFormat.Proofs.Skeleton.Overlay
import NumberFormat.Proofs.Skeleton.Rereading
import NumberFormat.Proofs.Skeleton.RoundTrip
import NumberFormat.Proofs.Skeleton.WellFormed
import NumberFormat.Proofs.Skeleton.Words
import NumberFormat.Proofs.Text.Listed
import NumberFormat.Proofs.Text.Run
import NumberFormat.Proofs.Text.Words
import NumberFormat.Skeleton.Axes
import NumberFormat.Skeleton.Basic
import NumberFormat.Skeleton.Blueprint
import NumberFormat.Skeleton.Parser
import NumberFormat.Skeleton.Printer
import NumberFormat.Skeleton.Setting
import NumberFormat.Skeleton.Stem
import NumberFormat.Text.Blank
import NumberFormat.Text.HexDigit
import NumberFormat.Text.Letter
import NumberFormat.Text.Space
import NumberFormat.Text.Template
import NumberFormat.Text.Vocabulary
import NumberFormat.Toml.Basic
import NumberFormat.Toml.Document
import NumberFormat.Toml.Line
import NumberFormat.Toml.Moment
import NumberFormat.Toml.Number
import NumberFormat.Toml.Parser
import NumberFormat.Toml.Quoted
import NumberFormat.Toml.Table
