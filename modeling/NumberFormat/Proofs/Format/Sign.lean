import NumberFormat.Binary64.Arithmetic
import NumberFormat.Format.Number

namespace NumberFormat

/-!
Signs of values and of the texts that show them.

A formatter decides on the sign last.  What it shows without sign is the same for a value and for
its negative, and products and hundredths carry the sign along.
-/

namespace Binary64

/-- The number with the other sign. -/
def negate : Binary64 → Binary64
  | nan => nan
  | infinite negative => infinite (!negative)
  | finite negative m => finite (!negative) m

theorem isNegative_of_isPositive {x : Binary64} (positive : x.isPositive = true) :
    x.isNegative = false := by
  cases x with
  | nan => rfl
  | infinite negative => cases negative <;> first | rfl | cases positive
  | finite negative m => cases negative <;> first | rfl | cases positive

theorem isNegative_negate {x : Binary64} (positive : x.isPositive = true) :
    x.negate.isNegative = true := by
  cases x with
  | nan => cases positive
  | infinite negative => exact positive
  | finite negative m => exact positive

theorem hasMinus_of_isPositive {x : Binary64} (positive : x.isPositive = true) :
    x.hasMinus = false := by
  cases x with
  | nan => rfl
  | infinite negative => cases negative <;> first | rfl | cases positive
  | finite negative m => cases negative <;> first | rfl | cases positive

theorem isNegative_of_hasMinus_eq_false {x : Binary64} (noMinus : x.hasMinus = false) :
    x.isNegative = false := by
  cases x with
  | nan => rfl
  | infinite negative => exact noMinus
  | finite negative m =>
      have positive : negative = false := noMinus
      rw [isNegative, positive, Bool.false_and]

theorem signed_not (negative : Bool) (size : Option Magnitude) :
    signed (!negative) size = (signed negative size).negate := by
  cases size <;> rfl

theorem multiply_negate (x y : Binary64) : x.negate.multiply y = (x.multiply y).negate := by
  cases x with
  | nan => cases y <;> rfl
  | infinite left =>
      cases y with
      | nan => rfl
      | infinite right => exact congrArg infinite (Bool.not_bne left right)
      | finite right n =>
          rw [negate, multiply, multiply, Bool.not_bne]
          cases n.isZero <;> rfl
  | finite left m =>
      cases y with
      | nan => rfl
      | infinite right =>
          rw [negate, multiply, multiply, Bool.not_bne]
          cases m.isZero <;> rfl
      | finite right n =>
          rw [negate, multiply, multiply, Bool.not_bne]
          exact signed_not _ _

theorem hundredth_negate (x : Binary64) : x.negate.hundredth = x.hundredth.negate := by
  cases x with
  | nan => rfl
  | infinite negative => rfl
  | finite negative m =>
      simp only [negate, hundredth]
      split
      · rfl
      · exact signed_not _ _

theorem hasMinus_signed (negative : Bool) (size : Option Magnitude) :
    (signed negative size).hasMinus = negative := by
  cases size <;> rfl

theorem hasMinus_hundredth (x : Binary64) : x.hundredth.hasMinus = x.hasMinus := by
  cases x with
  | nan => rfl
  | infinite negative => rfl
  | finite negative m =>
      unfold hundredth
      dsimp only
      split
      · rfl
      · exact hasMinus_signed _ _

end Binary64

namespace Format

/-- A value as text without its sign. -/
def unsigned (tables : Tables) (locale : Locale) (options : Options) (value : Binary64) :
    List Char :=
  wrap tables locale options (localize tables locale (showValue tables locale options value).1)

/-- The sign of a value plays no part in its digits. -/
theorem showValue_negate (tables : Tables) (locale : Locale) (options : Options)
    (value : Binary64) :
    showValue tables locale options value.negate = showValue tables locale options value := by
  cases value <;> rfl

theorem unsigned_negate (tables : Tables) (locale : Locale) (options : Options)
    (value : Binary64) :
    unsigned tables locale options value.negate = unsigned tables locale options value := by
  rw [unsigned, showValue_negate, unsigned]

/-- Which signs are shown plays no part in the text without sign. -/
theorem unsigned_signDisplay (tables : Tables) (locale : Locale) (options : Options)
    (sign : Option Options.SignDisplay) (value : Binary64) :
    unsigned tables locale { options with signDisplay := sign } value =
      unsigned tables locale options value := by
  cases value <;> rfl

theorem number_never {options : Options} (never : options.signDisplay = some .never)
    (tables : Tables) (locale : Locale) (value : Binary64) :
    number tables locale options value = unsigned tables locale options value := by
  unfold number
  rw [never]
  rfl

/-- Where nothing is said about the sign, only a minus is shown. -/
theorem number_plain {options : Options} (silent : options.signDisplay = none)
    (tables : Tables) (locale : Locale) {value : Binary64} (noMinus : value.hasMinus = false) :
    number tables locale options value = unsigned tables locale options value := by
  unfold number
  rw [silent, noMinus]
  rfl

end Format
end NumberFormat
