import NumberFormat.Proofs.Decimal.Order
import NumberFormat.Proofs.Format.Standard

namespace NumberFormat

open Decimal (Graded pointed ten_zpow_pos)

/-!
Larger numbers are written as larger numbers.

In every form a number is its own power of ten times a rounded mantissa.  Seen from the number
itself, the mantissa is rounded to a place that depends on the position of the decimal point only,
and these places are graded.  A carry into the next power of ten gives that power exactly, so
rounding once more changes nothing.
-/

namespace Rounding

/-- The place a decimal is rounded to, given the position of its decimal point. -/
def place : Rounding → Int → Int
  | fraction _ maximum, _ => -(maximum : Int)
  | significant _ maximum, point => point - maximum
  | compact, point => if point ≤ 2 then point - 2 else 0

/-- A rounding that keeps the first digit of every number, if it counts significant digits. -/
def Sound : Rounding → Prop
  | significant _ maximum => 1 ≤ maximum
  | _ => True

variable {rounding : Rounding}

theorem round_eq (rounding : Rounding) (d : Decimal) :
    rounding.round d = d.roundAt (rounding.place d.point) := by
  cases rounding with
  | fraction minimum maximum => rfl
  | significant minimum maximum => rfl
  | compact =>
      rw [round, place]
      split <;> rfl

theorem place_lt (sound : rounding.Sound) (point : Int) : rounding.place point < max 1 point := by
  cases rounding with
  | fraction minimum maximum =>
      rw [place]
      omega
  | significant minimum maximum =>
      have digit : 1 ≤ maximum := sound
      rw [place]
      omega
  | compact =>
      rw [place]
      split <;> omega

theorem place_graded (sound : rounding.Sound) : Graded rounding.place := by
  intro low high larger
  cases rounding with
  | fraction minimum maximum => exact Or.inl rfl
  | significant minimum maximum =>
      have digit : 1 ≤ maximum := sound
      rw [place, place]
      omega
  | compact =>
      rw [place, place]
      split <;> split <;> omega

/-- Splitting off powers of ten that are graded themselves leaves the places graded. -/
theorem graded_split (sound : rounding.Sound) {power : Int → Int} (graded : Graded power) :
    Graded (fun point => rounding.place (point - power point) + power point) := by
  intro low high larger
  have lowPlace := place_lt sound (low - power low)
  have highPlace := place_lt sound (high - power high)
  rcases graded larger with same | ⟨lowPower, highPower⟩
  · have inner := place_graded sound (show low - power low < high - power low by omega)
    dsimp only
    rw [← same]
    omega
  · dsimp only
    omega

/-! ## Rounded mantissas -/

theorem toRat_round_zero {d : Decimal} (zero : d.coefficient = 0) :
    (rounding.round d).toRat = 0 := by
  rw [round_eq, Decimal.toRat_roundAt, Decimal.toRat_eq_zero.mpr zero]
  simp

/-- Seen from the number itself, a mantissa is the number rounded to a place of its own. -/
theorem toRat_round_split {d : Decimal} (nonzero : d.coefficient ≠ 0) (power : Int) :
    (rounding.round (d.shift (-power))).toRat * 10 ^ power =
      (d.roundAt (rounding.place (d.point - power) + power)).toRat := by
  rw [round_eq, Decimal.point_shift nonzero, Decimal.toRat_roundAt_shift, sub_neg_eq_add,
    mul_assoc, ← zpow_add₀ (by norm_num), neg_add_cancel, zpow_zero, mul_one, sub_eq_add_neg]

/-- Where powers of ten are split off as the position of the decimal point asks, order is kept. -/
theorem toRat_round_split_mono (sound : rounding.Sound) {power : Int → Int}
    (graded : Graded power) {a b : Decimal} (ordered : a.toRat ≤ b.toRat) :
    (rounding.round (a.shift (-power a.point))).toRat * 10 ^ power a.point ≤
      (rounding.round (b.shift (-power b.point))).toRat * 10 ^ power b.point := by
  by_cases aZero : a.coefficient = 0
  · rw [toRat_round_zero ((a.coefficient_shift _).trans aZero), zero_mul]
    exact mul_nonneg (Decimal.toRat_nonneg _) (ten_zpow_pos _).le
  have bNonzero : b.coefficient ≠ 0 :=
    Decimal.toRat_pos.mp ((Decimal.toRat_pos.mpr aZero).trans_le ordered)
  rw [toRat_round_split aZero, toRat_round_split bNonzero]
  exact (graded_split sound graded).toRat_roundAt_mono aZero bNonzero ordered

/-! ## Carries -/

/-- A number below a power of ten is not rounded beyond that power. -/
theorem toRat_round_le (sound : rounding.Sound) {d : Decimal} {power : Int} (whole : 0 ≤ power)
    (small : d.coefficient = 0 ∨ d.point ≤ power) : (rounding.round d).toRat ≤ 10 ^ power := by
  by_cases zero : d.coefficient = 0
  · rw [toRat_round_zero zero]
    exact (ten_zpow_pos _).le
  have position := small.resolve_left zero
  have fine := place_lt sound d.point
  rw [round_eq]
  exact Decimal.toRat_roundAt_le (by omega) ((Decimal.point_le_iff zero _).mp position).le

theorem toRat_round_power (sound : rounding.Sound) {d : Decimal} {power : Int} (whole : 0 ≤ power)
    (value : d.toRat = 10 ^ power) : (rounding.round d).toRat = 10 ^ power := by
  have nonzero : d.coefficient ≠ 0 := Decimal.toRat_pos.mp (value ▸ ten_zpow_pos power)
  have position : d.point ≤ power + 1 := by
    rw [Decimal.point_le_iff nonzero, value]
    exact zpow_lt_zpow_right₀ (by norm_num) (by omega)
  have fine := place_lt sound d.point
  rw [round_eq]
  exact Decimal.toRat_roundAt_power (by omega) value

/-- A carry gives a power of ten. -/
theorem toRat_round_carried (sound : rounding.Sound) {d : Decimal} {step : Int}
    (positive : 0 < step) (small : d.coefficient = 0 ∨ d.point ≤ step)
    (carried : step ≤ (rounding.round d).leadingExponent) :
    (rounding.round d).toRat = 10 ^ step := by
  have nonzero : (rounding.round d).coefficient ≠ 0 := by
    intro zero
    rw [Decimal.leadingExponent_of_zero zero] at carried
    omega
  rw [Decimal.leadingExponent_of_nonzero nonzero] at carried
  exact le_antisymm (toRat_round_le sound positive.le small)
    (Decimal.power_le_toRat nonzero (by omega))

/-- What is left of a carry is one, which rounding leaves as it is. -/
theorem toRat_round_again (sound : rounding.Sound) {d : Decimal} {step : Int}
    (value : d.toRat = 10 ^ step) : (rounding.round (d.shift (-step))).toRat = 1 := by
  have moved : (d.shift (-step)).toRat = 10 ^ (0 : Int) := by
    rw [Decimal.toRat_shift, value, ← zpow_add₀ (by norm_num), add_neg_cancel]
  rw [toRat_round_power sound le_rfl moved, zpow_zero]

theorem sound_ofOptions (options : Options) (usual : Nat × Nat) :
    (DigitRule.ofOptions options usual).rounding.Sound := by
  unfold DigitRule.ofOptions DigitRule.roundingOf
  dsimp only
  split
  · unfold ofSignificant significantLimit
    change 1 ≤ Nat.min 21 _
    grind
  · split <;> trivial

end Rounding

namespace Format

/-! ## Numbers as they are written -/

/-- What stands behind the digits of a number: nothing, an exponent or the name of a tier. -/
inductive Scale where
  | unit
  | exponent (power : Int)
  | tier (thousands : Nat)

/-- The power of ten that a scale stands for. -/
def Scale.factor : Scale → ℚ
  | unit => 1
  | exponent power => 10 ^ power
  | tier thousands => 1000 ^ thousands

/-- Every tier but the first has a name among these. -/
def Scale.Named (names : List String) : Scale → Prop
  | tier thousands => thousands ≤ names.length
  | _ => True

/-- A number as it is written: the digits on both sides of the point and the scale behind them. -/
structure Written where
  whole : List Char
  fraction : List Char
  scale : Scale

namespace Written

/-- The number that is written. -/
def value (number : Written) : ℚ :=
  (Nat.ofDigitChars 10 (number.whole ++ number.fraction) 0 : ℚ) / 10 ^ number.fraction.length *
    number.scale.factor

/-- The text of a written number.  Digits before an exponent are never grouped. -/
def text (locale : Locale) (grouping : Bool) (names : List String) (number : Written) :
    List Char :=
  match number.scale with
  | .unit =>
      (if grouping then Decimal.grouped locale.groupSeparator number.whole else number.whole) ++
        pointed locale.decimalPoint number.fraction
  | .exponent power =>
      number.whole ++ pointed locale.decimalPoint number.fraction ++ exponentText locale power
  | .tier thousands =>
      (if grouping then Decimal.grouped locale.groupSeparator number.whole else number.whole) ++
        pointed locale.decimalPoint number.fraction ++ (tierName names thousands).toList

/-- A mantissa in the digits that the rule asks for. -/
def ofMantissa (rule : DigitRule) (mantissa : Decimal) (scale : Scale) : Written :=
  ⟨rule.wholeDigits mantissa, rule.fractionDigits mantissa, scale⟩

theorem value_ofMantissa (rule : DigitRule) (mantissa : Decimal) (scale : Scale) :
    (ofMantissa rule mantissa scale).value = mantissa.toRat * scale.factor := by
  rw [value, ofMantissa]
  exact congrArg (· * scale.factor) (mantissa.ofDigitChars_rendered _ _)

end Written

/-- What it means that a text shows a number: it is written so, and every tier has its name. -/
structure Shows (locale : Locale) (grouping : Bool) (names : List String) (text : List Char)
    (number : Written) : Prop where
  text : text = number.text locale grouping names
  named : number.scale.Named names

/-- A decimal as it is written in a form, by a rule, with this many names of tiers. -/
def written (form : Options.Form) (rule : DigitRule) (tiers : Nat) (d : Decimal) : Written :=
  match form with
  | .standard => .ofMantissa rule (rule.round d) .unit
  | .scientific =>
      .ofMantissa rule (exponential rule 1 d).mantissa (.exponent (exponential rule 1 d).power)
  | .engineering =>
      .ofMantissa rule (exponential rule 3 d).mantissa (.exponent (exponential rule 3 d).power)
  | .compact =>
      .ofMantissa rule (compact rule tiers d).mantissa (.tier (compact rule tiers d).power)

/-- A decimal as it is shown in a form. -/
def showAs (form : Options.Form) (locale : Locale) (rule : DigitRule) (grouping : Bool)
    (names : List String) (d : Decimal) : Shown :=
  match form with
  | .standard => showStandard locale rule grouping d
  | .scientific => showExponential locale rule 1 d
  | .engineering => showExponential locale rule 3 d
  | .compact => showCompact locale rule grouping names d

theorem showDecimal_eq_showAs (tables : Tables) (locale : Locale) (options : Options)
    (d : Decimal) :
    showDecimal tables locale options d =
      showAs (options.form.getD .standard) locale
        (DigitRule.ofOptions options (usualFraction tables options))
        (options.useGrouping.getD true)
        (match options.compactDisplay.getD .short with
        | .short => locale.compactShort
        | .long => locale.compactLong) d := by
  unfold showDecimal showAs
  cases options.form.getD .standard <;> rfl

/-- What is shown is the text of the number as it is written. -/
theorem text_showAs (form : Options.Form) (locale : Locale) (rule : DigitRule) (grouping : Bool)
    (names : List String) (d : Decimal) :
    (showAs form locale rule grouping names d).text =
      (written form rule names.length d).text locale grouping names := by
  cases form with
  | standard => exact digitText_eq locale rule grouping (rule.round d)
  | scientific =>
      exact congrArg (· ++ exponentText locale (exponential rule 1 d).power)
        (digitText_eq locale rule false (exponential rule 1 d).mantissa)
  | engineering =>
      exact congrArg (· ++ exponentText locale (exponential rule 3 d).power)
        (digitText_eq locale rule false (exponential rule 3 d).mantissa)
  | compact =>
      exact congrArg (· ++ (tierName names (compact rule names.length d).power).toList)
        (digitText_eq locale rule grouping (compact rule names.length d).mantissa)

/-! ## Powers of ten that are split off -/

/-- The multiple of the step that is split off before the first rounding. -/
def exponentOf (step : Nat) (point : Int) : Int :=
  (point - 1) / step * step

/-- The power of the thousands that are split off before the first rounding. -/
def tierPower (tiers : Nat) (point : Int) : Int :=
  (3 * Nat.min tiers ((point - 1) / 3).toNat : Nat)

/-- The power of ten that a form splits off before the first rounding. -/
def splitOff (form : Options.Form) (tiers : Nat) (point : Int) : Int :=
  match form with
  | .standard => 0
  | .scientific => exponentOf 1 point
  | .engineering => exponentOf 3 point
  | .compact => tierPower tiers point

theorem exponentOf_lt {step : Nat} (positive : 0 < step) (point : Int) :
    exponentOf step point < point ∧ point ≤ exponentOf step point + step := by
  have below := Int.ediv_mul_le (point - 1) (b := step) (by omega)
  have above := Int.lt_ediv_add_one_mul_self (point - 1) (b := step) (by omega)
  rw [Int.add_mul, Int.one_mul] at above
  unfold exponentOf
  omega

theorem exponentOf_graded {step : Nat} (positive : 0 < step) : Graded (exponentOf step) :=
  fun low high larger => Or.inr
    ⟨(exponentOf_lt positive low).1.trans larger, (exponentOf_lt positive high).1⟩

theorem splitOff_graded (form : Options.Form) (tiers : Nat) : Graded (splitOff form tiers) := by
  intro low high larger
  cases form with
  | standard => exact Or.inl rfl
  | scientific => exact exponentOf_graded (by decide) larger
  | engineering => exact exponentOf_graded (by decide) larger
  | compact =>
      simp only [splitOff, tierPower, Nat.min_def]
      split <;> split <;> omega

/--
One more step that is split off a rounded mantissa which has been carried changes how a number is
written, but not which number is written.
-/
theorem toRat_round_step {rule : DigitRule} (sound : rule.rounding.Sound) {d : Decimal}
    {power step : Int} (positive : 0 < step)
    (small : d.coefficient ≠ 0 → d.point ≤ power + step)
    (carried : step ≤ (rule.round (d.shift (-power))).leadingExponent) :
    (rule.round ((rule.round (d.shift (-power))).shift (-step))).toRat * 10 ^ (power + step) =
      (rule.round (d.shift (-power))).toRat * 10 ^ power := by
  have below : (d.shift (-power)).coefficient = 0 ∨ (d.shift (-power)).point ≤ step := by
    by_cases zero : d.coefficient = 0
    · exact Or.inl ((d.coefficient_shift _).trans zero)
    · right
      have position := small zero
      rw [Decimal.point_shift zero]
      omega
  have value := Rounding.toRat_round_carried sound positive below carried
  have again : (rule.round ((rule.round (d.shift (-power))).shift (-step))).toRat = 1 :=
    Rounding.toRat_round_again sound value
  rw [again, one_mul, add_comm, zpow_add₀ (by norm_num)]
  exact congrArg (· * 10 ^ power) value.symm

theorem toRat_exponential {rule : DigitRule} (sound : rule.rounding.Sound) {step : Nat}
    (positive : 0 < step) {d : Decimal} (nonzero : d.coefficient ≠ 0) :
    (exponential rule step d).mantissa.toRat * 10 ^ (exponential rule step d).power =
      (rule.round (d.shift (-exponentOf step d.point))).toRat * 10 ^ exponentOf step d.point := by
  have power : d.leadingExponent / step * step = exponentOf step d.point := by
    rw [Decimal.leadingExponent_of_nonzero nonzero, exponentOf]
  unfold exponential
  dsimp only
  rw [power]
  split
  · rename_i carried
    exact toRat_round_step sound (by omega) (fun _ => (exponentOf_lt positive d.point).2) carried
  · rfl

theorem thousand_pow (tier : Nat) : (1000 : ℚ) ^ tier = 10 ^ ((3 * tier : Nat) : Int) := by
  rw [zpow_natCast, pow_mul]
  norm_num

theorem toRat_compact {rule : DigitRule} (sound : rule.rounding.Sound) (tiers : Nat) {d : Decimal}
    (nonzero : d.coefficient ≠ 0) :
    (compact rule tiers d).mantissa.toRat * 1000 ^ (compact rule tiers d).power =
      (rule.round (d.shift (-tierPower tiers d.point))).toRat * 10 ^ tierPower tiers d.point := by
  unfold compact tierPower
  rw [Decimal.leadingExponent_of_nonzero nonzero]
  dsimp only
  split
  · rename_i carry
    have next : ((3 * (Nat.min tiers ((d.point - 1) / 3).toNat + 1) : Nat) : Int) =
        ((3 * Nat.min tiers ((d.point - 1) / 3).toNat : Nat) : Int) + 3 := by
      push_cast
      ring
    rw [thousand_pow, next]
    refine toRat_round_step sound (by norm_num) (fun _ => ?_) carry.2
    -- Only where names are left can a carry take one more, so the tier is that of the number.
    have reached : Nat.min tiers ((d.point - 1) / 3).toNat = ((d.point - 1) / 3).toNat := by
      rcases Nat.le_total tiers ((d.point - 1) / 3).toNat with all | some
      · exact absurd (Nat.min_eq_left all) (Nat.ne_of_lt carry.1)
      · exact Nat.min_eq_right some
    rw [reached]
    omega
  · rw [thousand_pow]

/-! ## Order -/

/-- The mantissa of nought is nought, whatever is split off. -/
theorem value_written_zero (form : Options.Form) (rule : DigitRule) (tiers : Nat) {d : Decimal}
    (zero : d.coefficient = 0) : (written form rule tiers d).value = 0 := by
  have rounded {e : Decimal} (none : e.coefficient = 0) (power : Int) :
      (rule.round (e.shift power)).toRat = 0 :=
    Rounding.toRat_round_zero ((e.coefficient_shift power).trans none)
  have again {e : Decimal} (none : e.coefficient = 0) (first second : Int) :
      (rule.round ((rule.round (e.shift first)).shift second)).toRat = 0 :=
    rounded (Decimal.toRat_eq_zero.mp (rounded none first)) second
  have split (step : Nat) : (exponential rule step d).mantissa.toRat = 0 := by
    unfold exponential
    dsimp only
    split
    · exact again zero _ _
    · exact rounded zero _
  cases form with
  | standard =>
      rw [written, Written.value_ofMantissa]
      exact mul_eq_zero_of_left (Rounding.toRat_round_zero zero) _
  | scientific => rw [written, Written.value_ofMantissa, split, zero_mul]
  | engineering => rw [written, Written.value_ofMantissa, split, zero_mul]
  | compact =>
      rw [written, Written.value_ofMantissa]
      apply mul_eq_zero_of_left
      unfold compact
      dsimp only
      split
      · exact again zero _ _
      · exact rounded zero _

/-- The number that is written is the mantissa of the first rounding times what was split off. -/
theorem value_written {rule : DigitRule} (sound : rule.rounding.Sound) (form : Options.Form)
    (tiers : Nat) (d : Decimal) :
    (written form rule tiers d).value =
      (rule.round (d.shift (-splitOff form tiers d.point))).toRat *
        10 ^ splitOff form tiers d.point := by
  by_cases zero : d.coefficient = 0
  · rw [value_written_zero form rule tiers zero, DigitRule.round,
      Rounding.toRat_round_zero ((d.coefficient_shift _).trans zero), zero_mul]
  cases form with
  | standard =>
      rw [written, Written.value_ofMantissa, splitOff, neg_zero, Decimal.shift_zero]
      rfl
  | scientific =>
      rw [written, Written.value_ofMantissa]
      exact toRat_exponential sound (by decide) zero
  | engineering =>
      rw [written, Written.value_ofMantissa]
      exact toRat_exponential sound (by decide) zero
  | compact =>
      rw [written, Written.value_ofMantissa]
      exact toRat_compact sound tiers zero

theorem compact_power_le (rule : DigitRule) (tiers : Nat) (d : Decimal) :
    (compact rule tiers d).power ≤ tiers := by
  have least : Nat.min tiers (d.leadingExponent / 3).toNat ≤ tiers := Nat.min_le_left _ _
  unfold compact
  dsimp only
  split
  · rename_i carry
    exact carry.1
  · exact least

theorem named_written (form : Options.Form) (rule : DigitRule) (names : List String)
    (d : Decimal) : (written form rule names.length d).scale.Named names := by
  cases form with
  | compact => exact compact_power_le rule names.length d
  | _ => trivial

theorem shows_showAs (form : Options.Form) (locale : Locale) (rule : DigitRule) (grouping : Bool)
    (names : List String) (d : Decimal) :
    Shows locale grouping names (showAs form locale rule grouping names d).text
      (written form rule names.length d) :=
  ⟨text_showAs form locale rule grouping names d, named_written form rule names d⟩

/--
In every form, whatever the options and the names of the tiers, a number that is not larger than
another is shown as a number that is not larger.
-/
theorem written_mono (form : Options.Form) (locale : Locale) (options : Options)
    (usual : Nat × Nat) (grouping : Bool) (names : List String) {a b : Decimal}
    (ordered : a.toRat ≤ b.toRat) :
    let rule := DigitRule.ofOptions options usual
    let first := written form rule names.length a
    let second := written form rule names.length b
    Shows locale grouping names (showAs form locale rule grouping names a).text first ∧
      Shows locale grouping names (showAs form locale rule grouping names b).text second ∧
      first.value ≤ second.value := by
  have sound := Rounding.sound_ofOptions options usual
  refine ⟨shows_showAs _ _ _ _ _ _, shows_showAs _ _ _ _ _ _, ?_⟩
  rw [value_written sound, value_written sound]
  exact Rounding.toRat_round_split_mono sound (splitOff_graded form names.length) ordered

/-- One more carries 999,499 over the end of the thousands. -/
theorem written_mono_million :
    (Decimal.scaled 999499 0).toRat ≤ (Decimal.scaled 999500 0).toRat ∧
      ∃ first second : Written,
        Shows Locale.standard true ["K", "M"] "999K".toList first ∧
        Shows Locale.standard true ["K", "M"] "1M".toList second ∧
        first.scale = .tier 1 ∧ second.scale = .tier 2 ∧ first.value ≤ second.value := by
  have ordered : (Decimal.scaled 999499 0).toRat ≤ (Decimal.scaled 999500 0).toRat := by
    rw [Decimal.toRat_scaled, Decimal.toRat_scaled]
    norm_num
  have shown := written_mono .compact Locale.standard { form := some .compact } (0, 3) true
    ["K", "M"] ordered
  have thousands : (showAs .compact Locale.standard
      (DigitRule.ofOptions { form := some .compact } (0, 3)) true ["K", "M"]
        (Decimal.scaled 999499 0)).text = "999K".toList := by decide +kernel
  have million : (showAs .compact Locale.standard
      (DigitRule.ofOptions { form := some .compact } (0, 3)) true ["K", "M"]
        (Decimal.scaled 999500 0)).text = "1M".toList := by decide +kernel
  dsimp only at shown
  rw [thousands, million] at shown
  exact ⟨ordered, _, _, shown.1, shown.2.1, rfl, rfl, shown.2.2⟩

end Format
end NumberFormat
