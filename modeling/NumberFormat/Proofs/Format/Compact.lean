import NumberFormat.Proofs.Format.Exponential

namespace NumberFormat

open Binary64 (Digits)
open Decimal (pointed)

/-!
Numbers with their thousands named are normalized and rounded once.

A number falls into the tier of its own thousands, as far as there are names for them, and it is
rounded as this tier asks.  Where a carry makes a thousand of the mantissa and a name is left, the
number moves on to the next tier and is exactly one there, so that no second rounding changes it.
Only in the last tier can a mantissa have more than three digits before its point.
-/

namespace Format

/-- The tier a number falls into, all above the last one belonging to the last. -/
structure FallsInto (tiers : Nat) (x : ℚ) (tier : Nat) : Prop where
  named : tier ≤ tiers
  least : 0 < tier → 1000 ^ tier ≤ x
  below : tier < tiers → x < 1000 ^ (tier + 1)

/--
What it means that a mantissa in a tier is a number in normal form: the mantissa is below a thousand
where further tiers are left and from one up where thousands were split off, and both together are
the number, rounded as its own tier asks before anything is carried.
-/
structure Tiered (rounding : Rounding) (tiers : Nat) (x mantissa : ℚ) (tier : Nat) : Prop where
  named : tier ≤ tiers
  below : tier < tiers → mantissa < 1000
  least : 0 < tier → 1 ≤ mantissa
  zero : x = 0 → mantissa = 0
  rounded : x ≠ 0 → ∃ first, FallsInto tiers x first ∧
    rounding.RoundsTo (x / 1000 ^ first) (mantissa * 1000 ^ tier / 1000 ^ first)

/-- The name of a tier: the first one has none, and the others have theirs in order. -/
def NamesTier (names : List String) : Nat → String → Prop
  | 0, name => name = ""
  | tier + 1, name => names[tier]? = some name

theorem namesTier_tierName {names : List String} {tier : Nat} (named : tier ≤ names.length) :
    NamesTier names tier (tierName names tier) := by
  cases tier with
  | zero => rfl
  | succ tier =>
      have listed : tier < names.length := named
      rw [NamesTier, tierName, List.getElem?_eq_getElem listed]
      rfl

/-! ## Tiers -/

/-- The tier of a decimal, given the position of its point. -/
def tierAt (tiers : Nat) (point : Int) : Nat :=
  Nat.min tiers ((point - 1) / 3).toNat

theorem tierPower_eq (tiers : Nat) (point : Int) :
    tierPower tiers point = (3 * tierAt tiers point : Nat) :=
  rfl

theorem tierAt_le (tiers : Nat) (point : Int) : tierAt tiers point ≤ tiers :=
  Nat.min_le_left _ _

theorem tierPower_lt {tiers : Nat} {point : Int} (named : 0 < tierAt tiers point) :
    tierPower tiers point < point := by
  have reached : tierAt tiers point ≤ ((point - 1) / 3).toNat := Nat.min_le_right _ _
  rw [tierPower_eq]
  omega

theorem point_le_tierPower {tiers : Nat} {point : Int} (left : tierAt tiers point < tiers) :
    point ≤ tierPower tiers point + 3 := by
  have own : tierAt tiers point = ((point - 1) / 3).toNat := by
    refine Nat.min_eq_right (le_of_lt (lt_of_not_ge (fun all => ?_)))
    exact absurd (Nat.min_eq_left all) left.ne
  rw [tierPower_eq]
  omega

theorem fallsInto_tierAt (tiers : Nat) {d : Decimal} (nonzero : d.coefficient ≠ 0) :
    FallsInto tiers d.toRat (tierAt tiers d.point) where
  named := tierAt_le tiers d.point
  least := by
    intro named
    rw [thousand_pow]
    exact Decimal.power_le_toRat nonzero (tierPower_lt named)
  below := by
    intro left
    rw [thousand_pow, ← Decimal.point_le_iff nonzero]
    exact point_le_tierPower left

/-! ## Mantissas -/

variable {rule : DigitRule} {d : Decimal}

theorem compact_zero (rule : DigitRule) (tiers : Nat) (zero : d.coefficient = 0) :
    (compact rule tiers d).mantissa.toRat = 0 ∧ (compact rule tiers d).power = 0 := by
  have first : Nat.min tiers (d.leadingExponent / 3).toNat = 0 := by
    rw [Decimal.leadingExponent_of_zero zero]
    exact Nat.min_zero tiers
  have rounded : (rule.round (d.shift (-(3 * 0 : Nat)))).toRat = 0 :=
    Rounding.toRat_round_zero ((d.coefficient_shift _).trans zero)
  have still : (rule.round (d.shift (-(3 * 0 : Nat)))).leadingExponent = 0 :=
    Decimal.leadingExponent_of_zero (Decimal.toRat_eq_zero.mp rounded)
  unfold compact
  dsimp only
  rw [first, if_neg (fun carry => absurd (still ▸ carry.2) (by decide))]
  exact ⟨rounded, rfl⟩

/-- A number is rounded in its own tier and stays there, or it becomes one in the next. -/
theorem compact_cases (sound : rule.rounding.Sound) (tiers : Nat) (nonzero : d.coefficient ≠ 0) :
    ((compact rule tiers d).power = tierAt tiers d.point ∧
      (compact rule tiers d).mantissa = rule.round (d.shift (-tierPower tiers d.point)) ∧
      (tierAt tiers d.point < tiers → (compact rule tiers d).mantissa.toRat < 1000)) ∨
    (tierAt tiers d.point < tiers ∧ (compact rule tiers d).power = tierAt tiers d.point + 1 ∧
      (compact rule tiers d).mantissa.toRat = 1) := by
  have tier : Nat.min tiers (d.leadingExponent / 3).toNat = tierAt tiers d.point := by
    rw [Decimal.leadingExponent_of_nonzero nonzero, tierAt]
  unfold compact
  dsimp only
  rw [tier, ← tierPower_eq]
  split
  · rename_i carry
    obtain ⟨left, carried⟩ := carry
    have small : (d.shift (-tierPower tiers d.point)).point ≤ 3 := by
      rw [Decimal.point_shift nonzero]
      have position := point_le_tierPower left
      omega
    have value := Rounding.toRat_round_carried sound (by norm_num) (Or.inr small) carried
    exact Or.inr ⟨left, rfl, Rounding.toRat_round_again sound value⟩
  · rename_i stays
    refine Or.inl ⟨rfl, rfl, fun left => ?_⟩
    have small := lt_of_not_ge (fun carried => stays ⟨left, carried⟩)
    by_cases zero : (rule.round (d.shift (-tierPower tiers d.point))).coefficient = 0
    · rw [Decimal.toRat_eq_zero.mpr zero]
      norm_num
    · rw [Decimal.leadingExponent_of_nonzero zero] at small
      have bound := (Decimal.point_le_iff zero 3).mp (by omega)
      norm_num at bound
      exact bound

/-- Thousands are split off only of numbers that have them, so one at least is left. -/
theorem one_le_mantissa (sound : rule.rounding.Sound) (tiers : Nat) (nonzero : d.coefficient ≠ 0)
    (named : 0 < tierAt tiers d.point) :
    1 ≤ (rule.round (d.shift (-tierPower tiers d.point))).toRat := by
  have whole := tierPower_lt named
  apply Rounding.one_le_toRat_round sound
  · exact (d.coefficient_shift _).trans_ne nonzero
  · rw [Decimal.point_shift nonzero]
    omega

/-- The mantissa and the tier of a number make a normal form of the rounded number. -/
theorem tiered_compact (sound : rule.rounding.Sound) (tiers : Nat) (d : Decimal) :
    Tiered rule.rounding tiers d.toRat (compact rule tiers d).mantissa.toRat
      (compact rule tiers d).power := by
  by_cases zero : d.coefficient = 0
  · obtain ⟨mantissa, power⟩ := compact_zero rule tiers zero
    rw [mantissa, power]
    exact ⟨Nat.zero_le tiers, fun _ => by norm_num, fun named => absurd named (lt_irrefl 0),
      fun _ => rfl, fun nonzero => absurd (Decimal.toRat_eq_zero.mpr zero) nonzero⟩
  have split := compact_cases sound tiers zero
  refine ⟨compact_power_le rule tiers d, ?_, ?_, ?_, ?_⟩
  · intro left
    rcases split with ⟨power, _, below⟩ | ⟨_, _, one⟩
    · exact below (power ▸ left)
    · rw [one]
      norm_num
  · intro named
    rcases split with ⟨power, mantissa, _⟩ | ⟨_, _, one⟩
    · rw [mantissa]
      exact one_le_mantissa sound tiers zero (power ▸ named)
    · exact one.ge
  · intro none
    exact absurd (Decimal.toRat_eq_zero.mp none) zero
  · intro _
    have unit : (10 : ℚ) ^ tierPower tiers d.point ≠ 0 := (Decimal.ten_zpow_pos _).ne'
    have own : d.toRat / 10 ^ tierPower tiers d.point =
        (d.shift (-tierPower tiers d.point)).toRat := by
      rw [Decimal.toRat_shift, zpow_neg, div_eq_mul_inv]
    refine ⟨tierAt tiers d.point, fallsInto_tierAt tiers zero, ?_⟩
    rw [toRat_compact sound tiers zero, thousand_pow, ← tierPower_eq,
      mul_div_cancel_right₀ _ unit, own]
    exact Rounding.roundsTo_round _ ((d.coefficient_shift _).trans_ne zero)

/--
Compact notation names the thousands of a number as far as there are names for them.  The digits are
those of a mantissa below a thousand, unless the name is the last one, and from one up, unless there
is none.  Together they are the number, correctly rounded in the tier it falls into, carried or not.
-/
theorem showCompact_tiered (sound : rule.rounding.Sound) (locale : Locale) (grouping : Bool)
    (names : List String) (d : Decimal) :
    ∃ whole fraction tier name,
      (showCompact locale rule grouping names d).text =
        (if grouping then Decimal.grouped locale.groupSeparator whole else whole) ++
          pointed locale.decimalPoint fraction ++ name.toList ∧
      whole ≠ [] ∧ Digits whole ∧ Digits fraction ∧ NamesTier names tier name ∧
      Tiered rule.rounding names.length d.toRat
        ((Nat.ofDigitChars 10 (whole ++ fraction) 0 : ℚ) / 10 ^ fraction.length) tier := by
  have tiered := tiered_compact sound names.length d
  rw [← (compact rule names.length d).mantissa.ofDigitChars_rendered rule.minimumWhole
    (rule.rounding.minimumFraction (compact rule names.length d).mantissa)] at tiered
  exact ⟨_, _, _, _,
    congrArg (· ++ (tierName names (compact rule names.length d).power).toList)
      (digitText_eq locale rule grouping (compact rule names.length d).mantissa),
    Decimal.wholeDigits_ne_nil _ _, Decimal.digits_wholeDigits _ _,
    Decimal.digits_fractionDigits _ _,
    namesTier_tierName (compact_power_le rule names.length d), tiered⟩

/-- With one fraction digit 999.95 thousand are a million. -/
theorem showCompact_tiered_million :
    (⟨1, .fraction 0 1⟩ : DigitRule).rounding.Sound ∧
      ∃ whole fraction tier name,
        "1M".toList = Decimal.grouped Locale.standard.groupSeparator whole ++
          pointed Locale.standard.decimalPoint fraction ++ name.toList ∧
        whole ≠ [] ∧ Digits whole ∧ Digits fraction ∧ NamesTier ["K", "M"] tier name ∧
        Tiered (.fraction 0 1) 2 (Decimal.scaled 99995 1).toRat
          ((Nat.ofDigitChars 10 (whole ++ fraction) 0 : ℚ) / 10 ^ fraction.length) tier := by
  have sound : (⟨1, .fraction 0 1⟩ : DigitRule).rounding.Sound := trivial
  have shown := showCompact_tiered sound Locale.standard true ["K", "M"] (Decimal.scaled 99995 1)
  have text : (showCompact Locale.standard ⟨1, .fraction 0 1⟩ true ["K", "M"]
      (Decimal.scaled 99995 1)).text = "1M".toList := by decide +kernel
  rw [text] at shown
  exact ⟨sound, shown⟩

end Format
end NumberFormat
