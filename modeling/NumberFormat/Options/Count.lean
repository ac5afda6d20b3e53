namespace NumberFormat
namespace Options

/-!
Counts of digits in options, which are below `2 ^ 32`.
-/

/-- The largest count. -/
def countLimit : Nat := 4294967295

/-- A number of digits. -/
structure Count where
  value : Nat
  bounded : value ≤ countLimit
deriving DecidableEq

namespace Count

/-- The count of a number within the limit. -/
def ofNat? (n : Nat) : Option Count :=
  if bounded : n ≤ countLimit then some ⟨n, bounded⟩ else none

/-- The count of a number, for which beyond the limit the largest count stands. -/
def ofNat (n : Nat) : Count :=
  ⟨Nat.min n countLimit, Nat.min_le_right n countLimit⟩

@[simp] theorem ofNat?_value (count : Count) : ofNat? count.value = some count := by
  simp [ofNat?, count.bounded]

theorem value_ofNat {n : Nat} (bounded : n ≤ countLimit) : (ofNat n).value = n :=
  Nat.min_eq_left bounded

end Count
end Options
end NumberFormat
