import Mathlib.Tactic.SplitIfs
import NumberFormat.Json.Printer
import NumberFormat.Proofs.Decimal.Canonical
import NumberFormat.Proofs.Json.Values

namespace NumberFormat
namespace Json

open Text

/-!
What is written as JSON is a spelling of it, so it is read back.

A string comes back with every character it has.  A whole number comes back if it fits in 64 bits,
and an object if no name comes twice.
-/

/-! ## Strings -/

theorem hexDigit?_digitChar {n : Nat} (small : n < 16) :
    hexDigit? (Nat.digitChar n) = some n := by
  have all : ∀ n : Fin 16, hexDigit? (Nat.digitChar n) = some n.val := by decide
  exact all ⟨n, small⟩

/-- The four digits of a control character are its code unit. -/
theorem codeUnit?_control {n : Nat} (control : n < 0x20) :
    codeUnit? '0' '0' (Nat.digitChar (n / 16)) (Nat.digitChar (n % 16)) = some n := by
  have zero : hexDigit? '0' = some 0 := rfl
  have high := hexDigit?_digitChar (n := n / 16) (by omega)
  have low := hexDigit?_digitChar (n := n % 16) (by omega)
  simp only [codeUnit?, zero, high, low, Option.bind_eq_bind, Option.bind_some, Option.pure_def,
    Option.some.injEq]
  omega

theorem escaped_spelling (c : Char) : CharSpelling c (escaped c) := by
  unfold escaped
  split_ifs with quote slash backspace feed newline carriage tab control
  · rw [quote]
    exact .short rfl
  · rw [slash]
    exact .short rfl
  · rw [backspace]
    exact .short rfl
  · rw [feed]
    exact .short rfl
  · rw [newline]
    exact .short rfl
  · rw [carriage]
    exact .short rfl
  · rw [tab]
    exact .short rfl
  · have noOpen : opensPair c.toNat = false := by
      unfold opensPair
      simp only [Bool.and_eq_false_iff, decide_eq_false_iff_not]
      omega
    have noClose : closesPair c.toNat = false := by
      unfold closesPair
      simp only [Bool.and_eq_false_iff, decide_eq_false_iff_not]
      omega
    have spelled := CharSpelling.unit (codeUnit?_control control) noOpen noClose
    rwa [Char.ofNat_toNat] at spelled
  · exact .plain (Nat.le_of_not_lt control) quote slash

theorem quoted_spelling (text : String) : StringSpelling text (quoted text.toList) := by
  have spelled : CharsSpelling text.toList (text.toList.flatMap escaped) := by
    induction text.toList with
    | nil => exact .nil
    | cons c chars ih => exact .cons (escaped_spelling c) ih
  have whole := StringSpelling.quoted spelled
  rwa [String.ofList_toList] at whole

/-! ## Numbers -/

theorem toDigits_spelling (n : Nat) : WholeSpelling (Nat.toDigits 10 n) := by
  by_cases positive : n = 0
  · rw [positive]
    exact .zero
  · rcases Decimal.exists_toDigits_eq_cons positive with ⟨digit, digits, same, nonzero⟩
    rw [same]
    apply WholeSpelling.positive nonzero
    intro c member
    rw [← same] at member
    exact Nat.isDigit_of_mem_toDigits (by decide) (by decide) member

theorem ofDigits_toDigits {n : Nat} (fits : n ≤ wholeLimit) :
    (Collected.ofDigits (Nat.toDigits 10 n) [] 0).number = n ∧
      (Collected.ofDigits (Nat.toDigits 10 n) [] 0).power = 0 := by
  have value : Nat.ofDigitChars 10 (Nat.toDigits 10 n) 0 = n := Nat.ofDigitChars_ten_toDigits
  have all : collect 0 (Nat.toDigits 10 n) = (n, []) := by
    rw [collect_of_le (by rw [value]; exact fits), value]
  simp [Collected.ofDigits, all, collect]

/-- A number of 64 bits is written as a whole number. -/
theorem whole_spelling {n : Nat} (fits : n ≤ wholeLimit) :
    NumberSpelling (.whole n) (Nat.toDigits 10 n) := by
  rcases ofDigits_toDigits fits with ⟨number, power⟩
  have spelled := NumberSpelling.whole (toDigits_spelling n) power
  rwa [number] at spelled

/-! ## Objects -/

theorem writtenMembers_spelling {item : Json → List Char → Prop} {members : List (String × Json)}
    (spelled : ∀ member ∈ members, item member.2 member.2.written) :
    Sequenced (MemberSpelling item) members (writtenMembers members) := by
  have one (name : String) {value : Json} (written : item value value.written) :
      MemberSpelling item (name, value) (quoted name.toList ++ ':' :: value.written) := by
    have member := MemberSpelling.member (quoted_spelling name) spaces_nil spaces_nil written
    rwa [List.append_nil, List.nil_append] at member
  induction members with
  | nil => exact .none spaces_nil
  | cons member others ih =>
      rcases member with ⟨name, value⟩
      have first := one name (spelled _ List.mem_cons_self)
      have rest := ih (fun member inside => spelled member (List.mem_cons_of_mem _ inside))
      cases others with
      | nil =>
          have listed := Listed.one spaces_nil first spaces_nil
          rw [List.nil_append, List.append_nil] at listed
          exact .some listed
      | cons next more =>
          cases rest with
          | some listed =>
              have longer := Listed.more spaces_nil first spaces_nil listed
              rw [List.nil_append, List.append_nil] at longer
              exact .some longer

theorem keepLast_of_nodup {members : List (String × Json)}
    (distinct : (members.map Prod.fst).Nodup) : keepLast members = members := by
  induction members with
  | nil => rfl
  | cons member later ih =>
      rw [List.map_cons, List.nodup_cons] at distinct
      have alone : ¬later.any (fun other => other.1 == member.1) = true := by
        simp only [List.any_eq_true, beq_iff_eq]
        rintro ⟨other, inside, same⟩
        exact distinct.1 (same ▸ List.mem_map_of_mem inside)
      rw [keepLast, if_neg alone, ih distinct.2]

/-- An object of scalars with distinct names is written as it is read. -/
theorem object_spelling {members : List (String × Json)}
    (distinct : (members.map Prod.fst).Nodup)
    (scalars : ∀ member ∈ members, ScalarSpelling member.2 member.2.written) (nesting : Nat) :
    ValueSpelling (nesting + 1) (.object members) (Json.object members).written := by
  have inner : ∀ member ∈ members, ValueSpelling nesting member.2 member.2.written :=
    fun member inside => .ofScalar (scalars member inside)
  have spelled := LayerSpelling.object (writtenMembers_spelling inner)
  rw [keepLast_of_nodup distinct] at spelled
  exact spelled

end Json
end NumberFormat
