namespace NumberFormat

/-!
Actions one after another, of which the first that fails gives the error.
-/

theorem exists_ok_of_bind {ε α β : Type} {action : Except ε α} {next : α → Except ε β}
    {result : β} (done : action >>= next = .ok result) :
    ∃ value, action = .ok value ∧ next value = .ok result := by
  cases action with
  | error => cases done
  | ok value => exact ⟨value, rfl, done⟩

theorem exists_ok_of_map {ε α β : Type} {action : Except ε α} {view : α → β} {seen : β}
    (done : action.toOption.map view = some seen) :
    ∃ value, action = .ok value ∧ view value = seen := by
  cases action with
  | error => cases done
  | ok value => exact ⟨value, rfl, Option.some.inj done⟩

/-! ## Grammars that decide -/

/-- An action is accepted by a grammar, or its error tells of a flaw. -/
inductive Decides {ε α : Type} (action : Except ε α) (grammar : Prop) (flaw : ε → Prop) :
    Prop where
  | accepted {value : α} : action = .ok value → grammar → Decides action grammar flaw
  | rejected {e : ε} : action = .error e → flaw e → Decides action grammar flaw

theorem Decides.mono {ε α : Type} {action : Except ε α} {grammar other : Prop}
    {flaw otherFlaw : ε → Prop} (decides : Decides action grammar flaw)
    (allowed : grammar → other) (told : ∀ e, flaw e → otherFlaw e) :
    Decides action other otherFlaw := by
  cases decides with
  | accepted read inside => exact .accepted read (allowed inside)
  | rejected failed wrong => exact .rejected failed (told _ wrong)

/-- The second of two actions fails only where the first one was accepted. -/
theorem Decides.bind {ε α β : Type} {first : Except ε α} {next : α → Except ε β}
    {grammar other : Prop} {flaw otherFlaw : ε → Prop}
    (decides : Decides first grammar flaw)
    (others : ∀ value, Decides (next value) other otherFlaw) :
    Decides (first >>= next) (grammar ∧ other) (fun e => flaw e ∨ grammar ∧ otherFlaw e) := by
  cases decides with
  | accepted read inside =>
      rename_i value
      rw [read]
      exact (others value).mono (fun also => ⟨inside, also⟩) (fun e wrong => Or.inr ⟨inside, wrong⟩)
  | rejected failed wrong =>
      rw [failed]
      exact .rejected rfl (Or.inl wrong)

theorem Decides.pure {ε α : Type} (value : α) :
    Decides (.ok value : Except ε α) True (fun _ => False) :=
  .accepted rfl trivial

end NumberFormat
