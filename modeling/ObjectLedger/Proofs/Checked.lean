/-! # Chains of checks

A chain of checks succeeds exactly if each of its parts does on the result of the one before
(`bind_eq_ok_iff`).
-/

namespace ObjectLedger

variable {α β ε φ : Type}

/-- A sequence has a result if its first step and what follows have. -/
theorem bind_eq_ok_iff {first : Except ε α} {next : α → Except ε β} {value : β} :
    (first >>= next) = .ok value ↔ ∃ middle, first = .ok middle ∧ next middle = .ok value := by
  constructor
  · intro succeeds
    cases first with
    | error cause => cases succeeds
    | ok middle => exact ⟨middle, rfl, succeeds⟩
  · rintro ⟨middle, rfl, succeeds⟩
    exact succeeds

/-- A chain of checks fails where its first part does, or where a later one does. -/
theorem bind_eq_error_iff {first : Except ε α} {next : α → Except ε β} {cause : ε} :
    (first >>= next) = .error cause ↔
      first = .error cause ∨ ∃ middle, first = .ok middle ∧ next middle = .error cause := by
  cases first with
  | error other =>
      constructor
      · rintro ⟨⟩
        exact .inl rfl
      · rintro (⟨⟨⟩⟩ | ⟨middle, never, -⟩)
        · rfl
        · cases never
  | ok middle =>
      refine ⟨fun failed => .inr ⟨middle, rfl, failed⟩, ?_⟩
      rintro (never | ⟨other, same, failed⟩)
      · cases never
      · cases same
        exact failed

@[simp]
theorem mapError_ok (value : α) (wrap : ε → φ) : (Except.ok value).mapError wrap = .ok value :=
  rfl

@[simp]
theorem mapError_error (cause : ε) (wrap : ε → φ) :
    (Except.error cause : Except ε α).mapError wrap = .error (wrap cause) :=
  rfl

/-- Wrapping errors keeps results. -/
theorem mapError_eq_ok_iff {result : Except ε α} {wrap : ε → φ} {value : α} :
    result.mapError wrap = .ok value ↔ result = .ok value := by
  cases result with
  | error cause => exact ⟨nofun, nofun⟩
  | ok found =>
      constructor
      · rintro ⟨⟩
        rfl
      · rintro ⟨⟩
        rfl

/-- Dropping the cause of an error keeps results. -/
theorem toOption_eq_some_iff {result : Except ε α} {value : α} :
    result.toOption = some value ↔ result = .ok value := by
  cases result with
  | error cause => exact ⟨nofun, nofun⟩
  | ok found =>
      constructor
      · rintro ⟨⟩
        rfl
      · rintro ⟨⟩
        rfl

/-- What holds of a pair that was computed holds of its parts. -/
theorem forall_mem_toOption_iff {α β ε : Type} (result : Except ε (α × β)) (holds : α → β → Prop) :
    (∀ pair ∈ result.toOption, holds pair.1 pair.2) ↔
      ∀ left right, result = .ok (left, right) → holds left right := by
  cases result with
  | error cause => exact ⟨nofun, nofun⟩
  | ok pair =>
      constructor
      · intro each left right same
        cases same
        exact each _ rfl
      · rintro each _ ⟨⟩
        exact each _ _ rfl

end ObjectLedger
