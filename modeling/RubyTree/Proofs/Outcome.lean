import RubyTree.Value.Reading

/-!
# Steps that may fail

What it means that a chain of steps succeeds, or that it fails, said in terms of its parts. Two
chains are compared step by step: `Outcome.Agree` says that both succeed or both fail.

Results:

* `Outcome.bind_eq_ok_iff`, `Outcome.bind_eq_error_iff`: one step and what comes after it.
* `Outcome.mapError_eq_ok_iff`, `Outcome.mapError_eq_error_iff`: a step whose failure is wrapped.
* `Outcome.Agree.bind`: chains agree when their steps do.
-/

namespace RubyTree.Outcome

variable {ε ε' α β : Type} {outcome : Except ε α}

theorem bind_eq_ok_iff {next : α → Except ε β} {b : β} :
    outcome >>= next = .ok b ↔ ∃ a, outcome = .ok a ∧ next a = .ok b := by
  cases outcome <;> simp [bind, Except.bind]

theorem bind_eq_error_iff {next : α → Except ε β} {cause : ε} :
    outcome >>= next = .error cause ↔
      outcome = .error cause ∨ ∃ a, outcome = .ok a ∧ next a = .error cause := by
  cases outcome <;> simp [bind, Except.bind]

theorem map_eq_ok_iff {f : α → β} {b : β} :
    outcome.map f = .ok b ↔ ∃ a, outcome = .ok a ∧ f a = b := by
  cases outcome <;> simp [Except.map]

@[simp] theorem mapError_ok (f : ε → ε') (a : α) :
    (Except.ok a : Except ε α).mapError f = .ok a := rfl

@[simp] theorem mapError_error (f : ε → ε') (cause : ε) :
    (Except.error cause : Except ε α).mapError f = .error (f cause) := rfl

theorem mapError_eq_ok_iff {f : ε → ε'} {a : α} : outcome.mapError f = .ok a ↔ outcome = .ok a := by
  cases outcome <;> simp

theorem mapError_eq_error_iff {f : ε → ε'} {cause : ε'} :
    outcome.mapError f = .error cause ↔ ∃ inner, outcome = .error inner ∧ f inner = cause := by
  cases outcome <;> simp

/-! ## Two outcomes -/

/-- Both succeed, with related results, or both fail, with related causes. -/
inductive Agree {ε ε' α β : Type} (E : ε → ε' → Prop) (P : α → β → Prop) :
    Except ε α → Except ε' β → Prop where
  | ok {a : α} {b : β} (h : P a b) : Agree E P (.ok a) (.ok b)
  | error {cause : ε} {cause' : ε'} (h : E cause cause') : Agree E P (.error cause) (.error cause')

/-- Nothing is said about the causes of failures. -/
abbrev Whatever {ε ε' : Type} (_ : ε) (_ : ε') : Prop := True

namespace Agree

variable {ε₁ ε₂ ε₁' ε₂' α₁ α₂ β₁ β₂ γ : Type} {E : ε₁ → ε₂ → Prop} {P : α₁ → α₂ → Prop}
  {Q : β₁ → β₂ → Prop} {left : Except ε₁ α₁} {right : Except ε₂ α₂}

theorem refl {ε α : Type} {E : ε → ε → Prop} {P : α → α → Prop} (hE : ∀ cause, E cause cause)
    (hP : ∀ a, P a a) : (outcome : Except ε α) → Agree E P outcome outcome
  | .ok a => .ok (hP a)
  | .error cause => .error (hE cause)

/-- What related results are results of. -/
theorem with_eq (h : Agree E P left right) :
    Agree E (fun a b => P a b ∧ left = .ok a ∧ right = .ok b) left right := by
  cases h with
  | ok h => exact .ok ⟨h, rfl, rfl⟩
  | error h => exact .error h

theorem bind {next : α₁ → Except ε₁ β₁} {next' : α₂ → Except ε₂ β₂} (h : Agree E P left right)
    (hnext : ∀ a b, P a b → Agree E Q (next a) (next' b)) :
    Agree E Q (left >>= next) (right >>= next') := by
  cases h with
  | ok h => exact hnext _ _ h
  | error h => exact .error h

theorem map {f : α₁ → β₁} {g : α₂ → β₂} (h : Agree E P left right)
    (hmap : ∀ a b, P a b → Q (f a) (g b)) : Agree E Q (left.map f) (right.map g) := by
  cases h with
  | ok h => exact .ok (hmap _ _ h)
  | error h => exact .error h

theorem mapError {E' : ε₁' → ε₂' → Prop} {f : ε₁ → ε₁'} {g : ε₂ → ε₂'} (h : Agree E P left right)
    (hmap : ∀ a b, E a b → E' (f a) (g b)) : Agree E' P (left.mapError f) (right.mapError g) := by
  cases h with
  | ok h => exact .ok h
  | error h => exact .error (hmap _ _ h)

/-- What is read off the results alike is the same, and there is nothing to read if they fail. -/
theorem toOption_map {f : α₁ → γ} {g : α₂ → γ} (h : Agree E P left right)
    (hmap : ∀ a b, P a b → f a = g b) : left.toOption.map f = right.toOption.map g := by
  cases h with
  | ok h => exact congrArg some (hmap _ _ h)
  | error _ => rfl

end Agree

end RubyTree.Outcome
