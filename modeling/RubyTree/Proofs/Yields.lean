import RubyTree.Build
import RubyTree.Proofs.Outcome

/-!
# What steps yield

A law of the values that rules make is followed through what the rules read: `Yields` says that what
a step succeeds with has a property. Nothing is said of failures.

Results:

* `Outcome.Yields.bind`, `Build.Yields.bind`: one step and what comes after it.
-/

namespace RubyTree

/-- What the outcome is, if it is a success, has the property. -/
def Outcome.Yields {α : Type} (P : α → Prop) (outcome : Outcome α) : Prop :=
  ∀ a, outcome = .ok a → P a

namespace Outcome.Yields

variable {α β : Type} {P : α → Prop} {Q : β → Prop} {outcome : Outcome α}

theorem ok {a : α} (h : P a) : Yields P (.ok a) := by
  rintro _ ⟨⟩
  exact h

theorem error (cause : ShapeError) : Yields P (.error cause) := nofun

theorem imp {P' : α → Prop} (h : Yields P outcome) (himp : ∀ a, P a → P' a) : Yields P' outcome :=
  fun a ha => himp a (h a ha)

theorem bind {next : α → Outcome β} (h : Yields P outcome)
    (hnext : ∀ a, P a → Yields Q (next a)) : Yields Q (outcome >>= next) := by
  intro b hb
  obtain ⟨a, ha, hnexta⟩ := Outcome.bind_eq_ok_iff.mp hb
  exact hnext a (h a ha) b hnexta

theorem map {f : α → β} (h : Yields P outcome) (hf : ∀ a, P a → Q (f a)) :
    Yields Q (outcome.map f) := by
  intro b hb
  obtain ⟨a, ha, rfl⟩ := Outcome.map_eq_ok_iff.mp hb
  exact hf a (h a ha)

theorem mapM {f : α → Outcome β} {items : List α} (h : ∀ item ∈ items, Yields Q (f item)) :
    Yields (fun results => ∀ result ∈ results, Q result) (items.mapM f) := by
  induction items with
  | nil => exact ok nofun
  | cons item items ih =>
    obtain ⟨hitem, hitems⟩ := List.forall_mem_cons.mp h
    rw [List.mapM_cons]
    exact hitem.bind fun first hfirst => (ih hitems).bind fun rest hrest =>
      ok (List.forall_mem_cons.mpr ⟨hfirst, hrest⟩)

end Outcome.Yields

/-- What a step succeeds with has the property, in whatever context it is taken. -/
def Build.Yields {α : Type} (P : α → Prop) (step : Build α) : Prop :=
  ∀ context, Outcome.Yields P (step.exec context).1

namespace Build.Yields

variable {α β : Type} {P : α → Prop} {Q : β → Prop} {step : Build α}

theorem pure {a : α} (h : P a) : Yields P (Pure.pure a : Build α) := fun _ => .ok h

theorem ofOutcome {outcome : Outcome α} (h : outcome.Yields P) : Yields P (.ofOutcome outcome) :=
  fun _ => h

theorem imp {P' : α → Prop} (h : Yields P step) (himp : ∀ a, P a → P' a) : Yields P' step :=
  fun context => (h context).imp himp

theorem bind {next : α → Build β} (h : Yields P step)
    (hnext : ∀ a, P a → Yields Q (next a)) : Yields Q (step >>= next) := by
  intro context b hb
  rw [exec_bind] at hb
  cases hexec : step.exec context with
  | mk outcome changed =>
    rw [hexec] at hb
    cases outcome with
    | error cause => cases hb
    | ok a => exact hnext a (h context a (congrArg Prod.fst hexec)) changed b hb

/-- Arguments are read first. -/
theorem read {outcome : Outcome α} {next : α → Build β} (h : outcome.Yields P)
    (hnext : ∀ a, P a → Yields Q (next a)) : Yields Q (.ofOutcome outcome >>= next) :=
  (ofOutcome h).bind hnext

/-- A step first whose success says nothing. -/
theorem after {next : α → Build β} (hnext : ∀ a, Yields Q (next a)) :
    Yields Q (step >>= next) :=
  bind (fun _ _ _ => trivial : Yields (fun _ => True) step) fun a _ => hnext a

end Build.Yields

end RubyTree
