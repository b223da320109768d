import RubyTree.Context

/-!
# Building steps

A rule takes the arguments of an event to a value. On the way it may read and change the context,
and it may refuse its arguments; what it changed before refusing stays changed.

A `Rule` is a step together with the number of its arguments. Applying a rule to another number of
arguments fails before anything is changed.

Results:

* `Build.exec_bind`: what a step does before it fails stays done.
* `Rule.apply_of_length_ne`: a wrong number of arguments is refused, and the context is kept.
-/

namespace RubyTree

/-- A step of the construction, with the context as its memory. -/
abbrev Build := ExceptT ShapeError (StateM Context)

namespace Build

/-- Runs a step in a context: its outcome, and the context it leaves. -/
def exec {α : Type} (step : Build α) (context : Context) : Outcome α × Context :=
  (ExceptT.run step).run context

/-- A step that neither reads nor changes the context. -/
def ofOutcome {α : Type} (outcome : Outcome α) : Build α := fun context => (outcome, context)

/-- The context as it stands. -/
def context : Build Context := fun context => (.ok context, context)

/-- Changes the context. -/
def note (change : Context → Context) : Build Unit := fun context => (.ok (), change context)

/-- Closes the innermost literal (`pop_delimiter`). -/
def closeLiteral : Build Unit := fun context =>
  match context.closeLiteral with
  | .error cause => (.error cause, context)
  | .ok (_, closed) => (.ok (), closed)

@[simp] theorem exec_pure {α : Type} (a : α) (context : Context) :
    (pure a : Build α).exec context = (.ok a, context) := rfl

/-- A step that fails leaves the rest undone, and what it changed stays changed. -/
@[simp] theorem exec_bind {α β : Type} (step : Build α) (next : α → Build β) (context : Context) :
    (step >>= next).exec context =
      match step.exec context with
      | (.ok a, changed) => (next a).exec changed
      | (.error cause, changed) => (.error cause, changed) := by
  change (ExceptT.run (step >>= next)).run context = _
  rw [ExceptT.run_bind, StateT.run_bind]
  simp only [exec]
  obtain ⟨outcome, changed⟩ := (ExceptT.run step).run context
  cases outcome <;> rfl

@[simp] theorem exec_ofOutcome {α : Type} (outcome : Outcome α) (context : Context) :
    (ofOutcome outcome).exec context = (outcome, context) := rfl

@[simp] theorem exec_context (c : Context) : context.exec c = (.ok c, c) := rfl

@[simp] theorem exec_note (change : Context → Context) (context : Context) :
    (note change).exec context = (.ok (), change context) := rfl

theorem exec_closeLiteral_of_openers_nil {context : Context} (h : context.openers = []) :
    closeLiteral.exec context = (.error .noOpenLiteral, context) := by
  simp [closeLiteral, exec, ExceptT.run, StateT.run, Context.closeLiteral, h]

theorem exec_closeLiteral_of_openers_cons {opener : String} {openers : List String}
    {context : Context} (h : context.openers = opener :: openers) :
    closeLiteral.exec context = (.ok (), { context with openers := openers }) := by
  simp [closeLiteral, exec, ExceptT.run, StateT.run, Context.closeLiteral, h]

end Build

/-- What a production does with its arguments, by their number. -/
inductive Rule where
  | none (step : Build Value)
  | one (step : Value → Build Value)
  | two (step : Value → Value → Build Value)
  | three (step : Value → Value → Value → Build Value)
  | four (step : Value → Value → Value → Value → Build Value)
  | five (step : Value → Value → Value → Value → Value → Build Value)
  | seven (step : Value → Value → Value → Value → Value → Value → Value → Build Value)

namespace Rule

/-- The number of arguments a rule takes. -/
def arity : Rule → Nat
  | none _ => 0
  | one _ => 1
  | two _ => 2
  | three _ => 3
  | four _ => 4
  | five _ => 5
  | seven _ => 7

/-- Applies the rule of the production called `name`, unless the number of arguments is wrong
    (`arity`). -/
def apply (name : String) (rule : Rule) (arguments : List Value) : Build Value :=
  match rule, arguments with
  | none step, [] => step
  | one step, [a] => step a
  | two step, [a, b] => step a b
  | three step, [a, b, c] => step a b c
  | four step, [a, b, c, d] => step a b c d
  | five step, [a, b, c, d, e] => step a b c d e
  | seven step, [a, b, c, d, e, f, g] => step a b c d e f g
  | rule, arguments => .ofOutcome (.error (.arity name rule.arity arguments.length))

theorem apply_of_length_ne (name : String) {rule : Rule} {arguments : List Value}
    (h : arguments.length ≠ rule.arity) :
    rule.apply name arguments = .ofOutcome (.error (.arity name rule.arity arguments.length)) := by
  unfold apply
  split <;> simp_all [arity]

end Rule

end RubyTree
