import RubyTree.Grammar

/-!
# Finding the rule of an event

An event named after a production is handled by the rule of that production.

Results:

* `Production.ofName?_name`: the name of a production finds it.
* `exec_handle_name`: such an event moves the context on and applies the rule to its arguments.
* `Production.outcome_eq`: what such an event comes to.
-/

namespace RubyTree

namespace Production

theorem all_ofName?_name : (all.all fun production =>
    decide (ofName? production.name = some production)) = true := by
  decide +kernel

/-- No two productions share a name. -/
@[simp] theorem ofName?_name (production : Production) :
    ofName? production.name = some production := by
  have h := List.all_eq_true.mp all_ofName?_name production (mem_all production)
  exact of_decide_eq_true h

theorem ofName?_eq_some_iff {name : String} {production : Production} :
    ofName? name = some production ↔ name = production.name := by
  constructor
  · intro h
    have hname := List.find?_some h
    exact (beq_iff_eq.mp hname).symm
  · rintro rfl
    exact ofName?_name production

theorem ofName?_eq_none_iff {name : String} :
    ofName? name = none ↔ ∀ production : Production, name ≠ production.name := by
  simp only [Option.eq_none_iff_forall_ne_some, ne_eq, ofName?_eq_some_iff]

end Production

/-- Mapping over a step changes its value only. -/
@[simp] theorem Build.exec_map {α β : Type} (f : α → β) (step : Build α) (context : Context) :
    (f <$> step).exec context = ((step.exec context).1.map f, (step.exec context).2) := by
  rw [map_eq_pure_bind, Build.exec_bind]
  obtain ⟨outcome, changed⟩ := step.exec context
  cases outcome <;> rfl

/-- A step that reads an argument first acts in the same context if the reading succeeds. -/
theorem Build.exec_of_exec_ofOutcome_bind {α β : Type} {outcome : Outcome α} {next : α → Build β}
    {context changed : Context} {b : β}
    (h : (ofOutcome outcome >>= next).exec context = (.ok b, changed)) :
    ∃ a, outcome = .ok a ∧ (next a).exec context = (.ok b, changed) := by
  rw [exec_bind, exec_ofOutcome] at h
  cases outcome with
  | error cause => cases h
  | ok a => exact ⟨a, rfl, h⟩

theorem exec_handle_name (production : Production) (arguments : List Value) (position : Position)
    (token : Option String) (context : Context) :
    (handle production.name arguments position token).exec context =
      ((ruleOf production).apply production.name arguments).exec
        (context.enter position token) := by
  simp only [handle, dispatch, Build.exec_bind, Build.exec_note, Production.ofName?_name]

/-! ## Events and what they are handed -/

/-- What an event of a production comes to in a context that has moved on to it. -/
def Production.outcome (production : Production) (arguments : List Value) (context : Context) :
    Outcome Value :=
  ((handle production.name arguments context.position context.token).exec context).1

theorem Production.outcome_eq (production : Production) (arguments : List Value)
    (context : Context) :
    production.outcome arguments context =
      (((ruleOf production).apply production.name arguments).exec context).1 := by
  rw [outcome, exec_handle_name]
  rfl

/-- A value, with what every rule reads it as. -/
structure Value.Read {α : Type} (reader : String → Value → Outcome α) where
  value : Value
  found : α
  reads : ∀ what, reader what value = .ok found

/-- A list of nodes, which reads as these nodes. -/
def Value.Read.ofNodes (nodes : List Node) : Value.Read Value.asNodes where
  value := .ofNodes nodes
  found := nodes
  reads what := asNodes_ofNodes what nodes

/-- An optional node. -/
def Value.Read.ofNode? (node : Option Node) : Value.Read Value.asNode? where
  value := .ofNode? node
  found := node
  reads what := by cases node <;> rfl

end RubyTree
