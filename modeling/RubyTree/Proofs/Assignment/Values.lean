import RubyTree.Proofs.Clause.Order

/-!
# Values on the right of an assignment

Several values on the right of an assignment arrive in one of two forms. They are a plain list, or
they are collected in a node, one event for each value; the event of a splat turns the node into a
list, and later values are added to that. Assignments and `rescue` clauses take either form.

Specification: `Gathering.nodes`, the values in the order of their events. The form is forgotten
there, and so it is by the rules that take the values.

Results:

* `HoldsValues.add`: one event more is one value more, in either form.
* `Gathering.exists_holds`: the events of any number of values, in any order, are handled.
* `forms_agree`: what assignments and `rescue` clauses make of the values.
-/

namespace RubyTree

open Rules

/-! ## How values are collected -/

/-- A value that is added to those collected before. -/
inductive AddedValue where
  | plain (node : Node)
  | splat (part : Value.Read Value.asNode?)

namespace AddedValue

/-- The node that the value adds. -/
def node : AddedValue → Node
  | plain node => node
  | splat part => .around .splatArgument part.found

/-- The production of the event that adds the value. -/
def production : AddedValue → Production
  | plain _ => .mrhsAdd
  | splat _ => .mrhsAddStar

/-- What that event is handed besides the values before. -/
def part : AddedValue → Value
  | plain node => .node node
  | splat part => part.value

end AddedValue

/-- What a collection of values begins with. -/
inductive FirstValues where
  /-- A plain list, as it is. -/
  | listed (values : List Node)
  /-- No values yet. -/
  | none (context : Context)
  /-- The arguments of a call without parentheses. -/
  | arguments (values : Value.Read Value.asNodes) (context : Context)

namespace FirstValues

/-- The values that it begins with. -/
def nodes : FirstValues → List Node
  | listed values => values
  | none _ => []
  | arguments values _ => values.found

/-- What the event that begins the collection comes to, if there is one. -/
def outcome : FirstValues → Outcome Value
  | listed values => .ok (.ofNodes values)
  | none context => Production.mrhsNew.outcome [] context
  | arguments values context => Production.mrhsNewFromArgs.outcome [values.value] context

end FirstValues

/-- A collection of values: what it begins with, and the values that are added by an event each,
    in a context of its own. -/
structure Gathering where
  first : FirstValues
  added : List (AddedValue × Context)

namespace Gathering

/-- The values in order. -/
def nodes (gathering : Gathering) : List Node :=
  gathering.first.nodes ++ gathering.added.map (·.1.node)

/-- Handles the event that adds a value. -/
def add (values : Value) (next : AddedValue × Context) : Outcome Value :=
  next.1.production.outcome [values, next.1.part] next.2

/-- Handles all events. -/
def outcome (gathering : Gathering) : Outcome Value := do
  let first ← gathering.first.outcome
  gathering.added.foldlM add first

end Gathering

/-! ## Two forms -/

/-- The node around values. -/
def valueList (values : List Node) : Node :=
  ⟨.rightAssignmentList, .unlabeled, values.map .plain⟩

/-- The value holds the nodes: it is a node around them, or a list of them in which their labels may
    differ. -/
inductive HoldsValues : Value → List Node → Prop where
  | node (values : List Node) : HoldsValues (.node (valueList values)) values
  | list {items values : List Node} (h : items.map Child.plain = values.map .plain) :
    HoldsValues (.ofNodes items) values

theorem map_plain_nodes_valueList (values : List Node) :
    (valueList values).nodes.map Child.plain = values.map .plain := by
  rw [valueList, Node.nodes_map_plain, List.map_map]
  rfl

theorem HoldsValues.ofNodes (values : List Node) : HoldsValues (.ofNodes values) values := .list rfl

theorem map_plain_concat {items values : List Node} (h : items.map Child.plain = values.map .plain)
    (node : Node) : (items ++ [node]).map Child.plain = (values ++ [node]).map .plain := by
  rw [List.map_append, h, ← List.map_append]

theorem addValue_valueList (values : List Node) (node : Node) :
    addValue (.node (valueList values)) (.node node) =
      .ok (.node (valueList (values ++ [node]))) := by
  rw [valueList, valueList, List.map_append]
  rfl

theorem addValue_ofNodes (items : List Node) (node : Node) :
    addValue (.ofNodes items) (.node node) = .ok (.ofNodes (items ++ [node])) := by
  rw [Value.ofNodes_append]
  rfl

/-- The values of either form are found. -/
theorem HoldsValues.exists_collectedValues {value : Value} {values : List Node}
    (h : HoldsValues value values) : ∃ items : List Node,
      collectedValues value = .ok (items.map .node) ∧
      items.map Child.plain = values.map .plain := by
  cases h with
  | node values => exact ⟨_, rfl, map_plain_nodes_valueList values⟩
  | list hitems => exact ⟨_, rfl, hitems⟩

theorem addSplatValue_eq {values : Value} {items : List Node}
    (h : collectedValues values = .ok (items.map .node)) (part : Value.Read Value.asNode?) :
    addSplatValue values part.value =
      .ok (.ofNodes (items ++ [.around .splatArgument part.found])) := by
  rw [addSplatValue, h, part.reads, Value.ofNodes_append]
  change Except.ok (Value.list (_ ++ [.node ((Node.ofKind .splatArgument).attach? part.found)])) = _
  rw [Node.attach?_ofKind]
  rfl

theorem HoldsValues.addSplatValue {value : Value} {values : List Node}
    (h : HoldsValues value values) (part : Value.Read Value.asNode?) :
    ∃ next, addSplatValue value part.value = .ok next ∧
      HoldsValues next (values ++ [.around .splatArgument part.found]) := by
  obtain ⟨items, hcollected, hitems⟩ := h.exists_collectedValues
  exact ⟨_, addSplatValue_eq hcollected part, .list (map_plain_concat hitems _)⟩

/-- One event more is one value more. -/
theorem HoldsValues.add {value : Value} {values : List Node} (h : HoldsValues value values)
    (next : AddedValue × Context) : ∃ grown, Gathering.add value next = .ok grown ∧
      HoldsValues grown (values ++ [next.1.node]) := by
  obtain ⟨added, context⟩ := next
  rw [Gathering.add, Production.outcome_eq]
  cases added with
  | plain node =>
    cases h with
    | node values => exact ⟨_, addValue_valueList values node, .node _⟩
    | list hitems => exact ⟨_, addValue_ofNodes _ node, .list (map_plain_concat hitems node)⟩
  | splat part => exact h.addSplatValue part

theorem HoldsValues.foldlM {value : Value} {values : List Node} (h : HoldsValues value values)
    (added : List (AddedValue × Context)) : ∃ grown, added.foldlM Gathering.add value = .ok grown ∧
      HoldsValues grown (values ++ added.map (·.1.node)) := by
  induction added generalizing value values with
  | nil => exact ⟨value, rfl, by rwa [List.map_nil, List.append_nil]⟩
  | cons next added ih =>
    obtain ⟨middle, hmiddle, hholds⟩ := h.add next
    obtain ⟨grown, hgrown, hall⟩ := ih hholds
    refine ⟨grown, ?_, ?_⟩
    · rw [List.foldlM_cons, hmiddle]
      exact hgrown
    · rwa [List.append_assoc] at hall

theorem FirstValues.exists_holds (first : FirstValues) :
    ∃ value, first.outcome = .ok value ∧ HoldsValues value first.nodes := by
  cases first with
  | listed values => exact ⟨_, rfl, .ofNodes values⟩
  | none context =>
    refine ⟨_, ?_, .node []⟩
    rw [outcome, Production.outcome_eq]
    rfl
  | arguments values context =>
    refine ⟨_, ?_, .node values.found⟩
    rw [outcome, Production.outcome_eq]
    change valuesOf values.value = _
    rw [valuesOf, values.reads]
    rfl

/-- The events of a collection are handled, and what they come to holds its values. -/
theorem Gathering.exists_holds (gathering : Gathering) :
    ∃ value, gathering.outcome = .ok value ∧ HoldsValues value gathering.nodes := by
  obtain ⟨first, hfirst, hholds⟩ := gathering.first.exists_holds
  obtain ⟨value, hvalue, hall⟩ := hholds.foldlM gathering.added
  refine ⟨value, ?_, hall⟩
  rw [outcome, hfirst]
  exact hvalue

/-- A splat that stands alone is a list of one value. -/
theorem Gathering.outcome_loneSplat (part : Value.Read Value.asNode?) (begun added : Context) :
    Gathering.outcome ⟨.none begun, [(.splat part, added)]⟩ =
      .ok (.ofNodes [.around .splatArgument part.found]) := by
  have hfirst : (FirstValues.none begun).outcome = .ok (.node (valueList [])) := by
    rw [FirstValues.outcome, Production.outcome_eq]
    rfl
  have hnone : collectedValues (.node (valueList [])) = .ok (([] : List Node).map .node) := rfl
  have hsplat : Gathering.add (.node (valueList [])) (.splat part, added) =
      .ok (.ofNodes [.around .splatArgument part.found]) := by
    rw [Gathering.add, Production.outcome_eq]
    exact addSplatValue_eq hnone part
  rw [outcome, hfirst]
  change List.foldlM Gathering.add (.node (valueList [])) [(.splat part, added)] = _
  rw [List.foldlM_cons, hsplat]
  rfl

/-! ## What the values are taken for -/

/-- What a multiple assignment assigns: a list without values is nothing. -/
def multipleAssigned (value : Value) : Outcome (Option Node) :=
  if value.isEmptyList then .ok none else assignedValue value

theorem multipleAssign_eq (left right : Value) :
    multipleAssign left right = multipleAssigned right >>= fun right =>
      (left.asNodes "assignment targets").map fun left =>
        .node (((Node.ofKind .assignment).attachAs "left"
          ((Node.ofKind .leftAssignmentList).attachAll left)).attachAs? "right" right) := by
  unfold multipleAssign multipleAssigned
  split
  · rfl
  · rfl

theorem outcome_massign (left : Value.Read Value.asNodes) {right : Value} {found : Option Node}
    (h : multipleAssigned right = .ok found) (context : Context) :
    Production.massign.outcome [left.value, right] context = .ok (.node ⟨.assignment, .unlabeled,
      .called "left" ⟨.leftAssignmentList, .unlabeled, left.found.map .plain⟩ ::
        found.toList.map (.called "right")⟩) := by
  rw [Production.outcome_eq]
  change multipleAssign left.value right = _
  rw [multipleAssign_eq, h, left.reads]
  change Except.ok (Value.node (((Node.ofKind .assignment).attachAs "left" _).attachAs? "right"
    found)) = _
  rw [Node.attachAs?_eq]
  rfl

/-- Single and multiple assignments of the value have the node on their right side. -/
def Assigns (value : Value) (right : Node) : Prop :=
  (∀ left context, Production.assign.outcome [.node left, value] context =
    .ok (.node ⟨.assignment, .unlabeled,
      (unwrapped left).toList.map (.called "left") ++ [.called "right" right]⟩)) ∧
  ∀ (left : Value.Read Value.asNodes) (context : Context),
    Production.massign.outcome [left.value, value] context =
      .ok (.node ⟨.assignment, .unlabeled,
        [.called "left" ⟨.leftAssignmentList, .unlabeled, left.found.map .plain⟩,
          .called "right" right]⟩)

theorem assigns_of_assignedValue {value : Value} {right : Node}
    (h : assignedValue value = .ok (some right)) (hvalue : value.isEmptyList = false) :
    Assigns value right := by
  constructor
  · intro left context
    rw [Production.outcome_eq]
    change assign (.node left) value = _
    rw [assign, Value.asNode_node, h]
    change Except.ok (Value.node (((Node.ofKind .assignment).attachAs? "left" _).attachAs? "right"
      (some right))) = _
    rw [Node.attachAs?_eq, Node.attachAs?_eq, Node.extend_extend]
    rfl
  · intro left context
    exact outcome_massign left (by rw [multipleAssigned, hvalue, if_neg Bool.false_ne_true, h])
      context

theorem assignedValue_ofNodes (first second : Node) (rest : List Node) :
    assignedValue (.ofNodes (first :: second :: rest)) =
      .ok (some (valueList (first :: second :: rest))) := by
  change (Value.asNodes "assigned values" (.ofNodes (first :: second :: rest))).map _ = _
  rw [Value.asNodes_ofNodes]
  rfl

/-- Two values or more are assigned in one node around them. -/
theorem HoldsValues.assigns {value : Value} {values : List Node} (h : HoldsValues value values)
    (hlength : 2 ≤ values.length) : Assigns value (valueList values) := by
  cases h with
  | node values => exact assigns_of_assignedValue rfl rfl
  | @list items values hitems =>
    have hlist : valueList values = valueList items := by rw [valueList, valueList, hitems]
    have hitemsLength : 2 ≤ items.length := by
      have hlengths := congrArg List.length hitems
      rw [List.length_map, List.length_map] at hlengths
      omega
    match items, hitemsLength with
    | first :: second :: rest, _ =>
      rw [hlist]
      exact assigns_of_assignedValue (assignedValue_ofNodes first second rest) rfl

/-- A `rescue` clause that is handed the value rescues these exceptions. -/
def Rescues (value : Value) (exceptions : List Node) : Prop :=
  ∀ (target : Value.Read Value.asNode?) (body : Value.Read Value.asNodes)
    (following : Value.Read Value.asList) (context : Context),
    Production.rescueClause.outcome [value, target.value, body.value, following.value] context =
      .ok (.list (.node ⟨.rescueClause, .unlabeled,
        .called "exceptions" ⟨.exceptions, .unlabeled, exceptions.map .plain⟩ ::
          (target.found.toList.map fun target => .called "variable"
            (.around .exceptionVariable (unwrapped target))) ++
          bodyPart .thenBranch body.found⟩ :: following.found))

theorem HoldsValues.rescuedExceptions {value : Value} {values : List Node}
    (h : HoldsValues value values) :
    rescuedExceptions value = .ok (some (Clause.Exceptions.around values)) := by
  cases h with
  | node values =>
    change Except.ok (some (Clause.Exceptions.around (valueList values).nodes)) = _
    rw [Clause.Exceptions.around, map_plain_nodes_valueList]
    rfl
  | @list items values hitems =>
    rw [Clause.Exceptions.rescuedExceptions_of_asNodes
      (fun what => Value.asNodes_ofNodes what items) rfl rfl,
      Clause.Exceptions.around, hitems]
    rfl

theorem HoldsValues.rescues {value : Value} {values : List Node} (h : HoldsValues value values) :
    Rescues value values := by
  intro target body following context
  rw [Production.outcome_eq]
  change rescueClause value target.value body.value following.value = _
  rw [rescueClause, h.rescuedExceptions, target.reads, body.reads, following.reads]
  change Except.ok (Value.list (.node (withBody .thenBranch body.found _) :: following.found)) = _
  simp only [withBody_eq, Node.attachAs?_eq, Node.attach?_ofKind, Option.toList_map, List.map_map,
    Node.extend, List.append_assoc]
  rfl

/-- However the values are collected, single and multiple assignments of two or more have one node
    around them, in order, on the right side, and a `rescue` clause has a node of exceptions around
    them. A splat that stands alone is assigned as it is. -/
theorem forms_agree :
    (∀ gathering : Gathering, ∃ value, gathering.outcome = .ok value ∧
      (2 ≤ gathering.nodes.length → Assigns value (valueList gathering.nodes)) ∧
      Rescues value gathering.nodes) ∧
    ∀ (part : Value.Read Value.asNode?) (begun added : Context), ∃ value,
      Gathering.outcome ⟨.none begun, [(.splat part, added)]⟩ = .ok value ∧
      Assigns value (.around .splatArgument part.found) := by
  constructor
  · intro gathering
    obtain ⟨value, hvalue, hholds⟩ := gathering.exists_holds
    exact ⟨value, hvalue, hholds.assigns, hholds.rescues⟩
  · intro part begun added
    exact ⟨_, Gathering.outcome_loneSplat part begun added,
      assigns_of_assignedValue (assignedValue_singleton _) rfl⟩

/-- The values `1, *a, 2`: one from the arguments of a call, a splat, and one more after it. -/
def aroundSplat : Gathering where
  first := .arguments (.ofNodes [.leaf .integerNumber "1"]) .initial
  added := [(.splat (.ofNode? (some (.leaf .identifier "a"))), .initial),
    (.plain (.leaf .integerNumber "2"), .initial)]

theorem forms_agree_aroundSplat :
    let splat : Node := .around .splatArgument (some (.leaf .identifier "a"))
    let values : List Node := [.leaf .integerNumber "1", splat, .leaf .integerNumber "2"]
    2 ≤ aroundSplat.nodes.length ∧ ∃ value, aroundSplat.outcome = .ok value ∧
      Production.assign.outcome [.node (.leaf .identifier "x"), value] .initial =
        .ok (.node ⟨.assignment, .unlabeled,
          [.called "left" (.leaf .identifier "x"), .called "right" (valueList values)]⟩) := by
  intro splat values
  have hlength : 2 ≤ aroundSplat.nodes.length := by decide
  obtain ⟨value, hvalue, hassigns, -⟩ := forms_agree.1 aroundSplat
  exact ⟨hlength, value, hvalue, (hassigns hlength).1 (.leaf .identifier "x") .initial⟩

end RubyTree
