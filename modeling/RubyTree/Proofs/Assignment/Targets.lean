import RubyTree.Proofs.Assignment.Values

/-!
# Targets on the left of an assignment

The targets of a multiple assignment are collected by an event each. A target is a plain node, a
splat that takes the rest, or a list of targets between parentheses, to any depth. The targets
behind a splat are collected in a list of their own, which is appended. A plain target, and the name
of a splat, may arrive in a wrapper, which comes off.

Specification: `Target.node`, what a target is by itself, and `TargetList.targets`, the targets of a
list in source order.

Results:

* `Target.node_nested`: targets between parentheses are targets by the same rule.
* `exists_items`: the events of a list of targets come to its targets, in order.
* `targets_in_order`: whole multiple assignments.
-/

namespace RubyTree

open Rules

/-! ## Targets as they are recorded -/

/-- A node that is assigned to, bare or in the wrapper that an event puts around it. -/
structure TargetName where
  node : Node
  kind_node : node.kind ≠ .varField
  /-- The context of the event that wraps it. -/
  wrapped : Option Context

mutual

/-- A target. -/
inductive Target where
  | plain (name : TargetName)
  /-- A splat, which may have a name. -/
  | rest (name : Option TargetName)
  /-- Targets between parentheses. -/
  | nested (list : TargetList) (context : Context)

/-- Targets with the context of each event that collects them. -/
inductive TargetList where
  | none (context : Context)
  | add (list : TargetList) (target : Target) (context : Context)
  | append (list more : TargetList) (context : Context)

end

/-- What is handed to the event that adds the name. -/
def TargetName.outcome (name : TargetName) : Outcome Value :=
  match name.wrapped with
  | none => .ok (.node name.node)
  | some context => Production.varField.outcome [.node name.node] context

/-- The production of the event that adds a target to a list. -/
def Target.production : Target → Production
  | plain _ | nested _ _ => .mlhsAdd
  | rest _ => .mlhsAddStar

mutual

/-- Handles the events of a target up to the one that adds it to a list. -/
def Target.outcome : Target → Outcome Value
  | .plain name => name.outcome
  | .rest none => .ok .absent
  | .rest (some name) => name.outcome
  | .nested list context => do
    let list ← list.outcome
    Production.mlhsParen.outcome [list] context

/-- Handles the events of a list of targets. -/
def TargetList.outcome : TargetList → Outcome Value
  | .none context => Production.mlhsNew.outcome [] context
  | .add list target context => do
    let list ← list.outcome
    let part ← target.outcome
    target.production.outcome [list, part] context
  | .append list more context => do
    let list ← list.outcome
    let more ← more.outcome
    Production.mlhsAddPost.outcome [list, more] context

end

/-! ## What targets are -/

/-- The targets of a list in order. -/
def TargetList.targets : TargetList → List Target
  | .none _ => []
  | .add list target _ => list.targets ++ [target]
  | .append list more _ => list.targets ++ more.targets

mutual

/-- The node of a target. -/
def Target.node : Target → Node
  | .plain name => name.node
  | .rest name => .around .restAssignment (name.map (·.node))
  | .nested list _ => ⟨.destructuredLeftAssignment, .unlabeled, list.children⟩

/-- The children that the targets of a list become. -/
def TargetList.children : TargetList → List (Child Node)
  | .none _ => []
  | .add list target _ => list.children ++ [.plain target.node]
  | .append list more _ => list.children ++ more.children

end

theorem TargetList.children_eq : (list : TargetList) →
    list.children = list.targets.map fun target => .plain target.node
  | .none _ => rfl
  | .add list target _ => by
    rw [children, targets, children_eq list, List.map_append]
    rfl
  | .append list more _ => by
    rw [children, targets, children_eq list, children_eq more, List.map_append]

/-- Targets between parentheses are targets by the same rule. -/
theorem Target.node_nested (list : TargetList) (context : Context) :
    (nested list context).node = ⟨.destructuredLeftAssignment, .unlabeled,
      list.targets.map fun target => .plain target.node⟩ := by
  rw [node, list.children_eq]

mutual

/-- The nodes of a target and of the targets and the name in it. -/
def Target.places : Target → List Node
  | .plain name => [name.node]
  | .rest name => (Target.rest name).node :: (name.map (·.node)).toList
  | .nested list context => (Target.nested list context).node :: list.places

/-- The nodes of the targets of a list and of those in them. -/
def TargetList.places : TargetList → List Node
  | .none _ => []
  | .add list target _ => list.places ++ target.places
  | .append list more _ => list.places ++ more.places

end

mutual

/-- None of them is a wrapper. -/
theorem Target.kind_of_mem_places : (target : Target) → ∀ node ∈ target.places,
    node.kind ≠ .varField
  | .plain name => by
    rw [Target.places, List.forall_mem_singleton]
    exact name.kind_node
  | .rest none => by
    rw [Target.places]
    exact List.forall_mem_singleton.mpr nofun
  | .rest (some name) => by
    rw [Target.places]
    exact List.forall_mem_cons.mpr ⟨nofun, List.forall_mem_singleton.mpr name.kind_node⟩
  | .nested list context => by
    rw [Target.places]
    exact List.forall_mem_cons.mpr ⟨nofun, list.kind_of_mem_places⟩

theorem TargetList.kind_of_mem_places : (list : TargetList) → ∀ node ∈ list.places,
    node.kind ≠ .varField
  | .none _ => nofun
  | .add list target _ =>
    List.forall_mem_append.mpr ⟨list.kind_of_mem_places, target.kind_of_mem_places⟩
  | .append list more _ =>
    List.forall_mem_append.mpr ⟨list.kind_of_mem_places, more.kind_of_mem_places⟩

end

/-! ## Events -/

/-- A name arrives as a node, and what is left of that without its wrapper is the name. -/
theorem TargetName.exists_arrived (name : TargetName) : ∃ arrived field,
    name.outcome = .ok (.node arrived) ∧ unwrapped arrived = some (name.node.under field) := by
  obtain ⟨node, kind_node, wrapped⟩ := name
  cases wrapped with
  | none =>
    have hbare : unwrapped node = some node := if_neg kind_node
    exact ⟨node, node.field, rfl, hbare.trans (congrArg some (by cases node; rfl))⟩
  | some context =>
    refine ⟨(Node.ofKind .varField).attachAs "name" node, .named "name", ?_, rfl⟩
    rw [outcome]
    exact Production.outcome_eq .varField [.node node] context

/-- The event that adds the target puts one node behind those of the list. The node of the target is
    what it becomes when it is attached. -/
def Target.Adds (target : Target) (part : Value) : Prop :=
  ∀ items context, ∃ item, target.production.outcome [.ofNodes items, part] context =
    .ok (.ofNodes (items ++ [item])) ∧ Child.plain item = .plain target.node

theorem addTarget_ofNodes (items : List Node) {part node : Node}
    (h : unwrapped part = some node) :
    addTarget (.ofNodes items) (.node part) = .ok (.ofNodes (items ++ [node])) := by
  rw [Value.ofNodes_append]
  change Except.ok (Value.list (items.map .node ++ [.ofNode? (unwrapped part)])) = _
  rw [h]
  rfl

theorem addRestTarget_ofNodes (items : List Node) {part : Value} {name : Option Node}
    (h : part.asNode? "rest target" = .ok name) :
    addRestTarget (.ofNodes items) part =
      .ok (.ofNodes (items ++ [.around .restAssignment (name.bind unwrapped)])) := by
  rw [Value.ofNodes_append, addRestTarget, h]
  change Except.ok (Value.list (items.map .node ++
    [.node ((Node.ofKind .restAssignment).attach? (name.bind unwrapped))])) = _
  rw [Node.attach?_ofKind]
  rfl

theorem addTargets_ofNodes (items more : List Node) :
    addTargets (.ofNodes items) (.ofNodes more) = .ok (.ofNodes (items ++ more)) := by
  rw [Value.ofNodes_append]
  rfl

theorem Target.adds_plain (name : TargetName) {part : Value} (h : name.outcome = .ok part) :
    (plain name).Adds part := by
  obtain ⟨arrived, field, harrived, hunwrapped⟩ := name.exists_arrived
  cases h.symm.trans harrived
  intro items context
  refine ⟨name.node.under field, ?_, rfl⟩
  rw [Production.outcome_eq]
  exact addTarget_ofNodes items hunwrapped

theorem Target.adds_rest_none : (rest none).Adds .absent := by
  intro items context
  have habsent : Value.absent.asNode? "rest target" = .ok none := rfl
  refine ⟨_, ?_, rfl⟩
  rw [Production.outcome_eq]
  exact addRestTarget_ofNodes items habsent

theorem Target.adds_rest_some (name : TargetName) {part : Value} (h : name.outcome = .ok part) :
    (rest (some name)).Adds part := by
  obtain ⟨arrived, field, harrived, hunwrapped⟩ := name.exists_arrived
  cases h.symm.trans harrived
  intro items context
  refine ⟨_, ?_, rfl⟩
  rw [Production.outcome_eq]
  refine (addRestTarget_ofNodes items (Value.asNode?_node "rest target" arrived)).trans ?_
  rw [Option.bind_some, hunwrapped]
  rfl

theorem Target.adds_nested (list : TargetList) (context : Context) {items : List Node}
    (h : items.map Child.plain = list.children) :
    (nested list context).Adds
      (.node ((Node.ofKind .destructuredLeftAssignment).attachAll items)) := by
  intro before next
  refine ⟨(Node.ofKind .destructuredLeftAssignment).attachAll items, ?_, ?_⟩
  · rw [Production.outcome_eq]
    exact addTarget_ofNodes before rfl
  · rw [node, ← h]
    rfl

-- By induction on the targets as they are recorded: a list that is appended or stands between
-- parentheses was collected by events of its own.
mutual

theorem Target.exists_part : (target : Target) →
    ∃ part, target.outcome = .ok part ∧ target.Adds part
  | .plain name => by
    obtain ⟨arrived, _, harrived, -⟩ := name.exists_arrived
    exact ⟨_, harrived, Target.adds_plain name harrived⟩
  | .rest none => ⟨.absent, rfl, Target.adds_rest_none⟩
  | .rest (some name) => by
    obtain ⟨arrived, _, harrived, -⟩ := name.exists_arrived
    exact ⟨_, harrived, Target.adds_rest_some name harrived⟩
  | .nested list context => by
    obtain ⟨items, hlist, hitems⟩ := list.exists_items
    refine ⟨_, ?_, Target.adds_nested list context hitems⟩
    rw [Target.outcome, hlist]
    change Production.mlhsParen.outcome [.ofNodes items] context = _
    rw [Production.outcome_eq]
    change destructured (.ofNodes items) = _
    rw [destructured, Value.asNodes_ofNodes]
    rfl

/-- The events of a list of targets are handled and come to a list of nodes, one for each target in
    order. -/
theorem TargetList.exists_items : (list : TargetList) →
    ∃ items : List Node, list.outcome = .ok (.ofNodes items) ∧
      items.map Child.plain = list.children
  | .none context => ⟨[], Production.outcome_eq .mlhsNew [] context, rfl⟩
  | .add list target context => by
    obtain ⟨items, hlist, hitems⟩ := list.exists_items
    obtain ⟨part, hpart, hadds⟩ := target.exists_part
    obtain ⟨item, hadded, hitem⟩ := hadds items context
    refine ⟨items ++ [item], ?_, ?_⟩
    · rw [TargetList.outcome, hlist, hpart]
      exact hadded
    · rw [List.map_append, hitems, List.map_singleton, hitem]
      rfl
  | .append list more context => by
    obtain ⟨items, hlist, hitems⟩ := list.exists_items
    obtain ⟨after, hmore, hafter⟩ := more.exists_items
    refine ⟨items ++ after, ?_, ?_⟩
    · rw [TargetList.outcome, hlist, hmore]
      change Production.mlhsAddPost.outcome [.ofNodes items, .ofNodes after] context = _
      rw [Production.outcome_eq]
      exact addTargets_ofNodes items after
    · rw [List.map_append, hitems, hafter]
      rfl

end

/-- However deep the targets are nested and in whatever contexts their events fire, a multiple
    assignment has one child for each target in source order, and no target in it, at any depth, is
    in its wrapper. -/
theorem targets_in_order (list : TargetList) :
    (∃ left, list.outcome = .ok left ∧
      ∀ (right : Value.Read fun _ => multipleAssigned) (context : Context),
        Production.massign.outcome [left, right.value] context =
          .ok (.node ⟨.assignment, .unlabeled,
            .called "left" ⟨.leftAssignmentList, .unlabeled,
              list.targets.map fun target => .plain target.node⟩ ::
              right.found.toList.map (.called "right")⟩)) ∧
    ∀ node ∈ list.places, node.kind ≠ .varField := by
  refine ⟨?_, list.kind_of_mem_places⟩
  obtain ⟨items, hlist, hitems⟩ := list.exists_items
  refine ⟨_, hlist, fun right context => ?_⟩
  have hassign := outcome_massign (.ofNodes items) (right.reads "assigned value") context
  rw [← list.children_eq, ← hitems]
  exact hassign

/-- The targets `(a, *b), *, c`, of which `a` and `c` arrive in a wrapper. -/
def nestedTargets : TargetList :=
  .append
    (.add
      (.add (.none .initial)
        (.nested
          (.add
            (.add (.none .initial) (.plain ⟨.leaf .identifier "a", nofun, some .initial⟩) .initial)
            (.rest (some ⟨.leaf .identifier "b", nofun, none⟩)) .initial)
          .initial)
        .initial)
      (.rest none) .initial)
    (.add (.none .initial) (.plain ⟨.leaf .identifier "c", nofun, some .initial⟩) .initial)
    .initial

theorem targets_in_order_nested :
    ∃ left, nestedTargets.outcome = .ok left ∧
      Production.massign.outcome [left, .node (.leaf .identifier "x")] .initial =
        .ok (.node ⟨.assignment, .unlabeled,
          [.called "left" ⟨.leftAssignmentList, .unlabeled,
            [.plain ⟨.destructuredLeftAssignment, .unlabeled,
              [.plain (.leaf .identifier "a"),
                .plain (.around .restAssignment (some (.leaf .identifier "b")))]⟩,
              .plain (.ofKind .restAssignment),
              .plain (.leaf .identifier "c")]⟩,
            .called "right" (.leaf .identifier "x")]⟩) := by
  obtain ⟨left, hleft, hassign⟩ := (targets_in_order nestedTargets).1
  let right : Value.Read fun _ => multipleAssigned :=
    ⟨.node (.leaf .identifier "x"), some (.leaf .identifier "x"), fun _ => rfl⟩
  exact ⟨left, hleft, hassign right .initial⟩

end RubyTree
