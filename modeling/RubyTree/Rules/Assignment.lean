import RubyTree.Rules.Branch

/-!
# Assignments

Single, operator and multiple assignments. The targets of a multiple assignment are collected in a
list. Its values are collected in a node, until a splat turns them into a plain list.

Results:

* `assignedValue_singleton`: a list of one value is that value.
-/

namespace RubyTree.Rules

/-- The right side of an assignment. Several values share one node (`right_side`). -/
def assignedValue : Value → Outcome (Option Node)
  | .list [item] => item.asNode? "assigned value"
  | .list items =>
    ((Value.list items).asNodes "assigned values").map fun nodes =>
      some ((Node.ofKind .rightAssignmentList).attachAll nodes)
  | other => other.asNode? "assigned value"

/-- Event `assign`: one target and its value. -/
def assign (left right : Value) : Outcome Value := do
  let left ← left.asNode "assignment target"
  let right ← assignedValue right
  return .node (((Node.ofKind .assignment).attachAs? "left" (unwrapped left)).attachAs?
    "right" right)

/-- Event `opassign`: an assignment with an operator in front of its sign, which is kept as a token.
    -/
def operatorAssign (left operator right : Value) : Outcome Value := do
  let left ← left.asNode "assignment target"
  let right ← right.asNode? "assigned value"
  return .node ((((Node.ofKind .operatorAssignment).attachAs? "left" (unwrapped left)).attachToken
    operator.spelling).attachAs? "right" right)

/-- Event `massign`: a multiple assignment; a list without values assigns nothing. -/
def multipleAssign (left right : Value) : Outcome Value := do
  let right ← if right.isEmptyList then .ok none else assignedValue right
  let left ← left.asNodes "assignment targets"
  return .node (((Node.ofKind .assignment).attachAs "left"
    ((Node.ofKind .leftAssignmentList).attachAll left)).attachAs? "right" right)

/-! ## Targets -/

/-- Event `mlhs_add`: adds a target, without its wrapper. -/
def addTarget (targets part : Value) : Outcome Value := do
  let items ← targets.asList "assignment targets"
  let part ← part.asNode "assignment target"
  return .list (items ++ [.ofNode? (unwrapped part)])

/-- Event `mlhs_add_star`: adds the target that takes the rest. -/
def addRestTarget (targets part : Value) : Outcome Value := do
  let items ← targets.asList "assignment targets"
  let part ← part.asNode? "rest target"
  return .list (items ++ [.node ((Node.ofKind .restAssignment).attach? (part.bind unwrapped))])

/-- Event `mlhs_add_post`: adds the targets after the one that takes the rest. -/
def addTargets (targets more : Value) : Outcome Value := do
  let items ← targets.asList "assignment targets"
  let more ← more.asList "assignment targets"
  return .list (items ++ more)

/-- Event `mlhs_paren`: targets between parentheses are one target. -/
def destructured (contents : Value) : Outcome Value := do
  let nodes ← contents.asNodes "destructured targets"
  return .node ((Node.ofKind .destructuredLeftAssignment).attachAll nodes)

/-- Event `var_field`: the wrapper of a target; the symbol `nil` names none. -/
def variableField (name : Value) : Outcome Value := do
  if name.isSymbol "nil" then return .node (.ofKind .varField)
  else
    let name ← name.asNode? "variable name"
    return .node ((Node.ofKind .varField).attachAs? "name" name)

/-! ## Values -/

/-- Event `mrhs_new_from_args`: the values collected so far are those of an argument list. -/
def valuesOf (arguments : Value) : Outcome Value := do
  let nodes ← arguments.asNodes "assigned values"
  return .node ((Node.ofKind .rightAssignmentList).attachAll nodes)

/-- Event `mrhs_add`: adds a value to those collected so far. -/
def addValue (values part : Value) : Outcome Value :=
  match values with
  | .node node => do
    let part ← part.asNode? "assigned value"
    return .node (node.attach? part)
  | other => do
    let items ← other.asList "assigned values"
    return .list (items ++ [part])

/-- The values collected so far, in either form (`mrhs_values`). -/
def collectedValues : Value → Outcome (List Value)
  | .node node => .ok (node.nodes.map .node)
  | other => other.asList "assigned values"

/-- Event `mrhs_add_star`: adds a splat, which turns the values into a plain list. -/
def addSplatValue (values part : Value) : Outcome Value := do
  let items ← collectedValues values
  let part ← part.asNode? "splatted value"
  return .list (items ++ [.node ((Node.ofKind .splatArgument).attach? part)])

theorem assignedValue_singleton (node : Node) :
    assignedValue (.list [.node node]) = .ok (some node) := rfl

end RubyTree.Rules
