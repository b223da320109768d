import RubyTree.Build

/-!
# Operators, names and groups

Operators and their operands, constant paths, parenthesised groups.

`not (x)` and `defined?(x)` keep their parentheses: when the closing one stands right before the
event, the operand is a group, and the operator claims that parenthesis. The group that is built
from the same parenthesis afterwards then undoes the inner one.

Results:

* `ungroup_of_kind_ne`: undoing leaves anything but a unary operator alone.
* `mapLast_concat`: the last node is the one that changes.
-/

namespace RubyTree.Rules

/-- A unary operator applied to an operand. -/
def applied (operator : String) (operand : Option Node) : Node :=
  ((Node.ofKind .unary).attachToken operator).attachAs? "operand" operand

/-- The operators written before a parenthesised operand as if they were called. -/
def takesParentheses (operator : String) : Bool := operator == "not" || operator == "defined?"

/-- A parenthesised group around an optional node. -/
def group (operand : Option Node) : Node := (Node.ofKind .parenthesizedStatements).attach? operand

/-- Applies a unary operator; it may claim the parenthesis that just closed (`unary_node`). -/
def apply (operator : String) (operand : Option Node) : Build Value := do
  let context ← Build.context
  if takesParentheses operator && context.parenJustClosed then
    Build.note Context.claimParen
    return .node (applied operator (some (group operand)))
  else return .node (applied operator operand)

/-- Event `unary`: an operator in front of its operand. -/
def unary (operator operand : Value) : Build Value := do
  let operand ← Build.ofOutcome (operand.asNode? "unary operand")
  apply operator.spelling operand

/-- Event `defined`: the operator `defined?`. -/
def defined (operand : Value) : Build Value := do
  let operand ← Build.ofOutcome (operand.asNode? "defined? operand")
  apply "defined?" operand

/-- Takes the inner group of an operand away, as `paren` does with the last node. -/
def ungroup (node : Node) : Node :=
  if node.kind = .unary ∧ node.lastNode?.any (·.kind = .parenthesizedStatements) then
    match node.detachLast? with
    | some (inner, rest) => rest.attachAs? "operand" inner.firstNode?
    | none => node
  else node

/-- Changes the last node of a list. -/
def mapLast (change : Node → Node) : List Node → List Node
  | [] => []
  | [last] => [change last]
  | node :: nodes => node :: mapLast change nodes

/-- Event `paren`: a parenthesised group. -/
def paren (contents : Value) : Build Value := do
  let context ← Build.context
  let nodes ← Build.ofOutcome (contents.asNodes "parenthesized statements")
  let nodes := if context.parenJustClosed && context.parenClaimed then mapLast ungroup nodes
    else nodes
  return .node ((Node.ofKind .parenthesizedStatements).attachAll nodes)

/-- Event `binary`: an operator between two operands, which is kept as a token. -/
def binary (left operator right : Value) : Outcome Value := do
  let left ← left.asNode? "left operand"
  let right ← right.asNode? "right operand"
  return .node ((((Node.ofKind .binary).attachAs? "left" left).attachToken
    operator.spelling).attachAs? "right" right)

/-- Events `dot2` and `dot3`: a range, either end of which may be missing. -/
def range (first last : Value) : Outcome Value := do
  let first ← first.asNode? "range begin"
  let last ← last.asNode? "range end"
  return .node (((Node.ofKind .range).attachAs? "begin" first).attachAs? "end" last)

/-- Events `const_path_ref` and `const_path_field`: a constant inside another. -/
def constantPath (scope name : Value) : Outcome Value := do
  let scope ← scope.asNode? "constant scope"
  let name ← name.asNode? "constant name"
  return .node (((Node.ofKind .scopeResolution).attachAs? "scope" scope).attachAs? "name" name)

/-- Events `top_const_ref` and `top_const_field`: a constant of the outermost scope. -/
def topConstant (name : Value) : Outcome Value := do
  let name ← name.asNode? "constant name"
  return .node ((Node.ofKind .scopeResolution).attachAs? "name" name)

theorem ungroup_of_kind_ne {node : Node} (h : node.kind ≠ .unary) : ungroup node = node := by
  simp [ungroup, h]

theorem mapLast_concat (change : Node → Node) (nodes : List Node) (last : Node) :
    mapLast change (nodes ++ [last]) = nodes ++ [change last] := by
  induction nodes with
  | nil => rfl
  | cons node nodes ih =>
    cases nodes with
    | nil => rfl
    | cons next nodes => exact congrArg (node :: ·) ih

end RubyTree.Rules
