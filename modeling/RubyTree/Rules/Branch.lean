import RubyTree.Rules.Statement

/-!
# Branches and loops

Conditionals, modifiers, loops, `case` with `when` clauses, and `rescue` clauses. Clauses arrive
last first: each is handed the ones after it and puts itself in front of them.
-/

namespace RubyTree.Rules

/-! ## Conditionals and loops -/

/-- Events `if`, `unless` and `elsif` (`conditional`). -/
def conditional (kind : Kind) (condition consequence alternative : Value) : Outcome Value := do
  let condition ← condition.asNode? "condition"
  let consequence ← consequence.asNodes "consequence"
  let alternative ← alternative.asNode? "alternative"
  let node := (Node.ofKind kind).attachAs? "condition" condition
  let node := if consequence.isEmpty then node
    else node.attachAs "consequence" ((Node.ofKind .thenBranch).attachAll consequence)
  return .node (node.attachAs? "alternative" alternative)

/-- Event `ifop`: `condition ? consequence : alternative`. -/
def ternary (condition consequence alternative : Value) : Outcome Value := do
  let condition ← condition.asNode? "condition"
  let consequence ← consequence.asNode? "consequence"
  let alternative ← alternative.asNode? "alternative"
  return .node ((((Node.ofKind .conditional).attachAs? "condition" condition).attachAs?
    "consequence" consequence).attachAs? "alternative" alternative)

/-- Events `if_mod`, `unless_mod`, `while_mod` and `until_mod`: `body if condition` and its kin
    (`modifier`). -/
def modifier (kind : Kind) (condition statement : Value) : Outcome Value := do
  let statement ← statement.asNode? "modified statement"
  let condition ← condition.asNode? "modifier condition"
  return .node (((Node.ofKind kind).attachAs? "body" statement).attachAs? "condition" condition)

/-- Events `while` and `until`: a loop; it always has a body (`loop_`). -/
def loop (kind : Kind) (condition body : Value) : Outcome Value := do
  let condition ← condition.asNode? "loop condition"
  let body ← body.asNodes "loop body"
  return .node (((Node.ofKind kind).attachAs? "condition" condition).attachAs
    "body" ((Node.ofKind .doBody).attachAll body))

/-- What the iterator of a `for` binds: one variable, or a list of targets. -/
def forPattern (iterator : Value) : Outcome (Option Node) :=
  if iterator.hasKind .varField then
    (iterator.asNode "for iterator").map Node.firstNode?
  else
    (iterator.asNodes "for iterator").map fun nodes =>
      some ((Node.ofKind .leftAssignmentList).attachAll nodes)

/-- Event `for`: a loop over a collection. Without statements it has no body. -/
def forLoop (iterator enumerable body : Value) : Outcome Value := do
  let pattern ← forPattern iterator
  let enumerable ← enumerable.asNode? "for enumerable"
  let node := ((Node.ofKind .forLoop).attachAs? "pattern" pattern).attachAs
    "value" ((Node.ofKind .inValue).attach? enumerable)
  match body with
  | .absent => return .node node
  | body =>
    let body ← body.asNodes "for body"
    return .node (node.attachAs "body" ((Node.ofKind .doBody).attachAll body))

/-! ## Case -/

/-- Event `case`: a `case` around its clauses. -/
def caseOf (subject clauses : Value) : Outcome Value := do
  let clauses ← clauses.asNode? "case clauses"
  let subject ← subject.asNode? "case value"
  let node := clauses.getD (.ofKind .caseWhen)
  return .node (subject.elim node (node.putFirstAs "value"))

/-- The node that `when` puts its clause into: the clauses after it, an `else`, or nothing yet. -/
def clausesAfter : Option Node → Node
  | none => .ofKind .caseWhen
  | some node =>
    if node.kind = .elseBranch then (Node.ofKind .caseWhen).attach node else node

/-- Attaches each pattern of a `when` clause in a node of its own. -/
def attachPatterns (clause : Node) (patterns : List Node) : Node :=
  patterns.foldl
    (fun clause pattern => clause.attachAs "pattern" ((Node.ofKind .pattern).attach pattern)) clause

/-- Event `when`: a clause in front of those after it. -/
def whenClause (patterns body following : Value) : Outcome Value := do
  let following ← following.asNode? "when consequent"
  let patterns ← patterns.asNodes "when patterns"
  let body ← body.asNodes "when body"
  let clause := withBody .thenBranch body (attachPatterns (.ofKind .whenClause) patterns)
  return .node ((clausesAfter following).putFirst clause)

/-! ## Rescue -/

/-- The exceptions of a clause, for `rescue`, from a list of values or from the node that collected
    them. -/
def rescuedExceptions (exceptions : Value) : Outcome (Option Node) :=
  match exceptions with
  | .absent => .ok none
  | .node node =>
    let nodes := if node.kind = .rightAssignmentList then node.nodes else [node]
    .ok (some ((Node.ofKind .exceptions).attachAll nodes))
  | other =>
    (other.asNodes "rescue exceptions").map fun nodes =>
      some ((Node.ofKind .exceptions).attachAll nodes)

/-- The target of an assignment: its wrapper is taken off (`unwrap_var_field`). -/
def unwrapped (node : Node) : Option Node :=
  if node.kind = .varField then node.firstNode? else some node

/-- Event `rescue`: a clause in front of those after it. -/
def rescueClause (exceptions target body following : Value) : Outcome Value := do
  let exceptions ← rescuedExceptions exceptions
  let target ← target.asNode? "rescue variable"
  let body ← body.asNodes "rescue body"
  let following ← following.asList "rescue clauses"
  let target := target.map fun node =>
    (Node.ofKind .exceptionVariable).attach? (unwrapped node)
  let clause := ((Node.ofKind .rescueClause).attachAs? "exceptions" exceptions).attachAs?
    "variable" target
  return .list (.node (withBody .thenBranch body clause) :: following)

/-- Event `rescue_mod`: `statement rescue handler`. -/
def rescueModifier (statement handler : Value) : Outcome Value := do
  let statement ← statement.asNode? "rescued statement"
  let handler ← handler.asNode? "rescue handler"
  return .node (((Node.ofKind .rescueModifier).attachAs? "body" statement).attachAs?
    "handler" handler)

end RubyTree.Rules
