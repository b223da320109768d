import RubyTree.Build

/-!
# Statements

Lists of statements, whole programs, and the bodies with rescue, else and ensure clauses. The
context remembers which of a plain list and a full body was completed last, for the lambdas.
-/

namespace RubyTree.Rules

/-- Nodes without an empty statement at the front. -/
def withoutLeadingEmpty : List Node → List Node
  | [] => []
  | node :: nodes => if node.kind = .emptyStatement then nodes else node :: nodes

/-- The statements of a body (`statements`). -/
def statements (what : String) (body : Value) : Outcome (List Node) :=
  (body.asNodes what).map withoutLeadingEmpty

/-- Attaches statements under `body`, inside a node of the given kind, if there are any. -/
def withBody (kind : Kind) (nodes : List Node) (node : Node) : Node :=
  if nodes.isEmpty then node else node.attachAs "body" ((Node.ofKind kind).attachAll nodes)

/-- Event `program`: a whole program. What follows `__END__` is a node at its end. -/
def program (statements : Value) : Build Value := do
  let context ← Build.context
  let nodes ← Build.ofOutcome (statements.asNodes "program")
  let node := (Node.ofKind .program).attachAll nodes
  return .node (if context.ended then node.attach (.ofKind .uninterpreted) else node)

/-- Event `stmts_add`: adds a statement to a list of statements or to a node. -/
def addStatement (list statement : Value) : Build Value := do
  Build.note (.sawBody .braces)
  match list with
  | .node node =>
    let statement ← Build.ofOutcome (statement.asNode? "statement")
    return .node (node.attach? statement)
  | other =>
    let items ← Build.ofOutcome (other.asList "statement list")
    return .list (if statement.isAbsent then items else items ++ [statement])

/-- Event `void_stmt`: a statement that is not there. Right after a semicolon it is an empty
    statement. -/
def voidStatement : Build Value := do
  let context ← Build.context
  return if context.semicolonJustSeen then .node (.ofKind .emptyStatement) else .absent

/-- The else part of a body, for `bodystmt`, as the items it adds. -/
def elseItems : Value → Outcome (List Value)
  | .absent => .ok []
  | clause => do
    let nodes ← clause.asNodes "else body"
    return [.node ((Node.ofKind .elseBranch).attachAll nodes)]

/-- Event `bodystmt`: statements, rescue clauses, an else part and an ensure clause. -/
def bodyStatement (list rescues otherwise ensured : Value) : Build Value := do
  Build.note (.sawBody .doEnd)
  let items ← Build.ofOutcome (list.asList "body statements")
  let otherwise ← Build.ofOutcome (elseItems otherwise)
  return .list (items ++ rescues.items ++ otherwise ++ if ensured.isAbsent then [] else [ensured])

/-- Events `begin`, `BEGIN`, `END` and `else`: a node that holds the statements of a body. -/
def sequence (kind : Kind) (what : String) (body : Value) : Outcome Value := do
  let nodes ← statements what body
  return .node ((Node.ofKind kind).attachAll nodes)

/-- Event `ensure`: an ensure clause. -/
def ensureClause (body : Value) : Outcome Value := do
  let nodes ← body.asNodes "ensure body"
  return .node ((Node.ofKind .ensureClause).attachAll nodes)

end RubyTree.Rules
