import RubyTree.Rules.Parameter
import RubyTree.Rules.Statement

/-!
# Definitions

Methods, classes, modules, blocks and lambdas, and the names that `alias` and `undef` take.

Results:

* `methodName_of_isNameKind`: a node whose kind is that of a name already is kept.
-/

namespace RubyTree.Rules

/-- The kinds of nodes that name a method as they are. -/
def isNameKind : Kind → Bool
  | .simpleSymbol | .operator | .delimitedSymbol | .constant | .globalVariable | .setter => true
  | _ => false

/-- A text without the character `last` at its end, if it has one. -/
def withoutLast? (last : Char) (text : String) : Option String :=
  if text.toList.getLast? = some last then some (String.ofList text.toList.dropLast) else none

/-- The name of a method (`method_name`). An identifier that ends in `=` is a setter, a capitalised
    one a constant; keywords and variables read as identifiers. -/
def methodName (node : Node) : Node :=
  if isNameKind node.kind then node
  else if node.kind = .identifier then
    match node.token?.bind (withoutLast? '=') with
    | some base => (Node.ofKind .setter).attachAs "name" (.leaf .identifier base)
    | none => if node.startsUppercase then node.retag .constant else node
  else node.retag .identifier

/-! ## Methods, classes and modules -/

/-- Completes a definition with its body (`with_body`). -/
def withBodyStatement (what : String) (body : Value) (node : Node) : Outcome Value := do
  let nodes ← statements what body
  return .node (withBody .bodyStatement nodes node)

/-- Event `def`: a method. -/
def method (name params body : Value) : Outcome Value := do
  let name ← name.asNode "method name"
  let params ← parameterList .methodParameters true params
  withBodyStatement "method body" body
    (((Node.ofKind .methodDef).attachAs "name" (methodName name)).attachAs? "parameters" params)

/-- The object of a singleton method, for `defs`; parentheses around it are taken off. -/
def singletonObject (object : Value) : Outcome (Option Node) :=
  if object.hasKind .parenthesizedStatements then
    (object.asNode "singleton object").map Node.firstNode?
  else object.asNode? "singleton object"

/-- Event `defs`: a method of one object. -/
def singletonMethod (object name params body : Value) : Outcome Value := do
  let object ← singletonObject object
  let name ← name.asNode "method name"
  let params ← parameterList .methodParameters true params
  withBodyStatement "method body" body
    ((((Node.ofKind .singletonMethodDef).attachAs? "object" object).attachAs
      "name" (methodName name)).attachAs? "parameters" params)

/-- Event `class`: a class, with its superclass if one is written. -/
def classDef (name superclass body : Value) : Outcome Value := do
  let name ← name.asNode? "class name"
  let superclass ← superclass.asNode? "superclass"
  withBodyStatement "class body" body
    (((Node.ofKind .classDef).attachAs? "name" name).attachAs? "superclass"
      (superclass.map fun node => (Node.ofKind .superclass).attach node))

/-- Event `module`: a module. -/
def moduleDef (name body : Value) : Outcome Value := do
  let name ← name.asNode? "module name"
  withBodyStatement "module body" body ((Node.ofKind .moduleDef).attachAs? "name" name)

/-- Event `sclass`: the class of one object. -/
def singletonClass (object body : Value) : Outcome Value := do
  let object ← object.asNode? "singleton object"
  withBodyStatement "singleton class body" body
    ((Node.ofKind .singletonClassDef).attachAs? "value" object)

/-! ## Blocks and lambdas -/

/-- Event `brace_block`: a block between braces. -/
def braceBlock (params body : Value) : Outcome Value := do
  let params ← params.asNode? "block parameters"
  let body ← body.asNodes "block body"
  return .node (withBody .blockBody body ((Node.ofKind .block).attachAs? "parameters" params))

/-- Event `do_block`: a block from `do` to `end`. -/
def doBlock (params body : Value) : Outcome Value := do
  let params ← params.asNode? "block parameters"
  withBodyStatement "do block body" body ((Node.ofKind .doBlock).attachAs? "parameters" params)

/-- Changes the first node among children; nothing if there is no node. -/
def changeFirstNode? (change : Node → Option Node) : List (Child Node) → Option (List (Child Node))
  | [] => none
  | .node child :: children => (change child).map (.node · :: children)
  | token :: children => (changeFirstNode? change children).map (token :: ·)

/-- Changes the first child that is a node. -/
def changeFirst? (change : Node → Option Node) (node : Node) : Option Node :=
  (changeFirstNode? change node.children).map fun children => { node with children := children }

/-- Event `method_add_block`: attaches a block to a call. After a jump keyword it belongs to the
    first argument of the jump. -/
def addBlock (target block : Value) : Outcome Value := do
  let target ← target.asNode "block target"
  let block ← block.asNode? "block"
  match block with
  | none =>
    return .node (if target.kind = .superCall then (Node.ofKind .call).attachAs "method" target
      else target)
  | some block =>
    if target.kind = .breakJump ∨ target.kind = .returnJump ∨ target.kind = .nextJump then
      match changeFirst? (changeFirst? fun call => some (call.attachAs "block" block)) target with
      | some target => return .node target
      | none => .error (.blockWithoutCall target.kind)
    else if target.kind = .superCall then
      return .node (((Node.ofKind .call).attachAs "method" target).attachAs "block" block)
    else return .node (target.attachAs "block" block)

/-- Event `lambda`: a lambda. Its body has the shape of the statements completed last. -/
def lambda (params body : Value) : Build Value := do
  let context ← Build.context
  let params ← Build.ofOutcome (parameterList .lambdaParameters false params)
  let body ← Build.ofOutcome (body.asNodes "lambda body")
  let node := (Node.ofKind .lambdaLiteral).attachAs? "parameters" params
  if body.isEmpty then return .node node
  else
    return .node (node.attachAs "body"
      (withBody context.lambdaBody.inner body (.ofKind context.lambdaBody.outer)))

/-! ## Aliases -/

/-- Events `alias` and `var_alias`: a new name beside an old one (`alias`). -/
def aliasMethod (name old : Value) : Outcome Value := do
  let name ← name.asNode "alias name"
  let old ← old.asNode "aliased name"
  return .node (((Node.ofKind .aliasStatement).attachAs "name" (methodName name)).attachAs
    "alias" (methodName old))

/-- Event `undef`: names that are taken away. -/
def undefine (names : Value) : Outcome Value := do
  let names ← names.asNodes "undefined methods"
  return .node ((Node.ofKind .undefStatement).attachAll (names.map methodName))

theorem methodName_of_isNameKind {node : Node} (h : isNameKind node.kind = true) :
    methodName node = node := by
  simp [methodName, h]

end RubyTree.Rules
