import RubyTree.Value.Reading

/-!
# Calls and their arguments

A call has a receiver, a method and arguments, any of which may be missing. An argument list grows
one argument at a time; pairs written without braces become arguments of their own, and an absent
list differs from an empty one: it means that empty parentheses were written.
-/

namespace RubyTree.Rules

/-! ## Calls -/

/-- A capitalised method name reads as a constant, in `call`. -/
def promoted (name : Node) : Node :=
  if name.kind = .identifier ∧ name.startsUppercase then name.retag .constant else name

/-- Event `call`: a call without its arguments. The symbol `call` stands for a method that is not
    named. -/
def call (receiver operator method : Value) : Outcome Value := do
  let receiver ← receiver.asNode? "call receiver"
  let node := ((Node.ofKind .call).attachAs? "receiver" receiver).attachToken operator.spelling
  if method.isSymbol "call" then return .node node
  else
    let method ← method.asNode? "call message"
    return .node (node.attachAs? "method" (method.map promoted))

/-- Event `fcall`: a call without a receiver. -/
def functionCall (method : Value) : Outcome Value := call .absent (.text ".") method

/-- Event `method_add_arg`: attaches an argument list to a call. -/
def addArguments (target arguments : Value) : Outcome Value := do
  let target ← target.asNode "call target"
  match arguments with
  | .absent => return .node (target.attachAs "arguments" (.ofKind .argumentList))
  | arguments =>
    if arguments.items.isEmpty then return .node target
    else
      let arguments ← arguments.asNodes "arguments"
      return .node (target.attachAs "arguments" ((Node.ofKind .argumentList).attachAll arguments))

/-- Event `command_call`: a call with its arguments. -/
def commandCall (receiver operator method arguments : Value) : Outcome Value := do
  addArguments (← call receiver operator method) arguments

/-- Event `command`: a call without a receiver and with its arguments. -/
def command (method arguments : Value) : Outcome Value :=
  commandCall .absent (.text ".") method arguments

/-- Event `field`: a call that is assigned to. -/
def fieldCall (receiver operator name : Value) : Outcome Value :=
  commandCall receiver operator name (.list [])

/-- Events `aref` and `aref_field`: an element of a collection (`aref`). -/
def elementReference (collection index : Value) : Outcome Value := do
  let collection ← collection.asNode? "indexed object"
  let index ← index.asNodes "index arguments"
  return .node (((Node.ofKind .elementReference).attachAs? "object" collection).attachAll index)

/-! ## Argument lists -/

/-- What an argument contributes to an argument list, in `args_add`. -/
def argumentItems : Value → List Value
  | .absent => []
  | .node node => if node.kind = .bareAssocHash then node.nodes.map .node else [.node node]
  | other => [other]

/-- Event `args_add`: adds an argument. -/
def addArgument (arguments argument : Value) : Outcome Value := do
  let items ← arguments.asList "argument list"
  return .list (items ++ argumentItems argument)

/-- Event `args_add_block`: adds a block argument. `false` means that none was written, and an
    absent one is anonymous. -/
def addBlockArgument (arguments block : Value) : Outcome Value := do
  let items ← arguments.asList "argument list"
  match block with
  | .bool false => return .list items
  | .absent => return .list (items ++ [.node (.ofKind .blockArgument)])
  | other =>
    let block ← other.asNode "block argument"
    return .list (items ++ [.node ((Node.ofKind .blockArgument).attach block)])

/-- Event `args_add_star`: adds a splat, which may be anonymous. -/
def addSplatArgument (arguments argument : Value) : Outcome Value := do
  let items ← arguments.asList "argument list"
  let argument ← argument.asNode? "splat argument"
  return .list (items ++ [.node ((Node.ofKind .splatArgument).attach? argument)])

/-! ## Super, yield and jumps -/

/-- Event `super`: `super` with arguments; a list without items counts as empty parentheses. -/
def superCall (arguments : Value) : Outcome Value :=
  command (.node (.ofKind .superCall))
    (if arguments.items.isEmpty then .absent else .list arguments.items)

/-- Parentheses after a jump keyword hold arguments (`unparenthesize`). -/
def unparenthesized : Value → Value
  | .node node =>
    if node.kind = .parenthesizedStatements then .ofNodes node.nodes else .node node
  | other => other

/-- Event `yield`: `yield` with the arguments it is written with. -/
def yieldCall (arguments : Value) : Outcome Value := do
  match unparenthesized arguments with
  | .absent => return .node (.ofKind .yieldCall)
  | arguments =>
    let arguments ← arguments.asNodes "yield arguments"
    return .node ((Node.ofKind .yieldCall).attach ((Node.ofKind .argumentList).attachAll arguments))

/-- Events `break`, `next` and `return`, with arguments (`jump`). -/
def jump (kind : Kind) (arguments : Value) : Outcome Value := do
  let arguments := unparenthesized arguments
  if arguments.isBlank then return .node (.ofKind kind)
  else
    let arguments ← arguments.asNodes "jump arguments"
    return .node ((Node.ofKind kind).attach ((Node.ofKind .argumentList).attachAll arguments))

end RubyTree.Rules
