import RubyTree.Value.Reading

/-!
# Parameters

The parameters of methods, blocks and lambdas, in the order in which they are written, and the
change of assignment targets into parameters.

Results:

* `length_toParameters`: the change keeps the number of nodes.
-/

namespace RubyTree.Rules

mutual

/-- A target as a parameter. Targets between parentheses are changed in turn. -/
def toParameter : Node → Node
  | ⟨kind, field, children⟩ =>
    if kind = .destructuredLeftAssignment then
      ⟨.destructuredParameter, .unlabeled, toParameterChildren children⟩
    else if kind = .restAssignment then
      (Node.ofKind .splatParameter).attachAs? "name" (Node.mk kind field children).firstNode?
    else ⟨kind, field, children⟩

/-- The nodes among children as parameters, without their labels. -/
def toParameterChildren : List (Child Node) → List (Child Node)
  | [] => []
  | .token _ :: children => toParameterChildren children
  | .node child :: children =>
    .node ((toParameter child).under .unlabeled) :: toParameterChildren children

end

/-- Assignment targets as parameters (`to_parameters`). -/
def toParameters (nodes : List Node) : List Node := nodes.map toParameter

/-- A pair of a name and a value that may be missing (`pair`). -/
def nameAndValue (what : String) (pair : Value) : Outcome (Value × Value) := do
  match ← pair.asList what with
  | [name] => return (name, .absent)
  | [name, value] => return (name, value)
  | _ => .error (.notPair what)

/-- A parameter with a default, in `params`. -/
def optionalParameter (item : Value) : Outcome Node := do
  let (name, value) ← nameAndValue "optional parameter" item
  let name ← name.asNode? "parameter name"
  let value ← value.asNode? "parameter default"
  return ((Node.ofKind .optionalParameter).attachAs? "name" name).attachAs? "value" value

/-- The text of a label without the colon that ends it. -/
def labelName (label : String) : String :=
  if label.toList.getLast? = some ':' then String.ofList label.toList.dropLast else label

/-- A keyword parameter, in `params`; its default may be missing. -/
def keywordParameter (item : Value) : Outcome Node := do
  let (label, value) ← nameAndValue "keyword parameter" item
  let value ← if value.isFalsy then .ok none else value.asNode? "keyword default"
  return ((Node.ofKind .keywordParameter).attachAs "name"
    (.leaf .identifier (labelName label.spelling))).attachAs? "value" value

/-- A rest parameter. An argument that forwards everything is a parameter that takes everything. -/
def restParameters (what : String) (rest : Value) : Outcome (List Node) :=
  if rest.hasKind .forwardArgument then .ok [.ofKind .forwardParameter]
  else (rest.asNode? what).map Option.toList

/-- The double-splatted parameter. The symbol `nil` refuses keywords. -/
def keywordRestParameters (rest : Value) : Outcome (List Node) :=
  if rest.isSymbol "nil" then .ok [.ofKind .hashSplatNil]
  else restParameters "keyword rest parameter" rest

/-- The block parameter. The symbol `&` stands for an anonymous one, which leaves no node. -/
def blockParameters (block : Value) : Outcome (List Node) :=
  if block.isSymbol "&" then .ok [] else (block.asNode? "block parameter").map Option.toList

/-- Event `params`: all parameters in the order in which they are written. -/
def parameters (required optional rest post keywords keywordRest block : Value) :
    Outcome Value := do
  let required ← required.asNodes "required parameters"
  let optional ← (← optional.asList "optional parameters").mapM optionalParameter
  let rest ← restParameters "rest parameter" rest
  let post ← post.asNodes "post parameters"
  let keywords ← (← keywords.asList "keyword parameters").mapM keywordParameter
  let keywordRest ← keywordRestParameters keywordRest
  let block ← blockParameters block
  return .ofNodes (required ++ optional ++ rest ++ post ++ keywords ++ keywordRest ++ block)

/-- Events `rest_param`, `kwrest_param` and `blockarg`: a parameter that is a node of the given kind
    around its name. -/
def namedParameter (kind : Kind) (what : String) (name : Value) : Outcome Value := do
  let name ← name.asNode? what
  return .node ((Node.ofKind kind).attachAs? "name" name)

/-- Event `block_var`: the parameters of a block and the variables local to it. -/
def blockVariables (params locals : Value) : Outcome Value := do
  let params ← params.asNodes "block parameters"
  let locals ← match locals with
    | .list locals => locals.mapM fun name => name.asNode? "block local"
    | _ => .ok []
  let node := (Node.ofKind .blockParameters).attachAll (toParameters params)
  return .node ((locals.filterMap id).foldl (·.attachAs "locals" ·) node)

/-- The parameter list of a definition (`parameter_list`). Parentheses make one even when they are
    empty, if `keepEmpty` says so; a bare list does when it has items. -/
def parameterList (kind : Kind) (keepEmpty : Bool) (params : Value) : Outcome (Option Node) :=
  match params with
  | .node node =>
    if node.kind = .parenthesizedStatements ∧ (keepEmpty ∨ node.nodes ≠ []) then
      .ok (some ((Node.ofKind kind).attachAll node.nodes))
    else .ok none
  | .list (item :: items) =>
    ((Value.list (item :: items)).asNodes "parameters").map fun nodes =>
      some ((Node.ofKind kind).attachAll nodes)
  | _ => .ok none

theorem length_toParameters (nodes : List Node) : (toParameters nodes).length = nodes.length := by
  simp [toParameters]

end RubyTree.Rules
