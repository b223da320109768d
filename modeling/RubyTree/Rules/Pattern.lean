import RubyTree.Rules.Statement

/-!
# Patterns

Patterns arrive as ordinary expressions. Once the position of an expression is known to be that of
a pattern, `toPattern` reads it again: variables become references, `|` an alternative, `=>` a
binding. Array, find and hash patterns are built from such parts, and `in` clauses hold them.
-/

namespace RubyTree.Rules

/-! ## Expressions in the place of a pattern -/

/-- The kind of a pseudo variable. -/
def pseudoVariable? : Option String → Option Kind
  | some "__LINE__" => some .lineNumber
  | some "__FILE__" => some .fileName
  | some "__ENCODING__" => some .encoding
  | _ => none

/-- The first token among the children of a node: its operator. -/
def operator? (node : Node) : Option String := node.children.findSome? Child.token?

/-- A reference to a variable in a pattern. -/
def variableReference (node : Node) : Node :=
  (Node.ofKind .variableReferencePattern).attachAs "name" node

/-- A value between parentheses: all its nodes, each called `value`. -/
def pinned (node : Node) : Node :=
  node.nodes.foldl (·.attachAs "value" ·) (.ofKind .expressionReferencePattern)

/-- A binding of a name to what a pattern matches, the second arm of `binary_pattern`. -/
def binding (value name : Option Node) : Node :=
  ((Node.ofKind .asPattern).attachAs? "value" value).attachAs? "name" name

/-- An alternative added to those on its left, the first arm of `binary_pattern`. -/
def alternative (left right : Option Node) : Node :=
  let chain : Node := match left with
    | some node => if node.kind = .alternativePattern then node
        else (Node.ofKind .alternativePattern).attachAs "alternatives" node
    | none => .ofKind .alternativePattern
  chain.attachAs? "alternatives" right

/-- What a binary operator means in a pattern. -/
inductive PatternOperator where
  | alternative
  | binding

/-- What the operator of a node means in a pattern, if it means something. -/
def patternOperator? (node : Node) : Option PatternOperator :=
  match operator? node with
  | some "|" => some .alternative
  | some "=>" => some .binding
  | _ => none

mutual

/-- An expression read as a pattern (`to_pattern`). -/
def toPattern : Node → Option Node
  | ⟨kind, field, children⟩ =>
    let node := Node.mk kind field children
    match kind with
    | .varField => node.firstNode?
    | .beginEnd => some (pinned node)
    | .ifModifier | .unlessModifier => (patternsOf children).head?.join
    | .globalVariable | .instanceVariable | .classVariable => some (variableReference node)
    | .identifier =>
      match pseudoVariable? node.token? with
      | some kind => some (.ofKind kind)
      | none => some (variableReference node)
    | .binary =>
      match patternOperator? node with
      | none => some node
      | some operator =>
        let patterns := patternsOf children
        let right := patterns.getLast?.join
        let left := patterns.dropLast.head?.join
        match operator with
        | .alternative => some (alternative left right)
        | .binding => some (binding left right)
    | _ => some node

/-- The node children read as patterns. -/
def patternsOf : List (Child Node) → List (Option Node)
  | [] => []
  | .token _ :: children => patternsOf children
  | .node child :: children => toPattern child :: patternsOf children

end

/-- The nodes of a value as patterns. Those that vanish are left out (`patterns`). -/
def patterns (what : String) (values : Value) : Outcome (List Node) :=
  (values.asNodes what).map (·.filterMap toPattern)

/-! ## Array, find and hash patterns -/

/-- The rest of an array or find pattern, with its name (`splat`). -/
def restPattern (field : Node) : Node :=
  (Node.ofKind .splatParameter).attachAs? "name" field.firstNode?

/-- Event `aryptn`: patterns around the rest of an array. -/
def arrayPattern (constant pre rest post : Value) : Outcome Value := do
  let constant ← constant.asNode? "pattern class"
  let pre ← patterns "array pattern" pre
  let rest ← rest.asNode? "array pattern splat"
  let post ← patterns "array pattern" post
  return .node (((((Node.ofKind .arrayPattern).attachAs? "class" constant).attachAll
    pre).attach? (rest.map restPattern)).attachAll post)

/-- Event `fndptn`: patterns somewhere in an array. -/
def findPattern (constant pre values post : Value) : Outcome Value := do
  let constant ← constant.asNode? "pattern class"
  let pre ← pre.asNode? "find pattern splat"
  let values ← patterns "find pattern" values
  let post ← post.asNode? "find pattern splat"
  return .node (((((Node.ofKind .findPattern).attachAs? "class" constant).attach?
    (pre.map restPattern)).attachAll values).attach? (post.map restPattern))

/-- One key of a hash pattern, for `hshptn`, with the pattern of its value if there is one. Items of
    the pair after the second are ignored. -/
def keywordPattern (pair : Value) : Outcome Node := do
  match ← pair.asList "hash pattern pair" with
  | [] => .error .keylessPair
  | key :: values =>
    let key ← key.asNode? "pattern key"
    let value ← (values.head?.getD .absent).asNode? "pattern value"
    return ((Node.ofKind .keywordPattern).attachAs? "key" key).attachAs? "value"
      (value.bind toPattern)

/-- The rest of a hash pattern, for `hshptn`: named, `**nil`, or the anonymous `**` that was scanned
    last. -/
def hashRest (doubleStar : Bool) : Option Node → Option Node
  | some field =>
    match field.firstNode? with
    | some name => some ((Node.ofKind .hashSplatParameter).attachAs "name" name)
    | none => some (.ofKind .hashSplatNil)
  | none => if doubleStar then some (.ofKind .hashSplatParameter) else none

/-- Event `hshptn`: the patterns of keys, and the rest. -/
def hashPattern (constant pairs rest : Value) : Build Value := do
  let context ← Build.context
  Build.note .forgetDoubleStar
  let constant ← Build.ofOutcome (constant.asNode? "pattern class")
  let pairs ← Build.ofOutcome (pairs.asList "hash pattern pairs")
  let pairs ← Build.ofOutcome (pairs.mapM keywordPattern)
  let rest ← Build.ofOutcome (rest.asNode? "hash pattern rest")
  return .node ((((Node.ofKind .hashPattern).attachAs? "class" constant).attachAll
    pairs).attach? (hashRest context.doubleStar rest))

/-! ## In clauses -/

/-- A guard around its condition. -/
def guardOf (kind : Kind) (condition : Option Node) : Node :=
  (Node.ofKind kind).attachAs? "condition" condition

/-- Splits a guarded pattern into the pattern and the guard (`split_guard`). -/
def splitGuard (pattern : Node) : Option Node × Option Node :=
  let guarded (kind : Kind) :=
    (pattern.nodes.dropLast.head?, some (guardOf kind pattern.nodes.getLast?))
  match pattern.kind with
  | .ifModifier => guarded .ifGuard
  | .unlessModifier => guarded .unlessGuard
  | _ => (some pattern, none)

/-- The node that `in` puts its clause into: the clauses after it, an `else`, or nothing yet. -/
def matchesAfter : Option Node → Node
  | none => .ofKind .caseMatch
  | some node =>
    if node.kind = .elseBranch then (Node.ofKind .caseMatch).attachAs "else" node else node

/-- Event `in`: a clause in front of those after it. With neither a body nor clauses after it, it is
    a match on one line. -/
def inClause (pattern body following : Value) : Build Value := do
  let context ← Build.context
  let pattern ← Build.ofOutcome (pattern.asNode "in pattern")
  let following ← Build.ofOutcome (following.asNode? "in consequent")
  if following.isNone && body.isAbsent then
    return .node ((Node.ofKind context.oneLine.kind).attachAs? "pattern" (toPattern pattern))
  else
    let body ← Build.ofOutcome (body.asNodes "in body")
    let (pattern, guard) := splitGuard pattern
    let clause := ((Node.ofKind .inClause).attachAs? "pattern" (pattern.bind toPattern)).attachAs?
      "guard" guard
    return .node ((matchesAfter following).putFirstAs "clauses" (withBody .thenBranch body clause))

end RubyTree.Rules
