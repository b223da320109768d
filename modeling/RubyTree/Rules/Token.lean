import RubyTree.Build

/-!
# Tokens

Names, keywords and operators as the scanner delivers them. Each becomes a leaf that carries its
text; a few keywords are nodes of their own. The context remembers the operators, keywords and
punctuation that later rules ask about.
-/

namespace RubyTree.Rules

/-- A token that becomes a leaf of the given kind (`leaf`). -/
def leaf (kind : Kind) (token : Value) : Value := .node (.leaf kind token.spelling)

/-- The node of a keyword. -/
def keywordNode (keyword : String) : Node :=
  match keyword with
  | "nil" => .ofKind .nilLiteral
  | "true" => .ofKind .trueLiteral
  | "false" => .ofKind .falseLiteral
  | "self" => .ofKind .selfReference
  | "BEGIN" | "END" => .leaf .constant keyword
  | _ => .leaf .identifier keyword

/-- Event `kw`: a keyword is remembered. -/
def keyword (token : Value) : Build Value := do
  Build.note (.sawKeyword token.spelling)
  return .node (keywordNode token.spelling)

/-- Event `op`: an operator is remembered. -/
def operator (token : Value) : Build Value := do
  Build.note (.sawOperator token.spelling)
  return .node (.leaf .operator token.spelling)

/-- Event `rparen`: the place of a closing parenthesis is remembered. -/
def rparen : Build Value := do
  Build.note .sawParen
  return .absent

/-- Event `semicolon`: the place of a semicolon is remembered. -/
def semicolon : Build Value := do
  Build.note .sawSemicolon
  return .absent

/-- Event `__end__`: nothing after it is read (`end_marker`). -/
def endMarker : Build Value := do
  Build.note .sawEnd
  return .absent

/-! ## Errors the parser recovered from -/

/-- Event `parse_error`: a syntax error leaves a node in its place. -/
def parseError (message : Value) : Build Value := do
  Build.note (.report message.spelling)
  return .node (.ofKind .errorNode)

/-- Events `alias_error`, `assign_error`, `class_name_error` and `param_error`: the message is
    noted, and the node it was found in is kept. -/
def recovered (message node : Value) : Build Value := do
  Build.note (.report message.spelling)
  return node

end RubyTree.Rules
