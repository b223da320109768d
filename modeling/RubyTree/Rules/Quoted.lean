import RubyTree.Build
import RubyTree.Literal.Escape

/-!
# Quoted literals

Strings, heredocs, commands, quoted symbols, regular expressions and word arrays. The event that
opens a literal puts its opener on a stack, each piece of text is split as the innermost opener
demands, and the event that completes the literal takes the opener off again.

Results:

* `closeHeredoc_of_kind_ne`: only heredoc bodies are closed with an end marker.
-/

namespace RubyTree.Rules

open Literal (contentParts splitContent)

/-! ## Openers -/

/-- The events that open a literal: its opener is put on the stack (`opener`). -/
def opener (token : Value) : Build Value := do
  Build.note (.openLiteral token.spelling)
  return .absent

/-- Event `heredoc_beg`: the opener of a heredoc is a result too. -/
def heredocOpener (token : Value) : Build Value := do
  Build.note (.openLiteral token.spelling)
  return .text token.spelling

/-! ## Strings -/

/-- The kind of a string that `string_content` begins in a context. -/
def stringKind (context : Context) : Kind :=
  if context.inHeredoc then .heredocBody
  else if context.inQuotedSymbol then .delimitedSymbol
  else .stringLiteral

/-- Event `string_content`: a string begins. -/
def stringContent : Build Value := do
  let context ← Build.context
  return .node (.ofKind (stringKind context))

/-- Events `string_add` and `xstring_add`: adds a part to a string, a text as its leaves, or an
    optional node. -/
def stringAdd (string part : Value) : Build Value := do
  let context ← Build.context
  let string ← Build.ofOutcome (string.asNode "string")
  match part with
  | .text text => return .node (string.attachAll (splitContent context text))
  | other =>
    let part ← Build.ofOutcome (other.asNode? "string part")
    return .node (string.attach? part)

/-- Event `string_concat`: strings written one after the other form one chain. -/
def stringConcat (left right : Value) : Outcome Value := do
  let left ← left.asNode "concatenated string"
  let right ← right.asNode? "concatenated string"
  let chain := if left.kind = .chainedString then left else (Node.ofKind .chainedString).attach left
  return .node (chain.attach? right)

/-- Events `string_embexpr` and `string_dvar`: code inside a literal. -/
def interpolation (statements : Value) : Outcome Value := do
  let nodes ← statements.asNodes "interpolated statements"
  return .node ((Node.ofKind .interpolation).attachAll nodes)

/-- Content of a heredoc has a kind of its own. -/
def heredocPart (child : Child Node) : Child Node :=
  match child with
  | .node n => .node (if n.kind = .stringContent then n.retag .heredocContent else n)
  | token => token

/-- A heredoc body is completed by an end marker, in `string_literal`. -/
def closeHeredoc (literal : Node) : Node :=
  if literal.kind = .heredocBody then
    { literal with children := literal.children.map heredocPart }.attach (.ofKind .heredocEnd)
  else literal

/-- Events `string_literal` and `xstring_literal`: completes a string-like literal. -/
def stringLiteral (parts : Value) : Build Value := do
  let parts ← Build.ofOutcome (parts.asNode "string literal")
  Build.closeLiteral
  return .node (closeHeredoc parts)

/-- Event `xstring_new`: begins a command. Inside a heredoc this is the body of that heredoc;
    otherwise the current token is the opener. -/
def commandContent : Build Value := do
  let context ← Build.context
  if context.inHeredoc then return .node (.ofKind .heredocBody)
  else
    Build.note (.openLiteral (context.token.getD "`"))
    return .node (.ofKind .subshell)

/-! ## Symbols -/

/-- Event `symbol`: a symbol without quotes, whose opener is taken off. -/
def symbol (contents : Value) : Build Value := do
  Build.closeLiteral
  return .node (.leaf .simpleSymbol contents.spelling)

/-- Event `symbol_literal`: the symbol stands for itself. -/
def symbolLiteral (contents : Value) : Outcome Value := do
  let node ← contents.asNode "symbol"
  return .node node

/-- Event `dyna_symbol`: completes a symbol between quotes. -/
def quotedSymbol (contents : Value) : Build Value := do
  Build.closeLiteral
  return contents

/-! ## Lists of parts -/

/-- Events `regexp_add` and `word_add`: adds a part to a list of parts. -/
def addPart (what : String) (parts part : Value) : Build Value := do
  let context ← Build.context
  let parts ← Build.ofOutcome (parts.asList what)
  return .list (parts ++ contentParts context part)

/-- Event `regexp_literal`: completes a regular expression. -/
def regexpLiteral (parts : Value) : Build Value := do
  Build.closeLiteral
  let nodes ← Build.ofOutcome (parts.asNodes "regexp parts")
  return .node ((Node.ofKind .regex).attachAll nodes)

/-! ## Word arrays -/

/-- Events `words_add` and `symbols_add`: adds a word made of parts (`add_word`). -/
def addWord (element : Kind) (array word : Value) : Outcome Value := do
  let array ← array.asNode "word array"
  let parts ← word.asNodes "word parts"
  return .node (array.attach ((Node.ofKind element).attachAll parts))

/-- Events `qwords_add` and `qsymbols_add`: adds a word of raw content (`add_raw_word`). -/
def addRawWord (element : Kind) (array content : Value) : Build Value := do
  let context ← Build.context
  let array ← Build.ofOutcome (array.asNode "word array")
  let parts ← Build.ofOutcome ((Value.list (contentParts context content)).asNodes "word parts")
  return .node (array.attach ((Node.ofKind element).attachAll parts))

/-- Event `array`: an array. A word array is complete already, and its opener is taken off. -/
def array (contents : Value) : Build Value := do
  match contents with
  | .node words =>
    if words.kind = .stringArray ∨ words.kind = .symbolArray then
      Build.closeLiteral
      return .node words
    else return .node ((Node.ofKind .arrayLiteral).attach words)
  | other =>
    let nodes ← Build.ofOutcome (other.asNodes "array elements")
    return .node ((Node.ofKind .arrayLiteral).attachAll nodes)

theorem closeHeredoc_of_kind_ne {literal : Node} (h : literal.kind ≠ .heredocBody) :
    closeHeredoc literal = literal := by
  simp [closeHeredoc, h]

end RubyTree.Rules
