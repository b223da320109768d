/-!
# Kinds of nodes

The closed vocabulary of node kinds, each with the name it is printed by.

Results:

* `Kind.mem_all`: the list of all kinds misses none.
-/

namespace RubyTree

/-- What a node is. A few kinds (`varField`, `restAssignment`, `destructuredLeftAssignment`,
    `bareAssocHash`) mark nodes that an enclosing rule unwraps again. -/
inductive Kind where
  | aliasStatement | alternativePattern | argumentList | arrayLiteral | arrayPattern | asPattern
  | assignment | bareAssocHash | bareString | bareSymbol | beginEnd | beginBlock | binary | block
  | blockArgument | blockBody | blockParameter | blockParameters | bodyStatement | breakJump
  | call | caseWhen | caseMatch | chainedString | character | classDef | classVariable | complex
  | conditional | constant | delimitedSymbol | destructuredLeftAssignment | destructuredParameter
  | doBody | doBlock | elementReference | elseBranch | elsifBranch | emptyStatement | encoding
  | endBlock | ensureClause | errorNode | escapeSequence | exceptionVariable | exceptions
  | expressionReferencePattern | falseLiteral | fileName | findPattern | floatNumber | forLoop
  | forwardArgument | forwardParameter | globalVariable | hashLiteral | hashKeySymbol
  | hashPattern | hashSplatArgument | hashSplatNil | hashSplatParameter | heredocBeginning
  | heredocBody | heredocContent | heredocDedent | heredocEnd | identifier | ifStatement
  | ifGuard | ifModifier | inValue | inClause | instanceVariable | integerNumber | interpolation
  | keywordParameter | keywordPattern | lambdaLiteral | lambdaParameters | leftAssignmentList
  | lineNumber | matchPattern | methodDef | methodParameters | moduleDef | nextJump | nilLiteral
  | operator | operatorAssignment | optionalParameter | pair | parenthesizedStatements | pattern
  | program | range | rational | redoJump | regex | rescueClause | rescueModifier
  | restAssignment | retryJump | returnJump | rightAssignmentList | scopeResolution
  | selfReference | setter | simpleSymbol | singletonClassDef | singletonMethodDef
  | splatArgument | splatParameter | stringLiteral | stringArray | stringContent | subshell
  | superCall | superclass | symbolArray | testPattern | thenBranch | trueLiteral | unary
  | undefStatement | uninterpreted | unlessStatement | unlessGuard | unlessModifier | untilLoop
  | untilModifier | varField | variableReferencePattern | whenClause | whileLoop | whileModifier
  | yieldCall
  deriving DecidableEq

namespace Kind

/-- The name a kind is printed by (`as_str`). -/
def name : Kind → String
  | .aliasStatement => "alias"
  | .alternativePattern => "alternative_pattern"
  | .argumentList => "argument_list"
  | .arrayLiteral => "array"
  | .arrayPattern => "array_pattern"
  | .asPattern => "as_pattern"
  | .assignment => "assignment"
  | .bareAssocHash => "bare_assoc_hash"
  | .bareString => "bare_string"
  | .bareSymbol => "bare_symbol"
  | .beginEnd => "begin"
  | .beginBlock => "begin_block"
  | .binary => "binary"
  | .block => "block"
  | .blockArgument => "block_argument"
  | .blockBody => "block_body"
  | .blockParameter => "block_parameter"
  | .blockParameters => "block_parameters"
  | .bodyStatement => "body_statement"
  | .breakJump => "break"
  | .call => "call"
  | .caseWhen => "case"
  | .caseMatch => "case_match"
  | .chainedString => "chained_string"
  | .character => "character"
  | .classDef => "class"
  | .classVariable => "class_variable"
  | .complex => "complex"
  | .conditional => "conditional"
  | .constant => "constant"
  | .delimitedSymbol => "delimited_symbol"
  | .destructuredLeftAssignment => "destructured_left_assignment"
  | .destructuredParameter => "destructured_parameter"
  | .doBody => "do"
  | .doBlock => "do_block"
  | .elementReference => "element_reference"
  | .elseBranch => "else"
  | .elsifBranch => "elsif"
  | .emptyStatement => "empty_statement"
  | .encoding => "encoding"
  | .endBlock => "end_block"
  | .ensureClause => "ensure"
  | .errorNode => "error"
  | .escapeSequence => "escape_sequence"
  | .exceptionVariable => "exception_variable"
  | .exceptions => "exceptions"
  | .expressionReferencePattern => "expression_reference_pattern"
  | .falseLiteral => "false"
  | .fileName => "file"
  | .findPattern => "find_pattern"
  | .floatNumber => "float"
  | .forLoop => "for"
  | .forwardArgument => "forward_argument"
  | .forwardParameter => "forward_parameter"
  | .globalVariable => "global_variable"
  | .hashLiteral => "hash"
  | .hashKeySymbol => "hash_key_symbol"
  | .hashPattern => "hash_pattern"
  | .hashSplatArgument => "hash_splat_argument"
  | .hashSplatNil => "hash_splat_nil"
  | .hashSplatParameter => "hash_splat_parameter"
  | .heredocBeginning => "heredoc_beginning"
  | .heredocBody => "heredoc_body"
  | .heredocContent => "heredoc_content"
  | .heredocDedent => "heredoc_dedent"
  | .heredocEnd => "heredoc_end"
  | .identifier => "identifier"
  | .ifStatement => "if"
  | .ifGuard => "if_guard"
  | .ifModifier => "if_modifier"
  | .inValue => "in"
  | .inClause => "in_clause"
  | .instanceVariable => "instance_variable"
  | .integerNumber => "integer"
  | .interpolation => "interpolation"
  | .keywordParameter => "keyword_parameter"
  | .keywordPattern => "keyword_pattern"
  | .lambdaLiteral => "lambda"
  | .lambdaParameters => "lambda_parameters"
  | .leftAssignmentList => "left_assignment_list"
  | .lineNumber => "line"
  | .matchPattern => "match_pattern"
  | .methodDef => "method"
  | .methodParameters => "method_parameters"
  | .moduleDef => "module"
  | .nextJump => "next"
  | .nilLiteral => "nil"
  | .operator => "operator"
  | .operatorAssignment => "operator_assignment"
  | .optionalParameter => "optional_parameter"
  | .pair => "pair"
  | .parenthesizedStatements => "parenthesized_statements"
  | .pattern => "pattern"
  | .program => "program"
  | .range => "range"
  | .rational => "rational"
  | .redoJump => "redo"
  | .regex => "regex"
  | .rescueClause => "rescue"
  | .rescueModifier => "rescue_modifier"
  | .restAssignment => "rest_assignment"
  | .retryJump => "retry"
  | .returnJump => "return"
  | .rightAssignmentList => "right_assignment_list"
  | .scopeResolution => "scope_resolution"
  | .selfReference => "self"
  | .setter => "setter"
  | .simpleSymbol => "simple_symbol"
  | .singletonClassDef => "singleton_class"
  | .singletonMethodDef => "singleton_method"
  | .splatArgument => "splat_argument"
  | .splatParameter => "splat_parameter"
  | .stringLiteral => "string"
  | .stringArray => "string_array"
  | .stringContent => "string_content"
  | .subshell => "subshell"
  | .superCall => "super"
  | .superclass => "superclass"
  | .symbolArray => "symbol_array"
  | .testPattern => "test_pattern"
  | .thenBranch => "then"
  | .trueLiteral => "true"
  | .unary => "unary"
  | .undefStatement => "undef"
  | .uninterpreted => "uninterpreted"
  | .unlessStatement => "unless"
  | .unlessGuard => "unless_guard"
  | .unlessModifier => "unless_modifier"
  | .untilLoop => "until"
  | .untilModifier => "until_modifier"
  | .varField => "var_field"
  | .variableReferencePattern => "variable_reference_pattern"
  | .whenClause => "when"
  | .whileLoop => "while"
  | .whileModifier => "while_modifier"
  | .yieldCall => "yield"

/-- Every kind, in the order of their names. -/
def all : List Kind := [
  .aliasStatement, .alternativePattern, .argumentList, .arrayLiteral, .arrayPattern, .asPattern,
  .assignment, .bareAssocHash, .bareString, .bareSymbol, .beginEnd, .beginBlock, .binary, .block,
  .blockArgument, .blockBody, .blockParameter, .blockParameters, .bodyStatement, .breakJump,
  .call, .caseWhen, .caseMatch, .chainedString, .character, .classDef, .classVariable, .complex,
  .conditional, .constant, .delimitedSymbol, .destructuredLeftAssignment, .destructuredParameter,
  .doBody, .doBlock, .elementReference, .elseBranch, .elsifBranch, .emptyStatement, .encoding,
  .endBlock, .ensureClause, .errorNode, .escapeSequence, .exceptionVariable, .exceptions,
  .expressionReferencePattern, .falseLiteral, .fileName, .findPattern, .floatNumber, .forLoop,
  .forwardArgument, .forwardParameter, .globalVariable, .hashLiteral, .hashKeySymbol,
  .hashPattern, .hashSplatArgument, .hashSplatNil, .hashSplatParameter, .heredocBeginning,
  .heredocBody, .heredocContent, .heredocDedent, .heredocEnd, .identifier, .ifStatement,
  .ifGuard, .ifModifier, .inValue, .inClause, .instanceVariable, .integerNumber, .interpolation,
  .keywordParameter, .keywordPattern, .lambdaLiteral, .lambdaParameters, .leftAssignmentList,
  .lineNumber, .matchPattern, .methodDef, .methodParameters, .moduleDef, .nextJump, .nilLiteral,
  .operator, .operatorAssignment, .optionalParameter, .pair, .parenthesizedStatements, .pattern,
  .program, .range, .rational, .redoJump, .regex, .rescueClause, .rescueModifier,
  .restAssignment, .retryJump, .returnJump, .rightAssignmentList, .scopeResolution,
  .selfReference, .setter, .simpleSymbol, .singletonClassDef, .singletonMethodDef,
  .splatArgument, .splatParameter, .stringLiteral, .stringArray, .stringContent, .subshell,
  .superCall, .superclass, .symbolArray, .testPattern, .thenBranch, .trueLiteral, .unary,
  .undefStatement, .uninterpreted, .unlessStatement, .unlessGuard, .unlessModifier, .untilLoop,
  .untilModifier, .varField, .variableReferencePattern, .whenClause, .whileLoop, .whileModifier,
  .yieldCall]

/-- The kind printed by a given name. -/
def ofName? (name : String) : Option Kind := all.find? (·.name == name)

/-- The kinds whose children are a sequence of statements (`is_statement_sequence`). A heredoc body
    that is moved out of an expression comes to rest inside one of these. -/
def isStatementSequence : Kind → Bool
  | .program | .methodDef | .doBlock | .doBody | .singletonMethodDef | .classDef | .moduleDef
  | .singletonClassDef | .block | .beginEnd | .elseBranch | .elsifBranch | .thenBranch => true
  | _ => false

theorem mem_all (kind : Kind) : kind ∈ all := by cases kind <;> decide

end Kind

end RubyTree
