import RubyTree.Production
import RubyTree.Rules.Assignment
import RubyTree.Rules.Call
import RubyTree.Rules.Definition
import RubyTree.Rules.Hash
import RubyTree.Rules.Number
import RubyTree.Rules.Pattern
import RubyTree.Rules.Quoted
import RubyTree.Rules.Token

/-!
# The rule of each production

What happens when an event fires: the context moves on to it, and the rule of its production is
applied to its arguments. An event that is no production hands its first argument on.

The docstring of a rule begins with the events that it handles.

Results:

* `exec_handle_of_ofName?_eq_none`: an event that is no production moves the position and the token,
  and changes nothing else.
-/

namespace RubyTree

open Rules

/-- A step that yields a value as it is. -/
def Build.value (value : Value) : Build Value := .ofOutcome (.ok value)

/-- The rules that take one value on as it is. -/
def Rule.same : Rule := .one .value

/-- A token that becomes a leaf. -/
def Rule.leaf (kind : Kind) : Rule := .one fun token => .value (Rules.leaf kind token)

/-- A number token. -/
def Rule.number (read : List Char → Node) : Rule :=
  .one fun token => .value (numberToken read token)

/-- An event without arguments that yields a value. -/
def Rule.constant (value : Value) : Rule := .none (.value value)

/-- An event with one argument and a rule without memory. -/
def Rule.map (step : Value → Outcome Value) : Rule := .one fun a => .ofOutcome (step a)

/-- An event with two arguments and a rule without memory. -/
def Rule.map₂ (step : Value → Value → Outcome Value) : Rule :=
  .two fun a b => .ofOutcome (step a b)

/-- An event with three arguments and a rule without memory. -/
def Rule.map₃ (step : Value → Value → Value → Outcome Value) : Rule :=
  .three fun a b c => .ofOutcome (step a b c)

/-- An event with four arguments and a rule without memory. -/
def Rule.map₄ (step : Value → Value → Value → Value → Outcome Value) : Rule :=
  .four fun a b c d => .ofOutcome (step a b c d)

/-- The rule of a production: the table of `dispatch`. -/
def ruleOf : Production → Rule
  -- tokens
  | .identifier => .leaf .identifier
  | .constant => .leaf .constant
  | .instanceVariable => .leaf .instanceVariable
  | .classVariable => .leaf .classVariable
  | .globalVariable | .backReference => .leaf .globalVariable
  | .backtick => .leaf .operator
  | .label => .leaf .hashKeySymbol
  | .charLiteral => .leaf .character
  | .keyword => .one keyword
  | .operator => .one operator
  | .rparen => .one fun _ => rparen
  | .semicolon => .one fun _ => semicolon
  | .endMarker => .one fun _ => endMarker
  | .tstringContent | .argAmbiguous => .same
  | .magicComment => .two fun _ _ => .value .absent
  | .operatorAmbiguous => .two fun token _ => .value token
  -- numbers
  | .integer => .number (signed .integerNumber)
  | .floatNumber => .number (signed .floatNumber)
  | .rationalNumber => .number rationalNumber
  | .imaginaryNumber => .number imaginaryNumber
  -- quoted literals
  | .tstringBeg | .symbeg | .regexpBeg | .wordsBeg | .qwordsBeg | .symbolsBeg | .qsymbolsBeg =>
    .one opener
  | .heredocBeg => .one heredocOpener
  | .heredocDedent => .two fun _ _ => .value (.node (.ofKind .heredocDedent))
  | .stringContent => .none stringContent
  | .stringAdd | .xstringAdd => .two stringAdd
  | .stringConcat => .map₂ stringConcat
  | .stringDvar | .stringEmbexpr => .map interpolation
  | .stringLiteral | .xstringLiteral => .one stringLiteral
  | .xstringNew => .none commandContent
  | .symbol => .one symbol
  | .symbolLiteral => .map symbolLiteral
  | .dynaSymbol => .one quotedSymbol
  | .regexpNew | .wordNew => .constant (.list [])
  | .regexpAdd => .two (addPart "regexp parts")
  | .regexpLiteral => .two fun parts _ => regexpLiteral parts
  | .wordsNew | .qwordsNew => .constant (.node (.ofKind .stringArray))
  | .symbolsNew | .qsymbolsNew => .constant (.node (.ofKind .symbolArray))
  | .wordAdd => .two (addPart "word parts")
  | .wordsAdd => .map₂ (addWord .bareString)
  | .symbolsAdd => .map₂ (addWord .bareSymbol)
  | .qwordsAdd => .two (addRawWord .bareString)
  | .qsymbolsAdd => .two (addRawWord .bareSymbol)
  -- arrays and hashes
  | .arrayLiteral => .one array
  | .hashLiteral => .map hash
  | .assocNew => .map₂ pair
  | .assocSplat => .map doubleSplat
  | .assoclistFromArgs => .same
  | .bareAssocHash => .map bareHash
  -- operators and names
  | .binary => .map₃ binary
  | .unary => .two unary
  | .defined => .one defined
  | .paren => .one paren
  | .dot2 | .dot3 => .map₂ range
  | .ternary => .map₃ ternary
  | .varRef | .vcall | .constRef => .same
  | .varField => .map variableField
  | .constPathRef | .constPathField => .map₂ constantPath
  | .topConstRef | .topConstField => .map topConstant
  | .aref | .arefField => .map₂ elementReference
  -- assignments
  | .assign => .map₂ assign
  | .opassign => .map₃ operatorAssign
  | .massign => .map₂ multipleAssign
  | .mlhsNew => .constant (.list [])
  | .mlhsAdd => .map₂ addTarget
  | .mlhsAddStar => .map₂ addRestTarget
  | .mlhsAddPost => .map₂ addTargets
  | .mlhsParen => .map destructured
  | .mrhsNew => .constant (.node (.ofKind .rightAssignmentList))
  | .mrhsNewFromArgs => .map valuesOf
  | .mrhsAdd => .map₂ addValue
  | .mrhsAddStar => .map₂ addSplatValue
  -- calls
  | .methodCall => .map₃ call
  | .fcall => .map functionCall
  | .command => .map₂ command
  | .commandCall => .map₄ commandCall
  | .fieldCall => .map₃ fieldCall
  | .methodAddArg => .map₂ addArguments
  | .methodAddBlock => .map₂ addBlock
  | .argsNew => .constant (.list [])
  | .argsAdd => .map₂ addArgument
  | .argsAddBlock => .map₂ addBlockArgument
  | .argsAddStar => .map₂ addSplatArgument
  | .argsForward => .constant (.node (.ofKind .forwardArgument))
  | .argParen => .same
  | .superArgs => .map superCall
  | .superBare => .constant (.node (.ofKind .superCall))
  | .yieldArgs => .map yieldCall
  | .yieldBare => .constant (.node (.ofKind .yieldCall))
  | .returnArgs => .map (jump .returnJump)
  | .breakArgs => .map (jump .breakJump)
  | .nextArgs => .map (jump .nextJump)
  | .returnBare => .constant (.node (.ofKind .returnJump))
  | .redoJump => .constant (.node (.ofKind .redoJump))
  | .retryJump => .constant (.node (.ofKind .retryJump))
  | .braceBlock => .map₂ braceBlock
  | .doBlock => .map₂ doBlock
  | .blockVar => .map₂ blockVariables
  -- definitions
  | .methodDef => .map₃ method
  | .singletonDef => .five fun object _ name params body =>
    .ofOutcome (singletonMethod object name params body)
  | .classDef => .map₃ classDef
  | .moduleDef => .map₂ moduleDef
  | .singletonClass => .map₂ singletonClass
  | .params => .seven fun required optional rest post keywords keywordRest block =>
    .ofOutcome (parameters required optional rest post keywords keywordRest block)
  | .restParam => .map (namedParameter .splatParameter "splat name")
  | .kwrestParam => .map (namedParameter .hashSplatParameter "double splat name")
  | .nokwParam => .one fun _ => .value (.node (.ofKind .hashSplatNil))
  | .blockarg => .map (namedParameter .blockParameter "block parameter name")
  | .excessedComma => .constant .absent
  | .lambdaLiteral => .two lambda
  | .aliasMethod | .varAlias => .map₂ aliasMethod
  | .undefine => .map undefine
  -- statements and branches
  | .program => .one program
  | .stmtsNew => .constant (.list [])
  | .stmtsAdd => .two addStatement
  | .voidStmt => .none voidStatement
  | .bodyStatement => .four bodyStatement
  | .beginEnd => .map (sequence .beginEnd "begin body")
  | .beginHook => .map (sequence .beginBlock "BEGIN body")
  | .endHook => .map (sequence .endBlock "END body")
  | .ifBranch => .map₃ (conditional .ifStatement)
  | .unlessBranch => .map₃ (conditional .unlessStatement)
  | .elsifBranch => .map₃ (conditional .elsifBranch)
  | .elseBranch => .map (sequence .elseBranch "else body")
  | .ifMod => .map₂ (modifier .ifModifier)
  | .unlessMod => .map₂ (modifier .unlessModifier)
  | .whileMod => .map₂ (modifier .whileModifier)
  | .untilMod => .map₂ (modifier .untilModifier)
  | .whileLoop => .map₂ (loop .whileLoop)
  | .untilLoop => .map₂ (loop .untilLoop)
  | .forLoop => .map₃ forLoop
  | .caseOf => .map₂ caseOf
  | .whenClause => .map₃ whenClause
  | .rescueClause => .map₄ rescueClause
  | .rescueMod => .map₂ rescueModifier
  | .ensureClause => .map ensureClause
  -- patterns
  | .inClause => .three inClause
  | .arrayPattern => .map₄ arrayPattern
  | .findPattern => .map₄ findPattern
  | .hashPattern => .three hashPattern
  -- recovered errors
  | .parseError => .one parseError
  | .aliasError | .assignError | .classNameError | .paramError => .two recovered

/-- The result of an event that is no production: its first argument. -/
def firstArgument (arguments : List Value) : Value := arguments.head?.getD .absent

/-- Handles an event in the context that has moved on to it: the second half of `handle`. -/
def dispatch (event : String) (arguments : List Value) : Build Value :=
  match Production.ofName? event with
  | some production => (ruleOf production).apply production.name arguments
  | none => .value (firstArgument arguments)

/-- Handles an event that fired at a position, with the token scanned there (`handle`). -/
def handle (event : String) (arguments : List Value) (position : Position)
    (token : Option String) : Build Value := do
  Build.note (.enter position token)
  dispatch event arguments

theorem exec_handle_of_ofName?_eq_none {event : String} (h : Production.ofName? event = none)
    (arguments : List Value) (position : Position) (token : Option String) (context : Context) :
    (handle event arguments position token).exec context =
      (.ok (firstArgument arguments), context.enter position token) := by
  simp only [handle, dispatch, h]
  rfl

end RubyTree
