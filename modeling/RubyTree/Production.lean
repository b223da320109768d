/-!
# Productions

The closed set of events that have a rule, each with the name it goes by in a stream. An event of
any other name hands its first argument on.

Results:

* `Production.mem_all`: the list of all productions misses none.
-/

namespace RubyTree

/-- An event that has a rule. -/
inductive Production where
  | beginHook | endHook | charLiteral | endMarker | aliasMethod | aliasError | aref | arefField
  | argAmbiguous | argParen | argsAdd | argsAddBlock | argsAddStar | argsForward | argsNew
  | arrayLiteral | arrayPattern | assign | assignError | assocNew | assocSplat
  | assoclistFromArgs | backReference | backtick | bareAssocHash | beginEnd | binary | blockVar
  | blockarg | bodyStatement | braceBlock | breakArgs | methodCall | caseOf | classDef
  | classNameError | command | commandCall | constant | constPathField | constPathRef | constRef
  | classVariable | methodDef | defined | singletonDef | doBlock | dot2 | dot3 | dynaSymbol
  | elseBranch | elsifBranch | ensureClause | excessedComma | fcall | fieldCall | floatNumber
  | findPattern | forLoop | globalVariable | hashLiteral | heredocBeg | heredocDedent
  | hashPattern | identifier | ifBranch | ifMod | ternary | imaginaryNumber | inClause | integer
  | instanceVariable | keyword | kwrestParam | label | lambdaLiteral | magicComment | massign
  | methodAddArg | methodAddBlock | mlhsAdd | mlhsAddPost | mlhsAddStar | mlhsNew | mlhsParen
  | moduleDef | mrhsAdd | mrhsAddStar | mrhsNew | mrhsNewFromArgs | nextArgs | nokwParam
  | operator | opassign | operatorAmbiguous | paramError | params | paren | parseError | program
  | qsymbolsAdd | qsymbolsBeg | qsymbolsNew | qwordsAdd | qwordsBeg | qwordsNew | rationalNumber
  | redoJump | regexpAdd | regexpBeg | regexpLiteral | regexpNew | rescueClause | rescueMod
  | restParam | retryJump | returnArgs | returnBare | rparen | singletonClass | semicolon
  | stmtsAdd | stmtsNew | stringAdd | stringConcat | stringContent | stringDvar | stringEmbexpr
  | stringLiteral | superArgs | symbeg | symbol | symbolLiteral | symbolsAdd | symbolsBeg
  | symbolsNew | topConstField | topConstRef | tstringBeg | tstringContent | unary | undefine
  | unlessBranch | unlessMod | untilLoop | untilMod | varAlias | varField | varRef | vcall
  | voidStmt | whenClause | whileLoop | whileMod | wordAdd | wordNew | wordsAdd | wordsBeg
  | wordsNew | xstringAdd | xstringLiteral | xstringNew | yieldArgs | yieldBare | superBare
  deriving DecidableEq

namespace Production

/-- The name of a production in a stream (`name`). -/
def name : Production → String
  | .beginHook => "BEGIN"
  | .endHook => "END"
  | .charLiteral => "CHAR"
  | .endMarker => "__end__"
  | .aliasMethod => "alias"
  | .aliasError => "alias_error"
  | .aref => "aref"
  | .arefField => "aref_field"
  | .argAmbiguous => "arg_ambiguous"
  | .argParen => "arg_paren"
  | .argsAdd => "args_add"
  | .argsAddBlock => "args_add_block"
  | .argsAddStar => "args_add_star"
  | .argsForward => "args_forward"
  | .argsNew => "args_new"
  | .arrayLiteral => "array"
  | .arrayPattern => "aryptn"
  | .assign => "assign"
  | .assignError => "assign_error"
  | .assocNew => "assoc_new"
  | .assocSplat => "assoc_splat"
  | .assoclistFromArgs => "assoclist_from_args"
  | .backReference => "backref"
  | .backtick => "backtick"
  | .bareAssocHash => "bare_assoc_hash"
  | .beginEnd => "begin"
  | .binary => "binary"
  | .blockVar => "block_var"
  | .blockarg => "blockarg"
  | .bodyStatement => "bodystmt"
  | .braceBlock => "brace_block"
  | .breakArgs => "break"
  | .methodCall => "call"
  | .caseOf => "case"
  | .classDef => "class"
  | .classNameError => "class_name_error"
  | .command => "command"
  | .commandCall => "command_call"
  | .constant => "const"
  | .constPathField => "const_path_field"
  | .constPathRef => "const_path_ref"
  | .constRef => "const_ref"
  | .classVariable => "cvar"
  | .methodDef => "def"
  | .defined => "defined"
  | .singletonDef => "defs"
  | .doBlock => "do_block"
  | .dot2 => "dot2"
  | .dot3 => "dot3"
  | .dynaSymbol => "dyna_symbol"
  | .elseBranch => "else"
  | .elsifBranch => "elsif"
  | .ensureClause => "ensure"
  | .excessedComma => "excessed_comma"
  | .fcall => "fcall"
  | .fieldCall => "field"
  | .floatNumber => "float"
  | .findPattern => "fndptn"
  | .forLoop => "for"
  | .globalVariable => "gvar"
  | .hashLiteral => "hash"
  | .heredocBeg => "heredoc_beg"
  | .heredocDedent => "heredoc_dedent"
  | .hashPattern => "hshptn"
  | .identifier => "ident"
  | .ifBranch => "if"
  | .ifMod => "if_mod"
  | .ternary => "ifop"
  | .imaginaryNumber => "imaginary"
  | .inClause => "in"
  | .integer => "int"
  | .instanceVariable => "ivar"
  | .keyword => "kw"
  | .kwrestParam => "kwrest_param"
  | .label => "label"
  | .lambdaLiteral => "lambda"
  | .magicComment => "magic_comment"
  | .massign => "massign"
  | .methodAddArg => "method_add_arg"
  | .methodAddBlock => "method_add_block"
  | .mlhsAdd => "mlhs_add"
  | .mlhsAddPost => "mlhs_add_post"
  | .mlhsAddStar => "mlhs_add_star"
  | .mlhsNew => "mlhs_new"
  | .mlhsParen => "mlhs_paren"
  | .moduleDef => "module"
  | .mrhsAdd => "mrhs_add"
  | .mrhsAddStar => "mrhs_add_star"
  | .mrhsNew => "mrhs_new"
  | .mrhsNewFromArgs => "mrhs_new_from_args"
  | .nextArgs => "next"
  | .nokwParam => "nokw_param"
  | .operator => "op"
  | .opassign => "opassign"
  | .operatorAmbiguous => "operator_ambiguous"
  | .paramError => "param_error"
  | .params => "params"
  | .paren => "paren"
  | .parseError => "parse_error"
  | .program => "program"
  | .qsymbolsAdd => "qsymbols_add"
  | .qsymbolsBeg => "qsymbols_beg"
  | .qsymbolsNew => "qsymbols_new"
  | .qwordsAdd => "qwords_add"
  | .qwordsBeg => "qwords_beg"
  | .qwordsNew => "qwords_new"
  | .rationalNumber => "rational"
  | .redoJump => "redo"
  | .regexpAdd => "regexp_add"
  | .regexpBeg => "regexp_beg"
  | .regexpLiteral => "regexp_literal"
  | .regexpNew => "regexp_new"
  | .rescueClause => "rescue"
  | .rescueMod => "rescue_mod"
  | .restParam => "rest_param"
  | .retryJump => "retry"
  | .returnArgs => "return"
  | .returnBare => "return0"
  | .rparen => "rparen"
  | .singletonClass => "sclass"
  | .semicolon => "semicolon"
  | .stmtsAdd => "stmts_add"
  | .stmtsNew => "stmts_new"
  | .stringAdd => "string_add"
  | .stringConcat => "string_concat"
  | .stringContent => "string_content"
  | .stringDvar => "string_dvar"
  | .stringEmbexpr => "string_embexpr"
  | .stringLiteral => "string_literal"
  | .superArgs => "super"
  | .symbeg => "symbeg"
  | .symbol => "symbol"
  | .symbolLiteral => "symbol_literal"
  | .symbolsAdd => "symbols_add"
  | .symbolsBeg => "symbols_beg"
  | .symbolsNew => "symbols_new"
  | .topConstField => "top_const_field"
  | .topConstRef => "top_const_ref"
  | .tstringBeg => "tstring_beg"
  | .tstringContent => "tstring_content"
  | .unary => "unary"
  | .undefine => "undef"
  | .unlessBranch => "unless"
  | .unlessMod => "unless_mod"
  | .untilLoop => "until"
  | .untilMod => "until_mod"
  | .varAlias => "var_alias"
  | .varField => "var_field"
  | .varRef => "var_ref"
  | .vcall => "vcall"
  | .voidStmt => "void_stmt"
  | .whenClause => "when"
  | .whileLoop => "while"
  | .whileMod => "while_mod"
  | .wordAdd => "word_add"
  | .wordNew => "word_new"
  | .wordsAdd => "words_add"
  | .wordsBeg => "words_beg"
  | .wordsNew => "words_new"
  | .xstringAdd => "xstring_add"
  | .xstringLiteral => "xstring_literal"
  | .xstringNew => "xstring_new"
  | .yieldArgs => "yield"
  | .yieldBare => "yield0"
  | .superBare => "zsuper"

/-- Every production, in the order of their names. -/
def all : List Production := [
  .beginHook, .endHook, .charLiteral, .endMarker, .aliasMethod, .aliasError, .aref, .arefField,
  .argAmbiguous, .argParen, .argsAdd, .argsAddBlock, .argsAddStar, .argsForward, .argsNew,
  .arrayLiteral, .arrayPattern, .assign, .assignError, .assocNew, .assocSplat,
  .assoclistFromArgs, .backReference, .backtick, .bareAssocHash, .beginEnd, .binary, .blockVar,
  .blockarg, .bodyStatement, .braceBlock, .breakArgs, .methodCall, .caseOf, .classDef,
  .classNameError, .command, .commandCall, .constant, .constPathField, .constPathRef, .constRef,
  .classVariable, .methodDef, .defined, .singletonDef, .doBlock, .dot2, .dot3, .dynaSymbol,
  .elseBranch, .elsifBranch, .ensureClause, .excessedComma, .fcall, .fieldCall, .floatNumber,
  .findPattern, .forLoop, .globalVariable, .hashLiteral, .heredocBeg, .heredocDedent,
  .hashPattern, .identifier, .ifBranch, .ifMod, .ternary, .imaginaryNumber, .inClause, .integer,
  .instanceVariable, .keyword, .kwrestParam, .label, .lambdaLiteral, .magicComment, .massign,
  .methodAddArg, .methodAddBlock, .mlhsAdd, .mlhsAddPost, .mlhsAddStar, .mlhsNew, .mlhsParen,
  .moduleDef, .mrhsAdd, .mrhsAddStar, .mrhsNew, .mrhsNewFromArgs, .nextArgs, .nokwParam,
  .operator, .opassign, .operatorAmbiguous, .paramError, .params, .paren, .parseError, .program,
  .qsymbolsAdd, .qsymbolsBeg, .qsymbolsNew, .qwordsAdd, .qwordsBeg, .qwordsNew, .rationalNumber,
  .redoJump, .regexpAdd, .regexpBeg, .regexpLiteral, .regexpNew, .rescueClause, .rescueMod,
  .restParam, .retryJump, .returnArgs, .returnBare, .rparen, .singletonClass, .semicolon,
  .stmtsAdd, .stmtsNew, .stringAdd, .stringConcat, .stringContent, .stringDvar, .stringEmbexpr,
  .stringLiteral, .superArgs, .symbeg, .symbol, .symbolLiteral, .symbolsAdd, .symbolsBeg,
  .symbolsNew, .topConstField, .topConstRef, .tstringBeg, .tstringContent, .unary, .undefine,
  .unlessBranch, .unlessMod, .untilLoop, .untilMod, .varAlias, .varField, .varRef, .vcall,
  .voidStmt, .whenClause, .whileLoop, .whileMod, .wordAdd, .wordNew, .wordsAdd, .wordsBeg,
  .wordsNew, .xstringAdd, .xstringLiteral, .xstringNew, .yieldArgs, .yieldBare, .superBare]

/-- The production of a given name (`from_name`). -/
def ofName? (name : String) : Option Production := all.find? (·.name == name)

theorem mem_all (production : Production) : production ∈ all := by cases production <;> decide

end Production

end RubyTree
