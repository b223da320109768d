import RubyTree.Value.Reading
import RubyTree.Opener
import RubyTree.Position

/-!
# Context

What is remembered from one event to the next. Events come bottom-up, so a rule that depends on a
token scanned earlier finds it here: the literals that are open, the last operator, the last
closing parenthesis, the last semicolon.
-/

namespace RubyTree

/-- The last closing parenthesis. -/
structure ClosedParen where
  position : Position
  /-- Some `not` or `defined?` has taken this parenthesis for its operand. -/
  claimed : Bool
  deriving DecidableEq

/-- How a match on one line was written. -/
inductive OneLineMatch where
  /-- `value => pattern` -/
  | arrow
  /-- `value in pattern` -/
  | keyword
  deriving DecidableEq

/-- The kind of the node around a match on one line (`oneline_pattern`). -/
def OneLineMatch.kind : OneLineMatch → Kind
  | arrow => .matchPattern
  | keyword => .testPattern

/-- How the body of a lambda was written. -/
inductive LambdaBody where
  | braces
  | doEnd
  deriving DecidableEq

/-- The kind of the body of a lambda, the first part of `lambda_body`. -/
def LambdaBody.outer : LambdaBody → Kind
  | braces => .block
  | doEnd => .doBlock

/-- The kind of the statements inside the body of a lambda, its second part. -/
def LambdaBody.inner : LambdaBody → Kind
  | braces => .blockBody
  | doEnd => .bodyStatement

/-- The memory of a run. -/
structure Context where
  /-- Where the event at hand fired. -/
  position : Position := ⟨0, 0⟩
  /-- The token scanned when the event at hand fired. -/
  token : Option String := none
  /-- The openers of the literals that are open, the innermost first. -/
  openers : List String := []
  /-- The last operator was `**`, and no hash pattern has asked since. -/
  doubleStar : Bool := false
  oneLine : OneLineMatch := .keyword
  lambdaBody : LambdaBody := .braces
  lastParen : Option ClosedParen := none
  lastSemicolon : Option Position := none
  /-- `__END__` was scanned. -/
  ended : Bool := false
  diagnostics : List Diagnostic := []

namespace Context

/-- The memory before the first event (`Context::new`). -/
def initial : Context := {}

/-- Moves on to the next event (`enter_event`). -/
def enter (position : Position) (token : Option String) (context : Context) : Context :=
  { context with position := position, token := token }

/-! ## Open literals -/

/-- Opens a literal inside those that are open (`push_delimiter`). -/
def openLiteral (opener : String) (context : Context) : Context :=
  { context with openers := opener :: context.openers }

/-- Closes the innermost literal (`pop_delimiter`). -/
def closeLiteral (context : Context) : Outcome (String × Context) :=
  match context.openers with
  | [] => .error .noOpenLiteral
  | opener :: openers => .ok (opener, { context with openers := openers })

/-- The opener of the innermost literal (`top_delimiter`). -/
def opener? (context : Context) : Option String := context.openers.head?

/-- The innermost literal is a heredoc (`in_heredoc`). -/
def inHeredoc (context : Context) : Bool := context.opener?.any Opener.isHeredoc

/-- The innermost literal does not interpret escapes (`raw_literal`). -/
def inRaw (context : Context) : Bool := context.opener?.any Opener.isRaw

/-- The innermost literal is a quoted symbol (`in_delimited_symbol`). -/
def inQuotedSymbol (context : Context) : Bool := context.opener?.any Opener.isQuotedSymbol

/-! ## Operators, keywords and bodies -/

/-- Remembers an operator: whether it was `**`, and that `=>` makes a match on one line
    (`saw_operator`). -/
def sawOperator (operator : String) (context : Context) : Context :=
  { context with
    doubleStar := operator == "**"
    oneLine := if operator == "=>" then .arrow else context.oneLine }

/-- Remembers a keyword: `in` makes a test on one line (`saw_keyword`). -/
def sawKeyword (keyword : String) (context : Context) : Context :=
  { context with oneLine := if keyword == "in" then .keyword else context.oneLine }

/-- Forgets that the last operator was `**`, as `take_kwrest` does when it tells so. -/
def forgetDoubleStar (context : Context) : Context := { context with doubleStar := false }

/-- Remembers the shape of the statements completed last (`saw_body_statement`, `saw_statement`). -/
def sawBody (body : LambdaBody) (context : Context) : Context := { context with lambdaBody := body }

/-! ## Punctuation -/

/-- A parenthesis closes at the current position (`saw_rparen`). -/
def sawParen (context : Context) : Context :=
  { context with lastParen := some ⟨context.position, false⟩ }

/-- The last parenthesis closed one column before the current position (`rparen_just_closed`). -/
def parenJustClosed (context : Context) : Bool :=
  match context.lastParen, context.position.left? with
  | some paren, some left => paren.position == left
  | _, _ => false

/-- Takes the last parenthesis for an operand (`claim_rparen`). -/
def claimParen (context : Context) : Context :=
  { context with lastParen := context.lastParen.map fun paren => { paren with claimed := true } }

/-- The last parenthesis has been taken for an operand (`rparen_claimed`). -/
def parenClaimed (context : Context) : Bool := context.lastParen.any (·.claimed)

/-- A semicolon stands at the current position (`saw_semicolon`). -/
def sawSemicolon (context : Context) : Context :=
  { context with lastSemicolon := some context.position }

/-- A semicolon stands one column before the current position (`semicolon_just_seen`). -/
def semicolonJustSeen (context : Context) : Bool :=
  match context.lastSemicolon with
  | none => false
  | some position => context.position.left? == some position

/-- Remembers that `__END__` was scanned (`saw_end_marker`). -/
def sawEnd (context : Context) : Context := { context with ended := true }

/-! ## Diagnostics -/

/-- Notes a message about the current line (`report`). -/
def report (message : String) (context : Context) : Context :=
  { context with diagnostics := context.diagnostics ++ [⟨context.position.line, message⟩] }

/-- Takes the messages out (`take_diagnostics`). -/
def forgetDiagnostics (context : Context) : Context := { context with diagnostics := [] }

end Context

end RubyTree
