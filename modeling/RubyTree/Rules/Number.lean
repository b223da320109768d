import RubyTree.Rules.Operator

/-!
# Numbers

A number is a leaf that holds its digits. The suffixes `r` and `i` wrap the leaf, the suffix being
cut off, and a sign `+` goes outside of all of it as a unary operator.
-/

namespace RubyTree.Rules

/-- A number of the given kind; a leading `+` becomes an operator (`signed`). -/
def signed (kind : Kind) : List Char → Node
  | '+' :: digits => applied "+" (some (.leaf kind (String.ofList digits)))
  | text => .leaf kind (String.ofList text)

/-- A number with a point in it is a float (`number`). -/
def number (text : List Char) : Node :=
  if text.contains '.' then signed .floatNumber text else signed .integerNumber text

/-- Wraps a number, with its sign kept outermost (`wrap_number`). -/
def wrapNumber (kind : Kind) (number : Node) : Node :=
  if number.kind = .unary then
    applied (number.token?.getD "") (some ((Node.ofKind kind).attach? number.firstNode?))
  else (Node.ofKind kind).attach number

/-- A rational, from its text with the suffix (`rational_node`). -/
def rationalNumber (text : List Char) : Node := wrapNumber .rational (number text.dropLast)

/-- Event `imaginary`: an imaginary number, from its text with the suffix. It may be rational
    besides. -/
def imaginaryNumber (text : List Char) : Node :=
  let body := text.dropLast
  wrapNumber .complex (if body.getLast? = some 'r' then rationalNumber body else number body)

/-- The rule of a number token, given how its text is read. -/
def numberToken (read : List Char → Node) (token : Value) : Value :=
  .node (read token.spelling.toList)

end RubyTree.Rules
