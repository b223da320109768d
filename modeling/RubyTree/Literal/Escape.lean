import RubyTree.Context

/-!
# Escapes in literal text

A backslash with what it governs: one character other than `u`, `x` and the digits below eight; `x`
and one or two hexadecimal digits; one to three octal digits; `u` and four hexadecimal digits; or
`u` and a brace group of hexadecimal digits and blanks. Everything else in a literal is content.
-/

namespace RubyTree.Literal

/-- A hexadecimal digit. -/
def isHex (c : Char) : Bool :=
  ('0' ≤ c && c ≤ '9') || ('a' ≤ c && c ≤ 'f') || ('A' ≤ c && c ≤ 'F')

/-- An octal digit. -/
def isOctal (c : Char) : Bool := '0' ≤ c && c ≤ '7'

/-- The number of characters at the front that satisfy `p`, counted up to `most`. -/
def runLength (p : Char → Bool) (most : Nat) (cs : List Char) : Nat :=
  ((cs.take most).takeWhile p).length

/-- The length of the brace group at the front: an opening brace, hexadecimal digits and blanks,
    at least one, and a closing brace. Zero if there is none. -/
def braceGroupLength : List Char → Nat
  | '\x7b' :: cs =>
    let inside := cs.takeWhile fun c => isHex c || c == ' '
    if inside ≠ [] ∧ cs[inside.length]? = some '\x7d' then inside.length + 2 else 0
  | _ => 0

/-- The length of the escape at the front of a text, and zero if no escape begins there. -/
def escapeLength : List Char → Nat
  | '\\' :: c :: cs =>
    if c = 'x' then
      match runLength isHex 2 cs with
      | 0 => 0
      | n + 1 => n + 3
    else if c = 'u' then
      if runLength isHex 4 cs = 4 then 6
      else match braceGroupLength cs with
        | 0 => 0
        | n + 1 => n + 3
    else if isOctal c then 1 + runLength isOctal 3 (c :: cs)
    else 2
  | _ => 0

/-- A stretch of literal text. -/
inductive Piece where
  | content (text : List Char)
  | escape (text : List Char)
  deriving DecidableEq

/-- The characters of a piece. -/
def Piece.text : Piece → List Char
  | content text | escape text => text

/-- Puts a character of content before pieces. -/
def consContent (c : Char) : List Piece → List Piece
  | .content text :: pieces => .content (c :: text) :: pieces
  | pieces => .content [c] :: pieces

/-- Cuts a text at its escapes, from the left. -/
def pieces : List Char → List Piece
  | [] => []
  | c :: cs =>
    match escapeLength (c :: cs) with
    | 0 => consContent c (pieces cs)
    | n + 1 => .escape (c :: cs.take n) :: pieces (cs.drop n)
termination_by cs => cs.length
decreasing_by
  all_goals simp only [List.length_cons, List.length_drop]
  all_goals omega

/-- The leaf that stands for a piece in the tree. -/
def Piece.leaf : Piece → Node
  | content text => .leaf .stringContent (String.ofList text)
  | escape text => .leaf .escapeSequence (String.ofList text)

/-- The leaves of a text in which escapes are interpreted (`split_escapes`). -/
def splitEscapes (text : String) : List Node := (pieces text.toList).map Piece.leaf

/-- The leaves of a text in the innermost open literal (`split_content`). -/
def splitContent (context : Context) (text : String) : List Node :=
  if context.inRaw then [.leaf .stringContent text] else splitEscapes text

/-- What a part adds to a literal under construction: a text its leaves, anything else itself
    (`content_parts`). -/
def contentParts (context : Context) : Value → List Value
  | .text text => (splitContent context text).map .node
  | other => [other]

end RubyTree.Literal
