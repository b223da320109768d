/-!
# Characters and their places

A YAML document is read as a list of characters that know where they stand. Every ending of a line
is a line feed by then, but for the two separators of Unicode, which end a line and stay what they
are.
-/

namespace RubyTree.Yaml

/-- A character and its place: the bytes and the lines before it in the text, and the characters
    before it in its line. -/
structure Glyph where
  char : Char
  offset : Nat
  line : Nat
  column : Nat
  deriving DecidableEq

/-! ## Classes of characters -/

/-- The characters a document may hold. -/
def isAllowed (c : Char) : Bool :=
  let n := c.toNat
  n == 9 || n == 0xA || n == 0xD || (0x20 ≤ n && n ≤ 0x7E) || n == 0x85
    || (0xA0 ≤ n && n ≤ 0xFFFD) || 0x10000 ≤ n

/-- The characters that are written for a line feed: carriage return, line feed, next line. -/
def standsForLineFeed (c : Char) : Bool := c == '\r' || c == '\n' || c.toNat == 0x85

/-- The ends of lines: line feed, line separator, paragraph separator. -/
def isBreak (c : Char) : Bool := c == '\n' || c.toNat == 0x2028 || c.toNat == 0x2029

/-- The blanks inside a line: space and tab. -/
def isBlank (c : Char) : Bool := c == ' ' || c == '\t'

/-- The characters of names. -/
def isNameChar (c : Char) : Bool := c.isAlphanum || c == '_' || c == '-'

/-- The marks that end a word inside a flow collection. -/
def isFlowMark (c : Char) : Bool :=
  c == ',' || c == '[' || c == ']' || c == '\x7b' || c == '\x7d'

/-! ## Placing characters -/

/-- The characters of a text with their places, from some place on. -/
def placeFrom (offset line column : Nat) : List Char → List Glyph
  | [] => []
  | '\r' :: '\n' :: cs => ⟨'\n', offset, line, column⟩ :: placeFrom (offset + 2) (line + 1) 0 cs
  | c :: cs =>
    let char := if standsForLineFeed c then '\n' else c
    let next := offset + c.utf8Size
    ⟨char, offset, line, column⟩ ::
      (if isBreak char then placeFrom next (line + 1) 0 cs else placeFrom next line (column + 1) cs)

/-- The characters of a document, if it holds only such as it may. -/
def glyphs? (text : String) : Option (List Glyph) :=
  let chars := text.toList
  if chars.all isAllowed then some (placeFrom 0 0 0 chars) else none

/-! ## Looking at a text -/

/-- Nothing follows, or a blank, or the end of the line. -/
def endsWord : List Glyph → Bool
  | [] => true
  | g :: _ => isBlank g.char || isBreak g.char

/-- The longest piece of a text that consists of such characters, and what follows it. -/
def takeChars (holds : Char → Bool) (gs : List Glyph) : List Char × List Glyph :=
  ((gs.takeWhile fun g => holds g.char).map Glyph.char, gs.dropWhile fun g => holds g.char)

/-- The text without the blanks it begins with. -/
def skipBlanks (gs : List Glyph) : List Glyph := gs.dropWhile fun g => isBlank g.char

/-- The character that is written three times at the beginning of a line to begin a document (`-`)
    or to end it (`.`). -/
def documentMark? : List Glyph → Option Char
  | a :: b :: c :: gs =>
    if a.column = 0 ∧ a.char = b.char ∧ b.char = c.char ∧ (a.char = '-' ∨ a.char = '.')
        ∧ endsWord gs then some a.char
    else none
  | _ => none

/-- The next line, if nothing but blanks and perhaps a comment is left on this one. The comment
    needs no blank in front of it. -/
def restOfLine? (gs : List Glyph) : Option (List Glyph) :=
  match skipBlanks gs with
  | [] => some []
  | g :: gs =>
    if isBreak g.char then some gs
    else if g.char = '#' then some ((gs.dropWhile fun g => !isBreak g.char).drop 1)
    else none

end RubyTree.Yaml
