/-!
# Lexemes of JSON

A text is cut into marks, strings and bare words. Blanks separate bare words and are dropped.
Numbers and the three names are bare words; which words are allowed is decided later.
-/

namespace RubyTree.Json

/-- A piece of a JSON text. -/
inductive Lexeme where
  /-- One of the characters `[ ] { } , :` -/
  | mark (c : Char)
  | bare (word : List Char)
  /-- What stands between two quotes, with its escapes. -/
  | quoted (inside : List Char)
  deriving DecidableEq

/-- The marks of JSON: brackets, braces, commas and colons. -/
def isMark (c : Char) : Bool :=
  c == '[' || c == ']' || c == '\x7b' || c == '\x7d' || c == ',' || c == ':'

/-- The blanks of JSON: space, tab, line feed and carriage return. -/
def isSpace (c : Char) : Bool := c == ' ' || c == '\t' || c == '\n' || c == '\r'

/-- Where a scan stands: between lexemes, in a bare word, or in a string, perhaps right after a
    backslash. What has been read of a lexeme is kept in reverse. -/
inductive Scan where
  | between
  | bare (read : List Char)
  | quoted (read : List Char) (escaped : Bool)

/-- The lexemes of a text from some point on. A string that is not closed has none. -/
def lexemesFrom? : Scan → List Char → Option (List Lexeme)
  | .between, [] => some []
  | .bare read, [] => some [.bare read.reverse]
  | .quoted _ _, [] => none
  | .between, c :: cs =>
    if isSpace c then lexemesFrom? .between cs
    else if c = '"' then lexemesFrom? (.quoted [] false) cs
    else if isMark c then (lexemesFrom? .between cs).map (.mark c :: ·)
    else lexemesFrom? (.bare [c]) cs
  | .bare read, c :: cs =>
    if isSpace c then (lexemesFrom? .between cs).map (.bare read.reverse :: ·)
    else if c = '"' then (lexemesFrom? (.quoted [] false) cs).map (.bare read.reverse :: ·)
    else if isMark c then
      (lexemesFrom? .between cs).map fun rest => .bare read.reverse :: .mark c :: rest
    else lexemesFrom? (.bare (c :: read)) cs
  | .quoted read true, c :: cs => lexemesFrom? (.quoted (c :: read) false) cs
  | .quoted read false, c :: cs =>
    if c = '"' then (lexemesFrom? .between cs).map (.quoted read.reverse :: ·)
    else lexemesFrom? (.quoted (c :: read) (c == '\\')) cs

/-- The lexemes of a text. -/
def lexemes? (text : List Char) : Option (List Lexeme) := lexemesFrom? .between text

end RubyTree.Json
