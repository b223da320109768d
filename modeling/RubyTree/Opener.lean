/-!
# Openers of literals

The text that opens a literal decides how the literal is read: whether it is a heredoc, a quoted
symbol, and whether backslashes in it stand for themselves.
-/

namespace RubyTree.Opener

/-- The opener begins with `start`. -/
def begins (start opener : String) : Bool := start.toList.isPrefixOf opener.toList

/-- A heredoc is opened by `<<` (`in_heredoc`). -/
def isHeredoc (opener : String) : Bool := begins "<" opener

/-- The opener of a symbol between quotes (`in_delimited_symbol`). -/
def isQuotedSymbol (opener : String) : Bool :=
  opener == ":\"" || opener == ":'" || begins "%s" opener

/-- The literal does not interpret escapes: its opener has a single quote in it, or belongs to the
    families `%q`, `%w` and `%i`. Regular expressions, `%Q` and `%'` interpret them always
    (`raw_literal`). -/
def isRaw (opener : String) : Bool :=
  !(begins "%r" opener || begins "%Q" opener || begins "%'" opener)
    && (opener.toList.contains '\x27' || begins "%q" opener || begins "%w" opener
      || begins "%i" opener)

end RubyTree.Opener
