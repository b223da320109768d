import RubyTree.Text.Unprintable

/-!
# Quoted text in messages

A text shown in a message stands between double quotes on one line. Quotes and backslashes are
preceded by a backslash, the four common controls have letters, and any other character that
cannot be shown is written as its code point in lower-case hexadecimal.
-/

namespace RubyTree.Text

/-- The hexadecimal digits of a number in lower case, with no leading zero. -/
def hexDigits (n : Nat) : List Char := (Nat.toDigits 16 n)

/-- One character of a quoted text. -/
def quoteChar (c : Char) : List Char :=
  if c = '"' then ['\\', '"']
  else if c = '\\' then ['\\', '\\']
  else if c = '\n' then ['\\', 'n']
  else if c = '\r' then ['\\', 'r']
  else if c = '\t' then ['\\', 't']
  else if c = '\x00' then ['\\', '0']
  else if unprintable.contains c then ['\\', 'u', '\x7b'] ++ hexDigits c.toNat ++ ['\x7d']
  else [c]

/-- A text between double quotes. -/
def quote (s : String) : String :=
  String.ofList ('"' :: s.toList.flatMap quoteChar ++ ['"'])

end RubyTree.Text
