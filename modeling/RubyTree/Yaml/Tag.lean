import RubyTree.Json.Text
import RubyTree.Yaml.Glyph

/-!
# Tags

A tag names the type of a node. It is written in full between angle brackets, or as a handle and an
ending; a document may say which beginning each handle stands for. Tags are compared byte by byte,
since a percent sign and two hexadecimal digits may stand for any byte.
-/

namespace RubyTree.Yaml

/-- The bytes of an ASCII text. -/
def asciiBytes (cs : List Char) : List UInt8 := cs.map fun c => c.toNat.toUInt8

/-- A tag as it is written. -/
inductive Tag where
  | whole (bytes : List UInt8)
  | short (handle : String) (ending : List UInt8)
  deriving DecidableEq

/-- What the handles of a document stand for. -/
abbrev Handles := List (String × List UInt8)

/-- The handles that every document has. -/
def defaultHandles : Handles :=
  [("!", asciiBytes ['!']), ("!!", asciiBytes "tag:yaml.org,2002:".toList)]

/-- The bytes of a tag, unless its handle is unknown. -/
def Tag.resolve? (handles : Handles) : Tag → Option (List UInt8)
  | whole bytes => some bytes
  | short handle ending => (handles.lookup handle).map (· ++ ending)

/-- The tag of truth values. -/
def boolTag : List UInt8 := asciiBytes "tag:yaml.org,2002:bool".toList

/-! ## Addresses -/

/-- The characters of tags. -/
def isTagChar (c : Char) : Bool := isNameChar c || ";/?:@&=+$.%!~*'()".toList.contains c

/-- The characters of tags that are not followed directly by a mark of a flow collection. -/
def isAddressChar (c : Char) : Bool := isTagChar c || c == ',' || c == '[' || c == ']'

/-- How many bytes follow the first one of a character in UTF-8. -/
def followers? (byte : Nat) : Option Nat :=
  if byte < 0x80 then some 0
  else if byte / 0x20 = 6 then some 1
  else if byte / 0x10 = 14 then some 2
  else if byte / 8 = 30 then some 3
  else none

/-- The byte two hexadecimal digits stand for. -/
def hexByte? (a b : Glyph) : Option Nat := do
  return (← Json.hexValue? a.char) * 16 + (← Json.hexValue? b.char)

/-- Reads on the longest run of characters that are in a class, of which the percent sign begins an
    escape; `owed` bytes are missing of a character that has been escaped. -/
def addressFrom? (holds : Char → Bool) (owed : Nat) (read : List UInt8) :
    List Glyph → Option (List UInt8 × List Glyph)
  | [] => if owed = 0 then some (read.reverse, []) else none
  | g :: gs =>
    if g.char = '%' then
      match gs with
      | a :: b :: gs =>
        match hexByte? a b with
        | none => none
        | some byte =>
          if owed = 0 then
            match followers? byte with
            | none => none
            | some owed => addressFrom? holds owed (byte.toUInt8 :: read) gs
          else if byte / 0x40 = 2 then addressFrom? holds (owed - 1) (byte.toUInt8 :: read) gs
          else none
      | _ => none
    else if owed ≠ 0 then none
    else if holds g.char then addressFrom? holds 0 (g.char.toNat.toUInt8 :: read) gs
    else some (read.reverse, g :: gs)

/-- A run of characters that are in a class with the escapes in it replaced, and what follows.
    Nothing counts from an escaped NUL on. -/
def address? (holds : Char → Bool) (gs : List Glyph) : Option (List UInt8 × List Glyph) :=
  (addressFrom? holds 0 [] gs).map fun (bytes, rest) => (bytes.takeWhile (· ≠ 0), rest)

/-- A run as above that is not empty. -/
def someAddress? (holds : Char → Bool) (gs : List Glyph) : Option (List UInt8 × List Glyph) :=
  if gs.head?.any fun g => holds g.char then address? holds gs else none

/-! ## Tags and handles in a text -/

/-- A tag after its exclamation mark, and what follows it. -/
def tag? (gs : List Glyph) : Option (Tag × List Glyph) :=
  match gs with
  | [] => some (.whole (asciiBytes ['!']), [])
  | g :: gs =>
    if g.char = '<' then
      match someAddress? isAddressChar gs with
      | some (bytes, close :: rest) =>
        if close.char = '>' then some (.whole bytes, rest) else none
      | _ => none
    else
      let (name, rest) := takeChars isNameChar (g :: gs)
      if rest.head?.any fun next => next.char == '!' then
        (someAddress? isTagChar (rest.drop 1)).map fun (bytes, rest) =>
          (.short (String.ofList ('!' :: name ++ ['!'])) bytes, rest)
      else
        (address? isTagChar rest).map fun (bytes, rest) =>
          let ending := asciiBytes name ++ bytes
          (if ending.isEmpty then .whole (asciiBytes ['!']) else .short "!" ending, rest)

/-- A handle after its exclamation mark, and what follows it: it is that mark alone, or ends with
    another one. -/
def handle? (gs : List Glyph) : Option (String × List Glyph) :=
  let (name, rest) := takeChars isNameChar gs
  if rest.head?.any fun next => next.char == '!' then
    some (String.ofList ('!' :: name ++ ['!']), rest.drop 1)
  else if name.isEmpty then some ("!", rest)
  else none

/-! ## Directives -/

/-- What is said about a document before it begins. -/
inductive Directive where
  | version (major minor : Nat)
  | handle (handle : String) (beginning : List UInt8)

/-- A number of at most nine digits, and what follows it. -/
def number? (gs : List Glyph) : Option (Nat × List Glyph) :=
  let (digits, rest) := takeChars Char.isDigit gs
  if digits.isEmpty || 9 < digits.length then none
  else some (digits.foldl (fun n c => n * 10 + (c.toNat - '0'.toNat)) 0, rest)

/-- What follows a certain character. -/
def after? (c : Char) : List Glyph → Option (List Glyph)
  | [] => none
  | g :: gs => if g.char = c then some gs else none

/-- A directive after its percent sign, and the next line. -/
def directive? (gs : List Glyph) : Option (Directive × List Glyph) := do
  let (name, gs) := takeChars isNameChar gs
  let rest := skipBlanks gs
  if name = "YAML".toList ∧ endsWord gs then
    let (major, rest) ← number? rest
    let (minor, rest) ← number? (← after? '.' rest)
    return (.version major minor, ← restOfLine? rest)
  else if name = "TAG".toList ∧ endsWord gs then
    let (handle, rest) ← handle? (← after? '!' rest)
    if rest.head?.any fun g => isBlank g.char then
      let (bytes, rest) ← someAddress? isAddressChar (skipBlanks rest)
      if endsWord rest then return (.handle handle bytes, ← restOfLine? rest) else failure
    else failure
  else failure

end RubyTree.Yaml
