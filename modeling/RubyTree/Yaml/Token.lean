import RubyTree.Yaml.Scalar
import RubyTree.Yaml.Tag

/-!
# Tokens

A document is cut into tokens. The beginning and the end of a block collection have no characters of
their own: they are told by the columns at which its items and keys begin. Nor has a key that is not
marked as one: when a colon follows, the key token is put in front of what was read before.
-/

namespace RubyTree.Yaml

/-- A piece of a document. -/
inductive Token where
  | directive (directive : Directive)
  | documentStart
  | documentEnd
  | blockSequence
  | blockMapping
  | blockEnd
  | flowSequence
  | flowSequenceEnd
  | flowMapping
  | flowMappingEnd
  /-- The dash before an item. -/
  | item
  | comma
  | key
  | value
  /-- A name given to the node that follows, as a number. -/
  | anchor (number : Nat)
  /-- Another occurrence of the node with a name. -/
  | reference (number : Nat)
  | tag (tag : Tag)
  | scalar (text : List Char) (style : Style)

/-- The place of a token that is a key if a colon follows it. -/
structure PossibleKey where
  /-- Nothing but a key may stand there. -/
  required : Bool
  /-- The number of tokens before it. -/
  number : Nat
  glyph : Glyph

/-- The place of a possible key is too far from a character: on another line, or more than 1024 bytes
    away. -/
def PossibleKey.isStale (g : Glyph) (key : PossibleKey) : Bool :=
  key.glyph.line < g.line || key.glyph.offset + 1024 < g.offset

/-- What is known of the part of a document that has been read. -/
structure Layout where
  /-- The tokens read, the last one first. -/
  tokens : List Token := []
  /-- How many they are. -/
  count : Nat := 0
  /-- The columns of the blocks that are open, the innermost first. -/
  indents : List Nat := []
  /-- A key that is not marked may begin here. -/
  keyAllowed : Bool := true
  /-- The last place where a key may have begun, in the innermost collection. -/
  key : Option PossibleKey := none
  /-- The same for each of the collections around the flow collection that is open. -/
  outerKeys : List (Option PossibleKey) := []
  /-- The names of nodes with their numbers. -/
  names : List (String × Nat) := []

namespace Layout

/-- Some flow collection is open. -/
def inFlow (layout : Layout) : Bool := !layout.outerKeys.isEmpty

/-- Puts a token after the first `number` ones. -/
def insert (layout : Layout) (number : Nat) (token : Token) : Layout :=
  { layout with
    tokens := layout.tokens.insertIdx (layout.count - number) token
    count := layout.count + 1 }

/-- Puts a token after all others. -/
def push (layout : Layout) (token : Token) : Layout := layout.insert layout.count token

/-- The text that comes next, after blanks, comments and ends of lines; and whether a key may begin
    there. A tab separates tokens only where no key may begin, and a byte order mark may begin a
    line. -/
def skip (inFlow keyAllowed inComment : Bool) : List Glyph → Bool × List Glyph
  | [] => (keyAllowed, [])
  | g :: gs =>
    if isBreak g.char then skip inFlow (keyAllowed || !inFlow) false gs
    else if inComment || g.char = '#' then skip inFlow keyAllowed true gs
    else if g.char = ' ' || (g.char = '\t' && (inFlow || !keyAllowed))
        || (g.column = 0 && g.char.toNat = 0xFEFF) then skip inFlow keyAllowed false gs
    else (keyAllowed, g :: gs)

/-! ## Blocks -/

/-- Begins a block at a column, if that is beyond the innermost block. The token that begins it is
    put after the first `number` tokens. -/
def opened (layout : Layout) (column number : Nat) (token : Token) : Layout :=
  if layout.inFlow || !(layout.indents.head?.all (· < column)) then layout
  else { layout.insert number token with indents := column :: layout.indents }

/-- Begins a block with what comes next. -/
def openedHere (layout : Layout) (column : Nat) (token : Token) : Layout :=
  layout.opened column layout.count token

/-- Ends the blocks at columns that are as given. -/
def closed (layout : Layout) (ends : Nat → Bool) : Layout :=
  if layout.inFlow then layout
  else
    let gone := layout.indents.takeWhile ends
    let layout := gone.foldl (fun layout _ => layout.push .blockEnd) layout
    { layout with indents := layout.indents.dropWhile ends }

/-- Ends all blocks. -/
def closedAll (layout : Layout) : Layout := layout.closed fun _ => true

/-! ## Keys -/

/-- Gives up the last possible key, unless a key has to stand there. -/
def withoutKey? (layout : Layout) : Option Layout :=
  if layout.key.any (·.required) then none else some { layout with key := none }

/-- Notes that a key may begin at a character. A key has to stand at the column of a block. -/
def withKey? (layout : Layout) (g : Glyph) : Option Layout :=
  if layout.keyAllowed then
    let required := !layout.inFlow && layout.indents.head? == some g.column
    layout.withoutKey?.map fun layout =>
      { layout with key := some ⟨required, layout.count, g⟩ }
  else some layout

/-- Gives up the possible keys that are too far from a character. -/
def withoutStaleKeys? (layout : Layout) (g : Glyph) : Option Layout :=
  let fresh := Option.filter fun key : PossibleKey => !key.isStale g
  let lost := (layout.key :: layout.outerKeys).any fun key =>
    key.any fun key => key.required && key.isStale g
  if lost then none
  else some { layout with key := fresh layout.key, outerKeys := layout.outerKeys.map fresh }

/-! ## Marks -/

/-- An opening bracket. -/
def openFlow? (layout : Layout) (g : Glyph) (token : Token) : Option Layout := do
  let layout ← layout.withKey? g
  return { layout.push token with
    outerKeys := layout.key :: layout.outerKeys, key := none, keyAllowed := true }

/-- A closing bracket. -/
def closeFlow? (layout : Layout) (token : Token) : Option Layout := do
  let layout ← layout.withoutKey?
  let layout := match layout.outerKeys with
    | [] => layout
    | key :: outerKeys => { layout with key, outerKeys }
  return { layout.push token with keyAllowed := false }

/-- The comma between the parts of a flow collection. -/
def comma? (layout : Layout) : Option Layout := do
  return { (← layout.withoutKey?).push .comma with keyAllowed := true }

/-- The mark of an item or of a key, which begins a block if need be. -/
def blockMark? (layout : Layout) (g : Glyph) (block token : Token) (keyAllowed : Bool) :
    Option Layout := do
  if !layout.inFlow && !layout.keyAllowed then failure
  let layout ← (layout.openedHere g.column block).withoutKey?
  return { layout.push token with keyAllowed }

/-- The colon before a value. What was noted as a possible key is one then. -/
def value? (layout : Layout) (g : Glyph) : Option Layout :=
  match layout.key with
  | some key =>
    let layout := (layout.insert key.number .key).opened key.glyph.column key.number .blockMapping
    some { layout.push .value with key := none, keyAllowed := false }
  | none =>
    if !layout.inFlow && !layout.keyAllowed then none
    else
      let layout := (layout.openedHere g.column .blockMapping).push .value
      some { layout with keyAllowed := !layout.inFlow }

/-- A mark or a directive that concerns the document as a whole. -/
def documentMark? (layout : Layout) (token : Token) : Option Layout := do
  return { (← layout.closedAll.withoutKey?).push token with keyAllowed := false }

/-- A token that may begin a key, and whether a key may begin after it. -/
def node? (layout : Layout) (g : Glyph) (token : Token) (keyAllowed : Bool) : Option Layout := do
  return { (← layout.withKey? g).push token with keyAllowed }

/-- Gives a name to the node that follows. Its number is how many names are known. -/
def named (layout : Layout) (name : String) : Nat × Layout :=
  let number := layout.names.length
  let others := layout.names.filter (·.1 ≠ name)
  (number, { layout with names := (name, number) :: others })

/-! ## Reading -/

/-- The name of a node, and what follows it. -/
def name? (gs : List Glyph) : Option (String × List Glyph) :=
  let (name, rest) := takeChars isNameChar gs
  let ends := endsWord rest || rest.head?.any fun g => "?:,]\x7d%@`".toList.contains g.char
  if !name.isEmpty && ends then some (String.ofList name, rest) else none

/-- Reads the token that begins with a character. -/
def next? (layout : Layout) (g : Glyph) (gs : List Glyph) : Option (Layout × List Glyph) := do
  let plainMark := endsWord gs
  if g.column = 0 ∧ g.char = '%' then
    let (directive, rest) ← directive? gs
    return (← layout.documentMark? (.directive directive), rest)
  if let some mark := Yaml.documentMark? (g :: gs) then
    let token := if mark = '-' then Token.documentStart else .documentEnd
    return (← layout.documentMark? token, gs.drop 2)
  if g.char = '[' then return (← layout.openFlow? g .flowSequence, gs)
  if g.char = '\x7b' then return (← layout.openFlow? g .flowMapping, gs)
  if g.char = ']' then return (← layout.closeFlow? .flowSequenceEnd, gs)
  if g.char = '\x7d' then return (← layout.closeFlow? .flowMappingEnd, gs)
  if g.char = ',' then return (← layout.comma?, gs)
  if g.char = '-' ∧ plainMark then
    return (← layout.blockMark? g .blockSequence .item true, gs)
  if g.char = '?' ∧ (layout.inFlow ∨ plainMark) then
    return (← layout.blockMark? g .blockMapping .key (!layout.inFlow), gs)
  if g.char = ':' ∧ (layout.inFlow ∨ plainMark) then return (← layout.value? g, gs)
  if g.char = '*' then
    let (name, rest) ← name? gs
    return (← layout.node? g (.reference (← layout.names.lookup name)) false, rest)
  if g.char = '&' then
    let (name, rest) ← name? gs
    let (number, layout) := layout.named name
    return (← layout.node? g (.anchor number) false, rest)
  if g.char = '!' then
    let (tag, rest) ← tag? gs
    if !endsWord rest && !(layout.inFlow && rest.head?.any (·.char == ',')) then failure
    return (← layout.node? g (.tag tag) false, rest)
  if (g.char = '|' ∨ g.char = '>') ∧ !layout.inFlow then
    let folded := g.char = '>'
    let (text, rest) ← block? folded layout.indents.head? gs
    let token := Token.scalar text (if folded then .folded else .literal)
    return ({ (← layout.withoutKey?).push token with keyAllowed := true }, rest)
  if g.char = '\x27' then
    let (text, rest) ← singleQuoted? [] .none gs
    return (← layout.node? g (.scalar text .quoted) false, rest)
  if g.char = '"' then
    let (text, rest) ← doubleQuoted? [] .none gs
    return (← layout.node? g (.scalar text .quoted) false, rest)
  if !beginsPlain layout.inFlow (g :: gs) then failure
  let least := layout.indents.head?.elim 0 (· + 1)
  let plain ← plain? layout.inFlow least [] .none (g :: gs)
  return (← layout.node? g (.scalar plain.text .plain) plain.lineEnded, plain.rest)

/-- Reads all tokens from some point on. Every token takes a character at least. -/
def read? : Nat → Layout → List Glyph → Option Layout
  | 0, _, _ => none
  | fuel + 1, layout, gs =>
    match skip layout.inFlow layout.keyAllowed false gs with
    | (_, []) => layout.closedAll.withoutKey?
    | (keyAllowed, g :: gs) => do
      let layout ← { layout with keyAllowed }.withoutStaleKeys? g
      let (layout, rest) ← (layout.closed (g.column < ·)).next? g gs
      read? fuel layout rest

end Layout

/-- The tokens of a text. -/
def tokens? (gs : List Glyph) : Option (List Token) :=
  (Layout.read? (gs.length + 1) {} gs).map fun layout => layout.tokens.reverse

end RubyTree.Yaml
