import RubyTree.Json.Text
import RubyTree.Yaml.Glyph

/-!
# Scalars

A scalar is written plain, between quotes, or as a block of lines. Plain and quoted scalars are
folded: what stands between two words of theirs counts as it is when it is on one line, a single end
of a line counts as a space, and of several ends the first does not count. In a folded block only
the ends between two lines that begin with no blank are treated so.
-/

namespace RubyTree.Yaml

/-- How a scalar is written. -/
inductive Style where
  | plain
  | quoted
  | literal
  | folded
  deriving DecidableEq

/-! ## Gaps -/

/-- What stands between two words of a plain or a quoted scalar. -/
inductive Gap where
  /-- Blanks on one line, the last one first. -/
  | blanks (read : List Char)
  /-- Ends of lines, the last one first, after a first end that may have been taken back. -/
  | breaks (first : Option Char) (others : List Char)
  deriving DecidableEq

namespace Gap

/-- No gap. -/
def none : Gap := blanks []

/-- Nothing stands between the two words. -/
def isNone (gap : Gap) : Bool := gap = none

/-- A line ends between the two words. -/
def hasBreak : Gap → Bool
  | blanks _ => false
  | breaks _ _ => true

/-- A gap with one more character. Blanks do not count once a line has ended. -/
def add (gap : Gap) (c : Char) : Gap :=
  match gap with
  | blanks read => if isBreak c then breaks (some c) [] else blanks (c :: read)
  | breaks first others => if isBreak c then breaks first (c :: others) else gap

/-- What a gap stands for. -/
def text : Gap → List Char
  | blanks read => read.reverse
  | breaks (some '\n') [] => [' ']
  | breaks (some '\n') others => others.reverse
  | breaks first others => first.toList ++ others.reverse

/-- The characters read so far, the last one first, with those that a gap stands for. -/
def onto (gap : Gap) (read : List Char) : List Char := gap.text.reverse ++ read

end Gap

/-! ## Quoted scalars -/

/-- The character that a backslash and a letter stand for. -/
def letterEscape? : Char → Option Char
  | '0' => some '\x00'
  | 'a' => some '\x07'
  | 'b' => some '\x08'
  | 't' | '\t' => some '\t'
  | 'n' => some '\n'
  | 'v' => some '\x0b'
  | 'f' => some '\x0c'
  | 'r' => some '\r'
  | 'e' => some '\x1b'
  | ' ' => some ' '
  | '"' => some '"'
  | '/' => some '/'
  | '\\' => some '\\'
  | 'N' => some (Char.ofNat 0x85)
  | '_' => some (Char.ofNat 0xA0)
  | 'L' => some (Char.ofNat 0x2028)
  | 'P' => some (Char.ofNat 0x2029)
  | _ => none

/-- The number of hexadecimal digits after a letter. -/
def hexWidth? : Char → Option Nat
  | 'x' => some 2
  | 'u' => some 4
  | 'U' => some 8
  | _ => none

/-- The character whose code point has `width` hexadecimal digits at the front of a text. No half of
    a surrogate pair is a character. -/
def hexChar? (width : Nat) (gs : List Glyph) : Option Char := do
  let digits ← (gs.take width).mapM fun g => Json.hexValue? g.char
  let n := digits.foldl (fun n digit => n * 16 + digit) 0
  if digits.length = width ∧ n.isValidChar then return Char.ofNat n else failure

/-- The text of a double-quoted scalar after its opening quote, and what follows the closing one;
    `read` and `gap` hold what precedes. A backslash at the end of a line takes that end back. -/
def doubleQuoted? (read : List Char) (gap : Gap) :
    List Glyph → Option (List Char × List Glyph)
  | [] => none
  | g :: gs =>
    if (documentMark? (g :: gs)).isSome then none
    else if g.char = '"' then some ((gap.onto read).reverse, gs)
    else if isBlank g.char || isBreak g.char then doubleQuoted? read (gap.add g.char) gs
    else if g.char ≠ '\\' then doubleQuoted? (g.char :: gap.onto read) .none gs
    else match gs with
      | [] => none
      | letter :: gs =>
        if isBreak letter.char then doubleQuoted? (gap.onto read) (.breaks none []) gs
        else match hexWidth? letter.char with
          | some width =>
            match hexChar? width gs with
            | some c => doubleQuoted? (c :: gap.onto read) .none (gs.drop width)
            | none => none
          | none =>
            match letterEscape? letter.char with
            | some c => doubleQuoted? (c :: gap.onto read) .none gs
            | none => none
termination_by gs => gs.length

/-- The text of a single-quoted scalar after its opening quote, and what follows the closing one;
    `read` and `gap` hold what precedes. A quote is written twice. -/
def singleQuoted? (read : List Char) (gap : Gap) :
    List Glyph → Option (List Char × List Glyph)
  | [] => none
  | g :: gs =>
    if (documentMark? (g :: gs)).isSome then none
    else if isBlank g.char || isBreak g.char then singleQuoted? read (gap.add g.char) gs
    else if g.char ≠ '\x27' then singleQuoted? (g.char :: gap.onto read) .none gs
    else match gs with
      | [] => some ((gap.onto read).reverse, [])
      | next :: rest =>
        if next.char = '\x27' then singleQuoted? ('\x27' :: gap.onto read) .none rest
        else some ((gap.onto read).reverse, next :: rest)

/-! ## Plain scalars -/

/-- The characters that begin something other than a plain scalar. -/
def isIndicator (c : Char) : Bool := isFlowMark c || "-?:#&*!|>'\"%@`".toList.contains c

/-- A plain scalar may begin here. -/
def beginsPlain (inFlow : Bool) : List Glyph → Bool
  | [] => false
  | g :: gs =>
    if g.char = '-' then !(gs.head?.any fun next => isBlank next.char)
    else if g.char = '?' ∨ g.char = ':' then !inFlow && !endsWord gs
    else !endsWord [g] && !isIndicator g.char

/-- A plain scalar that has been read. -/
structure Plain where
  text : List Char
  /-- A line ended between the last word and what follows. -/
  lineEnded : Bool
  rest : List Glyph

/-- Reads a plain scalar on; `read` and `gap` hold what precedes. It ends before a colon that ends a
    word and before a comment; inside a flow collection at its marks; outside of one at a line that
    is indented by less than `least`. The gap before what follows does not belong to it. -/
def plain? (inFlow : Bool) (least : Nat) (read : List Char) (gap : Gap) :
    List Glyph → Option Plain
  | [] => some ⟨read.reverse, gap.hasBreak, []⟩
  | g :: gs =>
    let afterGap := g.char = '#' || (documentMark? (g :: gs)).isSome
      || (!inFlow && g.column < least)
    if isBlank g.char || isBreak g.char then
      if g.char = '\t' && gap.hasBreak && g.column < least then none
      else plain? inFlow least read (gap.add g.char) gs
    else if !gap.isNone && afterGap then some ⟨read.reverse, gap.hasBreak, g :: gs⟩
    else if g.char = ':' && inFlow
        && (gs.head?.any fun next => isFlowMark next.char || next.char == '?') then none
    else if (g.char = ':' && endsWord gs) || (inFlow && isFlowMark g.char) then
      some ⟨read.reverse, gap.hasBreak, g :: gs⟩
    else plain? inFlow least (g.char :: gap.onto read) .none gs

/-! ## Blocks -/

/-- What becomes of the ends of lines at the end of a block. -/
inductive Chomping where
  | strip
  | clip
  | keep
  deriving DecidableEq

/-- A block scalar as far as it has been read. -/
structure Block where
  /-- The lines without the end of the last one; the last character first. -/
  read : List Char
  /-- The end of the last line. -/
  lineEnd : Option Char
  /-- The ends of the empty lines since then, the last one first. -/
  emptyLines : List Char
  /-- The last line begins with a blank. -/
  beganBlank : Bool

namespace Block

/-- A block that begins with empty lines. -/
def ofEmptyLines (emptyLines : List Char) : Block := ⟨[], none, emptyLines, false⟩

/-- A block at the beginning of a line with something on it, whose first character is a blank or is
    none. -/
def beginLine (folded isBlank : Bool) (block : Block) : Block :=
  let between :=
    if folded && block.lineEnd = some '\n' && !block.beganBlank && !isBlank then
      if block.emptyLines.isEmpty then [' '] else block.emptyLines
    else block.emptyLines ++ block.lineEnd.toList
  ⟨between ++ block.read, none, [], isBlank⟩

/-- A block with one more character on its last line. -/
def push (block : Block) (c : Char) : Block := { block with read := c :: block.read }

/-- The text of a block that has been read. -/
def text (block : Block) : Chomping → List Char
  | .strip => block.read.reverse
  | .clip => block.read.reverse ++ block.lineEnd.toList
  | .keep => block.read.reverse ++ block.lineEnd.toList ++ block.emptyLines.reverse

end Block

/-- Reads the lines of a block with a known indentation. A block ends at a line that is indented by
    less and is not empty; no tab may stand in the indentation. -/
def blockLines? (folded : Bool) (indent : Nat) (inLine : Bool) (block : Block) :
    List Glyph → Option (Block × List Glyph)
  | [] => some (block, [])
  | g :: gs =>
    if inLine then
      if isBreak g.char then blockLines? folded indent false { block with lineEnd := g.char } gs
      else blockLines? folded indent true (block.push g.char) gs
    else if indent ≤ g.column ∧ !isBreak g.char then
      blockLines? folded indent true
        ((block.beginLine folded (isBlank g.char)).push g.char) gs
    else if isBreak g.char then
      let emptyLines := g.char :: block.emptyLines
      blockLines? folded indent false { block with emptyLines } gs
    else if g.char = ' ' then blockLines? folded indent false block gs
    else if g.char = '\t' then none
    else some (block, g :: gs)

/-- The empty lines a block begins with: the greatest indentation up to the first character that is
    no space, the ends of the lines, the last one first, and the text from that character. -/
def emptyLines? (deepest : Nat) (read : List Char) :
    List Glyph → Option (Nat × List Char × List Glyph)
  | [] => some (deepest, read, [])
  | g :: gs =>
    if isBreak g.char then emptyLines? (max deepest g.column) (g.char :: read) gs
    else if g.char = ' ' then emptyLines? deepest read gs
    else if g.char = '\t' then none
    else some (max deepest g.column, read, g :: gs)

/-- The digit from 1 to 9 at the front of a text, if there is one. -/
def takeDigit : List Glyph → Option Nat × List Glyph
  | [] => (none, [])
  | g :: gs =>
    if '1' ≤ g.char ∧ g.char ≤ '9' then (some (g.char.toNat - '0'.toNat), gs)
    else (none, g :: gs)

/-- The sign for the end of a block at the front of a text, if there is one. -/
def takeChomping : List Glyph → Chomping × List Glyph
  | [] => (.clip, [])
  | g :: gs =>
    if g.char = '-' then (.strip, gs)
    else if g.char = '+' then (.keep, gs)
    else (.clip, g :: gs)

/-- The text of a block scalar after its mark, and what follows it, where the block around it is
    indented by `outer`. The header may hold an indentation relative to that, before or after the
    sign for the end. -/
def block? (folded : Bool) (outer : Option Nat) (gs : List Glyph) :
    Option (List Char × List Glyph) := do
  let (before, gs) := takeDigit gs
  let (chomping, gs) := takeChomping gs
  let (width, gs) := if before.isSome then (before, gs) else takeDigit gs
  let gs ← restOfLine? gs
  let (indent, block, gs) ← match width with
    | some width => pure (outer.getD 0 + width, Block.ofEmptyLines [], gs)
    | none =>
      let (deepest, read, gs) ← emptyLines? 0 [] gs
      let least := outer.elim 1 (· + 1)
      pure (max deepest least, Block.ofEmptyLines read, gs)
  let (block, gs) ← blockLines? folded indent false block gs
  return (block.text chomping, gs)

end RubyTree.Yaml
