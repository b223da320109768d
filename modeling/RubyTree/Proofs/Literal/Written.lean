import RubyTree.Literal.Escape
import RubyTree.Production
import RubyTree.Event

/-!
# Literals as they are written

A literal is quoted, and its parts are texts and code, or it is an array of words; the code in it
holds literals again. Two readings of a literal stand side by side here. `Written.node` is what it
means, by recursion on the literal: every text is split as the opener of its own literal demands.
`Written.events` is how it is recorded: bottom-up, one event after the other, each referring to the
results of earlier ones by index.

Results:

* `Written.node`, `Written.events`: the two readings.
-/

namespace RubyTree.Literal

/-! ## Forms of literals -/

/-- The families of quoted literals. -/
inductive Family where
  | string
  /-- A symbol between quotes. -/
  | symbol
  | heredoc
  /-- A regular expression, with the text that closes it. -/
  | regexp (closer : String)

namespace Family

/-- The text opens a literal of the family. Only strings, symbols and heredocs are told apart by
    their openers. -/
def isOpenedBy : Family → String → Bool
  | string, opener => !Opener.isHeredoc opener && !Opener.isQuotedSymbol opener
  | symbol, opener => Opener.isQuotedSymbol opener
  | heredoc, opener => Opener.isHeredoc opener
  | regexp _, _ => true

/-- The kind of a literal. -/
def kind : Family → Kind
  | string => .stringLiteral
  | symbol => .delimitedSymbol
  | heredoc => .heredocBody
  | regexp _ => .regex

/-- The kind of plain text in a literal. -/
def content : Family → Kind
  | heredoc => .heredocContent
  | _ => .stringContent

/-- What stands after the parts of a literal. -/
def ending : Family → List Node
  | heredoc => [.ofKind .heredocEnd]
  | _ => []

end Family

/-- A family and an opener of it. -/
structure Quote where
  family : Family
  opener : String
  opens : family.isOpenedBy opener = true

/-- What the words of a word array stand for. -/
inductive Element where
  | string
  | symbol

namespace Element

/-- The kind of a word. -/
def kind : Element → Kind
  | string => .bareString
  | symbol => .bareSymbol

/-- The kind of an array of words. -/
def arrayKind : Element → Kind
  | string => .stringArray
  | symbol => .symbolArray

end Element

/-! ## Literals -/

/-- A text inside a literal. -/
structure Fragment where
  text : String
  /-- The text is the result of an event of its own, and not an argument as it stands. -/
  scanned : Bool

mutual

/-- A literal. -/
inductive Written where
  | quoted (quote : Quote) (parts : List Part)
  /-- An array of words that may have code in them. -/
  | words (element : Element) (opener : String) (words : List (List Part))
  /-- An array of words that are texts. -/
  | rawWords (element : Element) (opener : String) (words : List Fragment)

/-- A part of a quoted literal or of a word. -/
inductive Part where
  | text (fragment : Fragment)
  | code (statements : List Written)

end

/-! ## What a literal means -/

/-- The leaf of a stretch of text, where plain text has the given kind. -/
def Piece.leafAs (content : Kind) : Piece → Node
  | .content text => .leaf content (String.ofList text)
  | .escape text => .leaf .escapeSequence (String.ofList text)

/-- The leaves of a text: the text as a whole if it is raw, and its pieces otherwise. -/
def leaves (content : Kind) (raw : Bool) (text : String) : List Node :=
  if raw then [.leaf content text] else (pieces text.toList).map (Piece.leafAs content)

/-- A word that is a text. -/
def rawWordNode (element : Element) (raw : Bool) (fragment : Fragment) : Node :=
  (Node.ofKind element.kind).attachAll (leaves .stringContent raw fragment.text)

mutual

/-- The node of a literal. -/
def Written.node : Written → Node
  | .quoted quote parts =>
    (Node.ofKind quote.family.kind).attachAll
      (partNodes quote.family.content (Opener.isRaw quote.opener) parts ++ quote.family.ending)
  | .words element opener words =>
    (Node.ofKind element.arrayKind).attachAll (wordNodes element (Opener.isRaw opener) words)
  | .rawWords element opener words =>
    (Node.ofKind element.arrayKind).attachAll
      (words.map (rawWordNode element (Opener.isRaw opener)))

/-- The nodes of a part. -/
def Part.nodes (content : Kind) (raw : Bool) : Part → List Node
  | .text fragment => leaves content raw fragment.text
  | .code statements => [(Node.ofKind .interpolation).attachAll (statementNodes statements)]

/-- The nodes of parts. -/
def partNodes (content : Kind) (raw : Bool) : List Part → List Node
  | [] => []
  | part :: parts => part.nodes content raw ++ partNodes content raw parts

/-- The nodes of the statements in a piece of code. -/
def statementNodes : List Written → List Node
  | [] => []
  | statement :: statements => statement.node :: statementNodes statements

/-- The nodes of words made of parts. -/
def wordNodes (element : Element) (raw : Bool) : List (List Part) → List Node
  | [] => []
  | word :: words =>
    (Node.ofKind element.kind).attachAll (partNodes .stringContent raw word) ::
      wordNodes element raw words

end

/-! ## How a literal is recorded -/

/-- The productions that a form of literal fires. -/
structure Form where
  opening : Production
  /-- Begins the literal, without parts. -/
  beginning : Production
  /-- Adds a part. -/
  adding : Production
  closing : Production
  /-- The texts that the closing event is handed besides the literal. -/
  closers : List String

/-- The form of a literal that is no array of words. -/
def Family.form : Family → Form
  | string => ⟨.tstringBeg, .stringContent, .stringAdd, .stringLiteral, []⟩
  | symbol => ⟨.symbeg, .stringContent, .stringAdd, .dynaSymbol, []⟩
  | heredoc => ⟨.heredocBeg, .stringContent, .stringAdd, .stringLiteral, []⟩
  | regexp closer => ⟨.regexpBeg, .regexpNew, .regexpAdd, .regexpLiteral, [closer]⟩

/-- The form of an array of words, which either are texts or may have code in them. -/
def Element.form : (element : Element) → (texts : Bool) → Form
  | string, false => ⟨.wordsBeg, .wordsNew, .wordsAdd, .arrayLiteral, []⟩
  | symbol, false => ⟨.symbolsBeg, .symbolsNew, .symbolsAdd, .arrayLiteral, []⟩
  | string, true => ⟨.qwordsBeg, .qwordsNew, .qwordsAdd, .arrayLiteral, []⟩
  | symbol, true => ⟨.qsymbolsBeg, .qsymbolsNew, .qsymbolsAdd, .arrayLiteral, []⟩

/-- Where the event of each index fires, and the token scanned there. -/
abbrev Stamp := Nat → Position × Option String

section

variable (stamp : Stamp)

/-- The event of an index. -/
def fire (index : Nat) (production : Production) (args : List Arg) : Event :=
  { name := production.name, args, position := (stamp index).1, token := (stamp index).2 }

/-- Events of which the last has a part as its result, and then an event that adds the part to the
    result of the event `last` before them. -/
def joined (add : Production) (last : Nat) (part : List Event) : List Event :=
  part ++ [fire stamp (last + 1 + part.length) add [.ref last, .ref (last + part.length)]]

/-- Adds a text to the result of the event `last`. -/
def addFragment (add : Production) (last : Nat) (fragment : Fragment) : List Event :=
  if fragment.scanned then
    joined stamp add last [fire stamp (last + 1) .tstringContent [.text fragment.text]]
  else [fire stamp (last + 1) add [.ref last, .text fragment.text]]

/-- Adds words that are texts to the result of the event `last`. -/
def addRawWords (add : Production) (last : Nat) : List Fragment → List Event
  | [] => []
  | word :: words =>
    let front := addFragment stamp add last word
    front ++ addRawWords add (last + front.length) words

/-- A literal of a form, from its opener to its end. The events that add its parts come between. -/
def enclosed (form : Form) (index : Nat) (opener : String) (added : List Event) : List Event :=
  fire stamp index form.opening [.text opener] :: fire stamp (index + 1) form.beginning [] :: added
    ++ [fire stamp (index + 2 + added.length) form.closing
      (.ref (index + 1 + added.length) :: form.closers.map .text)]

mutual

/-- The events of a literal, the first of which has the given index. -/
def Written.events (index : Nat) : Written → List Event
  | .quoted quote parts =>
    enclosed stamp quote.family.form index quote.opener
      (addParts quote.family.form.adding (index + 1) parts)
  | .words element opener words =>
    enclosed stamp (element.form false) index opener
      (addWords (element.form false).adding (index + 1) words)
  | .rawWords element opener words =>
    enclosed stamp (element.form true) index opener
      (addRawWords stamp (element.form true).adding (index + 1) words)

/-- Adds a part to the result of the event `last`. -/
def Part.added (add : Production) (last : Nat) : Part → List Event
  | .text fragment => addFragment stamp add last fragment
  | .code statements =>
    let code := statementEvents last statements
    joined stamp add last
      (code ++ [fire stamp (last + 1 + code.length) .stringEmbexpr [.ref (last + code.length)]])

/-- Adds parts to the result of the event `last`. -/
def addParts (add : Production) (last : Nat) : List Part → List Event
  | [] => []
  | part :: parts =>
    let front := part.added add last
    front ++ addParts add (last + front.length) parts

/-- The statements in a piece of code, after the event `last`. The list is begun once the first
    statement is there. -/
def statementEvents (last : Nat) : List Written → List Event
  | [] => [fire stamp (last + 1) .stmtsNew []]
  | first :: statements =>
    let literal := first.events (last + 1)
    let index := last + literal.length
    let front := literal ++
      [fire stamp (index + 1) .stmtsNew [],
        fire stamp (index + 2) .stmtsAdd [.ref (index + 1), .ref index]]
    front ++ addStatements (last + front.length) statements

/-- Adds statements to the result of the event `last`. -/
def addStatements (last : Nat) : List Written → List Event
  | [] => []
  | statement :: statements =>
    let front := joined stamp .stmtsAdd last (statement.events (last + 1))
    front ++ addStatements (last + front.length) statements

/-- Adds words made of parts to the result of the event `last`. -/
def addWords (add : Production) (last : Nat) : List (List Part) → List Event
  | [] => []
  | word :: words =>
    let front := joined stamp add last
      (fire stamp (last + 1) .wordNew [] :: addParts .wordAdd (last + 1) word)
    front ++ addWords add (last + front.length) words

end

end

end RubyTree.Literal
