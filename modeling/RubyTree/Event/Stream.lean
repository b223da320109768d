import RubyTree.Error
import RubyTree.Event.Decode
import RubyTree.Text.Blank
import RubyTree.Text.Lines

/-!
# Streams of events

A stream is one array of events or holds one event on a line. It is an array if its first character
that is not blank is an opening bracket. Lines that are blank, and lines whose first character that
is not blank is `#`, are skipped, but they count in the numbers of lines.

Results:

* `readNumbered_cons_of_isSkipped`: a skipped line only moves the count on.
-/

namespace RubyTree.Stream

open Text

/-- A line without an event: blank, or a comment. -/
def isSkipped (line : List Char) : Bool :=
  match trim line with
  | [] => true
  | c :: _ => c == '#'

/-- The events of lines, the first of which has the number `number`: the loop of `parse_events`. -/
def readNumbered (number : Nat) : List (List Char) → Except StreamError (List Event)
  | [] => .ok []
  | line :: lines =>
    if isSkipped line then readNumbered (number + 1) lines
    else
      match (Json.read? line).bind (Event.ofJson? nestingLimit) with
      | none => .error (.badLine number)
      | some event => (readNumbered (number + 1) lines).map (event :: ·)

/-- The events of an array, the first form `parse_events` reads. -/
def readArray (text : List Char) : Except StreamError (List Event) :=
  match Json.read? text with
  | some (.array items) =>
    match items.mapM (Event.ofJson? (nestingLimit - 1)) with
    | some events => .ok events
    | none => .error .badArray
  | _ => .error .badArray

/-- The events of a text (`parse_events`). -/
def read (text : String) : Except StreamError (List Event) :=
  let chars := text.toList
  if (trimStart chars).head? = some '[' then readArray chars
  else readNumbered 1 (splitLines chars)

theorem readNumbered_cons_of_isSkipped {line : List Char} (h : isSkipped line = true) (number : Nat)
    (lines : List (List Char)) :
    readNumbered number (line :: lines) = readNumbered (number + 1) lines := by
  simp [readNumbered, h]

end RubyTree.Stream
