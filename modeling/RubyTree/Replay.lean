import RubyTree.Event.Stream
import RubyTree.Grammar
import RubyTree.Heredoc
import RubyTree.Tree.Dump

/-!
# Replaying a stream

Events are handled in order. The result of each is kept until an argument of a later event refers to
it, and is used up then. The result of the last event is the root of the tree; heredoc bodies are
then moved to their places.

Results:

* `Results.take_of_le`: an event that has not fired has no result to take.
-/

namespace RubyTree

/-- The results of the events handled so far, by index. A result that is used up is `none`. -/
abbrev Results := List (Option Value)

namespace Results

/-- Uses up the result of an event (`take`). -/
def take (results : Results) (index : Nat) : Except StreamError (Value × Results) :=
  match results[index]? with
  | none => .error (.notFired index results.length)
  | some none => .error (.consumedTwice index)
  | some (some value) => .ok (value, results.set index none)

mutual

/-- The value of an argument, and the results left (`resolve`). -/
def resolve (results : Results) : Arg → Except StreamError (Value × Results)
  | .absent => .ok (.absent, results)
  | .bool flag => .ok (.bool flag, results)
  | .text text => .ok (.text text, results)
  | .symbol name => .ok (.symbol name, results)
  | .ref index => results.take index
  | .list items => (resolveAll results items).map fun (values, rest) => (.list values, rest)

/-- The values of arguments, from left to right, and the results left. -/
def resolveAll (results : Results) : List Arg → Except StreamError (List Value × Results)
  | [] => .ok ([], results)
  | arg :: args => do
    let (value, results) ← resolve results arg
    let (values, results) ← resolveAll results args
    return (value :: values, results)

end

theorem take_of_le {results : Results} {index : Nat} (h : results.length ≤ index) :
    results.take index = .error (.notFired index results.length) := by
  simp [take, List.getElem?_eq_none h]

end Results

/-- How far a replay has come. -/
structure Replay where
  context : Context := .initial
  results : Results := []

namespace Replay

/-- Handles one event, without saying which one it was if it fails. -/
def handleEvent (replay : Replay) (event : Event) : Except Error Replay := do
  let (arguments, results) ← (replay.results.resolveAll event.args).mapError .stream
  let (outcome, context) :=
    (handle event.name arguments event.position event.token).exec replay.context
  let value ← outcome.mapError .shape
  return { context, results := results ++ [some value] }

/-- Handles the next event of a stream: the loop body of `normalize_events`. -/
def step (replay : Replay) (event : Event) : Except Error Replay :=
  (replay.handleEvent event).mapError
    (.event replay.results.length event.name event.position.line event.position.column ·)

/-- The value of the last event, unless nothing was handled. -/
def root (replay : Replay) : Value := replay.results.getLast?.join.getD .absent

end Replay

/-- A finished tree, which may be absent, and the diagnostics noted while it was built. -/
structure Normalized where
  tree : Option Node
  diagnostics : List Diagnostic
  deriving DecidableEq

namespace Normalized

/-- The dump of the tree on lines of its own. An absent tree is an empty line (`render`). -/
def render (normalized : Normalized) : String :=
  (normalized.tree.elim "" Node.dump) ++ "\n"

/-- The diagnostics, one on a line, and the tree after them (`report`). -/
def report (normalized : Normalized) : String :=
  String.join (normalized.diagnostics.map fun diagnostic => diagnostic.text ++ "\n")
    ++ normalized.render

end Normalized

/-- Completes a tree from the value at its root (`finish`). -/
def finish (root : Value) (context : Context) : Outcome Normalized := do
  let root ← root.asNode? "root"
  return ⟨root.map fun node => (Heredoc.relocate node).result, context.diagnostics⟩

/-- Replays events from the beginning (`normalize_events`). -/
def replay (events : List Event) : Except Error Normalized := do
  let replayed ← events.foldlM Replay.step {}
  (finish replayed.root replayed.context).mapError .shape

/-- Reads a stream and replays it (`normalize_str`). -/
def normalize (text : String) : Except Error Normalized := do
  replay (← (Stream.read text).mapError .stream)

end RubyTree
