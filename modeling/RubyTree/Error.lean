import RubyTree.Value.Description

/-!
# Errors

Everything that can end a run, by cause, and the wording of each cause in one place.
-/

namespace RubyTree

/-- What is wrong with the arguments an event is handed. `what` names the part that was read. -/
inductive ShapeError where
  | arity (production : String) (expected found : Nat)
  | noOpenLiteral
  | notNodes (what : String) (found : Value)
  | notNode (what : String) (found : Value)
  | notList (what : String) (found : Value)
  | notPair (what : String)
  | keylessPair
  | blockWithoutCall (kind : Kind)

/-- What is wrong with a stream of events. Lines count from one, events from zero. -/
inductive StreamError where
  | badArray
  | badLine (number : Nat)
  | notFired (index produced : Nat)
  | consumedTwice (index : Nat)

/-- What is wrong with a collection of suites. -/
inductive SuiteError where
  | malformed (path : String)
  | noFiles (root : String)

/-- The causes that end a run without a tree. -/
inductive Error where
  | unreadable (path : String)
  | stream (cause : StreamError)
  | shape (cause : ShapeError)
  /-- An error that arose while an event was handled. -/
  | event (index : Nat) (name : String) (line column : Nat) (cause : Error)
  | suite (cause : SuiteError)

/-- What is said about arguments that do not fit. -/
def ShapeError.message : ShapeError → String
  | arity production expected found =>
    "`" ++ production ++ "` takes " ++ toString expected ++ " argument(s), found " ++ toString found
  | noOpenLiteral => "literal closed with no open delimiter"
  | notNodes what found => what ++ " must hold nodes, found " ++ found.description
  | notNode what found => what ++ " must be a node, found " ++ found.description
  | notList what found => what ++ " must be a list, found " ++ found.description
  | notPair what => what ++ " must be a [name, value] pair"
  | keylessPair => "hash pattern pair must hold a key"
  | blockWithoutCall kind => "`" ++ kind.name ++ "` carries a block but no call"

/-- What is said about a stream that cannot be read or replayed. -/
def StreamError.message : StreamError → String
  | badArray => "invalid event array"
  | badLine number => "line " ++ toString number
  | notFired index produced =>
    "reference to event " ++ toString index ++ " which has not fired (" ++ toString produced
      ++ " so far)"
  | consumedTwice index => "result of event " ++ toString index ++ " consumed twice"

/-- What is said about suites that cannot be run. -/
def SuiteError.message : SuiteError → String
  | malformed path => path
  | noFiles root => "no suite files under " ++ root

/-- The text of an error. The cause of an error in an event is not part of it. -/
def Error.message : Error → String
  | unreadable path => "failed to read `" ++ path ++ "`"
  | stream cause => "malformed event stream: " ++ cause.message
  | shape cause => "unexpected argument shape: " ++ cause.message
  | event index name line column _ =>
    "event #" ++ toString index ++ " `" ++ name ++ "` at " ++ toString line ++ ":"
      ++ toString column ++ " could not be normalized"
  | suite cause => "suite error: " ++ cause.message

end RubyTree
