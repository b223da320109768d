import RubyTree.Text.Quoted
import RubyTree.Value

/-!
# Descriptions of values

How a message shows a value it did not expect, on one line and with nothing left out: each form
under its own word, texts quoted, and a node with its kind, its label and all its children.
-/

namespace RubyTree

/-- The word for a kind in a description: the words of its printed name, run together with
    capitals. The kind printed as `self` has a word of its own. -/
def Kind.word (kind : Kind) : String :=
  if kind = .selfReference then "SelfKw"
  else String.join ((kind.name.splitOn "_").map String.capitalize)

/-- The description of a label. -/
def Field.description : Field → String
  | .unlabeled => "Unlabeled"
  | .named name => "Named(" ++ Text.quote name ++ ")"

namespace Node

/-- What stands between two items of a list and nothing after the last. -/
def comma {α : Type} (following : List α) : String := if following.isEmpty then "" else ", "

mutual

/-- The description of a node followed by `rest`. -/
def describe (rest : List Char) : Node → List Char
  | ⟨kind, field, children⟩ =>
    ("Node \x7b kind: " ++ kind.word ++ ", field: " ++ field.description ++ ", children: [").toList
      ++ describeChildren ("] \x7d".toList ++ rest) children

/-- The descriptions of children, with commas between them, followed by `rest`. -/
def describeChildren (rest : List Char) : List (Child Node) → List Char
  | [] => rest
  | .token t :: children =>
    ("Token(" ++ Text.quote t ++ ")" ++ comma children).toList ++ describeChildren rest children
  | .node child :: children =>
    "Node(".toList
      ++ describe (')' :: (comma children).toList ++ describeChildren rest children) child

end

end Node

namespace Value

mutual

/-- The description of a value followed by `rest`. -/
def describe (rest : List Char) : Value → List Char
  | absent => "Nil".toList ++ rest
  | bool flag => (if flag then "Bool(true)" else "Bool(false)").toList ++ rest
  | text t => ("Text(" ++ Text.quote t ++ ")").toList ++ rest
  | symbol s => ("Symbol(" ++ Text.quote s ++ ")").toList ++ rest
  | node n => "Node(".toList ++ n.describe (')' :: rest)
  | list items => "List([".toList ++ describeItems ("])".toList ++ rest) items

/-- The descriptions of items, with commas between them, followed by `rest`. -/
def describeItems (rest : List Char) : List Value → List Char
  | [] => rest
  | item :: items => describe ((Node.comma items).toList ++ describeItems rest items) item

end

/-- The value as a message shows it. -/
def description (value : Value) : String := String.ofList (value.describe [])

end Value

end RubyTree
