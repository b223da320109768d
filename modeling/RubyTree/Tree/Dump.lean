import RubyTree.Tree.Node

/-!
# Dumps of trees

The textual form of a tree that two parsers can be compared by: `(kind child ...)`, one child on a
line, two more blanks of indentation at each depth, and `label: ` before a child in a labeled
place. Tokens are not shown. The root stands at the beginning, without a label of its own.

Results:

* `Node.write_append`: what is written before a rest does not depend on that rest.
-/

namespace RubyTree.Node

/-- The text before a child: a new line, the indentation, and the label with a colon. -/
def margin (indent : Nat) (field : Field) : List Char :=
  '\n' :: List.replicate indent ' ' ++
    match field with
    | .unlabeled => []
    | .named name => name.toList ++ [':', ' ']

mutual

/-- The dump of a node whose children stand at `indent`, followed by `rest` (`write_node`). -/
def write (indent : Nat) (rest : List Char) : Node → List Char
  | ⟨kind, _, children⟩ =>
    '(' :: kind.name.toList ++ writeChildren indent (')' :: rest) children

/-- The dumps of the children at `indent`, followed by `rest`: the loop of `write_node`. -/
def writeChildren (indent : Nat) (rest : List Char) : List (Child Node) → List Char
  | [] => rest
  | .token _ :: children => writeChildren indent rest children
  | .node child :: children =>
    margin indent child.field ++ write (indent + 2) (writeChildren indent rest children) child

end

/-- The dump of a tree (`render`). -/
def dump (root : Node) : String := String.ofList (root.write 2 [])

mutual

theorem write_append (indent : Nat) (rest more : List Char) :
    (node : Node) → write indent (rest ++ more) node = write indent rest node ++ more
  | ⟨kind, _, children⟩ => by
    have := writeChildren_append indent (')' :: rest) more children
    simp only [List.cons_append] at this
    simp [write, this]

theorem writeChildren_append (indent : Nat) (rest more : List Char) :
    (children : List (Child Node)) →
      writeChildren indent (rest ++ more) children = writeChildren indent rest children ++ more
  | [] => rfl
  | .token _ :: children => by
    simp [writeChildren, writeChildren_append indent rest more children]
  | .node child :: children => by
    simp [writeChildren, writeChildren_append indent rest more children,
      write_append (indent + 2) _ more child]

end

end RubyTree.Node
