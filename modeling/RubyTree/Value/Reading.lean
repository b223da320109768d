import RubyTree.Error

/-!
# Reading values

How a rule takes the nodes it needs out of its arguments. Each reading names the part it reads, for
the message when the argument has another shape.

Results:

* `asNodes_ofNodes`: a list of nodes reads as those nodes.
-/

namespace RubyTree

/-- The outcome of a rule that needs no memory. -/
abbrev Outcome (α : Type) := Except ShapeError α

namespace Value

/-- The nodes among items, where nothing and `false` count as no node: the loop of `into_nodes`. -/
def nodesAmong (what : String) : List Value → Outcome (List Node)
  | [] => .ok []
  | node n :: items => (nodesAmong what items).map (n :: ·)
  | absent :: items => nodesAmong what items
  | bool false :: items => nodesAmong what items
  | other :: _ => .error (.notNodes what other)

/-- Spreads a value and reads its items as nodes (`into_nodes`). -/
def asNodes (what : String) (value : Value) : Outcome (List Node) := nodesAmong what value.items

/-- Reads an optional node (`into_node`). -/
def asNode? (what : String) : Value → Outcome (Option Node)
  | absent | bool false => .ok none
  | node n => .ok (some n)
  | other => .error (.notNode what other)

/-- Reads a node that has to be there (`require_node`). -/
def asNode (what : String) : Value → Outcome Node
  | node n => .ok n
  | other => .error (.notNode what other)

/-- Reads a list under construction; nothing is an empty one (`into_list`). -/
def asList (what : String) : Value → Outcome (List Value)
  | absent => .ok []
  | list items => .ok items
  | other => .error (.notList what other)

@[simp] theorem nodesAmong_map_node (what : String) (nodes : List Node) :
    nodesAmong what (nodes.map node) = .ok nodes := by
  induction nodes with
  | nil => rfl
  | cons n nodes ih => simp [nodesAmong, ih, Except.map]

@[simp] theorem asNodes_ofNodes (what : String) (nodes : List Node) :
    (ofNodes nodes).asNodes what = .ok nodes := by
  simp [asNodes]

@[simp] theorem asNode?_node (what : String) (n : Node) :
    (node n).asNode? what = .ok (some n) := rfl

@[simp] theorem asNode_node (what : String) (n : Node) : (node n).asNode what = .ok n := rfl

@[simp] theorem asList_list (what : String) (items : List Value) :
    (list items).asList what = .ok items := rfl

end Value

end RubyTree
