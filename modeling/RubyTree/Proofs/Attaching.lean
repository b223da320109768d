import RubyTree.Rules.Statement

/-!
# Attaching, said by the children

The functions that build a node differ in what they attach and under which label. Each of them puts
some children behind those that are there, `Node.extend`, so a node that is built in several steps
has the children of all steps in that order.

Results:

* `Node.attachAs?_eq`, `Node.attachAll_eq` and their kin: what each function attaches.
* `Node.extend_extend`: one step after another.
-/

namespace RubyTree

namespace Child

/-- A child known by its position alone. -/
def plain (node : Node) : Child Node := .node (node.under .unlabeled)

/-- A child called `name`. -/
def called (name : String) (node : Node) : Child Node := .node (node.under (.named name))

@[simp] theorem called_under (name : String) (field : Field) (node : Node) :
    called name (node.under field) = called name node := rfl

end Child

namespace Node

@[simp] theorem kind_under (field : Field) (node : Node) : (node.under field).kind = node.kind :=
  rfl

/-- The node with more children behind its own. -/
def extend (node : Node) (children : List (Child Node)) : Node :=
  { node with children := node.children ++ children }

@[simp] theorem kind_extend (node : Node) (children : List (Child Node)) :
    (node.extend children).kind = node.kind := rfl

@[simp] theorem extend_nil (node : Node) : node.extend [] = node := by
  obtain ⟨kind, field, children⟩ := node
  rw [extend, List.append_nil]

@[simp] theorem extend_extend (node : Node) (front back : List (Child Node)) :
    (node.extend front).extend back = node.extend (front ++ back) := by
  simp only [extend, List.append_assoc]

@[simp] theorem extend_ofKind (kind : Kind) (children : List (Child Node)) :
    (ofKind kind).extend children = ⟨kind, .unlabeled, children⟩ := rfl

theorem attach?_eq (node : Node) (child : Option Node) :
    node.attach? child = node.extend (child.toList.map .plain) := by
  cases child with
  | none => exact (extend_nil node).symm
  | some child => rfl

/-- A node of some kind around an optional node. -/
def around (kind : Kind) (part : Option Node) : Node := ⟨kind, .unlabeled, part.toList.map .plain⟩

theorem attach?_ofKind (kind : Kind) (part : Option Node) :
    (ofKind kind).attach? part = around kind part := attach?_eq (ofKind kind) part

theorem attachAs_eq (node : Node) (name : String) (child : Node) :
    node.attachAs name child = node.extend [.called name child] := rfl

theorem attachAs?_eq (node : Node) (name : String) (child : Option Node) :
    node.attachAs? name child = node.extend (child.toList.map (.called name)) := by
  cases child with
  | none => exact (extend_nil node).symm
  | some child => rfl

/-- Children without labels are nodes without labels. -/
theorem nodes_map_plain (kind : Kind) (field : Field) (children : List Node) :
    (Node.mk kind field (children.map .plain)).nodes = children.map (·.under .unlabeled) := by
  simp only [nodes, List.filterMap_map]
  exact congrFun List.filterMap_eq_map children

theorem attachAll_eq (node : Node) (children : List Node) :
    node.attachAll children = node.extend (children.map .plain) := rfl

end Node

namespace Rules

/-- The child that a list of statements becomes: none at all, or a node of some kind around them. -/
def bodyPart (kind : Kind) : List Node → List (Child Node)
  | [] => []
  | nodes => [.called "body" ⟨kind, .unlabeled, nodes.map .plain⟩]

theorem withBody_eq (kind : Kind) (nodes : List Node) (node : Node) :
    withBody kind nodes node = node.extend (bodyPart kind nodes) := by
  cases nodes with
  | nil => exact (Node.extend_nil node).symm
  | cons first rest => rfl

end Rules

end RubyTree
