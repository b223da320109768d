import RubyTree.Tree.Kind

/-!
# Syntax trees

A node has a kind, a label naming its place in its parent, and an ordered list of children. A child
is either a node or a token: a piece of source text that is kept for the rules that look at it and
is never printed.

A node is built by attaching children at either end. Attaching a node settles its label: it gets
the name of its place, or none.

A name in parentheses at the end of a docstring, here and elsewhere, is that of the normalizer's
function that the definition stands for.

Results:

* `nodes_attachAs`, `nodes_attachAll`: what attaching does to the list of node children.
-/

namespace RubyTree

/-- The label of a node inside its parent. -/
inductive Field where
  /-- A child known by its position alone. -/
  | unlabeled
  | named (name : String)
  deriving DecidableEq

/-- The name of a labeled place (`name`). -/
def Field.name? : Field → Option String
  | .unlabeled => none
  | .named name => some name

/-- One child of a node: a node again, or a token. -/
inductive Child (α : Type) where
  | node (node : α)
  | token (text : String)
  deriving DecidableEq

/-- The node in a child, unless it is a token (`as_node`). -/
def Child.node? {α : Type} : Child α → Option α
  | .node n => some n
  | .token _ => none

/-- The text of a token child. -/
def Child.token? {α : Type} : Child α → Option String
  | .node _ => none
  | .token t => some t

/-- A node of a syntax tree. -/
structure Node where
  kind : Kind
  field : Field
  children : List (Child Node)

namespace Node

mutual

/-- Two trees are compared from their roots on. -/
def decEq : (a b : Node) → Decidable (a = b)
  | ⟨k, f, cs⟩, ⟨k', f', cs'⟩ =>
    if h : k = k' ∧ f = f' then
      match decEqAll cs cs' with
      | isTrue e => isTrue (by rw [h.1, h.2, e])
      | isFalse e => isFalse (by rintro ⟨⟩; exact e rfl)
    else isFalse (by rintro ⟨⟩; exact h ⟨rfl, rfl⟩)

/-- Two lists of children are compared from the first on. -/
def decEqAll : (a b : List (Child Node)) → Decidable (a = b)
  | [], [] => isTrue rfl
  | [], _ :: _ => isFalse nofun
  | _ :: _, [] => isFalse nofun
  | .node _ :: _, .token _ :: _ => isFalse nofun
  | .token _ :: _, .node _ :: _ => isFalse nofun
  | .token s :: cs, .token s' :: cs' =>
    if h : s = s' then
      match decEqAll cs cs' with
      | isTrue e => isTrue (by rw [h, e])
      | isFalse e => isFalse (by rintro ⟨⟩; exact e rfl)
    else isFalse (by rintro ⟨⟩; exact h rfl)
  | .node n :: cs, .node n' :: cs' =>
    match decEq n n', decEqAll cs cs' with
    | isTrue h, isTrue e => isTrue (by rw [h, e])
    | isFalse h, _ => isFalse (by rintro ⟨⟩; exact h rfl)
    | _, isFalse e => isFalse (by rintro ⟨⟩; exact e rfl)

end

instance : DecidableEq Node := decEq

/-! ## Building -/

/-- A node without children (`Node::new`). -/
def ofKind (kind : Kind) : Node := ⟨kind, .unlabeled, []⟩

instance : Inhabited Node := ⟨ofKind .program⟩

/-- A node that holds one token (`leaf`). -/
def leaf (kind : Kind) (text : String) : Node := ⟨kind, .unlabeled, [.token text]⟩

/-- The same node under another label. -/
def under (field : Field) (node : Node) : Node := { node with field := field }

/-- The same node with another kind (`retag`). -/
def retag (kind : Kind) (node : Node) : Node := { node with kind := kind }

/-- Attaches an unlabeled child at the end (`add_child`). -/
def attach (node child : Node) : Node :=
  { node with children := node.children ++ [.node (child.under .unlabeled)] }

/-- Attaches a child at the end, as the one called `name` (`add_field`). -/
def attachAs (node : Node) (name : String) (child : Node) : Node :=
  { node with children := node.children ++ [.node (child.under (.named name))] }

/-- Attaches an unlabeled child at the end, if there is one (`add_child` of an absent child). -/
def attach? (node : Node) : Option Node → Node
  | none => node
  | some child => node.attach child

/-- Attaches a child at the end under `name`, if there is one (`add_field` of an absent child). -/
def attachAs? (node : Node) (name : String) : Option Node → Node
  | none => node
  | some child => node.attachAs name child

/-- Puts an unlabeled child before all others (`prepend_child`). -/
def putFirst (node child : Node) : Node :=
  { node with children := .node (child.under .unlabeled) :: node.children }

/-- Puts a child before all others, as the one called `name` (`prepend_field`). -/
def putFirstAs (node : Node) (name : String) (child : Node) : Node :=
  { node with children := .node (child.under (.named name)) :: node.children }

/-- Attaches nodes in order as unlabeled children (`add_children`). -/
def attachAll (node : Node) (children : List Node) : Node :=
  { node with children := node.children ++ children.map fun c => .node (c.under .unlabeled) }

/-- Attaches a token at the end (`add_token`). -/
def attachToken (node : Node) (text : String) : Node :=
  { node with children := node.children ++ [.token text] }

/-! ## Reading -/

/-- The node children in order (`nodes`). -/
def nodes (node : Node) : List Node := node.children.filterMap Child.node?

/-- The text of the first child when that is a token (`token`). -/
def token? (node : Node) : Option String := node.children.head?.bind Child.token?

/-- The first child that is a node (`first_node`). -/
def firstNode? (node : Node) : Option Node := node.nodes.head?

/-- The last child that is a node (`last_node`). -/
def lastNode? (node : Node) : Option Node := node.nodes.getLast?

/-- The token begins with one of the letters `A` to `Z` (`starts_uppercase`). -/
def startsUppercase (node : Node) : Bool :=
  match node.token? with
  | none => false
  | some text => text.toList.head?.any Char.isUpper

/-- The last child, if it is a node, and the node without it (`pop_node`). -/
def detachLast? (node : Node) : Option (Node × Node) :=
  match node.children.getLast? with
  | some (.node child) => some (child, { node with children := node.children.dropLast })
  | _ => none

/-! ## What attaching does to the node children -/

@[simp] theorem nodes_ofKind (kind : Kind) : (ofKind kind).nodes = [] := rfl

@[simp] theorem nodes_under (field : Field) (node : Node) : (node.under field).nodes = node.nodes :=
  rfl

@[simp] theorem nodes_attachAs (node : Node) (name : String) (child : Node) :
    (node.attachAs name child).nodes = node.nodes ++ [child.under (.named name)] := by
  simp [nodes, attachAs, Child.node?]

@[simp] theorem nodes_attachAll (node : Node) (children : List Node) :
    (node.attachAll children).nodes = node.nodes ++ children.map (·.under .unlabeled) := by
  simp [nodes, attachAll, Child.node?, List.filterMap_map, Function.comp_def]

end Node

end RubyTree
