import Mathlib.Algebra.Order.BigOperators.Group.List
import Mathlib.Algebra.Order.Ring.Nat
import RubyTree.Proofs.Attaching
import RubyTree.Proofs.Yields

/-!
# Weighing trees

What a rule builds is put together from the nodes in its arguments: each of them is used once at
most, labels are given anew, and nodes of some kinds are made besides. A scale weighs nodes by their
kinds and the labels inside of them. On a scale where the kinds that rules make and the labels that
rules give weigh nothing, a rule adds no weight. So what is to be known of each rule is known once
for all such scales, whether they count nodes or look for labels.

Putting a tree together adds up what its parts weigh. Taking it apart, or reading nodes from a value,
yields no more than was there.

Results:

* `Node.weight_extend`: what a node weighs with more children.
* `Node.weight_ofKind`, `Node.weight_leaf`: a new node weighs nothing unless a token makes it.
* `Value.weighs_asNode`, `Value.weighs_asNodes`: what is read from a value.
-/

namespace RubyTree

/-! ## Scales -/

/-- Only a token makes a node of the kind. -/
@[grind]
def Kind.isScanned : Kind → Bool
  | .instanceVariable | .classVariable | .globalVariable | .hashKeySymbol | .character => true
  | _ => false

/-- The labels that rules give to children. -/
@[grind]
def Node.isGiven : String → Bool
  | "alias" | "alternative" | "alternatives" | "arguments" | "begin" | "block" | "body" | "class"
  | "clauses" | "condition" | "consequence" | "else" | "end" | "exceptions" | "guard" | "handler"
  | "key" | "left" | "locals" | "method" | "name" | "object" | "operand" | "parameters" | "pattern"
  | "receiver" | "right" | "scope" | "superclass" | "value" | "variable" => true
  | _ => false

/-- What the kind of a node and the label of a child weigh. The kinds that rules make and the labels
    that rules give weigh nothing. -/
structure Scale where
  kind : Kind → Nat
  label : String → Nat
  kind_eq_zero : ∀ {k : Kind}, k.isScanned = false → kind k = 0
  label_eq_zero : ∀ {name : String}, Node.isGiven name = true → label name = 0

/-- What a label weighs, if there is one. -/
def Scale.field (scale : Scale) (field : Field) : Nat := field.name?.elim 0 scale.label

theorem Scale.field_unlabeled (scale : Scale) : scale.field .unlabeled = 0 := rfl

theorem Scale.field_named (scale : Scale) {name : String} (h : Node.isGiven name = true) :
    scale.field (.named name) = 0 := scale.label_eq_zero h

/-! ## Nodes -/

namespace Node

mutual

/-- What a tree weighs. The label at its root does not count, since attaching the tree gives it a
    new one. -/
def weight (scale : Scale) : Node → Nat
  | ⟨kind, _, children⟩ => scale.kind kind + weightAmong scale children

/-- What the trees among children weigh, with their labels. -/
def weightAmong (scale : Scale) : List (Child Node) → Nat
  | [] => 0
  | .token _ :: children => weightAmong scale children
  | .node child :: children =>
    scale.field child.field + weight scale child + weightAmong scale children

end

/-- What some trees weigh. -/
def total (scale : Scale) (nodes : List Node) : Nat := (nodes.map (weight scale)).sum

variable {scale : Scale}

@[simp, grind =] theorem total_nil : total scale [] = 0 := rfl

@[simp, grind =] theorem total_cons (node : Node) (nodes : List Node) :
    total scale (node :: nodes) = node.weight scale + total scale nodes := by
  simp [total]

theorem total_singleton (node : Node) : total scale [node] = node.weight scale := by simp

@[simp, grind =] theorem total_append (nodes more : List Node) :
    total scale (nodes ++ more) = total scale nodes + total scale more := by
  simp [total]

theorem weight_eq (node : Node) :
    node.weight scale = scale.kind node.kind + weightAmong scale node.children := by
  obtain ⟨kind, field, children⟩ := node
  rfl

@[simp, grind =] theorem weight_under (field : Field) (node : Node) :
    (node.under field).weight scale = node.weight scale := by
  rw [weight_eq, weight_eq]
  rfl

theorem weightAmong_append (children more : List (Child Node)) :
    weightAmong scale (children ++ more) =
      weightAmong scale children + weightAmong scale more := by
  induction children with
  | nil => exact (Nat.zero_add _).symm
  | cons child children ih =>
    cases child with
    | token text => exact ih
    | node child =>
      rw [List.cons_append, weightAmong, weightAmong, ih]
      omega

/-- A child without a label. -/
theorem weightAmong_plain_cons (child : Node) (children : List (Child Node)) :
    weightAmong scale (.plain child :: children) =
      child.weight scale + weightAmong scale children := by
  rw [Child.plain, weightAmong, weight_under]
  exact congrArg (· + _) (Nat.zero_add _)

/-- A child with a label that rules give. -/
theorem weightAmong_called_cons {name : String} (h : isGiven name = true) (child : Node)
    (children : List (Child Node)) : weightAmong scale (.called name child :: children) =
      child.weight scale + weightAmong scale children := by
  rw [Child.called, weightAmong, weight_under]
  change scale.field (.named name) + _ + _ = _
  rw [scale.field_named h, Nat.zero_add]

theorem weightAmong_map_plain (nodes : List Node) :
    weightAmong scale (nodes.map .plain) = total scale nodes := by
  induction nodes with
  | nil => rfl
  | cons node nodes ih => rw [List.map_cons, weightAmong_plain_cons, ih, total_cons]

theorem weightAmong_map_called {name : String} (h : isGiven name = true) (nodes : List Node) :
    weightAmong scale (nodes.map (.called name)) = total scale nodes := by
  induction nodes with
  | nil => rfl
  | cons node nodes ih => rw [List.map_cons, weightAmong_called_cons h, ih, total_cons]

theorem total_toList (node : Option Node) :
    total scale node.toList = node.elim 0 (weight scale) := by
  cases node with
  | none => rfl
  | some node => simp

/-- Only the kind of a node without children weighs anything. -/
theorem weight_of_children {node : Node} (h : weightAmong scale node.children = 0) :
    node.weight scale = if node.kind.isScanned then scale.kind node.kind else 0 := by
  rw [weight_eq, h, Nat.add_zero]
  split
  · rfl
  · next hkind => exact scale.kind_eq_zero (by simpa using hkind)

/-- A new node weighs something only if its kind is that of a token. -/
@[grind =] theorem weight_ofKind (kind : Kind) :
    (ofKind kind).weight scale = if kind.isScanned then scale.kind kind else 0 :=
  weight_of_children rfl

@[grind =] theorem weight_leaf (kind : Kind) (text : String) :
    (leaf kind text).weight scale = if kind.isScanned then scale.kind kind else 0 :=
  weight_of_children rfl

theorem weight_retag_le {kind : Kind} (h : kind.isScanned = false) (node : Node) :
    (node.retag kind).weight scale ≤ node.weight scale := by
  have hkind : scale.kind (node.retag kind).kind = 0 := scale.kind_eq_zero h
  rw [weight_eq, hkind, Nat.zero_add, weight_eq]
  exact Nat.le_add_left _ _

/-! ## Trees that are put together -/

/-- A node with more children weighs as much more as these children. -/
theorem weight_extend (node : Node) (children : List (Child Node)) :
    (node.extend children).weight scale = node.weight scale + weightAmong scale children := by
  rw [weight_eq, weight_eq, extend, weightAmong_append, Nat.add_assoc]

@[grind =] theorem weight_attach (node child : Node) :
    (node.attach child).weight scale = node.weight scale + child.weight scale := by
  have hattach : node.attach child = node.extend [.plain child] := rfl
  rw [hattach, weight_extend, weightAmong_plain_cons]
  rfl

@[grind =] theorem weight_attachAs (node : Node) {name : String} (h : isGiven name = true)
    (child : Node) :
    (node.attachAs name child).weight scale = node.weight scale + child.weight scale := by
  rw [attachAs_eq, weight_extend, weightAmong_called_cons h]
  rfl

@[grind =] theorem weight_attachToken (node : Node) (text : String) :
    (node.attachToken text).weight scale = node.weight scale :=
  weight_extend node [.token text]

@[grind =] theorem weight_attachAll (node : Node) (children : List Node) :
    (node.attachAll children).weight scale = node.weight scale + total scale children := by
  rw [attachAll_eq, weight_extend, weightAmong_map_plain]

@[grind =] theorem weight_attach? (node : Node) (child : Option Node) :
    (node.attach? child).weight scale = node.weight scale + total scale child.toList := by
  rw [attach?_eq, weight_extend, weightAmong_map_plain]

@[grind =] theorem weight_attachAs? (node : Node) {name : String} (h : isGiven name = true)
    (child : Option Node) :
    (node.attachAs? name child).weight scale = node.weight scale + total scale child.toList := by
  rw [attachAs?_eq, weight_extend, weightAmong_map_called h]

@[grind =] theorem weight_putFirst (node child : Node) :
    (node.putFirst child).weight scale = node.weight scale + child.weight scale := by
  rw [weight_eq, weight_eq]
  change scale.kind node.kind + weightAmong scale (.plain child :: node.children) = _
  rw [weightAmong_plain_cons]
  omega

@[grind =] theorem weight_putFirstAs (node : Node) {name : String} (h : isGiven name = true)
    (child : Node) :
    (node.putFirstAs name child).weight scale = node.weight scale + child.weight scale := by
  rw [weight_eq, weight_eq]
  change scale.kind node.kind + weightAmong scale (.called name child :: node.children) = _
  rw [weightAmong_called_cons h]
  omega

/-- Nodes attached one after the other under the same name. -/
theorem weight_foldl_attachAs {name : String} (h : isGiven name = true) (children : List Node)
    (node : Node) : (children.foldl (·.attachAs name ·) node).weight scale =
      node.weight scale + total scale children := by
  induction children generalizing node with
  | nil => rfl
  | cons child children ih =>
    rw [List.foldl_cons, ih, weight_attachAs node h, total_cons, Nat.add_assoc]

/-! ## Trees that are taken apart -/

/-- Children without their labels weigh no more than with them. -/
theorem total_filterMap_le (children : List (Child Node)) :
    total scale (children.filterMap Child.node?) ≤ weightAmong scale children := by
  induction children with
  | nil => exact Nat.le_refl _
  | cons child children ih =>
    cases child with
    | token text => exact ih
    | node child =>
      have hchild : child.weight scale ≤ scale.field child.field + child.weight scale :=
        Nat.le_add_left _ _
      exact (total_cons child _).trans_le (Nat.add_le_add hchild ih)

theorem total_nodes_le (node : Node) : total scale node.nodes ≤ node.weight scale := by
  rw [weight_eq]
  exact Nat.le_trans (total_filterMap_le node.children) (Nat.le_add_left _ _)

/-- The first of some items holds no more than all of them. -/
theorem elim_head?_le {α : Type} (held : α → Nat) (items : List α) :
    items.head?.elim 0 held ≤ (items.map held).sum := by
  cases items with
  | nil => exact Nat.le_refl _
  | cons item items =>
    rw [List.map_cons, List.sum_cons]
    exact Nat.le_add_right _ _

/-- The first item before the last and the last one are two of the items. -/
theorem elim_ends_le {α : Type} (held : α → Nat) (items : List α) :
    items.dropLast.head?.elim 0 held + items.getLast?.elim 0 held ≤ (items.map held).sum := by
  rcases items.eq_nil_or_concat with rfl | ⟨init, last, rfl⟩
  · exact Nat.le_refl _
  · rw [List.concat_eq_append, List.dropLast_concat, List.getLast?_concat, List.map_append,
      List.sum_append_nat, List.map_singleton, List.sum_singleton]
    exact Nat.add_le_add_right (elim_head?_le held init) _

theorem total_toList_join (pattern : Option (Option Node)) :
    total scale pattern.join.toList = pattern.elim 0 fun node => total scale node.toList := by
  cases pattern with
  | none => rfl
  | some node => rfl

theorem total_firstNode?_le (node : Node) :
    total scale node.firstNode?.toList ≤ node.weight scale := by
  rw [total_toList]
  exact Nat.le_trans (elim_head?_le _ node.nodes) (total_nodes_le node)

/-- A node without its last child, and that child. -/
theorem weight_detachLast?_le {node child rest : Node} (h : node.detachLast? = some (child, rest)) :
    child.weight scale + rest.weight scale ≤ node.weight scale := by
  obtain ⟨kind, field, children⟩ := node
  unfold detachLast? at h
  split at h
  · next last hlast =>
    cases h
    obtain ⟨init, rfl⟩ := List.getLast?_eq_some_iff.mp hlast
    simp only [weight, List.dropLast_concat, weightAmong_append, weightAmong]
    omega
  · cases h

/-- Trees that are changed one by one. -/
theorem total_map_le {change : Node → Node}
    (h : ∀ node, (change node).weight scale ≤ node.weight scale) (nodes : List Node) :
    total scale (nodes.map change) ≤ total scale nodes := by
  rw [total, List.map_map]
  exact List.sum_le_sum fun node _ => h node

theorem total_toList_bind_le {change : Node → Option Node}
    (h : ∀ node, total scale (change node).toList ≤ node.weight scale) (node : Option Node) :
    total scale (node.bind change).toList ≤ total scale node.toList := by
  cases node with
  | none => exact Nat.le_refl _
  | some node => simpa using h node

theorem total_toList_map_le {change : Node → Node}
    (h : ∀ node, (change node).weight scale ≤ node.weight scale) (node : Option Node) :
    total scale (node.map change).toList ≤ total scale node.toList := by
  cases node with
  | none => exact Nat.le_refl _
  | some node => simpa using h node

theorem total_filterMap_eq {α : Type} (change : α → Option Node) (items : List α) :
    total scale (items.filterMap change) =
      (items.map fun item => total scale (change item).toList).sum := by
  induction items with
  | nil => rfl
  | cons item items ih =>
    rw [List.map_cons, List.sum_cons, ← ih]
    cases hchange : change item with
    | none => simp [hchange]
    | some changed => simp [hchange]

end Node

/-! ## Values -/

namespace Value

open Node (total)

mutual

/-- What the nodes in a value weigh. -/
def weight (scale : Scale) : Value → Nat
  | node n => n.weight scale
  | list items => weightAll scale items
  | _ => 0

/-- What the nodes in some values weigh. -/
def weightAll (scale : Scale) : List Value → Nat
  | [] => 0
  | item :: items => weight scale item + weightAll scale items

end

variable {scale : Scale}

@[simp, grind =] theorem weight_absent : weight scale absent = 0 := rfl

@[simp, grind =] theorem weight_text (text : String) : weight scale (.text text) = 0 := rfl

@[simp, grind =] theorem weight_node (n : Node) : weight scale (node n) = n.weight scale := rfl

@[simp, grind =] theorem weight_list (items : List Value) :
    weight scale (list items) = weightAll scale items := rfl

@[simp, grind =] theorem weightAll_nil : weightAll scale [] = 0 := rfl

@[simp, grind =] theorem weightAll_cons (item : Value) (items : List Value) :
    weightAll scale (item :: items) = item.weight scale + weightAll scale items := rfl

theorem weightAll_eq (items : List Value) :
    weightAll scale items = (items.map (weight scale)).sum := by
  induction items with
  | nil => rfl
  | cons item items ih => rw [weightAll, List.map_cons, List.sum_cons, ih]

@[simp, grind =] theorem weightAll_append (items more : List Value) :
    weightAll scale (items ++ more) = weightAll scale items + weightAll scale more := by
  simp [weightAll_eq]

/-- One more item in a list. -/
@[grind =] theorem weight_list_concat (items : List Value) (item : Value) :
    (list (items ++ [item])).weight scale = weightAll scale items + item.weight scale := by
  simp

@[simp, grind =] theorem weightAll_map_node (nodes : List Node) :
    weightAll scale (nodes.map node) = total scale nodes := by
  rw [weightAll_eq, List.map_map]
  rfl

@[simp, grind =] theorem weight_ofNodes (nodes : List Node) :
    (ofNodes nodes).weight scale = total scale nodes := weightAll_map_node nodes

@[simp, grind =] theorem weight_ofNode? (node : Option Node) :
    (ofNode? node).weight scale = total scale node.toList := by
  cases node with
  | none => rfl
  | some node => rfl

/-- Spreading a value loses nothing. -/
@[simp, grind =] theorem weightAll_items (value : Value) :
    weightAll scale value.items = value.weight scale := by
  cases value <;> rfl

/-! ## What is read from a value -/

open Outcome (Yields)

variable (scale)

theorem weighs_nodesAmong (what : String) (items : List Value) :
    Yields (fun nodes => total scale nodes ≤ weightAll scale items) (nodesAmong what items) := by
  induction items with
  | nil => exact .ok (Nat.le_refl _)
  | cons item items ih =>
    unfold nodesAmong
    split
    · exact .ok (Nat.zero_le _)
    · next heq =>
      cases heq
      exact ih.map fun nodes h => by simpa using h
    · next heq =>
      cases heq
      exact fun nodes hnodes => Nat.le_trans (ih nodes hnodes) (Nat.le_add_left _ _)
    · next heq =>
      cases heq
      exact fun nodes hnodes => Nat.le_trans (ih nodes hnodes) (Nat.le_add_left _ _)
    · exact .error _

theorem weighs_asNodes (what : String) (value : Value) :
    Yields (fun nodes => total scale nodes ≤ value.weight scale) (value.asNodes what) :=
  fun nodes hnodes => weightAll_items value ▸ weighs_nodesAmong scale what _ nodes hnodes

theorem weighs_asNode? (what : String) (value : Value) :
    Yields (fun node => total scale node.toList ≤ value.weight scale) (value.asNode? what) := by
  unfold asNode?
  split
  · exact .ok (Nat.zero_le _)
  · exact .ok (Nat.zero_le _)
  · exact .ok (Nat.le_refl _)
  · exact .error _

theorem weighs_asNode (what : String) (value : Value) :
    Yields (fun node => node.weight scale ≤ value.weight scale) (value.asNode what) := by
  unfold asNode
  split
  · exact .ok (Nat.le_refl _)
  · exact .error _

theorem weighs_asList (what : String) (value : Value) :
    Yields (fun items => weightAll scale items ≤ value.weight scale) (value.asList what) := by
  unfold asList
  split
  · exact .ok (Nat.zero_le _)
  · exact .ok (Nat.le_refl _)
  · exact .error _

/-- Items that are read one by one, where each yields no more than it holds. -/
theorem weighs_mapM {β : Type} {read : Value → Outcome β} {held : β → Nat}
    (h : ∀ item, (read item).Yields fun b => held b ≤ item.weight scale) (items : List Value) :
    (items.mapM read).Yields fun results => (results.map held).sum ≤ weightAll scale items := by
  induction items with
  | nil => exact .ok (Nat.le_refl _)
  | cons item items ih =>
    rw [List.mapM_cons]
    exact (h item).bind fun first hfirst => ih.bind fun rest hrest => .ok (by
      rw [List.map_cons, List.sum_cons, weightAll_cons]
      exact Nat.add_le_add hfirst hrest)

end Value

end RubyTree
