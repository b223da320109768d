import RubyTree.Tree.Node

/-!
# Values

What an event is handed and what it returns: nothing, a flag, the text of a token, a bare symbol,
a node, or a list of values under construction.

Two readings recur. A value can be *spread*: nothing is no item, a list is its items, and anything
else is one item. A value can stand for an optional node, where nothing and `false` both mean that
there is none.

Results:

* `items_list`, `items_ofNodes`: spreading a list gives its items back.
-/

namespace RubyTree

/-- An argument or a result of an event. -/
inductive Value where
  | absent
  | bool (flag : Bool)
  /-- The text of a token: literal content, an operator, a message. -/
  | text (text : String)
  /-- A bare symbolic argument such as `call`, `nil`, `&` or `not`. -/
  | symbol (name : String)
  | node (node : Node)
  | list (items : List Value)

namespace Value

instance : Inhabited Value := ⟨absent⟩

/-- A list of nodes as a value. -/
def ofNodes (nodes : List Node) : Value := list (nodes.map node)

/-- A node, or nothing. -/
def ofNode? : Option Node → Value
  | none => absent
  | some n => node n

/-- Nothing (`is_nil`). -/
def isAbsent : Value → Bool
  | absent => true
  | _ => false

/-- Nothing, or `false` (`is_falsy`). -/
def isFalsy : Value → Bool
  | absent | bool false => true
  | _ => false

/-- A list without items. An absent value is not a list (`is_empty_list`). -/
def isEmptyList : Value → Bool
  | list [] => true
  | _ => false

/-- Nothing, or a list without items (`is_blank`). -/
def isBlank (value : Value) : Bool := value.isAbsent || value.isEmptyList

/-- The kind of a node value (`kind`). -/
def kind? : Value → Option Kind
  | node n => some n.kind
  | _ => none

/-- A node of the given kind (`is_kind`). -/
def hasKind (value : Value) (kind : Kind) : Bool := value.kind? = some kind

/-- The symbol called `name` (`is_symbol`). -/
def isSymbol (value : Value) (name : String) : Bool :=
  match value with
  | symbol s => s == name
  | _ => false

/-- What a value spells: a token's text, the name of a symbol, or the first token of a node
    (`text`). -/
def spelling? : Value → Option String
  | text t => some t
  | symbol s => some s
  | node n => n.token?
  | _ => none

/-- What a value spells, and the empty text if it spells nothing (`token_text`). -/
def spelling (value : Value) : String := value.spelling?.getD ""

/-- The items of a value that is spread out (`into_items`). -/
def items : Value → List Value
  | absent => []
  | list items => items
  | other => [other]

@[simp] theorem items_list (xs : List Value) : (list xs).items = xs := rfl

@[simp] theorem items_ofNodes (nodes : List Node) : (ofNodes nodes).items = nodes.map node := rfl

theorem ofNodes_append (front back : List Node) :
    ofNodes (front ++ back) = list (front.map node ++ back.map node) := by
  rw [ofNodes, List.map_append]

end Value

end RubyTree
