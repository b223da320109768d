import RubyTree.Proofs.Attaching
import RubyTree.Proofs.Dispatch

/-!
# Argument lists

The arguments of a call are collected by an event each and then handed to the call. Four values that
say little have different meanings here: an argument that is nothing adds none, a block that is
`false` was not written, a list without arguments leaves the call as it is, and a missing list
stands for empty parentheses.

Specification: `Argument.nodes`, what an argument contributes, and `argumentPart`, what a call gets
for its arguments.

Results:

* `Argument.add_ofNodes`: one event appends what its argument contributes.
* `Argument.foldlM_add`: a run of events appends what all of its arguments contribute.
* `Attaches.unique`: what a call gets for a value is settled by its events.
* `arguments_concatenated`: whole calls.
-/

namespace RubyTree

open Rules

/-! ## Arguments -/

/-- A value that is added to an argument list. -/
inductive Argument where
  /-- An argument that is nothing. -/
  | absent
  /-- Pairs that are written without braces. -/
  | pairs (bare : Node) (kind_bare : bare.kind = .bareAssocHash)
    (kind_nodes : ∀ node ∈ bare.nodes, node.kind = .pair ∨ node.kind = .hashSplatArgument)
  | other (node : Node) (kind_node : node.kind ≠ .bareAssocHash)
  | splat (part : Value.Read Value.asNode?)
  /-- A block argument, which may be anonymous. -/
  | block (part : Option Node)
  /-- A block argument that was not written. -/
  | noBlock

namespace Argument

/-- What the argument contributes. -/
def nodes : Argument → List Node
  | absent => []
  | pairs bare _ _ => bare.nodes
  | other node _ => [node]
  | splat part => [.around .splatArgument part.found]
  | block part => [.around .blockArgument part]
  | noBlock => []

/-- The production of the event that adds the argument. -/
def production : Argument → Production
  | absent | pairs _ _ _ | other _ _ => .argsAdd
  | splat _ => .argsAddStar
  | block _ | noBlock => .argsAddBlock

/-- What that event is handed besides the arguments before. -/
def value : Argument → Value
  | absent => .absent
  | pairs bare _ _ => .node bare
  | other node _ => .node node
  | splat part => part.value
  | block part => .ofNode? part
  | noBlock => .bool false

/-- Pairs that are written without braces come apart. -/
theorem kind_of_mem_nodes (argument : Argument) : ∀ node ∈ argument.nodes,
    node.kind ≠ .bareAssocHash := by
  cases argument with
  | absent => exact List.forall_mem_nil _
  | pairs bare _ kind_nodes =>
    intro node hnode hkind
    rcases kind_nodes node hnode with h | h
    · cases h.symm.trans hkind
    · cases h.symm.trans hkind
  | other node kind_node => exact List.forall_mem_singleton.mpr kind_node
  | splat part => exact List.forall_mem_singleton.mpr nofun
  | block part => exact List.forall_mem_singleton.mpr nofun
  | noBlock => exact List.forall_mem_nil _

/-! ## Events -/

/-- Handles the event that adds an argument, in a context of its own. -/
def add (list : Value) (next : Argument × Context) : Outcome Value :=
  next.1.production.outcome [list, next.1.value] next.2

theorem addArgument_ofNodes (items : List Node) {argument : Value} {added : List Node}
    (h : argumentItems argument = added.map .node) :
    addArgument (.ofNodes items) argument = .ok (.ofNodes (items ++ added)) := by
  rw [Value.ofNodes_append, ← h]
  rfl

theorem addSplatArgument_ofNodes (items : List Node) (part : Value.Read Value.asNode?) :
    addSplatArgument (.ofNodes items) part.value =
      .ok (.ofNodes (items ++ [.around .splatArgument part.found])) := by
  rw [Value.ofNodes_append, addSplatArgument, part.reads]
  change Except.ok (Value.list (items.map .node ++
    [.node ((Node.ofKind .splatArgument).attach? part.found)])) = _
  rw [Node.attach?_ofKind]
  rfl

theorem addBlockArgument_ofNodes (items : List Node) (part : Option Node) :
    addBlockArgument (.ofNodes items) (.ofNode? part) =
      .ok (.ofNodes (items ++ [.around .blockArgument part])) := by
  rw [Value.ofNodes_append]
  cases part with
  | none => rfl
  | some node => rfl

/-- One event appends what its argument contributes. -/
theorem add_ofNodes (items : List Node) (next : Argument × Context) :
    add (.ofNodes items) next = .ok (.ofNodes (items ++ next.1.nodes)) := by
  obtain ⟨argument, context⟩ := next
  rw [add, Production.outcome_eq]
  cases argument with
  | absent => exact addArgument_ofNodes items rfl
  | pairs bare kind_bare _ => exact addArgument_ofNodes items (if_pos kind_bare)
  | other node kind_node => exact addArgument_ofNodes items (if_neg kind_node)
  | splat part => exact addSplatArgument_ofNodes items part
  | block part => exact addBlockArgument_ofNodes items part
  | noBlock =>
    rw [nodes, List.append_nil]
    rfl

theorem foldlM_add (items : List Node) (arguments : List (Argument × Context)) :
    arguments.foldlM add (.ofNodes items) =
      .ok (.ofNodes (items ++ arguments.flatMap (·.1.nodes))) := by
  induction arguments generalizing items with
  | nil => rw [List.flatMap_nil, List.append_nil]; rfl
  | cons next arguments ih =>
    rw [List.foldlM_cons, add_ofNodes, List.flatMap_cons, ← List.append_assoc]
    exact ih (items ++ next.1.nodes)

/-- Handles the events of an argument list. -/
def collect (begun : Context) (arguments : List (Argument × Context)) : Outcome Value := do
  let list ← Production.argsNew.outcome [] begun
  arguments.foldlM add list

theorem collect_eq (begun : Context) (arguments : List (Argument × Context)) :
    collect begun arguments = .ok (.ofNodes (arguments.flatMap (·.1.nodes))) := by
  have hbegun : Production.argsNew.outcome [] begun = .ok (.ofNodes []) := by
    rw [Production.outcome_eq]
    rfl
  rw [collect, hbegun]
  exact foldlM_add [] arguments

end Argument

/-! ## Calls -/

/-- The node around arguments. -/
def argumentList (arguments : List Node) : Node :=
  ⟨.argumentList, .unlabeled, arguments.map .plain⟩

/-- What a call gets for its arguments: no list at all, or one that holds them. -/
def argumentPart : List Node → List (Child Node)
  | [] => []
  | arguments => [.called "arguments" (argumentList arguments)]

/-- What a call without a receiver names. -/
inductive Message where
  /-- The symbol `call` stands for a method that is not named. -/
  | unnamed
  | named (method : Value.Read Value.asNode?)

namespace Message

/-- The value that names the method. -/
def value : Message → Value
  | unnamed => .symbol "call"
  | named method => method.value

/-- The call without arguments. -/
def call : Message → Node
  | unnamed => ⟨.call, .unlabeled, [.token "."]⟩
  | named method => ⟨.call, .unlabeled,
    .token "." :: (method.found.map promoted).toList.map (.called "method")⟩

/-- A symbol is not a node. -/
theorem isSymbol_of_read (method : Value.Read Value.asNode?) (name : String) :
    method.value.isSymbol name = false := by
  obtain ⟨value, found, reads⟩ := method
  cases value with
  | symbol text => cases reads ""
  | _ => rfl

theorem call_eq (message : Message) :
    Rules.call .absent (.text ".") message.value = .ok (.node message.call) := by
  cases message with
  | unnamed => rfl
  | named method =>
    rw [Rules.call, value, isSymbol_of_read, method.reads]
    change Except.ok (Value.node (((Node.ofKind .call).attachToken ".").attachAs? "method"
      (method.found.map promoted))) = _
    rw [Node.attachAs?_eq]
    rfl

end Message

/-- A call that is handed the value for its arguments gets these children behind its own. -/
def Attaches (arguments : Value) (part : List (Child Node)) : Prop :=
  (∀ target context, Production.methodAddArg.outcome [.node target, arguments] context =
    .ok (.node (target.extend part))) ∧
  ∀ (message : Message) (context : Context),
    Production.command.outcome [message.value, arguments] context =
      .ok (.node (message.call.extend part))

theorem attaches_of_addArguments {arguments : Value} {part : List (Child Node)}
    (h : ∀ target, addArguments (.node target) arguments = .ok (.node (target.extend part))) :
    Attaches arguments part := by
  constructor
  · intro target context
    rw [Production.outcome_eq]
    exact h target
  · intro message context
    rw [Production.outcome_eq]
    change command message.value arguments = _
    rw [command, commandCall, message.call_eq]
    exact h message.call

theorem Attaches.unique {arguments : Value} {part part' : List (Child Node)}
    (h : Attaches arguments part) (h' : Attaches arguments part') : part = part' := by
  have heq := (h.1 (.ofKind .call) .initial).symm.trans (h'.1 (.ofKind .call) .initial)
  injection heq with heq
  injection heq with heq
  injection heq

theorem addArguments_ofNodes (target : Node) (arguments : List Node) :
    addArguments (.node target) (.ofNodes arguments) =
      .ok (.node (target.extend (argumentPart arguments))) := by
  cases arguments with
  | nil =>
    rw [argumentPart, Node.extend_nil]
    rfl
  | cons first rest =>
    change (Value.asNodes "arguments" (.ofNodes (first :: rest)) >>= fun arguments =>
      Except.ok (Value.node (target.attachAs "arguments"
        ((Node.ofKind .argumentList).attachAll arguments)))) = _
    rw [Value.asNodes_ofNodes]
    rfl

theorem attaches_ofNodes (arguments : List Node) :
    Attaches (.ofNodes arguments) (argumentPart arguments) :=
  attaches_of_addArguments fun target => addArguments_ofNodes target arguments

theorem attaches_absent : Attaches .absent [.called "arguments" (argumentList [])] :=
  attaches_of_addArguments fun _ => rfl

theorem argumentPart_eq_nil_iff {arguments : List Node} :
    argumentPart arguments = [] ↔ arguments = [] := by
  cases arguments with
  | nil => exact iff_of_true rfl rfl
  | cons first rest => exact iff_of_false nofun nofun

/-- Whatever kinds of arguments a call has and in whatever order and contexts their events fire, it
    gets a list of what they contribute, in order, and no list if that is nothing. A call whose list
    is missing gets an empty one. -/
theorem arguments_concatenated (begun : Context) (arguments : List (Argument × Context)) :
    (∃ list, Argument.collect begun arguments = .ok list ∧
      Attaches list (argumentPart (arguments.flatMap (·.1.nodes))) ∧
      (Attaches list [] ↔ arguments.flatMap (·.1.nodes) = [])) ∧
    (∀ node ∈ (argumentList (arguments.flatMap (·.1.nodes))).nodes,
      node.kind ≠ .bareAssocHash) ∧
    Attaches .absent [.called "arguments" (argumentList [])] := by
  refine ⟨?_, ?_, attaches_absent⟩
  · have hattaches := attaches_ofNodes (arguments.flatMap (·.1.nodes))
    refine ⟨_, Argument.collect_eq begun arguments, hattaches, ?_⟩
    constructor
    · intro hnone
      exact argumentPart_eq_nil_iff.mp (hattaches.unique hnone)
    · intro hnil
      rwa [hnil] at hattaches ⊢
  · rw [argumentList, Node.nodes_map_plain, List.forall_mem_map]
    intro node hnode
    obtain ⟨next, -, hmem⟩ := List.mem_flatMap.mp hnode
    exact next.1.kind_of_mem_nodes node hmem

/-- The arguments `1, *a, k: 2, &`. -/
def mixedArguments : List (Argument × Context) :=
  let pair : Node := ⟨.pair, .unlabeled,
    [.called "key" (.leaf .hashKeySymbol "k:"), .called "value" (.leaf .integerNumber "2")]⟩
  [(.other (.leaf .integerNumber "1") nofun, .initial),
    (.splat (.ofNode? (some (.leaf .identifier "a"))), .initial),
    (.pairs ⟨.bareAssocHash, .unlabeled, [.plain pair]⟩ rfl
      (List.forall_mem_singleton.mpr (.inl rfl)), .initial),
    (.block none, .initial)]

theorem arguments_concatenated_mixed :
    ∃ list, Argument.collect .initial mixedArguments = .ok list ∧
      Production.methodAddArg.outcome [.node (.ofKind .call), list] .initial =
        .ok (.node ⟨.call, .unlabeled, [.called "arguments" (argumentList
          [.leaf .integerNumber "1",
            .around .splatArgument (some (.leaf .identifier "a")),
            ⟨.pair, .unlabeled, [.called "key" (.leaf .hashKeySymbol "k:"),
              .called "value" (.leaf .integerNumber "2")]⟩,
            .ofKind .blockArgument])]⟩) := by
  obtain ⟨list, hlist, hattaches, -⟩ := (arguments_concatenated .initial mixedArguments).1
  exact ⟨list, hlist, hattaches.1 (.ofKind .call) .initial⟩

end RubyTree
