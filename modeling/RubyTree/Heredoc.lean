import RubyTree.Tree.Node

/-!
# Heredoc bodies

The parser delivers the body of a heredoc where the heredoc is referred to, inside an expression. In
the finished tree that place holds an empty marker, and the body follows the statement that refers
to it, inside the nearest sequence of statements.

The tree is walked in order with a queue of bodies met so far. A sequence of statements puts the
queue it is handed in front of its children and the bodies met in each child right after that
child. A body is not looked into.

Results:

* `relocate_of_isStatementSequence`: a sequence of statements lets no body out.
-/

namespace RubyTree.Heredoc

/-- The loop of `extract` over the children of a body, where `before` is the kind of the child in
    front of those that are left: the first part is content, added empty where it is missing, and of
    content in a row only the first is kept. -/
def partsAfter (before : Option Kind) : List Node → List Node
  | [] => []
  | child :: children =>
    let padding := if before = none ∧ child.kind ≠ .heredocContent then [.ofKind .heredocContent]
      else []
    let kept := if before = some .heredocContent ∧ child.kind = .heredocContent then []
      else [child.under .unlabeled]
    padding ++ kept ++ partsAfter (some child.kind) children

/-- The parts of a body that stands on its own. -/
def parts (children : List Node) : List Node := partsAfter none children

/-- A body that stands on its own (`extract`). -/
def extract (body : Node) : Node := (Node.ofKind .heredocBody).attachAll (parts body.nodes)

/-- The empty marker left where a heredoc is referred to, which `extract` makes of the body. -/
def marker (body : Node) : Node := ⟨.heredocBeginning, body.field, []⟩

/-- What a walk leaves behind: what became of the part walked over, and the bodies still to be
    placed, which are what `visit` returns. -/
structure Walked (α : Type) where
  result : α
  pending : List Node

mutual

/-- Walks over a node with the bodies pending before it (`visit`). -/
def walk (pending : List Node) : Node → Walked Node
  | ⟨kind, field, children⟩ =>
    if kind = .heredocBody then
      let body := Node.mk kind field children
      ⟨marker body, pending ++ [extract body]⟩
    else if kind.isStatementSequence then
      ⟨⟨kind, field, pending.map .node ++ walkStatements children⟩, []⟩
    else
      let walked := walkChildren pending children
      ⟨⟨kind, field, walked.result⟩, walked.pending⟩

/-- The children of a sequence of statements, each followed by the bodies met in it: the second arm
    of `visit`. -/
def walkStatements : List (Child Node) → List (Child Node)
  | [] => []
  | .token text :: children => .token text :: walkStatements children
  | .node child :: children =>
    let walked := walk [] child
    .node walked.result :: (walked.pending.map .node ++ walkStatements children)

/-- The children of any other node, which hand the pending bodies on: the last arm of `visit`. -/
def walkChildren (pending : List Node) : List (Child Node) → Walked (List (Child Node))
  | [] => ⟨[], pending⟩
  | .token text :: children =>
    let rest := walkChildren pending children
    ⟨.token text :: rest.result, rest.pending⟩
  | .node child :: children =>
    let walked := walk pending child
    let rest := walkChildren walked.pending children
    ⟨.node walked.result :: rest.result, rest.pending⟩

end

/-- Moves every heredoc body of a tree behind the statement that refers to it (`relocate_heredocs`).
    Bodies for which there is no sequence of statements are pending at the end. -/
def relocate (root : Node) : Walked Node := walk [] root

theorem relocate_of_isStatementSequence {root : Node} (h : root.kind.isStatementSequence = true) :
    (relocate root).pending = [] := by
  obtain ⟨kind, field, children⟩ := root
  have hk : kind ≠ .heredocBody := by rintro rfl; cases h
  have hs : kind.isStatementSequence = true := h
  simp [relocate, walk, hk, hs]

end RubyTree.Heredoc
