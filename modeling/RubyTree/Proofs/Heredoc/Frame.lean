import RubyTree.Proofs.Heredoc.Placement

/-!
# Nothing but heredoc bodies moves

A walk takes bodies out of a tree, puts a marker where each of them was, and puts the extracted
bodies in elsewhere. Nothing else changes. So the finished tree, once the bodies placed in it are
taken out again, is the original tree with its markers: every other node has the kind, the label,
the tokens and the order of children that it had.

Both sides are read off a tree without a look into a body, just as the walk goes.

Results:

* `withoutBodies_walk`: what a walk does to a tree apart from the bodies that it places.
* `withoutBodies_relocate`: the finished tree without its bodies.
-/

namespace RubyTree.Heredoc

/-! ## Specification -/

mutual

/-- The tree with an empty marker, under the same label, in the place of each heredoc body. -/
def marked : Node → Node
  | ⟨kind, field, children⟩ =>
    if kind = .heredocBody then ⟨.heredocBeginning, field, []⟩
    else ⟨kind, field, markedAmong children⟩

/-- Children with markers in the place of bodies. -/
def markedAmong : List (Child Node) → List (Child Node)
  | [] => []
  | .token text :: children => .token text :: markedAmong children
  | .node child :: children => .node (marked child) :: markedAmong children

end

mutual

/-- The tree without the heredoc bodies below its root. -/
def withoutBodies : Node → Node
  | ⟨kind, field, children⟩ => ⟨kind, field, withoutBodiesAmong children⟩

/-- Children without the heredoc bodies among them and below them. -/
def withoutBodiesAmong : List (Child Node) → List (Child Node)
  | [] => []
  | .token text :: children => .token text :: withoutBodiesAmong children
  | .node child :: children =>
    if child.kind = .heredocBody then withoutBodiesAmong children
    else .node (withoutBodies child) :: withoutBodiesAmong children

end

/-! ## Lists of children -/

theorem withoutBodiesAmong_append (front back : List (Child Node)) :
    withoutBodiesAmong (front ++ back) = withoutBodiesAmong front ++ withoutBodiesAmong back := by
  induction front with
  | nil => rfl
  | cons child front ih =>
    cases child with
    | token text => simp only [List.cons_append, withoutBodiesAmong, ih]
    | node child =>
      simp only [List.cons_append, withoutBodiesAmong, ih]
      split
      · rfl
      · rfl

/-- Bodies that are placed are taken out again. -/
theorem withoutBodiesAmong_map_node {pending : List Node}
    (h : ∀ body ∈ pending, body.kind = .heredocBody) :
    withoutBodiesAmong (pending.map .node) = [] := by
  induction pending with
  | nil => rfl
  | cons body pending ih =>
    obtain ⟨hbody, hrest⟩ := List.forall_mem_cons.mp h
    rw [List.map_cons, withoutBodiesAmong, if_pos hbody, ih hrest]

/-- What a walk leaves of a child is never a body, so it stays. -/
theorem withoutBodiesAmong_walk_cons (pending : List Node) (child : Node)
    (children : List (Child Node)) :
    withoutBodiesAmong (.node (walk pending child).result :: children) =
      .node (withoutBodies (walk pending child).result) :: withoutBodiesAmong children := by
  rw [withoutBodiesAmong, if_neg (kind_walk_ne pending child)]

/-! ## The walk -/

mutual

/-- Whatever bodies are pending, a walk changes nothing in a tree but the places of bodies. -/
theorem withoutBodies_walk (pending : List Node) (h : ∀ body ∈ pending, body.kind = .heredocBody) :
    (node : Node) → withoutBodies (walk pending node).result = marked node
  | ⟨kind, field, children⟩ => by
    by_cases hb : kind = .heredocBody
    · rw [walk_of_kind_eq pending field children hb, marked, if_pos hb]
      rfl
    · rw [marked, if_neg hb]
      cases hs : kind.isStatementSequence with
      | true =>
        rw [walk_of_isStatementSequence pending field children hs, withoutBodies,
          withoutBodiesAmong_append, withoutBodiesAmong_map_node h, List.nil_append,
          withoutBodiesAmong_walkStatements children]
      | false =>
        rw [walk_of_not_isStatementSequence pending field children hb hs, withoutBodies,
          withoutBodiesAmong_walkChildren pending h children]

theorem withoutBodiesAmong_walkStatements : (children : List (Child Node)) →
    withoutBodiesAmong (walkStatements children) = markedAmong children
  | [] => rfl
  | .token _ :: children => by
    rw [walkStatements, withoutBodiesAmong, markedAmong, withoutBodiesAmong_walkStatements children]
  | .node child :: children => by
    have hkinds := (bodies_walk [] (List.forall_mem_nil _) child).kinds
    rw [walkStatements, withoutBodiesAmong_walk_cons, withoutBodies_walk [] (List.forall_mem_nil _),
      withoutBodiesAmong_append, withoutBodiesAmong_map_node hkinds, List.nil_append,
      withoutBodiesAmong_walkStatements children, markedAmong]

theorem withoutBodiesAmong_walkChildren (pending : List Node)
    (h : ∀ body ∈ pending, body.kind = .heredocBody) : (children : List (Child Node)) →
    withoutBodiesAmong (walkChildren pending children).result = markedAmong children
  | [] => rfl
  | .token _ :: children => by
    rw [walkChildren, withoutBodiesAmong, markedAmong,
      withoutBodiesAmong_walkChildren pending h children]
  | .node child :: children => by
    have hkinds := (bodies_walk pending h child).kinds
    rw [walkChildren, withoutBodiesAmong_walk_cons, withoutBodies_walk pending h,
      withoutBodiesAmong_walkChildren _ hkinds children, markedAmong]

end

/-! ## The whole tree -/

/-- The finished tree without its bodies is the original tree with a marker, under the same label,
    in the place of each body: all other nodes keep their kinds, labels, tokens and order. The root
    of the finished tree is no body, so none is left once those below it are taken out. -/
theorem withoutBodies_relocate (root : Node) :
    (relocate root).result.kind ≠ .heredocBody ∧
      withoutBodies (relocate root).result = marked root :=
  ⟨kind_walk_ne [] root, withoutBodies_walk [] (List.forall_mem_nil _) root⟩

end RubyTree.Heredoc
