import RubyTree.Heredoc

/-!
# No heredoc body is lost, doubled or overtaken

`bodies` lists the heredoc bodies of a tree in pre-order. A body is not looked into, just as the
walk does not look into one.

The walk hands a queue of pending bodies from node to node: a sequence of statements empties it in
front of its children, and starts with an empty one for each child. What stays invariant is the list
made of the bodies already placed and those still pending, `bodies_walk`.

Results:

* `bodies_relocate`: the bodies of the finished tree, and after them those without a place, are the
  extracted bodies of the original tree in their order.
-/

namespace RubyTree.Heredoc

/-! ## The bodies of a tree -/

mutual

/-- The heredoc bodies of a tree in pre-order. What is inside a body does not count. -/
def bodies : Node → List Node
  | ⟨kind, field, children⟩ =>
    if kind = .heredocBody then [⟨kind, field, children⟩] else bodiesAmong children

/-- The heredoc bodies under children, from left to right. -/
def bodiesAmong : List (Child Node) → List Node
  | [] => []
  | .token _ :: children => bodiesAmong children
  | .node child :: children => bodies child ++ bodiesAmong children

end

theorem bodies_of_kind_eq {node : Node} (h : node.kind = .heredocBody) : bodies node = [node] := by
  obtain ⟨kind, field, children⟩ := node
  simp only at h
  rw [bodies, if_pos h]

theorem bodiesAmong_append (front back : List (Child Node)) :
    bodiesAmong (front ++ back) = bodiesAmong front ++ bodiesAmong back := by
  induction front with
  | nil => rfl
  | cons child front ih =>
    cases child with
    | token text => simpa only [List.cons_append, bodiesAmong] using ih
    | node child => simp only [List.cons_append, bodiesAmong, ih, List.append_assoc]

/-- Bodies that stand on their own are their own bodies. -/
theorem bodiesAmong_map_node {pending : List Node}
    (h : ∀ body ∈ pending, body.kind = .heredocBody) :
    bodiesAmong (pending.map .node) = pending := by
  induction pending with
  | nil => rfl
  | cons body pending ih =>
    rw [List.map_cons, bodiesAmong, bodies_of_kind_eq (h body List.mem_cons_self),
      ih fun other ho => h other (List.mem_cons_of_mem _ ho)]
    rfl

theorem kind_extract (body : Node) : (extract body).kind = .heredocBody := rfl

/-! ## The walk -/

section Kinds

variable (pending : List Node) {kind : Kind} (field : Field) (children : List (Child Node))

theorem walk_of_kind_eq (h : kind = .heredocBody) : walk pending ⟨kind, field, children⟩ =
    ⟨marker ⟨kind, field, children⟩, pending ++ [extract ⟨kind, field, children⟩]⟩ := by
  rw [walk, if_pos h]

theorem walk_of_isStatementSequence (h : kind.isStatementSequence = true) :
    walk pending ⟨kind, field, children⟩ =
      ⟨⟨kind, field, pending.map .node ++ walkStatements children⟩, []⟩ := by
  have hb : kind ≠ .heredocBody := by rintro rfl; cases h
  rw [walk, if_neg hb, if_pos h]

theorem walk_of_not_isStatementSequence (hb : kind ≠ .heredocBody)
    (hs : kind.isStatementSequence = false) : walk pending ⟨kind, field, children⟩ =
      ⟨⟨kind, field, (walkChildren pending children).result⟩,
        (walkChildren pending children).pending⟩ := by
  rw [walk, if_neg hb, if_neg (by rw [hs]; exact Bool.false_ne_true)]

end Kinds

/-- What a walk keeps: the bodies it has placed, then those pending, are the bodies it was handed,
    then those it has met. -/
structure Conserves (handed met placed pending : List Node) : Prop where
  order : placed ++ pending = handed ++ met.map extract
  kinds : ∀ body ∈ pending, body.kind = .heredocBody

theorem Conserves.of_order {handed met placed pending : List Node}
    (hhanded : ∀ body ∈ handed, body.kind = .heredocBody)
    (horder : placed ++ pending = handed ++ met.map extract) :
    Conserves handed met placed pending := by
  refine ⟨horder, fun body hbody => ?_⟩
  have hmem : body ∈ handed ++ met.map extract := horder ▸ List.mem_append_right _ hbody
  rcases List.mem_append.mp hmem with hin | hin
  · exact hhanded body hin
  · obtain ⟨source, -, rfl⟩ := List.mem_map.mp hin
    exact kind_extract source

mutual

theorem bodies_walk (pending : List Node) (h : ∀ body ∈ pending, body.kind = .heredocBody) :
    (node : Node) → Conserves pending (bodies node) (bodies (walk pending node).result)
      (walk pending node).pending
  | ⟨kind, field, children⟩ => by
    apply Conserves.of_order h
    by_cases hb : kind = .heredocBody
    · have hself : bodies ⟨kind, field, children⟩ = [⟨kind, field, children⟩] :=
        bodies_of_kind_eq hb
      rw [walk_of_kind_eq pending field children hb, hself]
      rfl
    · cases hs : kind.isStatementSequence with
      | true =>
        -- the queue is emptied in front of the children
        rw [walk_of_isStatementSequence pending field children hs]
        simp only [bodies, if_neg hb, List.append_nil]
        rw [bodiesAmong_append, bodiesAmong_map_node h, bodiesAmong_walkStatements children]
      | false =>
        rw [walk_of_not_isStatementSequence pending field children hb hs]
        simp only [bodies, if_neg hb]
        exact (bodiesAmong_walkChildren pending h children).order

theorem bodiesAmong_walkStatements : (children : List (Child Node)) →
    bodiesAmong (walkStatements children) = (bodiesAmong children).map extract
  | [] => rfl
  | .token _ :: children => by
    simpa only [walkStatements, bodiesAmong] using bodiesAmong_walkStatements children
  | .node child :: children => by
    have hchild := bodies_walk [] (by simp) child
    have horder := hchild.order
    rw [List.nil_append] at horder
    simp only [walkStatements, bodiesAmong]
    rw [bodiesAmong_append, bodiesAmong_map_node hchild.kinds, bodiesAmong_walkStatements children,
      ← List.append_assoc, horder, List.map_append]

theorem bodiesAmong_walkChildren (pending : List Node)
    (h : ∀ body ∈ pending, body.kind = .heredocBody) : (children : List (Child Node)) →
    Conserves pending (bodiesAmong children) (bodiesAmong (walkChildren pending children).result)
      (walkChildren pending children).pending
  | [] => ⟨by simp [walkChildren, bodiesAmong], h⟩
  | .token _ :: children => by
    simpa only [walkChildren, bodiesAmong] using bodiesAmong_walkChildren pending h children
  | .node child :: children => by
    have hchild := bodies_walk pending h child
    have hrest := bodiesAmong_walkChildren _ hchild.kinds children
    apply Conserves.of_order h
    simp only [walkChildren, bodiesAmong]
    rw [List.append_assoc, hrest.order, ← List.append_assoc, hchild.order, List.map_append,
      List.append_assoc]

end

/-! ## The whole tree -/

/-- The bodies of the finished tree, followed by those for which no sequence of statements was
    found, are the extracted bodies of the original tree in pre-order. A sequence of statements at
    the root leaves none without a place. -/
theorem bodies_relocate (root : Node) :
    bodies (relocate root).result ++ (relocate root).pending = (bodies root).map extract ∧
      (root.kind.isStatementSequence = true → (relocate root).pending = []) := by
  have h := bodies_walk [] (by simp) root
  refine ⟨?_, relocate_of_isStatementSequence⟩
  unfold relocate
  rw [h.order, List.nil_append]

end RubyTree.Heredoc
