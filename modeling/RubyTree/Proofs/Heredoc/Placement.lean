import RubyTree.Proofs.Heredoc.Order
import RubyTree.Replay

/-!
# Where heredoc bodies stand in a finished tree

In a finished tree every heredoc body should stand right inside a sequence of statements. The walk
brings about this much: each body that it meets and finds a sequence for is placed so. It does not
look into a body, however, and a heredoc may be written inside an interpolation of another one.
What is inside a body travels with it as it is.

So the law holds of a finished tree exactly when it holds inside each of the payloads placed in it,
`bodiesPlaced_relocate_iff`. A body inside the interpolation of another body breaks it.

Results:

* `bodiesPlaced_iff`: the law about all occurrences in a tree is decided by recursion over it.
* `bodiesPlaced_relocate_iff`: when the law holds of a finished tree.
-/

namespace RubyTree.Heredoc

/-! ## The law -/

/-- An occurrence of a node in a tree, the root included. -/
inductive Occurs : Node → Node → Prop where
  | here {node : Node} : Occurs node node
  | inside {node child root : Node} : child ∈ root.nodes → Occurs node child → Occurs node root

/-- Wherever a heredoc body is a child in a tree, its parent is a sequence of statements. -/
def BodiesPlaced (root : Node) : Prop :=
  ∀ parent, Occurs parent root → ∀ body ∈ parent.nodes, body.kind = .heredocBody →
    parent.kind.isStatementSequence = true

mutual

/-- `BodiesPlaced`, decided by recursion over a tree. -/
def settled : Node → Bool
  | ⟨kind, _, children⟩ => settledAmong kind.isStatementSequence children

/-- The law for children, where `places` says that bodies may stand among them. -/
def settledAmong (places : Bool) : List (Child Node) → Bool
  | [] => true
  | .token _ :: children => settledAmong places children
  | .node child :: children =>
    (places || child.kind != .heredocBody) && settled child && settledAmong places children

end

theorem settledAmong_append (places : Bool) (front back : List (Child Node)) :
    settledAmong places (front ++ back) =
      (settledAmong places front && settledAmong places back) := by
  induction front with
  | nil => rfl
  | cons child front ih =>
    cases child with
    | token text => simpa only [List.cons_append, settledAmong] using ih
    | node child => simp only [List.cons_append, settledAmong, ih, Bool.and_assoc]

theorem settledAmong_map_node (nodes : List Node) :
    settledAmong true (nodes.map .node) = nodes.all settled := by
  induction nodes with
  | nil => rfl
  | cons node nodes ih => simp only [List.map_cons, settledAmong, List.all_cons, ih, Bool.true_or,
      Bool.true_and]

theorem settledAmong_iff (places : Bool) (children : List (Child Node)) :
    settledAmong places children = true ↔ ∀ child ∈ children.filterMap Child.node?,
      (child.kind = .heredocBody → places = true) ∧ settled child = true := by
  induction children with
  | nil => simp [settledAmong]
  | cons child children ih =>
    cases child with
    | token text => simpa [settledAmong, Child.node?] using ih
    | node child =>
      have hplace : (places || child.kind != .heredocBody) = true ↔
          (child.kind = .heredocBody → places = true) := by
        cases places <;> simp
      simp only [settledAmong, Bool.and_eq_true, hplace, ih, Child.node?, List.filterMap_cons,
        List.forall_mem_cons]

theorem settled_iff (node : Node) : settled node = true ↔ ∀ child ∈ node.nodes,
    (child.kind = .heredocBody → node.kind.isStatementSequence = true) ∧ settled child = true := by
  obtain ⟨kind, field, children⟩ := node
  rw [settled]
  exact settledAmong_iff kind.isStatementSequence children

theorem bodiesPlaced_of_settled {root : Node} (h : settled root = true) : BodiesPlaced root := by
  intro parent hparent
  induction hparent with
  | here => exact fun body hbody => ((settled_iff _).mp h body hbody).1
  | inside hchild _ ih => exact ih ((settled_iff _).mp h _ hchild).2

theorem BodiesPlaced.child {root child : Node} (h : BodiesPlaced root)
    (hchild : child ∈ root.nodes) :
    (child.kind = .heredocBody → root.kind.isStatementSequence = true) ∧ BodiesPlaced child :=
  ⟨h root .here child hchild, fun parent hparent => h parent (.inside hchild hparent)⟩

mutual

theorem settled_of_bodiesPlaced : (root : Node) → BodiesPlaced root → settled root = true
  | ⟨kind, field, children⟩, h => by
    rw [settled]
    exact settledAmong_of_bodiesPlaced _ children fun child hchild => h.child hchild

theorem settledAmong_of_bodiesPlaced (places : Bool) : (children : List (Child Node)) →
    (∀ child ∈ children.filterMap Child.node?,
      (child.kind = .heredocBody → places = true) ∧ BodiesPlaced child) →
    settledAmong places children = true
  | [], _ => rfl
  | .token _ :: children, h => by
    rw [settledAmong]
    exact settledAmong_of_bodiesPlaced places children (by simpa [Child.node?] using h)
  | .node child :: children, h => by
    have hall := h
    simp only [Child.node?, List.filterMap_cons, List.forall_mem_cons] at hall
    obtain ⟨⟨hplace, hchild⟩, hrest⟩ := hall
    have hdeep := settled_of_bodiesPlaced child hchild
    have hback := settledAmong_of_bodiesPlaced places children hrest
    simp only [settledAmong, hdeep, hback, Bool.and_true]
    cases places <;> simp_all

end

theorem bodiesPlaced_iff (root : Node) : BodiesPlaced root ↔ settled root = true :=
  ⟨settled_of_bodiesPlaced root, bodiesPlaced_of_settled⟩

/-! ## The walk -/

theorem kind_walk_ne (pending : List Node) (node : Node) :
    (walk pending node).result.kind ≠ .heredocBody := by
  obtain ⟨kind, field, children⟩ := node
  by_cases hb : kind = .heredocBody
  · rw [walk_of_kind_eq pending field children hb]
    exact nofun
  · cases hs : kind.isStatementSequence with
    | true => rwa [walk_of_isStatementSequence pending field children hs]
    | false => rwa [walk_of_not_isStatementSequence pending field children hb hs]

mutual

/-- After a walk the law can only fail inside a body. -/
theorem settled_walk (pending : List Node) (h : ∀ body ∈ pending, body.kind = .heredocBody) :
    (node : Node) →
    settled (walk pending node).result = (bodies (walk pending node).result).all settled
  | ⟨kind, field, children⟩ => by
    by_cases hb : kind = .heredocBody
    · rw [walk_of_kind_eq pending field children hb]
      rfl
    · cases hs : kind.isStatementSequence with
      | true =>
        rw [walk_of_isStatementSequence pending field children hs]
        simp only [settled, bodies, if_neg hb, hs]
        rw [settledAmong_append, settledAmong_map_node, settledAmong_walkStatements children,
          bodiesAmong_append, bodiesAmong_map_node h, List.all_append]
      | false =>
        rw [walk_of_not_isStatementSequence pending field children hb hs]
        simp only [settled, bodies, if_neg hb, hs]
        exact settledAmong_walkChildren pending h children

theorem settledAmong_walkStatements : (children : List (Child Node)) →
    settledAmong true (walkStatements children) =
      (bodiesAmong (walkStatements children)).all settled
  | [] => rfl
  | .token _ :: children => by
    simpa only [walkStatements, settledAmong, bodiesAmong] using
      settledAmong_walkStatements children
  | .node child :: children => by
    have hkinds := (bodies_walk [] (by simp) child).kinds
    simp only [walkStatements, settledAmong, bodiesAmong, Bool.true_or, Bool.true_and]
    rw [settledAmong_append, settledAmong_map_node, settledAmong_walkStatements children,
      settled_walk [] (by simp) child, bodiesAmong_append, bodiesAmong_map_node hkinds,
      List.all_append, List.all_append]

theorem settledAmong_walkChildren (pending : List Node)
    (h : ∀ body ∈ pending, body.kind = .heredocBody) : (children : List (Child Node)) →
    settledAmong false (walkChildren pending children).result =
      (bodiesAmong (walkChildren pending children).result).all settled
  | [] => rfl
  | .token _ :: children => by
    simpa only [walkChildren, settledAmong, bodiesAmong] using
      settledAmong_walkChildren pending h children
  | .node child :: children => by
    have hkinds := (bodies_walk pending h child).kinds
    have hne : ((walk pending child).result.kind != .heredocBody) = true :=
      bne_iff_ne.mpr (kind_walk_ne pending child)
    simp only [walkChildren, settledAmong, bodiesAmong, hne, Bool.or_true, Bool.true_and]
    rw [settled_walk pending h child, settledAmong_walkChildren _ hkinds children, List.all_append]

end

/-! ## The finished tree -/

/-- In a finished tree the law holds exactly when it holds inside the payload of each body that was
    placed. The bodies that were not are the last ones, and there are none of them when a sequence
    of statements is at the root. -/
theorem bodiesPlaced_relocate_iff (root : Node) :
    ∃ placed left, bodies root = placed ++ left ∧ (relocate root).pending = left.map extract ∧
      (root.kind.isStatementSequence = true → left = []) ∧
      (relocate root).result.kind ≠ .heredocBody ∧
      (BodiesPlaced (relocate root).result ↔ ∀ body ∈ placed, BodiesPlaced (extract body)) := by
  have horder := (bodies_walk [] (by simp) root).order
  rw [List.nil_append] at horder
  obtain ⟨placed, left, hsplit, hplaced, hleft⟩ := List.map_eq_append_iff.mp horder.symm
  refine ⟨placed, left, hsplit, hleft.symm, fun hs => ?_, kind_walk_ne [] root, ?_⟩
  · have hnone : (walk [] root).pending = [] := relocate_of_isStatementSequence hs
    rw [hnone] at hleft
    exact List.map_eq_nil_iff.mp hleft
  · simp only [bodiesPlaced_iff, relocate]
    rw [settled_walk [] (by simp) root, ← hplaced, List.all_map, List.all_eq_true]
    rfl

/-- A heredoc whose interpolation is a `begin` around an array that holds another heredoc. -/
def nestedHeredocs : List Event := [
  { name := "heredoc_beg", args := [.text "<<A"] },
  { name := "string_content" },
  { name := "heredoc_beg", args := [.text "<<B"] },
  { name := "string_content" },
  { name := "string_literal", args := [.ref 3] },
  { name := "array", args := [.list [.ref 4]] },
  { name := "begin", args := [.list [.ref 5]] },
  { name := "string_embexpr", args := [.list [.ref 6]] },
  { name := "string_add", args := [.ref 1, .ref 7] },
  { name := "string_literal", args := [.ref 8] },
  { name := "program", args := [.list [.ref 9]] }]

/-- The inner body stays in the array, although the `begin` around it is a sequence of
    statements. -/
theorem nestedHeredocs_not_bodiesPlaced : ∃ normalized tree,
    replay nestedHeredocs = .ok normalized ∧ normalized.tree = some tree ∧ ¬ BodiesPlaced tree := by
  have hcheck : (replay nestedHeredocs).toOption.any
      (fun normalized => normalized.tree.any fun tree => !settled tree) = true := by decide +kernel
  cases hrun : replay nestedHeredocs with
  | error cause =>
    rw [hrun] at hcheck
    cases hcheck
  | ok normalized =>
    rw [hrun] at hcheck
    obtain ⟨tree, htree, hsettled⟩ : ∃ tree, normalized.tree = some tree ∧ (!settled tree) = true :=
      (Option.any_eq_true _ _).mp hcheck
    refine ⟨normalized, tree, rfl, htree, fun hplaced => ?_⟩
    rw [(bodiesPlaced_iff tree).mp hplaced] at hsettled
    cases hsettled

end RubyTree.Heredoc
