import Mathlib.Data.List.Forall2
import RubyTree.Proofs.Attaching
import RubyTree.Proofs.Parameters.Shapes

/-!
# Targets rewritten into parameters

`toParameters` replaces each node of a list by one node. A destructured target becomes a destructured
parameter around what its parts become, a target that takes the rest becomes a splat, and any other
node stays as it is. What is inside of these other nodes is not looked at, and neither is a
destructured parameter that is there already.

So a list that is looked at through its groups, destructured targets before and destructured
parameters behind the change, is nested in the same way, and at the ends of the nesting stand the
same nodes in the same order. Being attached anew, a node inside of a group loses its label.

Specification: `shape` and `leaves`, the nesting of a node and the nodes at its ends, and
`parameterOf`, what such a node becomes.

Results:

* `toParameter_toParameter`: a parameter is not changed again.
* `shape_toParameter`: the change keeps the nesting.
* `leaves_toParameter_under`: what the change makes of the nodes at the ends.
* `toParameters_rewrites`: whole lists.
* `labeledTarget_not_keepsNodes`: a node that loses its label.
-/

namespace RubyTree.Rules

/-! ## Nesting -/

/-- How nodes are nested: a single one, or a group. -/
inductive Shape where
  | single
  | group (parts : List Shape)

mutual

/-- The nesting of a node, where the nodes of one kind are groups of their nodes. -/
def shape (grouping : Kind) : Node → Shape
  | ⟨kind, _, children⟩ => if kind = grouping then .group (shapesAmong grouping children) else .single

/-- The nesting of the nodes among children. -/
def shapesAmong (grouping : Kind) : List (Child Node) → List Shape
  | [] => []
  | .token _ :: children => shapesAmong grouping children
  | .node child :: children => shape grouping child :: shapesAmong grouping children

end

mutual

/-- The nodes at the ends of the nesting, in order. -/
def leaves (grouping : Kind) : Node → List Node
  | ⟨kind, field, children⟩ =>
    if kind = grouping then leavesAmong grouping children else [⟨kind, field, children⟩]

/-- The nodes at the ends of the nesting of the nodes among children. -/
def leavesAmong (grouping : Kind) : List (Child Node) → List Node
  | [] => []
  | .token _ :: children => leavesAmong grouping children
  | .node child :: children => leaves grouping child ++ leavesAmong grouping children

end

/-- What becomes of a node that is no group: the target that takes the rest is a splat, which is
    named by the first node in it, if there is one. -/
def parameterOf (node : Node) : Node :=
  if node.kind = .restAssignment then
    ⟨.splatParameter, .unlabeled, node.firstNode?.toList.map (.called "name")⟩
  else node

section Groups

variable {grouping : Kind}

theorem shape_of_kind_ne {node : Node} (h : node.kind ≠ grouping) :
    shape grouping node = .single := by
  obtain ⟨kind, field, children⟩ := node
  exact if_neg h

theorem leaves_of_kind_ne {node : Node} (h : node.kind ≠ grouping) :
    leaves grouping node = [node] := by
  obtain ⟨kind, field, children⟩ := node
  exact if_neg h

theorem leaves_under_of_kind_ne {node : Node} (h : node.kind ≠ grouping) (field : Field) :
    leaves grouping (node.under field) = [node.under field] :=
  @leaves_of_kind_ne grouping (node.under field) h

theorem leaves_mk (field : Field) (children : List (Child Node)) :
    leaves grouping ⟨grouping, field, children⟩ = leavesAmong grouping children := if_pos rfl

theorem shape_mk (field : Field) (children : List (Child Node)) :
    shape grouping ⟨grouping, field, children⟩ = .group (shapesAmong grouping children) := if_pos rfl

theorem shape_under (field : Field) (node : Node) :
    shape grouping (node.under field) = shape grouping node := by
  obtain ⟨kind, own, children⟩ := node
  rfl

end Groups

/-! ## One node -/

theorem toParameter_of_kind_ne {node : Node} (hleft : node.kind ≠ .destructuredLeftAssignment) :
    toParameter node = parameterOf node := by
  obtain ⟨kind, field, children⟩ := node
  rw [toParameter, if_neg hleft, parameterOf]
  by_cases hrest : kind = .restAssignment
  · rw [if_pos hrest, if_pos hrest, Node.attachAs?_eq, Node.extend_ofKind]
  · rw [if_neg hrest, if_neg hrest]

theorem toParameter_mk (field : Field) (children : List (Child Node)) :
    toParameter ⟨.destructuredLeftAssignment, field, children⟩ =
      ⟨.destructuredParameter, .unlabeled, toParameterChildren children⟩ := by
  rw [toParameter, if_pos rfl]

theorem kind_parameterOf_ne {node : Node} : (parameterOf node).kind ≠ .restAssignment := by
  unfold parameterOf
  split
  · nofun
  · next hrest => exact hrest

theorem kind_parameterOf_ne_of_ne {node : Node} {kind : Kind} (h : node.kind ≠ kind)
    (hsplat : kind ≠ .splatParameter) : (parameterOf node).kind ≠ kind := by
  unfold parameterOf
  split
  · exact hsplat.symm
  · exact h

/-- What the change leaves is no target of the outermost level, and the change looks at no other
    level of it. -/
theorem toParameter_toParameter (node : Node) :
    toParameter (toParameter node) = toParameter node := by
  have hself {parameter : Node} (hleft : parameter.kind ≠ .destructuredLeftAssignment)
      (hrest : parameter.kind ≠ .restAssignment) : toParameter parameter = parameter := by
    rw [toParameter_of_kind_ne hleft, parameterOf, if_neg hrest]
  by_cases hleft : node.kind = .destructuredLeftAssignment
  · obtain ⟨kind, field, children⟩ := node
    cases hleft
    rw [toParameter_mk]
    exact hself nofun nofun
  · rw [toParameter_of_kind_ne hleft]
    exact hself (kind_parameterOf_ne_of_ne hleft nofun) kind_parameterOf_ne

/-! ## Nested targets -/

mutual

/-- A node whose groups hold no destructured parameter yet. -/
theorem isUnchanged_of_leaves : (node : Node) →
    (∀ leaf ∈ leaves .destructuredLeftAssignment node, leaf.kind ≠ .destructuredParameter) →
    isUnchanged node = true
  | ⟨kind, field, children⟩, h => by
    by_cases hleft : kind = .destructuredLeftAssignment
    · subst hleft
      rw [leaves_mk] at h
      rw [isUnchanged, areUnchanged_of_leaves children h]
      rfl
    · rw [leaves_of_kind_ne hleft] at h
      have hkind : kind ≠ .destructuredParameter := h _ (List.mem_singleton.mpr rfl)
      rw [isUnchanged, bne_iff_ne.mpr hkind, bne_iff_ne.mpr hleft]
      rfl

theorem areUnchanged_of_leaves : (children : List (Child Node)) →
    (∀ leaf ∈ leavesAmong .destructuredLeftAssignment children,
      leaf.kind ≠ .destructuredParameter) → areUnchanged children = true
  | [], _ => rfl
  | .token _ :: children, h => areUnchanged_of_leaves children h
  | .node child :: children, h => by
    rw [leavesAmong, List.forall_mem_append] at h
    rw [areUnchanged, isUnchanged_of_leaves child h.1, areUnchanged_of_leaves children h.2]
    rfl

end

/-- A node that is no group is none behind the change either. -/
theorem kind_parameterOf_ne_of_isUnchanged {node : Node} (h : isUnchanged node = true) :
    (parameterOf node).kind ≠ .destructuredParameter := by
  obtain ⟨kind, field, children⟩ := node
  rw [isUnchanged, Bool.and_eq_true, bne_iff_ne] at h
  exact kind_parameterOf_ne_of_ne h.1 nofun

mutual

/-- The change keeps the nesting. -/
theorem shape_toParameter : (node : Node) → isUnchanged node = true →
    shape .destructuredParameter (toParameter node) = shape .destructuredLeftAssignment node
  | ⟨kind, field, children⟩, h => by
    by_cases hleft : kind = .destructuredLeftAssignment
    · subst hleft
      rw [isUnchanged, Bool.and_eq_true, Bool.or_eq_true, bne_self_eq_false, or_iff_right nofun] at h
      rw [toParameter_mk, shape_mk, shape_mk, shapesAmong_toParameterChildren children h.2]
    · rw [toParameter_of_kind_ne hleft, shape_of_kind_ne (kind_parameterOf_ne_of_isUnchanged h),
        shape_of_kind_ne hleft]

theorem shapesAmong_toParameterChildren : (children : List (Child Node)) →
    areUnchanged children = true →
    shapesAmong .destructuredParameter (toParameterChildren children) =
      shapesAmong .destructuredLeftAssignment children
  | [], _ => rfl
  | .token _ :: children, h => shapesAmong_toParameterChildren children h
  | .node child :: children, h => by
    rw [areUnchanged, Bool.and_eq_true] at h
    rw [toParameterChildren, shapesAmong, shapesAmong, shape_under, shape_toParameter child h.1,
      shapesAmong_toParameterChildren children h.2]

end

mutual

/-- What becomes of the nodes at the ends, once the changed node is attached without a label. -/
theorem leaves_toParameter_under : (node : Node) → isUnchanged node = true →
    leaves .destructuredParameter ((toParameter node).under .unlabeled) =
      (leaves .destructuredLeftAssignment node).map fun leaf => (parameterOf leaf).under .unlabeled
  | ⟨kind, field, children⟩, h => by
    by_cases hleft : kind = .destructuredLeftAssignment
    · subst hleft
      rw [isUnchanged, Bool.and_eq_true, Bool.or_eq_true, bne_self_eq_false, or_iff_right nofun] at h
      rw [toParameter_mk, leaves_mk]
      exact leavesAmong_toParameterChildren children h.2
    · have hkind := kind_parameterOf_ne_of_isUnchanged h
      rw [toParameter_of_kind_ne hleft, leaves_under_of_kind_ne hkind, leaves_of_kind_ne hleft,
        List.map_singleton]

theorem leavesAmong_toParameterChildren : (children : List (Child Node)) →
    areUnchanged children = true →
    leavesAmong .destructuredParameter (toParameterChildren children) =
      (leavesAmong .destructuredLeftAssignment children).map fun leaf =>
        (parameterOf leaf).under .unlabeled
  | [], _ => rfl
  | .token _ :: children, h => leavesAmong_toParameterChildren children h
  | .node child :: children, h => by
    rw [areUnchanged, Bool.and_eq_true] at h
    rw [toParameterChildren, leavesAmong, leavesAmong, List.map_append,
      leaves_toParameter_under child h.1, leavesAmong_toParameterChildren children h.2]

end

/-! ## Lists -/

/-- A parameter is what a target is rewritten into: no target is left in it through its groups, it
    is nested as the target, and it holds what the nodes at the ends of the nesting become. Inside
    of a group these are without labels. -/
structure Rewritten (target parameter : Node) : Prop where
  kind_part : ∀ part, PartOf part parameter →
    part.kind ≠ .destructuredLeftAssignment ∧ part.kind ≠ .restAssignment
  shape_eq : shape .destructuredParameter parameter = shape .destructuredLeftAssignment target
  leaves_eq : leaves .destructuredParameter parameter =
    if target.kind = .destructuredLeftAssignment then
      (leaves .destructuredLeftAssignment target).map fun leaf =>
        (parameterOf leaf).under .unlabeled
    else [parameterOf target]

theorem rewritten_toParameter {node : Node} (h : isUnchanged node = true) :
    Rewritten node (toParameter node) where
  kind_part part hpart := by
    have hparameter := isParameter_of_partOf hpart (isParameter_toParameter node h)
    exact ((isParameter_iff part).mp hparameter).1
  shape_eq := shape_toParameter node h
  leaves_eq := by
    split
    · next hleft =>
      have hleaves := leaves_toParameter_under node h
      obtain ⟨kind, field, children⟩ := node
      cases hleft
      exact hleaves
    · next hleft =>
      rw [toParameter_of_kind_ne hleft, leaves_of_kind_ne (kind_parameterOf_ne_of_isUnchanged h)]

/-- Every list is changed node by node, and changing it again changes nothing. If no destructured
    parameter is in its groups, which goes without saying if none is in the list at all, each node
    is rewritten completely. -/
theorem toParameters_rewrites :
    (∀ nodes, (toParameters nodes).length = nodes.length ∧
      List.Forall₂ (fun node parameter => toParameters [node] = [parameter]) nodes
        (toParameters nodes) ∧
      toParameters (toParameters nodes) = toParameters nodes) ∧
    ∀ nodes, (∀ node ∈ nodes, ∀ leaf ∈ leaves .destructuredLeftAssignment node,
        leaf.kind ≠ .destructuredParameter) →
      List.Forall₂ Rewritten nodes (toParameters nodes) := by
  refine ⟨fun nodes => ⟨length_toParameters nodes, ?_, ?_⟩, fun nodes h => ?_⟩
  · rw [toParameters, List.forall₂_map_right_iff, List.forall₂_same]
    exact fun _ _ => rfl
  · rw [toParameters, toParameters, List.map_map]
    exact List.map_congr_left fun node _ => toParameter_toParameter node
  · rw [toParameters, List.forall₂_map_right_iff, List.forall₂_same]
    exact fun node hnode => rewritten_toParameter (isUnchanged_of_leaves node (h node hnode))

/-- The targets `((a, *b), *), c`. -/
def nestedTargetNodes : List Node :=
  [⟨.destructuredLeftAssignment, .unlabeled,
    [.plain ⟨.destructuredLeftAssignment, .unlabeled,
      [.plain (.leaf .identifier "a"),
        .plain (.around .restAssignment (some (.leaf .identifier "b")))]⟩,
      .plain (.ofKind .restAssignment)]⟩,
    .leaf .identifier "c"]

theorem toParameters_rewrites_nested :
    (∀ node ∈ nestedTargetNodes, ∀ leaf ∈ leaves .destructuredLeftAssignment node,
      leaf.kind ≠ .destructuredParameter) ∧
    List.Forall₂ Rewritten nestedTargetNodes
      [⟨.destructuredParameter, .unlabeled,
        [.plain ⟨.destructuredParameter, .unlabeled,
          [.plain (.leaf .identifier "a"),
            .plain ⟨.splatParameter, .unlabeled, [.called "name" (.leaf .identifier "b")]⟩]⟩,
          .plain (.ofKind .splatParameter)]⟩,
        .leaf .identifier "c"] := by
  have hnone : ∀ node ∈ nestedTargetNodes, ∀ leaf ∈ leaves .destructuredLeftAssignment node,
      leaf.kind ≠ .destructuredParameter := by decide
  exact ⟨hnone, toParameters_rewrites.2 nestedTargetNodes hnone⟩

/-! ## Labels -/

/-- What the nodes at the ends become are the nodes at the ends of what the list becomes, labels
    and all. -/
def KeepsNodes (nodes : List Node) : Prop :=
  (toParameters nodes).flatMap (leaves .destructuredParameter) =
    (nodes.flatMap (leaves .destructuredLeftAssignment)).map parameterOf

/-- A destructured target around a node that is called `name`. -/
def labeledTarget : Node :=
  ⟨.destructuredLeftAssignment, .unlabeled, [.called "name" (.leaf .identifier "a")]⟩

/-- The node inside is held without its label, though nothing in the list is a destructured
    parameter. -/
theorem labeledTarget_not_keepsNodes :
    (∀ leaf ∈ leaves .destructuredLeftAssignment labeledTarget,
      leaf.kind ≠ .destructuredParameter) ∧
    ¬ KeepsNodes [labeledTarget] ∧
    toParameters [labeledTarget] =
      [⟨.destructuredParameter, .unlabeled, [.plain (.leaf .identifier "a")]⟩] := by
  refine ⟨by decide, ?_, rfl⟩
  unfold KeepsNodes
  decide

end RubyTree.Rules
