import Mathlib.Data.List.Basic
import RubyTree.Proofs.Attaching
import RubyTree.Rules.Operator
import RubyTree.Rules.Pattern

/-!
# Alternative patterns

`a | b | c` arrives as an expression: binary operations nested on the left. Read as a pattern it is
flat, with one child for each operand.

Specification: `alternatives`, the patterns of the operands in order. Each operand is read once, and
one that is no pattern is left out.

Results:

* `toPattern_under`: the pattern of an expression does not depend on the label of the expression.
* `ReadsAs.operation`: one operand more is one alternative more.
* `toPattern_chain`: chains of any length, and a name that is bound to such a chain.
-/

namespace RubyTree.Rules

/-! ## Labels -/

/-- The label of an expression is not part of its pattern. Where the pattern is the expression
    itself the label is still there, until the pattern is attached. -/
theorem toPattern_under (field label : Field) (node : Node) :
    (toPattern (node.under field)).map (·.under label) = (toPattern node).map (·.under label) := by
  obtain ⟨kind, own, children⟩ := node
  rw [Node.under]
  unfold toPattern
  cases kind with
  | identifier =>
    have htoken : (Node.mk .identifier field children).token? =
        (Node.mk .identifier own children).token? := rfl
    simp only [htoken]
    cases pseudoVariable? (Node.mk .identifier own children).token? with
    | none => rfl
    | some kind => rfl
  | binary =>
    have hoperator : patternOperator? ⟨.binary, field, children⟩ =
        patternOperator? ⟨.binary, own, children⟩ := rfl
    simp only [hoperator]
    cases patternOperator? ⟨.binary, own, children⟩ with
    | none => rfl
    | some operator => cases operator <;> rfl
  | _ => rfl

/-- An attached pattern does not depend on the label of the expression at all. -/
theorem called_toPattern_under (name : String) (field : Field) (node : Node) :
    (toPattern (node.under field)).toList.map (.called name) =
      (toPattern node).toList.map (Child.called name) := by
  have hpattern := congrArg (fun pattern => pattern.toList.map (Child.called name))
    (toPattern_under field .unlabeled node)
  simpa only [Option.toList_map, List.map_map, Function.comp_def, Child.called_under]
    using hpattern

theorem kind_toPattern_under (field : Field) (node : Node) :
    (toPattern (node.under field)).map (·.kind) = (toPattern node).map (·.kind) := by
  have hpattern := congrArg (Option.map (·.kind)) (toPattern_under field .unlabeled node)
  simpa only [Option.map_map, Function.comp_def, Node.kind_under] using hpattern

theorem toPattern_of_varField (field : Node) (h : field.kind = .varField) :
    toPattern field = field.firstNode? := by
  obtain ⟨kind, own, children⟩ := field
  cases h
  rfl

/-! ## Operations -/

/-- A binary operation on two nodes. -/
def operation (operator : String) (left right : Node) : Node :=
  ⟨.binary, .unlabeled, [.called "left" left, .token operator, .called "right" right]⟩

theorem binary_nodes (left : Node) (operator : Value) (right : Node) :
    binary (.node left) operator (.node right) =
      .ok (.node (operation operator.spelling left right)) := rfl

/-- Operands with an operator between them, nested on the left. -/
def chain (operator : Value) (first : Node) (rest : List Node) : Outcome Value :=
  rest.foldlM (fun left right => binary left operator (.node right)) (.node first)

theorem chain_eq (operator : Value) (first : Node) (rest : List Node) :
    chain operator first rest = .ok (.node (rest.foldl (operation operator.spelling) first)) := by
  induction rest generalizing first with
  | nil => rfl
  | cons second rest ih =>
    rw [chain, List.foldlM_cons, binary_nodes]
    exact ih (operation operator.spelling first second)

theorem toPattern_alternative (left right : Node) (field : Field) :
    toPattern ((operation "|" left right).under field) =
      some (alternative (toPattern (left.under (.named "left")))
        (toPattern (right.under (.named "right")))) := rfl

theorem toPattern_binding (left right : Node) :
    toPattern (operation "=>" left right) =
      some (binding (toPattern (left.under (.named "left")))
        (toPattern (right.under (.named "right")))) := rfl

/-! ## Chains of alternatives -/

/-- The pattern that has the patterns of all operands for its alternatives. -/
def alternatives (operands : List Node) : Node :=
  ⟨.alternativePattern, .unlabeled, (operands.filterMap toPattern).map (.called "alternatives")⟩

theorem alternative_of_kind_ne {left : Option Node}
    (h : ∀ pattern ∈ left, pattern.kind ≠ .alternativePattern) (right : Option Node) :
    alternative left right = ⟨.alternativePattern, .unlabeled,
      left.toList.map (.called "alternatives") ++ right.toList.map (.called "alternatives")⟩ := by
  unfold alternative
  cases left with
  | none => exact Node.attachAs?_eq _ _ _
  | some pattern =>
    simp only [if_neg (h pattern rfl), Node.attachAs?_eq, Node.attachAs_eq, Node.extend_ofKind]
    rfl

theorem alternative_alternatives (operands : List Node) (right : Option Node) :
    alternative (some (alternatives operands)) right =
      (alternatives operands).extend (right.toList.map (.called "alternatives")) := by
  have hkind : (alternatives operands).kind = .alternativePattern := rfl
  simp only [alternative, if_pos hkind, Node.attachAs?_eq]

/-- Under whatever label the expression stands, it is read as the pattern. -/
def ReadsAs (expression pattern : Node) : Prop :=
  ∀ field, toPattern (expression.under field) = some pattern

theorem readsAs_operation {first : Node}
    (h : ∀ pattern ∈ toPattern first, pattern.kind ≠ .alternativePattern) (second : Node) :
    ReadsAs (operation "|" first second) (alternatives [first, second]) := by
  have hleft : ∀ pattern ∈ toPattern (first.under (.named "left")),
      pattern.kind ≠ .alternativePattern := by
    intro pattern hpattern hkind
    have hkinds := kind_toPattern_under (.named "left") first
    rw [Option.mem_def.mp hpattern, Option.map_some, eq_comm, Option.map_eq_some_iff] at hkinds
    obtain ⟨plain, hplain, hsame⟩ := hkinds
    exact h plain hplain (hsame.trans hkind)
  intro field
  rw [toPattern_alternative, alternative_of_kind_ne hleft, called_toPattern_under,
    called_toPattern_under]
  simp only [alternatives, List.filterMap_eq_flatMap_toList, List.flatMap_cons, List.flatMap_nil,
    List.append_nil, List.map_append]

theorem ReadsAs.operation {tree : Node} {operands : List Node}
    (h : ReadsAs tree (alternatives operands)) (last : Node) :
    ReadsAs (operation "|" tree last) (alternatives (operands ++ [last])) := by
  intro field
  rw [toPattern_alternative, h, alternative_alternatives, called_toPattern_under]
  simp only [alternatives, List.filterMap_eq_flatMap_toList, List.flatMap_append, List.flatMap_cons,
    List.flatMap_nil, List.append_nil, List.map_append, Node.extend]

theorem ReadsAs.foldl {tree : Node} {operands : List Node} (rest : List Node)
    (h : ReadsAs tree (alternatives operands)) :
    ReadsAs (rest.foldl (Rules.operation "|") tree) (alternatives (operands ++ rest)) := by
  induction rest generalizing tree operands with
  | nil => rwa [List.append_nil]
  | cons next rest ih =>
    rw [List.append_cons]
    exact ih (h.operation next)

theorem ReadsAs.toPattern_eq {tree pattern : Node} (h : ReadsAs tree pattern) :
    toPattern tree = some pattern := by
  obtain ⟨kind, field, children⟩ := tree
  exact h field

/-- A chain of two operands or more is read as one pattern, with the pattern of each operand in
    order, unless the first operand is read as alternatives itself. A binding of a name to the chain
    has that pattern for its value, and the name is the variable and no reference to it. -/
theorem toPattern_chain (bar arrow : Value) (hbar : bar.spelling = "|")
    (harrow : arrow.spelling = "=>") {first : Node}
    (hfirst : ∀ pattern ∈ toPattern first, pattern.kind ≠ .alternativePattern)
    (second : Node) (rest : List Node) :
    ∃ tree, chain bar first (second :: rest) = .ok (.node tree) ∧
      toPattern tree = some (alternatives (first :: second :: rest)) ∧
      ∀ field name, field.kind = .varField → field.firstNode? = some name →
        ∃ bound, binary (.node tree) arrow (.node field) = .ok (.node bound) ∧
          toPattern bound = some ⟨.asPattern, .unlabeled,
            [.called "value" (alternatives (first :: second :: rest)), .called "name" name]⟩ := by
  have hreads := (readsAs_operation hfirst second).foldl rest
  refine ⟨_, chain_eq bar first (second :: rest), ?_, ?_⟩
  · rw [hbar]
    exact hreads.toPattern_eq
  · intro field name hfield hname
    refine ⟨_, binary_nodes _ arrow field, ?_⟩
    have hvariable : toPattern (field.under (.named "right")) = some name :=
      (toPattern_of_varField (field.under (.named "right")) hfield).trans hname
    rw [harrow, hbar, toPattern_binding, hvariable, List.foldl_cons, hreads]
    rfl

/-- A variable field without a name, which is no pattern, then a number, then two numbers that are
    alternatives themselves, and `n` bound to all of that. -/
theorem toPattern_chain_nested :
    let number (text : String) : Node := .leaf .integerNumber text
    let name : Node := .leaf .identifier "n"
    let inner : Node := operation "|" (number "2") (number "3")
    let pattern : Node := ⟨.alternativePattern, .unlabeled, [.called "alternatives" (number "1"),
      .called "alternatives" (alternatives [number "2", number "3"])]⟩
    (∀ pattern ∈ toPattern (.ofKind .varField), pattern.kind ≠ .alternativePattern) ∧
    ∃ tree bound, chain (.symbol "|") (.ofKind .varField) [number "1", inner] = .ok (.node tree) ∧
      toPattern tree = some pattern ∧
      binary (.node tree) (.symbol "=>") (.node ((Node.ofKind .varField).attachAs "name" name)) =
        .ok (.node bound) ∧
      toPattern bound = some ⟨.asPattern, .unlabeled,
        [.called "value" pattern, .called "name" name]⟩ := by
  intro number name inner pattern
  have hfirst : ∀ pattern ∈ toPattern (.ofKind .varField), pattern.kind ≠ .alternativePattern :=
    nofun
  obtain ⟨tree, hchain, hpattern, hbinding⟩ :=
    toPattern_chain (.symbol "|") (.symbol "=>") rfl rfl hfirst (number "1") [inner]
  obtain ⟨bound, hbinary, hbound⟩ :=
    hbinding ((Node.ofKind .varField).attachAs "name" name) (name.under (.named "name")) rfl rfl
  exact ⟨hfirst, tree, bound, hchain, hpattern.trans rfl, hbinary, hbound.trans rfl⟩

end RubyTree.Rules
