import RubyTree.Proofs.Weight.Statement
import RubyTree.Rules.Assignment
import RubyTree.Rules.Call
import RubyTree.Rules.Hash
import RubyTree.Rules.Number
import RubyTree.Rules.Quoted
import RubyTree.Rules.Token

/-!
# Weights inside expressions

What the rules for numbers, operators, literals, hashes, assignments and calls yield weighs no more
than their arguments do. The nodes that stand for a keyword or a number weigh nothing.
-/

namespace RubyTree.Rules

open Node (total total_nodes_le total_firstNode?_le)
open Value (weightAll weighs_asNode weighs_asNode? weighs_asNodes weighs_asList)

variable (scale : Scale)

/-! ## Tokens and numbers -/

theorem weight_keywordNode (keyword : String) : (keywordNode keyword).weight scale = 0 := by
  unfold keywordNode
  split <;> grind

theorem weight_applied (operator : String) (operand : Option Node) :
    (applied operator operand).weight scale = total scale operand.toList := by
  unfold applied
  grind

theorem weight_signed {kind : Kind} (h : kind.isScanned = false) (text : List Char) :
    (signed kind text).weight scale = 0 := by
  unfold signed
  split
  · rw [weight_applied]
    grind
  · grind

theorem weight_number (text : List Char) : (number text).weight scale = 0 := by
  unfold number
  split
  · exact weight_signed scale rfl text
  · exact weight_signed scale rfl text

theorem weight_wrapNumber_le {kind : Kind} (h : kind.isScanned = false) (number : Node) :
    (wrapNumber kind number).weight scale ≤ number.weight scale := by
  unfold wrapNumber
  split
  · grind [weight_applied, total_firstNode?_le]
  · grind

theorem weight_rationalNumber (text : List Char) : (rationalNumber text).weight scale = 0 :=
  Nat.le_zero.mp (weight_number scale text.dropLast ▸ weight_wrapNumber_le scale rfl _)

theorem weight_imaginaryNumber (text : List Char) : (imaginaryNumber text).weight scale = 0 := by
  refine Nat.le_zero.mp (Nat.le_trans (weight_wrapNumber_le scale rfl _) ?_)
  split
  · exact Nat.le_of_eq (weight_rationalNumber scale _)
  · exact Nat.le_of_eq (weight_number scale _)

/-! ## Operators, names and groups -/

theorem weighs_apply (operator : String) (operand : Option Node) :
    (apply operator operand).Yields fun value =>
      value.weight scale ≤ total scale operand.toList := by
  refine .after fun context => ?_
  split
  · exact .after fun _ => .pure (by grind [weight_applied, group])
  · exact .pure (by grind [weight_applied])

theorem weighs_unary (operator operand : Value) :
    (unary operator operand).Yields fun value =>
      value.weight scale ≤ operator.weight scale + operand.weight scale :=
  .read (weighs_asNode? scale _ operand) fun node hnode =>
    (weighs_apply scale _ node).imp fun _ h => by omega

theorem weighs_defined (operand : Value) :
    (defined operand).Yields fun value => value.weight scale ≤ operand.weight scale :=
  .read (weighs_asNode? scale _ operand) fun node hnode =>
    (weighs_apply scale _ node).imp fun _ h => Nat.le_trans h hnode

theorem weight_ungroup_le (node : Node) : (ungroup node).weight scale ≤ node.weight scale := by
  unfold ungroup
  split
  · split
    · next inner rest hdetach =>
      have hparts : inner.weight scale + rest.weight scale ≤ node.weight scale :=
        Node.weight_detachLast?_le hdetach
      grind [total_firstNode?_le]
    · exact Nat.le_refl _
  · exact Nat.le_refl _

theorem total_mapLast_le {change : Node → Node}
    (h : ∀ node, (change node).weight scale ≤ node.weight scale) (nodes : List Node) :
    total scale (mapLast change nodes) ≤ total scale nodes := by
  rcases nodes.eq_nil_or_concat with rfl | ⟨init, last, rfl⟩
  · exact Nat.le_refl _
  · rw [List.concat_eq_append, mapLast_concat, Node.total_append, Node.total_append,
      Node.total_singleton, Node.total_singleton]
    exact Nat.add_le_add_left (h last) _

theorem weighs_paren (contents : Value) :
    (paren contents).Yields fun value => value.weight scale ≤ contents.weight scale := by
  refine .after fun context => .read (weighs_asNodes scale _ contents) fun nodes hnodes => .pure ?_
  have hlast := total_mapLast_le scale (weight_ungroup_le scale) nodes
  split
  · grind
  · grind

theorem weighs_binary (left operator right : Value) :
    (binary left operator right).Yields fun value =>
      value.weight scale ≤ left.weight scale + operator.weight scale + right.weight scale :=
  (weighs_asNode? scale _ left).bind fun _ hleft =>
    (weighs_asNode? scale _ right).bind fun _ hright => .ok (by grind)

theorem weighs_range (first last : Value) :
    (range first last).Yields fun value =>
      value.weight scale ≤ first.weight scale + last.weight scale :=
  (weighs_asNode? scale _ first).bind fun _ hfirst =>
    (weighs_asNode? scale _ last).bind fun _ hlast => .ok (by grind)

theorem weighs_constantPath (scope name : Value) :
    (constantPath scope name).Yields fun value =>
      value.weight scale ≤ scope.weight scale + name.weight scale :=
  (weighs_asNode? scale _ scope).bind fun _ hscope =>
    (weighs_asNode? scale _ name).bind fun _ hname => .ok (by grind)

theorem weighs_topConstant (name : Value) :
    (topConstant name).Yields fun value => value.weight scale ≤ name.weight scale :=
  (weighs_asNode? scale _ name).bind fun _ hname => .ok (by grind)

/-! ## Quoted literals -/

theorem total_splitContent (context : Context) (text : String) :
    total scale (Literal.splitContent context text) = 0 := by
  unfold Literal.splitContent
  split
  · grind
  · rw [Literal.splitEscapes, total, List.map_map]
    refine List.sum_eq_zero fun held hheld => ?_
    obtain ⟨piece, -, rfl⟩ := List.mem_map.mp hheld
    cases piece with
    | content text => exact Node.weight_leaf _ _
    | escape text => exact Node.weight_leaf _ _

theorem weightAll_contentParts (context : Context) (part : Value) :
    weightAll scale (Literal.contentParts context part) = part.weight scale := by
  unfold Literal.contentParts
  split
  · rw [Value.weightAll_map_node, total_splitContent]
    rfl
  · grind

theorem weighs_stringAdd (string part : Value) :
    (stringAdd string part).Yields fun value =>
      value.weight scale ≤ string.weight scale + part.weight scale := by
  refine .after fun context => .read (weighs_asNode scale _ string) fun node hnode => ?_
  split
  · exact .pure (by grind [total_splitContent])
  · exact .read (weighs_asNode? scale _ part) fun _ hpart => .pure (by grind)

theorem weighs_stringConcat (left right : Value) :
    (stringConcat left right).Yields fun value =>
      value.weight scale ≤ left.weight scale + right.weight scale := by
  refine (weighs_asNode scale _ left).bind fun left hleft =>
    (weighs_asNode? scale _ right).bind fun right hright => .ok ?_
  split
  · grind
  · grind

theorem weighs_interpolation (statements : Value) :
    (interpolation statements).Yields fun value => value.weight scale ≤ statements.weight scale :=
  (weighs_asNodes scale _ statements).bind fun _ hnodes => .ok (by grind)

theorem weightAmong_heredocPart_le (children : List (Child Node)) :
    Node.weightAmong scale (children.map heredocPart) ≤ Node.weightAmong scale children := by
  induction children with
  | nil => exact Nat.le_refl _
  | cons child children ih =>
    cases child with
    | token text => exact ih
    | node child =>
      rw [List.map_cons, heredocPart]
      split
      · -- the label of the child stays
        have hchild : (child.retag .heredocContent).weight scale ≤ child.weight scale :=
          Node.weight_retag_le rfl child
        exact Nat.add_le_add (Nat.add_le_add_left hchild _) ih
      · exact Nat.add_le_add_left ih _

theorem weight_closeHeredoc_le (literal : Node) :
    (closeHeredoc literal).weight scale ≤ literal.weight scale := by
  unfold closeHeredoc
  split
  · obtain ⟨kind, field, children⟩ := literal
    rw [Node.weight_attach, Node.weight, Node.weight]
    have hparts := weightAmong_heredocPart_le scale children
    grind
  · exact Nat.le_refl _

theorem weighs_stringLiteral (parts : Value) :
    (stringLiteral parts).Yields fun value => value.weight scale ≤ parts.weight scale :=
  .read (weighs_asNode scale _ parts) fun node hnode => .after fun _ =>
    .pure (Nat.le_trans (weight_closeHeredoc_le scale node) hnode)

theorem weighs_commandContent :
    commandContent.Yields fun value => value.weight scale = 0 := by
  refine .after fun context => ?_
  split
  · exact .pure (by grind)
  · exact .after fun _ => .pure (by grind)

theorem weighs_symbolLiteral (contents : Value) :
    (symbolLiteral contents).Yields fun value => value.weight scale ≤ contents.weight scale :=
  (weighs_asNode scale _ contents).bind fun _ hnode => .ok hnode

theorem weighs_addPart (what : String) (parts part : Value) :
    (addPart what parts part).Yields fun value =>
      value.weight scale ≤ parts.weight scale + part.weight scale :=
  .after fun context => .read (weighs_asList scale _ parts) fun _ hitems =>
    .pure (by grind [weightAll_contentParts])

theorem weighs_regexpLiteral (parts : Value) :
    (regexpLiteral parts).Yields fun value => value.weight scale ≤ parts.weight scale :=
  .after fun _ => .read (weighs_asNodes scale _ parts) fun _ hnodes => .pure (by grind)

theorem weighs_addWord {element : Kind} (h : element.isScanned = false) (array word : Value) :
    (addWord element array word).Yields fun value =>
      value.weight scale ≤ array.weight scale + word.weight scale :=
  (weighs_asNode scale _ array).bind fun _ harray =>
    (weighs_asNodes scale _ word).bind fun _ hparts => .ok (by grind)

theorem weighs_addRawWord {element : Kind} (h : element.isScanned = false) (array content : Value) :
    (addRawWord element array content).Yields fun value =>
      value.weight scale ≤ array.weight scale + content.weight scale :=
  .after fun context => .read (weighs_asNode scale _ array) fun _ harray =>
    .read (weighs_asNodes scale _ (.list (Literal.contentParts context content))) fun _ hparts =>
      .pure (by grind [weightAll_contentParts])

theorem weighs_array (contents : Value) :
    (array contents).Yields fun value => value.weight scale ≤ contents.weight scale := by
  unfold array
  split
  · split
    · exact .after fun _ => .pure (Nat.le_refl _)
    · exact .pure (by grind)
  · exact .read (weighs_asNodes scale _ contents) fun _ hnodes => .pure (by grind)

/-! ## Hashes -/

theorem weighs_hash (pairs : Value) :
    (hash pairs).Yields fun value => value.weight scale ≤ pairs.weight scale :=
  (weighs_asNodes scale _ pairs).bind fun _ hnodes => .ok (by grind)

theorem weighs_bareHash (pairs : Value) :
    (bareHash pairs).Yields fun value => value.weight scale ≤ pairs.weight scale :=
  (weighs_asNodes scale _ pairs).bind fun _ hnodes => .ok (by grind)

theorem weighs_pair (key value : Value) :
    (pair key value).Yields fun made => made.weight scale ≤ key.weight scale + value.weight scale :=
  (weighs_asNode? scale _ key).bind fun _ hkey =>
    (weighs_asNode? scale _ value).bind fun _ hvalue => .ok (by grind)

theorem weighs_doubleSplat (contents : Value) :
    (doubleSplat contents).Yields fun value => value.weight scale ≤ contents.weight scale :=
  (weighs_asNode? scale _ contents).bind fun _ hnode => .ok (by grind)

/-! ## Assignments -/

theorem weighs_assignedValue (value : Value) :
    (assignedValue value).Yields fun node => total scale node.toList ≤ value.weight scale := by
  unfold assignedValue
  split
  · next item => exact (weighs_asNode? scale _ item).imp fun _ h => by grind
  · exact (weighs_asNodes scale _ _).map fun _ hnodes => by grind
  · exact weighs_asNode? scale _ value

theorem weighs_assign (left right : Value) :
    (assign left right).Yields fun value =>
      value.weight scale ≤ left.weight scale + right.weight scale :=
  (weighs_asNode scale _ left).bind fun _ hleft =>
    (weighs_assignedValue scale right).bind fun _ hright =>
    .ok (by grind [total_unwrapped_le])

theorem weighs_operatorAssign (left operator right : Value) :
    (operatorAssign left operator right).Yields fun value =>
      value.weight scale ≤ left.weight scale + operator.weight scale + right.weight scale :=
  (weighs_asNode scale _ left).bind fun _ hleft =>
    (weighs_asNode? scale _ right).bind fun _ hright => .ok (by grind [total_unwrapped_le])

theorem weighs_multipleAssign (left right : Value) :
    (multipleAssign left right).Yields fun value =>
      value.weight scale ≤ left.weight scale + right.weight scale := by
  unfold multipleAssign
  dsimp only
  split
  · exact (weighs_asNodes scale _ left).bind fun _ hleft => .ok (by grind)
  · exact (weighs_assignedValue scale right).bind fun _ hright =>
      (weighs_asNodes scale _ left).bind fun _ hleft => .ok (by grind)

theorem weighs_addTarget (targets part : Value) :
    (addTarget targets part).Yields fun value =>
      value.weight scale ≤ targets.weight scale + part.weight scale :=
  (weighs_asList scale _ targets).bind fun _ hitems =>
    (weighs_asNode scale _ part).bind fun _ hpart => .ok (by grind [total_unwrapped_le])

theorem weighs_addRestTarget (targets part : Value) :
    (addRestTarget targets part).Yields fun value =>
      value.weight scale ≤ targets.weight scale + part.weight scale := by
  refine (weighs_asList scale _ targets).bind fun _ hitems =>
    (weighs_asNode? scale _ part).bind fun part hpart => .ok ?_
  have htarget := Node.total_toList_bind_le (total_unwrapped_le scale) part
  grind

theorem weighs_addTargets (targets more : Value) :
    (addTargets targets more).Yields fun value =>
      value.weight scale ≤ targets.weight scale + more.weight scale :=
  (weighs_asList scale _ targets).bind fun _ hitems =>
    (weighs_asList scale _ more).bind fun _ hmore => .ok (by grind)

theorem weighs_destructured (contents : Value) :
    (destructured contents).Yields fun value => value.weight scale ≤ contents.weight scale :=
  (weighs_asNodes scale _ contents).bind fun _ hnodes => .ok (by grind)

theorem weighs_variableField (name : Value) :
    (variableField name).Yields fun value => value.weight scale ≤ name.weight scale := by
  unfold variableField
  split
  · exact .ok (by grind)
  · exact (weighs_asNode? scale _ name).bind fun _ hname => .ok (by grind)

theorem weighs_valuesOf (arguments : Value) :
    (valuesOf arguments).Yields fun value => value.weight scale ≤ arguments.weight scale :=
  (weighs_asNodes scale _ arguments).bind fun _ hnodes => .ok (by grind)

theorem weighs_addValue (values part : Value) :
    (addValue values part).Yields fun value =>
      value.weight scale ≤ values.weight scale + part.weight scale := by
  unfold addValue
  split
  · exact (weighs_asNode? scale _ part).bind fun _ hpart => .ok (by grind)
  · exact (weighs_asList scale _ values).bind fun _ hitems => .ok (by grind)

theorem weighs_collectedValues (values : Value) :
    (collectedValues values).Yields fun items => weightAll scale items ≤ values.weight scale := by
  unfold collectedValues
  split
  · exact .ok (by grind [total_nodes_le])
  · exact weighs_asList scale _ values

theorem weighs_addSplatValue (values part : Value) :
    (addSplatValue values part).Yields fun value =>
      value.weight scale ≤ values.weight scale + part.weight scale :=
  (weighs_collectedValues scale values).bind fun _ hitems =>
    (weighs_asNode? scale _ part).bind fun _ hpart => .ok (by grind)

/-! ## Calls and their arguments -/

theorem weight_promoted_le (name : Node) : (promoted name).weight scale ≤ name.weight scale := by
  unfold promoted
  split
  · exact Node.weight_retag_le rfl name
  · exact Nat.le_refl _

theorem weighs_call (receiver operator method : Value) :
    (call receiver operator method).Yields fun value =>
      value.weight scale ≤ receiver.weight scale + operator.weight scale + method.weight scale := by
  refine (weighs_asNode? scale _ receiver).bind fun receiver hreceiver => ?_
  dsimp only
  split
  · exact .ok (by grind)
  · refine (weighs_asNode? scale _ method).bind fun method hmethod => .ok ?_
    have hname := Node.total_toList_map_le (weight_promoted_le scale) method
    grind

theorem weighs_addArguments (target arguments : Value) :
    (addArguments target arguments).Yields fun value =>
      value.weight scale ≤ target.weight scale + arguments.weight scale := by
  refine (weighs_asNode scale _ target).bind fun _ htarget => ?_
  split
  · exact .ok (by grind)
  · split
    · exact .ok (by grind)
    · exact (weighs_asNodes scale _ arguments).bind fun _ hnodes => .ok (by grind)

theorem weighs_commandCall (receiver operator method arguments : Value) :
    (commandCall receiver operator method arguments).Yields fun value =>
      value.weight scale ≤ receiver.weight scale + operator.weight scale + method.weight scale +
        arguments.weight scale :=
  (weighs_call scale receiver operator method).bind fun target htarget =>
    (weighs_addArguments scale target arguments).imp fun _ h => by omega

theorem weighs_functionCall (method : Value) :
    (functionCall method).Yields fun value => value.weight scale ≤ method.weight scale :=
  (weighs_call scale .absent (.text ".") method).imp fun _ h => by simpa using h

theorem weighs_command (method arguments : Value) :
    (command method arguments).Yields fun value =>
      value.weight scale ≤ method.weight scale + arguments.weight scale :=
  (weighs_commandCall scale .absent (.text ".") method arguments).imp fun _ h => by simpa using h

theorem weighs_elementReference (collection index : Value) :
    (elementReference collection index).Yields fun value =>
      value.weight scale ≤ collection.weight scale + index.weight scale :=
  (weighs_asNode? scale _ collection).bind fun _ hcollection =>
    (weighs_asNodes scale _ index).bind fun _ hindex => .ok (by grind)

theorem weightAll_argumentItems_le (argument : Value) :
    weightAll scale (argumentItems argument) ≤ argument.weight scale := by
  unfold argumentItems
  split
  · exact Nat.le_refl _
  · split
    · grind [total_nodes_le]
    · grind
  · grind

theorem weighs_addArgument (arguments argument : Value) :
    (addArgument arguments argument).Yields fun value =>
      value.weight scale ≤ arguments.weight scale + argument.weight scale :=
  (weighs_asList scale _ arguments).bind fun _ hitems =>
    .ok (by grind [weightAll_argumentItems_le])

theorem weighs_addBlockArgument (arguments block : Value) :
    (addBlockArgument arguments block).Yields fun value =>
      value.weight scale ≤ arguments.weight scale + block.weight scale := by
  refine (weighs_asList scale _ arguments).bind fun _ hitems => ?_
  split
  · exact .ok (by grind)
  · exact .ok (by grind)
  · exact (weighs_asNode scale _ block).bind fun _ hblock => .ok (by grind)

theorem weighs_addSplatArgument (arguments argument : Value) :
    (addSplatArgument arguments argument).Yields fun value =>
      value.weight scale ≤ arguments.weight scale + argument.weight scale :=
  (weighs_asList scale _ arguments).bind fun _ hitems =>
    (weighs_asNode? scale _ argument).bind fun _ hnode => .ok (by grind)

theorem weighs_superCall (arguments : Value) :
    (superCall arguments).Yields fun value => value.weight scale ≤ arguments.weight scale := by
  refine (weighs_command scale _ _).imp fun _ h => Nat.le_trans h ?_
  split
  · grind
  · grind

theorem weight_unparenthesized_le (value : Value) :
    (unparenthesized value).weight scale ≤ value.weight scale := by
  unfold unparenthesized
  split
  · split
    · grind [total_nodes_le]
    · exact Nat.le_refl _
  · exact Nat.le_refl _

theorem weighs_yieldCall (arguments : Value) :
    (yieldCall arguments).Yields fun value => value.weight scale ≤ arguments.weight scale := by
  have harguments := weight_unparenthesized_le scale arguments
  unfold yieldCall
  split
  · exact .ok (by grind)
  · exact (weighs_asNodes scale _ _).bind fun _ hnodes => .ok (by grind)

theorem weighs_jump {kind : Kind} (h : kind.isScanned = false) (arguments : Value) :
    (jump kind arguments).Yields fun value => value.weight scale ≤ arguments.weight scale := by
  have harguments := weight_unparenthesized_le scale arguments
  unfold jump
  dsimp only
  split
  · exact .ok (by grind)
  · exact (weighs_asNodes scale _ _).bind fun _ hnodes => .ok (by grind)

end RubyTree.Rules
