import RubyTree.Proofs.Weight.Building
import RubyTree.Rules.Branch
import RubyTree.Rules.Definition
import RubyTree.Rules.Pattern

/-!
# Weights inside statements

What the rules for statements, branches, parameters, definitions and patterns yield weighs no more
than their arguments do. For a rule that makes nodes of a kind it is handed, this has to be a kind
that no token has.

Results:

* `weight_toParameter_le`, `total_toPattern_le`: the changes that go down a tree add no weight.
-/

namespace RubyTree.Rules

open Node (weight_attachAs? total total_nodes_le total_firstNode?_le)
open Value (weightAll weighs_asNode weighs_asNode? weighs_asNodes weighs_asList weighs_mapM)

variable (scale : Scale)

/-! ## Statements -/

theorem total_withoutLeadingEmpty_le (nodes : List Node) :
    total scale (withoutLeadingEmpty nodes) ≤ total scale nodes := by
  cases nodes with
  | nil => exact Nat.le_refl _
  | cons node nodes =>
    rw [withoutLeadingEmpty]
    split
    · exact Nat.le_add_left _ _
    · exact Nat.le_refl _

theorem weighs_statements (what : String) (body : Value) :
    (statements what body).Yields fun nodes => total scale nodes ≤ body.weight scale :=
  (weighs_asNodes scale what body).map fun nodes h =>
    Nat.le_trans (total_withoutLeadingEmpty_le scale nodes) h

/-- A body holds what its statements hold. -/
@[grind =] theorem weight_withBody {kind : Kind} (h : kind.isScanned = false) (nodes : List Node)
    (node : Node) :
    (withBody kind nodes node).weight scale = node.weight scale + total scale nodes := by
  unfold withBody
  split
  · next hempty =>
    rw [List.isEmpty_iff.mp hempty]
    rfl
  · grind

theorem weighs_program (statements : Value) :
    (program statements).Yields fun value => value.weight scale ≤ statements.weight scale := by
  refine .after fun context => .read (weighs_asNodes scale _ statements) fun nodes hnodes =>
    .pure ?_
  split
  · grind
  · grind

theorem weighs_addStatement (list statement : Value) :
    (addStatement list statement).Yields fun value =>
      value.weight scale ≤ list.weight scale + statement.weight scale := by
  refine .after fun _ => ?_
  split
  · exact .read (weighs_asNode? scale _ statement) fun _ hstatement => .pure (by grind)
  · refine .read (weighs_asList scale _ list) fun items hitems => .pure ?_
    split
    · grind
    · grind

theorem weighs_voidStatement :
    voidStatement.Yields fun value => value.weight scale = 0 := by
  refine .after fun context => ?_
  split
  · exact .pure (by grind)
  · exact .pure rfl

theorem weighs_elseItems (clause : Value) :
    (elseItems clause).Yields fun items => weightAll scale items ≤ clause.weight scale := by
  unfold elseItems
  split
  · exact .ok (Nat.le_refl _)
  · exact (weighs_asNodes scale _ clause).bind fun _ hnodes => .ok (by grind)

theorem weighs_bodyStatement (list rescues otherwise ensured : Value) :
    (bodyStatement list rescues otherwise ensured).Yields fun value =>
      value.weight scale ≤
        list.weight scale + rescues.weight scale + otherwise.weight scale + ensured.weight scale := by
  refine .after fun _ => .read (weighs_asList scale _ list) fun items hitems =>
    .read (weighs_elseItems scale otherwise) fun otherwise hotherwise => .pure ?_
  split
  · grind
  · grind

theorem weighs_sequence {kind : Kind} (h : kind.isScanned = false) (what : String) (body : Value) :
    (sequence kind what body).Yields fun value => value.weight scale ≤ body.weight scale :=
  (weighs_statements scale what body).bind fun _ hnodes => .ok (by grind)

theorem weighs_ensureClause (body : Value) :
    (ensureClause body).Yields fun value => value.weight scale ≤ body.weight scale :=
  (weighs_asNodes scale _ body).bind fun _ hnodes => .ok (by grind)

/-! ## Branches and loops -/

theorem weighs_conditional {kind : Kind} (h : kind.isScanned = false)
    (condition consequence alternative : Value) :
    (conditional kind condition consequence alternative).Yields fun value =>
      value.weight scale ≤
        condition.weight scale + consequence.weight scale + alternative.weight scale := by
  refine (weighs_asNode? scale _ condition).bind fun condition hcondition =>
    (weighs_asNodes scale _ consequence).bind fun consequence hconsequence =>
    (weighs_asNode? scale _ alternative).bind fun alternative halternative => .ok ?_
  split
  · grind
  · grind

theorem weighs_ternary (condition consequence alternative : Value) :
    (ternary condition consequence alternative).Yields fun value =>
      value.weight scale ≤
        condition.weight scale + consequence.weight scale + alternative.weight scale :=
  (weighs_asNode? scale _ condition).bind fun _ hcondition =>
    (weighs_asNode? scale _ consequence).bind fun _ hconsequence =>
    (weighs_asNode? scale _ alternative).bind fun _ halternative => .ok (by grind)

theorem weighs_modifier {kind : Kind} (h : kind.isScanned = false) (condition statement : Value) :
    (modifier kind condition statement).Yields fun value =>
      value.weight scale ≤ condition.weight scale + statement.weight scale :=
  (weighs_asNode? scale _ statement).bind fun _ hstatement =>
    (weighs_asNode? scale _ condition).bind fun _ hcondition => .ok (by grind)

theorem weighs_loop {kind : Kind} (h : kind.isScanned = false) (condition body : Value) :
    (loop kind condition body).Yields fun value =>
      value.weight scale ≤ condition.weight scale + body.weight scale :=
  (weighs_asNode? scale _ condition).bind fun _ hcondition =>
    (weighs_asNodes scale _ body).bind fun _ hbody => .ok (by grind)

theorem weighs_forPattern (iterator : Value) :
    (forPattern iterator).Yields fun node => total scale node.toList ≤ iterator.weight scale := by
  unfold forPattern
  split
  · exact (weighs_asNode scale _ iterator).map fun node h =>
      Nat.le_trans (total_firstNode?_le node) h
  · exact (weighs_asNodes scale _ iterator).map fun _ h => by grind

theorem weighs_forLoop (iterator enumerable body : Value) :
    (forLoop iterator enumerable body).Yields fun value =>
      value.weight scale ≤ iterator.weight scale + enumerable.weight scale + body.weight scale := by
  refine (weighs_forPattern scale iterator).bind fun pattern hpattern =>
    (weighs_asNode? scale _ enumerable).bind fun enumerable henumerable => ?_
  dsimp only
  split
  · exact .ok (by grind)
  · exact (weighs_asNodes scale _ body).bind fun _ hbody => .ok (by grind)

theorem weighs_caseOf (subject clauses : Value) :
    (caseOf subject clauses).Yields fun value =>
      value.weight scale ≤ subject.weight scale + clauses.weight scale := by
  refine (weighs_asNode? scale _ clauses).bind fun clauses hclauses =>
    (weighs_asNode? scale _ subject).bind fun subject hsubject => .ok ?_
  have hnode : (clauses.getD (.ofKind .caseWhen)).weight scale = total scale clauses.toList := by
    cases clauses <;> grind
  cases subject <;> grind

theorem weight_clausesAfter (following : Option Node) :
    (clausesAfter following).weight scale = total scale following.toList := by
  cases following with
  | none => grind [clausesAfter]
  | some node =>
    rw [clausesAfter]
    split
    · grind
    · grind

theorem weight_attachPatterns (clause : Node) (patterns : List Node) :
    (attachPatterns clause patterns).weight scale = clause.weight scale + total scale patterns := by
  unfold attachPatterns
  induction patterns generalizing clause with
  | nil => rfl
  | cons pattern patterns ih => grind

theorem weighs_whenClause (patterns body following : Value) :
    (whenClause patterns body following).Yields fun value =>
      value.weight scale ≤ patterns.weight scale + body.weight scale + following.weight scale :=
  (weighs_asNode? scale _ following).bind fun _ hfollowing =>
    (weighs_asNodes scale _ patterns).bind fun _ hpatterns =>
    (weighs_asNodes scale _ body).bind fun _ hbody =>
    .ok (by grind [weight_clausesAfter, weight_attachPatterns])

theorem total_unwrapped_le (node : Node) :
    total scale (unwrapped node).toList ≤ node.weight scale := by
  unfold unwrapped
  split
  · exact total_firstNode?_le node
  · simp

theorem weighs_rescuedExceptions (exceptions : Value) :
    (rescuedExceptions exceptions).Yields fun node =>
      total scale node.toList ≤ exceptions.weight scale := by
  unfold rescuedExceptions
  split
  · exact .ok (Nat.le_refl _)
  · next node =>
    refine .ok ?_
    split
    · grind [total_nodes_le]
    · grind
  · exact (weighs_asNodes scale _ exceptions).map fun _ h => by grind

theorem weighs_rescueClause (exceptions target body following : Value) :
    (rescueClause exceptions target body following).Yields fun value =>
      value.weight scale ≤ exceptions.weight scale + target.weight scale + body.weight scale +
        following.weight scale := by
  refine (weighs_rescuedExceptions scale exceptions).bind fun exceptions hexceptions =>
    (weighs_asNode? scale _ target).bind fun target htarget =>
    (weighs_asNodes scale _ body).bind fun body hbody =>
    (weighs_asList scale _ following).bind fun following hfollowing => .ok ?_
  have hvariable : total scale (target.map fun node =>
      (Node.ofKind .exceptionVariable).attach? (unwrapped node)).toList ≤
        total scale target.toList :=
    Node.total_toList_map_le (fun node => by grind [total_unwrapped_le]) target
  rw [Value.weight_list, Value.weightAll_cons, Value.weight_node]
  grind

theorem weighs_rescueModifier (statement handler : Value) :
    (rescueModifier statement handler).Yields fun value =>
      value.weight scale ≤ statement.weight scale + handler.weight scale :=
  (weighs_asNode? scale _ statement).bind fun _ hstatement =>
    (weighs_asNode? scale _ handler).bind fun _ hhandler => .ok (by grind)

/-! ## Parameters -/

mutual

theorem weight_toParameter_le : (node : Node) → (toParameter node).weight scale ≤ node.weight scale
  | ⟨kind, field, children⟩ => by
    rw [toParameter]
    split
    · next hkind =>
      subst hkind
      have hchildren := weightAmong_toParameterChildren_le children
      rw [Node.weight, Node.weight, scale.kind_eq_zero rfl]
      omega
    · split
      · grind [total_firstNode?_le]
      · exact Nat.le_refl _

theorem weightAmong_toParameterChildren_le : (children : List (Child Node)) →
    Node.weightAmong scale (toParameterChildren children) ≤ Node.weightAmong scale children
  | [] => Nat.le_refl _
  | .token _ :: children => weightAmong_toParameterChildren_le children
  | .node child :: children => by
    have hchild := weight_toParameter_le child
    have hchildren := weightAmong_toParameterChildren_le children
    rw [toParameterChildren, Node.weightAmong, Node.weightAmong, Node.weight_under]
    -- the label of the child is left out
    change scale.field .unlabeled + _ + _ ≤ _
    rw [scale.field_unlabeled]
    omega

end

theorem weighs_nameAndValue (what : String) (pair : Value) :
    (nameAndValue what pair).Yields fun parts =>
      parts.1.weight scale + parts.2.weight scale ≤ pair.weight scale := by
  refine (weighs_asList scale _ pair).bind fun items hitems => ?_
  split
  · exact .ok (by grind)
  · exact .ok (by grind)
  · exact .error _

theorem weighs_optionalParameter (item : Value) :
    (optionalParameter item).Yields fun node => node.weight scale ≤ item.weight scale :=
  (weighs_nameAndValue scale _ item).bind fun parts hparts =>
    (weighs_asNode? scale _ parts.1).bind fun _ hname =>
    (weighs_asNode? scale _ parts.2).bind fun _ hvalue => .ok (by grind)

theorem weighs_keywordParameter (item : Value) :
    (keywordParameter item).Yields fun node => node.weight scale ≤ item.weight scale := by
  refine (weighs_nameAndValue scale _ item).bind fun parts hparts => ?_
  dsimp only
  split
  · exact .ok (by grind)
  · exact (weighs_asNode? scale _ parts.2).bind fun _ hvalue => .ok (by grind)

theorem weighs_restParameters (what : String) (rest : Value) :
    (restParameters what rest).Yields fun nodes => total scale nodes ≤ rest.weight scale := by
  unfold restParameters
  split
  · exact .ok (by grind)
  · exact (weighs_asNode? scale _ rest).map fun _ h => h

theorem weighs_keywordRestParameters (rest : Value) :
    (keywordRestParameters rest).Yields fun nodes => total scale nodes ≤ rest.weight scale := by
  unfold keywordRestParameters
  split
  · exact .ok (by grind)
  · exact weighs_restParameters scale _ rest

theorem weighs_blockParameters (block : Value) :
    (blockParameters block).Yields fun nodes => total scale nodes ≤ block.weight scale := by
  unfold blockParameters
  split
  · exact .ok (Nat.zero_le _)
  · exact (weighs_asNode? scale _ block).map fun _ h => h

theorem weighs_parameters (required optional rest post keywords keywordRest block : Value) :
    (parameters required optional rest post keywords keywordRest block).Yields fun value =>
      value.weight scale ≤ required.weight scale + optional.weight scale + rest.weight scale +
        post.weight scale + keywords.weight scale + keywordRest.weight scale + block.weight scale := by
  refine (weighs_asNodes scale _ required).bind fun required hrequired =>
    (weighs_asList scale _ optional).bind fun items hitems =>
    (weighs_mapM scale (weighs_optionalParameter scale) items).bind fun optional hoptional =>
    (weighs_restParameters scale _ rest).bind fun rest hrest =>
    (weighs_asNodes scale _ post).bind fun post hpost =>
    (weighs_asList scale _ keywords).bind fun items hitems =>
    (weighs_mapM scale (weighs_keywordParameter scale) items).bind fun keywords hkeywords =>
    (weighs_keywordRestParameters scale keywordRest).bind fun keywordRest hkeywordRest =>
    (weighs_blockParameters scale block).bind fun block hblock => .ok ?_
  change total scale optional ≤ _ at hoptional
  change total scale keywords ≤ _ at hkeywords
  grind

theorem weighs_namedParameter {kind : Kind} (h : kind.isScanned = false) (what : String)
    (name : Value) :
    (namedParameter kind what name).Yields fun value => value.weight scale ≤ name.weight scale :=
  (weighs_asNode? scale _ name).bind fun _ hname => .ok (by grind)

theorem weighs_blockVariables (params locals : Value) :
    (blockVariables params locals).Yields fun value =>
      value.weight scale ≤ params.weight scale + locals.weight scale := by
  refine (weighs_asNodes scale _ params).bind fun params hparams => ?_
  have htargets : total scale (toParameters params) ≤ total scale params :=
    Node.total_map_le (weight_toParameter_le scale) params
  dsimp only
  split
  · next items =>
    refine (weighs_mapM scale (weighs_asNode? scale _) items).bind fun names hnames => .ok ?_
    rw [Value.weight_node, Node.weight_foldl_attachAs rfl, Node.total_filterMap_eq]
    dsimp only [id]
    grind
  · exact .ok (by grind)

theorem weighs_parameterList {kind : Kind} (h : kind.isScanned = false) (keepEmpty : Bool)
    (params : Value) :
    (parameterList kind keepEmpty params).Yields fun node =>
      total scale node.toList ≤ params.weight scale := by
  unfold parameterList
  split
  · split
    · exact .ok (by grind [total_nodes_le])
    · exact .ok (Nat.zero_le _)
  · exact (weighs_asNodes scale _ _).map fun _ hnodes => by grind
  · exact .ok (Nat.zero_le _)

/-! ## Definitions -/

theorem weight_methodName_le (node : Node) : (methodName node).weight scale ≤ node.weight scale := by
  unfold methodName
  split
  · exact Nat.le_refl _
  · split
    · split
      · grind
      · split
        · exact Node.weight_retag_le rfl node
        · exact Nat.le_refl _
    · exact Node.weight_retag_le rfl node

theorem weighs_withBodyStatement (what : String) (body : Value) (node : Node) :
    (withBodyStatement what body node).Yields fun value =>
      value.weight scale ≤ node.weight scale + body.weight scale :=
  (weighs_statements scale what body).bind fun _ hnodes => .ok (by grind)

theorem weighs_method (name params body : Value) :
    (method name params body).Yields fun value =>
      value.weight scale ≤ name.weight scale + params.weight scale + body.weight scale :=
  (weighs_asNode scale _ name).bind fun name hname =>
    (weighs_parameterList scale rfl _ params).bind fun params hparams =>
    (weighs_withBodyStatement scale _ body _).imp fun _ h => by grind [weight_methodName_le]

theorem weighs_singletonObject (object : Value) :
    (singletonObject object).Yields fun node => total scale node.toList ≤ object.weight scale := by
  unfold singletonObject
  split
  · exact (weighs_asNode scale _ object).map fun node h =>
      Nat.le_trans (total_firstNode?_le node) h
  · exact weighs_asNode? scale _ object

theorem weighs_singletonMethod (object name params body : Value) :
    (singletonMethod object name params body).Yields fun value =>
      value.weight scale ≤
        object.weight scale + name.weight scale + params.weight scale + body.weight scale :=
  (weighs_singletonObject scale object).bind fun object hobject =>
    (weighs_asNode scale _ name).bind fun name hname =>
    (weighs_parameterList scale rfl _ params).bind fun params hparams =>
    (weighs_withBodyStatement scale _ body _).imp fun _ h => by grind [weight_methodName_le]

theorem weighs_classDef (name superclass body : Value) :
    (classDef name superclass body).Yields fun value =>
      value.weight scale ≤ name.weight scale + superclass.weight scale + body.weight scale := by
  refine (weighs_asNode? scale _ name).bind fun name hname =>
    (weighs_asNode? scale _ superclass).bind fun superclass hsuperclass =>
    (weighs_withBodyStatement scale _ body _).imp fun _ h => ?_
  have hwrapped : total scale (superclass.map ((Node.ofKind .superclass).attach ·)).toList ≤
      total scale superclass.toList := Node.total_toList_map_le (fun node => by grind) superclass
  grind

theorem weighs_moduleDef (name body : Value) :
    (moduleDef name body).Yields fun value =>
      value.weight scale ≤ name.weight scale + body.weight scale :=
  (weighs_asNode? scale _ name).bind fun _ hname =>
    (weighs_withBodyStatement scale _ body _).imp fun _ h => by grind

theorem weighs_singletonClass (object body : Value) :
    (singletonClass object body).Yields fun value =>
      value.weight scale ≤ object.weight scale + body.weight scale :=
  (weighs_asNode? scale _ object).bind fun _ hobject =>
    (weighs_withBodyStatement scale _ body _).imp fun _ h => by grind

theorem weighs_braceBlock (params body : Value) :
    (braceBlock params body).Yields fun value =>
      value.weight scale ≤ params.weight scale + body.weight scale :=
  (weighs_asNode? scale _ params).bind fun _ hparams =>
    (weighs_asNodes scale _ body).bind fun _ hbody => .ok (by grind)

theorem weighs_doBlock (params body : Value) :
    (doBlock params body).Yields fun value =>
      value.weight scale ≤ params.weight scale + body.weight scale :=
  (weighs_asNode? scale _ params).bind fun _ hparams =>
    (weighs_withBodyStatement scale _ body _).imp fun _ h => by grind

/-- A change of the first node that keeps its label adds to the tree what it adds to that node. -/
theorem weightAmong_changeFirstNode?_le {change : Node → Option Node} {added : Nat}
    (h : ∀ {node changed}, change node = some changed →
      changed.field = node.field ∧ changed.weight scale ≤ node.weight scale + added)
    {children changed : List (Child Node)}
    (hchanged : changeFirstNode? change children = some changed) :
    Node.weightAmong scale changed ≤ Node.weightAmong scale children + added := by
  induction children generalizing changed with
  | nil => cases hchanged
  | cons child children ih =>
    cases child with
    | token text =>
      obtain ⟨rest, hrest, rfl⟩ := Option.map_eq_some_iff.mp hchanged
      rw [Node.weightAmong, Node.weightAmong]
      exact ih hrest
    | node child =>
      obtain ⟨other, hother, rfl⟩ := Option.map_eq_some_iff.mp hchanged
      obtain ⟨hfield, hnode⟩ := h hother
      rw [Node.weightAmong, Node.weightAmong, hfield]
      omega

theorem weight_changeFirst?_le {change : Node → Option Node} {added : Nat}
    (h : ∀ {node changed}, change node = some changed →
      changed.field = node.field ∧ changed.weight scale ≤ node.weight scale + added)
    {node changed : Node} (hchanged : changeFirst? change node = some changed) :
    changed.field = node.field ∧ changed.weight scale ≤ node.weight scale + added := by
  obtain ⟨children, hchildren, rfl⟩ := Option.map_eq_some_iff.mp hchanged
  obtain ⟨kind, field, old⟩ := node
  refine ⟨rfl, ?_⟩
  rw [Node.weight, Node.weight, Nat.add_assoc]
  exact Nat.add_le_add_left (weightAmong_changeFirstNode?_le scale h hchildren) _

theorem weighs_addBlock (target block : Value) :
    (addBlock target block).Yields fun value =>
      value.weight scale ≤ target.weight scale + block.weight scale := by
  refine (weighs_asNode scale _ target).bind fun target htarget =>
    (weighs_asNode? scale _ block).bind fun block hblock => ?_
  cases block with
  | none =>
    refine .ok ?_
    split
    · grind
    · grind
  | some block =>
    dsimp only
    split
    · split
      · next changed hchanged =>
        -- the block goes to the call inside the first argument
        have hadded : changed.weight scale ≤ target.weight scale + block.weight scale := by
          refine (weight_changeFirst?_le scale (weight_changeFirst?_le scale ?_) hchanged).2
          rintro call _ ⟨⟩
          exact ⟨rfl, by grind⟩
        exact .ok (by grind)
      · exact .error _
    · split
      · exact .ok (by grind)
      · exact .ok (by grind)

theorem weighs_lambda (params body : Value) :
    (lambda params body).Yields fun value =>
      value.weight scale ≤ params.weight scale + body.weight scale := by
  refine .after fun context => .read (weighs_parameterList scale rfl _ params) fun params hparams =>
    .read (weighs_asNodes scale _ body) fun body hbody => ?_
  have hkinds : context.lambdaBody.inner.isScanned = false ∧
      context.lambdaBody.outer.isScanned = false := by
    cases context.lambdaBody <;> exact ⟨rfl, rfl⟩
  dsimp only
  split
  · exact .pure (by grind)
  · exact .pure (by grind)

theorem weighs_aliasMethod (name old : Value) :
    (aliasMethod name old).Yields fun value =>
      value.weight scale ≤ name.weight scale + old.weight scale :=
  (weighs_asNode scale _ name).bind fun _ hname => (weighs_asNode scale _ old).bind fun _ hold =>
    .ok (by grind [weight_methodName_le])

theorem weighs_undefine (names : Value) :
    (undefine names).Yields fun value => value.weight scale ≤ names.weight scale := by
  refine (weighs_asNodes scale _ names).bind fun nodes hnodes => .ok ?_
  have hnames := Node.total_map_le (weight_methodName_le scale) nodes
  grind

/-! ## Patterns -/

theorem weight_alternative_le (left right : Option Node) :
    (alternative left right).weight scale ≤ total scale left.toList + total scale right.toList := by
  unfold alternative
  dsimp only
  split
  · split
    · grind
    · grind
  · grind

theorem weight_binding_le (value name : Option Node) :
    (binding value name).weight scale ≤ total scale value.toList + total scale name.toList := by
  unfold binding
  grind

theorem isScanned_of_pseudoVariable? {text : Option String} {kind : Kind}
    (h : pseudoVariable? text = some kind) : kind.isScanned = false := by
  unfold pseudoVariable? at h
  split at h <;> cases h <;> rfl

mutual

theorem total_toPattern_le : (node : Node) →
    total scale (toPattern node).toList ≤ node.weight scale
  | ⟨kind, field, children⟩ => by
    have hpatterns := sum_patternsOf_le children
    have hfirst : total scale (patternsOf children).head?.join.toList ≤
        (Node.mk kind field children).weight scale := by
      rw [Node.total_toList_join]
      exact Nat.le_trans (Node.elim_head?_le _ _) (Nat.le_trans hpatterns (Nat.le_add_left _ _))
    have hends : total scale (patternsOf children).dropLast.head?.join.toList +
        total scale (patternsOf children).getLast?.join.toList ≤
          (Node.mk kind field children).weight scale := by
      rw [Node.total_toList_join, Node.total_toList_join]
      exact Nat.le_trans (Node.elim_ends_le _ _) (Nat.le_trans hpatterns (Nat.le_add_left _ _))
    have hreference : total scale (some (variableReference ⟨kind, field, children⟩)).toList ≤
        (Node.mk kind field children).weight scale := by
      unfold variableReference
      grind
    unfold toPattern
    split
    · exact total_firstNode?_le _
    · -- a value between parentheses keeps its nodes
      rw [Option.toList_some, Node.total_singleton, pinned, Node.weight_foldl_attachAs rfl]
      grind [total_nodes_le]
    · exact hfirst
    · exact hfirst
    · exact hreference
    · exact hreference
    · exact hreference
    · dsimp only
      split
      · next hvariable =>
        have hkind := isScanned_of_pseudoVariable? hvariable
        grind
      · exact hreference
    · dsimp only
      split
      · simp
      · next operator _ =>
        cases operator with
        | alternative =>
          rw [Option.toList_some, Node.total_singleton]
          exact Nat.le_trans (weight_alternative_le scale _ _) hends
        | binding =>
          rw [Option.toList_some, Node.total_singleton]
          exact Nat.le_trans (weight_binding_le scale _ _) hends
    · simp

theorem sum_patternsOf_le : (children : List (Child Node)) →
    ((patternsOf children).map fun pattern => total scale pattern.toList).sum ≤
      Node.weightAmong scale children
  | [] => Nat.le_refl _
  | .token _ :: children => sum_patternsOf_le children
  | .node child :: children => by
    have hchild := total_toPattern_le child
    have hchildren := sum_patternsOf_le children
    rw [patternsOf, List.map_cons, List.sum_cons, Node.weightAmong]
    omega

end

theorem weighs_patterns (what : String) (values : Value) :
    (patterns what values).Yields fun nodes => total scale nodes ≤ values.weight scale := by
  refine (weighs_asNodes scale _ values).map fun nodes hnodes => ?_
  rw [Node.total_filterMap_eq]
  exact Nat.le_trans (List.sum_le_sum fun node _ => total_toPattern_le scale node) hnodes

theorem weight_restPattern_le (field : Node) :
    (restPattern field).weight scale ≤ field.weight scale := by
  unfold restPattern
  grind [total_firstNode?_le]

theorem weighs_arrayPattern (constant pre rest post : Value) :
    (arrayPattern constant pre rest post).Yields fun value =>
      value.weight scale ≤
        constant.weight scale + pre.weight scale + rest.weight scale + post.weight scale := by
  refine (weighs_asNode? scale _ constant).bind fun constant hconstant =>
    (weighs_patterns scale _ pre).bind fun pre hpre =>
    (weighs_asNode? scale _ rest).bind fun rest hrest =>
    (weighs_patterns scale _ post).bind fun post hpost => .ok ?_
  have hfield := Node.total_toList_map_le (weight_restPattern_le scale) rest
  rw [Value.weight_node, Node.weight_attachAll]
  grind

theorem weighs_findPattern (constant pre values post : Value) :
    (findPattern constant pre values post).Yields fun value =>
      value.weight scale ≤
        constant.weight scale + pre.weight scale + values.weight scale + post.weight scale := by
  refine (weighs_asNode? scale _ constant).bind fun constant hconstant =>
    (weighs_asNode? scale _ pre).bind fun pre hpre =>
    (weighs_patterns scale _ values).bind fun values hvalues =>
    (weighs_asNode? scale _ post).bind fun post hpost => .ok ?_
  have hfirst := Node.total_toList_map_le (weight_restPattern_le scale) pre
  have hlast := Node.total_toList_map_le (weight_restPattern_le scale) post
  rw [Value.weight_node, Node.weight_attach?]
  grind

theorem weighs_keywordPattern (pair : Value) :
    (keywordPattern pair).Yields fun node => node.weight scale ≤ pair.weight scale := by
  refine (weighs_asList scale _ pair).bind fun items hitems => ?_
  split
  · exact .error _
  · next key values =>
    have hvalue : (values.head?.getD .absent).weight scale ≤ weightAll scale values := by
      cases values <;> grind
    refine (weighs_asNode? scale _ key).bind fun key hkey =>
      (weighs_asNode? scale _ (values.head?.getD .absent)).bind fun value hvalue => .ok ?_
    have hpattern := Node.total_toList_bind_le (total_toPattern_le scale) value
    grind

theorem total_hashRest_le (doubleStar : Bool) (rest : Option Node) :
    total scale (hashRest doubleStar rest).toList ≤ total scale rest.toList := by
  unfold hashRest
  split
  · next field =>
    have hname : total scale field.firstNode?.toList ≤ field.weight scale :=
      total_firstNode?_le field
    split
    · grind
    · grind
  · split
    · grind
    · exact Nat.le_refl _

theorem weighs_hashPattern (constant pairs rest : Value) :
    (hashPattern constant pairs rest).Yields fun value =>
      value.weight scale ≤ constant.weight scale + pairs.weight scale + rest.weight scale := by
  refine .after fun context => .after fun _ => .read (weighs_asNode? scale _ constant)
    fun constant hconstant => .read (weighs_asList scale _ pairs) fun items hitems =>
    .read (weighs_mapM scale (weighs_keywordPattern scale) items) fun pairs hpairs =>
    .read (weighs_asNode? scale _ rest) fun rest hrest => .pure ?_
  change total scale pairs ≤ _ at hpairs
  have hlast := total_hashRest_le scale context.doubleStar rest
  grind

theorem total_splitGuard_le (pattern : Node) :
    total scale (splitGuard pattern).1.toList + total scale (splitGuard pattern).2.toList ≤
      pattern.weight scale := by
  have hguarded {kind : Kind} (h : kind.isScanned = false) :
      total scale pattern.nodes.dropLast.head?.toList +
        total scale (some (guardOf kind pattern.nodes.getLast?)).toList ≤ pattern.weight scale := by
    have hends := Node.elim_ends_le (Node.weight scale) pattern.nodes
    rw [Node.total_toList, Option.toList_some, Node.total_singleton, guardOf,
      weight_attachAs? _ rfl, Node.total_toList]
    have hcount : pattern.nodes.dropLast.head?.elim 0 (Node.weight scale) +
        pattern.nodes.getLast?.elim 0 (Node.weight scale) ≤ pattern.weight scale :=
      Nat.le_trans hends (total_nodes_le pattern)
    grind
  unfold splitGuard
  dsimp only
  split
  · exact hguarded rfl
  · exact hguarded rfl
  · simp

theorem weight_matchesAfter (following : Option Node) :
    (matchesAfter following).weight scale = total scale following.toList := by
  cases following with
  | none => grind [matchesAfter]
  | some node =>
    rw [matchesAfter]
    split
    · grind
    · grind

theorem weighs_inClause (pattern body following : Value) :
    (inClause pattern body following).Yields fun value =>
      value.weight scale ≤ pattern.weight scale + body.weight scale + following.weight scale := by
  refine .after fun context => .read (weighs_asNode scale _ pattern) fun pattern hpattern =>
    .read (weighs_asNode? scale _ following) fun following hfollowing => ?_
  split
  · have hkind : context.oneLine.kind.isScanned = false := by cases context.oneLine <;> rfl
    have hread := total_toPattern_le scale pattern
    exact .pure (by grind)
  · refine .read (weighs_asNodes scale _ body) fun body hbody => ?_
    have hguarded := total_splitGuard_le scale pattern
    have hread := Node.total_toList_bind_le (total_toPattern_le scale) (splitGuard pattern).1
    have hclause : (withBody .thenBranch body (((Node.ofKind .inClause).attachAs? "pattern"
        ((splitGuard pattern).1.bind toPattern)).attachAs? "guard" (splitGuard pattern).2)).weight
          scale ≤ pattern.weight scale + total scale body := by
      grind
    exact .pure (by
      rw [Value.weight_node, Node.weight_putFirstAs _ rfl, weight_matchesAfter]
      refine Nat.le_trans (Nat.add_le_add_left hclause _) ?_
      omega)

end RubyTree.Rules
