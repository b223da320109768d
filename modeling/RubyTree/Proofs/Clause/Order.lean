import RubyTree.Proofs.Dispatch
import RubyTree.Proofs.Pattern.Alternatives

/-!
# The order of clauses

The clauses of `case` and `begin` arrive last first. The event of each is handed what the events of
the clauses after it came to, and puts its own clause in front; the last one is handed an `else`
node, or nothing. In the end the clauses stand as they are written.

Specification: `When.node`, `In.node` and `Rescue.node`, what a clause is by itself. A chain holds
these nodes in the order of the clauses.

Results:

* `When.prepends`, `In.prepends`, `Rescue.prepends`: the event of a clause puts it in front.
* `clauseChain_eq`: so a chain of any length has its clauses in order.
* `clauses_in_order`: whole `case` statements and bodies.
-/

namespace RubyTree

open Rules

namespace Clause

/-- The events of a chain of clauses, each in a context of its own. The event of a clause is handed
    the parts of the clause, and what the clauses after it came to. -/
def clauseChain {α : Type} (production : Production) (parts : α → List Value) (last : Value) :
    List (α × Context) → Outcome Value
  | [] => .ok last
  | (clause, context) :: later => do
    let following ← clauseChain production parts last later
    production.outcome (parts clause ++ [following]) context

/-- Each event takes what stands for the later clauses to what stands for its clause and them. -/
def Prepends {α : Type} (production : Production) (parts : α → List Value)
    (standsFor : List α → Value) : Prop :=
  ∀ clause later context, production.outcome (parts clause ++ [standsFor later]) context =
    .ok (standsFor (clause :: later))

theorem clauseChain_eq {α : Type} {production : Production} {parts : α → List Value}
    {standsFor : List α → Value} (h : Prepends production parts standsFor)
    (clauses : List (α × Context)) :
    clauseChain production parts (standsFor []) clauses =
      .ok (standsFor (clauses.map Prod.fst)) := by
  induction clauses with
  | nil => rfl
  | cons first later ih =>
    obtain ⟨clause, context⟩ := first
    rw [clauseChain, ih]
    exact h clause (later.map Prod.fst) context

/-! ## Clauses of a `case` -/

/-- The `else` under the last clause, if there is one. -/
structure Otherwise extends Value.Read Value.asNode? where
  kind_of_found : ∀ node ∈ found, node.kind = .elseBranch

section Case

variable {α : Type} (kind : Kind) (clauseChild : α → Child Node) (elseChild : Node → Child Node)
  (otherwise : Otherwise)

/-- The children that clauses and the `else` behind them become. -/
def caseChildren (clauses : List α) : List (Child Node) :=
  clauses.map clauseChild ++ otherwise.found.toList.map elseChild

/-- What the events of clauses come to: a `case` node of some kind, unless there are none. -/
def caseChain : List α → Value
  | [] => otherwise.value
  | clauses => .node ⟨kind, .unlabeled, caseChildren clauseChild elseChild otherwise clauses⟩

/-- The next event puts its clause into a node that holds the later clauses, whether that node is
    there, or only the `else`, or nothing. -/
theorem exists_following {after : Option Node → Node} (hnone : after none = .ofKind kind)
    (helse : ∀ node, node.kind = .elseBranch →
      after (some node) = ⟨kind, .unlabeled, [elseChild node]⟩)
    (hsome : ∀ children, after (some ⟨kind, .unlabeled, children⟩) = ⟨kind, .unlabeled, children⟩)
    (later : List α) :
    ∃ following, (∀ what, (caseChain kind clauseChild elseChild otherwise later).asNode? what =
        .ok following) ∧
      after following = ⟨kind, .unlabeled, caseChildren clauseChild elseChild otherwise later⟩ := by
  cases later with
  | nil =>
    refine ⟨otherwise.found, otherwise.reads, ?_⟩
    have hkind := otherwise.kind_of_found
    rw [caseChildren]
    cases hfound : otherwise.found with
    | none => exact hnone
    | some node => exact helse node (hkind node hfound)
  | cons clause later => exact ⟨_, fun _ => rfl, hsome _⟩

end Case

/-! ## When clauses -/

/-- A clause `when patterns then body`. -/
structure When where
  patterns : Value.Read Value.asNodes
  body : Value.Read Value.asNodes

namespace When

/-- What the event of the clause is handed of the clause itself. -/
def parts (clause : When) : List Value := [clause.patterns.value, clause.body.value]

/-- The node that the clause is by itself. -/
def node (clause : When) : Node :=
  let patterns := clause.patterns.found.map fun pattern =>
    Child.called "pattern" ⟨.pattern, .unlabeled, [.plain pattern]⟩
  ⟨.whenClause, .unlabeled, patterns ++ bodyPart .thenBranch clause.body.found⟩

/-- What the events of clauses come to. -/
def chain (otherwise : Otherwise) : List When → Value :=
  caseChain .caseWhen (fun clause => .plain clause.node) .plain otherwise

theorem attachPatterns_eq (clause : Node) (patterns : List Node) :
    attachPatterns clause patterns = clause.extend (patterns.map fun pattern =>
      .called "pattern" ⟨.pattern, .unlabeled, [.plain pattern]⟩) := by
  rw [attachPatterns]
  induction patterns generalizing clause with
  | nil => exact (Node.extend_nil clause).symm
  | cons pattern patterns ih =>
    rw [List.foldl_cons, ih, Node.attachAs_eq, Node.extend_extend]
    rfl

theorem node_eq (clause : When) :
    withBody .thenBranch clause.body.found
      (attachPatterns (.ofKind .whenClause) clause.patterns.found) = clause.node := by
  rw [withBody_eq, attachPatterns_eq, Node.extend_extend, Node.extend_ofKind]
  rfl

theorem prepends (otherwise : Otherwise) : Prepends .whenClause parts (chain otherwise) := by
  intro clause later context
  obtain ⟨following, hreads, hafter⟩ : ∃ following, (∀ what, (chain otherwise later).asNode? what =
      .ok following) ∧ clausesAfter following = _ :=
    exists_following _ _ _ otherwise rfl (fun node hkind => if_pos hkind) (fun _ => rfl) later
  rw [Production.outcome_eq]
  change whenClause clause.patterns.value clause.body.value (chain otherwise later) = _
  rw [whenClause, hreads, clause.patterns.reads, clause.body.reads]
  change Except.ok (Value.node ((clausesAfter following).putFirst _)) = _
  rw [node_eq, hafter]
  rfl

end When

/-! ## In clauses -/

/-- What an `in` clause matches: a pattern, bare or under a modifier that guards it. -/
inductive GuardedPattern where
  | bare (pattern : Node)
      (unguarded : pattern.kind ≠ .ifModifier ∧ pattern.kind ≠ .unlessModifier)
  | ifTrue (pattern condition : Node)
  | ifFalse (pattern condition : Node)

namespace GuardedPattern

/-- A pattern under a modifier. -/
def modified (kind : Kind) (pattern condition : Node) : Node :=
  ⟨kind, .unlabeled, [.called "body" pattern, .called "condition" condition]⟩

/-- The event of a modifier comes to that. -/
theorem modifier_eq (kind : Kind) (pattern condition : Node) :
    modifier kind (.node condition) (.node pattern) =
      .ok (.node (modified kind pattern condition)) := rfl

/-- The expression that the event of the clause is handed. -/
def expression : GuardedPattern → Node
  | bare pattern _ => pattern
  | ifTrue pattern condition => modified .ifModifier pattern condition
  | ifFalse pattern condition => modified .unlessModifier pattern condition

/-- The pattern without its guard. -/
def pattern : GuardedPattern → Node
  | bare pattern _ | ifTrue pattern _ | ifFalse pattern _ => pattern

/-- The guard, if there is one. -/
def guard : GuardedPattern → Option Node
  | bare _ _ => none
  | ifTrue _ condition => some ⟨.ifGuard, .unlabeled, [.called "condition" condition]⟩
  | ifFalse _ condition => some ⟨.unlessGuard, .unlabeled, [.called "condition" condition]⟩

theorem splitGuard_bare {pattern : Node} (h : pattern.kind ≠ .ifModifier)
    (h' : pattern.kind ≠ .unlessModifier) : splitGuard pattern = (some pattern, none) := by
  unfold splitGuard
  split <;> simp_all

/-- Splitting finds the pattern, up to the label it has under the modifier, and the guard. -/
theorem splitGuard_expression (guarded : GuardedPattern) : ∃ field,
    splitGuard guarded.expression = (some (guarded.pattern.under field), guarded.guard) := by
  cases guarded with
  | bare pattern unguarded =>
    refine ⟨pattern.field, ?_⟩
    obtain ⟨kind, field, children⟩ := pattern
    exact splitGuard_bare unguarded.1 unguarded.2
  | ifTrue pattern condition => exact ⟨.named "body", rfl⟩
  | ifFalse pattern condition => exact ⟨.named "body", rfl⟩

end GuardedPattern

/-- A clause `in pattern then body`. -/
structure In where
  pattern : GuardedPattern
  body : Value.Read Value.asNodes
  body_present : body.value.isAbsent = false

namespace In

/-- What the event of the clause is handed of the clause itself. -/
def parts (clause : In) : List Value := [.node clause.pattern.expression, clause.body.value]

/-- The node that the clause is by itself. -/
def node (clause : In) : Node :=
  ⟨.inClause, .unlabeled, (toPattern clause.pattern.pattern).toList.map (.called "pattern") ++
    clause.pattern.guard.toList.map (.called "guard") ++
    bodyPart .thenBranch clause.body.found⟩

/-- What the events of clauses come to. -/
def chain (otherwise : Otherwise) : List In → Value :=
  caseChain .caseMatch (fun clause => .called "clauses" clause.node) (.called "else") otherwise

theorem node_eq (clause : In) :
    withBody .thenBranch clause.body.found (((Node.ofKind .inClause).attachAs? "pattern"
      ((splitGuard clause.pattern.expression).1.bind toPattern)).attachAs?
      "guard" (splitGuard clause.pattern.expression).2) = clause.node := by
  obtain ⟨field, hsplit⟩ := clause.pattern.splitGuard_expression
  rw [hsplit, withBody_eq, Node.attachAs?_eq, Node.attachAs?_eq, Option.bind_some,
    called_toPattern_under, Node.extend_extend, Node.extend_extend, Node.extend_ofKind,
    ← List.append_assoc]
  rfl

theorem prepends (otherwise : Otherwise) : Prepends .inClause parts (chain otherwise) := by
  intro clause later context
  obtain ⟨following, hreads, hafter⟩ : ∃ following, (∀ what, (chain otherwise later).asNode? what =
      .ok following) ∧ matchesAfter following = _ :=
    exists_following _ _ _ otherwise rfl (fun node hkind => if_pos hkind) (fun _ => rfl) later
  rw [Production.outcome_eq]
  change ((inClause (.node clause.pattern.expression) clause.body.value
    (chain otherwise later)).exec context).1 = _
  -- there is a body, so this is no match on one line
  simp only [inClause, Build.exec_bind, Build.exec_context, Build.exec_ofOutcome,
    Value.asNode_node, hreads, clause.body_present, Bool.and_false, Bool.false_eq_true, if_false,
    clause.body.reads, Build.exec_pure, hafter, node_eq]
  rfl

end In

/-! ## Rescue clauses -/

/-- The exceptions that a clause rescues: none in particular, a list of values that was collected in
    a node, or nodes. -/
inductive Exceptions where
  | any
  | gathered (list : Node) (kind_eq : list.kind = .rightAssignmentList)
  | listed (values : Value.Read Value.asNodes) (present : values.value.isAbsent = false)
      (ungathered : values.value.hasKind .rightAssignmentList = false)

namespace Exceptions

/-- The value that stands for the exceptions. -/
def value : Exceptions → Value
  | any => .absent
  | gathered list _ => .node list
  | listed values _ _ => values.value

/-- The exceptions, unless the clause rescues any. -/
def nodes? : Exceptions → Option (List Node)
  | any => none
  | gathered list _ => some list.nodes
  | listed values _ _ => some values.found

/-- The node around exceptions. -/
def around (nodes : List Node) : Node := ⟨.exceptions, .unlabeled, nodes.map .plain⟩

theorem rescuedExceptions_of_asNodes {value : Value} {nodes : List Node}
    (hreads : ∀ what, value.asNodes what = .ok nodes) (hpresent : value.isAbsent = false)
    (hkind : value.hasKind .rightAssignmentList = false) :
    rescuedExceptions value = .ok (some (around nodes)) := by
  cases value with
  | absent => cases hpresent
  | node node =>
    have hnodes : [node] = nodes := Except.ok.inj (hreads "rescue exceptions")
    have hne : node.kind ≠ .rightAssignmentList := by
      simpa [Value.hasKind, Value.kind?] using hkind
    rw [rescuedExceptions, if_neg hne, hnodes]
    rfl
  | _ =>
    rw [rescuedExceptions, hreads]
    · rfl
    · nofun
    · nofun

theorem rescuedExceptions_value (exceptions : Exceptions) :
    rescuedExceptions exceptions.value = .ok (exceptions.nodes?.map around) := by
  cases exceptions with
  | any => rfl
  | gathered list kind_eq =>
    rw [value, rescuedExceptions, if_pos kind_eq]
    rfl
  | listed values present ungathered =>
    exact rescuedExceptions_of_asNodes values.reads present ungathered

end Exceptions

/-- A clause `rescue exceptions => target then body`. -/
structure Rescue where
  exceptions : Exceptions
  target : Value.Read Value.asNode?
  body : Value.Read Value.asNodes

namespace Rescue

/-- What the event of the clause is handed of the clause itself. -/
def parts (clause : Rescue) : List Value :=
  [clause.exceptions.value, clause.target.value, clause.body.value]

/-- The node that the clause is by itself. -/
def node (clause : Rescue) : Node :=
  let exceptions := clause.exceptions.nodes?.toList.map fun nodes =>
    Child.called "exceptions" (Exceptions.around nodes)
  let target := clause.target.found.toList.map fun target =>
    Child.called "variable" ⟨.exceptionVariable, .unlabeled, (unwrapped target).toList.map .plain⟩
  ⟨.rescueClause, .unlabeled, exceptions ++ target ++ bodyPart .thenBranch clause.body.found⟩

/-- What the events of clauses come to. -/
def chain : List Rescue → Value
  | [] => .absent
  | clauses => .list (clauses.map fun clause => .node clause.node)

theorem node_eq (clause : Rescue) :
    withBody .thenBranch clause.body.found (((Node.ofKind .rescueClause).attachAs? "exceptions"
      (clause.exceptions.nodes?.map Exceptions.around)).attachAs? "variable"
        (clause.target.found.map fun target =>
          (Node.ofKind .exceptionVariable).attach? (unwrapped target))) = clause.node := by
  simp only [node, withBody_eq, Node.attachAs?_eq, Node.attach?_eq, Option.toList_map, List.map_map,
    Node.extend, List.append_assoc]
  rfl

theorem prepends : Prepends .rescueClause parts chain := by
  intro clause later context
  have hlater (what : String) :
      (chain later).asList what = .ok (later.map fun clause => .node clause.node) := by
    cases later with
    | nil => rfl
    | cons next later => rfl
  rw [Production.outcome_eq]
  change rescueClause clause.exceptions.value clause.target.value clause.body.value
    (chain later) = _
  rw [rescueClause, Exceptions.rescuedExceptions_value, clause.target.reads, clause.body.reads,
    hlater]
  change Except.ok (Value.list (.node _ :: _)) = _
  rw [node_eq]
  rfl

end Rescue

/-! ## Whole statements -/

/-- The parts of a body apart from its rescue clauses: statements, the statements of an `else` part,
    and an `ensure` clause. -/
structure Body where
  statements : Value.Read Value.asList
  otherwise : Value.Read Value.asNodes
  ensured : Option Node

namespace Body

/-- The `else` part of a body, if there is one. -/
def otherwiseNode (body : Body) : Option Node :=
  if body.otherwise.value.isAbsent then none
  else some ⟨.elseBranch, .unlabeled, body.otherwise.found.map .plain⟩

theorem elseItems_eq (body : Body) :
    elseItems body.otherwise.value = .ok (body.otherwiseNode.toList.map .node) := by
  have hreads := body.otherwise.reads
  rw [otherwiseNode]
  cases hvalue : body.otherwise.value with
  | absent => rfl
  | _ =>
    rw [hvalue] at hreads
    rw [elseItems, hreads]
    · rfl
    · nofun

/-- One body with its rescue clauses. -/
theorem outcome_eq (body : Body) (clauses : List Rescue) (context : Context) :
    Production.bodyStatement.outcome [body.statements.value, Rescue.chain clauses,
        body.otherwise.value, .ofNode? body.ensured] context =
      .ok (.list (body.statements.found ++ clauses.map (fun clause => .node clause.node) ++
        body.otherwiseNode.toList.map .node ++ body.ensured.toList.map .node)) := by
  have hitems : (Rescue.chain clauses).items = clauses.map fun clause => .node clause.node := by
    cases clauses with
    | nil => rfl
    | cons first rest => rfl
  have hensured : (if (Value.ofNode? body.ensured).isAbsent then []
      else [Value.ofNode? body.ensured]) = body.ensured.toList.map Value.node := by
    cases body.ensured with
    | none => rfl
    | some node => rfl
  rw [Production.outcome_eq]
  change ((bodyStatement body.statements.value (Rescue.chain clauses) body.otherwise.value
    (.ofNode? body.ensured)).exec context).1 = _
  simp only [bodyStatement, Build.exec_bind, Build.exec_note, Build.exec_ofOutcome,
    body.statements.reads, elseItems_eq, Build.exec_pure, hitems, hensured]

end Body

theorem outcome_caseOf (subject : Value.Read Value.asNode?) (kind : Kind)
    (children : List (Child Node)) (context : Context) :
    Production.caseOf.outcome [subject.value, .node ⟨kind, .unlabeled, children⟩] context =
      .ok (.node ⟨kind, .unlabeled, subject.found.toList.map (.called "value") ++ children⟩) := by
  rw [Production.outcome_eq]
  change caseOf subject.value (.node ⟨kind, .unlabeled, children⟩) = _
  rw [caseOf, Value.asNode?_node, subject.reads]
  cases subject.found with
  | none => rfl
  | some node => rfl

/-- The events of a `case` statement: those of its clauses, and its own. -/
def caseEvents {α : Type} (production : Production) (parts : α → List Value)
    (clauses : List (α × Context)) (otherwise : Otherwise) (subject : Value.Read Value.asNode?)
    (context : Context) : Outcome Value := do
  let clauses ← clauseChain production parts otherwise.value clauses
  Production.caseOf.outcome [subject.value, clauses] context

theorem caseEvents_eq {α : Type} {production : Production} {parts : α → List Value}
    {kind : Kind} {clauseChild : α → Child Node} {elseChild : Node → Child Node}
    {otherwise : Otherwise}
    (h : Prepends production parts (caseChain kind clauseChild elseChild otherwise))
    (first : α × Context) (rest : List (α × Context)) (subject : Value.Read Value.asNode?)
    (context : Context) :
    caseEvents production parts (first :: rest) otherwise subject context =
      .ok (.node ⟨kind, .unlabeled, subject.found.toList.map (.called "value") ++
        (first :: rest).map (fun clause => clauseChild clause.1) ++
        otherwise.found.toList.map elseChild⟩) := by
  have hchain : clauseChain production parts otherwise.value (first :: rest) = _ :=
    clauseChain_eq h (first :: rest)
  rw [caseEvents, hchain]
  change Production.caseOf.outcome [subject.value, .node ⟨kind, .unlabeled, _⟩] context = _
  rw [outcome_caseOf, caseChildren, List.map_map, ← List.append_assoc]
  rfl

/-- The events of a body: those of its rescue clauses, and its own. -/
def bodyEvents (clauses : List (Rescue × Context)) (body : Body) (context : Context) :
    Outcome Value := do
  let clauses ← clauseChain .rescueClause Rescue.parts .absent clauses
  Production.bodyStatement.outcome [body.statements.value, clauses, body.otherwise.value,
    .ofNode? body.ensured] context

/-- Whatever contexts the events meet, a `case` statement has its value, its clauses as they are
    written and its `else`, and a body has its statements, its rescue clauses as they are written,
    its `else` part and its `ensure` clause. An `in` clause holds its own pattern and guard. -/
theorem clauses_in_order :
    (∀ (first : When × Context) (rest : List (When × Context)) (otherwise : Otherwise)
      (subject : Value.Read Value.asNode?) (context : Context),
      caseEvents .whenClause When.parts (first :: rest) otherwise subject context =
        .ok (.node ⟨.caseWhen, .unlabeled, subject.found.toList.map (.called "value") ++
          (first :: rest).map (fun clause => .plain clause.1.node) ++
          otherwise.found.toList.map .plain⟩)) ∧
    (∀ (first : In × Context) (rest : List (In × Context)) (otherwise : Otherwise)
      (subject : Value.Read Value.asNode?) (context : Context),
      caseEvents .inClause In.parts (first :: rest) otherwise subject context =
        .ok (.node ⟨.caseMatch, .unlabeled, subject.found.toList.map (.called "value") ++
          (first :: rest).map (fun clause => .called "clauses" clause.1.node) ++
          otherwise.found.toList.map (.called "else")⟩)) ∧
    ∀ (clauses : List (Rescue × Context)) (body : Body) (context : Context),
      bodyEvents clauses body context =
        .ok (.list (body.statements.found ++
          clauses.map (fun clause => .node clause.1.node) ++
          body.otherwiseNode.toList.map .node ++ body.ensured.toList.map .node)) := by
  refine ⟨?_, ?_, ?_⟩
  · intro first rest otherwise
    exact caseEvents_eq (When.prepends otherwise) first rest
  · intro first rest otherwise
    exact caseEvents_eq (In.prepends otherwise) first rest
  · intro clauses body context
    have hchain : clauseChain .rescueClause Rescue.parts .absent clauses = _ :=
      clauseChain_eq Rescue.prepends clauses
    rw [bodyEvents, hchain]
    change Production.bodyStatement.outcome _ context = _
    rw [body.outcome_eq, List.map_map]
    rfl

/-- `else z` -/
def elseLast : Otherwise where
  toRead := .ofNode? (some ⟨.elseBranch, .unlabeled, [.plain (.leaf .identifier "z")]⟩)
  kind_of_found node h := by
    rw [← Option.mem_some.mp h]

/-- `when A, B then y` and `when C` -/
def twoWhens : List When :=
  [⟨.ofNodes [.leaf .constant "A", .leaf .constant "B"], .ofNodes [.leaf .identifier "y"]⟩,
    ⟨.ofNodes [.leaf .constant "C"], .ofNodes []⟩]

/-- `in a if c then y` and `in B`, the body of which has no statement. -/
def twoIns : List In :=
  [⟨.ifTrue (.leaf .identifier "a") (.leaf .identifier "c"), .ofNodes [.leaf .identifier "y"], rfl⟩,
    ⟨.bare (.leaf .constant "B") ⟨nofun, nofun⟩, .ofNodes [], rfl⟩]

/-- `rescue A, B => e then y` and `rescue *C` -/
def twoRescues : List Rescue :=
  [⟨.listed (.ofNodes [.leaf .constant "A", .leaf .constant "B"]) rfl rfl,
      .ofNode? (some ⟨.varField, .unlabeled, [.plain (.leaf .identifier "e")]⟩),
      .ofNodes [.leaf .identifier "y"]⟩,
    ⟨.gathered ⟨.rightAssignmentList, .unlabeled, [.plain (.leaf .constant "C")]⟩ rfl,
      .ofNode? none, .ofNodes []⟩]

/-- `x`, with `else z` and `ensure` behind the rescue clauses. -/
def wholeBody : Body where
  statements := ⟨.ofNodes [.leaf .identifier "x"], [.node (.leaf .identifier "x")], fun _ => rfl⟩
  otherwise := .ofNodes [.leaf .identifier "z"]
  ensured := some (.ofKind .ensureClause)

/-- Statements of two clauses each. The guard of the first `in` clause arrives as a modifier. -/
theorem clauses_in_order_twoEach :
    caseEvents .whenClause When.parts (twoWhens.map (·, .initial)) elseLast
        (.ofNode? (some (.leaf .identifier "x"))) .initial =
      .ok (.node ⟨.caseWhen, .unlabeled,
        [.called "value" (.leaf .identifier "x"),
          .plain ⟨.whenClause, .unlabeled,
            [.called "pattern" ⟨.pattern, .unlabeled, [.plain (.leaf .constant "A")]⟩,
              .called "pattern" ⟨.pattern, .unlabeled, [.plain (.leaf .constant "B")]⟩,
              .called "body" ⟨.thenBranch, .unlabeled, [.plain (.leaf .identifier "y")]⟩]⟩,
          .plain ⟨.whenClause, .unlabeled,
            [.called "pattern" ⟨.pattern, .unlabeled, [.plain (.leaf .constant "C")]⟩]⟩,
          .plain ⟨.elseBranch, .unlabeled, [.plain (.leaf .identifier "z")]⟩]⟩) ∧
    modifier .ifModifier (.node (.leaf .identifier "c")) (.node (.leaf .identifier "a")) =
      .ok (.node (GuardedPattern.ifTrue (.leaf .identifier "a")
        (.leaf .identifier "c")).expression) ∧
    caseEvents .inClause In.parts (twoIns.map (·, .initial)) elseLast (.ofNode? none) .initial =
      .ok (.node ⟨.caseMatch, .unlabeled,
        [.called "clauses" ⟨.inClause, .unlabeled,
            [.called "pattern" ⟨.variableReferencePattern, .unlabeled,
                [.called "name" (.leaf .identifier "a")]⟩,
              .called "guard" ⟨.ifGuard, .unlabeled,
                [.called "condition" (.leaf .identifier "c")]⟩,
              .called "body" ⟨.thenBranch, .unlabeled, [.plain (.leaf .identifier "y")]⟩]⟩,
          .called "clauses" ⟨.inClause, .unlabeled, [.called "pattern" (.leaf .constant "B")]⟩,
          .called "else" ⟨.elseBranch, .unlabeled, [.plain (.leaf .identifier "z")]⟩]⟩) ∧
    bodyEvents (twoRescues.map (·, .initial)) wholeBody .initial =
      .ok (.ofNodes
        [.leaf .identifier "x",
          ⟨.rescueClause, .unlabeled,
            [.called "exceptions" ⟨.exceptions, .unlabeled,
                [.plain (.leaf .constant "A"), .plain (.leaf .constant "B")]⟩,
              .called "variable" ⟨.exceptionVariable, .unlabeled,
                [.plain (.leaf .identifier "e")]⟩,
              .called "body" ⟨.thenBranch, .unlabeled, [.plain (.leaf .identifier "y")]⟩]⟩,
          ⟨.rescueClause, .unlabeled,
            [.called "exceptions" ⟨.exceptions, .unlabeled, [.plain (.leaf .constant "C")]⟩]⟩,
          ⟨.elseBranch, .unlabeled, [.plain (.leaf .identifier "z")]⟩,
          .ofKind .ensureClause]) := by
  obtain ⟨hwhen, hin, hrescue⟩ := clauses_in_order
  exact ⟨hwhen _ _ elseLast (.ofNode? (some (.leaf .identifier "x"))) .initial,
    GuardedPattern.modifier_eq _ _ _,
    hin _ _ elseLast (.ofNode? none) .initial,
    hrescue (twoRescues.map (·, .initial)) wholeBody .initial⟩

end Clause

end RubyTree
