import RubyTree.Proofs.Attaching
import RubyTree.Proofs.Memory.Operand

/-!
# Groups that end in an operator

`not` and `defined?` put their operand into a group when a parenthesis closed right before them. The
group that is built from the same parenthesis afterwards would hold that parenthesis a second time,
so it takes the inner group away again. The two rules meet in two places only: the claim in the
memory, and the shape of the last statement.

Wrapping and unwrapping cancel. Whatever the operand is, the finished group is the one that is built
where no parenthesis closed before the operator. A group whose parenthesis nobody claimed, or which
does not stand right behind a parenthesis, leaves its statements alone.

Results:

* `Interval.parenPosition?_effect`, `Interval.parenClaimed_effect`: events among which no
  parenthesis closes keep the last one where it is, and claimed if it was.
* `ungroup_applied_group`: the inner group is taken away without a trace.
* `wrapping_cancels`: whole groups.
-/

namespace RubyTree

open Build Rules

/-! ## Events among which no parenthesis closes -/

/-- Events of which none closes a parenthesis. -/
structure Interval where
  events : List Firing
  no_paren : ∀ firing ∈ events, ¬ firing.Is .rparen

namespace Interval

/-- What the events do to a context. Some of them may fail. -/
def effect (interval : Interval) (context : Context) : Context :=
  interval.events.foldl (fun context firing => (firing.handle.exec context).2) context

/-- What no event of the interval undoes is kept, if it is a property of the memory. -/
theorem effect_induction {P : Memory → Prop} (interval : Interval)
    (h : ∀ memory firing, ¬ firing.Is .rparen → P memory → P (memory.update firing))
    {context : Context} (hcontext : P context.memory) : P (interval.effect context).memory := by
  obtain ⟨events, no_paren⟩ := interval
  unfold effect
  induction events generalizing context with
  | nil => exact hcontext
  | cons firing events ih =>
    obtain ⟨hfirst, hrest⟩ := List.forall_mem_cons.mp no_paren
    refine ih ?_ hrest
    rcases leaves_handle firing context with hupdated | ⟨-, hkept⟩
    · rw [hupdated]
      exact h _ firing hfirst hcontext
    · rw [hkept]
      exact hcontext

theorem parenPosition?_effect (interval : Interval) (context : Context) :
    (interval.effect context).parenPosition? = context.parenPosition? := by
  refine interval.effect_induction
    (P := fun memory => memory.lastParen.map (·.position) = context.parenPosition?) ?_ rfl
  intro memory firing hparen hmemory
  rw [Memory.position_update hparen, hmemory]

theorem parenClaimed_effect (interval : Interval) {context : Context}
    (h : context.parenClaimed = true) : (interval.effect context).parenClaimed = true := by
  refine interval.effect_induction (P := fun memory => memory.lastParen.any (·.claimed) = true)
    ?_ h
  intro memory firing hparen hmemory
  obtain ⟨paren, hlast, hclaimed⟩ := (Option.any_eq_true _ _).mp hmemory
  have hupdate : (memory.update firing).lastParen = some ⟨paren.position, true⟩ :=
    (memory.lastParen_update firing _).mpr (.inr ⟨hparen, paren, hlast, rfl, by simp [hclaimed]⟩)
  rw [hupdate]
  rfl

end Interval

/-! ## One column on -/

/-- The position one column to the right. -/
def Position.right (position : Position) : Position := ⟨position.line, position.column + 1⟩

theorem Context.parenJustClosed_enter_right (context : Context) (place : Position)
    (token : Option String) :
    (context.enter place.right token).parenJustClosed =
      decide (context.parenPosition? = some place) := by
  rw [Bool.eq_iff_iff, decide_eq_true_iff, parenPosition?, Option.map_eq_some_iff]
  have hposition : (context.enter place.right token).position.left? = some place := rfl
  have hparen : (context.enter place.right token).lastParen = context.lastParen := rfl
  rw [parenJustClosed, hposition, hparen]
  cases context.lastParen with
  | none => simp
  | some paren => simp

theorem Context.parenPosition?_claimParen (context : Context) :
    context.claimParen.parenPosition? = context.parenPosition? := by
  rw [parenPosition?, parenPosition?, claimParen, Option.map_map]
  rfl

theorem Context.parenClaimed_claimParen {context : Context} {place : Position}
    (h : context.parenPosition? = some place) : context.claimParen.parenClaimed = true := by
  obtain ⟨paren, hparen, -⟩ := Option.map_eq_some_iff.mp h
  rw [parenClaimed, claimParen, hparen]
  rfl

/-! ## Operators -/

/-- An event that applies `not` or `defined?`. -/
inductive CallLike where
  | unary (operator : Value) (takes : takesParentheses operator.spelling = true)
  | defined

namespace CallLike

/-- How the operator is spelled. -/
def spelling : CallLike → String
  | unary operator _ => operator.spelling
  | defined => "defined?"

theorem takesParentheses_spelling (operator : CallLike) :
    takesParentheses operator.spelling = true := by
  cases operator with
  | unary operator takes => exact takes
  | defined => decide

/-- Handles the event. -/
def handle (operator : CallLike) (operand : Value) (position : Position) (token : Option String) :
    Build Value :=
  match operator with
  | unary operator _ => RubyTree.handle Production.unary.name [operator, operand] position token
  | defined => RubyTree.handle Production.defined.name [operand] position token

theorem exec_handle (operator : CallLike) (operand : Value.Read Value.asNode?)
    (position : Position) (token : Option String) (context : Context) :
    (operator.handle operand.value position token).exec context =
      (Rules.apply operator.spelling operand.found).exec (context.enter position token) := by
  cases operator with
  | unary operator takes =>
    rw [handle, exec_handle_name]
    change (Rules.unary operator operand.value).exec _ = _
    rw [Rules.unary, operand.reads, exec_bind, exec_ofOutcome]
    rfl
  | defined =>
    rw [handle, exec_handle_name]
    change (Rules.defined operand.value).exec _ = _
    rw [Rules.defined, operand.reads, exec_bind, exec_ofOutcome]
    rfl

/-- Right behind a parenthesis the operand is put into a group, and the parenthesis is claimed. -/
theorem exec_handle_of_closed (operator : CallLike) (operand : Value.Read Value.asNode?)
    {place : Position} (token : Option String) {context : Context}
    (h : context.parenPosition? = some place) :
    (operator.handle operand.value place.right token).exec context =
      (.ok (.node (applied operator.spelling (some (group operand.found)))),
        (context.enter place.right token).claimParen) := by
  rw [exec_handle, exec_apply, if_pos]
  rw [takesParentheses_spelling, Context.parenJustClosed_enter_right, h]
  simp

theorem exec_handle_of_not_closed (operator : CallLike) (operand : Value.Read Value.asNode?)
    {place : Position} (token : Option String) {context : Context}
    (h : context.parenPosition? ≠ some place) :
    (operator.handle operand.value place.right token).exec context =
      (.ok (.node (applied operator.spelling operand.found)), context.enter place.right token) := by
  rw [exec_handle, exec_apply, if_neg]
  rw [Context.parenJustClosed_enter_right]
  simp [h]

end CallLike

/-! ## Groups -/

/-- A group by its statements. -/
def grouped (statements : List Node) : Node :=
  ⟨.parenthesizedStatements, .unlabeled, statements.map .plain⟩

theorem exec_paren (contents : Value.Read Value.asNodes) (context : Context) :
    (paren contents.value).exec context =
      (.ok (.node (grouped (if context.parenJustClosed && context.parenClaimed
        then mapLast ungroup contents.found else contents.found))), context) := by
  rw [paren, exec_bind, exec_context]
  simp only [exec_bind, exec_ofOutcome, contents.reads]
  rfl

theorem outcome_paren (contents : Value.Read Value.asNodes) (context : Context) :
    Production.paren.outcome [contents.value] context =
      .ok (.node (grouped (if context.parenJustClosed && context.parenClaimed
        then mapLast ungroup contents.found else contents.found))) := by
  rw [Production.outcome_eq]
  exact congrArg Prod.fst (exec_paren contents context)

/-- The inner group is taken away, whether it is empty, holds a plain operand or a group. -/
theorem ungroup_applied_group (operator : String) (operand : Option Node) :
    ungroup (applied operator (some (group operand))) = applied operator operand := by
  cases operand with
  | none => rfl
  | some operand => rfl

/-- A group whose last statement applies `not` or `defined?`, by what its events are handed. Other
    events may come between the one that applies the operator and the one that builds the group. -/
structure OperatorGroup where
  operator : CallLike
  operand : Value.Read Value.asNode?
  earlier : List Node
  between : Interval
  operatorToken : Option String
  groupToken : Option String

namespace OperatorGroup

/-- The finished group. -/
def node (outer : OperatorGroup) : Node :=
  grouped (outer.earlier ++ [applied outer.operator.spelling outer.operand.found])

/-- The events from the operator to the group, both at one position. The group is handed the earlier
    statements and what the operator came to. -/
def record (outer : OperatorGroup) (position : Position) : Build Value := do
  let result ← outer.operator.handle outer.operand.value position outer.operatorToken
  Build.note outer.between.effect
  handle Production.paren.name [.list (outer.earlier.map .node ++ [result])] position
    outer.groupToken

/-- The event of a closing parenthesis, others after it, and those of the group one column on. -/
def recordClosed (outer : OperatorGroup) (closing : Value) (token : Option String)
    (after : Interval) (place : Position) : Build Value := do
  let _ ← handle Production.rparen.name [closing] place token
  Build.note after.effect
  outer.record place.right

/-- Once the operator is handled, the group is built in the context that it meets. -/
theorem exec_record (outer : OperatorGroup) {position : Position} {result : Node}
    {context changed : Context}
    (h : (outer.operator.handle outer.operand.value position outer.operatorToken).exec context =
      (.ok (.node result), changed)) :
    let met := (outer.between.effect changed).enter position outer.groupToken
    ((outer.record position).exec context).1 =
      .ok (.node (grouped (if met.parenJustClosed && met.parenClaimed
        then mapLast ungroup (outer.earlier ++ [result]) else outer.earlier ++ [result]))) := by
  have hcontents : Value.list (outer.earlier.map .node ++ [.node result]) =
      .ofNodes (outer.earlier ++ [result]) := by
    rw [Value.ofNodes_append]
    rfl
  rw [record, exec_bind, h]
  simp only [exec_bind, exec_note, hcontents, exec_handle_name]
  exact congrArg Prod.fst (exec_paren (.ofNodes (outer.earlier ++ [result])) _)

/-- The operator claims the parenthesis, and the group undoes what it did with it. -/
theorem exec_record_of_closed (outer : OperatorGroup) {place : Position} {context : Context}
    (h : context.parenPosition? = some place) :
    ((outer.record place.right).exec context).1 = .ok (.node outer.node) := by
  have hoperator := outer.operator.exec_handle_of_closed outer.operand outer.operatorToken h
  have hentered : (context.enter place.right outer.operatorToken).parenPosition? = some place := h
  generalize hclaimed : (context.enter place.right outer.operatorToken).claimParen = claimed
    at hoperator
  have hplace : (outer.between.effect claimed).parenPosition? = some place := by
    rw [Interval.parenPosition?_effect, ← hclaimed, Context.parenPosition?_claimParen, hentered]
  have hkept : (outer.between.effect claimed).parenClaimed = true := by
    refine outer.between.parenClaimed_effect ?_
    rw [← hclaimed]
    exact Context.parenClaimed_claimParen hentered
  have hadjacent := Context.parenJustClosed_enter_right (outer.between.effect claimed) place
    outer.groupToken
  rw [hplace, decide_eq_true rfl] at hadjacent
  have hmet : ((outer.between.effect claimed).enter place.right outer.groupToken).parenClaimed =
      true := hkept
  rw [outer.exec_record hoperator, hadjacent, hmet, Bool.and_self, if_pos rfl, mapLast_concat,
    ungroup_applied_group]
  rfl

theorem exec_record_of_not_closed (outer : OperatorGroup) {place : Position} {context : Context}
    (h : context.parenPosition? ≠ some place) :
    ((outer.record place.right).exec context).1 = .ok (.node outer.node) := by
  have hoperator := outer.operator.exec_handle_of_not_closed outer.operand outer.operatorToken h
  have hentered : (context.enter place.right outer.operatorToken).parenPosition? ≠ some place := h
  have hadjacent := Context.parenJustClosed_enter_right
    (outer.between.effect (context.enter place.right outer.operatorToken)) place outer.groupToken
  rw [Interval.parenPosition?_effect, decide_eq_false hentered] at hadjacent
  rw [outer.exec_record hoperator, hadjacent, Bool.false_and, if_neg Bool.false_ne_true]
  rfl

theorem exec_recordClosed (outer : OperatorGroup) (closing : Value) (token : Option String)
    (after : Interval) (place : Position) (start : Context) :
    ((outer.recordClosed closing token after place).exec start).1 = .ok (.node outer.node) := by
  have hclosing : (handle Production.rparen.name [closing] place token).exec start =
      (.ok .absent, (start.enter place token).sawParen) := by
    rw [exec_handle_name]
    rfl
  rw [recordClosed, exec_bind, hclosing]
  simp only [exec_bind, exec_note]
  refine outer.exec_record_of_closed ?_
  rw [Interval.parenPosition?_effect]
  rfl

/-- A parenthesis closes, `not` or `defined?` fires one column on, and a group whose last statement
    is the result is built there. That group is the one that is built where no parenthesis closed
    before the operator. And where the last parenthesis is unclaimed or does not stand right before
    the group, the group holds the statements that it is handed. -/
theorem wrapping_cancels (outer : OperatorGroup) (place : Position) :
    (∀ closing token after start,
      ((outer.recordClosed closing token after place).exec start).1 = .ok (.node outer.node)) ∧
    (∀ start : Context, start.parenPosition? ≠ some place →
      ((outer.record place.right).exec start).1 = .ok (.node outer.node)) ∧
    ∀ (contents : Value.Read Value.asNodes) (context : Context),
      context.parenClaimed = false ∨ context.parenJustClosed = false →
        Production.paren.outcome [contents.value] context =
          .ok (.node (grouped contents.found)) := by
  refine ⟨fun closing token after start => outer.exec_recordClosed closing token after place start,
    fun start h => outer.exec_record_of_not_closed h, ?_⟩
  intro contents context h
  have hkept : (context.parenJustClosed && context.parenClaimed) = false := by
    rw [Bool.and_eq_false_iff]
    exact h.symm
  rw [outcome_paren, hkept, if_neg Bool.false_ne_true]

/-- The statements `1; not ((x))` between parentheses. -/
def doublyParenthesized : OperatorGroup where
  operator := .unary (.symbol "not") (by decide)
  operand := .ofNode? (some (group (some (.leaf .identifier "x"))))
  earlier := [.leaf .integerNumber "1"]
  between := ⟨[⟨"stmts_new", [], ⟨1, 6⟩, none⟩], by decide⟩
  operatorToken := none
  groupToken := none

theorem wrapping_cancels_doublyParenthesized :
    let tree : Node := grouped [.leaf .integerNumber "1",
      applied "not" (some (group (some (.leaf .identifier "x"))))]
    let statement : Node := applied "defined?" (some (group none))
    let unclaimed : Context := { position := ⟨1, 6⟩, lastParen := some ⟨⟨1, 5⟩, false⟩ }
    ((doublyParenthesized.recordClosed (.text ")") none ⟨[], nofun⟩ ⟨1, 5⟩).exec .initial).1 =
      .ok (.node tree) ∧
    Context.initial.parenPosition? ≠ some ⟨1, 5⟩ ∧
    ((doublyParenthesized.record ⟨1, 6⟩).exec .initial).1 = .ok (.node tree) ∧
    unclaimed.parenClaimed = false ∧
    Production.paren.outcome [.ofNodes [statement]] unclaimed =
      .ok (.node (grouped [statement])) := by
  intro tree statement unclaimed
  obtain ⟨hclosed, hopen, hkept⟩ := wrapping_cancels doublyParenthesized ⟨1, 5⟩
  exact ⟨hclosed (.text ")") none ⟨[], nofun⟩ .initial, nofun, hopen .initial nofun, rfl,
    hkept (.ofNodes [statement]) unclaimed (.inl rfl)⟩

end OperatorGroup

end RubyTree
