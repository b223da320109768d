import RubyTree.Proofs.Memory.History

/-!
# Operands that take a parenthesis

`not` and `defined?` put their operand into a group when a parenthesis closed right before them, and
they claim that parenthesis. A parenthesis belongs to one operand, so of the events between two
closing parentheses at most one should put its operand into a group.

That a parenthesis is claimed already is noted, but the operators do not ask for it: each of them
that fires right behind the parenthesis takes it again. So the events that wrap are found by their
names and positions alone, `wrapping_eq_filter`. Two operators whose operands end at one parenthesis
break the law.

Results:

* `Firing.wraps_eq`: an event that is handled wraps if it stands right behind the last parenthesis.
* `wrapping_eq_filter`: the events that wrap between two closing parentheses.
-/

namespace RubyTree

open Build Rules

/-! ## Events that wrap -/

namespace Firing

/-- The operator and the operand of an event that applies a unary operator. -/
def application? (firing : Firing) : Option (String × Option Node) :=
  match Production.ofName? firing.event, firing.arguments with
  | some .unary, [operator, operand] =>
    (operand.asNode? "unary operand").toOption.map fun node => (operator.spelling, node)
  | some .defined, [operand] =>
    (operand.asNode? "defined? operand").toOption.map fun node => ("defined?", node)
  | _, _ => none

/-- The event applies an operator to a group around the operand that it is handed. -/
def wraps (context : Context) (firing : Firing) : Bool :=
  match firing.application?, (firing.handle.exec context).1 with
  | some (operator, operand), .ok (.node result) =>
    result = applied operator (some (group operand))
  | _, _ => false

instance (production : Production) (firing : Firing) : Decidable (firing.Is production) :=
  inferInstanceAs (Decidable (_ = _))

instance (firing : Firing) : Decidable firing.IsCallLike := inferInstanceAs (Decidable (_ ∨ _))

instance (position : Position) (firing : Firing) : Decidable (firing.IsRightOf position) :=
  inferInstanceAs (Decidable (_ ∧ _))

end Firing

/-- The events of a run that wrap, where the run starts in a context. -/
def wrapping (context : Context) : List Firing → List Firing
  | [] => []
  | firing :: later =>
    let rest := wrapping (firing.handle.exec context).2 later
    if firing.wraps context then firing :: rest else rest

/-- The context that events lead to. -/
def reached (history : List Firing) : Context := ((session history).exec .initial).2

/-! ## One event -/

/-- An operand is never a group around itself. -/
theorem applied_ne_applied_group (operator : String) (operand : Option Node) :
    applied operator operand ≠ applied operator (some (group operand)) := by
  intro h
  have hchildren := congrArg Node.children h
  cases operand with
  | none => simp [applied, Node.attachAs?, Node.attachAs, Node.attachToken] at hchildren
  | some node =>
    obtain ⟨kind, field, children⟩ := node
    have hsize := congrArg sizeOf hchildren
    simp [applied, group, Node.attachAs?, Node.attachAs, Node.attachToken, Node.attach?,
      Node.attach, Node.under, Node.ofKind] at hsize
    omega

/-- Applying an operator wraps the operand when the operator takes the parenthesis. -/
theorem exec_apply_eq_group_iff (operator : String) (operand : Option Node) (context : Context)
    {value : Value} {changed : Context}
    (h : (Rules.apply operator operand).exec context = (.ok value, changed)) :
    value = .node (applied operator (some (group operand))) ↔
      (takesParentheses operator && context.parenJustClosed) = true := by
  rw [exec_apply] at h
  split at h
  · next htakes =>
    cases h
    exact iff_of_true rfl htakes
  · next htakes =>
    cases h
    exact iff_of_false (fun heq => applied_ne_applied_group operator operand (Value.node.inj heq))
      htakes

namespace Firing

variable {firing : Firing} {context changed : Context} {value : Value}

theorem isCallLike_iff_of_unary (h : firing.Is .unary) :
    firing.IsCallLike ↔ takesParentheses firing.text = true := by
  have hdefined : ¬ firing.Is .defined := by
    unfold Is
    rw [h]
    decide
  simp [IsCallLike, h, hdefined, takesParentheses]

/-- An event that applies an operator, if it is handled, applies it to what it is handed. -/
theorem exec_apply_of_handle (h : firing.handle.exec context = (.ok value, changed))
    (hunary : firing.Is .unary ∨ firing.Is .defined) : ∃ operator operand,
      firing.application? = some (operator, operand) ∧
      (Rules.apply operator operand).exec (context.enter firing.position firing.token) =
        (.ok value, changed) ∧
      (firing.IsCallLike ↔ takesParentheses operator = true) := by
  rcases hunary with hunary | hdefined
  · have hevent := hunary
    rw [Firing.Is] at hevent
    rw [handle, hevent, exec_handle_name] at h
    obtain ⟨operator, operand, hargs⟩ := List.length_eq_two.mp (Rule.length_of_exec_apply h)
    rw [hargs] at h
    obtain ⟨node, hnode, happly⟩ := exec_of_exec_ofOutcome_bind h
    refine ⟨operator.spelling, node, ?_, happly, ?_⟩
    · simp only [application?, hevent, Production.ofName?_name, hargs, hnode]
      rfl
    · rw [isCallLike_iff_of_unary hunary, text, hargs]
      rfl
  · have hevent := hdefined
    rw [Firing.Is] at hevent
    rw [handle, hevent, exec_handle_name] at h
    obtain ⟨operand, hargs⟩ := List.length_eq_one_iff.mp (Rule.length_of_exec_apply h)
    rw [hargs] at h
    obtain ⟨node, hnode, happly⟩ := exec_of_exec_ofOutcome_bind h
    refine ⟨"defined?", node, ?_, happly, iff_of_true (.inr hdefined) (by decide)⟩
    simp only [application?, hevent, Production.ofName?_name, hargs, hnode]
    rfl

theorem application?_of_not_isCallLike (h : ¬ (firing.Is .unary ∨ firing.Is .defined)) :
    firing.application? = none := by
  simp only [is_iff] at h
  unfold application?
  split
  · simp_all
  · simp_all
  · rfl

/-- An event that is handled wraps exactly when it is `not` or `defined?` and a parenthesis closed
    one column before it, whether that parenthesis is claimed or not. -/
theorem wraps_eq (h : firing.handle.exec context = (.ok value, changed)) :
    firing.wraps context = (decide firing.IsCallLike &&
      (context.enter firing.position firing.token).parenJustClosed) := by
  by_cases hunary : firing.Is .unary ∨ firing.Is .defined
  · obtain ⟨operator, operand, happlication, happly, hcall⟩ := exec_apply_of_handle h hunary
    have hgroup := exec_apply_eq_group_iff operator operand _ happly
    rw [Bool.eq_iff_iff, Bool.and_eq_true, decide_eq_true_iff, hcall, ← Bool.and_eq_true, ← hgroup,
      wraps, happlication, h]
    cases value with
    | node result => simp
    | _ => simp
  · have hcall : ¬ firing.IsCallLike := by
      rintro (⟨his, -⟩ | his)
      · exact hunary (.inl his)
      · exact hunary (.inr his)
    rw [wraps, application?_of_not_isCallLike hunary, decide_eq_false hcall, Bool.false_and]

end Firing

/-! ## Between two parentheses -/

/-- Where the last parenthesis closed. -/
def Context.parenPosition? (context : Context) : Option Position :=
  context.lastParen.map (·.position)

theorem parenJustClosed_enter {context : Context} {place : Position}
    (h : context.parenPosition? = some place) (firing : Firing) :
    (context.enter firing.position firing.token).parenJustClosed =
      decide (firing.IsRightOf place) := by
  obtain ⟨paren, hparen, rfl⟩ := Option.map_eq_some_iff.mp h
  have henter : (context.enter firing.position firing.token).lastParen = some paren := hparen
  rw [Bool.eq_iff_iff, decide_eq_true_iff, Firing.IsRightOf, ← Position.left?_eq_some_iff,
    Context.parenJustClosed, henter, show
      (context.enter firing.position firing.token).position = firing.position from rfl]
  cases firing.position.left? with
  | none => simp
  | some left =>
    simp only [beq_iff_eq, Option.some.injEq]
    exact eq_comm

theorem Memory.position_claim (position : Position) (memory : Memory) :
    (memory.claim position).lastParen.map (·.position) = memory.lastParen.map (·.position) := by
  rw [claim, Option.map_map]
  congr 1
  funext paren
  simp only [Function.comp_apply]
  split
  · rfl
  · rfl

/-- Only a closing parenthesis moves the last parenthesis. -/
theorem Memory.position_update {firing : Firing} (h : ¬ firing.Is .rparen) (memory : Memory) :
    (memory.update firing).lastParen.map (·.position) = memory.lastParen.map (·.position) := by
  rw [Firing.is_iff] at h
  rw [update]
  unfold after
  split
  case h_6 hrparen => exact absurd hrparen h
  case h_7 =>
    split
    · exact position_claim firing.position memory
    · rfl
  case h_8 => exact position_claim firing.position memory
  all_goals rfl

theorem parenPosition?_of_handle {firing : Firing} {context changed : Context} {value : Value}
    (h : firing.handle.exec context = (.ok value, changed)) (hparen : ¬ firing.Is .rparen) :
    changed.parenPosition? = context.parenPosition? := by
  have hposition := Memory.position_update hparen context.memory
  rw [← memory_of_handle h] at hposition
  exact hposition

theorem parenPosition?_of_handle_rparen {firing : Firing} {context changed : Context}
    {value : Value} (h : firing.handle.exec context = (.ok value, changed))
    (hparen : firing.Is .rparen) : changed.parenPosition? = some firing.position := by
  have hmemory := memory_of_handle h
  rw [Memory.update, Firing.is_iff.mp hparen] at hmemory
  exact congrArg (fun memory => memory.lastParen.map (·.position)) hmemory

/-! ## Runs -/

/-- In a run without closing parentheses the events that wrap are those right behind the last
    parenthesis before the run. -/
theorem wrapping_eq_of_session {place : Position} {segment : List Firing} {start last : Context}
    (hplace : start.parenPosition? = some place)
    (hsegment : ∀ firing ∈ segment, ¬ firing.Is .rparen)
    (h : (session segment).exec start = (.ok (), last)) :
    wrapping start segment =
      segment.filter fun firing => firing.IsCallLike ∧ firing.IsRightOf place := by
  induction segment generalizing start with
  | nil => rfl
  | cons firing segment ih =>
    obtain ⟨hfirst, hrest⟩ := List.forall_mem_cons.mp hsegment
    obtain ⟨value, next, hhandle, hlater⟩ := exec_session_cons h
    have hnext : next.parenPosition? = some place := by
      rw [parenPosition?_of_handle hhandle hfirst, hplace]
    rw [wrapping, hhandle, ih hnext hrest hlater, Firing.wraps_eq hhandle,
      parenJustClosed_enter hplace, ← Bool.decide_and, List.filter_cons]

/-- Of the events between two closing parentheses those wrap that are `not` or `defined?` and stand
    one column behind the first of the two: all of them, however many there are. A claim that was
    made before keeps none of them from it. -/
theorem wrapping_eq_filter (before segment later : List Firing) {paren : Firing} {last : Context}
    (h : (session (before ++ paren :: (segment ++ later))).exec .initial = (.ok (), last))
    (hparen : paren.Is .rparen) (hsegment : ∀ firing ∈ segment, ¬ firing.Is .rparen) :
    wrapping (reached (before ++ [paren])) segment =
      segment.filter fun firing => firing.IsCallLike ∧ firing.IsRightOf paren.position := by
  rw [List.append_cons] at h
  obtain ⟨middle, hfront, hback⟩ := exec_session_append h
  obtain ⟨_, hmiddle, -⟩ := exec_session_append hback
  obtain ⟨start, -, hlast⟩ := exec_session_append hfront
  obtain ⟨value, next, hhandle, hnil⟩ := exec_session_cons hlast
  cases hnil
  have hreached : reached (before ++ [paren]) = middle := congrArg Prod.snd hfront
  rw [hreached]
  exact wrapping_eq_of_session (parenPosition?_of_handle_rparen hhandle hparen) hsegment hmiddle

/-- A closing parenthesis. -/
def closingAt (line column : Nat) : Firing := ⟨"rparen", [.text ")"], ⟨line, column⟩, none⟩

/-- The operators of `not defined?(x)`, with the one parenthesis before both of them. -/
def stackedOperators : List Firing :=
  let name : Node := .leaf .identifier "x"
  let inner : Node := applied "defined?" (some (group (some name)))
  [⟨"defined", [.node name], ⟨1, 15⟩, none⟩,
    ⟨"unary", [.symbol "not", .node inner], ⟨1, 15⟩, none⟩]

theorem wrapping_stackedOperators : ∃ last,
    (session (closingAt 1 14 :: (stackedOperators ++ [closingAt 2 2]))).exec .initial =
      (.ok (), last) ∧
    wrapping (reached [closingAt 1 14]) stackedOperators = stackedOperators := by
  have hfilter : stackedOperators.filter (fun firing => firing.IsCallLike ∧
      firing.IsRightOf (closingAt 1 14).position) = stackedOperators := by
    rw [List.filter_eq_self]
    decide
  have hrun : (session (closingAt 1 14 :: (stackedOperators ++ [closingAt 2 2]))).exec .initial =
      (.ok (), _) := rfl
  exact ⟨_, hrun, (wrapping_eq_filter [] stackedOperators [closingAt 2 2] hrun rfl
    (by decide)).trans hfilter⟩

/-- Two events wrap between two closing parentheses. -/
theorem stackedOperators_wrap_twice : ∃ last,
    (session (closingAt 1 14 :: (stackedOperators ++ [closingAt 2 2]))).exec .initial =
      (.ok (), last) ∧
    (∀ firing ∈ stackedOperators, ¬ firing.Is .rparen) ∧
    ¬ (wrapping (reached [closingAt 1 14]) stackedOperators).length ≤ 1 :=
  ⟨_, rfl, by decide, by decide +kernel⟩

end RubyTree
