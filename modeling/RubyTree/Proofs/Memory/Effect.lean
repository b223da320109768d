import Mathlib.Data.List.Basic
import RubyTree.Proofs.Dispatch

/-!
# What events leave in the memory

Apart from the literals that are open, the context remembers six things: whether the last operator
was `**`, how a match on one line is written, how the body of a lambda is, the last closing
parenthesis, the last semicolon, and the end marker. Ten productions touch them. `Memory.update`
says what each of the ten does; no other event changes anything, whether it succeeds or fails.

Results:

* `keeps_ruleOf`: the rules of the other productions keep the memory.
* `leaves_handle`: what an event leaves in the memory, whether it is handled or fails.
* `memory_of_handle`: what an event that is handled leaves in the memory.
-/

namespace RubyTree

open Rules

/-- What the context remembers for later rules, apart from open literals. -/
structure Memory where
  doubleStar : Bool
  oneLine : OneLineMatch
  lambdaBody : LambdaBody
  lastParen : Option ClosedParen
  lastSemicolon : Option Position
  ended : Bool

/-- The memory in a context. -/
def Context.memory (context : Context) : Memory where
  doubleStar := context.doubleStar
  oneLine := context.oneLine
  lambdaBody := context.lambdaBody
  lastParen := context.lastParen
  lastSemicolon := context.lastSemicolon
  ended := context.ended

/-! ## Steps that keep the memory -/

namespace Build

variable {α β : Type}

/-- The step leaves the memory as it is, whether it succeeds or fails. -/
def Keeps (step : Build α) : Prop := ∀ context, (step.exec context).2.memory = context.memory

theorem keeps_pure (a : α) : Keeps (pure a : Build α) := fun _ => rfl

theorem keeps_ofOutcome (outcome : Outcome α) : Keeps (ofOutcome outcome) := fun _ => rfl

theorem keeps_context : Keeps context := fun _ => rfl

theorem keeps_note {change : Context → Context}
    (h : ∀ context, (change context).memory = context.memory) : Keeps (note change) := h

theorem keeps_closeLiteral : Keeps closeLiteral := by
  intro context
  cases hopeners : context.openers with
  | nil => rw [exec_closeLiteral_of_openers_nil hopeners]
  | cons opener openers =>
    rw [exec_closeLiteral_of_openers_cons hopeners]
    rfl

theorem memory_exec_bind {step : Build α} {next : α → Build β} (h : ∀ a, Keeps (next a))
    (context : Context) :
    ((step >>= next).exec context).2.memory = (step.exec context).2.memory := by
  rw [exec_bind]
  obtain ⟨outcome, changed⟩ := step.exec context
  cases outcome with
  | error cause => rfl
  | ok a => exact h a changed

theorem Keeps.bind {step : Build α} {next : α → Build β} (hstep : Keeps step)
    (hnext : ∀ a, Keeps (next a)) : Keeps (step >>= next) :=
  fun context => (memory_exec_bind hnext context).trans (hstep context)

/-- A step that reads something first and then yields. -/
theorem keeps_ofOutcome_bind_pure (outcome : Outcome α) (f : α → β) :
    Keeps (ofOutcome outcome >>= fun a => pure (f a)) :=
  (keeps_ofOutcome outcome).bind fun a => keeps_pure (f a)

end Build

open Build

/-! ## Rules that keep the memory -/

/-- Whatever a rule does with the right number of arguments keeps the memory. -/
def Rule.Keeps : Rule → Prop
  | none step => Build.Keeps step
  | one step => ∀ a, Build.Keeps (step a)
  | two step => ∀ a b, Build.Keeps (step a b)
  | three step => ∀ a b c, Build.Keeps (step a b c)
  | four step => ∀ a b c d, Build.Keeps (step a b c d)
  | five step => ∀ a b c d e, Build.Keeps (step a b c d e)
  | seven step => ∀ a b c d e f g, Build.Keeps (step a b c d e f g)

/-- With another number of arguments a rule does nothing. -/
theorem Rule.Keeps.apply {rule : Rule} (h : rule.Keeps) (name : String) (arguments : List Value) :
    Build.Keeps (rule.apply name arguments) := by
  unfold Rule.apply
  split
  · exact h
  · exact h _
  · exact h _ _
  · exact h _ _ _
  · exact h _ _ _ _
  · exact h _ _ _ _ _
  · exact h _ _ _ _ _ _ _
  · exact keeps_ofOutcome _

theorem keeps_openLiteral (opener : String) : Keeps (note (.openLiteral opener)) :=
  keeps_note fun _ => rfl

theorem keeps_report (message : String) : Keeps (note (.report message)) :=
  keeps_note fun _ => rfl

theorem keeps_stringAdd (string part : Value) : Keeps (stringAdd string part) := by
  refine keeps_context.bind fun context => (keeps_ofOutcome _).bind fun node => ?_
  split
  · exact keeps_pure _
  · exact keeps_ofOutcome_bind_pure _ _

theorem keeps_commandContent : Keeps commandContent := by
  refine keeps_context.bind fun context => ?_
  split
  · exact keeps_pure _
  · exact (keeps_openLiteral _).bind fun _ => keeps_pure _

theorem keeps_array (contents : Value) : Keeps (array contents) := by
  unfold array
  split
  · split
    · exact keeps_closeLiteral.bind fun _ => keeps_pure _
    · exact keeps_pure _
  · exact keeps_ofOutcome_bind_pure _ _

theorem keeps_lambda (params body : Value) : Keeps (lambda params body) := by
  refine keeps_context.bind fun context => (keeps_ofOutcome _).bind fun params =>
    (keeps_ofOutcome _).bind fun body => ?_
  split
  · exact keeps_pure _
  · exact keeps_pure _

theorem keeps_inClause (pattern body following : Value) :
    Keeps (inClause pattern body following) := by
  refine keeps_context.bind fun context => (keeps_ofOutcome _).bind fun pattern =>
    (keeps_ofOutcome _).bind fun following => ?_
  split
  · exact keeps_pure _
  · exact keeps_ofOutcome_bind_pure _ _

/-- The productions whose events are remembered. -/
def Production.isRemembered : Production → Bool
  | .operator | .hashPattern | .keyword | .bodyStatement | .stmtsAdd | .rparen | .unary | .defined
  | .semicolon | .endMarker => true
  | _ => false

/-- The rules of all other productions keep the memory. Most of them do not look at the context. -/
theorem keeps_ruleOf {production : Production} (h : production.isRemembered = false) :
    (ruleOf production).Keeps := by
  cases production with
  | operator | hashPattern | keyword | bodyStatement | stmtsAdd | rparen | unary | defined
  | semicolon | endMarker => cases h
  | tstringBeg | symbeg | regexpBeg | wordsBeg | qwordsBeg | symbolsBeg | qsymbolsBeg
  | heredocBeg => exact fun _ => (keeps_openLiteral _).bind fun _ => keeps_pure _
  | stringContent => exact keeps_context.bind fun _ => keeps_pure _
  | stringAdd | xstringAdd => exact keeps_stringAdd
  | stringLiteral | xstringLiteral =>
    exact fun _ => (keeps_ofOutcome _).bind fun _ => keeps_closeLiteral.bind fun _ => keeps_pure _
  | xstringNew => exact keeps_commandContent
  | symbol | dynaSymbol => exact fun _ => keeps_closeLiteral.bind fun _ => keeps_pure _
  | regexpAdd | wordAdd =>
    exact fun _ _ => keeps_context.bind fun _ => keeps_ofOutcome_bind_pure _ _
  | regexpLiteral =>
    exact fun _ _ => keeps_closeLiteral.bind fun _ => keeps_ofOutcome_bind_pure _ _
  | qwordsAdd | qsymbolsAdd =>
    exact fun _ _ => keeps_context.bind fun _ => (keeps_ofOutcome _).bind fun _ =>
      keeps_ofOutcome_bind_pure _ _
  | arrayLiteral => exact keeps_array
  | paren => exact fun _ => keeps_context.bind fun _ => keeps_ofOutcome_bind_pure _ _
  | lambdaLiteral => exact keeps_lambda
  | program => exact fun _ => keeps_context.bind fun _ => keeps_ofOutcome_bind_pure _ _
  | voidStmt => exact keeps_context.bind fun _ => keeps_pure _
  | inClause => exact keeps_inClause
  | parseError => exact fun _ => (keeps_report _).bind fun _ => keeps_pure _
  | aliasError | assignError | classNameError | paramError =>
    exact fun _ _ => (keeps_report _).bind fun _ => keeps_pure _
  | _ =>
    -- what is left takes its arguments to an outcome
    repeat intro _
    rfl

/-! ## What the remembered events do -/

/-- An event with the results it is handed. -/
structure Firing where
  event : String
  arguments : List Value
  position : Position
  token : Option String

namespace Firing

/-- The step that handles the event. -/
def handle (firing : Firing) : Build Value :=
  RubyTree.handle firing.event firing.arguments firing.position firing.token

/-- The event is one of a production. -/
def Is (production : Production) (firing : Firing) : Prop := firing.event = production.name

/-- What the first argument spells. -/
def text (firing : Firing) : String := (firstArgument firing.arguments).spelling

end Firing

namespace Memory

/-- An operand takes the last parenthesis if that closed one column before. -/
def claim (position : Position) (memory : Memory) : Memory :=
  { memory with
    lastParen := memory.lastParen.map fun paren =>
      if position.left? = some paren.position then { paren with claimed := true } else paren }

@[simp] theorem claim_doubleStar (position : Position) (memory : Memory) :
    (memory.claim position).doubleStar = memory.doubleStar := rfl

@[simp] theorem claim_oneLine (position : Position) (memory : Memory) :
    (memory.claim position).oneLine = memory.oneLine := rfl

@[simp] theorem claim_lambdaBody (position : Position) (memory : Memory) :
    (memory.claim position).lambdaBody = memory.lambdaBody := rfl

@[simp] theorem claim_lastSemicolon (position : Position) (memory : Memory) :
    (memory.claim position).lastSemicolon = memory.lastSemicolon := rfl

@[simp] theorem claim_ended (position : Position) (memory : Memory) :
    (memory.claim position).ended = memory.ended := rfl

/-- The memory after an event, by its production if it has one, by what its first argument spells
    and where it fired. -/
def after (memory : Memory) (production : Option Production) (text : String) (position : Position) :
    Memory :=
  match production with
  | some .operator =>
    { memory with
      doubleStar := text == "**"
      oneLine := if text == "=>" then .arrow else memory.oneLine }
  | some .hashPattern => { memory with doubleStar := false }
  | some .keyword => { memory with oneLine := if text == "in" then .keyword else memory.oneLine }
  | some .bodyStatement => { memory with lambdaBody := .doEnd }
  | some .stmtsAdd => { memory with lambdaBody := .braces }
  | some .rparen => { memory with lastParen := some ⟨position, false⟩ }
  | some .unary => if takesParentheses text then memory.claim position else memory
  | some .defined => memory.claim position
  | some .semicolon => { memory with lastSemicolon := some position }
  | some .endMarker => { memory with ended := true }
  | _ => memory

/-- The memory after an event that was handled. -/
def update (memory : Memory) (firing : Firing) : Memory :=
  memory.after (Production.ofName? firing.event) firing.text firing.position

theorem after_of_not_isRemembered {production : Production}
    (h : production.isRemembered = false) (text : String) (position : Position) (memory : Memory) :
    memory.after (some production) text position = memory := by
  unfold after
  split <;> simp_all [Production.isRemembered]

end Memory

/-- A rule that succeeds got the number of arguments it takes. -/
theorem Rule.length_of_exec_apply {name : String} {rule : Rule} {arguments : List Value}
    {context changed : Context} {value : Value}
    (h : (rule.apply name arguments).exec context = (.ok value, changed)) :
    arguments.length = rule.arity := by
  by_cases hlength : arguments.length = rule.arity
  · exact hlength
  · rw [Rule.apply_of_length_ne name hlength, exec_ofOutcome] at h
    cases h

/-- A rule that notes a change and then keeps the memory. -/
theorem memory_exec_note_bind {α : Type} {change : Context → Context} {next : Unit → Build α}
    (h : Keeps (next ())) (context : Context) :
    ((note change >>= next).exec context).2.memory = (change context).memory :=
  memory_exec_bind (fun _ => h) context

theorem memory_exec_keyword (token : Value) (context : Context) :
    ((keyword token).exec context).2.memory = (context.sawKeyword token.spelling).memory :=
  memory_exec_note_bind (keeps_pure _) context

theorem memory_exec_operator (token : Value) (context : Context) :
    ((operator token).exec context).2.memory = (context.sawOperator token.spelling).memory :=
  memory_exec_note_bind (keeps_pure _) context

theorem memory_exec_addStatement (list statement : Value) (context : Context) :
    ((addStatement list statement).exec context).2.memory = (context.sawBody .braces).memory := by
  refine memory_exec_note_bind ?_ context
  split
  · exact keeps_ofOutcome_bind_pure _ _
  · exact keeps_ofOutcome_bind_pure _ _

theorem memory_exec_bodyStatement (list rescues otherwise ensured : Value) (context : Context) :
    ((bodyStatement list rescues otherwise ensured).exec context).2.memory =
      (context.sawBody .doEnd).memory :=
  memory_exec_note_bind ((keeps_ofOutcome _).bind fun _ => keeps_ofOutcome_bind_pure _ _) context

theorem memory_exec_hashPattern (constant pairs rest : Value) (context : Context) :
    ((hashPattern constant pairs rest).exec context).2.memory =
      context.forgetDoubleStar.memory := by
  rw [hashPattern, exec_bind, exec_context]
  refine memory_exec_note_bind ?_ context
  exact (keeps_ofOutcome _).bind fun _ => (keeps_ofOutcome _).bind fun _ =>
    (keeps_ofOutcome _).bind fun _ => keeps_ofOutcome_bind_pure _ _

theorem Context.memory_claimParen {context : Context} (h : context.parenJustClosed = true) :
    context.claimParen.memory = context.memory.claim context.position := by
  cases hparen : context.lastParen with
  | none => simp [parenJustClosed, hparen] at h
  | some paren =>
    cases hleft : context.position.left? with
    | none => simp [parenJustClosed, hparen, hleft] at h
    | some left =>
      simp only [parenJustClosed, hparen, hleft, beq_iff_eq] at h
      simp [memory, claimParen, Memory.claim, hparen, hleft, h]

theorem Context.memory_claim_of_not_parenJustClosed {context : Context}
    (h : context.parenJustClosed = false) :
    context.memory.claim context.position = context.memory := by
  cases hparen : context.lastParen with
  | none => simp [memory, Memory.claim, hparen]
  | some paren =>
    have hne : context.position.left? ≠ some paren.position := by
      intro hleft
      simp [parenJustClosed, hparen, hleft] at h
    simp [memory, Memory.claim, hparen, hne]

/-- An operator written like a call puts its operand into a group when a parenthesis just closed. -/
theorem exec_apply (operator : String) (operand : Option Node) (context : Context) :
    (Rules.apply operator operand).exec context =
      if takesParentheses operator && context.parenJustClosed then
        (.ok (.node (applied operator (some (group operand)))), context.claimParen)
      else (.ok (.node (applied operator operand)), context) := by
  simp only [Rules.apply, exec_bind, exec_context]
  split
  · rfl
  · rfl

/-- Only such an operator claims the parenthesis before it. -/
theorem memory_exec_apply (operator : String) (operand : Option Node) (context : Context) :
    ((Rules.apply operator operand).exec context).2.memory =
      if takesParentheses operator then context.memory.claim context.position
      else context.memory := by
  rw [exec_apply]
  cases takesParentheses operator with
  | false => rfl
  | true =>
    cases hclosed : context.parenJustClosed with
    | false => exact (Context.memory_claim_of_not_parenJustClosed hclosed).symm
    | true => exact Context.memory_claimParen hclosed

/-! ## Events that are handled or fail -/

/-- From the context on, the step leaves this memory behind; or it fails, and the memory stays as it
    was. -/
def Build.Leaves {α : Type} (memory : Memory) (context : Context) (step : Build α) : Prop :=
  (step.exec context).2.memory = memory ∨
    (∃ cause, (step.exec context).1 = .error cause) ∧
      (step.exec context).2.memory = context.memory

theorem Build.Leaves.of_ok {α : Type} {memory : Memory} {context changed : Context}
    {step : Build α} {a : α} (h : Leaves memory context step)
    (hok : step.exec context = (.ok a, changed)) : changed.memory = memory := by
  rw [Leaves, hok] at h
  rcases h with hmemory | ⟨⟨cause, hcause⟩, -⟩
  · exact hmemory
  · cases hcause

/-- An operator that cannot read its operand fails before it looks at the context. -/
theorem leaves_read_apply (operator : String) (operand : Outcome (Option Node))
    (context : Context) :
    Leaves (if takesParentheses operator then context.memory.claim context.position
      else context.memory) context (ofOutcome operand >>= Rules.apply operator) := by
  rw [Leaves, exec_bind, exec_ofOutcome]
  cases operand with
  | error cause => exact .inr ⟨⟨cause, rfl⟩, rfl⟩
  | ok operand => exact .inl (memory_exec_apply operator operand context)

/-- What the rule of a production leaves behind, whatever it comes to. -/
theorem leaves_apply_ruleOf (production : Production) (arguments : List Value)
    (context : Context) :
    Leaves (context.memory.after (some production) (firstArgument arguments).spelling
      context.position) context ((ruleOf production).apply production.name arguments) := by
  by_cases hlength : arguments.length = (ruleOf production).arity
  · cases hremembered : production.isRemembered with
    | false =>
      rw [Memory.after_of_not_isRemembered hremembered]
      exact .inl ((keeps_ruleOf hremembered).apply production.name arguments context)
    | true =>
      cases production with
      | operator =>
        obtain ⟨token, rfl⟩ := List.length_eq_one_iff.mp hlength
        exact .inl (memory_exec_operator token context)
      | keyword =>
        obtain ⟨token, rfl⟩ := List.length_eq_one_iff.mp hlength
        exact .inl (memory_exec_keyword token context)
      | rparen | semicolon | endMarker =>
        obtain ⟨token, rfl⟩ := List.length_eq_one_iff.mp hlength
        exact .inl rfl
      | defined =>
        obtain ⟨operand, rfl⟩ := List.length_eq_one_iff.mp hlength
        exact leaves_read_apply "defined?" _ context
      | unary =>
        obtain ⟨operator, operand, rfl⟩ := List.length_eq_two.mp hlength
        exact leaves_read_apply operator.spelling _ context
      | stmtsAdd =>
        obtain ⟨list, statement, rfl⟩ := List.length_eq_two.mp hlength
        exact .inl (memory_exec_addStatement list statement context)
      | hashPattern =>
        obtain ⟨constant, pairs, rest, rfl⟩ := List.length_eq_three.mp hlength
        exact .inl (memory_exec_hashPattern constant pairs rest context)
      | bodyStatement =>
        obtain ⟨list, rescues, otherwise, ensured, rfl⟩ := List.length_eq_four.mp hlength
        exact .inl (memory_exec_bodyStatement list rescues otherwise ensured context)
      | _ => cases hremembered
  · rw [Rule.apply_of_length_ne production.name hlength]
    exact .inr ⟨⟨_, rfl⟩, rfl⟩

/-- What an event leaves behind, whether it is handled or fails. -/
theorem leaves_handle (firing : Firing) (context : Context) :
    Leaves (context.memory.update firing) context firing.handle := by
  cases hname : Production.ofName? firing.event with
  | none =>
    rw [Leaves, Firing.handle, exec_handle_of_ofName?_eq_none hname, Memory.update, hname]
    exact .inl rfl
  | some production =>
    have hevent := Production.ofName?_eq_some_iff.mp hname
    rw [Leaves, Firing.handle, hevent, exec_handle_name, Memory.update, hname]
    exact leaves_apply_ruleOf production firing.arguments
      (context.enter firing.position firing.token)

/-- What an event that is handled leaves in the memory. -/
theorem memory_of_handle {firing : Firing} {context changed : Context} {value : Value}
    (h : firing.handle.exec context = (.ok value, changed)) :
    changed.memory = context.memory.update firing :=
  (leaves_handle firing context).of_ok h

/-- An event of none of the ten productions leaves the memory as it was, even when it fails. -/
theorem keeps_handle {firing : Firing}
    (h : ∀ production : Production, production.isRemembered = true → ¬ firing.Is production) :
    Build.Keeps firing.handle := by
  intro context
  cases hname : Production.ofName? firing.event with
  | none =>
    rw [Firing.handle, exec_handle_of_ofName?_eq_none hname]
    rfl
  | some production =>
    have hevent := Production.ofName?_eq_some_iff.mp hname
    have hother : production.isRemembered = false := by
      by_contra hremembered
      exact h production (by simpa using hremembered) hevent
    rw [Firing.handle, hevent, exec_handle_name]
    exact (keeps_ruleOf hother).apply production.name firing.arguments
      (context.enter firing.position firing.token)

end RubyTree
