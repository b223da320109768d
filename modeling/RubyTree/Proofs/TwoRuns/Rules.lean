import RubyTree.Proofs.Dispatch
import RubyTree.Proofs.Outcome

/-!
# Rules in two contexts

Two contexts are compared that differ in two ways only: each position of the one is a moved position
of the other, and their diagnostics are related somehow. A rule asks of positions one thing, whether
one of them stands right before the current one, and it never reads the diagnostics. So it does the
same in both, as long as the movement keeps what stands right before what.

Results:

* `alike_ruleOf`: the rules that note nothing.
* `alike_dispatch`: the rules of all events.
-/

namespace RubyTree

open Rules

/-! ## Contexts that match -/

/-- Moving the positions does not change what stands one column before what. -/
def Position.KeepsLeft (move : Position → Position) : Prop :=
  ∀ p q, (move p).left? = some (move q) ↔ p.left? = some q

theorem Position.keepsLeft_id : KeepsLeft id := fun _ _ => Iff.rfl

/-- A closing parenthesis at a moved position. -/
def ClosedParen.moved (move : Position → Position) (paren : ClosedParen) : ClosedParen :=
  { paren with position := move paren.position }

namespace Context

/-- The positions in `d` are those in `c`, moved. The diagnostics are related by `noted`, and
    everything else is the same. -/
structure Matches (move : Position → Position) (noted : List Diagnostic → List Diagnostic → Prop)
    (c d : Context) : Prop where
  position : d.position = move c.position
  token : d.token = c.token
  openers : d.openers = c.openers
  doubleStar : d.doubleStar = c.doubleStar
  oneLine : d.oneLine = c.oneLine
  lambdaBody : d.lambdaBody = c.lambdaBody
  lastParen : d.lastParen = c.lastParen.map (ClosedParen.moved move)
  lastSemicolon : d.lastSemicolon = c.lastSemicolon.map move
  ended : d.ended = c.ended
  diagnostics : noted c.diagnostics d.diagnostics

/-- What two logs have in common is kept when each event is noted on its own line. -/
def KeepsNoted (move : Position → Position)
    (noted : List Diagnostic → List Diagnostic → Prop) : Prop :=
  ∀ earlier earlier' position message, noted earlier earlier' →
    noted (earlier ++ [⟨position.line, message⟩]) (earlier' ++ [⟨(move position).line, message⟩])

theorem parenJustClosed_iff (context : Context) : context.parenJustClosed = true ↔
    ∃ paren, context.lastParen = some paren ∧ context.position.left? = some paren.position := by
  rw [parenJustClosed]
  cases context.lastParen with
  | none => simp
  | some paren =>
    cases context.position.left? with
    | none => simp
    | some left => simp [@eq_comm _ left]

namespace Matches

variable {move : Position → Position} {noted : List Diagnostic → List Diagnostic → Prop}
  {c d : Context}

/-- A context matches itself when nothing is moved. -/
theorem self (h : noted c.diagnostics c.diagnostics) : Matches id noted c c where
  position := rfl
  token := rfl
  openers := rfl
  doubleStar := rfl
  oneLine := rfl
  lambdaBody := rfl
  lastParen := Option.map_id'.symm
  lastSemicolon := Option.map_id'.symm
  ended := rfl
  diagnostics := h

/-! ## What rules read -/

theorem opener? (h : Matches move noted c d) : d.opener? = c.opener? := by
  rw [Context.opener?, h.openers, Context.opener?]

theorem inHeredoc (h : Matches move noted c d) : d.inHeredoc = c.inHeredoc := by
  rw [Context.inHeredoc, h.opener?, Context.inHeredoc]

theorem stringKind (h : Matches move noted c d) : stringKind d = stringKind c := by
  rw [Rules.stringKind, Context.inHeredoc, Context.inQuotedSymbol, h.opener?]
  rfl

theorem splitContent (h : Matches move noted c d) (text : String) :
    Literal.splitContent d text = Literal.splitContent c text := by
  rw [Literal.splitContent, Context.inRaw, h.opener?]
  rfl

theorem contentParts (h : Matches move noted c d) (part : Value) :
    Literal.contentParts d part = Literal.contentParts c part := by
  cases part with
  | text text => rw [Literal.contentParts, h.splitContent, Literal.contentParts]
  | _ => rfl

theorem parenClaimed (h : Matches move noted c d) : d.parenClaimed = c.parenClaimed := by
  rw [Context.parenClaimed, h.lastParen, Context.parenClaimed, Option.any_map]
  rfl

theorem parenJustClosed (hmove : Position.KeepsLeft move) (h : Matches move noted c d) :
    d.parenJustClosed = c.parenJustClosed := by
  rw [Bool.eq_iff_iff, parenJustClosed_iff, parenJustClosed_iff, h.lastParen, h.position]
  constructor
  · rintro ⟨paren, hparen, hleft⟩
    obtain ⟨before, hbefore, rfl⟩ := Option.map_eq_some_iff.mp hparen
    exact ⟨before, hbefore, (hmove _ _).mp hleft⟩
  · rintro ⟨paren, hparen, hleft⟩
    exact ⟨paren.moved move, Option.map_eq_some_iff.mpr ⟨paren, hparen, rfl⟩, (hmove _ _).mpr hleft⟩

theorem semicolonJustSeen (hmove : Position.KeepsLeft move) (h : Matches move noted c d) :
    d.semicolonJustSeen = c.semicolonJustSeen := by
  rw [Context.semicolonJustSeen, Context.semicolonJustSeen, h.lastSemicolon, h.position]
  cases c.lastSemicolon with
  | none => rfl
  | some position =>
    rw [Option.map_some, Bool.eq_iff_iff, beq_iff_eq, beq_iff_eq]
    exact hmove _ _

/-! ## What rules change -/

theorem enter (h : Matches move noted c d) (position : Position) (token : Option String) :
    Matches move noted (c.enter position token) (d.enter (move position) token) :=
  { h with position := rfl, token := rfl }

theorem openLiteral (h : Matches move noted c d) (opener : String) :
    Matches move noted (c.openLiteral opener) (d.openLiteral opener) :=
  { h with openers := congrArg (opener :: ·) h.openers }

theorem setOpeners (h : Matches move noted c d) (openers : List String) :
    Matches move noted { c with openers := openers } { d with openers := openers } :=
  { h with openers := rfl }

theorem sawOperator (h : Matches move noted c d) (operator : String) :
    Matches move noted (c.sawOperator operator) (d.sawOperator operator) :=
  { h with doubleStar := rfl, oneLine := by simp only [Context.sawOperator, h.oneLine] }

theorem sawKeyword (h : Matches move noted c d) (keyword : String) :
    Matches move noted (c.sawKeyword keyword) (d.sawKeyword keyword) :=
  { h with oneLine := by simp only [Context.sawKeyword, h.oneLine] }

theorem forgetDoubleStar (h : Matches move noted c d) :
    Matches move noted c.forgetDoubleStar d.forgetDoubleStar :=
  { h with doubleStar := rfl }

theorem sawBody (h : Matches move noted c d) (body : LambdaBody) :
    Matches move noted (c.sawBody body) (d.sawBody body) :=
  { h with lambdaBody := rfl }

theorem sawParen (h : Matches move noted c d) : Matches move noted c.sawParen d.sawParen :=
  { h with
    lastParen := by simp only [Context.sawParen, h.position, Option.map_some, ClosedParen.moved] }

theorem claimParen (h : Matches move noted c d) : Matches move noted c.claimParen d.claimParen :=
  { h with
    lastParen := by
      simp only [Context.claimParen, h.lastParen, Option.map_map]
      rfl }

theorem sawSemicolon (h : Matches move noted c d) :
    Matches move noted c.sawSemicolon d.sawSemicolon :=
  { h with lastSemicolon := by simp only [Context.sawSemicolon, h.position, Option.map_some] }

theorem sawEnd (h : Matches move noted c d) : Matches move noted c.sawEnd d.sawEnd :=
  { h with ended := rfl }

theorem report (hnoted : KeepsNoted move noted) (h : Matches move noted c d) (message : String) :
    Matches move noted (c.report message) (d.report message) :=
  { h with
    diagnostics := by
      rw [Context.report, Context.report, h.position]
      exact hnoted _ _ _ _ h.diagnostics }

end Matches

end Context

/-! ## Steps that do the same -/

namespace Build

variable {R : Context → Context → Prop} {α β : Type}

/-- From related contexts the steps come to the same outcome, and they leave related contexts. -/
def Alike (R : Context → Context → Prop) (left right : Build α) : Prop :=
  ∀ c d, R c d → (left.exec c).1 = (right.exec d).1 ∧ R (left.exec c).2 (right.exec d).2

namespace Alike

theorem pure (a : α) : Alike R (Pure.pure a) (Pure.pure a) := fun _ _ h => ⟨rfl, h⟩

theorem ofOutcome (outcome : Outcome α) : Alike R (.ofOutcome outcome) (.ofOutcome outcome) :=
  fun _ _ h => ⟨rfl, h⟩

theorem note {change change' : Context → Context} (h : ∀ c d, R c d → R (change c) (change' d)) :
    Alike R (Build.note change) (Build.note change') := fun c d hcd => ⟨rfl, h c d hcd⟩

theorem bind {left right : Build α} {next next' : α → Build β} (h : Alike R left right)
    (hnext : ∀ a, Alike R (next a) (next' a)) : Alike R (left >>= next) (right >>= next') := by
  intro c d hcd
  obtain ⟨hvalue, hleft⟩ := h c d hcd
  rw [exec_bind, exec_bind]
  cases hc : left.exec c with
  | mk outcome changed =>
    cases hd : right.exec d with
    | mk outcome' changed' =>
      rw [hc, hd] at hvalue hleft
      cases hvalue
      cases outcome with
      | error cause => exact ⟨rfl, hleft⟩
      | ok a => exact hnext a changed changed' hleft

/-- A step that begins by looking at the context. -/
theorem look {next next' : Context → Build β}
    (h : ∀ c d, R c d → Alike R (next c) (next' d)) :
    Alike R (Build.context >>= next) (Build.context >>= next') := by
  intro c d hcd
  rw [exec_bind, exec_bind]
  exact h c d hcd c d hcd

/-- A step that begins by reading an argument. -/
theorem read {outcome : Outcome α} {next next' : α → Build β}
    (hnext : ∀ a, Alike R (next a) (next' a)) :
    Alike R (.ofOutcome outcome >>= next) (.ofOutcome outcome >>= next') :=
  (ofOutcome outcome).bind hnext

/-- A step that begins by changing the context. -/
theorem change {change change' : Context → Context} {next next' : Unit → Build β}
    (h : ∀ c d, R c d → R (change c) (change' d)) (hnext : Alike R (next ()) (next' ())) :
    Alike R (Build.note change >>= next) (Build.note change' >>= next') :=
  (note h).bind fun _ => hnext

end Alike

end Build

/-- Applied to the same arguments in related contexts, the rule does the same. -/
def Rule.Alike (R : Context → Context → Prop) : Rule → Prop
  | none step => Build.Alike R step step
  | one step => ∀ a, Build.Alike R (step a) (step a)
  | two step => ∀ a b, Build.Alike R (step a b) (step a b)
  | three step => ∀ a b c, Build.Alike R (step a b c) (step a b c)
  | four step => ∀ a b c d, Build.Alike R (step a b c d) (step a b c d)
  | five step => ∀ a b c d e, Build.Alike R (step a b c d e) (step a b c d e)
  | seven step => ∀ a b c d e f g, Build.Alike R (step a b c d e f g) (step a b c d e f g)

theorem Rule.Alike.apply {R : Context → Context → Prop} {rule : Rule} (h : rule.Alike R)
    (name : String) (arguments : List Value) :
    Build.Alike R (rule.apply name arguments) (rule.apply name arguments) := by
  unfold Rule.apply
  split
  · exact h
  · exact h _
  · exact h _ _
  · exact h _ _ _
  · exact h _ _ _ _
  · exact h _ _ _ _ _
  · exact h _ _ _ _ _ _ _
  · exact .ofOutcome _

/-! ## The rules that look at the context or change it -/

section Rules

open Build Context

variable {move : Position → Position} {noted : List Diagnostic → List Diagnostic → Prop}

theorem alike_closeLiteral : Alike (Matches move noted) Build.closeLiteral Build.closeLiteral := by
  intro c d h
  cases hopeners : c.openers with
  | nil =>
    have hopeners' : d.openers = [] := h.openers.trans hopeners
    rw [exec_closeLiteral_of_openers_nil hopeners, exec_closeLiteral_of_openers_nil hopeners']
    exact ⟨rfl, h⟩
  | cons opener openers =>
    have hopeners' : d.openers = opener :: openers := h.openers.trans hopeners
    rw [exec_closeLiteral_of_openers_cons hopeners, exec_closeLiteral_of_openers_cons hopeners']
    exact ⟨rfl, h.setOpeners openers⟩

/-- A step that closes the innermost literal and does the same otherwise. -/
theorem Build.Alike.close {β : Type} {next : Unit → Build β}
    (h : Alike (Matches move noted) (next ()) (next ())) :
    Alike (Matches move noted) (Build.closeLiteral >>= next)
      (Build.closeLiteral >>= next) :=
  alike_closeLiteral.bind fun _ => h

theorem alike_stringAdd (string part : Value) :
    Alike (Matches move noted) (stringAdd string part) (stringAdd string part) := by
  refine .look fun _ _ h => .read fun node => ?_
  cases part with
  | text text =>
    simp only [h.splitContent]
    exact .pure _
  | _ => exact .read fun _ => .pure _

theorem alike_commandContent :
    Alike (Matches move noted) commandContent commandContent := by
  refine .look fun c d h => ?_
  rw [h.inHeredoc, h.token]
  split
  · exact .pure _
  · exact .change (fun _ _ h => h.openLiteral _) (.pure _)

theorem alike_addPart (what : String) (parts part : Value) :
    Alike (Matches move noted) (addPart what parts part) (addPart what parts part) := by
  refine .look fun c d h => .read fun parts => ?_
  rw [h.contentParts]
  exact .pure _

theorem alike_addRawWord (element : Kind) (array content : Value) :
    Alike (Matches move noted) (addRawWord element array content)
      (addRawWord element array content) := by
  refine .look fun c d h => .read fun array => ?_
  rw [h.contentParts]
  exact .read fun _ => .pure _

theorem alike_array (contents : Value) :
    Alike (Matches move noted) (array contents) (array contents) := by
  unfold array
  split
  · split
    · exact .close (.pure _)
    · exact .pure _
  · exact .read fun _ => .pure _

theorem alike_apply (hmove : Position.KeepsLeft move) (operator : String) (operand : Option Node) :
    Alike (Matches move noted) (Rules.apply operator operand) (Rules.apply operator operand) := by
  refine .look fun c d h => ?_
  rw [h.parenJustClosed hmove]
  split
  · exact .change (fun _ _ h => h.claimParen) (.pure _)
  · exact .pure _

theorem alike_paren (hmove : Position.KeepsLeft move) (contents : Value) :
    Alike (Matches move noted) (paren contents) (paren contents) := by
  refine .look fun c d h => .read fun nodes => ?_
  rw [h.parenJustClosed hmove, h.parenClaimed]
  exact .pure _

theorem alike_lambda (params body : Value) :
    Alike (Matches move noted) (lambda params body) (lambda params body) := by
  refine .look fun c d h => .read fun params => .read fun body => ?_
  rw [h.lambdaBody]
  split
  · exact .pure _
  · exact .pure _

theorem alike_program (statements : Value) :
    Alike (Matches move noted) (program statements) (program statements) := by
  refine .look fun c d h => .read fun nodes => ?_
  rw [h.ended]
  exact .pure _

theorem alike_addStatement (list statement : Value) :
    Alike (Matches move noted) (addStatement list statement) (addStatement list statement) := by
  refine .change (fun _ _ h => h.sawBody _) ?_
  split
  · exact .read fun _ => .pure _
  · exact .read fun _ => .pure _

theorem alike_voidStatement (hmove : Position.KeepsLeft move) :
    Alike (Matches move noted) voidStatement voidStatement := by
  refine .look fun c d h => ?_
  rw [h.semicolonJustSeen hmove]
  exact .pure _

theorem alike_bodyStatement (list rescues otherwise ensured : Value) :
    Alike (Matches move noted) (bodyStatement list rescues otherwise ensured)
      (bodyStatement list rescues otherwise ensured) :=
  .change (fun _ _ h => h.sawBody _) (.read fun _ => .read fun _ => .pure _)

theorem alike_hashPattern (constant pairs rest : Value) :
    Alike (Matches move noted) (hashPattern constant pairs rest)
      (hashPattern constant pairs rest) := by
  refine .look fun _ _ h => .change (fun _ _ h => h.forgetDoubleStar) ?_
  rw [h.doubleStar]
  exact .read fun _ => .read fun _ => .read fun _ => .read fun _ => .pure _

theorem alike_inClause (pattern body following : Value) :
    Alike (Matches move noted) (inClause pattern body following)
      (inClause pattern body following) := by
  refine .look fun c d h => .read fun pattern => .read fun following => ?_
  rw [h.oneLine]
  split
  · exact .pure _
  · exact .read fun _ => .pure _

/-! ## All rules -/

/-- The productions that keep the node in which the parser found an error. -/
def Production.recovers : Production → Bool
  | .aliasError | .assignError | .classNameError | .paramError => true
  | _ => false

/-- The productions whose events note what the parser had to say. -/
def Production.reports (production : Production) : Bool :=
  production.recovers || production == .parseError

/-- The rules that note nothing. Most of them do not look at the context at all. -/
theorem alike_ruleOf (hmove : Position.KeepsLeft move) {production : Production}
    (h : production.reports = false) : (ruleOf production).Alike (Matches move noted) := by
  cases production with
  | parseError | aliasError | assignError | classNameError | paramError => cases h
  | keyword => exact fun _ => .change (fun _ _ h => h.sawKeyword _) (.pure _)
  | operator => exact fun _ => .change (fun _ _ h => h.sawOperator _) (.pure _)
  | rparen => exact fun _ => .change (fun _ _ h => h.sawParen) (.pure _)
  | semicolon => exact fun _ => .change (fun _ _ h => h.sawSemicolon) (.pure _)
  | endMarker => exact fun _ => .change (fun _ _ h => h.sawEnd) (.pure _)
  | tstringBeg | symbeg | regexpBeg | wordsBeg | qwordsBeg | symbolsBeg | qsymbolsBeg
  | heredocBeg => exact fun _ => .change (fun _ _ h => h.openLiteral _) (.pure _)
  | stringContent =>
    refine .look fun c d h => ?_
    rw [h.stringKind]
    exact .pure _
  | stringAdd | xstringAdd => exact alike_stringAdd
  | stringLiteral | xstringLiteral => exact fun _ => .read fun _ => .close (.pure _)
  | xstringNew => exact alike_commandContent
  | symbol | dynaSymbol => exact fun _ => .close (.pure _)
  | regexpAdd | wordAdd => exact alike_addPart _
  | regexpLiteral => exact fun _ _ => .close (.read fun _ => .pure _)
  | qwordsAdd | qsymbolsAdd => exact alike_addRawWord _
  | arrayLiteral => exact alike_array
  | unary =>
    exact fun operator _ => .read fun operand => alike_apply hmove operator.spelling operand
  | defined => exact fun _ => .read fun operand => alike_apply hmove "defined?" operand
  | paren => exact alike_paren hmove
  | lambdaLiteral => exact alike_lambda
  | program => exact alike_program
  | stmtsAdd => exact alike_addStatement
  | voidStmt => exact alike_voidStatement hmove
  | bodyStatement => exact alike_bodyStatement
  | hashPattern => exact alike_hashPattern
  | inClause => exact alike_inClause
  | _ =>
    -- what is left takes its arguments to an outcome
    repeat intro _
    exact ⟨rfl, by assumption⟩

theorem alike_ruleOf_of_reports (hnoted : KeepsNoted move noted) {production : Production}
    (h : production.reports = true) : (ruleOf production).Alike (Matches move noted) := by
  cases production with
  | parseError => exact fun _ => .change (fun _ _ h => h.report hnoted _) (.pure _)
  | aliasError | assignError | classNameError | paramError =>
    exact fun _ _ => .change (fun _ _ h => h.report hnoted _) (.pure _)
  | _ => cases h

/-- In contexts that match, an event does the same. -/
theorem alike_dispatch (hmove : Position.KeepsLeft move) (hnoted : KeepsNoted move noted)
    (event : String) (arguments : List Value) :
    Alike (Matches move noted) (dispatch event arguments) (dispatch event arguments) := by
  unfold dispatch
  split
  · next production _ =>
    cases hreports : production.reports with
    | true => exact (alike_ruleOf_of_reports hnoted hreports).apply _ _
    | false => exact (alike_ruleOf hmove hreports).apply _ _
  · exact .ofOutcome _

end Rules

end RubyTree
