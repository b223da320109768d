import RubyTree.Proofs.Dispatch
import RubyTree.Proofs.Literal.Written

/-!
# Rules and the stack of openers

What the rules of literals give, and what they do to the stack of openers. Only the innermost opener
matters to a rule, and only the opening and the closing event of a literal move the stack.

Results:

* `gives_opening`, `gives_beginning`, `gives_closing`: the first two events of a quoted literal and
  its last one.
* `adds_family`, `adds_wordAdd`: how parts are added to a quoted literal and to a word.
* `map_settle_partNodes`: parts added as plain string content become those of the family at the end.
-/

namespace RubyTree

namespace Node

@[simp] theorem attachAll_attachAll (node : Node) (front back : List Node) :
    (node.attachAll front).attachAll back = node.attachAll (front ++ back) := by
  simp [attachAll]

@[simp] theorem attach_attachAll (node child : Node) (children : List Node) :
    (node.attachAll children).attach child = node.attachAll (children ++ [child]) := by
  simp [attachAll, attach]

end Node

/-- In every context with these openers the rule of a production takes its arguments to `value`, and
    it leaves the openers `left`. -/
def Gives (production : Production) (arguments : List Value) (openers : List String) (value : Value)
    (left : List String) : Prop :=
  ∀ context : Context, context.openers = openers → ∃ changed : Context,
    ((ruleOf production).apply production.name arguments).exec context = (.ok value, changed) ∧
      changed.openers = left

namespace Literal

open Rules

/-! ## Rules that do not ask for the openers -/

theorem gives_tstringContent (value : Value) (openers : List String) :
    Gives .tstringContent [value] openers value openers :=
  fun context h => ⟨context, rfl, h⟩

theorem gives_stmtsNew (openers : List String) :
    Gives .stmtsNew [] openers (.ofNodes []) openers :=
  fun context h => ⟨context, rfl, h⟩

theorem gives_stmtsAdd (statements : List Node) (statement : Node) (openers : List String) :
    Gives .stmtsAdd [.ofNodes statements, .node statement] openers
      (.ofNodes (statements ++ [statement])) openers := by
  refine fun context h => ⟨context.sawBody .braces, ?_, h⟩
  simp [ruleOf, Rule.apply, addStatement, Value.ofNodes, Value.isAbsent, Except.map]

theorem gives_stringEmbexpr (statements : List Node) (openers : List String) :
    Gives .stringEmbexpr [.ofNodes statements] openers
      (.node ((Node.ofKind .interpolation).attachAll statements)) openers := by
  refine fun context h => ⟨context, ?_, h⟩
  simp only [ruleOf, Rule.map, Rule.apply, Build.exec_ofOutcome, interpolation,
    Value.asNodes_ofNodes]
  rfl

theorem gives_wordNew (openers : List String) : Gives .wordNew [] openers (.ofNodes []) openers :=
  fun context h => ⟨context, rfl, h⟩

/-! ## Splitting text -/

theorem leafAs_stringContent : Piece.leafAs .stringContent = Piece.leaf := by
  funext piece
  cases piece <;> rfl

/-- The innermost opener alone decides how a text is split. -/
theorem splitContent_eq {context : Context} {opener : String} {openers : List String}
    (h : context.openers = opener :: openers) (text : String) :
    splitContent context text = leaves .stringContent (Opener.isRaw opener) text := by
  have hraw : context.inRaw = Opener.isRaw opener := by simp [Context.inRaw, Context.opener?, h]
  rw [splitContent, leaves, hraw, splitEscapes, leafAs_stringContent]

/-! ## Quoted literals under construction -/

theorem not_isHeredoc_of_isQuotedSymbol {opener : String}
    (h : Opener.isQuotedSymbol opener = true) : Opener.isHeredoc opener = false := by
  simp only [Opener.isQuotedSymbol, Bool.or_eq_true, beq_iff_eq] at h
  rcases h with (rfl | rfl) | h
  · decide
  · decide
  · obtain ⟨rest, hrest⟩ := List.isPrefixOf_iff_prefix.mp h
    rw [Opener.isHeredoc, Opener.begins, ← hrest]
    rfl

/-- The kind of a string with a given opener. -/
def openedKind (opener : String) : Kind :=
  if Opener.isHeredoc opener then .heredocBody
  else if Opener.isQuotedSymbol opener then .delimitedSymbol
  else .stringLiteral

theorem gives_stringContent (opener : String) (openers : List String) :
    Gives .stringContent [] (opener :: openers) (.node (.ofKind (openedKind opener)))
      (opener :: openers) := by
  refine fun context h => ⟨context, ?_, h⟩
  have hkind : stringKind context = openedKind opener := by
    simp [stringKind, openedKind, Context.inHeredoc, Context.inQuotedSymbol, Context.opener?, h]
  rw [← hkind]
  rfl

namespace Family

/-- A literal to which parts have been added: regular expressions gather them in a list. -/
def gathered : Family → List Node → Value
  | regexp _, parts => .ofNodes parts
  | family, parts => .node ((Node.ofKind family.kind).attachAll parts)

end Family

theorem gives_opening (family : Family) (opener : String) (openers : List String) :
    ∃ value, Gives family.form.opening [.text opener] openers value (opener :: openers) := by
  cases family with
  | heredoc => exact ⟨.text opener, fun context h => ⟨_, rfl, congrArg (opener :: ·) h⟩⟩
  | _ => exact ⟨.absent, fun context h => ⟨_, rfl, congrArg (opener :: ·) h⟩⟩

theorem gives_beginning (quote : Quote) (openers : List String) :
    Gives quote.family.form.beginning [] (quote.opener :: openers) (quote.family.gathered [])
      (quote.opener :: openers) := by
  obtain ⟨family, opener, hopener⟩ := quote
  have hstring := gives_stringContent opener openers
  cases family with
  | string =>
    simp only [Family.isOpenedBy, Bool.and_eq_true, Bool.not_eq_true'] at hopener
    simp only [openedKind, hopener, Bool.false_eq_true, if_false] at hstring
    exact hstring
  | symbol =>
    have hheredoc := not_isHeredoc_of_isQuotedSymbol hopener
    rw [Family.isOpenedBy] at hopener
    simp only [openedKind, hopener, hheredoc, Bool.false_eq_true, if_false, if_true] at hstring
    exact hstring
  | heredoc =>
    rw [Family.isOpenedBy] at hopener
    simp only [openedKind, hopener, if_true] at hstring
    exact hstring
  | regexp closer => exact fun context h => ⟨context, rfl, h⟩

/-! ## Completing a quoted literal -/

/-- A part of a completed literal, where plain text has the given kind. -/
def settle (content : Kind) (part : Node) : Node :=
  if part.kind = .stringContent then part.retag content else part

theorem settle_of_kind_ne (content : Kind) {part : Node} (h : part.kind ≠ .stringContent) :
    settle content part = part := if_neg h

@[simp] theorem settle_stringContent (part : Node) : settle .stringContent part = part := by
  obtain ⟨kind, field, children⟩ := part
  by_cases h : kind = .stringContent
  · subst h
    rfl
  · exact settle_of_kind_ne _ h

theorem settle_leafAs (content : Kind) (piece : Piece) :
    settle content (piece.leafAs .stringContent) = piece.leafAs content := by
  cases piece <;> rfl

theorem map_settle_leaves (content : Kind) (raw : Bool) (text : String) :
    (leaves .stringContent raw text).map (settle content) = leaves content raw text := by
  cases raw with
  | true => rfl
  | false => simp [leaves, settle_leafAs, Function.comp_def]

/-- Parts that were added as plain string content become those of another content. -/
theorem map_settle_partNodes (content : Kind) (raw : Bool) (parts : List Part) :
    (partNodes .stringContent raw parts).map (settle content) = partNodes content raw parts := by
  induction parts with
  | nil => rfl
  | cons part parts ih =>
    rw [partNodes, partNodes, List.map_append, ih]
    cases part with
    | text fragment => rw [Part.nodes, Part.nodes, map_settle_leaves]
    | code statements => rfl

theorem heredocPart_node (part : Node) :
    heredocPart (.node (part.under .unlabeled)) =
      .node ((settle .heredocContent part).under .unlabeled) := by
  by_cases h : part.kind = .stringContent
  · simp [heredocPart, settle, Node.under, Node.retag, h]
  · simp [heredocPart, settle, Node.under, h]

theorem closeHeredoc_attachAll (parts : List Node) :
    closeHeredoc ((Node.ofKind .heredocBody).attachAll parts) =
      (Node.ofKind .heredocBody).attachAll
        (parts.map (settle .heredocContent) ++ [.ofKind .heredocEnd]) := by
  simp [closeHeredoc, Node.attachAll, Node.attach, Node.ofKind, Function.comp_def, heredocPart_node]

theorem gives_stringLiteral (literal : Node) (opener : String) (openers : List String) :
    Gives .stringLiteral [.node literal] (opener :: openers) (.node (closeHeredoc literal))
      openers := by
  refine fun context h => ⟨{ context with openers := openers }, ?_, rfl⟩
  simp [ruleOf, Rule.apply, stringLiteral, Build.exec_closeLiteral_of_openers_cons h, Except.map]

theorem gives_dynaSymbol (literal : Value) (opener : String) (openers : List String) :
    Gives .dynaSymbol [literal] (opener :: openers) literal openers := by
  refine fun context h => ⟨{ context with openers := openers }, ?_, rfl⟩
  simp [ruleOf, Rule.apply, quotedSymbol, Build.exec_closeLiteral_of_openers_cons h, Except.map]

theorem gives_regexpLiteral (parts : List Node) (closer : Value) (opener : String)
    (openers : List String) :
    Gives .regexpLiteral [.ofNodes parts, closer] (opener :: openers)
      (.node ((Node.ofKind .regex).attachAll parts)) openers := by
  refine fun context h => ⟨{ context with openers := openers }, ?_, rfl⟩
  simp [ruleOf, Rule.apply, regexpLiteral, Build.exec_closeLiteral_of_openers_cons h, Except.map]

theorem gives_closing (family : Family) (parts : List Node) (opener : String)
    (openers : List String) :
    Gives family.form.closing (family.gathered parts :: family.form.closers.map .text)
      (opener :: openers)
      (.node ((Node.ofKind family.kind).attachAll
        (parts.map (settle family.content) ++ family.ending)))
      openers := by
  have hparts : parts.map (settle .stringContent) ++ [] = parts := by
    rw [List.append_nil, List.map_id'' settle_stringContent]
  cases family with
  | string =>
    have hliteral := gives_stringLiteral ((Node.ofKind .stringLiteral).attachAll parts)
    rw [closeHeredoc_of_kind_ne (by simp [Node.attachAll, Node.ofKind])] at hliteral
    simp only [Family.content, Family.ending, hparts]
    exact hliteral opener openers
  | symbol =>
    simp only [Family.content, Family.ending, hparts]
    exact gives_dynaSymbol _ opener openers
  | heredoc =>
    have hliteral := gives_stringLiteral ((Node.ofKind .heredocBody).attachAll parts)
    rw [closeHeredoc_attachAll] at hliteral
    exact hliteral opener openers
  | regexp closer =>
    simp only [Family.content, Family.ending, hparts]
    exact gives_regexpLiteral parts (.text closer) opener openers

/-! ## Adding parts -/

/-- Parts gathered so far grow by what a production adds: a text its leaves, a node itself. -/
structure Adds (add : Production) (gathered : List Node → Value) : Prop where
  text : ∀ (parts : List Node) (text opener : String) (openers : List String),
    Gives add [gathered parts, .text text] (opener :: openers)
      (gathered (parts ++ leaves .stringContent (Opener.isRaw opener) text)) (opener :: openers)
  node : ∀ (parts : List Node) (part : Node) (openers : List String),
    Gives add [gathered parts, .node part] openers (gathered (parts ++ [part])) openers

theorem adds_stringAdd (kind : Kind) :
    Adds .stringAdd fun parts => .node ((Node.ofKind kind).attachAll parts) where
  text parts text opener openers := by
    refine fun context h => ⟨context, ?_, h⟩
    simp [ruleOf, Rule.apply, stringAdd, Except.map, splitContent_eq h]
  node parts part openers := by
    refine fun context h => ⟨context, ?_, h⟩
    simp [ruleOf, Rule.apply, stringAdd, Except.map, Node.attach?]

/-- Regular expressions and words gather their parts in the same way. -/
theorem adds_addPart {add : Production} {what : String} (h : ruleOf add = .two (addPart what)) :
    Adds add .ofNodes where
  text parts text opener openers := by
    refine fun context hopeners => ⟨context, ?_, hopeners⟩
    simp [h, Rule.apply, addPart, contentParts, splitContent_eq hopeners, Value.ofNodes, Except.map]
  node parts part openers := by
    refine fun context hopeners => ⟨context, ?_, hopeners⟩
    simp [h, Rule.apply, addPart, contentParts, Value.ofNodes, Except.map]

theorem adds_wordAdd : Adds .wordAdd .ofNodes := adds_addPart rfl

theorem adds_family (family : Family) : Adds family.form.adding family.gathered := by
  cases family with
  | regexp closer => exact adds_addPart rfl
  | string => exact adds_stringAdd .stringLiteral
  | symbol => exact adds_stringAdd .delimitedSymbol
  | heredoc => exact adds_stringAdd .heredocBody

/-! ## Word arrays -/

namespace Element

/-- An array to which words have been added. -/
def gathered (element : Element) (words : List Node) : Value :=
  .node ((Node.ofKind element.arrayKind).attachAll words)

end Element

theorem gives_arrayOpening (element : Element) (texts : Bool) (opener : String)
    (openers : List String) :
    Gives (element.form texts).opening [.text opener] openers .absent (opener :: openers) := by
  cases element <;> cases texts <;>
    exact fun context h => ⟨_, rfl, congrArg (opener :: ·) h⟩

theorem gives_arrayBeginning (element : Element) (texts : Bool) (openers : List String) :
    Gives (element.form texts).beginning [] openers (element.gathered []) openers := by
  cases element <;> cases texts <;> exact fun context h => ⟨context, rfl, h⟩

theorem gives_arrayLiteral (element : Element) (words : List Node) (opener : String)
    (openers : List String) :
    Gives .arrayLiteral [element.gathered words] (opener :: openers) (element.gathered words)
      openers := by
  refine fun context h => ⟨{ context with openers := openers }, ?_, rfl⟩
  have harray : ((Node.ofKind element.arrayKind).attachAll words).kind = .stringArray ∨
      ((Node.ofKind element.arrayKind).attachAll words).kind = .symbolArray := by
    cases element with
    | string => exact .inl rfl
    | symbol => exact .inr rfl
  simp [ruleOf, Rule.apply, Element.gathered, array, harray,
    Build.exec_closeLiteral_of_openers_cons h, Except.map]

theorem gives_arrayClosing (element : Element) (texts : Bool) (words : List Node)
    (opener : String) (openers : List String) :
    Gives (element.form texts).closing
      (element.gathered words :: (element.form texts).closers.map .text) (opener :: openers)
      (element.gathered words) openers := by
  cases element <;> cases texts <;> exact gives_arrayLiteral _ words opener openers

theorem gives_addWord (element : Element) (words parts : List Node) (openers : List String) :
    Gives (element.form false).adding [element.gathered words, .ofNodes parts] openers
      (element.gathered (words ++ [(Node.ofKind element.kind).attachAll parts])) openers := by
  refine fun context h => ⟨context, ?_, h⟩
  cases element <;>
    simp [Element.form, Element.gathered, Element.kind, ruleOf, Rule.map₂, Rule.apply, addWord,
      bind, Except.bind, pure, Except.pure]

theorem gives_addRawWord (element : Element) (words : List Node) (fragment : Fragment)
    (opener : String) (openers : List String) :
    Gives (element.form true).adding [element.gathered words, .text fragment.text]
      (opener :: openers)
      (element.gathered (words ++ [rawWordNode element (Opener.isRaw opener) fragment]))
      (opener :: openers) := by
  refine fun context h => ⟨context, ?_, h⟩
  cases element <;>
    simp [Element.form, Element.gathered, Element.kind, rawWordNode, ruleOf, Rule.apply,
      addRawWord, contentParts, splitContent_eq h, Value.asNodes, Except.map]

end Literal

end RubyTree
