import RubyTree.Proofs.Literal.Stack
import RubyTree.Replay

/-!
# Commands inside other literals

A command is begun by an event that is handed nothing. The token scanned there is its opener, unless
the innermost open literal is a heredoc: then the event is taken for the beginning of the body of
that heredoc, and no opener is put on the stack. The event that completes the command takes an
opener off in either case.

So a command nests in every literal but a heredoc, `nests_iff`. Inside an interpolation of a heredoc
it becomes another body of that heredoc, and the opener of the heredoc is gone once the command is
complete: the heredoc itself cannot be completed any more.

Results:

* `Command.exec_record_of_inHeredoc`, `Command.exec_record_of_not_inHeredoc`: what the events of a
  command come to, with and without a heredoc around it.
* `nests_iff`: a command yields a command and keeps the stack exactly where no heredoc is innermost.
-/

namespace RubyTree.Literal

open Rules

/-! ## Moments -/

/-- When an event fires: its place, the token scanned there, and what the events since the last one
    of the same literal did to the memory. Those complete whatever literals they open. -/
structure Moment where
  position : Position
  token : Option String
  meanwhile : Context → Context
  openers_meanwhile : ∀ context, (meanwhile context).openers = context.openers

namespace Moment

/-- The memory an event meets at some moment. -/
def reached (moment : Moment) (context : Context) : Context :=
  (moment.meanwhile context).enter moment.position moment.token

/-- An event that fires at some moment. -/
def fire (moment : Moment) (production : Production) (arguments : List Value) : Build Value := do
  Build.note moment.meanwhile
  handle production.name arguments moment.position moment.token

@[simp] theorem openers_reached (moment : Moment) (context : Context) :
    (moment.reached context).openers = context.openers := moment.openers_meanwhile context

theorem exec_fire (moment : Moment) (production : Production) (arguments : List Value)
    (context : Context) :
    (moment.fire production arguments).exec context =
      ((ruleOf production).apply production.name arguments).exec (moment.reached context) := by
  rw [fire, Build.exec_bind, Build.exec_note]
  exact exec_handle_name production arguments moment.position moment.token _

/-- What a rule gives, it gives at every moment. -/
theorem exec_fire_of_gives {production : Production} {arguments : List Value} {value : Value}
    {openers left : List String} (hrule : Gives production arguments openers value left)
    (moment : Moment) {context : Context} (h : context.openers = openers) :
    ∃ changed, (moment.fire production arguments).exec context = (.ok value, changed) ∧
      changed.openers = left := by
  obtain ⟨changed, hexec, hchanged⟩ := hrule (moment.reached context) (by rw [openers_reached, h])
  exact ⟨changed, by rw [exec_fire, hexec], hchanged⟩

end Moment

theorem openers_id (context : Context) : (id context).openers = context.openers := rfl

/-- A moment on the first line, with nothing in between. -/
def Moment.inColumn (column : Nat) : Moment := ⟨⟨1, column⟩, none, id, openers_id⟩

/-! ## Commands and how they are recorded -/

/-- A part of a command: a text, or the nodes of an interpolation. -/
inductive CommandPart where
  | text (text : String)
  | code (statements : List Node)

namespace CommandPart

/-- What the event that adds a part is handed. -/
def value : CommandPart → Value
  | text t => .text t
  | code statements => .node ((Node.ofKind .interpolation).attachAll statements)

/-- The nodes of a part. -/
def nodes (raw : Bool) : CommandPart → List Node
  | text t => leaves .stringContent raw t
  | code statements => [(Node.ofKind .interpolation).attachAll statements]

end CommandPart

/-- Adds a part to a literal by a production. -/
def addTo (add : Production) (literal : Value) (addition : Moment × CommandPart) : Build Value :=
  addition.1.fire add [literal, addition.2.value]

section Adding

variable {add : Production} {gathered : List Node → Value} {opener : String} {openers : List String}
  {context : Context}

theorem exec_addTo (hadds : Adds add gathered) (parts : List Node)
    (addition : Moment × CommandPart) (h : context.openers = opener :: openers) :
    ∃ changed, (addTo add (gathered parts) addition).exec context =
        (.ok (gathered (parts ++ addition.2.nodes (Opener.isRaw opener))), changed) ∧
      changed.openers = opener :: openers := by
  obtain ⟨moment, part⟩ := addition
  cases part with
  | text t => exact moment.exec_fire_of_gives (hadds.text parts t opener openers) h
  | code statements => exact moment.exec_fire_of_gives (hadds.node parts _ (opener :: openers)) h

/-- Adding parts keeps the stack. By induction on the parts, whatever has been gathered before. -/
theorem exec_foldlM_addTo (hadds : Adds add gathered) (additions : List (Moment × CommandPart))
    (parts : List Node) (h : context.openers = opener :: openers) :
    ∃ changed, (additions.foldlM (addTo add) (gathered parts)).exec context =
        (.ok (gathered (parts ++ additions.flatMap fun a => a.2.nodes (Opener.isRaw opener))),
          changed) ∧
      changed.openers = opener :: openers := by
  induction additions generalizing parts context with
  | nil => exact ⟨context, by simp, h⟩
  | cons addition additions ih =>
    obtain ⟨between, hadd, hbetween⟩ := exec_addTo hadds parts addition h
    obtain ⟨changed, hrest, hchanged⟩ :=
      ih (parts ++ addition.2.nodes (Opener.isRaw opener)) hbetween
    refine ⟨changed, ?_, hchanged⟩
    rw [List.foldlM_cons, Build.exec_bind, hadd]
    simp only [hrest, List.flatMap_cons, List.append_assoc]

end Adding

/-- A command by the moments of its events and by its parts. -/
structure Command where
  beginning : Moment
  additions : List (Moment × CommandPart)
  closing : Moment

namespace Command

/-- Adds a part to a literal. -/
def add (literal : Value) (addition : Moment × CommandPart) : Build Value :=
  addition.1.fire .xstringAdd [literal, addition.2.value]

/-- The events of a command, one after the other. -/
def record (command : Command) : Build Value := do
  let begun ← command.beginning.fire .xstringNew []
  let whole ← command.additions.foldlM add begun
  command.closing.fire .xstringLiteral [whole]

/-- The text that opens a command. -/
def opener (command : Command) : String := command.beginning.token.getD "`"

/-- The nodes of the parts, where texts are split as an opener demands. -/
def nodes (command : Command) (opener : String) : List Node :=
  command.additions.flatMap fun addition => addition.2.nodes (Opener.isRaw opener)

/-- The node of a command. -/
def subshell (command : Command) : Node :=
  (Node.ofKind .subshell).attachAll (command.nodes command.opener)

/-- The body that a command is taken for inside a heredoc with the given opener. -/
def bodyIn (command : Command) (heredoc : String) : Node :=
  (Node.ofKind .heredocBody).attachAll
    ((command.nodes heredoc).map (settle .heredocContent) ++ [.ofKind .heredocEnd])

/-! ## From the first event to the last -/

/-- Commands and strings gather their parts in the same way. -/
theorem adds_xstringAdd (kind : Kind) :
    Adds .xstringAdd fun parts => .node ((Node.ofKind kind).attachAll parts) :=
  ⟨(adds_stringAdd kind).text, (adds_stringAdd kind).node⟩

theorem exec_foldlM_add (kind : Kind) (additions : List (Moment × CommandPart)) {opener : String}
    {openers : List String} (gathered : List Node) {context : Context}
    (h : context.openers = opener :: openers) :
    ∃ changed, (additions.foldlM add (.node ((Node.ofKind kind).attachAll gathered))).exec context =
        (.ok (.node ((Node.ofKind kind).attachAll
          (gathered ++ additions.flatMap fun a => a.2.nodes (Opener.isRaw opener)))), changed) ∧
      changed.openers = opener :: openers :=
  exec_foldlM_addTo (adds_xstringAdd kind) additions gathered h

/-- Once a command is begun, the rest of it is added and an opener is taken off. -/
theorem exec_record_of_begun (command : Command) {kind : Kind} {opener : String}
    {openers : List String} {context begun : Context}
    (hbegun : (command.beginning.fire .xstringNew []).exec context =
      (.ok (.node (.ofKind kind)), begun))
    (h : begun.openers = opener :: openers) :
    ∃ changed, command.record.exec context =
        (.ok (.node (closeHeredoc ((Node.ofKind kind).attachAll (command.nodes opener)))),
          changed) ∧
      changed.openers = openers := by
  obtain ⟨grown, hgrown, hopeners⟩ := exec_foldlM_add kind command.additions [] h
  have hclosing : Gives .xstringLiteral
      [.node ((Node.ofKind kind).attachAll (command.nodes opener))] (opener :: openers)
      (.node (closeHeredoc ((Node.ofKind kind).attachAll (command.nodes opener)))) openers :=
    gives_stringLiteral _ opener openers
  obtain ⟨changed, hclose, hchanged⟩ := command.closing.exec_fire_of_gives hclosing hopeners
  refine ⟨changed, ?_, hchanged⟩
  rw [record, Build.exec_bind, hbegun]
  rw [show (Node.ofKind kind).attachAll [] = Node.ofKind kind from rfl, List.nil_append] at hgrown
  simp only [Build.exec_bind, hgrown]
  exact hclose

/-- The first event asks for the innermost literal, and for nothing else on the stack. -/
theorem exec_beginning (command : Command) (context : Context) :
    (command.beginning.fire .xstringNew []).exec context =
      if context.inHeredoc then
        (.ok (.node (.ofKind .heredocBody)), command.beginning.reached context)
      else
        (.ok (.node (.ofKind .subshell)),
          (command.beginning.reached context).openLiteral command.opener) := by
  have hheredoc : (command.beginning.reached context).inHeredoc = context.inHeredoc := by
    simp only [Context.inHeredoc, Context.opener?, Moment.openers_reached]
  have hrule : (ruleOf .xstringNew).apply Production.xstringNew.name [] = commandContent := rfl
  rw [Moment.exec_fire, hrule, commandContent, Build.exec_bind, Build.exec_context]
  simp only [hheredoc]
  cases context.inHeredoc <;> rfl

theorem exec_record_of_not_inHeredoc (command : Command) {context : Context}
    (h : context.inHeredoc = false) :
    ∃ changed, command.record.exec context = (.ok (.node command.subshell), changed) ∧
      changed.openers = context.openers := by
  have hbegun := command.exec_beginning context
  rw [h, if_neg Bool.false_ne_true] at hbegun
  have hopeners : ((command.beginning.reached context).openLiteral command.opener).openers =
      command.opener :: context.openers := by
    rw [Context.openLiteral, Moment.openers_reached]
  have hrecord := command.exec_record_of_begun hbegun hopeners
  rwa [closeHeredoc_of_kind_ne (by simp [Node.attachAll, Node.ofKind])] at hrecord

theorem exec_record_of_inHeredoc (command : Command) {context : Context} {heredoc : String}
    {openers : List String} (hopeners : context.openers = heredoc :: openers)
    (h : Opener.isHeredoc heredoc = true) :
    ∃ changed, command.record.exec context = (.ok (.node (command.bodyIn heredoc)), changed) ∧
      changed.openers = openers := by
  have hbegun := command.exec_beginning context
  have hinside : context.inHeredoc = true := by
    simp [Context.inHeredoc, Context.opener?, hopeners, h]
  rw [hinside, if_pos rfl] at hbegun
  have hrecord := command.exec_record_of_begun hbegun
    ((command.beginning.openers_reached context).trans hopeners)
  rwa [closeHeredoc_attachAll] at hrecord

/-! ## Where commands nest -/

/-- The events of a command yield a command and leave the stack of openers as it was. -/
def Nests (command : Command) (context : Context) : Prop :=
  ∃ parts changed, command.record.exec context =
      (.ok (.node ((Node.ofKind .subshell).attachAll parts)), changed) ∧
    changed.openers = context.openers

theorem not_nests_of_inHeredoc (command : Command) {context : Context}
    (h : context.inHeredoc = true) : ¬ command.Nests context := by
  rintro ⟨parts, kept, hexec, -⟩
  cases hopeners : context.openers with
  | nil => simp [Context.inHeredoc, Context.opener?, hopeners] at h
  | cons heredoc openers =>
    have hheredoc : Opener.isHeredoc heredoc = true := by
      simpa [Context.inHeredoc, Context.opener?, hopeners] using h
    obtain ⟨changed, hbody, -⟩ := command.exec_record_of_inHeredoc hopeners hheredoc
    rw [hbody] at hexec
    simp [bodyIn, Node.attachAll, Node.ofKind] at hexec

/-- What the events of a command yield, by the heredoc that is innermost, if one is. -/
def nodeIn (command : Command) : Option String → Node
  | none => command.subshell
  | some heredoc => command.bodyIn heredoc

/-- A command nests exactly where the innermost literal is not a heredoc. There it is split by its
    own opener; inside a heredoc it comes to a body of that heredoc, split by the opener of the
    heredoc, which is taken off the stack. -/
theorem nests_iff (command : Command) (context : Context) :
    (command.Nests context ↔ context.inHeredoc = false) ∧
    ∃ changed, command.record.exec context =
        (.ok (.node (command.nodeIn (context.opener?.filter Opener.isHeredoc))), changed) ∧
      changed.openers = if context.inHeredoc then context.openers.tail else context.openers := by
  cases hinside : context.inHeredoc with
  | false =>
    obtain ⟨changed, hexec, hchanged⟩ := command.exec_record_of_not_inHeredoc hinside
    have hnone : context.opener?.filter Opener.isHeredoc = none := by
      cases hopener : context.opener? <;> simp_all [Context.inHeredoc]
    rw [hnone]
    exact ⟨⟨fun _ => rfl, fun _ => ⟨_, changed, hexec, hchanged⟩⟩, changed, hexec, hchanged⟩
  | true =>
    obtain ⟨heredoc, hopener, hheredoc⟩ : ∃ heredoc, context.opener? = some heredoc ∧
        Opener.isHeredoc heredoc = true := (Option.any_eq_true _ _).mp hinside
    obtain ⟨openers, hopeners⟩ := List.head?_eq_some_iff.mp hopener
    obtain ⟨changed, hexec, hchanged⟩ := command.exec_record_of_inHeredoc hopeners hheredoc
    rw [hopener, Option.filter_some_pos hheredoc]
    refine ⟨iff_of_false (command.not_nests_of_inHeredoc hinside) (by decide), changed, hexec, ?_⟩
    rw [hchanged, hopeners]
    rfl

/-- The command `ls` between backticks, scanned right after what stands in front of it. -/
def listing : Command where
  beginning := ⟨⟨1, 6⟩, some "`", id, fun _ => rfl⟩
  additions := [(⟨⟨1, 7⟩, some "ls", id, fun _ => rfl⟩, .text "ls")]
  closing := ⟨⟨1, 9⟩, some "`", id, fun _ => rfl⟩

/-- A heredoc whose interpolation is that command. -/
def listingInHeredoc : List Event := [
  { name := "heredoc_beg", args := [.text "<<A"] },
  { name := "string_content" },
  { name := "xstring_new", token := some "`" },
  { name := "xstring_add", args := [.ref 2, .text "ls"] },
  { name := "xstring_literal", args := [.ref 3] },
  { name := "string_embexpr", args := [.list [.ref 4]] },
  { name := "string_add", args := [.ref 1, .ref 5] },
  { name := "string_literal", args := [.ref 6] },
  { name := "program", args := [.list [.ref 7]] }]

/-- The command does not nest in a heredoc, and the heredoc cannot be completed after it. -/
theorem listing_not_nests : ¬ listing.Nests (Context.initial.openLiteral "<<A") ∧
    replay listingInHeredoc =
      .error (.event 7 "string_literal" 0 0 (.shape .noOpenLiteral)) := by
  refine ⟨not_nests_of_inHeredoc listing (by decide), ?_⟩
  rfl

end Command

end RubyTree.Literal
