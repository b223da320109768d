import RubyTree.Proofs.Literal.Stack
import RubyTree.Proofs.Replay.Run

/-!
# Nested literals

Literals nest to any depth, and all of them share one stack of openers. A literal leaves the stack
as it found it, so what its parts are split by is its own opener, before and after a literal inside
it. The proof is one induction on literals and their parts together, for any stack.

Results:

* `Makes.trans`: what one run of events makes, the next may go on with.
* `makes_written`: the events of a literal make its node and keep the openers.
* `run_events`: from wherever a replay stands, the events of a literal are handled without failure,
  yield its node and restore the stack of openers.
-/

namespace RubyTree.Literal

/-! ## What events make -/

/-- From every context with these openers, the events lead from the results `before` to the results
    `after`, and to the openers `left`. -/
def Leads (before : Results) (openers : List String) (events : List Event) (after : Results)
    (left : List String) : Prop :=
  ∀ context : Context, context.openers = openers → ∃ changed : Context,
    Replay.run ⟨context, before⟩ events = .ok ⟨changed, after⟩ ∧ changed.openers = left

/-- The events lead to results that begin with `base` and end with `value`. -/
def Makes (base before : Results) (openers : List String) (events : List Event) (value : Value)
    (left : List String) : Prop :=
  ∃ spent, Leads before openers events (base ++ spent ++ [some value]) left

variable {stamp : Stamp} {base before middle after : Results} {openers between left : List String}
  {front back : List Event} {value last : Value}

theorem Leads.append (hfront : Leads before openers front middle between)
    (hback : Leads middle between back after left) :
    Leads before openers (front ++ back) after left := by
  intro context hcontext
  obtain ⟨halfway, hrun, hhalfway⟩ := hfront context hcontext
  obtain ⟨changed, hrest, hchanged⟩ := hback halfway hhalfway
  refine ⟨changed, ?_, hchanged⟩
  rw [Replay.run_append_of_run hrun, hrest]

theorem Leads.length (h : Leads before openers front after left) :
    after.length = before.length + front.length := by
  obtain ⟨changed, hrun, -⟩ := h { openers } rfl
  exact Replay.length_results_of_run hrun

/-- One event, when its arguments can be resolved and its rule takes them to a value. -/
theorem leads_fire (stamp : Stamp) {production : Production} {args : List Arg}
    {values : List Value} {rest : Results} (index : Nat)
    (hargs : before.resolveAll args = .ok (values, rest))
    (hrule : Gives production values openers value left) :
    Leads before openers [fire stamp index production args] (rest ++ [some value]) left := by
  intro context hcontext
  have henter : (context.enter (stamp index).1 (stamp index).2).openers = openers := hcontext
  obtain ⟨changed, hexec, hchanged⟩ := hrule _ henter
  refine ⟨changed, ?_, hchanged⟩
  have hstep : Replay.step ⟨context, before⟩ (fire stamp index production args) =
      .ok ⟨changed, rest ++ [some value]⟩ := by
    rw [Replay.step_eq_ok_iff, Replay.handleEvent_eq_ok_iff]
    refine ⟨values, rest, value, hargs, ?_, rfl⟩
    rw [fire, exec_handle_name, hexec]
  rw [Replay.run_cons, hstep]
  rfl

theorem Leads.makes (h : Leads before openers front (base ++ [some value]) left) :
    Makes base before openers front value left :=
  ⟨[], by rwa [List.append_nil]⟩

/-- No events leave the value that was made last. -/
theorem makes_nothing (h : last = value) :
    Makes base (base ++ [some value]) openers [] last openers := by
  subst h
  exact ⟨[], fun context hcontext => ⟨context, by simp, hcontext⟩⟩

theorem Leads.then_makes (hfront : Leads before openers front middle between)
    (hback : Makes base middle between back value left) :
    Makes base before openers (front ++ back) value left := by
  obtain ⟨spent, hspent⟩ := hback
  exact ⟨spent, hfront.append hspent⟩

/-- A run goes on from the value that was made last. Whatever lies below that value stays there. -/
theorem Makes.trans (hfront : Makes base before openers front value between)
    (hback : ∀ lower : Results, lower.length + 1 = before.length + front.length →
      Makes lower (lower ++ [some value]) between back last left) :
    Makes base before openers (front ++ back) last left := by
  obtain ⟨spent, hspent⟩ := hfront
  have hlength := hspent.length
  rw [List.length_append, List.length_singleton] at hlength
  obtain ⟨more, hmore⟩ := hback (base ++ spent) hlength
  refine ⟨spent ++ more, ?_⟩
  rw [← List.append_assoc base]
  exact hspent.append hmore

theorem Makes.of_append {more : Results}
    (h : Makes (base ++ more) before openers front value left) :
    Makes base before openers front value left := by
  obtain ⟨spent, hspent⟩ := h
  exact ⟨more ++ spent, by rwa [← List.append_assoc]⟩

theorem length_eq_of_trans {lower : Results}
    (h : lower.length + 1 = (base ++ [some value]).length + front.length) :
    lower.length = base.length + front.length := by
  rw [List.length_append, List.length_singleton] at h
  omega

/-- The value made last is handed to a rule, with some texts. -/
theorem makes_taken (stamp : Stamp) {lower : Results} {production : Production}
    (texts : List String) {reference : Nat} (index : Nat) (hlower : lower.length = reference)
    (hrule : Gives production (value :: texts.map .text) openers last left) :
    Makes lower (lower ++ [some value]) openers
      [fire stamp index production (.ref reference :: texts.map .text)] last left := by
  subst hlower
  have htake := Results.take_middle lower [] value
  have hargs := Results.resolveAll_ref_cons htake (Results.resolveAll_texts _ texts)
  exact ⟨[none], leads_fire stamp index hargs hrule⟩

/-- A part is made and then added to the value that was made before it. -/
theorem makes_joined {add : Production} {held part : Value} {events : List Event}
    (hpart : Makes (base ++ [some held]) (base ++ [some held]) openers events part between)
    (hadd : Gives add [held, part] between value left) :
    Makes base (base ++ [some held]) openers (joined stamp add base.length events) value left := by
  obtain ⟨spent, hspent⟩ := hpart
  have hlength := hspent.length
  simp only [List.length_append, List.length_singleton] at hlength
  have hheld := Results.take_middle base (spent ++ [some part]) held
  have htake := Results.take_middle (base ++ none :: spent) [] part
  have hindex : (base ++ none :: spent).length = base.length + events.length := by
    simp only [List.length_append, List.length_cons]
    omega
  rw [hindex] at htake
  simp only [List.append_assoc, List.cons_append] at htake
  have hargs := Results.resolveAll_ref_cons hheld
    (Results.resolveAll_ref_cons htake (Results.resolveAll_nil _))
  refine ⟨none :: spent ++ [none], ?_⟩
  refine hspent.append ?_
  simpa using leads_fire stamp (base.length + 1 + events.length) hargs hadd

theorem makes_addFragment {add : Production} {held : Value} {fragment : Fragment}
    (hadd : Gives add [held, .text fragment.text] openers value left) :
    Makes base (base ++ [some held]) openers (addFragment stamp add base.length fragment) value
      left := by
  unfold addFragment
  split
  · have hscan := leads_fire stamp (base.length + 1)
      (Results.resolveAll_text (base ++ [some held]) fragment.text)
      (gives_tstringContent (.text fragment.text) openers)
    exact makes_joined hscan.makes hadd
  · have hheld := Results.take_middle base [] held
    have hargs := Results.resolveAll_ref_cons hheld (Results.resolveAll_text _ fragment.text)
    exact ⟨[none], by simpa using leads_fire stamp (base.length + 1) hargs hadd⟩

/-- Once the first statement is there, a list of statements is begun, and the statement is added. -/
theorem makes_firstStatement (stamp : Stamp) {lower : Results} (index : Nat) (statement : Node)
    (openers : List String) (hlower : lower.length = index) :
    Makes lower (lower ++ [some (.node statement)]) openers
      [fire stamp (index + 1) .stmtsNew [],
        fire stamp (index + 2) .stmtsAdd [.ref (index + 1), .ref index]]
      (.ofNodes [statement]) openers := by
  subst hlower
  have hnew := leads_fire stamp (lower.length + 1)
    (Results.resolveAll_nil (lower ++ [some (.node statement)])) (gives_stmtsNew openers)
  have hlist := Results.take_middle (lower ++ [some (.node statement)]) [] (.ofNodes [])
  have hstatement := Results.take_middle lower [none] (.node statement)
  rw [List.length_append, List.length_singleton] at hlist
  rw [← List.singleton_append, ← List.append_assoc] at hstatement
  have hargs := Results.resolveAll_ref_cons hlist
    (Results.resolveAll_ref_cons hstatement (Results.resolveAll_nil _))
  have hadd := leads_fire stamp (lower.length + 2) hargs (gives_stmtsAdd [] statement openers)
  exact ⟨[none, none], by simpa using hnew.append hadd⟩

/-- A literal of a form, from what its rules give and what adding its parts makes. -/
theorem makes_enclosed {form : Form} {opener : String} {opened begun whole : Value}
    {added : List Event}
    (hopening : Gives form.opening [.text opener] openers opened (opener :: openers))
    (hbeginning : Gives form.beginning [] (opener :: openers) begun (opener :: openers))
    (hadded : ∀ lower : Results, lower.length = base.length + 1 →
      Makes lower (lower ++ [some begun]) (opener :: openers) added whole (opener :: openers))
    (hclosing : Gives form.closing (whole :: form.closers.map .text) (opener :: openers) value
      openers) :
    Makes base base openers (enclosed stamp form base.length opener added) value openers := by
  have hfirst := leads_fire stamp base.length (Results.resolveAll_text base opener) hopening
  have hsecond := leads_fire stamp (base.length + 1)
    (Results.resolveAll_nil (base ++ [some opened])) hbeginning
  have hlower : (base ++ [some opened]).length = base.length + 1 := by
    rw [List.length_append, List.length_singleton]
  have hrest := (hadded (base ++ [some opened]) hlower).trans fun lower hlast =>
    makes_taken stamp form.closers (base.length + 2 + added.length)
      ((length_eq_of_trans hlast).trans (congrArg (· + added.length) hlower)) hclosing
  exact (hfirst.append hsecond).then_makes hrest.of_append

/-! ## Literals and their parts -/

theorem makes_addRawWords (stamp : Stamp) (element : Element) (opener : String)
    (openers : List String) (words : List Fragment) (base : Results) (nodes : List Node) :
    Makes base (base ++ [some (element.gathered nodes)]) (opener :: openers)
      (addRawWords stamp (element.form true).adding base.length words)
      (element.gathered (nodes ++ words.map (rawWordNode element (Opener.isRaw opener))))
      (opener :: openers) := by
  induction words generalizing base nodes with
  | nil => exact makes_nothing (by simp)
  | cons word words ih =>
    refine (makes_addFragment (gives_addRawWord element nodes word opener openers)).trans ?_
    intro lower hlower
    have hwords := ih lower (nodes ++ [rawWordNode element (Opener.isRaw opener) word])
    rw [length_eq_of_trans hlower, List.append_assoc] at hwords
    exact hwords

-- By induction on the literal. The results and the openers around it are arbitrary: a literal in
-- a part is met with those of the literal that it stands in.
mutual

/-- The events of a literal make its node, whatever is open around it, and leave that open. -/
theorem makes_written : (literal : Written) → (base : Results) → (openers : List String) →
    Makes base base openers (literal.events stamp base.length) (.node literal.node) openers
  | .quoted quote parts, base, openers => by
    obtain ⟨opened, hopening⟩ := gives_opening quote.family quote.opener openers
    have hclosing := gives_closing quote.family
      (partNodes .stringContent (Opener.isRaw quote.opener) parts) quote.opener openers
    -- every part is added as string content, and the closing event settles what it becomes
    rw [map_settle_partNodes] at hclosing
    refine makes_enclosed hopening (gives_beginning quote openers) ?_ hclosing
    intro lower hlower
    have hparts := makes_addParts (adds_family quote.family) parts lower [] quote.opener openers
    rw [hlower] at hparts
    exact hparts
  | .words element opener words, base, openers => by
    refine makes_enclosed (gives_arrayOpening element false opener openers)
      (gives_arrayBeginning element false _) ?_ (gives_arrayClosing element false _ opener openers)
    intro lower hlower
    have hwords := makes_addWords element words lower [] opener openers
    rw [hlower] at hwords
    exact hwords
  | .rawWords element opener words, base, openers => by
    refine makes_enclosed (gives_arrayOpening element true opener openers)
      (gives_arrayBeginning element true _) ?_ (gives_arrayClosing element true _ opener openers)
    intro lower hlower
    have hwords := makes_addRawWords stamp element opener openers words lower []
    rw [hlower] at hwords
    exact hwords

theorem makes_added {add : Production} {gathered : List Node → Value} (hadd : Adds add gathered) :
    (part : Part) → (base : Results) → (nodes : List Node) → (opener : String) →
    (openers : List String) →
    Makes base (base ++ [some (gathered nodes)]) (opener :: openers)
      (part.added stamp add base.length)
      (gathered (nodes ++ part.nodes .stringContent (Opener.isRaw opener))) (opener :: openers)
  | .text fragment, base, nodes, opener, openers =>
    makes_addFragment (hadd.text nodes fragment.text opener openers)
  | .code statements, base, nodes, opener, openers => by
    refine makes_joined ?_ (hadd.node nodes _ _)
    have hbase : (base ++ [some (gathered nodes)]).length = base.length + 1 := by
      rw [List.length_append, List.length_singleton]
    have hcode := makes_statementEvents statements (base ++ [some (gathered nodes)]) base.length
      hbase (opener :: openers)
    exact hcode.trans fun lower hlower =>
      makes_taken stamp [] _ (by omega) (gives_stringEmbexpr _ (opener :: openers))

theorem makes_addParts {add : Production} {gathered : List Node → Value}
    (hadd : Adds add gathered) :
    (parts : List Part) → (base : Results) → (nodes : List Node) → (opener : String) →
    (openers : List String) →
    Makes base (base ++ [some (gathered nodes)]) (opener :: openers)
      (addParts stamp add base.length parts)
      (gathered (nodes ++ partNodes .stringContent (Opener.isRaw opener) parts))
      (opener :: openers)
  | [], base, nodes, opener, openers => makes_nothing (by simp [partNodes])
  | part :: parts, base, nodes, opener, openers => by
    refine (makes_added hadd part base nodes opener openers).trans ?_
    intro lower hlower
    have hparts := makes_addParts hadd parts lower
      (nodes ++ part.nodes .stringContent (Opener.isRaw opener)) opener openers
    rw [length_eq_of_trans hlower, List.append_assoc] at hparts
    exact hparts

theorem makes_statementEvents : (statements : List Written) → (base : Results) → (last : Nat) →
    base.length = last + 1 → (openers : List String) →
    Makes base base openers (statementEvents stamp last statements)
      (.ofNodes (statementNodes statements)) openers
  | [], base, last, hlast, openers =>
    (leads_fire stamp _ (Results.resolveAll_nil base) (gives_stmtsNew openers)).makes
  | first :: statements, base, last, hlast, openers => by
    have hfirst := makes_written first base openers
    rw [hlast] at hfirst
    have hfront := hfirst.trans fun lower hlower =>
      makes_firstStatement stamp (last + (first.events stamp (last + 1)).length) first.node openers
        (by omega)
    refine hfront.trans fun lower hlower => ?_
    have hstatements := makes_addStatements statements lower [first.node] openers
    rw [hlast, Nat.add_right_comm] at hlower
    rw [Nat.succ.inj hlower] at hstatements
    exact hstatements

theorem makes_addStatements : (statements : List Written) → (base : Results) →
    (nodes : List Node) → (openers : List String) →
    Makes base (base ++ [some (.ofNodes nodes)]) openers
      (addStatements stamp base.length statements)
      (.ofNodes (nodes ++ statementNodes statements)) openers
  | [], base, nodes, openers => makes_nothing (by simp [statementNodes])
  | statement :: statements, base, nodes, openers => by
    have hliteral := makes_written statement (base ++ [some (.ofNodes nodes)]) openers
    rw [List.length_append, List.length_singleton] at hliteral
    refine (makes_joined hliteral (gives_stmtsAdd nodes statement.node openers)).trans ?_
    intro lower hlower
    have hstatements := makes_addStatements statements lower (nodes ++ [statement.node]) openers
    rw [length_eq_of_trans hlower, List.append_assoc] at hstatements
    exact hstatements

theorem makes_addWords (element : Element) : (words : List (List Part)) → (base : Results) →
    (nodes : List Node) → (opener : String) → (openers : List String) →
    Makes base (base ++ [some (element.gathered nodes)]) (opener :: openers)
      (addWords stamp (element.form false).adding base.length words)
      (element.gathered (nodes ++ wordNodes element (Opener.isRaw opener) words))
      (opener :: openers)
  | [], base, nodes, opener, openers => makes_nothing (by simp [wordNodes])
  | word :: words, base, nodes, opener, openers => by
    have hbegin := leads_fire stamp (base.length + 1)
      (Results.resolveAll_nil (base ++ [some (element.gathered nodes)]))
      (gives_wordNew (opener :: openers))
    have hparts := makes_addParts adds_wordAdd word (base ++ [some (element.gathered nodes)]) []
      opener openers
    rw [List.length_append, List.length_singleton] at hparts
    refine (makes_joined (hbegin.then_makes hparts)
      (gives_addWord element nodes _ (opener :: openers))).trans ?_
    intro lower hlower
    have hwords := makes_addWords element words lower
      (nodes ++ [(Node.ofKind element.kind).attachAll
        (partNodes .stringContent (Opener.isRaw opener) word)]) opener openers
    rw [length_eq_of_trans hlower, List.append_assoc] at hwords
    exact hwords

end

/-- From wherever a replay stands, the events of a literal are handled without failure. They leave
    the results before them as they are and the same literals open, and the last result is the node
    of the literal. -/
theorem run_events (stamp : Stamp) (literal : Written) (start : Replay) : ∃ context spent,
    start.run (literal.events stamp start.results.length) =
      .ok ⟨context, start.results ++ spent ++ [some (.node literal.node)]⟩ ∧
    context.openers = start.context.openers := by
  obtain ⟨spent, hspent⟩ := makes_written literal start.results start.context.openers
  obtain ⟨context, hrun, hopeners⟩ := hspent start.context rfl
  exact ⟨context, spent, hrun, hopeners⟩

/-- A heredoc `<<A` whose text ends in an escape, with a string between single quotes in its code. -/
def rawInHeredoc : Written :=
  .quoted ⟨.heredoc, "<<A", by decide⟩
    [.text ⟨"a\\n", true⟩,
      .code [.quoted ⟨.string, "'", by decide⟩ [.text ⟨"b\\n", false⟩]]]

/-- All events fire at the beginning of the first line. -/
def atStart : Stamp := fun _ => (⟨1, 0⟩, none)

/-- A backslash splits the text of the heredoc and not that of the string in it. -/
theorem run_events_rawInHeredoc : ∃ context spent,
    Replay.run ⟨.initial, []⟩
      [fire atStart 0 .heredocBeg [.text "<<A"],
        fire atStart 1 .stringContent [],
        fire atStart 2 .tstringContent [.text "a\\n"],
        fire atStart 3 .stringAdd [.ref 1, .ref 2],
        fire atStart 4 .tstringBeg [.text "'"],
        fire atStart 5 .stringContent [],
        fire atStart 6 .stringAdd [.ref 5, .text "b\\n"],
        fire atStart 7 .stringLiteral [.ref 6],
        fire atStart 8 .stmtsNew [],
        fire atStart 9 .stmtsAdd [.ref 8, .ref 7],
        fire atStart 10 .stringEmbexpr [.ref 9],
        fire atStart 11 .stringAdd [.ref 3, .ref 10],
        fire atStart 12 .stringLiteral [.ref 11]] =
      .ok ⟨context, spent ++ [some (.node ((Node.ofKind .heredocBody).attachAll
        [.leaf .heredocContent "a", .leaf .escapeSequence "\\n",
          (Node.ofKind .interpolation).attachAll
            [(Node.ofKind .stringLiteral).attachAll [.leaf .stringContent "b\\n"]],
          .ofKind .heredocEnd]))]⟩ ∧
    context.openers = [] := by
  obtain ⟨context, spent, hrun, hopeners⟩ := run_events atStart rawInHeredoc ⟨.initial, []⟩
  have hnode : rawInHeredoc.node = (Node.ofKind .heredocBody).attachAll
      [.leaf .heredocContent "a", .leaf .escapeSequence "\\n",
        (Node.ofKind .interpolation).attachAll
          [(Node.ofKind .stringLiteral).attachAll [.leaf .stringContent "b\\n"]],
        .ofKind .heredocEnd] := by
    decide +kernel
  rw [hnode] at hrun
  exact ⟨context, spent, hrun, hopeners⟩

end RubyTree.Literal
