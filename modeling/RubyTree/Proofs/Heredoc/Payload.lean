import Mathlib.Data.List.SplitBy
import RubyTree.Heredoc
import RubyTree.Proofs.Literal.Command

/-!
# What a heredoc body holds

A body that is taken out of an expression is put into a normal form: it starts with content, and of
content in a row only the first node is kept. All else in it stays as it is, so taking out a body
that is in normal form changes nothing.

While a heredoc is read, its texts are added as plain string content, and the event that completes
it turns them into content of the heredoc and puts the end behind them. Those two steps touch
neither escapes nor interpolations, and neither does taking out the body.

Results:

* `parts_eq`: the parts of a body, by the runs of content in it.
* `Recorded.exec_record`: what the events of a heredoc come to.
* `Recorded.filter_extract_body`: what stays of the nodes that were added.
* `extract_normalForm`: the normal form, and what it is for a recorded heredoc.
-/

namespace RubyTree.Heredoc

open Literal Rules

/-! ## The normal form -/

/-- Two nodes of content. -/
def bothContent (first second : Node) : Bool :=
  first.kind == .heredocContent && second.kind == .heredocContent

/-- The nodes, cut to the first one in each run of content. -/
def firstOfRuns (children : List Node) : List Node :=
  (children.splitBy bothContent).filterMap List.head?

/-- Empty content, if the first node is something else. -/
def leadingContent (children : List Node) : List Node :=
  if children.head?.any (·.kind != .heredocContent) then [.ofKind .heredocContent] else []

/-- An element that goes with the one behind it joins its run. -/
theorem splitBy_cons_cons {α : Type} {r : α → α → Bool} {a b : α} (h : r a b = true) (l : List α) :
    ∃ run runs, (b :: l).splitBy r = (b :: run) :: runs ∧
      (a :: b :: l).splitBy r = (a :: b :: run) :: runs := by
  obtain ⟨first, runs, hsplit⟩ := List.exists_cons_of_ne_nil
    (List.splitBy_ne_nil.mpr (List.cons_ne_nil b l) : (b :: l).splitBy r ≠ [])
  obtain ⟨hflatten, hnonempty, hchains, hbetween⟩ := List.splitBy_eq_iff.mp hsplit
  rw [List.mem_cons, not_or] at hnonempty
  obtain ⟨first, run, rfl⟩ := List.exists_cons_of_ne_nil (Ne.symm hnonempty.1)
  obtain ⟨rfl, hrest⟩ := List.cons.inj hflatten
  obtain ⟨hfirst, hothers⟩ := List.forall_mem_cons.mp hchains
  obtain ⟨hnext, hchain⟩ := List.isChain_cons.mp hbetween
  refine ⟨run, runs, hsplit, List.splitBy_eq_iff.mpr ⟨?_, ?_, ?_, ?_⟩⟩
  · rw [hrest]
    rfl
  · rw [List.mem_cons, not_or]
    exact ⟨(List.cons_ne_nil _ _).symm, hnonempty.2⟩
  · exact List.forall_mem_cons.mpr ⟨List.isChain_cons_cons.mpr ⟨h, hfirst⟩, hothers⟩
  · refine List.isChain_cons.mpr ⟨fun next hmem => ?_, hchain⟩
    obtain ⟨hlast, hhead, hr⟩ := hnext next hmem
    exact ⟨List.cons_ne_nil _ _, hhead, by rwa [List.getLast_cons hlast]⟩

theorem partsAfter_some_cons (before : Kind) (child : Node) (children : List Node) :
    partsAfter (some before) (child :: children) =
      (if before = .heredocContent ∧ child.kind = .heredocContent then []
        else [child.under .unlabeled]) ++ partsAfter (some child.kind) children := by
  simp [partsAfter]

theorem partsAfter_of_bothContent {first child : Node} (h : bothContent first child = true)
    (children : List Node) : partsAfter (some first.kind) (child :: children) =
      partsAfter (some child.kind) children := by
  simp only [bothContent, Bool.and_eq_true, beq_iff_eq] at h
  rw [partsAfter_some_cons, if_pos h, List.nil_append]

theorem partsAfter_of_not_bothContent {first child : Node} (h : bothContent first child = false)
    (children : List Node) : partsAfter (some first.kind) (child :: children) =
      child.under .unlabeled :: partsAfter (some child.kind) children := by
  simp only [bothContent, Bool.and_eq_false_iff, beq_eq_false_iff_ne] at h
  rw [partsAfter_some_cons, if_neg (by tauto), List.singleton_append]

/-- Behind a node, only the rest of the run that it stands in is left out. -/
theorem cons_partsAfter (first : Node) (children : List Node) :
    first.under .unlabeled :: partsAfter (some first.kind) children =
      (firstOfRuns (first :: children)).map (·.under .unlabeled) := by
  induction children generalizing first with
  | nil => rfl
  | cons child children ih =>
    have hrest := ih child
    cases hboth : bothContent first child with
    | true =>
      obtain ⟨run, runs, hsplit, hjoined⟩ := splitBy_cons_cons hboth children
      rw [firstOfRuns, hsplit] at hrest
      rw [firstOfRuns, hjoined, partsAfter_of_bothContent hboth]
      exact congrArg (_ :: ·) (List.cons.inj hrest).2
    | false =>
      have hsplit : (first :: child :: children).splitBy bothContent =
          [first] :: (child :: children).splitBy bothContent :=
        List.splitBy_append_cons children (l := [first]) (by simpa using hboth)
      rw [partsAfter_of_not_bothContent hboth, hrest, firstOfRuns, firstOfRuns, hsplit]
      rfl

/-- The parts of a body, by the runs of content in it. -/
theorem parts_eq (children : List Node) : parts children =
    (leadingContent children ++ firstOfRuns children).map (·.under .unlabeled) := by
  cases children with
  | nil => rfl
  | cons child children =>
    have hrest := cons_partsAfter child children
    rw [List.map_append, ← hrest]
    by_cases hkind : child.kind = .heredocContent
    · simp [parts, partsAfter, leadingContent, hkind]
    · simp [parts, partsAfter, leadingContent, hkind, Node.under, Node.ofKind]

theorem bothContent_congr {first second : Node} (h : first.kind = second.kind) (next : Node) :
    bothContent first next = bothContent second next := by
  rw [bothContent, bothContent, h]

/-- Content is never kept behind content. -/
theorem isChain_cons_partsAfter (first : Node) (children : List Node) :
    (first :: partsAfter (some first.kind) children).IsChain
      fun first second => bothContent first second = false := by
  induction children generalizing first with
  | nil => exact .singleton _
  | cons child children ih =>
    cases hboth : bothContent first child with
    | true =>
      obtain ⟨hnext, hchain⟩ := List.isChain_cons.mp (ih child)
      have hkinds : first.kind = child.kind := by
        simp only [bothContent, Bool.and_eq_true, beq_iff_eq] at hboth
        rw [hboth.1, hboth.2]
      rw [partsAfter_of_bothContent hboth]
      refine List.isChain_cons.mpr ⟨fun next hmem => ?_, hchain⟩
      rw [bothContent_congr hkinds]
      exact hnext next hmem
    | false =>
      rw [partsAfter_of_not_bothContent hboth]
      exact List.isChain_cons_cons.mpr ⟨hboth, ih (child.under .unlabeled)⟩

/-- Nodes in which content is apart stay as they are. -/
theorem partsAfter_of_isChain {first : Node} {children : List Node}
    (h : (first :: children).IsChain fun first second => bothContent first second = false)
    (hfields : ∀ child ∈ children, child.under .unlabeled = child) :
    partsAfter (some first.kind) children = children := by
  induction children generalizing first with
  | nil => rfl
  | cons child children ih =>
    obtain ⟨hfirst, hrest⟩ := List.isChain_cons_cons.mp h
    obtain ⟨hfield, hothers⟩ := List.forall_mem_cons.mp hfields
    rw [partsAfter_of_not_bothContent hfirst, hfield, ih hrest hothers]

theorem under_of_mem_partsAfter {before : Option Kind} {children : List Node} {part : Node}
    (h : part ∈ partsAfter before children) : part.under .unlabeled = part := by
  induction children generalizing before with
  | nil => cases h
  | cons child children ih =>
    simp only [partsAfter, List.mem_append] at h
    rcases h with (hpadding | hkept) | hrest
    · split at hpadding
      · rw [List.mem_singleton.mp hpadding]
        rfl
      · cases hpadding
    · split at hkept
      · cases hkept
      · rw [List.mem_singleton.mp hkept]
        rfl
    · exact ih hrest

/-- The first part is content, and those behind it follow from it. -/
theorem exists_parts_eq_cons {children : List Node} (h : children ≠ []) :
    ∃ first rest, parts children = first :: partsAfter (some first.kind) rest ∧
      first.kind = .heredocContent ∧ first.under .unlabeled = first := by
  obtain ⟨child, children, rfl⟩ := List.exists_cons_of_ne_nil h
  by_cases hkind : child.kind = .heredocContent
  · exact ⟨child.under .unlabeled, children, by simp [parts, partsAfter, hkind, Node.under], hkind,
      rfl⟩
  · exact ⟨.ofKind .heredocContent, child :: children,
      by simp [parts, partsAfter, hkind, Node.ofKind], rfl, rfl⟩

theorem isChain_parts (children : List Node) :
    (parts children).IsChain fun first second => bothContent first second = false := by
  by_cases h : children = []
  · subst h
    exact .nil
  · obtain ⟨first, rest, hparts, -, -⟩ := exists_parts_eq_cons h
    rw [hparts]
    exact isChain_cons_partsAfter first rest

theorem parts_parts (children : List Node) : parts (parts children) = parts children := by
  by_cases h : children = []
  · subst h
    rfl
  · obtain ⟨first, rest, hparts, hkind, hfield⟩ := exists_parts_eq_cons h
    have hrest := partsAfter_of_isChain (isChain_cons_partsAfter first rest)
      fun part => under_of_mem_partsAfter
    have hfirst (children : List Node) :
        parts (first :: children) = first :: partsAfter (some first.kind) children := by
      simp [parts, partsAfter, hkind, hfield]
    rw [hparts, hfirst, hrest]

theorem map_under {children : List Node}
    (h : ∀ child ∈ children, child.under .unlabeled = child) :
    children.map (·.under .unlabeled) = children :=
  (List.map_congr_left h).trans (List.map_id' children)

theorem nodes_extract (body : Node) : (extract body).nodes = parts body.nodes := by
  have hunder : ∀ part ∈ parts body.nodes, part.under .unlabeled = part :=
    fun part => under_of_mem_partsAfter
  rw [extract, Node.nodes_attachAll, Node.nodes_ofKind, List.nil_append, map_under hunder]

theorem extract_extract (body : Node) : extract (extract body) = extract body := by
  rw [extract, nodes_extract, parts_parts]
  rfl

/-! ## What is kept -/

/-- Nodes of other kinds than content stay, and in their order. -/
theorem filter_partsAfter {p : Kind → Bool} (hp : p .heredocContent = false) (before : Option Kind)
    (children : List Node) : (partsAfter before children).filter (fun part => p part.kind) =
      (children.filter fun child => p child.kind).map (·.under .unlabeled) := by
  induction children generalizing before with
  | nil => rfl
  | cons child children ih =>
    rw [partsAfter, List.filter_append, List.filter_append, ih, List.filter_cons]
    have hpadding : (if before = none ∧ child.kind ≠ .heredocContent then
        [Node.ofKind .heredocContent] else []).filter (fun part => p part.kind) = [] := by
      split <;> simp [Node.ofKind, hp]
    rw [hpadding, List.nil_append]
    cases hchild : p child.kind with
    | true =>
      have hkind : child.kind ≠ .heredocContent := fun hkind => by simp [hkind, hp] at hchild
      rw [if_neg fun hrun => hkind hrun.2, if_pos rfl]
      simp [Node.under, hchild]
    | false =>
      rw [if_neg Bool.false_ne_true]
      split <;> simp [Node.under, hchild]

theorem getLast?_partsAfter_concat (before : Option Kind) (children : List Node) {last : Node}
    (h : last.kind ≠ .heredocContent) :
    (partsAfter before (children ++ [last])).getLast? = some (last.under .unlabeled) := by
  induction children generalizing before with
  | nil => simp [partsAfter, h]
  | cons child children ih =>
    rw [List.cons_append, partsAfter, List.getLast?_append, ih]
    rfl

/-- Nothing is plain string content once the heredoc is complete. -/
theorem kind_settle_ne (part : Node) : (settle .heredocContent part).kind ≠ .stringContent := by
  by_cases hkind : part.kind = .stringContent
  · rw [settle, if_pos hkind]
    simp [Node.retag]
  · rwa [settle_of_kind_ne _ hkind]

/-- Escapes and interpolations are not touched when a heredoc is completed. -/
theorem filter_map_settle {p : Kind → Bool} (hplain : p .stringContent = false)
    (hcontent : p .heredocContent = false) (parts : List Node) :
    (parts.map (settle .heredocContent)).filter (fun part => p part.kind) =
      parts.filter fun part => p part.kind := by
  induction parts with
  | nil => rfl
  | cons part parts ih =>
    rw [List.map_cons, List.filter_cons, List.filter_cons, ih]
    by_cases hkind : part.kind = .stringContent
    · simp [settle, hkind, Node.retag, hplain, hcontent]
    · rw [settle_of_kind_ne _ hkind]

/-! ## Heredocs as they are recorded -/

/-- A command that begins inside a heredoc begins the body of that heredoc. -/
theorem gives_xstringNew_of_isHeredoc {opener : String} (h : Opener.isHeredoc opener = true)
    (openers : List String) :
    Gives .xstringNew [] (opener :: openers) (.node (.ofKind .heredocBody))
      (opener :: openers) := by
  intro context hopeners
  refine ⟨context, ?_, hopeners⟩
  have hinside : context.inHeredoc = true := by
    simp [Context.inHeredoc, Context.opener?, hopeners, h]
  have hrule : (ruleOf .xstringNew).apply Production.xstringNew.name [] = commandContent := rfl
  rw [hrule, commandContent, Build.exec_bind, Build.exec_context]
  simp only [hinside]
  rfl

/-- A heredoc by its opener, its parts, and the moments and productions of its events. It is
    recorded like a string or like a command. -/
structure Recorded where
  opener : String
  opens : Opener.isHeredoc opener = true
  opening : Moment
  beginning : Moment
  begin : Production
  begins : begin = .stringContent ∨ begin = .xstringNew
  additions : List (Moment × CommandPart)
  add : Production
  adds : add = .stringAdd ∨ add = .xstringAdd
  closing : Moment
  close : Production
  closes : close = .stringLiteral ∨ close = .xstringLiteral

namespace Recorded

/-- The events of a heredoc, one after the other. -/
def record (heredoc : Recorded) : Build Value := do
  let _ ← heredoc.opening.fire .heredocBeg [.text heredoc.opener]
  let begun ← heredoc.beginning.fire heredoc.begin []
  let whole ← heredoc.additions.foldlM (addTo heredoc.add) begun
  heredoc.closing.fire heredoc.close [whole]

/-- The nodes of the parts, in order: texts are split as the opener demands. -/
def added (heredoc : Recorded) : List Node :=
  heredoc.additions.flatMap fun addition => addition.2.nodes (Opener.isRaw heredoc.opener)

/-- The body that the events come to. -/
def body (heredoc : Recorded) : Node :=
  (Node.ofKind .heredocBody).attachAll
    (heredoc.added.map (settle .heredocContent) ++ [.ofKind .heredocEnd])

section Events

variable (heredoc : Recorded) (openers : List String)

theorem gives_begin : Gives heredoc.begin [] (heredoc.opener :: openers)
    (.node ((Node.ofKind .heredocBody).attachAll [])) (heredoc.opener :: openers) := by
  rcases heredoc.begins with hbegin | hbegin <;> rw [hbegin]
  · have hstring := gives_stringContent heredoc.opener openers
    rwa [openedKind, if_pos heredoc.opens] at hstring
  · exact gives_xstringNew_of_isHeredoc heredoc.opens openers

theorem adds_add : Adds heredoc.add fun parts =>
    .node ((Node.ofKind .heredocBody).attachAll parts) := by
  rcases heredoc.adds with hadd | hadd <;> rw [hadd]
  · exact adds_stringAdd .heredocBody
  · exact Command.adds_xstringAdd .heredocBody

theorem gives_close :
    Gives heredoc.close [.node ((Node.ofKind .heredocBody).attachAll heredoc.added)]
      (heredoc.opener :: openers) (.node heredoc.body) openers := by
  have hliteral := gives_stringLiteral ((Node.ofKind .heredocBody).attachAll heredoc.added)
    heredoc.opener openers
  rw [closeHeredoc_attachAll] at hliteral
  rcases heredoc.closes with hclose | hclose <;> rw [hclose] <;> exact hliteral

end Events

theorem exec_record (heredoc : Recorded) (context : Context) :
    ∃ changed, heredoc.record.exec context = (.ok (.node heredoc.body), changed) ∧
      changed.openers = context.openers := by
  obtain ⟨value, hopening⟩ := gives_opening .heredoc heredoc.opener context.openers
  obtain ⟨opened, hopen, hopened⟩ := heredoc.opening.exec_fire_of_gives hopening rfl
  obtain ⟨begun, hbegin, hbegun⟩ :=
    heredoc.beginning.exec_fire_of_gives (heredoc.gives_begin context.openers) hopened
  obtain ⟨grown, hgrow, hgrown⟩ := exec_foldlM_addTo heredoc.adds_add heredoc.additions [] hbegun
  obtain ⟨changed, hclose, hchanged⟩ :=
    heredoc.closing.exec_fire_of_gives (heredoc.gives_close context.openers) hgrown
  refine ⟨changed, ?_, hchanged⟩
  rw [record, Build.exec_bind, show Production.heredocBeg = Family.heredoc.form.opening from rfl,
    hopen]
  simp only [Build.exec_bind, hbegin, hgrow, List.nil_append]
  exact hclose

/-! ### The parts of a recorded body -/

theorem mem_added {heredoc : Recorded} {part : Node} (h : part ∈ heredoc.added) :
    part.under .unlabeled = part ∧
      (part.kind = .stringContent ∨ part.kind = .escapeSequence ∨ part.kind = .interpolation) := by
  obtain ⟨⟨moment, addition⟩, -, hpart⟩ := List.mem_flatMap.mp h
  cases addition with
  | code statements =>
    obtain rfl := List.mem_singleton.mp hpart
    exact ⟨rfl, .inr (.inr rfl)⟩
  | text text =>
    simp only [CommandPart.nodes, leaves] at hpart
    split at hpart
    · obtain rfl := List.mem_singleton.mp hpart
      exact ⟨rfl, .inl rfl⟩
    · obtain ⟨piece, -, rfl⟩ := List.mem_map.mp hpart
      cases piece with
      | content text => exact ⟨rfl, .inl rfl⟩
      | escape text => exact ⟨rfl, .inr (.inl rfl)⟩

theorem nodes_body (heredoc : Recorded) :
    heredoc.body.nodes =
      heredoc.added.map (settle .heredocContent) ++ [.ofKind .heredocEnd] := by
  have hunder : ∀ part ∈ heredoc.added.map (settle .heredocContent) ++ [.ofKind .heredocEnd],
      part.under .unlabeled = part := by
    intro part hpart
    rcases List.mem_append.mp hpart with hsettled | hlast
    · obtain ⟨plain, hplain, rfl⟩ := List.mem_map.mp hsettled
      have hfield := (mem_added hplain).1
      by_cases hkind : plain.kind = .stringContent
      · rw [settle, if_pos hkind]
        exact congrArg (Node.retag .heredocContent) hfield
      · rwa [settle_of_kind_ne _ hkind]
    · rw [List.mem_singleton.mp hlast]
      rfl
  rw [body, Node.nodes_attachAll, Node.nodes_ofKind, List.nil_append, map_under hunder]

theorem kind_ne_of_mem_body {heredoc : Recorded} {part : Node} (h : part ∈ heredoc.body.nodes) :
    part.kind ≠ .stringContent := by
  rw [nodes_body] at h
  rcases List.mem_append.mp h with hsettled | hlast
  · obtain ⟨plain, -, rfl⟩ := List.mem_map.mp hsettled
    exact kind_settle_ne plain
  · rw [List.mem_singleton.mp hlast]
    decide

/-- What stays of a recorded body, by kinds that are not content. -/
theorem filter_extract_body (heredoc : Recorded) {p : Kind → Bool}
    (hplain : p .stringContent = false) (hcontent : p .heredocContent = false) :
    (extract heredoc.body).nodes.filter (fun part => p part.kind) =
      heredoc.added.filter (fun part => p part.kind) ++
        if p .heredocEnd then [.ofKind .heredocEnd] else [] := by
  have hunder : ∀ part ∈ heredoc.added.filter (fun part => p part.kind),
      part.under .unlabeled = part :=
    fun part hpart => (mem_added (List.mem_of_mem_filter hpart)).1
  rw [nodes_extract, parts, filter_partsAfter hcontent, nodes_body, List.filter_append,
    filter_map_settle hplain hcontent, List.map_append, map_under hunder]
  cases hend : p .heredocEnd <;> simp [Node.ofKind, Node.under, hend]

end Recorded

/-- Kinds of parts that stay where they are added: escapes and interpolations. -/
def isMark (kind : Kind) : Bool := kind == .escapeSequence || kind == .interpolation

/-- A body with content first and its only end last, in which no plain string content is left and
    content is never next to content. Its marks are those that were added. -/
structure IsPayload (body : Node) (added : List Node) : Prop where
  starts : body.nodes.head?.map Node.kind = some .heredocContent
  ends : body.nodes.getLast? = some (.ofKind .heredocEnd)
  once : body.nodes.filter (·.kind == .heredocEnd) = [.ofKind .heredocEnd]
  settled : ∀ part ∈ body.nodes, part.kind ≠ .stringContent
  apart : body.nodes.IsChain fun first second => bothContent first second = false
  kept : body.nodes.filter (fun part => isMark part.kind) =
    added.filter fun part => isMark part.kind

theorem Recorded.isPayload_extract (heredoc : Recorded) :
    IsPayload (extract heredoc.body) heredoc.added where
  starts := by
    have hbody : heredoc.body.nodes ≠ [] := by simp [nodes_body]
    obtain ⟨first, rest, hparts, hkind, -⟩ := exists_parts_eq_cons hbody
    rw [nodes_extract, hparts, List.head?_cons, Option.map_some, hkind]
  ends := by
    rw [nodes_extract, parts, nodes_body, getLast?_partsAfter_concat none _ (by simp [Node.ofKind])]
    rfl
  once := by
    have hadded : heredoc.added.filter (·.kind == .heredocEnd) = [] := by
      rw [List.filter_eq_nil_iff]
      intro part hpart
      rcases (mem_added hpart).2 with hkind | hkind | hkind <;> simp [hkind]
    rw [heredoc.filter_extract_body (p := (· == .heredocEnd)) rfl rfl, hadded]
    rfl
  settled := by
    have hnone : heredoc.body.nodes.filter (·.kind == .stringContent) = [] :=
      List.filter_eq_nil_iff.mpr fun part hpart => by simpa using kind_ne_of_mem_body hpart
    have hkept := filter_partsAfter (p := (· == .stringContent)) rfl none heredoc.body.nodes
    rw [hnone, List.map_nil, List.filter_eq_nil_iff] at hkept
    intro part hpart
    rw [nodes_extract] at hpart
    simpa using hkept part hpart
  apart := by
    rw [nodes_extract]
    exact isChain_parts _
  kept := by
    rw [heredoc.filter_extract_body rfl rfl]
    exact List.append_nil _

/-- Taking out a body cuts each run of content to its first node and puts empty content in front of
    anything else. A body that has been taken out is not changed again. However a heredoc is
    recorded, its events come to a body, and that body taken out is a payload of what was added. -/
theorem extract_normalForm :
    (∀ body : Node,
      extract body = (Node.ofKind .heredocBody).attachAll
        (leadingContent body.nodes ++ firstOfRuns body.nodes) ∧
      extract (extract body) = extract body) ∧
    ∀ (heredoc : Recorded) (context : Context), ∃ body changed,
      heredoc.record.exec context = (.ok (.node body), changed) ∧
        changed.openers = context.openers ∧ body.kind = .heredocBody ∧
        IsPayload (extract body) heredoc.added := by
  refine ⟨fun body => ⟨?_, extract_extract body⟩, fun heredoc context => ?_⟩
  · rw [extract, parts_eq]
    simp [Node.attachAll, Node.under, Function.comp_def]
  · obtain ⟨changed, hexec, hchanged⟩ := heredoc.exec_record context
    exact ⟨heredoc.body, changed, hexec, hchanged, rfl, heredoc.isPayload_extract⟩

/-- A heredoc that is recorded like a command: code, and two texts of which the second ends in an
    escape. -/
def recordedCommand : Recorded where
  opener := "<<A"
  opens := by decide
  opening := .inColumn 4
  beginning := .inColumn 7
  begin := .xstringNew
  begins := .inr rfl
  additions :=
    [(.inColumn 8, .code [.leaf .identifier "x"]), (.inColumn 9, .text "a"),
      (.inColumn 10, .text "b\\n")]
  add := .xstringAdd
  adds := .inr rfl
  closing := .inColumn 11
  close := .xstringLiteral
  closes := .inr rfl

/-- Content is put in front of its code, and of the two texts next to each other the first stays. -/
theorem extract_normalForm_recordedCommand :
    (let code := (Node.ofKind .interpolation).attachAll [.leaf .identifier "x"]
    let body := (Node.ofKind .heredocBody).attachAll
      [code, .leaf .heredocContent "a", .leaf .heredocContent "b", .leaf .escapeSequence "\\n",
        .ofKind .heredocEnd]
    extract body = (Node.ofKind .heredocBody).attachAll
      [.ofKind .heredocContent, code, .leaf .heredocContent "a", .leaf .escapeSequence "\\n",
        .ofKind .heredocEnd] ∧
    extract (extract body) = extract body) ∧
    ∃ body changed, recordedCommand.record.exec .initial = (.ok (.node body), changed) ∧
      changed.openers = [] ∧ body.kind = .heredocBody ∧
      IsPayload (extract body)
        [(Node.ofKind .interpolation).attachAll [.leaf .identifier "x"], .leaf .stringContent "a",
          .leaf .stringContent "b", .leaf .escapeSequence "\\n"] := by
  obtain ⟨hform, hrecorded⟩ := extract_normalForm
  refine ⟨⟨(hform _).1.trans ?_, (hform _).2⟩, ?_⟩
  · decide +kernel
  · have hadded : recordedCommand.added =
        [(Node.ofKind .interpolation).attachAll [.leaf .identifier "x"], .leaf .stringContent "a",
          .leaf .stringContent "b", .leaf .escapeSequence "\\n"] := by
      decide +kernel
    rw [← hadded]
    exact hrecorded recordedCommand .initial

/-- A body that begins with an interpolation gets content in front of it. -/
example : (extract ((Node.ofKind .heredocBody).attachAll [.ofKind .interpolation,
      .leaf .heredocContent "a", .leaf .heredocContent "b", .ofKind .heredocEnd])).nodes =
    [.ofKind .heredocContent, .ofKind .interpolation, .leaf .heredocContent "a",
      .ofKind .heredocEnd] := by
  rfl

end RubyTree.Heredoc
