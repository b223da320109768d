import RubyTree.Proofs.Heredoc.Order

/-!
# Where a heredoc body lands

A node of a tree is found by its address, the index of a child at each step. Pre-order is the
lexicographic order of addresses. A body belongs to a statement: the child, on the way to the body,
of the innermost sequence of statements around it, or the root where there is none. If a sequence of
statements comes after the body in that statement, the body lands in front of the children of the
first such sequence. If there is none, the body lands right behind the statement, or nowhere when
the statement is the root.

`landing` says so with the addresses of a whole tree. A walk does not know addresses. It goes from
child to child, so what it needs is the landing of a body in a child as it is seen from the parent.

Results:

* `pairwise_sites`: the sites of a tree come in the order of their addresses.
* `enclosing?_eq_some_iff`, `following?_eq_some_iff`: what the two readings of a tree find.
* `landing_around`: the landing of a body in a child, seen from the parent.
-/

namespace RubyTree.Heredoc

/-! ## Sites -/

/-- The way to a node: the index of a child at each step. Tokens count. -/
abbrev Address := List Nat

/-- A node of a tree and the way to it. -/
structure Site where
  address : Address
  node : Node

/-- A site in the child with an index, seen from the parent. -/
def Site.under (index : Nat) (site : Site) : Site := ⟨index :: site.address, site.node⟩

mutual

/-- The nodes of a tree in pre-order. What is inside a heredoc body does not count. -/
def sites : Node → List Site
  | ⟨kind, field, children⟩ =>
    ⟨[], ⟨kind, field, children⟩⟩ :: if kind = .heredocBody then [] else sitesAmong 0 children

/-- The nodes under children, the first of which has an index. -/
def sitesAmong (index : Nat) : List (Child Node) → List Site
  | [] => []
  | .token _ :: children => sitesAmong (index + 1) children
  | .node child :: children =>
    (sites child).map (Site.under index) ++ sitesAmong (index + 1) children

end

/-- The sequences of statements among sites. -/
def sequencesIn (found : List Site) : List Address :=
  (found.filter (·.node.kind.isStatementSequence)).map (·.address)

/-- The heredoc bodies among sites. -/
def bodiesIn (found : List Site) : List Site :=
  found.filter fun site => site.node.kind = .heredocBody

/-! ## Landings -/

/-- Where a payload is put into a tree. -/
inductive Place where
  /-- In the sequence at an address, in front of its children. -/
  | front (sequence : Address)
  /-- In the sequence at an address, right behind its child with an index. -/
  | behind (sequence : Address) (index : Nat)
  /-- Not in the tree. -/
  | outside
  deriving DecidableEq

/-- The innermost of the sequences around a body: the last one on the way to it. -/
def enclosing? (sequences : List Address) (body : Address) : Option Address :=
  (sequences.filter fun sequence => sequence <+: body).getLast?

/-- The statement of a body: the child of the innermost sequence around it, or the root. -/
def statement (sequences : List Address) (body : Address) : Address :=
  match enclosing? sequences body with
  | some sequence => body.take (sequence.length + 1)
  | none => []

/-- The first of the sequences in a statement that come after a body. -/
def following? (sequences : List Address) (statement body : Address) : Option Address :=
  sequences.find? fun sequence => statement <+: sequence ∧ body < sequence

/-- Where the payload of a body lands. -/
def landing (sequences : List Address) (body : Address) : Place :=
  match following? sequences (statement sequences body) body with
  | some sequence => .front sequence
  | none =>
    match enclosing? sequences body with
    | some sequence => .behind sequence (body.getD sequence.length 0)
    | none => .outside

/-- A place in the child with an index, seen from the parent. -/
def Place.under (index : Nat) : Place → Place
  | front sequence => front (index :: sequence)
  | behind sequence position => behind (index :: sequence) position
  | outside => outside

/-! ## The order of sites -/

/-- The address leads into a child that is not before the one with an index. -/
def IsFrom (index : Nat) (address : Address) : Prop :=
  ∃ first rest, address = first :: rest ∧ index ≤ first

namespace IsFrom

variable {index : Nat} {address : Address}

theorem of_succ (h : IsFrom (index + 1) address) : IsFrom index address := by
  obtain ⟨first, rest, rfl, hle⟩ := h
  exact ⟨first, rest, rfl, Nat.le_of_succ_le hle⟩

theorem lt (h : IsFrom (index + 1) address) (rest : Address) : index :: rest < address := by
  obtain ⟨first, more, rfl, hle⟩ := h
  exact List.cons_lt_cons_iff.mpr (.inl hle)

theorem not_isPrefixOf (h : IsFrom (index + 1) address) (rest : Address) :
    ¬ index :: rest <+: address := by
  obtain ⟨first, more, rfl, hle⟩ := h
  rw [List.cons_prefix_cons]
  omega

theorem not_isPrefixOf_cons (h : IsFrom (index + 1) address) (rest : Address) :
    ¬ address <+: index :: rest := by
  obtain ⟨first, more, rfl, hle⟩ := h
  rw [List.cons_prefix_cons]
  omega

end IsFrom

theorem isFrom_of_mem_sitesAmong {index : Nat} {children : List (Child Node)} {site : Site}
    (h : site ∈ sitesAmong index children) : IsFrom index site.address := by
  induction children generalizing index with
  | nil => cases h
  | cons child children ih =>
    cases child with
    | token text => exact (ih h).of_succ
    | node child =>
      rw [sitesAmong] at h
      rcases List.mem_append.mp h with hchild | hrest
      · obtain ⟨inner, -, rfl⟩ := List.mem_map.mp hchild
        exact ⟨index, inner.address, rfl, Nat.le_refl index⟩
      · exact (ih hrest).of_succ

theorem isFrom_of_mem_sequencesIn {index : Nat} {children : List (Child Node)} {address : Address}
    (h : address ∈ sequencesIn (sitesAmong index children)) : IsFrom index address := by
  obtain ⟨site, hsite, rfl⟩ := List.mem_map.mp h
  exact isFrom_of_mem_sitesAmong (List.mem_filter.mp hsite |>.1)

mutual

/-- The sites of a tree come in the order of their addresses. -/
theorem pairwise_sites : (node : Node) → (sites node).Pairwise (·.address < ·.address)
  | ⟨kind, field, children⟩ => by
    rw [sites, List.pairwise_cons]
    split
    · exact ⟨nofun, .nil⟩
    · refine ⟨fun site hsite => ?_, pairwise_sitesAmong 0 children⟩
      obtain ⟨first, rest, haddress, -⟩ := isFrom_of_mem_sitesAmong hsite
      rw [haddress]
      exact List.nil_lt_cons first rest

theorem pairwise_sitesAmong (index : Nat) : (children : List (Child Node)) →
    (sitesAmong index children).Pairwise (·.address < ·.address)
  | [] => .nil
  | .token _ :: children => pairwise_sitesAmong (index + 1) children
  | .node child :: children => by
    rw [sitesAmong, List.pairwise_append]
    refine ⟨?_, pairwise_sitesAmong (index + 1) children, ?_⟩
    · rw [List.pairwise_map]
      exact (pairwise_sites child).imp fun h => List.cons_lt_cons_iff.mpr (.inr ⟨rfl, h⟩)
    · rintro _ hfirst later hlater
      obtain ⟨inner, -, rfl⟩ := List.mem_map.mp hfirst
      exact (isFrom_of_mem_sitesAmong hlater).lt inner.address

end

theorem pairwise_sequencesIn (root : Node) : (sequencesIn (sites root)).Pairwise (· < ·) :=
  ((pairwise_sites root).filter _).map _ fun _ _ h => h

section Sorted

variable {sequences : List Address} (h : sequences.Pairwise (· < ·)) {statement body : Address}
include h

theorem isPrefix_of_enclosing? {innermost : Address}
    (hinnermost : enclosing? sequences body = some innermost) :
    innermost ∈ sequences ∧ innermost <+: body ∧
      ∀ other ∈ sequences, other <+: body → other <+: innermost := by
  obtain ⟨outer, hfilter⟩ := List.getLast?_eq_some_iff.mp hinnermost
  have hmem : innermost ∈ sequences.filter fun sequence => sequence <+: body := by
    rw [hfilter]
    exact List.mem_append_right outer List.mem_cons_self
  obtain ⟨hin, hbody⟩ := List.mem_filter.mp hmem
  refine ⟨hin, of_decide_eq_true hbody, fun other hother hprefix => ?_⟩
  have hkept : other ∈ outer ++ [innermost] := by
    rw [← hfilter]
    exact List.mem_filter.mpr ⟨hother, decide_eq_true hprefix⟩
  have hsorted := h.filter fun sequence => sequence <+: body
  rw [hfilter, List.pairwise_append] at hsorted
  rcases List.mem_append.mp hkept with houter | hlast
  · -- of two sequences around a body the earlier one is around the later one
    have hlt := hsorted.2.2 other houter innermost List.mem_cons_self
    rcases List.prefix_or_prefix_of_prefix hprefix (of_decide_eq_true hbody) with hle | hge
    · exact hle
    · exact absurd hlt (List.not_lt.mpr hge.le)
  · obtain rfl := List.mem_singleton.mp hlast
    exact List.prefix_refl other

theorem not_lt_of_following? {first : Address}
    (hfirst : following? sequences statement body = some first) :
    first ∈ sequences ∧ statement <+: first ∧ body < first ∧
      ∀ other ∈ sequences, statement <+: other → body < other → ¬ other < first := by
  obtain ⟨hkept, earlier, later, rfl, hearlier⟩ := List.find?_eq_some_iff_append.mp hfirst
  obtain ⟨hstatement, hbody⟩ := of_decide_eq_true hkept
  refine ⟨List.mem_append_right earlier List.mem_cons_self, hstatement, hbody, ?_⟩
  intro other hother hwithin hbehind
  rcases List.mem_append.mp hother with hpassed | hrest
  · have hnot := hearlier other hpassed
    simp [hwithin, hbehind] at hnot
  · rcases List.mem_cons.mp hrest with rfl | hlater
    · exact List.lt_irrefl other
    · have hsorted := (List.pairwise_append.mp h).2.1
      exact List.lt_asymm ((List.pairwise_cons.mp hsorted).1 other hlater)

end Sorted

section Readings

variable {root : Node} {statement body : Address}

/-- The sequence of a tree that is found around a body is the one inside all others around it. -/
theorem enclosing?_eq_some_iff {innermost : Address} :
    enclosing? (sequencesIn (sites root)) body = some innermost ↔
      innermost ∈ sequencesIn (sites root) ∧ innermost <+: body ∧
        ∀ other ∈ sequencesIn (sites root), other <+: body → other <+: innermost := by
  refine ⟨isPrefix_of_enclosing? (pairwise_sequencesIn root), ?_⟩
  rintro ⟨hin, hbody, hinner⟩
  cases hfound : enclosing? (sequencesIn (sites root)) body with
  | none =>
    have hnone := List.getLast?_eq_none_iff.mp hfound
    rw [List.filter_eq_nil_iff] at hnone
    exact absurd (decide_eq_true hbody) (hnone innermost hin)
  | some found =>
    obtain ⟨hfoundIn, hfoundBody, hfoundInner⟩ :=
      isPrefix_of_enclosing? (pairwise_sequencesIn root) hfound
    have hle := hinner found hfoundIn hfoundBody
    rw [hle.eq_of_length_le (hfoundInner innermost hin hbody).length_le]

/-- The sequence of a tree that is found behind a body is the first of those in the statement. -/
theorem following?_eq_some_iff {first : Address} :
    following? (sequencesIn (sites root)) statement body = some first ↔
      first ∈ sequencesIn (sites root) ∧ statement <+: first ∧ body < first ∧
        ∀ other ∈ sequencesIn (sites root),
          statement <+: other → body < other → ¬ other < first := by
  refine ⟨not_lt_of_following? (pairwise_sequencesIn root), ?_⟩
  rintro ⟨hin, hstatement, hbody, hleast⟩
  cases hfound : following? (sequencesIn (sites root)) statement body with
  | none =>
    have hnone := List.find?_eq_none.mp hfound first hin
    exact absurd (decide_eq_true ⟨hstatement, hbody⟩) hnone
  | some found =>
    obtain ⟨hfoundIn, hfoundStatement, hfoundBody, hfoundLeast⟩ :=
      not_lt_of_following? (pairwise_sequencesIn root) hfound
    have hnot := hleast found hfoundIn hfoundStatement hfoundBody
    have hnot' := hfoundLeast first hin hstatement hbody
    rw [List.le_antisymm (List.not_lt.mp hnot') (List.not_lt.mp hnot)]

end Readings

/-! ## Landings seen from the parent -/

/-- The sequences in a child with an index, with those of later children and perhaps the parent. -/
def around (isSequence : Bool) (index : Nat) (inner later : List Address) : List Address :=
  (if isSequence then [[]] else []) ++ (inner.map (index :: ·) ++ later)

/-- Where a queue lands that is handed to a part of a tree: in front of the first sequence. -/
def entry (sequences : List Address) : Place :=
  match sequences.head? with
  | some sequence => .front sequence
  | none => .outside

/-- Where a body lands that is left over in a child: behind that child in a sequence, and otherwise
    it is handed to the later children. -/
def exit (isSequence : Bool) (index : Nat) (later : List Address) : Place :=
  if isSequence then .behind [] index else entry later

/-- A place in the child with an index, seen from the parent, where the ones left over get to the
    exit. -/
def Place.above (index : Nat) (place exit : Place) : Place :=
  match place with
  | outside => exit
  | place => place.under index

section Around

variable {isSequence : Bool} {index : Nat} {inner later : List Address} {body : Address}
  (hlater : ∀ sequence ∈ later, IsFrom (index + 1) sequence)
include hlater

theorem enclosing?_around : enclosing? (around isSequence index inner later) (index :: body) =
    ((enclosing? inner body).map (index :: ·)).or (if isSequence then some [] else none) := by
  have hinner : (inner.map (index :: ·)).filter (fun sequence => sequence <+: index :: body) =
      (inner.filter fun sequence => sequence <+: body).map (index :: ·) := by
    rw [List.filter_map]
    simp only [Function.comp_def, List.cons_prefix_cons, true_and]
  have hnone : later.filter (fun sequence => sequence <+: index :: body) = [] := by
    rw [List.filter_eq_nil_iff]
    intro sequence hsequence hprefix
    exact (hlater sequence hsequence).not_isPrefixOf_cons body (of_decide_eq_true hprefix)
  rw [enclosing?, around, List.filter_append, List.filter_append, hinner, hnone, List.append_nil,
    List.getLast?_append, List.getLast?_map]
  cases isSequence <;> rfl

theorem following?_around_cons (statement : Address) :
    following? (around isSequence index inner later) (index :: statement) (index :: body) =
      (following? inner statement body).map (index :: ·) := by
  have htop : (if isSequence then [[]] else [] : List Address).find?
      (fun sequence => index :: statement <+: sequence ∧ index :: body < sequence) = none := by
    cases isSequence <;> simp
  have hnone : later.find?
      (fun sequence => index :: statement <+: sequence ∧ index :: body < sequence) = none := by
    rw [List.find?_eq_none]
    intro sequence hsequence hafter
    exact (hlater sequence hsequence).not_isPrefixOf statement (of_decide_eq_true hafter).1
  rw [following?, around, List.find?_append, List.find?_append, htop, hnone, List.find?_map]
  simp only [Function.comp_def, List.cons_prefix_cons, true_and, List.cons_lt_cons_iff,
    Nat.lt_irrefl, false_or, Option.or_none, Option.none_or]
  rfl

theorem following?_around_nil :
    following? (around false index inner later) [] (index :: body) =
      ((following? inner [] body).map (index :: ·)).or later.head? := by
  have hfirst : later.find? (fun sequence => [] <+: sequence ∧ index :: body < sequence) =
      later.head? := by
    cases later with
    | nil => rfl
    | cons sequence later =>
      have hlt := (hlater sequence List.mem_cons_self).lt body
      rw [List.find?_cons_of_pos (by simpa using hlt), List.head?_cons]
  rw [following?, following?, around, List.find?_append, List.find?_append, hfirst, List.find?_map]
  simp only [Function.comp_def, List.nil_prefix, true_and, List.cons_lt_cons_iff, Nat.lt_irrefl,
    false_or, Bool.false_eq_true, if_false, List.find?_nil, Option.none_or]

/-- A body in a child lands where it lands in the child alone. If it is left over there, it gets to
    the exit of the child. -/
theorem landing_around : landing (around isSequence index inner later) (index :: body) =
    (landing inner body).above index (exit isSequence index later) := by
  cases hinner : enclosing? inner body with
  | some sequence =>
    have hstatement : statement (around isSequence index inner later) (index :: body) =
        index :: statement inner body := by
      rw [statement, statement, enclosing?_around hlater, hinner]
      rfl
    rw [landing, hstatement, following?_around_cons hlater, enclosing?_around hlater, landing,
      hinner]
    cases following? inner (statement inner body) body <;> rfl
  | none =>
    have hwhole : statement inner body = [] := by rw [statement, hinner]
    cases isSequence with
    | true =>
      have hstatement : statement (around true index inner later) (index :: body) = [index] := by
        rw [statement, enclosing?_around hlater, hinner]
        rfl
      rw [landing, hstatement, following?_around_cons hlater, enclosing?_around hlater, landing,
        hwhole, hinner]
      cases following? inner [] body <;> rfl
    | false =>
      have hstatement : statement (around false index inner later) (index :: body) = [] := by
        rw [statement, enclosing?_around hlater, hinner]
        rfl
      rw [landing, hstatement, following?_around_nil hlater, enclosing?_around hlater, landing,
        hwhole, hinner, exit, if_neg Bool.false_ne_true, entry]
      cases following? inner [] body with
      | some sequence => rfl
      | none => cases later <;> rfl

end Around

/-- Sequences that are neither around a body nor behind it have no part in its landing. -/
theorem landing_append {before skipped after : List Address} {body : Address}
    (h : ∀ sequence ∈ skipped, ¬ sequence <+: body ∧ ¬ body < sequence) :
    landing (before ++ (skipped ++ after)) body = landing (before ++ after) body := by
  have henclosing : enclosing? (before ++ (skipped ++ after)) body =
      enclosing? (before ++ after) body := by
    have hnone : skipped.filter (fun sequence => sequence <+: body) = [] := by
      rw [List.filter_eq_nil_iff]
      intro sequence hsequence hprefix
      exact (h sequence hsequence).1 (of_decide_eq_true hprefix)
    rw [enclosing?, enclosing?, List.filter_append, List.filter_append, hnone, List.nil_append,
      List.filter_append]
  have hstatement : statement (before ++ (skipped ++ after)) body =
      statement (before ++ after) body := by rw [statement, statement, henclosing]
  have hfollowing : ∀ within, following? (before ++ (skipped ++ after)) within body =
      following? (before ++ after) within body := by
    intro within
    have hnone : skipped.find? (fun sequence => within <+: sequence ∧ body < sequence) = none := by
      rw [List.find?_eq_none]
      intro sequence hsequence hafter
      exact (h sequence hsequence).2 (of_decide_eq_true hafter).2
    rw [following?, following?, List.find?_append, List.find?_append, hnone, Option.none_or,
      List.find?_append]
  rw [landing, landing, hstatement, hfollowing, henclosing]

end RubyTree.Heredoc
