import RubyTree.Proofs.Heredoc.Landing

/-!
# The finished tree, from the landings of its bodies

The finished tree is the original one, with a marker where each body was and with the payloads at
the places where their bodies land, in pre-order at each place. The walk builds it with queues. A
queue that is handed to a part of a tree lands in front of the first sequence of that part, or it is
left over like a body for which there is no sequence. So a queue and the bodies of the part are one
list of landings, and what the walk hands on is what lands outside.

Results:

* `payloads_landed`: each body of a tree has one landing, in pre-order.
* `walk_eq`: a walk puts the bodies pending before it and those it meets where they land.
* `relocate_eq`: the finished tree and the bodies without a place.
-/

namespace RubyTree.Heredoc

/-! ## Specification -/

/-- A payload and where it lands. -/
structure Landed where
  place : Place
  payload : Node

/-- The payloads of the bodies of a tree in pre-order, with their landings. -/
def landed (root : Node) : List Landed :=
  (bodiesIn (sites root)).map fun body =>
    ⟨landing (sequencesIn (sites root)) body.address, extract body.node⟩

/-- The payloads that land at a place, in their order. -/
def payloadsAt (all : List Landed) (place : Place) : List Node :=
  (all.filter fun one => one.place = place).map (·.payload)

mutual

/-- The tree with a marker for each body, and with payloads put in at their places. -/
def rebuild (payloads : Place → List Node) : Node → Node
  | ⟨kind, field, children⟩ =>
    if kind = .heredocBody then marker ⟨kind, field, children⟩
    else ⟨kind, field, (payloads (.front [])).map .node ++ rebuildAmong payloads 0 children⟩

/-- The children of a node, the first of which has an index, with payloads in them and behind
    each. -/
def rebuildAmong (payloads : Place → List Node) (index : Nat) :
    List (Child Node) → List (Child Node)
  | [] => []
  | .token text :: children => .token text :: rebuildAmong payloads (index + 1) children
  | .node child :: children =>
    .node (rebuild (fun place => payloads (place.under index)) child) ::
      ((payloads (.behind [] index)).map .node ++ rebuildAmong payloads (index + 1) children)

end

/-! ## Places in and behind children -/

namespace Place

/-- The index of the child that a place is in, or right behind. -/
def branch? : Place → Option Nat
  | front (index :: _) => some index
  | behind [] index => some index
  | behind (index :: _) _ => some index
  | _ => none

theorem under_ne_behind (index : Nat) {place : Place} (h : place ≠ outside) :
    place.under index ≠ behind [] index := by
  cases place with
  | outside => exact absurd rfl h
  | front sequence => exact nofun
  | behind sequence position => exact nofun

theorem branch?_under (index : Nat) {place : Place} (h : place ≠ outside) :
    (place.under index).branch? = some index := by
  cases place with
  | front sequence => rfl
  | behind sequence position => rfl
  | outside => exact absurd rfl h

theorem under_ne_outside (index : Nat) {place : Place} (h : place ≠ outside) :
    place.under index ≠ outside := by
  intro heq
  have hbranch := branch?_under index h
  rw [heq] at hbranch
  cases hbranch

theorem under_ne_of_branch? {index branch : Nat} {inside place : Place} (h : inside ≠ outside)
    (hbranch : place.branch? = some branch) (hle : index + 1 ≤ branch) :
    inside.under index ≠ place := by
  rintro rfl
  rw [branch?_under index h] at hbranch
  cases hbranch
  omega

theorem under_injective {index : Nat} {place other : Place}
    (h : place.under index = other.under index) : place = other := by
  cases place <;> cases other <;> cases h <;> rfl

theorem above_of_ne_outside (index : Nat) (exit : Place) {place : Place} (h : place ≠ outside) :
    place.above index exit = place.under index := by
  cases place with
  | outside => exact absurd rfl h
  | front sequence => rfl
  | behind sequence position => rfl

/-- The place is in a child that is not before the one with an index, or right behind such a child,
    or it is outside of a node that is no sequence. -/
def IsFrom (isSequence : Bool) (index : Nat) (place : Place) : Prop :=
  place = outside ∧ isSequence = false ∨ ∃ branch, place.branch? = some branch ∧ index ≤ branch

variable {isSequence : Bool} {index : Nat} {place : Place}

theorem IsFrom.of_succ (h : IsFrom isSequence (index + 1) place) :
    IsFrom isSequence index place := by
  rcases h with houtside | ⟨branch, hbranch, hle⟩
  · exact .inl houtside
  · exact .inr ⟨branch, hbranch, Nat.le_of_succ_le hle⟩

theorem not_isFrom_of_branch?_eq (h : place.branch? = some index) :
    ¬ IsFrom isSequence (index + 1) place := by
  rintro (⟨rfl, -⟩ | ⟨branch, hbranch, hle⟩)
  · cases h
  · rw [h] at hbranch
    cases hbranch
    omega

theorem not_isFrom_front_nil : ¬ IsFrom isSequence index (front []) := by
  rintro (⟨⟨⟩, -⟩ | ⟨branch, hbranch, -⟩)
  cases hbranch

theorem not_isFrom_outside : ¬ IsFrom true index outside := by
  rintro (⟨-, ⟨⟩⟩ | ⟨branch, hbranch, -⟩)
  cases hbranch

theorem isFrom_entry {later : List Address}
    (hlater : ∀ sequence ∈ later, Heredoc.IsFrom index sequence) :
    IsFrom false index (entry later) := by
  cases later with
  | nil => exact .inl ⟨rfl, rfl⟩
  | cons sequence later =>
    obtain ⟨first, rest, rfl, hle⟩ := hlater sequence List.mem_cons_self
    exact .inr ⟨first, rfl, hle⟩

theorem isFrom_exit {later : List Address}
    (hlater : ∀ sequence ∈ later, Heredoc.IsFrom (index + 1) sequence) :
    IsFrom isSequence index (exit isSequence index later) := by
  cases isSequence with
  | true => exact .inr ⟨index, rfl, Nat.le_refl index⟩
  | false => exact (isFrom_entry hlater).of_succ

theorem IsFrom.above {exit : Place} (h : IsFrom isSequence index exit) (place : Place) :
    IsFrom isSequence index (place.above index exit) := by
  by_cases houtside : place = outside
  · rw [houtside]
    exact h
  · rw [above_of_ne_outside index exit houtside]
    exact .inr ⟨index, branch?_under index houtside, Nat.le_refl index⟩

/-- The exit of a child is not a place inside it. -/
theorem exit_ne_under {later : List Address}
    (hlater : ∀ sequence ∈ later, Heredoc.IsFrom (index + 1) sequence) (h : place ≠ outside) :
    exit isSequence index later ≠ place.under index := by
  intro heq
  cases isSequence with
  | true => exact under_ne_behind index h heq.symm
  | false =>
    have hfrom := isFrom_entry hlater
    rw [exit, if_neg Bool.false_ne_true] at heq
    rw [heq] at hfrom
    exact not_isFrom_of_branch?_eq (branch?_under index h) hfrom

theorem above_eq_under_iff {exit inside : Place} (h : inside ≠ outside)
    (hexit : exit ≠ inside.under index) :
    place.above index exit = inside.under index ↔ place = inside := by
  by_cases houtside : place = outside
  · rw [houtside]
    exact iff_of_false hexit h.symm
  · rw [above_of_ne_outside index exit houtside]
    exact ⟨under_injective, congrArg (under index)⟩

theorem above_eq_exit_iff {exit : Place}
    (h : ∀ inside : Place, inside ≠ outside → inside.under index ≠ exit) :
    place.above index exit = exit ↔ place = outside := by
  by_cases houtside : place = outside
  · rw [houtside]
    exact iff_of_true rfl rfl
  · rw [above_of_ne_outside index exit houtside]
    exact iff_of_false (h place houtside) houtside

end Place

mutual

/-- Only what lands in a tree matters to it. -/
theorem rebuild_congr {payloads payloads' : Place → List Node}
    (h : ∀ place, place ≠ .outside → payloads place = payloads' place) :
    (node : Node) → rebuild payloads node = rebuild payloads' node
  | ⟨kind, field, children⟩ => by
    have hchildren : rebuildAmong payloads 0 children = rebuildAmong payloads' 0 children :=
      rebuildAmong_congr (fun place branch hbranch _ => h place (by rintro rfl; cases hbranch))
        children
    rw [rebuild, rebuild, h (.front []) nofun, hchildren]

theorem rebuildAmong_congr {payloads payloads' : Place → List Node} {index : Nat}
    (h : ∀ place branch, place.branch? = some branch → index ≤ branch →
      payloads place = payloads' place) :
    (children : List (Child Node)) →
    rebuildAmong payloads index children = rebuildAmong payloads' index children
  | [] => rfl
  | .token text :: children => by
    have hrest : rebuildAmong payloads (index + 1) children =
        rebuildAmong payloads' (index + 1) children := rebuildAmong_congr
      (fun place branch hbranch hle => h place branch hbranch (Nat.le_of_succ_le hle)) children
    rw [rebuildAmong, rebuildAmong, hrest]
  | .node child :: children => by
    have hchild := rebuild_congr
      (fun place hplace => h _ index (Place.branch?_under index hplace) (Nat.le_refl index)) child
    have hrest : rebuildAmong payloads (index + 1) children =
        rebuildAmong payloads' (index + 1) children := rebuildAmong_congr
      (fun place branch hbranch hle => h place branch hbranch (Nat.le_of_succ_le hle)) children
    rw [rebuildAmong, rebuildAmong, hchild, hrest, h (.behind [] index) index rfl (Nat.le_refl _)]

end

/-! ## Landings among children -/

/-- The bodies under children, the first of which has an index, with their landings seen from the
    parent. -/
def landedAmong (isSequence : Bool) (index : Nat) (children : List (Child Node)) : List Landed :=
  (bodiesIn (sitesAmong index children)).map fun body =>
    ⟨landing ((if isSequence then [[]] else []) ++ sequencesIn (sitesAmong index children))
      body.address, extract body.node⟩

/-- A queue that is handed to a part of a tree with these sequences. -/
def queued (pending : List Node) (sequences : List Address) : List Landed :=
  pending.map fun body => ⟨entry sequences, body⟩

/-- A landing in the child with an index, seen from the parent. -/
def Landed.above (index : Nat) (exit : Place) (one : Landed) : Landed :=
  { one with place := one.place.above index exit }

/-- What lands in a child or is left over there, and the bodies of later children. -/
def joined (isSequence : Bool) (index : Nat) (first : List Landed)
    (children : List (Child Node)) : List Landed :=
  first.map (Landed.above index
      (exit isSequence index (sequencesIn (sitesAmong (index + 1) children)))) ++
    landedAmong isSequence (index + 1) children

section Sites

variable (found : List Site) (index : Nat)

theorem bodiesIn_append (more : List Site) :
    bodiesIn (found ++ more) = bodiesIn found ++ bodiesIn more := List.filter_append ..

theorem sequencesIn_append (more : List Site) :
    sequencesIn (found ++ more) = sequencesIn found ++ sequencesIn more := by
  rw [sequencesIn, List.filter_append, List.map_append]
  rfl

theorem bodiesIn_map_under :
    bodiesIn (found.map (Site.under index)) = (bodiesIn found).map (Site.under index) :=
  List.filter_map

theorem sequencesIn_map_under :
    sequencesIn (found.map (Site.under index)) = (sequencesIn found).map (index :: ·) := by
  rw [sequencesIn, sequencesIn, List.filter_map, List.map_map, List.map_map]
  rfl

end Sites

section Kinds

variable {kind : Kind} (field : Field) (children : List (Child Node))

theorem sites_of_kind_eq (h : kind = .heredocBody) :
    sites ⟨kind, field, children⟩ = [⟨[], ⟨kind, field, children⟩⟩] := by
  rw [sites, if_pos h]

theorem sequencesIn_sites (h : kind ≠ .heredocBody) : sequencesIn (sites ⟨kind, field, children⟩) =
    (if kind.isStatementSequence then [[]] else []) ++ sequencesIn (sitesAmong 0 children) := by
  rw [sites, if_neg h, sequencesIn, List.filter_cons]
  split
  · rfl
  · rfl

theorem bodiesIn_sites (h : kind ≠ .heredocBody) :
    bodiesIn (sites ⟨kind, field, children⟩) = bodiesIn (sitesAmong 0 children) := by
  rw [sites, if_neg h, bodiesIn, List.filter_cons_of_neg (by simpa using h)]
  rfl

theorem landed_of_ne (h : kind ≠ .heredocBody) :
    landed ⟨kind, field, children⟩ = landedAmong kind.isStatementSequence 0 children := by
  rw [landed, bodiesIn_sites field children h, sequencesIn_sites field children h]
  rfl

end Kinds

theorem isFrom_later {index : Nat} {children : List (Child Node)} :
    ∀ sequence ∈ sequencesIn (sitesAmong index children), IsFrom index sequence :=
  fun _ h => isFrom_of_mem_sequencesIn h

/-- The bodies of a child land as they do in the child alone, and those of later children land as if
    the child were not there. -/
theorem landedAmong_node (isSequence : Bool) (index : Nat) (child : Node)
    (children : List (Child Node)) : landedAmong isSequence index (.node child :: children) =
      joined isSequence index (landed child) children := by
  have haround : (if isSequence then [[]] else []) ++
      sequencesIn (sitesAmong index (.node child :: children)) =
      around isSequence index (sequencesIn (sites child))
        (sequencesIn (sitesAmong (index + 1) children)) := by
    rw [sitesAmong, sequencesIn_append, sequencesIn_map_under, around]
  have hsites : bodiesIn (sitesAmong index (.node child :: children)) =
      (bodiesIn (sites child)).map (Site.under index) ++
        bodiesIn (sitesAmong (index + 1) children) := by
    rw [sitesAmong, bodiesIn_append, bodiesIn_map_under]
  rw [landedAmong, haround, hsites, List.map_append, List.map_map, joined, landed, List.map_map]
  congr 1
  · refine List.map_congr_left fun body _ => ?_
    exact congrArg (Landed.mk · (extract body.node)) (landing_around isFrom_later)
  · refine List.map_congr_left fun body hbody => ?_
    have hskip : ∀ sequence ∈ (sequencesIn (sites child)).map (index :: ·),
        ¬ sequence <+: body.address ∧ ¬ body.address < sequence := by
      intro _ hsequence
      obtain ⟨sequence, -, rfl⟩ := List.mem_map.mp hsequence
      have hfrom := isFrom_of_mem_sitesAmong (List.mem_filter.mp hbody).1
      exact ⟨hfrom.not_isPrefixOf sequence, List.lt_asymm (hfrom.lt sequence)⟩
    exact congrArg (Landed.mk · (extract body.node)) (landing_append hskip)

/-! ## What lands at a place -/

theorem payloadsAt_append (first second : List Landed) (place : Place) :
    payloadsAt (first ++ second) place = payloadsAt first place ++ payloadsAt second place := by
  rw [payloadsAt, List.filter_append, List.map_append]
  rfl

theorem payloadsAt_eq_nil {all : List Landed} {place : Place}
    (h : ∀ one ∈ all, one.place ≠ place) : payloadsAt all place = [] := by
  rw [payloadsAt, List.map_eq_nil_iff, List.filter_eq_nil_iff]
  intro one hone hplace
  exact h one hone (of_decide_eq_true hplace)

/-- A queue lands as a whole. -/
theorem payloadsAt_queued (pending : List Node) (sequences : List Address) (place : Place) :
    payloadsAt (queued pending sequences) place =
      if entry sequences = place then pending else [] := by
  split
  · next heq =>
    rw [payloadsAt, queued, List.filter_eq_self.mpr, List.map_map]
    · exact List.map_id pending
    · intro one hone
      obtain ⟨body, -, rfl⟩ := List.mem_map.mp hone
      exact decide_eq_true heq
  · next hne =>
    refine payloadsAt_eq_nil fun one hone => ?_
    obtain ⟨body, -, rfl⟩ := List.mem_map.mp hone
    exact hne

/-- What lands at a place of the parent is what lands at the place of the child that it is. -/
theorem payloadsAt_map_above {index : Nat} {exit place inside : Place}
    (h : ∀ one : Place, one.above index exit = place ↔ one = inside) (all : List Landed) :
    payloadsAt (all.map (Landed.above index exit)) place = payloadsAt all inside := by
  rw [payloadsAt, List.filter_map, List.map_map]
  simp only [Function.comp_def, Landed.above, h]
  rfl

section Joined

variable (isSequence : Bool) (index : Nat) (first : List Landed) (children : List (Child Node))

theorem isFrom_of_mem_landedAmong {one : Landed}
    (h : one ∈ landedAmong isSequence index children) : one.place.IsFrom isSequence index := by
  induction children generalizing index with
  | nil => cases h
  | cons child children ih =>
    cases child with
    | token text => exact (ih (index + 1) h).of_succ
    | node child =>
      rw [landedAmong_node] at h
      rcases List.mem_append.mp h with hchild | hrest
      · obtain ⟨inner, -, rfl⟩ := List.mem_map.mp hchild
        exact (Place.isFrom_exit isFrom_later).above inner.place
      · exact (ih (index + 1) hrest).of_succ

theorem payloadsAt_landedAmong_eq_nil {place : Place} (h : ¬ place.IsFrom isSequence index) :
    payloadsAt (landedAmong isSequence index children) place = [] := by
  refine payloadsAt_eq_nil fun one hone heq => h ?_
  rw [← heq]
  exact isFrom_of_mem_landedAmong isSequence index children hone

/-- What lands inside the first child. -/
theorem payloadsAt_joined_under {inside : Place} (h : inside ≠ .outside) :
    payloadsAt (joined isSequence index first children) (inside.under index) =
      payloadsAt first inside := by
  have hrest : payloadsAt (landedAmong isSequence (index + 1) children) (inside.under index) = [] :=
    payloadsAt_landedAmong_eq_nil isSequence (index + 1) children
      (Place.not_isFrom_of_branch?_eq (Place.branch?_under index h))
  rw [joined, payloadsAt_append, hrest, List.append_nil]
  exact payloadsAt_map_above (fun _ => Place.above_eq_under_iff h
    (Place.exit_ne_under isFrom_later h)) first

/-- What lands elsewhere: at the exit of the first child what is left over in it, and the bodies of
    later children. -/
theorem payloadsAt_joined {place : Place}
    (h : ∀ inside : Place, inside ≠ .outside → inside.under index ≠ place) :
    payloadsAt (joined isSequence index first children) place =
      (if exit isSequence index (sequencesIn (sitesAmong (index + 1) children)) = place then
        payloadsAt first .outside else []) ++
      payloadsAt (landedAmong isSequence (index + 1) children) place := by
  rw [joined, payloadsAt_append]
  congr 1
  split
  · next hexit =>
    subst hexit
    exact payloadsAt_map_above (fun _ => Place.above_eq_exit_iff h) first
  · next hexit =>
    refine payloadsAt_eq_nil fun one hone heq => ?_
    obtain ⟨inner, -, rfl⟩ := List.mem_map.mp hone
    by_cases houtside : inner.place = .outside
    · rw [Landed.above, houtside] at heq
      exact hexit heq
    · rw [Landed.above, Place.above_of_ne_outside index _ houtside] at heq
      exact h inner.place houtside heq

theorem rebuild_payloadsAt_joined (child : Node) :
    rebuild (fun place => payloadsAt (joined isSequence index first children) (place.under index))
      child = rebuild (payloadsAt first) child :=
  rebuild_congr (fun _ h => payloadsAt_joined_under isSequence index first children h) child

end Joined

/-! ## The walk -/

/-- The queue that is handed to a node and the bodies of the node. -/
def arriving (pending : List Node) (node : Node) : List Landed :=
  queued pending (sequencesIn (sites node)) ++ landed node

/-- The queue that is handed to children and the bodies of the children. -/
def arrivingAmong (pending : List Node) (index : Nat) (children : List (Child Node)) :
    List Landed :=
  queued pending (sequencesIn (sitesAmong index children)) ++ landedAmong false index children

theorem arriving_nil (node : Node) : arriving [] node = landed node := rfl

theorem entry_append (index : Nat) (inner later : List Address) :
    entry (inner.map (index :: ·) ++ later) = (entry inner).above index (entry later) := by
  cases inner <;> rfl

theorem arrivingAmong_node (pending : List Node) (index : Nat) (child : Node)
    (children : List (Child Node)) : arrivingAmong pending index (.node child :: children) =
      joined false index (arriving pending child) children := by
  have hentry : entry (sequencesIn (sitesAmong index (.node child :: children))) =
      (entry (sequencesIn (sites child))).above index
        (entry (sequencesIn (sitesAmong (index + 1) children))) := by
    rw [sitesAmong, sequencesIn_append, sequencesIn_map_under, entry_append]
  have hqueued : queued pending (sequencesIn (sitesAmong index (.node child :: children))) =
      (queued pending (sequencesIn (sites child))).map (Landed.above index
        (exit false index (sequencesIn (sitesAmong (index + 1) children)))) := by
    rw [queued, queued, List.map_map, hentry]
    rfl
  rw [arrivingAmong, hqueued, landedAmong_node, joined, joined, arriving, List.map_append,
    List.append_assoc]

theorem payloadsAt_arrivingAmong_eq_nil (pending : List Node) (index : Nat)
    (children : List (Child Node)) {place : Place} (h : ¬ place.IsFrom false index) :
    payloadsAt (arrivingAmong pending index children) place = [] := by
  have hentry : entry (sequencesIn (sitesAmong index children)) ≠ place := by
    rintro rfl
    exact h (Place.isFrom_entry isFrom_later)
  rw [arrivingAmong, payloadsAt_append, payloadsAt_queued, if_neg hentry,
    payloadsAt_landedAmong_eq_nil false index children h]
  rfl

section Arriving

variable (pending : List Node) {kind : Kind} (field : Field) (children : List (Child Node))

theorem payloadsAt_arriving_of_kind_eq (h : kind = .heredocBody) :
    payloadsAt (arriving pending ⟨kind, field, children⟩) .outside =
      pending ++ [extract ⟨kind, field, children⟩] := by
  subst h
  rw [arriving, landed, sites_of_kind_eq field children rfl, payloadsAt_append, payloadsAt_queued]
  rfl

/-- A sequence puts the queue in front of its children, and nothing of it further inside. -/
theorem payloadsAt_arriving_of_isStatementSequence (h : kind.isStatementSequence = true)
    (place : Place) : payloadsAt (arriving pending ⟨kind, field, children⟩) place =
      (if .front [] = place then pending else []) ++
        payloadsAt (landedAmong true 0 children) place := by
  have hb : kind ≠ .heredocBody := by
    rintro rfl
    cases h
  rw [arriving, sequencesIn_sites field children hb, landed_of_ne field children hb, h,
    payloadsAt_append, payloadsAt_queued]
  rfl

theorem rebuild_arriving_of_isStatementSequence (h : kind.isStatementSequence = true) :
    rebuild (payloadsAt (arriving pending ⟨kind, field, children⟩)) ⟨kind, field, children⟩ =
      ⟨kind, field, pending.map .node ++
        rebuildAmong (payloadsAt (landedAmong true 0 children)) 0 children⟩ := by
  have hb : kind ≠ .heredocBody := by
    rintro rfl
    cases h
  have hat := payloadsAt_arriving_of_isStatementSequence pending field children h
  have hfront : payloadsAt (arriving pending ⟨kind, field, children⟩) (.front []) = pending := by
    rw [hat, if_pos rfl, payloadsAt_landedAmong_eq_nil true 0 children Place.not_isFrom_front_nil,
      List.append_nil]
  have hchildren : rebuildAmong (payloadsAt (arriving pending ⟨kind, field, children⟩)) 0
      children = rebuildAmong (payloadsAt (landedAmong true 0 children)) 0 children := by
    refine rebuildAmong_congr (fun place branch hbranch _ => ?_) children
    have hne : Place.front [] ≠ place := by
      rintro rfl
      cases hbranch
    rw [hat, if_neg hne, List.nil_append]
  rw [rebuild, if_neg hb, hfront, hchildren]

/-- A sequence leaves nothing over. -/
theorem payloadsAt_arriving_outside_of_isStatementSequence (h : kind.isStatementSequence = true) :
    payloadsAt (arriving pending ⟨kind, field, children⟩) .outside = [] := by
  rw [payloadsAt_arriving_of_isStatementSequence pending field children h, if_neg nofun,
    payloadsAt_landedAmong_eq_nil true 0 children Place.not_isFrom_outside]
  rfl

/-- Any other node hands the queue to its children. -/
theorem arriving_of_not_isStatementSequence (hb : kind ≠ .heredocBody)
    (hs : kind.isStatementSequence = false) :
    arriving pending ⟨kind, field, children⟩ = arrivingAmong pending 0 children := by
  rw [arriving, sequencesIn_sites field children hb, landed_of_ne field children hb, hs]
  rfl

theorem rebuild_arrivingAmong (hb : kind ≠ .heredocBody) :
    rebuild (payloadsAt (arrivingAmong pending 0 children)) ⟨kind, field, children⟩ =
      ⟨kind, field, rebuildAmong (payloadsAt (arrivingAmong pending 0 children)) 0 children⟩ := by
  rw [rebuild, if_neg hb,
    payloadsAt_arrivingAmong_eq_nil pending 0 children Place.not_isFrom_front_nil]
  rfl

end Arriving

section First

variable (index : Nat) (child : Node) (children : List (Child Node))

/-- In a sequence what is left over in a child stands behind it. -/
theorem rebuildAmong_landedAmong_node :
    rebuildAmong (payloadsAt (landedAmong true index (.node child :: children))) index
        (.node child :: children) =
      .node (rebuild (payloadsAt (landed child)) child) ::
        ((payloadsAt (landed child) .outside).map .node ++
          rebuildAmong (payloadsAt (landedAmong true (index + 1) children)) (index + 1)
            children) := by
  have hbehind : payloadsAt (joined true index (landed child) children) (.behind [] index) =
      payloadsAt (landed child) .outside := by
    rw [payloadsAt_joined true index _ children fun _ h => Place.under_ne_behind index h,
      payloadsAt_landedAmong_eq_nil true (index + 1) children
        (Place.not_isFrom_of_branch?_eq rfl), List.append_nil]
    exact if_pos rfl
  have hlater : rebuildAmong (payloadsAt (joined true index (landed child) children)) (index + 1)
      children = rebuildAmong (payloadsAt (landedAmong true (index + 1) children)) (index + 1)
        children := by
    refine rebuildAmong_congr (fun place branch hbranch hle => ?_) children
    have hne : Place.behind [] index ≠ place := by
      rintro rfl
      cases hbranch
      omega
    rw [payloadsAt_joined true index _ children fun _ h => Place.under_ne_of_branch? h hbranch hle]
    exact congrArg (· ++ _) (if_neg hne)
  rw [landedAmong_node, rebuildAmong, rebuild_payloadsAt_joined, hbehind, hlater]

/-- In any other node what is left over in a child is the queue of the later children. -/
theorem payloadsAt_arrivingAmong_node (pending : List Node) {place : Place}
    (h : ∀ inside : Place, inside ≠ .outside → inside.under index ≠ place) :
    payloadsAt (arrivingAmong pending index (.node child :: children)) place =
      payloadsAt (arrivingAmong (payloadsAt (arriving pending child) .outside) (index + 1)
        children) place := by
  rw [arrivingAmong_node, payloadsAt_joined false index _ children h, arrivingAmong,
    payloadsAt_append, payloadsAt_queued]
  rfl

theorem rebuildAmong_arrivingAmong_node (pending : List Node) :
    rebuildAmong (payloadsAt (arrivingAmong pending index (.node child :: children))) index
        (.node child :: children) =
      .node (rebuild (payloadsAt (arriving pending child)) child) ::
        rebuildAmong (payloadsAt (arrivingAmong (payloadsAt (arriving pending child) .outside)
          (index + 1) children)) (index + 1) children := by
  have hinside : rebuild (fun place => payloadsAt (arrivingAmong pending index
      (.node child :: children)) (place.under index)) child =
        rebuild (payloadsAt (arriving pending child)) child := by
    rw [arrivingAmong_node]
    exact rebuild_payloadsAt_joined false index (arriving pending child) children child
  have hbehind : payloadsAt (arrivingAmong pending index (.node child :: children))
      (.behind [] index) = [] := by
    rw [payloadsAt_arrivingAmong_node index child children pending fun _ h =>
      Place.under_ne_behind index h]
    exact payloadsAt_arrivingAmong_eq_nil _ (index + 1) children
      (Place.not_isFrom_of_branch?_eq rfl)
  have hlater := rebuildAmong_congr (fun place branch hbranch hle =>
    payloadsAt_arrivingAmong_node index child children pending fun _ h =>
      Place.under_ne_of_branch? h hbranch hle) children
  rw [rebuildAmong, hinside, hbehind, hlater]
  rfl

end First

mutual

/-- A walk puts the bodies pending before it and those it meets where they land. -/
theorem walk_eq (pending : List Node) : (node : Node) → walk pending node =
    ⟨rebuild (payloadsAt (arriving pending node)) node, payloadsAt (arriving pending node) .outside⟩
  | ⟨kind, field, children⟩ => by
    by_cases hb : kind = .heredocBody
    · rw [walk_of_kind_eq pending field children hb,
        payloadsAt_arriving_of_kind_eq pending field children hb, rebuild, if_pos hb]
    · cases hs : kind.isStatementSequence with
      | true =>
        rw [walk_of_isStatementSequence pending field children hs, walkStatements_eq 0 children,
          rebuild_arriving_of_isStatementSequence pending field children hs,
          payloadsAt_arriving_outside_of_isStatementSequence pending field children hs]
      | false =>
        rw [walk_of_not_isStatementSequence pending field children hb hs,
          walkChildren_eq pending 0 children,
          arriving_of_not_isStatementSequence pending field children hb hs,
          rebuild_arrivingAmong pending field children hb]

theorem walkStatements_eq (index : Nat) : (children : List (Child Node)) →
    walkStatements children =
      rebuildAmong (payloadsAt (landedAmong true index children)) index children
  | [] => rfl
  | .token text :: children => by
    rw [walkStatements, rebuildAmong, walkStatements_eq (index + 1) children]
    rfl
  | .node child :: children => by
    rw [walkStatements, walk_eq [] child, arriving_nil, walkStatements_eq (index + 1) children,
      rebuildAmong_landedAmong_node]

theorem walkChildren_eq (pending : List Node) (index : Nat) : (children : List (Child Node)) →
    walkChildren pending children =
      ⟨rebuildAmong (payloadsAt (arrivingAmong pending index children)) index children,
        payloadsAt (arrivingAmong pending index children) .outside⟩
  | [] => by
    rw [walkChildren, rebuildAmong, arrivingAmong, payloadsAt_append, payloadsAt_queued]
    exact congrArg (Walked.mk []) (List.append_nil pending).symm
  | .token text :: children => by
    rw [walkChildren, rebuildAmong, walkChildren_eq pending (index + 1) children]
    rfl
  | .node child :: children => by
    rw [walkChildren, walk_eq pending child, walkChildren_eq _ (index + 1) children,
      rebuildAmong_arrivingAmong_node, payloadsAt_arrivingAmong_node index child children pending
        fun _ h => Place.under_ne_outside index h]

end

/-! ## The whole tree -/

mutual

theorem map_node_bodiesIn_sites : (node : Node) →
    (bodiesIn (sites node)).map (·.node) = bodies node
  | ⟨kind, field, children⟩ => by
    by_cases hb : kind = .heredocBody
    · subst hb
      rw [sites_of_kind_eq field children rfl, bodies_of_kind_eq rfl]
      rfl
    · rw [bodiesIn_sites field children hb, bodies, if_neg hb]
      exact map_node_bodiesIn_sitesAmong 0 children

theorem map_node_bodiesIn_sitesAmong (index : Nat) : (children : List (Child Node)) →
    (bodiesIn (sitesAmong index children)).map (·.node) = bodiesAmong children
  | [] => rfl
  | .token _ :: children => map_node_bodiesIn_sitesAmong (index + 1) children
  | .node child :: children => by
    rw [sitesAmong, bodiesIn_append, bodiesIn_map_under, List.map_append, List.map_map, bodiesAmong,
      ← map_node_bodiesIn_sites child, map_node_bodiesIn_sitesAmong (index + 1) children]
    rfl

end

/-- Each body of a tree has one landing, in pre-order. -/
theorem payloads_landed (root : Node) :
    (landed root).map (·.payload) = (bodies root).map extract := by
  rw [landed, List.map_map, ← map_node_bodiesIn_sites, List.map_map]
  rfl

/-- Each body of a tree has one landing, in pre-order. The finished tree is the original one, with a
    marker for each body and with the payloads where their bodies land: in front of the first
    sequence of statements that comes after the body in its statement, or else right behind that
    statement. Only those are left over for which there is neither. Payloads with the same landing
    stand in pre-order. -/
theorem relocate_eq (root : Node) :
    (landed root).map (·.payload) = (bodies root).map extract ∧
      relocate root =
        ⟨rebuild (payloadsAt (landed root)) root, payloadsAt (landed root) .outside⟩ :=
  ⟨payloads_landed root, walk_eq [] root⟩

/-- Two bodies around a block in one statement: the first lands in the block, the second behind the
    statement. -/
example :
    let block := Node.ofKind .doBlock
    let body := Node.ofKind .heredocBody
    let call : Node := ⟨.call, .unlabeled, [.node body, .node block, .node body]⟩
    (landed ⟨.program, .unlabeled, [.node call]⟩).map (·.place) =
      [.front [0, 1], .behind [] 0] := by
  decide +kernel

end RubyTree.Heredoc
