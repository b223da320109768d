import RubyTree.Proofs.TwoRuns.Run

/-!
# Unknown events that nothing refers to

An event that is no production hands its first argument on, and overwrites the position and the
token. The next event overwrites both again. So if such an event uses up no result and nothing uses
up its own, a stream is replayed as if it were not there. Only at the end of a stream would it be
seen, for the last result is the root of the tree.

The two tables of results are shifted against each other. `Results.Aligned` says so through the
change of the references: what an old reference finds in one table, the new one finds in the other.

Results:

* `Results.agree_resolveAll`: changed references are followed alike in aligned tables.
* `replay_inserting`: a stream and the stream with an event put in.
-/

namespace RubyTree

open Outcome (Agree Whatever)

/-! ## Changing references -/

mutual

/-- An argument whose references are changed. -/
def Arg.renumber (f : Nat → Nat) : Arg → Arg
  | .ref index => .ref (f index)
  | .list items => .list (Arg.renumberAll f items)
  | .absent => .absent
  | .bool flag => .bool flag
  | .text content => .text content
  | .symbol name => .symbol name

/-- Arguments whose references are changed. -/
def Arg.renumberAll (f : Nat → Nat) : List Arg → List Arg
  | [] => []
  | arg :: args => arg.renumber f :: Arg.renumberAll f args

end

/-- An event whose references are changed. -/
def Event.renumber (f : Nat → Nat) (event : Event) : Event :=
  { event with args := Arg.renumberAll f event.args }

/-- The index that an event has after another one is put in at `place`. -/
def skipping (place index : Nat) : Nat := if place ≤ index then index + 1 else index

/-- The stream with an event put in at `place`, and with references that make room for it. -/
def inserting (place : Nat) (event : Event) (events : List Event) : List Event :=
  (events.take place).map (Event.renumber (skipping place)) ++
    event :: (events.drop place).map (Event.renumber (skipping place))

theorem skipping_of_lt {place index : Nat} (h : index < place) : skipping place index = index :=
  if_neg (by omega)

theorem skipping_of_le {place index : Nat} (h : place ≤ index) :
    skipping place index = index + 1 := if_pos h

theorem skipping_injective (place : Nat) {index other : Nat}
    (h : skipping place index = skipping place other) : index = other := by
  unfold skipping at h
  split at h <;> split at h <;> omega

/-! ## Tables of results -/

namespace Results

/-- What is found in the one table is found under the changed index in the other. -/
def Aligned (f : Nat → Nat) (results results' : Results) : Prop :=
  ∀ index, results'[f index]? = results[index]?

variable {place : Nat} {results results' : Results}

theorem Aligned.set (h : Aligned (skipping place) results results') (index : Nat) :
    Aligned (skipping place) (results.set index none)
      (results'.set (skipping place index) none) := by
  intro other
  by_cases heq : index = other
  · subst heq
    rw [List.getElem?_set_self', List.getElem?_set_self', h index]
  · have hne : skipping place index ≠ skipping place other := fun hsame =>
      heq (skipping_injective place hsame)
    rw [List.getElem?_set_ne heq, List.getElem?_set_ne hne, h other]

/-- One more result at the end of both tables. -/
theorem Aligned.append (h : Aligned (skipping place) results results')
    (hlength : results'.length = results.length + 1) (hplace : place ≤ results.length)
    (value : Value) :
    Aligned (skipping place) (results ++ [some value]) (results' ++ [some value]) := by
  intro index
  have hindex := h index
  rcases Nat.lt_trichotomy index results.length with hlt | heq | hgt
  · have hlt' : skipping place index < results'.length := by
      unfold skipping
      split <;> omega
    rw [List.getElem?_append_left hlt, List.getElem?_append_left hlt', hindex]
  · rw [skipping_of_le (by omega), List.getElem?_append_right (by omega),
      List.getElem?_append_right (by omega), hlength, heq, Nat.sub_self, Nat.sub_self]
  · have hlong : (results ++ [some value]).length ≤ index := by
      rw [List.length_append]
      exact hgt
    have hlong' : (results' ++ [some value]).length ≤ index + 1 := by
      rw [List.length_append, hlength]
      exact Nat.succ_le_succ hgt
    rw [skipping_of_le (by omega), List.getElem?_eq_none hlong, List.getElem?_eq_none hlong']

/-- A table is aligned with itself as long as it ends before the place. -/
theorem aligned_self (h : results.length ≤ place) : Aligned (skipping place) results results := by
  intro index
  by_cases hlt : index < place
  · rw [skipping_of_lt hlt]
  · rw [skipping_of_le (by omega), List.getElem?_eq_none (by omega),
      List.getElem?_eq_none (by omega)]

theorem Aligned.eq_of_length_le (h : Aligned (skipping place) results results')
    (hplace : results.length ≤ place) (hplace' : results'.length ≤ place) :
    results' = results := by
  refine List.ext_getElem? fun index => ?_
  by_cases hlt : index < place
  · rw [← h index, skipping_of_lt hlt]
  · rw [List.getElem?_eq_none (by omega), List.getElem?_eq_none (by omega)]

/-- At the place itself, one table gets a result that the other does not. -/
theorem aligned_concat (value : Value) :
    Aligned (skipping results.length) results (results ++ [some value]) := by
  intro index
  by_cases hlt : index < results.length
  · rw [skipping_of_lt hlt, List.getElem?_append_left hlt]
  · have hlong : (results ++ [some value]).length ≤ index + 1 := by
      rw [List.length_append, List.length_singleton]
      omega
    rw [skipping_of_le (by omega), List.getElem?_eq_none hlong, List.getElem?_eq_none (by omega)]

/-! ## References into aligned tables -/

/-- What is resolved is the same, and the tables left are aligned. -/
abbrev SameFound {α : Type} (place : Nat) (found found' : α × Results) : Prop :=
  found'.1 = found.1 ∧ Aligned (skipping place) found.2 found'.2

theorem agree_take (h : Aligned (skipping place) results results') (index : Nat) :
    Agree Whatever (SameFound place) (results.take index)
      (results'.take (skipping place index)) := by
  rw [take, take, h index]
  cases results[index]? with
  | none => exact .error trivial
  | some slot =>
    cases slot with
    | none => exact .error trivial
    | some value => exact .ok ⟨rfl, h.set index⟩

mutual

theorem agree_resolve : (arg : Arg) → {results results' : Results} →
    Aligned (skipping place) results results' →
    Agree Whatever (SameFound place) (results.resolve arg)
      (results'.resolve (arg.renumber (skipping place)))
  | .absent, _, _, h | .bool _, _, _, h | .text _, _, _, h | .symbol _, _, _, h => .ok ⟨rfl, h⟩
  | .ref index, _, _, h => agree_take h index
  | .list items, _, _, h =>
    (agree_resolveAll items h).map fun _ _ hfound => ⟨congrArg Value.list hfound.1, hfound.2⟩

theorem agree_resolveAll : (args : List Arg) → {results results' : Results} →
    Aligned (skipping place) results results' →
    Agree Whatever (SameFound place) (results.resolveAll args)
      (results'.resolveAll (Arg.renumberAll (skipping place) args))
  | [], _, _, h => .ok ⟨rfl, h⟩
  | arg :: args, _, _, h => by
    rw [Arg.renumberAll, resolveAll_cons, resolveAll_cons]
    refine (agree_resolve arg h).bind fun first first' hfirst => ?_
    refine (agree_resolveAll args hfirst.2).map fun more more' hmore => ?_
    exact ⟨congrArg₂ List.cons hfirst.1 hmore.1, hmore.2⟩

end

end Results

/-! ## Replays -/

namespace Replay

open Results

variable {place n : Nat} {left right : Replay}

/-- The replays differ at most in where they stand. Both have handled `n` events. -/
abbrev Level (n : Nat) : Replay → Replay → Prop :=
  Parallel id Eq fun results results' => results' = results ∧ results.length = n

/-- The second replay has handled one event more, which stood at `place`. -/
abbrev Ahead (place n : Nat) : Replay → Replay → Prop :=
  Parallel id Eq fun results results' =>
    Aligned (skipping place) results results' ∧ results.length = n ∧ results'.length = n + 1

theorem keepsNoted_eq : Context.KeepsNoted id Eq := by
  rintro earlier _ position message rfl
  rfl

/-- An event and the same event with changed references, where the tables are aligned. -/
theorem agree_step_renumber {T : Results → Results → Prop} (event : Event)
    (hcontext : Context.MatchesNext id Eq left.context right.context)
    (haligned : Aligned (skipping place) left.results right.results)
    (hT : ∀ {rest rest' value}, rest.length = left.results.length →
      rest'.length = right.results.length → Aligned (skipping place) rest rest' →
      T (rest ++ [some value]) (rest' ++ [some value])) :
    Agree Whatever (Parallel id Eq T) (left.step event)
      (right.step (event.renumber (skipping place))) := by
  have hhandled : Agree Whatever (Parallel id Eq T) (left.handleEvent event)
      (right.handleEvent (event.renumber (skipping place))) := by
    refine agree_handleEvent (fun _ => trivial) (agree_resolveAll event.args haligned).with_eq ?_
      hcontext
    rintro arguments rest arguments' rest' ⟨⟨hvalues, hrest⟩, hleft, hright⟩
    cases hvalues
    refine ⟨alike_handle Position.keepsLeft_id keepsNoted_eq event.name arguments event.position
      event.token, fun value => ?_⟩
    exact hT (length_of_resolveAll _ hleft) (length_of_resolveAll _ hright) hrest
  exact hhandled.mapError fun _ _ _ => trivial

/-- Before the place the replays do the same. -/
theorem agree_step_level (h : Level n left right) (hn : n < place) (event : Event) :
    Agree Whatever (Level (n + 1)) (left.step event)
      (right.step (event.renumber (skipping place))) := by
  obtain ⟨hresults, hlength⟩ := h.results
  have haligned : Aligned (skipping place) left.results right.results := by
    rw [hresults]
    exact aligned_self (by omega)
  refine agree_step_renumber event h.context haligned fun hrest hrest' hsame => ?_
  rw [hresults] at hrest'
  rw [hsame.eq_of_length_le (by omega) (by omega), List.length_append, hrest, hlength]
  exact ⟨rfl, rfl⟩

/-- Behind the place the replays do the same, and the tables stay aligned. -/
theorem agree_step_ahead (h : Ahead place n left right) (hn : place ≤ n) (event : Event) :
    Agree Whatever (Ahead place (n + 1)) (left.step event)
      (right.step (event.renumber (skipping place))) := by
  obtain ⟨haligned, hlength, hlength'⟩ := h.results
  refine agree_step_renumber event h.context haligned fun hrest hrest' hsame => ?_
  refine ⟨hsame.append (by omega) (by omega) _, ?_, ?_⟩
  · rw [List.length_append, hrest, hlength]
    rfl
  · rw [List.length_append, hrest', hlength']
    rfl

/-- At the place the second replay handles an event that no reference needs. -/
theorem exists_step_unknown {unknown : Event} (hname : Production.ofName? unknown.name = none)
    (hargs : Arg.referencesAll unknown.args = []) (h : Level n left right) :
    ∃ next, right.step unknown = .ok next ∧ Ahead n n left next := by
  obtain ⟨hresults, hlength⟩ := h.results
  obtain ⟨arguments, harguments⟩ :=
    resolveAll_of_referencesAll_eq_nil right.results unknown.args hargs
  let next : Replay := ⟨right.context.enter unknown.position unknown.token,
    right.results ++ [some (firstArgument arguments)]⟩
  refine ⟨next, ?_, ?_⟩
  · rw [step_eq_ok_iff, handleEvent_eq_ok_iff]
    exact ⟨arguments, right.results, firstArgument arguments, harguments,
      exec_handle_of_ofName?_eq_none hname _ _ _ _, rfl⟩
  · refine ⟨h.context.enter_right _ _, ?_, hlength, ?_⟩
    · rw [← hlength, show next.results = left.results ++ [some (firstArgument arguments)] by
        rw [← hresults]]
      exact aligned_concat _
    · rw [List.length_append, hresults, hlength]
      rfl

/-- The last results are the same when they come from an event behind the place. -/
theorem root_of_ahead (h : Ahead place n left right) (hn : place < n) : right.root = left.root := by
  obtain ⟨haligned, hlength, hlength'⟩ := h.results
  have hlast := haligned (n - 1)
  rw [skipping_of_le (by omega), show n - 1 + 1 = n by omega] at hlast
  rw [root, root, List.getLast?_eq_getElem?, List.getLast?_eq_getElem?, hlength, hlength',
    Nat.add_sub_cancel, hlast]

/-- A stream and the same stream with an event put in. The first part is handled by both, then
    comes the event that only the second one has, then the rest. -/
theorem agree_run_inserting {unknown : Event} (hname : Production.ofName? unknown.name = none)
    (hargs : Arg.referencesAll unknown.args = []) {events : List Event}
    (hplace : place < events.length) :
    Agree Whatever (Ahead place events.length) (run {} events)
      (run {} (inserting place unknown events)) := by
  have hpairs : ∀ part : List Event, List.Forall₂
      (fun event other => other = event.renumber (skipping place)) part
      (part.map (Event.renumber (skipping place))) := fun part =>
    List.forall₂_map_right_iff.mpr (List.forall₂_same.mpr fun _ _ => rfl)
  have hbefore : (events.take place).length = place := by
    rw [List.length_take]
    omega
  have hstart : Level 0 {} {} := ⟨Context.matchesNext_initial rfl, rfl, rfl⟩
  have hfirst := agree_run (E := Whatever) (S := Level) (hpairs (events.take place))
    (fun _ hm h hpair => by
      rw [hpair]
      exact agree_step_level h (by omega) _) hstart
  have hsplit : run {} events = run {} (events.take place) >>= fun middle =>
      middle.run (events.drop place) := by
    rw [← run_append, List.take_append_drop]
  rw [Nat.zero_add, hbefore] at hfirst
  rw [hsplit, inserting, run_append]
  refine hfirst.bind fun left right hlevel => ?_
  obtain ⟨next, hstep, hnext⟩ := exists_step_unknown hname hargs hlevel
  rw [run_cons, hstep]
  have hsecond := agree_run (E := Whatever) (S := Ahead place) (hpairs (events.drop place))
    (fun hm _ h hpair => by
      rw [hpair]
      exact agree_step_ahead h hm _) hnext
  rwa [List.length_drop, Nat.add_sub_cancel' (Nat.le_of_lt hplace)] at hsecond

end Replay

/-- An event that is no production and refers to nothing may be put in anywhere but at the end of a
    stream, with whatever position, token and arguments. The stream then fails if it did before, and
    otherwise it gives the same tree and the same diagnostics. -/
theorem replay_inserting {unknown : Event} (hname : Production.ofName? unknown.name = none)
    (hargs : Arg.referencesAll unknown.args = []) {events : List Event} {place : Nat}
    (hplace : place < events.length) :
    (replay (inserting place unknown events)).toOption = (replay events).toOption := by
  have hreplay := agree_replay (fun _ => trivial)
    (Replay.agree_run_inserting hname hargs hplace) fun h =>
      ⟨Replay.root_of_ahead h hplace, h.context.diagnostics⟩
  have hread := hreplay.toOption_map (f := id) (g := id) fun normalized normalized' h => by
    obtain ⟨htree, hdiagnostics⟩ := h
    exact (Normalized.eq_mk htree hdiagnostics.symm).symm
  rw [Option.map_id, id, id] at hread
  exact hread.symm

/-- An empty statement right behind a semicolon. -/
def emptyStatement : List Event := [
  { name := "semicolon", args := [.text ";"], position := ⟨1, 4⟩ },
  { name := "void_stmt", position := ⟨1, 5⟩ },
  { name := "stmts_new" },
  { name := "stmts_add", args := [.ref 2, .ref 1] },
  { name := "program", args := [.ref 3] }]

/-- A comment, which is not an event of the grammar. -/
def comment : Event where
  name := "comment"
  args := [.list [.text "# done"]]
  position := ⟨1, 7⟩
  token := some "# done"

/-- A comment between the semicolon and the empty statement does not part them. -/
theorem replay_inserting_comment :
    Production.ofName? comment.name = none ∧ Arg.referencesAll comment.args = [] ∧
      1 < emptyStatement.length ∧ (replay emptyStatement).isOk = true ∧
      (replay (inserting 1 comment emptyStatement)).toOption =
        (replay emptyStatement).toOption := by
  have hname : Production.ofName? comment.name = none := by decide +kernel
  exact ⟨hname, rfl, by decide, by decide +kernel, replay_inserting hname rfl (by decide)⟩

end RubyTree
