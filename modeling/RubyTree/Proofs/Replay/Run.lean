import RubyTree.Proofs.Outcome
import RubyTree.Replay

/-!
# Runs of a replay

A run handles events one after the other. `handleEvent_eq` says once what handling an event can do;
facts about runs follow from it by induction on the events.

Results:

* `Replay.handleEvent_eq`: the arguments are resolved first, then the rule is applied, and a result
  is added at the end of the table.
* `Replay.length_results_of_run`: a run of `n` events adds `n` results.
* `replay_eq_error_event_iff`: a stream fails at an event exactly when handling it fails where the
  events before have led.
-/

namespace RubyTree

/-! ## Resolving keeps the number of results -/

namespace Results

theorem resolveAll_cons (results : Results) (arg : Arg) (args : List Arg) :
    results.resolveAll (arg :: args) = results.resolve arg >>= fun first =>
      (resolveAll first.2 args).map fun more => (first.1 :: more.1, more.2) := rfl

theorem length_of_take {results rest : Results} {index : Nat} {value : Value}
    (h : results.take index = .ok (value, rest)) : rest.length = results.length := by
  unfold take at h
  split at h
  · cases h
  · cases h
  · cases h
    exact List.length_set

mutual

theorem length_of_resolve : (arg : Arg) → {results rest : Results} → {value : Value} →
    results.resolve arg = .ok (value, rest) → rest.length = results.length
  | .absent, _, _, _, h | .bool _, _, _, _, h | .text _, _, _, _, h | .symbol _, _, _, _, h => by
    simp only [resolve, Except.ok.injEq, Prod.mk.injEq] at h
    rw [h.2]
  | .ref index, _, _, _, h => length_of_take (by rwa [resolve] at h)
  | .list items, _, _, _, h => by
    rw [resolve, Outcome.map_eq_ok_iff] at h
    obtain ⟨found, hall, hfound⟩ := h
    cases hfound
    exact length_of_resolveAll items hall

theorem length_of_resolveAll : (args : List Arg) → {results rest : Results} →
    {values : List Value} → results.resolveAll args = .ok (values, rest) →
    rest.length = results.length
  | [], _, _, _, h => by
    simp only [resolveAll, Except.ok.injEq, Prod.mk.injEq] at h
    rw [h.2]
  | arg :: args, _, _, _, h => by
    rw [resolveAll_cons] at h
    obtain ⟨first, hfirst, hargs⟩ := Outcome.bind_eq_ok_iff.mp h
    obtain ⟨more, hmore, hvalues⟩ := Outcome.map_eq_ok_iff.mp hargs
    cases hvalues
    exact (length_of_resolveAll args hmore).trans (length_of_resolve arg hfirst)

end

/-! ## Arguments that can be resolved -/

theorem take_middle (front back : Results) (value : Value) :
    take (front ++ some value :: back) front.length = .ok (value, front ++ none :: back) := by
  simp [take]

theorem resolveAll_nil (results : Results) : results.resolveAll [] = .ok ([], results) := rfl

mutual

/-- An argument that refers to nothing can be resolved, and it uses nothing up. -/
theorem resolve_of_references_eq_nil (results : Results) : (arg : Arg) → arg.references = [] →
    ∃ value, results.resolve arg = .ok (value, results)
  | .absent, _ | .bool _, _ | .text _, _ | .symbol _, _ => ⟨_, rfl⟩
  | .ref _, h => by cases h
  | .list items, h => by
    obtain ⟨values, hvalues⟩ := resolveAll_of_referencesAll_eq_nil results items h
    exact ⟨.list values, by rw [resolve, hvalues]; rfl⟩

theorem resolveAll_of_referencesAll_eq_nil (results : Results) : (args : List Arg) →
    Arg.referencesAll args = [] → ∃ values, results.resolveAll args = .ok (values, results)
  | [], _ => ⟨[], rfl⟩
  | arg :: args, h => by
    obtain ⟨harg, hargs⟩ := List.append_eq_nil_iff.mp h
    obtain ⟨value, hvalue⟩ := resolve_of_references_eq_nil results arg harg
    obtain ⟨values, hvalues⟩ := resolveAll_of_referencesAll_eq_nil results args hargs
    refine ⟨value :: values, ?_⟩
    rw [resolveAll_cons, hvalue]
    simp only [bind, Except.bind, hvalues]
    rfl

end

theorem resolveAll_text (results : Results) (text : String) :
    results.resolveAll [.text text] = .ok ([.text text], results) := rfl

theorem resolveAll_texts (results : Results) (texts : List String) :
    results.resolveAll (texts.map .text) = .ok (texts.map .text, results) := by
  induction texts with
  | nil => rfl
  | cons text texts ih =>
    rw [List.map_cons, resolveAll_cons, resolve]
    simp only [bind, Except.bind, ih]
    rfl

/-- A reference in front of other arguments uses up its result first. -/
theorem resolveAll_ref_cons {results rest last : Results} {index : Nat} {value : Value}
    {args : List Arg} {values : List Value} (hfirst : results.take index = .ok (value, rest))
    (hargs : rest.resolveAll args = .ok (values, last)) :
    results.resolveAll (.ref index :: args) = .ok (value :: values, last) := by
  rw [resolveAll_cons, resolve, hfirst]
  simp only [bind, Except.bind, hargs]
  rfl

end Results

/-! ## One event -/

namespace Replay

/-- What handling an event can do. -/
theorem handleEvent_eq (replay : Replay) (event : Event) : replay.handleEvent event =
    match replay.results.resolveAll event.args with
    | .error cause => .error (.stream cause)
    | .ok (arguments, rest) =>
      match (handle event.name arguments event.position event.token).exec replay.context with
      | (.error cause, _) => .error (.shape cause)
      | (.ok value, context) => .ok ⟨context, rest ++ [some value]⟩ := by
  unfold handleEvent
  cases replay.results.resolveAll event.args with
  | error cause => rfl
  | ok resolved =>
    obtain ⟨arguments, rest⟩ := resolved
    simp only [Outcome.mapError_ok, bind, Except.bind]
    obtain ⟨outcome, context⟩ :=
      (handle event.name arguments event.position event.token).exec replay.context
    cases outcome <;> rfl

theorem handleEvent_eq_ok_iff (replay next : Replay) (event : Event) :
    replay.handleEvent event = .ok next ↔ ∃ arguments rest value,
      replay.results.resolveAll event.args = .ok (arguments, rest) ∧
      (handle event.name arguments event.position event.token).exec replay.context =
        (.ok value, next.context) ∧
      next.results = rest ++ [some value] := by
  rw [handleEvent_eq]
  obtain ⟨context, results⟩ := next
  constructor
  · intro h
    split at h
    · cases h
    · split at h
      · cases h
      · cases h
        exact ⟨_, _, _, by assumption, by assumption, rfl⟩
  · rintro ⟨arguments, rest, value, hargs, hrule, hresults⟩
    simp only at hrule hresults
    rw [hargs]
    simp only [hrule, hresults]

/-- Handling an event fails in the stream exactly when resolving its arguments does. -/
theorem handleEvent_eq_error_stream_iff (replay : Replay) (event : Event) (cause : StreamError) :
    replay.handleEvent event = .error (.stream cause) ↔
      replay.results.resolveAll event.args = .error cause := by
  rw [handleEvent_eq]
  constructor
  · intro h
    split at h
    · cases h
      assumption
    · split at h <;> cases h
  · intro h
    rw [h]

/-- The error of an event that could not be handled. -/
def failure (replay : Replay) (event : Event) (cause : Error) : Error :=
  .event replay.results.length event.name event.position.line event.position.column cause

theorem step_eq_ok_iff (replay next : Replay) (event : Event) :
    replay.step event = .ok next ↔ replay.handleEvent event = .ok next := by
  rw [step, Outcome.mapError_eq_ok_iff]

theorem step_eq_error_iff (replay : Replay) (event : Event) (cause : Error) :
    replay.step event = .error cause ↔
      ∃ inner, replay.handleEvent event = .error inner ∧ replay.failure event inner = cause := by
  rw [step, Outcome.mapError_eq_error_iff]
  rfl

theorem length_results_of_step {replay next : Replay} {event : Event}
    (h : replay.step event = .ok next) : next.results.length = replay.results.length + 1 := by
  rw [step_eq_ok_iff, handleEvent_eq_ok_iff] at h
  obtain ⟨arguments, rest, value, hargs, -, hresults⟩ := h
  rw [hresults, List.length_append, Results.length_of_resolveAll event.args hargs]
  rfl

/-! ## Many events -/

/-- Handles events from left to right. -/
def run (start : Replay) (events : List Event) : Except Error Replay := events.foldlM step start

@[simp] theorem run_nil (start : Replay) : start.run [] = .ok start := rfl

@[simp] theorem run_cons (start : Replay) (event : Event) (events : List Event) :
    start.run (event :: events) = start.step event >>= fun next => next.run events := rfl

theorem run_append (start : Replay) (front back : List Event) :
    start.run (front ++ back) = start.run front >>= fun middle => middle.run back := by
  unfold run
  rw [List.foldlM_append]

theorem run_append_of_run {start middle : Replay} {front : List Event}
    (h : start.run front = .ok middle) (back : List Event) :
    start.run (front ++ back) = middle.run back := by
  rw [run_append, h]
  rfl

theorem length_results_of_run {start last : Replay} {events : List Event}
    (h : start.run events = .ok last) :
    last.results.length = start.results.length + events.length := by
  induction events generalizing start with
  | nil =>
    cases h
    rfl
  | cons event events ih =>
    obtain ⟨next, hstep, hrest⟩ := Outcome.bind_eq_ok_iff.mp h
    rw [ih hrest, length_results_of_step hstep, List.length_cons]
    omega

/-- A run that fails names an event that it had not handled yet. -/
theorem index_of_run_eq_error {start : Replay} {events : List Event} {cause : Error}
    (h : start.run events = .error cause) : ∃ index name line column inner,
      start.results.length ≤ index ∧ cause = .event index name line column inner := by
  induction events generalizing start with
  | nil => cases h
  | cons event events ih =>
    rcases Outcome.bind_eq_error_iff.mp h with hstep | ⟨next, hstep, hrest⟩
    · obtain ⟨inner, -, rfl⟩ := (step_eq_error_iff _ _ _).mp hstep
      exact ⟨_, _, _, _, inner, Nat.le_refl _, rfl⟩
    · obtain ⟨index, name, line, column, inner, hle, rfl⟩ := ih hrest
      have hlength := length_results_of_step hstep
      exact ⟨index, name, line, column, inner, by omega, rfl⟩

end Replay

/-! ## Whole streams -/

theorem replay_eq (events : List Event) : replay events =
    (Replay.run {} events >>= fun replayed =>
      (finish replayed.root replayed.context).mapError .shape) := rfl

theorem replay_of_run {events : List Event} {replayed : Replay}
    (h : Replay.run {} events = .ok replayed) :
    replay events = (finish replayed.root replayed.context).mapError .shape := by
  rw [replay_eq, h]
  rfl

/-- Where the events before an event have been handled, the stream fails at it exactly when handling
    it fails. -/
theorem replay_eq_error_event_iff {earlier : List Event} {reached : Replay}
    (h : Replay.run {} earlier = .ok reached) (event : Event) (later : List Event) (cause : Error) :
    replay (earlier ++ event :: later) = .error (.event earlier.length event.name
        event.position.line event.position.column cause) ↔
      reached.handleEvent event = .error cause := by
  have hlength : reached.results.length = earlier.length := by
    rw [Replay.length_results_of_run h]
    exact Nat.zero_add _
  rw [replay_eq, Replay.run_append_of_run h, Replay.run_cons]
  constructor
  · intro hfail
    rcases Outcome.bind_eq_error_iff.mp hfail with hrun | ⟨last, -, hfinish⟩
    · rcases Outcome.bind_eq_error_iff.mp hrun with hstep | ⟨next, hstep, hlater⟩
      · obtain ⟨inner, hinner, hcause⟩ := (Replay.step_eq_error_iff _ _ _).mp hstep
        rw [Replay.failure, hlength] at hcause
        cases hcause
        exact hinner
      · -- a later event would be named
        obtain ⟨index, _, _, _, _, hle, hcause⟩ := Replay.index_of_run_eq_error hlater
        have hnext := Replay.length_results_of_step hstep
        cases hcause
        omega
    · obtain ⟨_, -, hcause⟩ := Outcome.mapError_eq_error_iff.mp hfinish
      cases hcause
  · intro hevent
    have hstep := (Replay.step_eq_error_iff _ _ _).mpr ⟨cause, hevent, rfl⟩
    rw [hstep, Replay.failure, hlength]
    rfl

end RubyTree
