import RubyTree.Proofs.TwoRuns.Run

/-!
# Positions matter through adjacency only

A source text may begin further down and further to the right. Then all lines and all columns grow
by the same amounts, and nothing changes in what stands right before what: column zero has nothing
before it, and after the shift no event stands before the first column that is used.

Results:

* `Position.keepsLeft_shift`: a shift keeps what stands one column before what.
* `replay_shift`: a shifted stream gives the same tree and shifted diagnostics, or fails at the same
  event for the same cause.
-/

namespace RubyTree

open Outcome (Agree)

/-! ## Shifts -/

/-- The position so many lines further down and so many columns further to the right. -/
def Position.shift (lines columns : Nat) (position : Position) : Position :=
  ⟨position.line + lines, position.column + columns⟩

/-- The event as it would be recorded further down and further to the right. -/
def Event.shift (lines columns : Nat) (event : Event) : Event :=
  { event with position := event.position.shift lines columns }

/-- The same message about a line further down. -/
def Diagnostic.shift (lines : Nat) (diagnostic : Diagnostic) : Diagnostic :=
  { diagnostic with line := diagnostic.line + lines }

/-- The same tree, with diagnostics about lines further down. -/
def Normalized.shift (lines : Nat) (normalized : Normalized) : Normalized :=
  { normalized with diagnostics := normalized.diagnostics.map (Diagnostic.shift lines) }

/-- The same error. One that names an event names its shifted position. -/
def Error.shift (lines columns : Nat) : Error → Error
  | .event index name line column cause =>
    .event index name (line + lines) (column + columns) cause
  | cause => cause

theorem Position.keepsLeft_shift (lines columns : Nat) :
    KeepsLeft (Position.shift lines columns) := by
  intro p q
  rw [left?_eq_some_iff, left?_eq_some_iff]
  simp only [shift]
  omega

/-- The diagnostics of the second run are those of the first, shifted. -/
def ShiftedLog (lines : Nat) (earlier later : List Diagnostic) : Prop :=
  later = earlier.map (Diagnostic.shift lines)

theorem keepsNoted_shift (lines columns : Nat) :
    Context.KeepsNoted (Position.shift lines columns) (ShiftedLog lines) := by
  intro earlier earlier' position message h
  rw [ShiftedLog, h, List.map_append]
  rfl

/-! ## Replays -/

namespace Replay

variable {lines columns : Nat} {left right : Replay}

/-- The results are the same, and the contexts match when the next event is entered. -/
abbrev Shifted (lines columns : Nat) : Replay → Replay → Prop :=
  Parallel (Position.shift lines columns) (ShiftedLog lines) fun results results' =>
    results' = results

theorem agree_handleEvent_shift (h : Shifted lines columns left right) (event : Event) :
    Agree (fun cause cause' => cause' = cause) (Shifted lines columns) (left.handleEvent event)
      (right.handleEvent (event.shift lines columns)) := by
  have hargs : Agree (fun cause cause' => Error.stream cause' = .stream cause)
      (fun found found' => found' = found) (left.results.resolveAll event.args)
      (right.results.resolveAll event.args) := by
    rw [h.results]
    refine Agree.refl ?_ ?_ _
    · exact fun _ => rfl
    · exact fun _ => rfl
  refine agree_handleEvent (fun _ => rfl) hargs ?_ h.context
  rintro arguments rest _ _ ⟨⟩
  exact ⟨alike_handle (Position.keepsLeft_shift lines columns) (keepsNoted_shift lines columns)
    event.name arguments event.position event.token, fun _ => rfl⟩

theorem agree_step_shift (h : Shifted lines columns left right) (event : Event) :
    Agree (fun cause cause' => cause' = cause.shift lines columns) (Shifted lines columns)
      (left.step event) (right.step (event.shift lines columns)) := by
  refine (agree_handleEvent_shift h event).mapError ?_
  rintro cause _ rfl
  rw [h.results]
  rfl

theorem agree_run_shift (h : Shifted lines columns left right) (events : List Event) :
    Agree (fun cause cause' => cause' = cause.shift lines columns) (Shifted lines columns)
      (left.run events) (right.run (events.map (Event.shift lines columns))) := by
  have hpairs : List.Forall₂ (fun event other => other = event.shift lines columns) events
      (events.map (Event.shift lines columns)) :=
    List.forall₂_map_right_iff.mpr (List.forall₂_same.mpr fun _ _ => rfl)
  refine agree_run (S := fun _ => Shifted lines columns) (n := 0) hpairs ?_ h
  rintro _ left right event _ - - h rfl
  exact agree_step_shift h event

end Replay

/-- A stream whose positions are all shifted by the same amounts gives the same tree and the same
    diagnostics on shifted lines. Or it fails as the stream itself does: at the event with the same
    index, for the same cause. -/
theorem replay_shift (lines columns : Nat) (events : List Event) :
    replay (events.map (Event.shift lines columns)) =
      match replay events with
      | .ok normalized => .ok (normalized.shift lines)
      | .error cause => .error (cause.shift lines columns) := by
  have hstart : Replay.Shifted lines columns {} {} := ⟨Context.matchesNext_initial rfl, rfl⟩
  have hrun := Replay.agree_run_shift hstart events
  have hreplay := agree_replay (E := fun cause cause' => cause' = cause.shift lines columns)
    (fun _ => rfl) hrun fun h =>
      ⟨by rw [Replay.root, Replay.root, h.results], h.context.diagnostics⟩
  generalize replay events = found at hreplay
  generalize replay (events.map (Event.shift lines columns)) = found' at hreplay
  cases hreplay with
  | error hcause => rw [hcause]
  | ok h =>
    obtain ⟨htree, hdiagnostics⟩ := h
    rw [Normalized.eq_mk htree hdiagnostics]
    rfl

end RubyTree
