import Mathlib.Data.List.Forall2
import RubyTree.Proofs.Replay.Run
import RubyTree.Proofs.TwoRuns.Rules

/-!
# Two replays side by side

Two streams are replayed in step. Their contexts need not match between two events, because the next
event overwrites the position and the token; they have to match once it is entered. A step that goes
well keeps the replays in parallel, and runs follow by induction.

Results:

* `Replay.agree_handleEvent`: one event, handled by both replays.
* `Replay.agree_run`: runs agree when their steps do.
* `agree_replay`: what the runs have in common is read off the finished trees.
-/

namespace RubyTree

open Outcome (Agree)

/-- Whichever event comes next, the contexts match when it is entered. -/
def Context.MatchesNext (move : Position → Position)
    (noted : List Diagnostic → List Diagnostic → Prop) (c d : Context) : Prop :=
  ∀ position token, Matches move noted (c.enter position token) (d.enter (move position) token)

namespace Context

variable {move : Position → Position} {noted : List Diagnostic → List Diagnostic → Prop}
  {c d : Context}

theorem Matches.next (h : Matches move noted c d) : MatchesNext move noted c d :=
  fun position token => h.enter position token

theorem matchesNext_initial (h : noted [] []) : MatchesNext move noted .initial .initial :=
  fun _ _ => ⟨rfl, rfl, rfl, rfl, rfl, rfl, rfl, rfl, rfl, h⟩

/-- It does not matter where the contexts stand before the next event. -/
theorem MatchesNext.enter_left (h : MatchesNext move noted c d) (position : Position)
    (token : Option String) : MatchesNext move noted (c.enter position token) d := h

theorem MatchesNext.enter_right (h : MatchesNext move noted c d) (position : Position)
    (token : Option String) : MatchesNext move noted c (d.enter position token) := h

theorem MatchesNext.diagnostics (h : MatchesNext move noted c d) :
    noted c.diagnostics d.diagnostics := (h ⟨0, 0⟩ none).diagnostics

end Context

open Context

variable {move : Position → Position} {noted : List Diagnostic → List Diagnostic → Prop}

theorem exec_handle (event : String) (arguments : List Value) (position : Position)
    (token : Option String) (context : Context) :
    (handle event arguments position token).exec context =
      (dispatch event arguments).exec (context.enter position token) := by
  rw [handle, Build.exec_bind, Build.exec_note]

/-- An event at a moved position does the same in both contexts. -/
theorem alike_handle (hmove : Position.KeepsLeft move) (hnoted : KeepsNoted move noted)
    (event : String) (arguments : List Value) (position : Position) (token : Option String) :
    Build.Alike (MatchesNext move noted) (handle event arguments position token)
      (handle event arguments (move position) token) := by
  intro c d h
  rw [exec_handle, exec_handle]
  obtain ⟨hvalue, hmatches⟩ :=
    alike_dispatch hmove hnoted event arguments _ _ (h position token)
  exact ⟨hvalue, hmatches.next⟩

namespace Replay

/-- The contexts match when the next event is entered, and the results are related by `T`. -/
structure Parallel (move : Position → Position) (noted : List Diagnostic → List Diagnostic → Prop)
    (T : Results → Results → Prop) (left right : Replay) : Prop where
  context : MatchesNext move noted left.context right.context
  results : T left.results right.results

variable {T : Results → Results → Prop} {E : Error → Error → Prop} {left right : Replay}

/-- Both replays handle an event: their arguments resolve alike, and what is done with them comes to
    the same. -/
theorem agree_handleEvent {event other : Event}
    {P : List Value × Results → List Value × Results → Prop}
    (hshape : ∀ cause, E (.shape cause) (.shape cause))
    (hargs : Agree (fun cause cause' => E (.stream cause) (.stream cause')) P
      (left.results.resolveAll event.args) (right.results.resolveAll other.args))
    (hhandle : ∀ arguments rest arguments' rest', P (arguments, rest) (arguments', rest') →
      Build.Alike (MatchesNext move noted)
        (handle event.name arguments event.position event.token)
        (handle other.name arguments' other.position other.token) ∧
      ∀ value, T (rest ++ [some value]) (rest' ++ [some value]))
    (h : MatchesNext move noted left.context right.context) :
    Agree E (Parallel move noted T) (left.handleEvent event) (right.handleEvent other) := by
  rw [handleEvent_eq, handleEvent_eq]
  generalize left.results.resolveAll event.args = found at hargs
  generalize right.results.resolveAll other.args = found' at hargs
  cases hargs with
  | error hcause => exact .error hcause
  | @ok resolved resolved' hP =>
    obtain ⟨halike, hresults⟩ := hhandle _ _ _ _ hP
    obtain ⟨hvalue, hcontext⟩ := halike _ _ h
    simp only
    generalize (handle event.name resolved.1 event.position event.token).exec left.context =
      handled at hvalue hcontext
    generalize (handle other.name resolved'.1 other.position other.token).exec right.context =
      handled' at hvalue hcontext
    obtain ⟨outcome, changed⟩ := handled
    obtain ⟨outcome', changed'⟩ := handled'
    cases hvalue
    cases outcome with
    | error cause => exact .error (hshape cause)
    | ok value => exact .ok ⟨hcontext, hresults value⟩

/-- Runs of paired events, when their steps agree. `S n` relates the replays after `n` events. -/
theorem agree_run {S : Nat → Replay → Replay → Prop} {Pair : Event → Event → Prop} {n : Nat}
    {events others : List Event} (hpairs : List.Forall₂ Pair events others)
    (hstep : ∀ {m left right event other}, n ≤ m → m < n + events.length → S m left right →
      Pair event other → Agree E (S (m + 1)) (left.step event) (right.step other))
    (h : S n left right) :
    Agree E (S (n + events.length)) (left.run events) (right.run others) := by
  induction hpairs generalizing n left right with
  | nil => exact .ok h
  | @cons event other events others hpair _ ih =>
    have hlength : n + (event :: events).length = n + 1 + events.length := by
      rw [List.length_cons]
      omega
    rw [hlength] at hstep ⊢
    refine (hstep (Nat.le_refl n) (by omega) h hpair).bind fun next next' hnext => ?_
    refine ih (fun hm => ?_) hnext
    exact hstep (by omega)

end Replay

theorem Normalized.eq_mk {normalized : Normalized} {tree : Option Node}
    {diagnostics : List Diagnostic} (htree : normalized.tree = tree)
    (hdiagnostics : normalized.diagnostics = diagnostics) : normalized = ⟨tree, diagnostics⟩ := by
  rw [← htree, ← hdiagnostics]

/-- Finished trees of runs that agree, with the same result at the root. -/
theorem agree_replay {E : Error → Error → Prop} {S : Replay → Replay → Prop}
    {events others : List Event} (hshape : ∀ cause, E (.shape cause) (.shape cause))
    (hrun : Agree E S (Replay.run {} events) (Replay.run {} others))
    (hS : ∀ {left right}, S left right →
      right.root = left.root ∧ noted left.context.diagnostics right.context.diagnostics) :
    Agree E (fun normalized normalized' => normalized'.tree = normalized.tree ∧
      noted normalized.diagnostics normalized'.diagnostics) (replay events) (replay others) := by
  rw [replay_eq, replay_eq]
  refine hrun.bind fun left right h => ?_
  obtain ⟨hroot, hnoted⟩ := hS h
  rw [hroot, finish, finish]
  cases left.root.asNode? "root" with
  | error cause => exact .error (hshape cause)
  | ok tree => exact .ok ⟨rfl, hnoted⟩

end RubyTree
