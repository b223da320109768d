import RubyTree.Proofs.Memory.History
import RubyTree.Proofs.TwoRuns.Run

/-!
# Diagnostics beside the tree

Where the parser recovered from an error, an event notes its message and hands the node on. Without
the message it would be an event that is no production: that hands its first argument on as well. No
rule reads the notes, so two replays that differ in them build the same tree.

What is noted can be read off the events: each event that reports notes one message, in the order of
the stream, and no other event notes any.

Results:

* `diagnostics_of_handle`: what an event that is handled adds to the diagnostics.
* `diagnostics_of_session`: what a whole run notes.
* `replay_silenced`: the tree without the messages, and the messages of a stream.
-/

namespace RubyTree

open Outcome (Agree Whatever)
open Build Context

/-! ## What is noted -/

namespace Firing

/-- What the event notes: its line, with what its first argument spells. -/
def diagnostic? (firing : Firing) : Option Diagnostic :=
  if (Production.ofName? firing.event).any Production.reports then
    some ⟨firing.position.line, firing.text⟩
  else none

theorem diagnostic?_of_ofName?_eq_none {firing : Firing}
    (h : Production.ofName? firing.event = none) : firing.diagnostic? = none := by
  rw [diagnostic?, h]
  rfl

theorem diagnostic?_of_is {firing : Firing} {production : Production} (h : firing.Is production) :
    firing.diagnostic? =
      if production.reports then some ⟨firing.position.line, firing.text⟩ else none := by
  rw [diagnostic?, is_iff.mp h]
  rfl

end Firing

/-- A rule that notes nothing leaves the diagnostics as they are. -/
theorem diagnostics_exec_apply_ruleOf {production : Production} (h : production.reports = false)
    (name : String) (arguments : List Value) (context : Context) :
    (((ruleOf production).apply name arguments).exec context).2.diagnostics =
      context.diagnostics := by
  -- the context beside itself, with its log as the only log
  have halike : (ruleOf production).Alike (Matches id fun log _ => log = context.diagnostics) :=
    alike_ruleOf Position.keepsLeft_id h
  obtain ⟨-, hmatches⟩ := halike.apply name arguments context context (.self rfl)
  exact hmatches.diagnostics

/-- A rule that reports notes what its first argument spells. -/
theorem diagnostics_of_exec_apply_reports {production : Production}
    (hreports : production.reports = true) {arguments : List Value} {context changed : Context}
    {value : Value} (h : ((ruleOf production).apply production.name arguments).exec context =
      (.ok value, changed)) :
    changed.diagnostics =
      context.diagnostics ++ [⟨context.position.line, (firstArgument arguments).spelling⟩] := by
  have hlength := Rule.length_of_exec_apply h
  cases production with
  | parseError =>
    obtain ⟨message, rfl⟩ := List.length_eq_one_iff.mp hlength
    cases h
    rfl
  | aliasError | assignError | classNameError | paramError =>
    obtain ⟨message, node, rfl⟩ := List.length_eq_two.mp hlength
    cases h
    rfl
  | _ => cases hreports

/-- What an event that is handled adds to the diagnostics. -/
theorem diagnostics_of_handle {firing : Firing} {context changed : Context} {value : Value}
    (h : firing.handle.exec context = (.ok value, changed)) :
    changed.diagnostics = context.diagnostics ++ firing.diagnostic?.toList := by
  cases hname : Production.ofName? firing.event with
  | none =>
    rw [Firing.handle, exec_handle_of_ofName?_eq_none hname] at h
    rw [Firing.diagnostic?_of_ofName?_eq_none hname]
    cases h
    exact (List.append_nil _).symm
  | some production =>
    have hevent := Production.ofName?_eq_some_iff.mp hname
    rw [Firing.handle, hevent, exec_handle_name] at h
    rw [Firing.diagnostic?_of_is hevent]
    cases hreports : production.reports with
    | true => exact diagnostics_of_exec_apply_reports hreports h
    | false =>
      have hkept := diagnostics_exec_apply_ruleOf hreports production.name firing.arguments
        (context.enter firing.position firing.token)
      rw [h] at hkept
      exact hkept.trans (List.append_nil _).symm

/-- What a run of events adds to the diagnostics. -/
theorem diagnostics_of_session {history : List Firing} {start last : Context}
    (h : (session history).exec start = (.ok (), last)) :
    last.diagnostics = start.diagnostics ++ history.filterMap Firing.diagnostic? := by
  induction history generalizing start with
  | nil =>
    cases h
    exact (List.append_nil _).symm
  | cons firing history ih =>
    rw [session, exec_bind] at h
    cases hhandle : firing.handle.exec start with
    | mk outcome changed =>
      rw [hhandle] at h
      cases outcome with
      | error cause => cases h
      | ok value =>
        rw [ih h, diagnostics_of_handle hhandle, List.append_assoc]
        cases hdiagnostic : firing.diagnostic? with
        | none => rw [List.filterMap_cons_none hdiagnostic, Option.toList_none, List.nil_append]
        | some diagnostic =>
          rw [List.filterMap_cons_some hdiagnostic, Option.toList_some, List.singleton_append]

/-- The diagnostics of a stream are those of its events. -/
theorem diagnostics_of_replay {events : List Event} {normalized : Normalized}
    (h : replay events = .ok normalized) :
    List.Forall₂ Event.FiresAs events (Replay.firings {} events) ∧
      normalized.diagnostics = (Replay.firings {} events).filterMap Firing.diagnostic? := by
  rw [replay_eq] at h
  obtain ⟨last, hrun, hfinish⟩ := Outcome.bind_eq_ok_iff.mp h
  obtain ⟨hpairs, hsession⟩ := Replay.session_firings_of_run hrun
  obtain ⟨root, -, htree⟩ := Outcome.bind_eq_ok_iff.mp (Outcome.mapError_eq_ok_iff.mp hfinish)
  cases htree
  exact ⟨hpairs, diagnostics_of_session hsession⟩

/-! ## Replays that note different things -/

/-- The second event is the first one, or it is no production and hands on the node that the first
    one keeps, without the message. Where and at which token it fires does not matter. -/
inductive Event.Silenced : Event → Event → Prop where
  | kept (event : Event) : Silenced event event
  | dropped {event other : Event} {production : Production} {message node : Arg}
      (hproduction : production.recovers = true) (hname : event.name = production.name)
      (hargs : event.args = [message, node]) (hmessage : message.references = [])
      (hother : Production.ofName? other.name = none) (hnode : other.args = [node]) :
      Silenced event other

theorem ruleOf_of_recovers {production : Production} (h : production.recovers = true) :
    ruleOf production = .two Rules.recovered := by
  cases production with
  | aliasError | assignError | classNameError | paramError => rfl
  | _ => cases h

/-- It does not matter whether the messages are still there. -/
theorem Context.matchesNext_forgetDiagnostics_iff {c d : Context} :
    MatchesNext id Whatever c.forgetDiagnostics d ↔ MatchesNext id Whatever c d := by
  constructor
  · exact fun h position token => { h position token with diagnostics := trivial }
  · exact fun h position token => { h position token with diagnostics := trivial }

/-- Nor does it matter whether one more is noted, since it is taken out with the others. -/
theorem Context.MatchesNext.report_left {c d : Context} (h : MatchesNext id Whatever c d)
    (message : String) : MatchesNext id Whatever (c.report message) d := by
  have htaken : (c.report message).forgetDiagnostics = c.forgetDiagnostics := rfl
  rw [← matchesNext_forgetDiagnostics_iff, htaken]
  exact matchesNext_forgetDiagnostics_iff.mpr h

/-- Two values are found on one side, and the second of them alone on the other. The same results
    are left. -/
def Results.SecondOnly (found found' : List Value × Results) : Prop :=
  found'.2 = found.2 ∧ ∃ message node, found.1 = [message, node] ∧ found'.1 = [node]

/-- A message in front of a node is resolved without effect on the results. -/
theorem Results.agree_resolveAll_silenced (results : Results) {message : Arg} (node : Arg)
    (h : message.references = []) :
    Agree Whatever SecondOnly (results.resolveAll [message, node]) (results.resolveAll [node]) := by
  obtain ⟨text, htext⟩ := resolve_of_references_eq_nil results message h
  rw [resolveAll_cons results message, htext]
  simp only [bind, Except.bind, resolveAll_cons, resolveAll_nil, Except.map]
  cases results.resolve node with
  | error cause => exact .error trivial
  | ok found => exact .ok ⟨rfl, text, found.1, rfl, rfl⟩

/-- An event that recovers hands its node on, like an event that is no production. -/
theorem alike_handle_silenced {production : Production} (h : production.recovers = true)
    {other : String} (hother : Production.ofName? other = none) (message node : Value)
    (position position' : Position) (token token' : Option String) :
    Alike (MatchesNext id Whatever) (handle production.name [message, node] position token)
      (handle other [node] position' token') := by
  intro c d hmatches
  rw [exec_handle_name, ruleOf_of_recovers h, exec_handle_of_ofName?_eq_none hother]
  have hentered := (hmatches.enter_left position token).enter_right position' token'
  exact ⟨rfl, hentered.report_left message.spelling⟩

namespace Replay

variable {left right : Replay}

/-- The replays have the same results. They differ at most in what they have noted and in where they
    stand. -/
abbrev Unnoted : Replay → Replay → Prop :=
  Parallel id Whatever fun results results' => results' = results

theorem agree_handleEvent_silenced (h : Unnoted left right) {event other : Event}
    (hsilenced : event.Silenced other) :
    Agree Whatever Unnoted (left.handleEvent event) (right.handleEvent other) := by
  cases hsilenced with
  | kept =>
    have hargs : Agree Whatever Eq (left.results.resolveAll event.args)
        (right.results.resolveAll event.args) := by
      rw [h.results]
      exact Agree.refl (fun _ => trivial) (fun _ => rfl) _
    refine agree_handleEvent (fun _ => trivial) hargs ?_ h.context
    rintro arguments rest _ _ ⟨⟩
    exact ⟨alike_handle Position.keepsLeft_id (fun _ _ _ _ _ => trivial) event.name arguments
      event.position event.token, fun _ => rfl⟩
  | @dropped _ production message node hproduction hname hargs hmessage hother hnode =>
    have hresolved : Agree Whatever Results.SecondOnly (left.results.resolveAll event.args)
        (right.results.resolveAll other.args) := by
      rw [h.results, hargs, hnode]
      exact Results.agree_resolveAll_silenced left.results node hmessage
    refine agree_handleEvent (fun _ => trivial) hresolved ?_ h.context
    rintro _ rest _ _ ⟨⟨⟩, text, value, rfl, rfl⟩
    rw [hname]
    exact ⟨alike_handle_silenced hproduction hother text value _ _ _ _, fun _ => rfl⟩

theorem agree_run_silenced (h : Unnoted left right) {events others : List Event}
    (hsilenced : List.Forall₂ Event.Silenced events others) :
    Agree Whatever Unnoted (left.run events) (right.run others) := by
  refine agree_run (S := fun _ => Unnoted) (n := 0) hsilenced ?_ h
  intro _ left right event other _ _ h hevent
  exact (agree_handleEvent_silenced h hevent).mapError fun _ _ _ => trivial

end Replay

/-- Where events that recover from errors are replaced by events that are no productions and hand on
    the same nodes, the stream still fails or gives the same tree. And what a stream notes is what
    its reporting events say: each of them one message, about its own line, in their order. -/
theorem replay_silenced (events : List Event) :
    (∀ others, List.Forall₂ Event.Silenced events others →
      (replay others).toOption.map (·.tree) = (replay events).toOption.map (·.tree)) ∧
    ∀ normalized, replay events = .ok normalized →
      List.Forall₂ Event.FiresAs events (Replay.firings {} events) ∧
        normalized.diagnostics = (Replay.firings {} events).filterMap Firing.diagnostic? := by
  refine ⟨fun others hsilenced => ?_, fun normalized h => diagnostics_of_replay h⟩
  have hstart : Replay.Unnoted {} {} := ⟨matchesNext_initial trivial, rfl⟩
  have hrun := Replay.agree_run_silenced hstart hsilenced
  have hreplay := agree_replay (fun _ => trivial) hrun fun h =>
    ⟨by rw [Replay.root, Replay.root, h.results], h.context.diagnostics⟩
  exact (hreplay.toOption_map fun _ _ h => h.1.symm).symm

/-- An assignment to a variable that cannot be assigned, in a program of two lines. -/
def recoveredAssignment : List Event := [
  { name := "backref", args := [.text "$1"], position := ⟨2, 0⟩ },
  { name := "var_field", args := [.ref 0], position := ⟨2, 2⟩ },
  { name := "int", args := [.text "1"], position := ⟨2, 5⟩ },
  { name := "assign", args := [.ref 1, .ref 2], position := ⟨2, 6⟩ },
  { name := "assign_error", args := [.text "Can't set variable $1", .ref 3], position := ⟨2, 6⟩ },
  { name := "program", args := [.list [.ref 4]], position := ⟨3, 0⟩ }]

/-- The same program, with nothing said about the assignment. -/
def silentAssignment : List Event := [
  { name := "backref", args := [.text "$1"], position := ⟨2, 0⟩ },
  { name := "var_field", args := [.ref 0], position := ⟨2, 2⟩ },
  { name := "int", args := [.text "1"], position := ⟨2, 5⟩ },
  { name := "assign", args := [.ref 1, .ref 2], position := ⟨2, 6⟩ },
  { name := "assign_ok", args := [.ref 3] },
  { name := "program", args := [.list [.ref 4]], position := ⟨3, 0⟩ }]

theorem silenced_recoveredAssignment :
    List.Forall₂ Event.Silenced recoveredAssignment silentAssignment :=
  have hother : Production.ofName? "assign_ok" = none := by decide +kernel
  .cons (.kept _) (.cons (.kept _) (.cons (.kept _) (.cons (.kept _)
    (.cons (@Event.Silenced.dropped _ _ .assignError _ _ rfl rfl rfl rfl hother rfl)
      (.cons (.kept _) .nil)))))

/-- The assignment is in both trees, and the message about line 2 is the only one. -/
theorem replay_silenced_assignment :
    List.Forall₂ Event.Silenced recoveredAssignment silentAssignment ∧
      (replay silentAssignment).toOption.map (·.tree) =
        (replay recoveredAssignment).toOption.map (·.tree) ∧
      ∃ normalized, replay recoveredAssignment = .ok normalized ∧
        normalized.diagnostics = [⟨2, "Can't set variable $1"⟩] := by
  obtain ⟨htree, hdiagnostics⟩ := replay_silenced recoveredAssignment
  refine ⟨silenced_recoveredAssignment, htree _ silenced_recoveredAssignment, ?_⟩
  have hok : (replay recoveredAssignment).isOk = true := by decide +kernel
  have hnoted : (Replay.firings {} recoveredAssignment).filterMap Firing.diagnostic? =
      [⟨2, "Can't set variable $1"⟩] := by decide +kernel
  cases hreplay : replay recoveredAssignment with
  | error cause =>
    rw [hreplay] at hok
    cases hok
  | ok normalized => exact ⟨normalized, rfl, (hdiagnostics normalized hreplay).2.trans hnoted⟩

end RubyTree
