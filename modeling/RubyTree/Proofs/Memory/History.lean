import Mathlib.Data.List.Forall2
import Mathlib.Data.List.Induction
import RubyTree.Proofs.Memory.Effect
import RubyTree.Proofs.Replay.Run

/-!
# The memory as a record of the events

After a run of events the memory is a function of the events alone: each part of it says which of
the events that touch it came last, and what that event was.

Specification: `Recalls`. It mentions the history only, through `StillSet` (some event set it, and
no later event cleared it) and `LastOf` (the last event of a kind, and the events after it).

Results:

* `Recalls.concat`: one more event that is handled.
* `recalls_of_session`: after a whole run.
* `Replay.session_firings_of_run`: a replay is such a run.
-/

namespace RubyTree

open Build

/-- Handles events one after the other. -/
def session : List Firing → Build Unit
  | [] => pure ()
  | firing :: firings => do
    let _ ← firing.handle
    session firings

/-! ## Specification -/

namespace Firing

/-- An operator that is spelled like this. -/
def IsOperator (text : String) (firing : Firing) : Prop := firing.Is .operator ∧ firing.text = text

/-- A keyword that is spelled like this. -/
def IsKeyword (text : String) (firing : Firing) : Prop := firing.Is .keyword ∧ firing.text = text

/-- One of the operators that may take a parenthesis for their operand. -/
def IsCallLike (firing : Firing) : Prop :=
  firing.Is .unary ∧ (firing.text = "not" ∨ firing.text = "defined?") ∨ firing.Is .defined

/-- The event fired one column behind a position. -/
def IsRightOf (position : Position) (firing : Firing) : Prop :=
  firing.position.line = position.line ∧ firing.position.column = position.column + 1

end Firing

/-- Some event set it, and no later event cleared it. -/
def StillSet (sets clears : Firing → Prop) (history : List Firing) : Prop :=
  ∃ before firing later, history = before ++ firing :: later ∧ sets firing ∧
    ∀ other ∈ later, ¬ clears other

/-- The last event of a kind, and the events after it. -/
def LastOf (kind : Firing → Prop) (history : List Firing) (firing : Firing)
    (later : List Firing) : Prop :=
  ∃ before, history = before ++ firing :: later ∧ kind firing ∧ ∀ other ∈ later, ¬ kind other

/-- The last closing parenthesis. It is claimed if one of the operators fired right of it since. -/
def IsLastParen (history : List Firing) (paren : ClosedParen) : Prop :=
  ∃ firing later, LastOf (·.Is .rparen) history firing later ∧ paren.position = firing.position ∧
    (paren.claimed = true ↔ ∃ other ∈ later, other.IsCallLike ∧ other.IsRightOf firing.position)

/-- Where the last semicolon stands. -/
def IsLastSemicolon (history : List Firing) (position : Position) : Prop :=
  ∃ firing later, LastOf (·.Is .semicolon) history firing later ∧ position = firing.position

/-- What a memory says of the events that led to it. -/
structure Recalls (history : List Firing) (memory : Memory) : Prop where
  doubleStar : memory.doubleStar = true ↔
    StillSet (·.IsOperator "**") (fun other => other.Is .operator ∨ other.Is .hashPattern) history
  oneLine : memory.oneLine.kind = .matchPattern ↔
    StillSet (·.IsOperator "=>") (·.IsKeyword "in") history
  lambdaBody : memory.lambdaBody = .doEnd ↔
    StillSet (·.Is .bodyStatement) (·.Is .stmtsAdd) history
  lastParen : ∀ paren, memory.lastParen = some paren ↔ IsLastParen history paren
  lastSemicolon : ∀ position,
    memory.lastSemicolon = some position ↔ IsLastSemicolon history position
  ended : memory.ended = true ↔ ∃ firing ∈ history, firing.Is .endMarker

/-! ## Histories that grow at the end -/

theorem concat_eq_append_cons_iff {α : Type} {history before later : List α} {last x : α} :
    history ++ [last] = before ++ x :: later ↔
      (history = before ∧ last = x ∧ later = []) ∨
        ∃ rest, later = rest ++ [last] ∧ history = before ++ x :: rest := by
  constructor
  · intro h
    rcases List.eq_nil_or_concat' later with rfl | ⟨rest, other, rfl⟩
    · obtain ⟨hbefore, hlast⟩ := List.append_inj' h rfl
      exact .inl ⟨hbefore, List.cons.inj hlast |>.1, rfl⟩
    · rw [← List.cons_append, ← List.append_assoc] at h
      obtain ⟨hbefore, hlast⟩ := List.append_inj' h rfl
      exact .inr ⟨rest, by rw [hlast], hbefore⟩
  · rintro (⟨rfl, rfl, rfl⟩ | ⟨rest, rfl, rfl⟩)
    · rfl
    · rw [List.append_assoc, List.cons_append]

theorem exists_mem_concat {α : Type} {P : α → Prop} {history : List α} {last : α} :
    (∃ x ∈ history ++ [last], P x) ↔ (∃ x ∈ history, P x) ∨ P last := by
  simp only [List.mem_append, List.mem_singleton, or_and_right, exists_or, exists_eq_left]

theorem stillSet_nil (sets clears : Firing → Prop) : ¬ StillSet sets clears [] := by
  rintro ⟨before, firing, later, hhistory, -⟩
  simp at hhistory

theorem stillSet_concat (sets clears : Firing → Prop) (history : List Firing) (last : Firing) :
    StillSet sets clears (history ++ [last]) ↔
      sets last ∨ (¬ clears last ∧ StillSet sets clears history) := by
  constructor
  · rintro ⟨before, firing, later, hhistory, hsets, hclears⟩
    rcases concat_eq_append_cons_iff.mp hhistory with ⟨-, rfl, -⟩ | ⟨rest, rfl, hrest⟩
    · exact .inl hsets
    · refine .inr ⟨hclears last (by simp), before, firing, rest, hrest, hsets, ?_⟩
      intro other hother
      exact hclears other (List.mem_append_left _ hother)
  · rintro (hsets | ⟨hlast, before, firing, later, rfl, hsets, hclears⟩)
    · exact ⟨history, last, [], rfl, hsets, by simp⟩
    · refine ⟨before, firing, later ++ [last], by simp, hsets, ?_⟩
      intro other hother
      rcases List.mem_append.mp hother with hother | hother
      · exact hclears other hother
      · rw [List.mem_singleton.mp hother]
        exact hlast

theorem lastOf_nil (kind : Firing → Prop) (firing : Firing) (later : List Firing) :
    ¬ LastOf kind [] firing later := by
  rintro ⟨before, hhistory, -⟩
  simp at hhistory

theorem lastOf_concat (kind : Firing → Prop) (history : List Firing) (last firing : Firing)
    (later : List Firing) :
    LastOf kind (history ++ [last]) firing later ↔
      (kind last ∧ firing = last ∧ later = []) ∨
        (¬ kind last ∧ ∃ rest, later = rest ++ [last] ∧ LastOf kind history firing rest) := by
  constructor
  · rintro ⟨before, hhistory, hkind, hlater⟩
    rcases concat_eq_append_cons_iff.mp hhistory with ⟨-, rfl, rfl⟩ | ⟨rest, rfl, hrest⟩
    · exact .inl ⟨hkind, rfl, rfl⟩
    · refine .inr ⟨hlater last (by simp), rest, rfl, before, hrest, hkind, ?_⟩
      intro other hother
      exact hlater other (List.mem_append_left _ hother)
  · rintro (⟨hkind, rfl, rfl⟩ | ⟨hlast, rest, rfl, before, rfl, hkind, hlater⟩)
    · exact ⟨history, rfl, hkind, by simp⟩
    · refine ⟨before, by simp, hkind, ?_⟩
      intro other hother
      rcases List.mem_append.mp hother with hother | hother
      · exact hlater other hother
      · rw [List.mem_singleton.mp hother]
        exact hlast

theorem isLastSemicolon_nil (position : Position) : ¬ IsLastSemicolon [] position := by
  rintro ⟨firing, later, hlast, -⟩
  exact lastOf_nil _ _ _ hlast

theorem isLastSemicolon_concat (history : List Firing) (last : Firing) (position : Position) :
    IsLastSemicolon (history ++ [last]) position ↔
      (last.Is .semicolon ∧ position = last.position) ∨
        (¬ last.Is .semicolon ∧ IsLastSemicolon history position) := by
  constructor
  · rintro ⟨firing, later, hlast, hposition⟩
    rcases (lastOf_concat _ _ _ _ _).mp hlast with ⟨his, rfl, -⟩ | ⟨hnot, rest, -, hrest⟩
    · exact .inl ⟨his, hposition⟩
    · exact .inr ⟨hnot, firing, rest, hrest, hposition⟩
  · rintro (⟨his, hposition⟩ | ⟨hnot, firing, later, hlast, hposition⟩)
    · exact ⟨last, [], (lastOf_concat _ _ _ _ _).mpr (.inl ⟨his, rfl, rfl⟩), hposition⟩
    · exact ⟨firing, later ++ [last],
        (lastOf_concat _ _ _ _ _).mpr (.inr ⟨hnot, later, rfl, hlast⟩), hposition⟩

theorem isLastParen_nil (paren : ClosedParen) : ¬ IsLastParen [] paren := by
  rintro ⟨firing, later, hlast, -⟩
  exact lastOf_nil _ _ _ hlast

theorem isLastParen_concat (history : List Firing) (last : Firing) (paren : ClosedParen) :
    IsLastParen (history ++ [last]) paren ↔
      (last.Is .rparen ∧ paren = ⟨last.position, false⟩) ∨
        (¬ last.Is .rparen ∧ ∃ earlier, IsLastParen history earlier ∧
          paren.position = earlier.position ∧ (paren.claimed = true ↔ earlier.claimed = true ∨
            last.IsCallLike ∧ last.IsRightOf earlier.position)) := by
  obtain ⟨place, claimed⟩ := paren
  constructor
  · rintro ⟨firing, later, hlast, hposition, hclaimed⟩
    rcases (lastOf_concat _ _ _ _ _).mp hlast with ⟨his, rfl, rfl⟩ | ⟨hnot, rest, rfl, hrest⟩
    · refine .inl ⟨his, ?_⟩
      rw [ClosedParen.mk.injEq]
      exact ⟨hposition, by simpa using hclaimed⟩
    · -- the claims before the last event, as a flag
      classical
      let earlier : ClosedParen := ⟨firing.position,
        decide (∃ other ∈ rest, other.IsCallLike ∧ other.IsRightOf firing.position)⟩
      refine .inr ⟨hnot, earlier, ⟨firing, rest, hrest, rfl, decide_eq_true_iff⟩, hposition, ?_⟩
      rw [hclaimed, exists_mem_concat, decide_eq_true_iff]
  · rintro (⟨his, hparen⟩ | ⟨hnot, earlier, ⟨firing, later, hlast, hplace, hclaims⟩, hposition,
      hclaimed⟩)
    · cases hparen
      exact ⟨last, [], (lastOf_concat _ _ _ _ _).mpr (.inl ⟨his, rfl, rfl⟩), rfl, by simp⟩
    · refine ⟨firing, later ++ [last],
        (lastOf_concat _ _ _ _ _).mpr (.inr ⟨hnot, later, rfl, hlast⟩),
        hposition.trans hplace, ?_⟩
      rw [hclaimed, hclaims, hplace, exists_mem_concat]

/-! ## What one event does to each part -/

theorem Firing.is_iff {production : Production} {firing : Firing} :
    firing.Is production ↔ Production.ofName? firing.event = some production :=
  Production.ofName?_eq_some_iff.symm

namespace Memory

variable (memory : Memory) (firing : Firing)

theorem doubleStar_update : (memory.update firing).doubleStar = true ↔
    firing.IsOperator "**" ∨
      (¬ (firing.Is .operator ∨ firing.Is .hashPattern) ∧ memory.doubleStar = true) := by
  simp only [Firing.IsOperator, Firing.is_iff, update]
  unfold after
  split <;> simp_all [apply_ite doubleStar]

theorem oneLine_update : (memory.update firing).oneLine = .arrow ↔
    firing.IsOperator "=>" ∨ (¬ firing.IsKeyword "in" ∧ memory.oneLine = .arrow) := by
  simp only [Firing.IsOperator, Firing.IsKeyword, Firing.is_iff, update]
  unfold after
  split
  case h_1 => by_cases htext : firing.text = "=>" <;> simp_all
  case h_3 => by_cases htext : firing.text = "in" <;> simp_all
  all_goals simp_all [apply_ite oneLine]

theorem lambdaBody_update : (memory.update firing).lambdaBody = .doEnd ↔
    firing.Is .bodyStatement ∨ (¬ firing.Is .stmtsAdd ∧ memory.lambdaBody = .doEnd) := by
  simp only [Firing.is_iff, update]
  unfold after
  split <;> simp_all [apply_ite lambdaBody]

theorem lastSemicolon_update (position : Position) :
    (memory.update firing).lastSemicolon = some position ↔
      (firing.Is .semicolon ∧ position = firing.position) ∨
        (¬ firing.Is .semicolon ∧ memory.lastSemicolon = some position) := by
  simp only [Firing.is_iff, update]
  unfold after
  split
  case h_9 => simp_all [@eq_comm _ position]
  all_goals simp_all [apply_ite lastSemicolon]

theorem ended_update : (memory.update firing).ended = true ↔
    firing.Is .endMarker ∨ memory.ended = true := by
  simp only [Firing.is_iff, update]
  unfold after
  split <;> simp_all [apply_ite ended]

/-- A parenthesis after an operand asked for it: the one before, claimed if it was or if it stands
    in the right place. -/
theorem lastParen_claim (position : Position) (paren : ClosedParen) :
    (memory.claim position).lastParen = some paren ↔ ∃ earlier,
      memory.lastParen = some earlier ∧ paren.position = earlier.position ∧
        (paren.claimed = true ↔ earlier.claimed = true ∨
          position.left? = some earlier.position) := by
  obtain ⟨place, claimed⟩ := paren
  simp only [claim, Option.map_eq_some_iff]
  refine exists_congr fun earlier => and_congr_right fun _ => ?_
  obtain ⟨earlierPlace, earlierClaimed⟩ := earlier
  split <;> cases claimed <;> cases earlierClaimed <;> simp_all [eq_comm]

/-- A parenthesis that nothing asked for. -/
theorem exists_lastParen_iff (paren : ClosedParen) :
    (∃ earlier, memory.lastParen = some earlier ∧ paren.position = earlier.position ∧
      paren.claimed = earlier.claimed) ↔ memory.lastParen = some paren := by
  constructor
  · rintro ⟨earlier, h, hposition, hclaimed⟩
    rw [h, Option.some.injEq, ClosedParen.mk.injEq]
    exact ⟨hposition.symm, hclaimed.symm⟩
  · intro h
    exact ⟨paren, h, rfl, rfl⟩

theorem lastParen_update (paren : ClosedParen) :
    (memory.update firing).lastParen = some paren ↔
      (firing.Is .rparen ∧ paren = ⟨firing.position, false⟩) ∨
        (¬ firing.Is .rparen ∧ ∃ earlier, memory.lastParen = some earlier ∧
          paren.position = earlier.position ∧ (paren.claimed = true ↔ earlier.claimed = true ∨
            firing.IsCallLike ∧ firing.IsRightOf earlier.position)) := by
  simp only [Firing.IsCallLike, Firing.IsRightOf, ← Position.left?_eq_some_iff, Firing.is_iff,
    update]
  unfold after
  split
  case h_6 => simp_all [@eq_comm _ paren]
  case h_7 hunary =>
    by_cases htext : firing.text = "not" ∨ firing.text = "defined?"
    · have htakes : Rules.takesParentheses firing.text = true := by
        simpa [Rules.takesParentheses] using htext
      simp [hunary, htakes, htext, lastParen_claim]
    · have htakes : Rules.takesParentheses firing.text = false := by
        simpa [Rules.takesParentheses] using htext
      simp [hunary, htakes, htext, exists_lastParen_iff]
  case h_8 hdefined => simp [hdefined, lastParen_claim]
  all_goals simp_all [exists_lastParen_iff]

end Memory

theorem OneLineMatch.kind_eq_matchPattern_iff (oneLine : OneLineMatch) :
    oneLine.kind = .matchPattern ↔ oneLine = .arrow := by
  cases oneLine <;> decide

/-! ## Runs -/

theorem recalls_nil : Recalls [] Context.initial.memory where
  doubleStar := iff_of_false Bool.false_ne_true (stillSet_nil _ _)
  oneLine := iff_of_false (by decide) (stillSet_nil _ _)
  lambdaBody := iff_of_false (by decide) (stillSet_nil _ _)
  lastParen paren :=
    iff_of_false (by simp [Context.memory, Context.initial]) (isLastParen_nil paren)
  lastSemicolon position :=
    iff_of_false (by simp [Context.memory, Context.initial]) (isLastSemicolon_nil position)
  ended := by simp [Context.memory, Context.initial]

/-- One more event. -/
theorem Recalls.concat {history : List Firing} {memory : Memory} (h : Recalls history memory)
    (firing : Firing) : Recalls (history ++ [firing]) (memory.update firing) where
  doubleStar := by
    rw [Memory.doubleStar_update, stillSet_concat, h.doubleStar]
  oneLine := by
    rw [OneLineMatch.kind_eq_matchPattern_iff, Memory.oneLine_update, stillSet_concat, ← h.oneLine,
      OneLineMatch.kind_eq_matchPattern_iff]
  lambdaBody := by
    rw [Memory.lambdaBody_update, stillSet_concat, h.lambdaBody]
  lastParen paren := by
    rw [Memory.lastParen_update, isLastParen_concat]
    simp only [h.lastParen]
  lastSemicolon position := by
    rw [Memory.lastSemicolon_update, isLastSemicolon_concat, h.lastSemicolon]
  ended := by
    rw [Memory.ended_update, h.ended, exists_mem_concat, or_comm]

theorem exec_session_cons {firing : Firing} {firings : List Firing} {start last : Context}
    (h : (session (firing :: firings)).exec start = (.ok (), last)) : ∃ value next,
      firing.handle.exec start = (.ok value, next) ∧
      (session firings).exec next = (.ok (), last) := by
  rw [session, exec_bind] at h
  cases hhandle : firing.handle.exec start with
  | mk outcome next =>
    rw [hhandle] at h
    cases outcome with
    | error cause => cases h
    | ok value => exact ⟨value, next, rfl, h⟩

theorem exec_session_append {front back : List Firing} {start last : Context}
    (h : (session (front ++ back)).exec start = (.ok (), last)) : ∃ middle,
      (session front).exec start = (.ok (), middle) ∧
      (session back).exec middle = (.ok (), last) := by
  induction front generalizing start with
  | nil => exact ⟨start, rfl, h⟩
  | cons firing front ih =>
    obtain ⟨value, next, hhandle, hrest⟩ := exec_session_cons h
    obtain ⟨middle, hfront, hback⟩ := ih hrest
    refine ⟨middle, ?_, hback⟩
    rw [session, exec_bind, hhandle]
    exact hfront

/-- What a run leaves in the memory. -/
theorem memory_of_session {history : List Firing} {start last : Context}
    (h : (session history).exec start = (.ok (), last)) :
    last.memory = history.foldl Memory.update start.memory := by
  induction history generalizing start with
  | nil =>
    cases h
    rfl
  | cons firing history ih =>
    obtain ⟨value, next, hhandle, hrest⟩ := exec_session_cons h
    rw [List.foldl_cons, ← memory_of_handle hhandle]
    exact ih hrest

theorem recalls_foldl (history : List Firing) :
    Recalls history (history.foldl Memory.update Context.initial.memory) := by
  induction history using List.reverseRecOn with
  | nil => exact recalls_nil
  | append_singleton history firing ih =>
    rw [List.foldl_append]
    exact ih.concat firing

/-! ## The events of a replay -/

/-- What an argument spells as it is written. A list or a flag spells nothing. -/
def Arg.spelling : Arg → String
  | .text content => content
  | .symbol name => name
  | _ => ""

/-- The firing has the name, the position and the token of the event. A first argument that refers
    to nothing is handed on as it is written. -/
structure Event.FiresAs (event : Event) (firing : Firing) : Prop where
  name : firing.event = event.name
  position : firing.position = event.position
  token : firing.token = event.token
  text : ∀ message more, event.args = message :: more → message.references = [] →
    firing.text = message.spelling

/-- A written argument spells what its value does. -/
theorem Results.spelling_of_resolve {results rest : Results} {arg : Arg} {value : Value}
    (h : results.resolve arg = .ok (value, rest)) (hrefs : arg.references = []) :
    value.spelling = arg.spelling := by
  cases arg with
  | ref index => cases hrefs
  | list items =>
    obtain ⟨found, -, hfound⟩ := Outcome.map_eq_ok_iff.mp h
    cases hfound
    rfl
  | _ =>
    cases h
    rfl

/-- The arguments that are handed on to an event. -/
theorem Event.firesAs_of_resolveAll {event : Event} {results rest : Results}
    {arguments : List Value} (h : results.resolveAll event.args = .ok (arguments, rest)) :
    event.FiresAs ⟨event.name, arguments, event.position, event.token⟩ where
  name := rfl
  position := rfl
  token := rfl
  text message more hargs hrefs := by
    rw [hargs, Results.resolveAll_cons] at h
    obtain ⟨first, hfirst, hmore⟩ := Outcome.bind_eq_ok_iff.mp h
    obtain ⟨found, -, hfound⟩ := Outcome.map_eq_ok_iff.mp hmore
    cases hfound
    exact Results.spelling_of_resolve hfirst hrefs

/-- The events of a stream with the arguments they are handed, up to the first that fails. -/
def Replay.firings (start : Replay) : List Event → List Firing
  | [] => []
  | event :: events =>
    match start.results.resolveAll event.args, start.step event with
    | .ok (arguments, _), .ok next =>
      ⟨event.name, arguments, event.position, event.token⟩ :: next.firings events
    | _, _ => []

/-- A replay that reaches its end is a run of its events. -/
theorem Replay.session_firings_of_run {start last : Replay} {events : List Event}
    (h : start.run events = .ok last) :
    List.Forall₂ Event.FiresAs events (start.firings events) ∧
      (session (start.firings events)).exec start.context = (.ok (), last.context) := by
  induction events generalizing start with
  | nil =>
    cases h
    exact ⟨.nil, rfl⟩
  | cons event events ih =>
    obtain ⟨next, hstep, hrest⟩ := Outcome.bind_eq_ok_iff.mp h
    have hhandled := hstep
    rw [step_eq_ok_iff, handleEvent_eq_ok_iff] at hhandled
    obtain ⟨arguments, rest, value, hargs, hhandle, -⟩ := hhandled
    obtain ⟨hpairs, hsession⟩ := ih hrest
    rw [firings, hargs, hstep]
    refine ⟨.cons (Event.firesAs_of_resolveAll hargs) hpairs, ?_⟩
    rw [session, exec_bind, Firing.handle, hhandle]
    exact hsession

/-- After a run that starts afresh the memory is what the events say, and no event of any other
    production changes any of it, whether it succeeds or fails. -/
theorem recalls_of_session {history : List Firing} {last : Context}
    (h : (session history).exec .initial = (.ok (), last)) :
    Recalls history last.memory ∧ ∀ firing : Firing,
      (∀ production : Production, production.isRemembered = true → ¬ firing.Is production) →
        Keeps firing.handle := by
  rw [memory_of_session h]
  exact ⟨recalls_foldl history, fun _ hother => keeps_handle hother⟩

/-- A double star, a parenthesis that a `not` claims, and a semicolon. -/
def claimedParen : List Firing :=
  [⟨"op", [.text "**"], ⟨1, 0⟩, none⟩, ⟨"rparen", [.text ")"], ⟨1, 5⟩, none⟩,
    ⟨"unary", [.text "not", .absent], ⟨1, 6⟩, none⟩, ⟨"semicolon", [.text ";"], ⟨1, 7⟩, none⟩]

theorem recalls_claimedParen :
    ∃ last, (session claimedParen).exec .initial = (.ok (), last) ∧
      last.lastParen = some ⟨⟨1, 5⟩, true⟩ ∧ Recalls claimedParen last.memory := by
  have h : (session claimedParen).exec .initial =
      (.ok (), ((session claimedParen).exec .initial).2) := rfl
  exact ⟨_, h, rfl, (recalls_of_session h).1⟩

end RubyTree
