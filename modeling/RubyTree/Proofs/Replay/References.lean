import RubyTree.Proofs.Replay.Run

/-!
# References are linear

A reference takes the result of an earlier event out of the table. It is broken when the event has
not fired, or when its result has been taken before: by an earlier event, or by a reference further
left in the same arguments. References are followed from left to right through nested lists, so the
table changes while one event is being resolved.

The invariant ties the table to the stream: the empty places of the table are the indices that have
been referred to so far, `Results.UsedUp`.

Results:

* `Results.follows_resolveAll`: resolving arguments stops at the first broken reference, and has
  used up all of them otherwise.
* `Replay.linear_of_run`: what a run that succeeds has referred to.
* `replay_references`: when a stream fails at an event because of a reference, and what holds of a
  stream that does not fail.
-/

namespace RubyTree

/-- What the arguments of events refer to, in the order in which it is followed. -/
def references (events : List Event) : List Nat :=
  events.flatMap fun event => Arg.referencesAll event.args

/-! ## Broken references -/

namespace Reference

/-- A reference that cannot be followed once `fired` events have fired and the results in `used`
    have been taken. -/
def Broken (fired : Nat) (used : List Nat) (index : Nat) : Prop := fired ≤ index ∨ index ∈ used

instance (fired : Nat) (used : List Nat) (index : Nat) : Decidable (Broken fired used index) :=
  inferInstanceAs (Decidable (_ ∨ _))

/-- No reference of a list is broken when they are followed from left to right. -/
def Sound (fired : Nat) (used refs : List Nat) : Prop :=
  ∀ before index after, refs = before ++ index :: after → ¬ Broken fired (used ++ before) index

/-- The first broken reference of a list. -/
def FirstBroken (fired : Nat) (used refs : List Nat) (index : Nat) : Prop :=
  ∃ before after, refs = before ++ index :: after ∧ Sound fired used before ∧
    Broken fired (used ++ before) index

/-- The error a broken reference leads to. -/
def cause (fired index : Nat) : StreamError :=
  if fired ≤ index then .notFired index fired else .consumedTwice index

/-- `FirstBroken`, found by a scan. -/
def firstBroken? (fired : Nat) (used : List Nat) : List Nat → Option Nat
  | [] => none
  | index :: refs =>
    if Broken fired used index then some index else firstBroken? fired (used ++ [index]) refs

theorem firstBroken?_append (fired : Nat) (used front back : List Nat) :
    firstBroken? fired used (front ++ back) =
      (firstBroken? fired used front).or (firstBroken? fired (used ++ front) back) := by
  induction front generalizing used with
  | nil => simp [firstBroken?]
  | cons index front ih =>
    simp only [List.cons_append, firstBroken?]
    split
    · rfl
    · rw [ih, List.append_assoc, List.singleton_append]

theorem sound_nil (fired : Nat) (used : List Nat) : Sound fired used [] := by
  intro before index after h
  cases before <;> cases h

theorem sound_cons (fired : Nat) (used : List Nat) (index : Nat) (refs : List Nat) :
    Sound fired used (index :: refs) ↔
      ¬ Broken fired used index ∧ Sound fired (used ++ [index]) refs := by
  constructor
  · intro h
    refine ⟨?_, fun before next after hrefs => ?_⟩
    · simpa using h [] index refs rfl
    · have := h (index :: before) next after (by rw [hrefs, List.cons_append])
      rwa [← List.singleton_append, ← List.append_assoc] at this
  · rintro ⟨hindex, hrefs⟩ before next after h
    cases before with
    | nil =>
      cases h
      rwa [List.append_nil]
    | cons other before =>
      cases h
      rw [← List.singleton_append, ← List.append_assoc]
      exact hrefs before next after rfl

theorem firstBroken?_eq_none_iff (fired : Nat) (used refs : List Nat) :
    firstBroken? fired used refs = none ↔ Sound fired used refs := by
  induction refs generalizing used with
  | nil => exact ⟨fun _ => sound_nil fired used, fun _ => rfl⟩
  | cons index refs ih =>
    rw [firstBroken?, sound_cons]
    split
    · simp_all
    · simp_all

theorem firstBroken?_eq_some_iff (fired : Nat) (used refs : List Nat) (index : Nat) :
    firstBroken? fired used refs = some index ↔ FirstBroken fired used refs index := by
  induction refs generalizing used with
  | nil => simp [firstBroken?, FirstBroken]
  | cons next refs ih =>
    rw [firstBroken?]
    split
    · rename_i hnext
      constructor
      · intro h
        cases h
        exact ⟨[], refs, rfl, sound_nil fired used, by rwa [List.append_nil]⟩
      · rintro ⟨before, after, hrefs, hsound, -⟩
        cases before with
        | nil =>
          cases hrefs
          rfl
        | cons other before =>
          cases hrefs
          exact absurd hnext ((sound_cons _ _ _ _).mp hsound).1
    · rename_i hnext
      rw [ih]
      constructor
      · rintro ⟨before, after, rfl, hsound, hbroken⟩
        refine ⟨next :: before, after, rfl, (sound_cons _ _ _ _).mpr ⟨hnext, hsound⟩, ?_⟩
        rwa [← List.singleton_append, ← List.append_assoc]
      · rintro ⟨before, after, hrefs, hsound, hbroken⟩
        cases before with
        | nil =>
          cases hrefs
          rw [List.append_nil] at hbroken
          exact absurd hbroken hnext
        | cons other before =>
          cases hrefs
          refine ⟨before, after, rfl, ((sound_cons _ _ _ _).mp hsound).2, ?_⟩
          rwa [← List.singleton_append, ← List.append_assoc] at hbroken

theorem exists_firstBroken_iff (fired : Nat) (used refs : List Nat) :
    (∃ index, FirstBroken fired used refs index) ↔ ¬ Sound fired used refs := by
  rw [← firstBroken?_eq_none_iff, ← ne_eq, Option.ne_none_iff_exists']
  simp only [firstBroken?_eq_some_iff]

/-- References that can all be followed are below `fired`, and pairwise distinct. -/
theorem Sound.nodup {fired : Nat} {used refs : List Nat} (h : Sound fired used refs)
    (hused : used.Nodup) : (used ++ refs).Nodup ∧ ∀ index ∈ refs, index < fired := by
  induction refs generalizing used with
  | nil => exact ⟨by rwa [List.append_nil], by simp⟩
  | cons index refs ih =>
    obtain ⟨hindex, hrefs⟩ := (sound_cons _ _ _ _).mp h
    obtain ⟨hfired, hnew⟩ : index < fired ∧ index ∉ used := by
      simpa [Broken, not_or] using hindex
    have hgrown : (used ++ [index]).Nodup := by
      refine List.nodup_append.mpr ⟨hused, by simp, fun a ha b hb => ?_⟩
      rintro rfl
      exact hnew (List.mem_singleton.mp hb ▸ ha)
    obtain ⟨hnodup, hbelow⟩ := ih hrefs hgrown
    rw [List.append_assoc, List.singleton_append] at hnodup
    exact ⟨hnodup, by simpa using ⟨hfired, hbelow⟩⟩

end Reference

/-! ## The table of results -/

namespace Results

open Reference

/-- The empty places of a table are the indices in `used`. -/
def UsedUp (results : Results) (used : List Nat) : Prop :=
  ∀ index, results[index]? = some none ↔ index ∈ used

theorem UsedUp.set {results : Results} {used : List Nat} (h : results.UsedUp used) {index : Nat}
    (hindex : index < results.length) : UsedUp (results.set index none) (used ++ [index]) := by
  intro other
  rw [List.mem_append, List.mem_singleton, ← h other]
  by_cases heq : index = other
  · subst heq
    simp [List.getElem?_set_self hindex]
  · rw [List.getElem?_set_ne heq]
    simp [Ne.symm heq]

theorem UsedUp.append {results : Results} {used : List Nat} (h : results.UsedUp used)
    (value : Value) : UsedUp (results ++ [some value]) used := by
  intro index
  rw [← h index]
  by_cases hlt : index < results.length
  · rw [List.getElem?_append_left hlt]
  · rw [List.getElem?_append_right (by omega), List.getElem?_eq_none (l := results) (by omega)]
    cases index - results.length <;> simp

/-- The outcome of following references: the error of the first broken one, or else a table in
    which all of them are used up. -/
def Follows {α : Type} (results : Results) (used refs : List Nat)
    (outcome : Except StreamError (α × Results)) : Prop :=
  match firstBroken? results.length used refs with
  | some index => outcome = .error (cause results.length index)
  | none => ∃ value rest, outcome = .ok (value, rest) ∧ rest.length = results.length ∧
      rest.UsedUp (used ++ refs)

theorem Follows.of_ok {α : Type} {results : Results} {used : List Nat} (h : results.UsedUp used)
    (value : α) : Follows results used [] (.ok (value, results)) :=
  ⟨value, results, rfl, rfl, by rwa [List.append_nil]⟩

theorem Follows.map {α β : Type} {results : Results} {used refs : List Nat}
    {outcome : Except StreamError (α × Results)} (h : Follows results used refs outcome)
    (f : α → β) : Follows results used refs (outcome.map fun found => (f found.1, found.2)) := by
  unfold Follows at h ⊢
  split at h
  · rw [h]
    rfl
  · obtain ⟨value, rest, rfl, hlength, hrest⟩ := h
    exact ⟨f value, rest, rfl, hlength, hrest⟩

/-- References that are followed one list after the other. -/
theorem Follows.bind {α β : Type} {results : Results} {used front back : List Nat}
    {outcome : Except StreamError (α × Results)} (h : Follows results used front outcome)
    {next : α × Results → Except StreamError (β × Results)}
    (hnext : ∀ value rest, rest.length = results.length → rest.UsedUp (used ++ front) →
      Follows rest (used ++ front) back (next (value, rest))) :
    Follows results used (front ++ back) (outcome >>= next) := by
  unfold Follows at h
  unfold Follows
  rw [firstBroken?_append]
  split at h
  · rename_i index hfront
    rw [hfront, h]
    rfl
  · rename_i hfront
    obtain ⟨value, rest, rfl, hlength, hrest⟩ := h
    have hmore := hnext value rest hlength hrest
    unfold Follows at hmore
    rw [hlength, List.append_assoc] at hmore
    rw [hfront, Option.none_or]
    exact hmore

theorem follows_take {results : Results} {used : List Nat} (h : results.UsedUp used)
    (index : Nat) : Follows results used [index] (results.take index) := by
  unfold Follows
  simp only [firstBroken?]
  by_cases hle : results.length ≤ index
  · simp only [Broken, cause, hle, true_or, if_true]
    exact take_of_le hle
  · by_cases hmem : index ∈ used
    · have hslot := (h index).mpr hmem
      simp only [Broken, cause, hle, hmem, or_true, if_true, if_false]
      simp only [take, hslot]
    · simp only [Broken, hle, hmem, or_self, if_false]
      have hlt : index < results.length := by omega
      have hslot : results[index]? = some results[index] := List.getElem?_eq_getElem hlt
      cases hvalue : results[index] with
      | none => exact absurd ((h index).mp (by rw [hslot, hvalue])) hmem
      | some value =>
        rw [hvalue] at hslot
        exact ⟨value, results.set index none, by simp only [take, hslot], List.length_set,
          h.set hlt⟩

mutual

theorem follows_resolve {results : Results} {used : List Nat} (h : results.UsedUp used) :
    (arg : Arg) → Follows results used arg.references (results.resolve arg)
  | .absent | .bool _ | .text _ | .symbol _ => Follows.of_ok h _
  | .ref index => follows_take h index
  | .list items => (follows_resolveAll h items).map Value.list

theorem follows_resolveAll {results : Results} {used : List Nat} (h : results.UsedUp used) :
    (args : List Arg) → Follows results used (Arg.referencesAll args) (results.resolveAll args)
  | [] => Follows.of_ok h _
  | arg :: args => by
    rw [resolveAll_cons, Arg.referencesAll]
    refine (follows_resolve h arg).bind fun value rest _ hrest => ?_
    exact (follows_resolveAll hrest args).map (value :: ·)

end

theorem resolveAll_eq_error_iff {results : Results} {used : List Nat} (h : results.UsedUp used)
    (args : List Arg) (failed : StreamError) : results.resolveAll args = .error failed ↔
      ∃ index, FirstBroken results.length used (Arg.referencesAll args) index ∧
        failed = cause results.length index := by
  have hfollows := follows_resolveAll h args
  unfold Follows at hfollows
  split at hfollows
  · rename_i index hindex
    rw [hfollows]
    constructor
    · intro hfailed
      cases hfailed
      exact ⟨index, (firstBroken?_eq_some_iff _ _ _ _).mp hindex, rfl⟩
    · rintro ⟨other, hother, rfl⟩
      rw [(firstBroken?_eq_some_iff _ _ _ _).mpr hother] at hindex
      cases hindex
      rfl
  · rename_i hnone
    obtain ⟨values, rest, hok, -⟩ := hfollows
    rw [hok]
    constructor
    · intro hfailed
      cases hfailed
    · rintro ⟨other, hother, -⟩
      rw [(firstBroken?_eq_some_iff _ _ _ _).mpr hother] at hnone
      cases hnone

theorem sound_of_resolveAll {results rest : Results} {used : List Nat} (h : results.UsedUp used)
    {args : List Arg} {values : List Value} (hargs : results.resolveAll args = .ok (values, rest)) :
    Sound results.length used (Arg.referencesAll args) ∧
      rest.UsedUp (used ++ Arg.referencesAll args) := by
  have hfollows := follows_resolveAll h args
  unfold Follows at hfollows
  rw [hargs] at hfollows
  split at hfollows
  · cases hfollows
  · rename_i hnone
    obtain ⟨_, _, hok, -, hrest⟩ := hfollows
    cases hok
    exact ⟨(firstBroken?_eq_none_iff _ _ _).mp hnone, hrest⟩

end Results

/-! ## Runs -/

namespace Replay

open Reference

theorem usedUp_of_step {replay next : Replay} {event : Event} {used : List Nat}
    (h : replay.results.UsedUp used) (hstep : replay.step event = .ok next) :
    Sound replay.results.length used (Arg.referencesAll event.args) ∧
      next.results.UsedUp (used ++ Arg.referencesAll event.args) := by
  rw [step_eq_ok_iff, handleEvent_eq_ok_iff] at hstep
  obtain ⟨arguments, rest, value, hargs, -, hresults⟩ := hstep
  obtain ⟨hsound, hrest⟩ := Results.sound_of_resolveAll h hargs
  rw [hresults]
  exact ⟨hsound, hrest.append value⟩

/-- A run that succeeds refers to no result twice, and only to results that are there. -/
theorem linear_of_run {start last : Replay} {events : List Event} {used : List Nat}
    (h : start.results.UsedUp used) (hused : used.Nodup) (hrun : start.run events = .ok last) :
    last.results.UsedUp (used ++ references events) ∧ (used ++ references events).Nodup ∧
      ∀ front event back, events = front ++ event :: back →
        ∀ index ∈ Arg.referencesAll event.args, index < start.results.length + front.length := by
  induction events generalizing start used with
  | nil =>
    cases hrun
    refine ⟨by simpa [references] using h, by simpa [references] using hused, ?_⟩
    intro front event back hsplit
    cases front <;> cases hsplit
  | cons event events ih =>
    obtain ⟨next, hstep, hrest⟩ := Outcome.bind_eq_ok_iff.mp hrun
    obtain ⟨hsound, hnext⟩ := usedUp_of_step h hstep
    obtain ⟨hnodup, hbelow⟩ := hsound.nodup hused
    obtain ⟨hlast, hall, hlater⟩ := ih hnext hnodup hrest
    have hreferences : references (event :: events) =
        Arg.referencesAll event.args ++ references events := rfl
    rw [hreferences, ← List.append_assoc]
    refine ⟨hlast, hall, ?_⟩
    intro front other back hsplit index hindex
    cases front with
    | nil =>
      cases hsplit
      exact hbelow index hindex
    | cons first front =>
      cases hsplit
      have := hlater front other back rfl index hindex
      rw [length_results_of_step hstep] at this
      rw [List.length_cons]
      omega

theorem usedUp_initial : Results.UsedUp ({} : Replay).results [] := by
  intro index
  simp

end Replay

/-! ## Whole streams -/

/-- The stream fails at the event with this index because of the stream itself. -/
def FailsAt (events : List Event) (index : Nat) (event : Event) (cause : StreamError) : Prop :=
  replay events = .error (.event index event.name event.position.line event.position.column
    (.stream cause))

open Reference in
/-- A stream whose events before an event have been handled fails at it because of the stream
    exactly when one of its references is broken, and the error is about the first such. In a run
    that succeeds each result is taken at most once and by a later event only, the empty places of
    the table are what has been referred to, and the root is what the rule of the last event
    gave. -/
theorem replay_references (events : List Event) :
    (∀ earlier event later reached, events = earlier ++ event :: later →
      Replay.run {} earlier = .ok reached →
      ((∃ failed, FailsAt events earlier.length event failed) ↔
        ¬ Sound earlier.length (references earlier) (Arg.referencesAll event.args)) ∧
      ∀ failed, FailsAt events earlier.length event failed ↔ ∃ index,
        FirstBroken earlier.length (references earlier) (Arg.referencesAll event.args) index ∧
          failed = cause earlier.length index) ∧
    (∀ replayed, Replay.run {} events = .ok replayed →
      (references events).Nodup ∧
      (∀ earlier event later, events = earlier ++ event :: later →
        ∀ index ∈ Arg.referencesAll event.args, index < earlier.length) ∧
      (∀ index, replayed.results[index]? = some none ↔ index ∈ references events) ∧
      replay events = (finish replayed.root replayed.context).mapError .shape ∧
      ∀ earlier event, events = earlier ++ [event] → ∃ reached arguments rest,
        Replay.run {} earlier = .ok reached ∧
        reached.results.resolveAll event.args = .ok (arguments, rest) ∧
        (handle event.name arguments event.position event.token).exec reached.context =
          (.ok replayed.root, replayed.context)) := by
  constructor
  · rintro earlier event later reached rfl hreached
    have hused := (Replay.linear_of_run Replay.usedUp_initial List.nodup_nil hreached).1
    rw [List.nil_append] at hused
    have hlength : reached.results.length = earlier.length := by
      rw [Replay.length_results_of_run hreached]
      exact Nat.zero_add _
    have hfails : ∀ failed, FailsAt (earlier ++ event :: later) earlier.length event failed ↔
        ∃ index, FirstBroken earlier.length (references earlier) (Arg.referencesAll event.args)
          index ∧ failed = cause earlier.length index := by
      intro failed
      rw [FailsAt, replay_eq_error_event_iff hreached, Replay.handleEvent_eq_error_stream_iff,
        Results.resolveAll_eq_error_iff hused, hlength]
    refine ⟨?_, hfails⟩
    rw [← exists_firstBroken_iff]
    constructor
    · rintro ⟨failed, hfailed⟩
      obtain ⟨index, hindex, -⟩ := (hfails failed).mp hfailed
      exact ⟨index, hindex⟩
    · rintro ⟨index, hindex⟩
      exact ⟨cause earlier.length index, (hfails _).mpr ⟨index, hindex, rfl⟩⟩
  · intro replayed hrun
    obtain ⟨hused, hnodup, hbelow⟩ :=
      Replay.linear_of_run Replay.usedUp_initial List.nodup_nil hrun
    rw [List.nil_append] at hused hnodup
    refine ⟨hnodup, ?_, hused, replay_of_run hrun, ?_⟩
    · intro earlier event later hsplit index hindex
      have hlt := hbelow earlier event later hsplit index hindex
      rwa [show ({} : Replay).results.length = 0 from rfl, Nat.zero_add] at hlt
    · rintro earlier event rfl
      rw [Replay.run_append] at hrun
      obtain ⟨reached, hreached, hlast⟩ := Outcome.bind_eq_ok_iff.mp hrun
      obtain ⟨next, hstep, hnext⟩ := Outcome.bind_eq_ok_iff.mp hlast
      cases hnext
      rw [Replay.step_eq_ok_iff, Replay.handleEvent_eq_ok_iff] at hstep
      obtain ⟨arguments, rest, value, hargs, hrule, hresults⟩ := hstep
      refine ⟨reached, arguments, rest, hreached, hargs, ?_⟩
      rw [hrule, Replay.root, hresults, List.getLast?_append]
      rfl

/-- A list of statements, and a program around it. -/
def emptyProgram : List Event := [{ name := "stmts_new" }, { name := "program", args := [.ref 0] }]

/-- A program around the first result, which stands inside a nested list. -/
def programAgain : Event := { name := "program", args := [.list [.list [.ref 0]]] }

/-- The list of statements of one program cannot be that of another. -/
theorem replay_references_programAgain :
    FailsAt (emptyProgram ++ [programAgain]) 2 programAgain (.consumedTwice 0) := by
  have hok : (Replay.run {} emptyProgram).isOk = true := by decide +kernel
  cases hrun : Replay.run {} emptyProgram with
  | error cause =>
    rw [hrun] at hok
    cases hok
  | ok reached =>
    have hfails := (replay_references _).1 emptyProgram programAgain [] reached rfl hrun
    refine (hfails.2 _).mpr ⟨0, ?_, rfl⟩
    exact (Reference.firstBroken?_eq_some_iff _ _ _ _).mp (by decide)

end RubyTree
