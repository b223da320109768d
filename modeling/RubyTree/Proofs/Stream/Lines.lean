import Mathlib.Data.List.Forall2
import Mathlib.Logic.Relation
import RubyTree.Proofs.Outcome
import RubyTree.Proofs.Stream.RoundTrip

/-!
# Streams that are read line by line

A text that does not begin with a bracket holds one event on a line. Lines that are blank and
comments count when lines are numbered, and for nothing else. So the events of a text are those of
its other lines, the first line without an event is the one that is complained about, and lines that
are skipped can be put in and taken out.

A line is cut off at a line feed, and it loses a carriage return with it; but the reader of events
does not care about a carriage return at the end of a line. That is why the last line of a text,
which keeps its carriage return, reads the same when another line is put behind it.

Results:

* `readNumbered_eq_ok_iff`, `readNumbered_eq_error_iff`: the events and the complaint, line by line.
* `lineEvents_append`: the lines of a text in two parts.
* `LineAdded.lineEvents_eq`: one more line that is skipped.
* `read_lines`: what a text that is read line by line comes to.
-/

namespace RubyTree

/-! ## A space at the end -/

namespace Json

/-- A space at the end only ends what would end without it. -/
theorem lexemesFrom?_concat {c : Char} (h : isSpace c = true) (scan : Scan) (cs : List Char) :
    lexemesFrom? scan (cs ++ [c]) = lexemesFrom? scan cs := by
  have hquote : c ≠ '"' := by
    rintro rfl
    cases h
  fun_induction lexemesFrom? scan cs with
  | case1 => simp [lexemesFrom?, h]
  | case2 read => simp [lexemesFrom?, h]
  | case3 read escaped => cases escaped <;> simp [lexemesFrom?, hquote]
  | _ => simp_all [lexemesFrom?]

theorem read?_concat {c : Char} (h : isSpace c = true) (cs : List Char) :
    read? (cs ++ [c]) = read? cs := by
  rw [read?, read?, lexemes?, lexemes?, lexemesFrom?_concat h]

end Json

namespace Stream

open Text

/-! ## Specification -/

/-- The text is read as one array. -/
def IsArrayText (text : List Char) : Prop := (trimStart text).head? = some '['

/-- The event that a line has. -/
def eventOf? (line : List Char) : Option Event :=
  (Json.read? line).bind (Event.ofJson? nestingLimit)

/-- The line is not skipped, and it has no event. -/
def IsBad (line : List Char) : Prop := isSkipped line = false ∧ eventOf? line = none

/-- A bad line with no bad line before it. Its index is the number of lines before it. -/
structure IsFirstBad (lines : List (List Char)) (index : Nat) : Prop where
  bad : ∃ line, lines[index]? = some line ∧ IsBad line
  before : ∀ earlier < index, ∀ line, lines[earlier]? = some line → ¬ IsBad line

/-- The lines that are not skipped. -/
def counted (lines : List (List Char)) : List (List Char) :=
  lines.filter fun line => !isSkipped line

/-- What may stand between two lines. -/
def IsLineEnd (ending : List Char) : Prop := ending = ['\n'] ∨ ending = ['\r', '\n']

/-- A line that is skipped. -/
structure IsIdle (line : List Char) : Prop where
  oneLine : '\n' ∉ line
  skipped : isSkipped line = true

/-- A text, and the text with one more line that is skipped: in front of all others, behind a line
    that is ended, or behind the last line. -/
inductive LineAdded : List Char → List Char → Prop where
  | first {line ending : List Char} (hline : IsIdle line) (hending : IsLineEnd ending)
      (text : List Char) : LineAdded text (line ++ ending ++ text)
  | between {line ending ending' : List Char} (hline : IsIdle line) (hending : IsLineEnd ending)
      (hending' : IsLineEnd ending') (front back : List Char) :
      LineAdded (front ++ ending ++ back) (front ++ ending ++ (line ++ ending' ++ back))
  | last {line ending : List Char} (hline : IsIdle line) (hending : IsLineEnd ending)
      (text : List Char) : LineAdded text (text ++ ending ++ line)

/-! ## Reading lines -/

theorem readNumbered_cons_of_not_isSkipped {line : List Char} (h : isSkipped line = false)
    (number : Nat) (lines : List (List Char)) :
    readNumbered number (line :: lines) =
      match eventOf? line with
      | none => .error (.badLine number)
      | some event => (readNumbered (number + 1) lines).map (event :: ·) := by
  rw [readNumbered, if_neg (by simp [h])]
  rfl

theorem counted_cons_of_isSkipped {line : List Char} (h : isSkipped line = true)
    (lines : List (List Char)) : counted (line :: lines) = counted lines := by
  simp [counted, h]

theorem counted_cons_of_not_isSkipped {line : List Char} (h : isSkipped line = false)
    (lines : List (List Char)) : counted (line :: lines) = line :: counted lines := by
  simp [counted, h]

/-- The events are those of the lines that count, in their order. -/
theorem readNumbered_eq_ok_iff {number : Nat} {lines : List (List Char)} {events : List Event} :
    readNumbered number lines = .ok events ↔
      List.Forall₂ (fun line event => eventOf? line = some event) (counted lines) events := by
  induction lines generalizing number events with
  | nil => simp [readNumbered, counted, eq_comm]
  | cons line lines ih =>
    cases hskipped : isSkipped line with
    | true =>
      rw [readNumbered_cons_of_isSkipped hskipped, counted_cons_of_isSkipped hskipped, ih]
    | false =>
      rw [readNumbered_cons_of_not_isSkipped hskipped, counted_cons_of_not_isSkipped hskipped]
      cases hevent : eventOf? line with
      | none => simp [List.forall₂_cons_left_iff, hevent]
      | some event =>
        simp only [Outcome.map_eq_ok_iff, ih, List.forall₂_cons_left_iff, hevent]
        grind

theorem not_isBad_of_isSkipped {line : List Char} (h : isSkipped line = true) : ¬ IsBad line := by
  simp [IsBad, h]

theorem isFirstBad_cons_of_isBad {line : List Char} (h : IsBad line) (lines : List (List Char))
    (index : Nat) : IsFirstBad (line :: lines) index ↔ index = 0 := by
  constructor
  · intro hfirst
    by_contra hne
    exact hfirst.before 0 (Nat.pos_of_ne_zero hne) line rfl h
  · rintro rfl
    exact ⟨⟨line, rfl, h⟩, nofun⟩

theorem isFirstBad_cons_of_not_isBad {line : List Char} (h : ¬ IsBad line)
    (lines : List (List Char)) (index : Nat) :
    IsFirstBad (line :: lines) index ↔ ∃ rest, index = rest + 1 ∧ IsFirstBad lines rest := by
  constructor
  · rintro ⟨⟨other, hother, hbad⟩, hbefore⟩
    cases index with
    | zero =>
      obtain rfl := Option.some.inj hother
      exact absurd hbad h
    | succ index =>
      exact ⟨index, rfl, ⟨other, hother, hbad⟩, fun earlier hearlier =>
        hbefore (earlier + 1) (Nat.succ_lt_succ hearlier)⟩
  · rintro ⟨rest, rfl, hbad, hbefore⟩
    refine ⟨hbad, fun earlier hearlier other hother => ?_⟩
    cases earlier with
    | zero =>
      obtain rfl := Option.some.inj hother
      exact h
    | succ earlier => exact hbefore earlier (Nat.lt_of_succ_lt_succ hearlier) other hother

theorem isFirstBad_nil (index : Nat) : ¬ IsFirstBad [] index := by
  rintro ⟨⟨line, hline, -⟩, -⟩
  cases hline

/-- The complaint is about the first bad line, and it counts all lines before that. -/
theorem readNumbered_eq_error_iff {number : Nat} {lines : List (List Char)} {cause : StreamError} :
    readNumbered number lines = .error cause ↔
      ∃ index, IsFirstBad lines index ∧ cause = .badLine (number + index) := by
  induction lines generalizing number with
  | nil => simp [readNumbered, isFirstBad_nil]
  | cons line lines ih =>
    -- a line that is not bad only moves the count on
    have hnext (h : ¬ IsBad line) :
        readNumbered (number + 1) lines = .error cause ↔
          ∃ index, IsFirstBad (line :: lines) index ∧ cause = .badLine (number + index) := by
      rw [ih]
      constructor
      · rintro ⟨index, hfirst, rfl⟩
        refine ⟨index + 1, (isFirstBad_cons_of_not_isBad h lines _).mpr ⟨index, rfl, hfirst⟩, ?_⟩
        rw [Nat.add_right_comm, Nat.add_assoc]
      · rintro ⟨index, hfirst, rfl⟩
        obtain ⟨rest, rfl, hrest⟩ := (isFirstBad_cons_of_not_isBad h lines index).mp hfirst
        exact ⟨rest, hrest, by rw [Nat.add_right_comm, Nat.add_assoc]⟩
    cases hskipped : isSkipped line with
    | true =>
      rw [readNumbered_cons_of_isSkipped hskipped, hnext (not_isBad_of_isSkipped hskipped)]
    | false =>
      rw [readNumbered_cons_of_not_isSkipped hskipped]
      cases hevent : eventOf? line with
      | none => simp [isFirstBad_cons_of_isBad ⟨hskipped, hevent⟩, eq_comm]
      | some event =>
        rw [← hnext fun hbad => by cases hevent.symm.trans hbad.2]
        cases readNumbered (number + 1) lines <;> simp [Except.map]

theorem exists_forall₂_iff {α β : Type} (f : α → Option β) (items : List α) :
    (∃ results, List.Forall₂ (fun item result => f item = some result) items results) ↔
      ∀ item ∈ items, (f item).isSome = true := by
  induction items with
  | nil => simp
  | cons item items ih =>
    rw [List.forall_mem_cons, ← ih, Option.isSome_iff_exists]
    constructor
    · rintro ⟨_, _ | ⟨hresult, hresults⟩⟩
      exact ⟨⟨_, hresult⟩, ⟨_, hresults⟩⟩
    · rintro ⟨⟨result, hresult⟩, results, hresults⟩
      exact ⟨result :: results, .cons hresult hresults⟩

/-- A text can be read unless one of its lines is bad. -/
theorem exists_readNumbered_iff {number : Nat} {lines : List (List Char)} :
    (∃ events, readNumbered number lines = .ok events) ↔
      ∀ line ∈ lines, isSkipped line = false → (eventOf? line).isSome = true := by
  simp only [readNumbered_eq_ok_iff, exists_forall₂_iff, counted, List.mem_filter,
    Bool.not_eq_true', and_imp]

/-! ## Events line by line -/

/-- The events of the lines that count, and nothing for each bad line. -/
def entries (lines : List (List Char)) : List (Option Event) := (counted lines).map eventOf?

/-- The same for the lines of a text. -/
def lineEvents (text : List Char) : List (Option Event) := entries (splitAtFeeds text)

theorem readNumbered_eq_ok_iff_entries {number : Nat} {lines : List (List Char)}
    {events : List Event} :
    readNumbered number lines = .ok events ↔ entries lines = events.map some := by
  rw [readNumbered_eq_ok_iff, entries, ← List.forall₂_eq_eq_eq, List.forall₂_map_left_iff,
    List.forall₂_map_right_iff]

theorem entries_append (front back : List (List Char)) :
    entries (front ++ back) = entries front ++ entries back := by
  simp [entries, counted]

theorem entries_cons (line : List Char) (lines : List (List Char)) :
    entries (line :: lines) = entries [line] ++ entries lines := entries_append [line] lines

theorem entries_singleton (line : List Char) :
    entries [line] = if isSkipped line = true then [] else [eventOf? line] := by
  split
  · next hskipped =>
    rw [entries, counted_cons_of_isSkipped hskipped]
    rfl
  · next hskipped =>
    rw [entries, counted_cons_of_not_isSkipped (Bool.not_eq_true _ ▸ hskipped)]
    rfl

/-- A carriage return at the end of a line makes no difference. -/
theorem entries_concat_return (line : List Char) : entries [line ++ ['\r']] = entries [line] := by
  have hskipped : isSkipped (line ++ ['\r']) = isSkipped line := by
    rw [isSkipped, isSkipped, trim_concat_of_isBlank (by decide)]
  have hevent : eventOf? (line ++ ['\r']) = eventOf? line := by
    rw [eventOf?, eventOf?, Json.read?_concat (by decide)]
  rw [entries_singleton, entries_singleton, hskipped, hevent]

theorem entries_dropReturn (line : List Char) : entries [dropReturn line] = entries [line] := by
  rw [dropReturn]
  split
  · next hreturn =>
    obtain ⟨front, rfl⟩ := List.getLast?_eq_some_iff.mp hreturn
    rw [List.dropLast_concat, entries_concat_return]
  · rfl

theorem entries_closeLines (pieces : List (List Char)) :
    entries (closeLines pieces) = entries pieces := by
  fun_induction closeLines pieces with
  | case1 => rfl
  | case2 => rfl
  | case3 => rfl
  | case4 piece pieces hne ih =>
    rw [entries_cons, entries_dropReturn, ih, ← entries_cons]

/-- The events of the lines do not depend on how the lines are ended. -/
theorem entries_splitLines (text : List Char) : entries (splitLines text) = lineEvents text :=
  entries_closeLines (splitAtFeeds text)

theorem lineEvents_append (front back : List Char) :
    lineEvents (front ++ '\n' :: back) = lineEvents front ++ lineEvents back := by
  rw [lineEvents, splitAtFeeds_append, entries_append]
  rfl

theorem lineEvents_concat_return (text : List Char) :
    lineEvents (text ++ ['\r']) = lineEvents text := by
  obtain ⟨pieces, last, hsplit, hconcat⟩ := exists_splitAtFeeds_concat (c := '\r') (by decide) text
  rw [lineEvents, lineEvents, hsplit, hconcat, entries_append, entries_append,
    entries_concat_return]

theorem IsLineEnd.lineEvents {ending : List Char} (h : IsLineEnd ending) (front back : List Char) :
    lineEvents (front ++ ending ++ back) = lineEvents front ++ lineEvents back := by
  rcases h with rfl | rfl
  · rw [List.append_assoc, List.singleton_append, lineEvents_append]
  · rw [List.append_assoc, List.cons_append, List.singleton_append, List.append_cons,
      lineEvents_append, lineEvents_concat_return]

theorem IsIdle.lineEvents {line : List Char} (h : IsIdle line) : lineEvents line = [] := by
  rw [Stream.lineEvents, splitAtFeeds_of_not_mem h.oneLine, entries,
    counted_cons_of_isSkipped h.skipped]
  rfl

/-- A line that is skipped has no event, wherever it is. -/
theorem LineAdded.lineEvents_eq {text other : List Char} (h : LineAdded text other) :
    lineEvents text = lineEvents other := by
  cases h with
  | first hline hending => rw [hending.lineEvents, hline.lineEvents, List.nil_append]
  | between hline hending hending' =>
    rw [hending.lineEvents, hending.lineEvents, hending'.lineEvents, hline.lineEvents,
      List.nil_append]
  | last hline hending => rw [hending.lineEvents, hline.lineEvents, List.append_nil]

theorem lineEvents_eq_of_eqvGen {text other : List Char}
    (h : Relation.EqvGen LineAdded text other) : lineEvents text = lineEvents other := by
  induction h with
  | rel _ _ hadded => exact hadded.lineEvents_eq
  | refl _ => rfl
  | symm _ _ _ ih => exact ih.symm
  | trans _ _ _ _ _ ih ih' => exact ih.trans ih'

/-! ## Texts -/

theorem read_of_not_isArrayText {text : String} (h : ¬ IsArrayText text.toList) :
    read text = readNumbered 1 (splitLines text.toList) := if_neg h

theorem read_eq_ok_iff {text : String} (h : ¬ IsArrayText text.toList) {events : List Event} :
    read text = .ok events ↔ lineEvents text.toList = events.map some := by
  rw [read_of_not_isArrayText h, readNumbered_eq_ok_iff_entries, entries_splitLines]

/-- A text that does not begin with a bracket is read if every line of it that is neither blank nor
    a comment has an event, and it comes to these events in order. Otherwise the complaint is about
    the first bad line, by its number among all lines. Putting skipped lines in and taking them out,
    in any number and anywhere, makes no difference as long as the text that comes out does not
    begin with a bracket. -/
theorem read_lines {text : String} (h : ¬ IsArrayText text.toList) :
    ((∃ events, read text = .ok events) ↔
      ∀ line ∈ splitLines text.toList, isSkipped line = false → (eventOf? line).isSome = true) ∧
    (∀ events, read text = .ok events ↔
      List.Forall₂ (fun line event => eventOf? line = some event)
        (counted (splitLines text.toList)) events) ∧
    (∀ cause, read text = .error cause ↔
      ∃ index, IsFirstBad (splitLines text.toList) index ∧ cause = .badLine (index + 1) ∧
        cause.message = "line " ++ toString (index + 1)) ∧
    ∀ other : String, ¬ IsArrayText other.toList →
      Relation.EqvGen LineAdded text.toList other.toList →
      ∀ events, read other = .ok events ↔ read text = .ok events := by
  refine ⟨?_, fun events => ?_, fun cause => ?_, fun other hother hadded events => ?_⟩
  · rw [read_of_not_isArrayText h]
    exact exists_readNumbered_iff
  · rw [read_of_not_isArrayText h]
    exact readNumbered_eq_ok_iff
  · rw [read_of_not_isArrayText h, readNumbered_eq_error_iff]
    constructor
    · rintro ⟨index, hfirst, rfl⟩
      rw [Nat.add_comm]
      exact ⟨index, hfirst, rfl, rfl⟩
    · rintro ⟨index, hfirst, rfl, -⟩
      rw [Nat.add_comm]
      exact ⟨index, hfirst, rfl⟩
  · rw [read_eq_ok_iff h, read_eq_ok_iff hother, lineEvents_eq_of_eqvGen hadded]

theorem not_isArrayText_encode (event : Event) : ¬ IsArrayText event.encode := by
  rw [← List.append_nil event.encode]
  exact head?_trimStart_encode event []

theorem not_isArrayText_comment (rest : List Char) : ¬ IsArrayText ('#' :: rest) := by
  rw [IsArrayText, trimStart_cons_of_not_isBlank (by decide), List.head?_cons]
  decide

/-- A text with a comment before it and an empty line behind it. -/
def annotated (text : List Char) : List Char :=
  "# [recorded]".toList ++ ['\r', '\n'] ++ (text ++ ['\n'])

theorem eqvGen_annotated (text : List Char) : Relation.EqvGen LineAdded text (annotated text) := by
  have hbehind : LineAdded text (text ++ ['\n'] ++ []) := .last ⟨by decide, rfl⟩ (.inl rfl) text
  rw [List.append_nil] at hbehind
  have hfront : LineAdded (text ++ ['\n']) (annotated text) :=
    .first ⟨by decide, by decide⟩ (.inr rfl) _
  exact .trans _ _ _ (.rel _ _ hbehind) (.rel _ _ hfront)

/-- An event without arguments. -/
def bareEvent : Event := { name := "stmts_new" }

theorem read_lines_annotated :
    let text := String.ofList bareEvent.encode
    let other := String.ofList (annotated bareEvent.encode)
    ¬ IsArrayText text.toList ∧ ¬ IsArrayText other.toList ∧
      Relation.EqvGen LineAdded text.toList other.toList ∧ read other = .ok [bareEvent] := by
  intro text other
  have htext : ¬ IsArrayText text.toList := by
    rw [String.toList_ofList]
    exact not_isArrayText_encode bareEvent
  have hother : ¬ IsArrayText other.toList := by
    rw [String.toList_ofList]
    exact not_isArrayText_comment _
  have hadded : Relation.EqvGen LineAdded text.toList other.toList := by
    rw [String.toList_ofList, String.toList_ofList]
    exact eqvGen_annotated _
  have hfits : ∀ event ∈ [bareEvent], event.Fits ∧ event.nesting ≤ nestingLimit := by
    intro event hevent
    obtain rfl := List.mem_singleton.mp hevent
    exact ⟨⟨by decide, by decide, nofun⟩, by decide⟩
  have hread : read text = .ok [bareEvent] := by
    have hevents := read_intercalate hfits
    rwa [List.map_cons, List.map_nil, List.intercalate_singleton] at hevents
  exact ⟨htext, hother, hadded,
    ((read_lines htext).2.2.2 other hother hadded [bareEvent]).mpr hread⟩

end Stream

end RubyTree
