import RubyTree.Event.Stream
import RubyTree.Proofs.Json.Written

/-!
# Streams that were written

Events are written as JSON, one on a line or all in one array, and read again. Each event is written
as a text that spells a value, and that value stands for the event. The numbers in an event have to
fit into 64 bits, and the text must not nest more containers than a reader allows.

Results:

* `Arg.spells_encode`, `Event.spells_encode`: what arguments and events are written as.
* `Arg.ofJson?_json`, `Event.ofJson?_json`: what the values stand for.
* `Stream.read_written`: both written forms are read as the events that were written.
-/

namespace RubyTree

open Json (Spells SpellsField)

/-! ## What arguments are written as -/

mutual

/-- The value an argument is written as. -/
def Arg.json : Arg → Json
  | .absent => .null
  | .bool flag => .bool flag
  | .text content => .string (some content)
  | .symbol name => .object [(some "sym", .string (some name))]
  | .ref index => .object [(some "ref", .number (.ofNat index))]
  | .list items => .array (Arg.jsonAll items)

/-- The values that the written forms of arguments spell. -/
def Arg.jsonAll : List Arg → List Json
  | [] => []
  | arg :: args => arg.json :: Arg.jsonAll args

end

theorem Arg.encodeMore_eq (args : List Arg) :
    Arg.encodeMore args = Json.commaBefore (args.map Arg.encode) := by
  induction args with
  | nil => rfl
  | cons arg args ih => rw [Arg.encodeMore, ih, List.map_cons, Json.commaBefore_cons,
      List.cons_append]

theorem Arg.encodeItems_eq (args : List Arg) :
    Arg.encodeItems args = List.intercalate [','] (args.map Arg.encode) := by
  cases args with
  | nil => rfl
  | cons arg args => rw [Arg.encodeItems, encodeMore_eq, List.map_cons, Json.intercalate_comma]

theorem Json.isWordChar_of_isDigit {c : Char} (h : c.isDigit = true) : isWordChar c = true := by
  have hne (d : Char) (hd : d.isDigit = false) : c ≠ d := by
    rintro rfl
    rw [h] at hd
    cases hd
  simp [isWordChar, isSpace, isMark, hne]

theorem Json.spells_decimal (n : Nat) : Spells (decimal n) (.number (.ofNat n)) := by
  refine spells_word (decimal_ne_nil n)
    (List.all_eq_true.mpr fun c hc => isWordChar_of_isDigit (isDigit_of_mem_decimal hc)) ?_
  -- the three names begin with a letter
  have hne {word : List Char} (c : Char) (hc : c ∈ word) (hdigit : c.isDigit = false) :
      decimal n ≠ word := by
    rintro rfl
    rw [isDigit_of_mem_decimal hc] at hdigit
    cases hdigit
  rw [ofWord?, if_neg (hne 'n' (by decide) (by decide)), if_neg (hne 't' (by decide) (by decide)),
    if_neg (hne 'f' (by decide) (by decide)), read?_decimal, Option.map_some]

theorem Json.spells_bool (flag : Bool) :
    Spells (if flag then "true".toList else "false".toList) (.bool flag) := by
  cases flag with
  | false => exact spells_word (by decide) (by decide) rfl
  | true => exact spells_word (by decide) (by decide) rfl

theorem Json.spells_singleton {name : String} {text : List Char} {value : Json}
    (h : Spells text value) :
    Spells ('\x7b' :: fieldName name ++ text ++ ['\x7d']) (.object [(some name, value)]) := by
  have hfield : SpellsField (fieldName name ++ text) (some name, value) :=
    ⟨name, text, rfl, rfl, h⟩
  have hobject := spells_object (.cons hfield .nil)
  rw [List.intercalate_singleton] at hobject
  exact hobject

mutual

theorem Arg.spells_encode : (arg : Arg) → Spells arg.encode arg.json
  | .absent => by
    rw [encode, json]
    exact Json.spells_word (by decide) (by decide) rfl
  | .bool flag => by
    rw [encode, json]
    exact Json.spells_bool flag
  | .text content => by
    rw [encode, json]
    exact Json.spells_quote content
  | .symbol name => by
    rw [encode, json]
    exact Json.spells_singleton (Json.spells_quote name)
  | .ref index => by
    rw [encode, json]
    exact Json.spells_singleton (Json.spells_decimal index)
  | .list items => by
    rw [encode, json, encodeItems_eq]
    exact Json.spells_array (Arg.spells_encodeAll items)

theorem Arg.spells_encodeAll :
    (args : List Arg) → List.Forall₂ Spells (args.map Arg.encode) (Arg.jsonAll args)
  | [] => by
    rw [jsonAll]
    exact .nil
  | arg :: args => by
    rw [jsonAll]
    exact .cons arg.spells_encode (Arg.spells_encodeAll args)

end

/-! ## What events are written as -/

/-- The fields of an event as they are written. -/
def Event.fieldTexts (event : Event) : List (List Char) :=
  [fieldName "event" ++ Json.quote event.name.toList,
    fieldName "args" ++ (Arg.list event.args).encode,
    fieldName "line" ++ decimal event.position.line,
    fieldName "column" ++ decimal event.position.column] ++
  match event.token with
  | none => []
  | some token => [fieldName "token" ++ Json.quote token.toList]

/-- The fields of an event. -/
def Event.fields (event : Event) : List (Option String × Json) :=
  [(some "event", .string (some event.name)),
    (some "args", (Arg.list event.args).json),
    (some "line", .number (.ofNat event.position.line)),
    (some "column", .number (.ofNat event.position.column))] ++
  match event.token with
  | none => []
  | some token => [(some "token", .string (some token))]

/-- The value an event is written as. -/
def Event.json (event : Event) : Json := .object event.fields

theorem Event.encode_eq (event : Event) :
    event.encode = '\x7b' :: List.intercalate [','] event.fieldTexts ++ ['\x7d'] := by
  obtain ⟨name, args, position, token⟩ := event
  cases token with
  | none => simp [encode, fieldTexts]
  | some token => simp [encode, fieldTexts]

theorem Event.spells_fields (event : Event) :
    List.Forall₂ SpellsField event.fieldTexts event.fields := by
  have hname : SpellsField (fieldName "event" ++ Json.quote event.name.toList)
      (some "event", .string (some event.name)) := ⟨_, _, rfl, rfl, Json.spells_quote event.name⟩
  have hargs : SpellsField (fieldName "args" ++ (Arg.list event.args).encode)
      (some "args", (Arg.list event.args).json) := ⟨_, _, rfl, rfl, Arg.spells_encode _⟩
  have hnumber (label : String) (n : Nat) : SpellsField (fieldName label ++ decimal n)
      (some label, .number (.ofNat n)) := ⟨_, _, rfl, rfl, Json.spells_decimal n⟩
  refine .cons hname (.cons hargs (.cons (hnumber _ _) (.cons (hnumber _ _) ?_)))
  cases event.token with
  | none => exact .nil
  | some token => exact .cons ⟨_, _, rfl, rfl, Json.spells_quote token⟩ .nil

theorem Event.spells_encode (event : Event) : Spells event.encode event.json := by
  rw [encode_eq]
  exact Json.spells_object event.spells_fields

/-! ## What the values stand for -/

mutual

theorem Arg.ofJson?_json : (arg : Arg) → {levels : Nat} → arg.nesting ≤ levels →
    (∀ index ∈ arg.references, index < Nat.pow 2 64) → Arg.ofJson? levels arg.json = some arg
  | .absent, _, _, _ => by rw [json, ofJson?]
  | .bool flag, _, _, _ => by rw [json, ofJson?]
  | .text content, _, _, _ => by rw [json, ofJson?, Option.map_some]
  | .symbol name, levels, hnesting, _ => by
    rw [nesting] at hnesting
    obtain ⟨levels, rfl⟩ := Nat.exists_eq_add_of_le' hnesting
    rfl
  | .ref index, levels, hnesting, hrefs => by
    rw [nesting] at hnesting
    obtain ⟨levels, rfl⟩ := Nat.exists_eq_add_of_le' hnesting
    have hindex := hrefs index (by simp [references])
    have hplain : Json.allFieldsPlain levels [(some "ref", .number (.ofNat index))] = true := by
      simp [Json.allFieldsPlain, Json.isPlain, Json.inRange_ofNat hindex]
    rw [json, ofJson?, if_pos hplain]
    change (none <|> (Json.Number.ofNat index).natural?.map Arg.ref) = _
    rw [Json.natural?_ofNat hindex]
    rfl
  | .list items, levels, hnesting, hrefs => by
    rw [nesting] at hnesting
    obtain ⟨levels, rfl⟩ := Nat.exists_eq_add_of_le' (Nat.le_of_add_left_le hnesting)
    rw [json, ofJson?, Arg.allOfJson?_jsonAll items (by omega) hrefs, Option.map_some]

theorem Arg.allOfJson?_jsonAll : (args : List Arg) → {levels : Nat} →
    Arg.nestingAll args ≤ levels →
    (∀ index ∈ Arg.referencesAll args, index < Nat.pow 2 64) →
    Arg.allOfJson? levels (Arg.jsonAll args) = some args
  | [], _, _, _ => by rw [jsonAll, allOfJson?]
  | arg :: args, levels, hnesting, hrefs => by
    rw [nestingAll] at hnesting
    rw [referencesAll] at hrefs
    have hfirst : Arg.ofJson? levels arg.json = some arg :=
      Arg.ofJson?_json arg (by omega) fun index hindex =>
        hrefs index (List.mem_append_left _ hindex)
    have hmore : Arg.allOfJson? levels (Arg.jsonAll args) = some args :=
      Arg.allOfJson?_jsonAll args (by omega) fun index hindex =>
        hrefs index (List.mem_append_right _ hindex)
    rw [jsonAll, allOfJson?, hfirst, hmore]
    rfl

end

/-- Every number in the event fits into 64 bits. -/
structure Event.Fits (event : Event) : Prop where
  line : event.position.line < Nat.pow 2 64
  column : event.position.column < Nat.pow 2 64
  references : ∀ index ∈ Arg.referencesAll event.args, index < Nat.pow 2 64

/-- The number of containers that nest in the written form of an event: the event, its list of
    arguments, and what nests in those. -/
def Event.nesting (event : Event) : Nat := Arg.nestingAll event.args + 2

theorem Event.ofJson?_json {event : Event} {levels : Nat} (h : event.Fits)
    (hnesting : event.nesting ≤ levels) : Event.ofJson? levels event.json = some event := by
  obtain ⟨name, args, ⟨line, column⟩, token⟩ := event
  obtain ⟨levels, rfl⟩ := Nat.exists_eq_add_of_le' (Nat.le_of_add_left_le hnesting)
  have hargs : argsOf? (levels + 1) (Arg.list args).json = some args := by
    rw [Arg.json, argsOf?]
    exact Arg.allOfJson?_jsonAll args (by simpa [nesting] using hnesting) h.references
  have hline : Json.natural? (.number (.ofNat line)) = some line := Json.natural?_ofNat h.line
  have hcolumn : Json.natural? (.number (.ofNat column)) = some column :=
    Json.natural?_ofNat h.column
  cases token with
  | none =>
    simp [ofJson?, Event.json, fields, Json.valuesOf, build?, optional?, hargs, hline, hcolumn,
      Json.text?]
  | some token =>
    simp [ofJson?, Event.json, fields, Json.valuesOf, build?, optional?, hargs, hline, hcolumn,
      Json.text?, tokenOf?]

/-! ## Lines -/

/-- No control is written, so that no line is broken. -/
def NoControl (cs : List Char) : Prop := ∀ c ∈ cs, 0x20 ≤ c.toNat

instance (cs : List Char) : Decidable (NoControl cs) :=
  List.decidableBAll (fun c : Char => 0x20 ≤ c.toNat) cs

namespace NoControl

theorem append {cs ds : List Char} (hcs : NoControl cs) (hds : NoControl ds) :
    NoControl (cs ++ ds) := by
  intro c hc
  rcases List.mem_append.mp hc with hc | hc
  · exact hcs c hc
  · exact hds c hc

theorem cons {c : Char} {cs : List Char} (hc : 0x20 ≤ c.toNat) (hcs : NoControl cs) :
    NoControl (c :: cs) := by
  intro d hd
  rcases List.mem_cons.mp hd with rfl | hd
  · exact hc
  · exact hcs d hd

theorem quote (text : List Char) : NoControl (Json.quote text) := by
  refine append (cons (by decide) ?_) (by decide)
  intro c hc
  obtain ⟨d, -, hd⟩ := List.mem_flatMap.mp hc
  exact Json.le_toNat_of_mem_escape hd

theorem fieldName (name : String) : NoControl (fieldName name) :=
  append (quote name.toList) (by decide)

theorem decimal (n : Nat) : NoControl (decimal n) := by
  intro c hc
  have hdigit := Json.isDigit_of_mem_decimal hc
  simp only [Char.isDigit, Bool.and_eq_true, decide_eq_true_eq] at hdigit
  have hzero : '0'.toNat ≤ c.toNat := UInt32.le_iff_toNat_le.mp hdigit.1
  exact Nat.le_trans (by decide) hzero

theorem intercalate {texts : List (List Char)} (h : ∀ text ∈ texts, NoControl text) :
    NoControl (List.intercalate [','] texts) := by
  cases texts with
  | nil => decide
  | cons text texts =>
    rw [Json.intercalate_comma]
    refine append (h text List.mem_cons_self) fun c hc => ?_
    obtain ⟨next, hnext, hc⟩ := List.mem_flatMap.mp hc
    exact cons (by decide) (h next (List.mem_cons_of_mem text hnext)) c hc

mutual

theorem encode : (arg : Arg) → NoControl arg.encode
  | .absent => by decide
  | .bool flag => by cases flag <;> decide
  | .text content => by
    rw [Arg.encode]
    exact quote _
  | .symbol name => by
    rw [Arg.encode]
    exact append (append (cons (by decide) (fieldName _)) (quote _)) (by decide)
  | .ref index => by
    rw [Arg.encode]
    exact append (append (cons (by decide) (fieldName _)) (decimal _)) (by decide)
  | .list items => by
    rw [Arg.encode, Arg.encodeItems_eq]
    exact append (cons (by decide) (intercalate (encodeAll items))) (by decide)

theorem encodeAll : (args : List Arg) → ∀ text ∈ args.map Arg.encode, NoControl text
  | [], _, h => nomatch h
  | arg :: args, text, h => by
    rcases List.mem_cons.mp h with rfl | h
    · exact encode arg
    · exact encodeAll args text h

end

end NoControl

theorem Event.noControl_encode (event : Event) : NoControl event.encode := by
  rw [encode_eq]
  refine .append (.cons (by decide) (.intercalate ?_)) (by decide)
  have hfield {name : String} {value : List Char} (h : NoControl value) :
      NoControl (fieldName name ++ value) := .append (.fieldName name) h
  intro text htext
  rcases List.mem_append.mp htext with htext | htext
  · simp only [List.mem_cons, List.not_mem_nil, or_false] at htext
    rcases htext with rfl | rfl | rfl | rfl
    · exact hfield (.quote _)
    · exact hfield (.encode _)
    · exact hfield (.decimal _)
    · exact hfield (.decimal _)
  · split at htext
    · cases htext
    · obtain rfl := List.mem_singleton.mp htext
      exact hfield (.quote _)

/-- The line of an event begins and ends with a brace. -/
theorem Event.exists_encode_eq (event : Event) :
    ∃ inside, event.encode = '\x7b' :: inside ++ ['\x7d'] := ⟨_, event.encode_eq⟩

theorem Event.isClean_encode (event : Event) : Text.IsClean event.encode := by
  constructor
  · intro hfeed
    exact absurd (event.noControl_encode _ hfeed) (by decide)
  · intro hreturn
    exact absurd (event.noControl_encode _ (List.mem_of_getLast? hreturn)) (by decide)

namespace Stream

theorem isSkipped_encode (event : Event) : isSkipped event.encode = false := by
  obtain ⟨inside, hencode⟩ := event.exists_encode_eq
  rw [isSkipped, Text.trim, hencode, List.cons_append,
    Text.trimStart_cons_of_not_isBlank (by decide), ← List.cons_append,
    Text.trimEnd_concat_of_not_isBlank (by decide)]
  rfl

/-! ## Both written forms -/

/-- A line is read as the event that was written. -/
theorem ofJson?_read?_encode {event : Event} (h : event.Fits) {levels : Nat}
    (hnesting : event.nesting ≤ levels) :
    (Json.read? event.encode).bind (Event.ofJson? levels) = some event := by
  rw [Json.read?_of_spells event.spells_encode, Option.bind_some, Event.ofJson?_json h hnesting]

theorem readNumbered_encode {events : List Event}
    (h : ∀ event ∈ events, event.Fits ∧ event.nesting ≤ nestingLimit) (number : Nat) :
    readNumbered number (events.map Event.encode) = .ok events := by
  induction events generalizing number with
  | nil => rfl
  | cons event events ih =>
    obtain ⟨hfits, hnesting⟩ := h event List.mem_cons_self
    rw [List.map_cons, readNumbered, isSkipped_encode, if_neg Bool.false_ne_true,
      ofJson?_read?_encode hfits hnesting,
      ih fun other hother => h other (List.mem_cons_of_mem event hother)]
    rfl

/-- A text that does not begin with a bracket is read line by line. -/
theorem read_of_splitLines {text : List Char} {events : List Event}
    (hlines : Text.splitLines text = events.map Event.encode)
    (hhead : (Text.trimStart text).head? ≠ some '[')
    (h : ∀ event ∈ events, event.Fits ∧ event.nesting ≤ nestingLimit) :
    read (String.ofList text) = .ok events := by
  rw [read, String.toList_ofList, if_neg hhead, hlines, readNumbered_encode h]

/-- The first character of a line is a brace. -/
theorem head?_trimStart_encode (event : Event) (rest : List Char) :
    (Text.trimStart (event.encode ++ rest)).head? ≠ some '[' := by
  obtain ⟨inside, hencode⟩ := event.exists_encode_eq
  rw [hencode, List.cons_append, List.cons_append,
    Text.trimStart_cons_of_not_isBlank (by decide), List.head?_cons]
  decide

theorem isClean_of_mem {events : List Event} {line : List Char}
    (h : line ∈ events.map Event.encode) : Text.IsClean line ∧ line ≠ [] := by
  obtain ⟨event, -, rfl⟩ := List.mem_map.mp h
  obtain ⟨inside, hencode⟩ := event.exists_encode_eq
  refine ⟨event.isClean_encode, ?_⟩
  rw [hencode]
  exact List.cons_ne_nil _ _

theorem read_encodeLines {events : List Event}
    (h : ∀ event ∈ events, event.Fits ∧ event.nesting ≤ nestingLimit) :
    read (encodeLines events) = .ok events := by
  refine read_of_splitLines ?_ ?_ h
  · have hclean : ∀ line ∈ events.map Event.encode, Text.IsClean line :=
      fun _ hline => (isClean_of_mem hline).1
    have hlines := Text.splitLines_flatMap hclean
    rw [List.flatMap_map] at hlines
    exact hlines
  · cases events with
    | nil => decide
    | cons event events =>
      rw [List.flatMap_cons, List.append_assoc]
      exact head?_trimStart_encode event _

/-- The same without a line feed after the last event. -/
theorem read_intercalate {events : List Event}
    (h : ∀ event ∈ events, event.Fits ∧ event.nesting ≤ nestingLimit) :
    read (String.ofList (List.intercalate ['\n'] (events.map Event.encode))) = .ok events := by
  have hlines := Text.splitLines_intercalate fun line (hline : line ∈ events.map Event.encode) =>
    isClean_of_mem hline
  refine read_of_splitLines hlines ?_ h
  cases events with
  | nil => decide
  | cons event events =>
    cases events with
    | nil =>
      rw [List.map_cons, List.map_nil, List.intercalate_singleton, ← List.append_nil event.encode]
      exact head?_trimStart_encode event []
    | cons next events =>
      rw [List.map_cons, List.map_cons, List.intercalate_cons_cons, List.append_assoc]
      exact head?_trimStart_encode event _

theorem mapM_ofJson?_json {events : List Event} {levels : Nat}
    (h : ∀ event ∈ events, event.Fits ∧ event.nesting ≤ levels) :
    (events.map Event.json).mapM (Event.ofJson? levels) = some events := by
  induction events with
  | nil => rfl
  | cons event events ih =>
    obtain ⟨hfits, hnesting⟩ := h event List.mem_cons_self
    rw [List.map_cons, List.mapM_cons, Event.ofJson?_json hfits hnesting,
      ih fun other hother => h other (List.mem_cons_of_mem event hother)]
    rfl

theorem spells_encodeAll (events : List Event) :
    List.Forall₂ Spells (events.map Event.encode) (events.map Event.json) := by
  induction events with
  | nil => exact .nil
  | cons event events ih => exact .cons event.spells_encode ih

theorem read_encodeArray {events : List Event}
    (h : ∀ event ∈ events, event.Fits ∧ event.nesting + 1 ≤ nestingLimit) :
    read (encodeArray events) = .ok events := by
  have hvalue := Json.read?_of_spells (Json.spells_array (spells_encodeAll events))
  have hevents : (events.map Event.json).mapM (Event.ofJson? (nestingLimit - 1)) = some events :=
    mapM_ofJson?_json fun event hevent =>
      ⟨(h event hevent).1, Nat.le_sub_of_add_le (h event hevent).2⟩
  rw [read, encodeArray, String.toList_ofList, if_pos, readArray, hvalue]
  · simp only [hevents]
  · rw [List.cons_append, Text.trimStart_cons_of_not_isBlank (by decide), List.head?_cons]

/-- Events whose numbers fit are read back from both written forms, as long as the text nests no
    more than 127 containers: those of an event on its line, with or without a line feed after the
    last one, and one more in an array. -/
theorem read_written {events : List Event} (hfits : ∀ event ∈ events, event.Fits) :
    ((∀ event ∈ events, event.nesting ≤ 127) →
      read (encodeLines events) = .ok events ∧
      read (String.ofList (List.intercalate ['\n'] (events.map Event.encode))) = .ok events) ∧
    ((∀ event ∈ events, event.nesting + 1 ≤ 127) → read (encodeArray events) = .ok events) := by
  constructor
  · intro hnesting
    have h : ∀ event ∈ events, event.Fits ∧ event.nesting ≤ nestingLimit :=
      fun event hevent => ⟨hfits event hevent, hnesting event hevent⟩
    exact ⟨read_encodeLines h, read_intercalate h⟩
  · intro hnesting
    exact read_encodeArray fun event hevent => ⟨hfits event hevent, hnesting event hevent⟩

/-- An event with arguments of every form. -/
def everyForm : Event where
  name := "assoc_new"
  args := [.absent, .bool true, .text "a \"quoted\"\n", .symbol "name", .ref 18446744073709551615,
    .list [.list []]]
  position := ⟨3, 14⟩
  token := some "\t"

theorem read_written_everyForm :
    read (encodeLines [everyForm, everyForm]) = .ok [everyForm, everyForm] ∧
      read (encodeArray [everyForm]) = .ok [everyForm] := by
  have hfits : everyForm.Fits := ⟨by decide, by decide, by decide⟩
  have htwice : ∀ event ∈ [everyForm, everyForm], event.Fits := by simp [hfits]
  have honce : ∀ event ∈ [everyForm], event.Fits := by simp [hfits]
  exact ⟨((read_written htwice).1 (by decide)).1, (read_written honce).2 (by decide)⟩

end Stream

end RubyTree
