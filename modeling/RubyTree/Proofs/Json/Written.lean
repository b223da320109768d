import Mathlib.Data.List.Forall2
import RubyTree.Proofs.Json.Leaves

/-!
# Reading JSON that was written

A text spells a value if reading it puts that value in its place, wherever a value may stand. What
follows the text is read as before: that is how the parts of a container are put together, and why
nothing but a mark may follow a bare word.

Results:

* `spells_word`, `spells_quote`, `spells_array`, `spells_object`: how texts that spell values are
  put together.
* `read?_of_spells`: such a text is read as the value that it spells.
-/

namespace RubyTree.Json

/-! ## Reading on -/

/-- Goes on reading at a text. -/
def resume? (reading : Reading) (cs : List Char) : Option Reading :=
  (lexemesFrom? .between cs).bind fun lexemes => lexemes.foldlM step? reading

@[simp] theorem resume?_nil (reading : Reading) : resume? reading [] = some reading := rfl

/-- A text that begins with a lexeme. -/
theorem resume?_of_lexemesFrom? {cs rest : List Char} {lexeme : Lexeme}
    (h : lexemesFrom? .between cs = (lexemesFrom? .between rest).map (lexeme :: ·))
    (reading : Reading) :
    resume? reading cs = (step? reading lexeme).bind (resume? · rest) := by
  unfold resume?
  rw [h]
  cases lexemesFrom? .between rest with
  | none => cases step? reading lexeme <;> rfl
  | some lexemes => rfl

theorem resume?_mark {c : Char} (h : isMark c = true) (reading : Reading) (rest : List Char) :
    resume? reading (c :: rest) = (step? reading (.mark c)).bind (resume? · rest) :=
  resume?_of_lexemesFrom? (lexemesFrom?_mark h rest) reading

/-! ## Texts that spell values -/

/-- Reading the text puts a value in its place. -/
def Spells (cs : List Char) (value : Json) : Prop :=
  ∀ frames expected rest, expected = .value ∨ expected = .valueOrEnd → EndsWord rest →
    resume? (.inside frames expected) (cs ++ rest) = resume? (deliver value frames) rest

/-- A lexeme that is a value of its own. -/
theorem spells_of_readValue? {cs : List Char} {lexeme : Lexeme} {value : Json}
    (hscan : ∀ rest, EndsWord rest →
      lexemesFrom? .between (cs ++ rest) = (lexemesFrom? .between rest).map (lexeme :: ·))
    (hmark : ∀ c, lexeme ≠ .mark c)
    (hread : ∀ frames, readValue? frames lexeme = some (deliver value frames)) :
    Spells cs value := by
  intro frames expected rest hexpected hrest
  have hstep : step? (.inside frames expected) lexeme = some (deliver value frames) := by
    rcases hexpected with rfl | rfl
    · exact hread frames
    · rw [step?]
      · exact hread frames
      · exact hmark ']'
  rw [resume?_of_lexemesFrom? (hscan rest hrest), hstep, Option.bind_some]

theorem spells_word {word : List Char} {value : Json} (hne : word ≠ [])
    (hword : word.all isWordChar = true) (h : ofWord? word = some value) :
    Spells word value :=
  spells_of_readValue? (fun _ hrest => lexemesFrom?_word hrest hne hword) nofun fun frames => by
    rw [readValue?, h, Option.map_some]

theorem spells_quote (text : String) : Spells (quote text.toList) (.string (some text)) :=
  spells_of_readValue? (fun rest _ => lexemesFrom?_quote text.toList rest) nofun fun frames => by
    rw [readValue?, stringText?_flatMap_escape, Option.map_some, String.ofList_toList]

/-! ## Containers -/

/-- Texts with a comma before each. -/
def commaBefore (texts : List (List Char)) : List Char := texts.flatMap (',' :: ·)

theorem commaBefore_cons (text : List Char) (texts : List (List Char)) :
    commaBefore (text :: texts) = ',' :: (text ++ commaBefore texts) := rfl

theorem intercalate_comma (text : List Char) (texts : List (List Char)) :
    List.intercalate [','] (text :: texts) = text ++ commaBefore texts := by
  induction texts generalizing text with
  | nil => simp [commaBefore]
  | cons next texts ih =>
    rw [List.intercalate_cons_cons, ih, commaBefore_cons, List.append_assoc, List.singleton_append]

/-- What follows a part of a container ends a word. -/
theorem endsWord_commaBefore (texts : List (List Char)) {c : Char} (h : isMark c = true)
    (rest : List Char) : EndsWord (commaBefore texts ++ c :: rest) := by
  cases texts with
  | nil => exact endsWord_mark h rest
  | cons text texts => exact endsWord_mark (by decide) _

/-- The rest of an array, up to its end. -/
theorem resume?_items {texts : List (List Char)} {values : List Json}
    (h : List.Forall₂ Spells texts values) (items : List Json) (frames : List Frame)
    (rest : List Char) :
    resume? (.inside (.array items :: frames) .commaOrEnd) (commaBefore texts ++ ']' :: rest) =
      resume? (deliver (.array (items.reverse ++ values)) frames) rest := by
  induction h generalizing items with
  | nil =>
    rw [commaBefore, List.flatMap_nil, List.nil_append, resume?_mark (by decide), List.append_nil]
    rfl
  | @cons text value texts values hvalue hvalues ih =>
    have hcomma : step? (.inside (.array items :: frames) .commaOrEnd) (.mark ',') =
        some (.inside (.array items :: frames) .value) := rfl
    have hends : EndsWord (commaBefore texts ++ ']' :: rest) :=
      endsWord_commaBefore texts (by decide) rest
    rw [commaBefore_cons, List.cons_append, resume?_mark (by decide), hcomma, Option.bind_some,
      List.append_assoc, hvalue _ _ _ (.inl rfl) hends, deliver, ih (value :: items),
      List.reverse_cons, List.append_assoc, List.singleton_append]

theorem spells_array {texts : List (List Char)} {values : List Json}
    (h : List.Forall₂ Spells texts values) :
    Spells ('[' :: List.intercalate [','] texts ++ [']']) (.array values) := by
  intro frames expected rest hexpected hrest
  have hopen : step? (.inside frames expected) (.mark '[') =
      some (.inside (.array [] :: frames) .valueOrEnd) := by
    rcases hexpected with rfl | rfl <;> rfl
  rw [List.cons_append, List.cons_append, List.append_assoc, resume?_mark (by decide), hopen,
    Option.bind_some]
  cases h with
  | nil => exact resume?_mark (by decide) _ rest
  | @cons text value texts values hvalue hvalues =>
    rw [intercalate_comma, List.append_assoc, List.singleton_append,
      hvalue _ _ _ (.inr rfl) (endsWord_commaBefore texts (by decide) rest)]
    exact resume?_items hvalues [value] frames rest

/-- The text of a field. -/
def SpellsField (text : List Char) (field : Option String × Json) : Prop :=
  ∃ name value, text = fieldName name ++ value ∧ field.1 = some name ∧ Spells value field.2

/-- A field of an object where a key may stand. -/
theorem resume?_field {text : List Char} {field : Option String × Json}
    (h : SpellsField text field) (fields : List (Option String × Json)) (key : Option String)
    (frames : List Frame) {expected : Expected} (hexpected : expected = .key ∨ expected = .keyOrEnd)
    {rest : List Char} (hrest : EndsWord rest) :
    resume? (.inside (.object fields key :: frames) expected) (text ++ rest) =
      resume? (.inside (.object (field :: fields) none :: frames) .commaOrEnd) rest := by
  obtain ⟨name, value, rfl, hname, hvalue⟩ := h
  obtain ⟨label, content⟩ := field
  obtain rfl : label = some name := hname
  have hkey : step? (.inside (.object fields key :: frames) expected)
      (.quoted (name.toList.flatMap escape)) =
      some (.inside (.object fields (some name) :: frames) .colon) := by
    have hread : readKey? (.object fields key :: frames) (.quoted (name.toList.flatMap escape)) =
        some (.inside (.object fields (some name) :: frames) .colon) := by
      rw [readKey?, stringText?_flatMap_escape, Option.map_some, String.ofList_toList]
    rcases hexpected with rfl | rfl
    · exact hread
    · exact hread
  have hcolon : step? (.inside (.object fields (some name) :: frames) .colon) (.mark ':') =
      some (.inside (.object fields (some name) :: frames) .value) := rfl
  rw [fieldName, List.append_assoc, List.append_assoc,
    resume?_of_lexemesFrom? (lexemesFrom?_quote name.toList _), hkey, Option.bind_some,
    List.singleton_append, resume?_mark (by decide), hcolon, Option.bind_some,
    hvalue _ _ _ (.inl rfl) hrest]
  rfl

/-- The rest of an object, up to its end. -/
theorem resume?_fields {texts : List (List Char)} {more : List (Option String × Json)}
    (h : List.Forall₂ SpellsField texts more) (fields : List (Option String × Json))
    (frames : List Frame) (rest : List Char) :
    resume? (.inside (.object fields none :: frames) .commaOrEnd)
        (commaBefore texts ++ '\x7d' :: rest) =
      resume? (deliver (.object (fields.reverse ++ more)) frames) rest := by
  induction h generalizing fields with
  | nil =>
    rw [commaBefore, List.flatMap_nil, List.nil_append, resume?_mark (by decide), List.append_nil]
    rfl
  | @cons text field texts more hfield hmore ih =>
    have hcomma : step? (.inside (.object fields none :: frames) .commaOrEnd) (.mark ',') =
        some (.inside (.object fields none :: frames) .key) := rfl
    rw [commaBefore_cons, List.cons_append, resume?_mark (by decide), hcomma, Option.bind_some,
      List.append_assoc, resume?_field hfield _ _ _ (.inl rfl)
        (endsWord_commaBefore texts (by decide) rest), ih (field :: fields),
      List.reverse_cons, List.append_assoc, List.singleton_append]

theorem spells_object {texts : List (List Char)} {fields : List (Option String × Json)}
    (h : List.Forall₂ SpellsField texts fields) :
    Spells ('\x7b' :: List.intercalate [','] texts ++ ['\x7d']) (.object fields) := by
  intro frames expected rest hexpected hrest
  have hopen : step? (.inside frames expected) (.mark '\x7b') =
      some (.inside (.object [] none :: frames) .keyOrEnd) := by
    rcases hexpected with rfl | rfl <;> rfl
  rw [List.cons_append, List.cons_append, List.append_assoc, resume?_mark (by decide), hopen,
    Option.bind_some]
  cases h with
  | nil => exact resume?_mark (by decide) _ rest
  | @cons text field texts fields hfield hfields =>
    rw [intercalate_comma, List.append_assoc, List.singleton_append,
      resume?_field hfield _ _ _ (.inr rfl) (endsWord_commaBefore texts (by decide) rest)]
    exact resume?_fields hfields [field] frames rest

/-! ## Whole texts -/

/-- A text that spells a value is read as that value. -/
theorem read?_of_spells {cs : List Char} {value : Json} (h : Spells cs value) :
    read? cs = some value := by
  have hread := h [] .value [] (.inl rfl) nofun
  rw [List.append_nil, resume?_nil, resume?] at hread
  obtain ⟨lexemes, hlexemes, hsteps⟩ := Option.bind_eq_some_iff.mp hread
  simp only [read?, lexemes?, hlexemes, bind, Option.bind]
  simp only [hsteps]
  rfl

end RubyTree.Json
