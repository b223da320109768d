import RubyTree.Json.Lexeme
import RubyTree.Json.Number
import RubyTree.Json.Text

/-!
# JSON values

Strict JSON, read with a stack of the containers that are open. Reading accepts every text that is
well formed, however deep; the limits that some readers of values set are predicates on the value.
-/

namespace RubyTree

/-- A value of JSON. A string has no text when half of a surrogate pair stands alone in it. The
    fields of an object are kept in order, with repetitions. -/
inductive Json where
  | null
  | bool (flag : Bool)
  | number (number : Json.Number)
  | string (text : Option String)
  | array (items : List Json)
  | object (fields : List (Option String × Json))

namespace Json

/-! ## Reading -/

/-- A container that is not closed yet, with its contents in reverse. -/
inductive Frame where
  | array (items : List Json)
  /-- The key is that of the value which comes next. -/
  | object (fields : List (Option String × Json)) (key : Option String)

/-- What may come next inside the innermost container, or at the top. -/
inductive Expected where
  | value
  | valueOrEnd
  | key
  | keyOrEnd
  | colon
  | commaOrEnd
  deriving DecidableEq

/-- How far a reading has come. -/
inductive Reading where
  | inside (frames : List Frame) (expected : Expected)
  | done (value : Json)

/-- Puts a value that is complete in its place. -/
def deliver (value : Json) : List Frame → Reading
  | [] => .done value
  | .array items :: frames => .inside (.array (value :: items) :: frames) .commaOrEnd
  | .object fields key :: frames =>
    .inside (.object ((key, value) :: fields) none :: frames) .commaOrEnd

/-- The value of a bare word. -/
def ofWord? (word : List Char) : Option Json :=
  if word = "null".toList then some .null
  else if word = "true".toList then some (.bool true)
  else if word = "false".toList then some (.bool false)
  else (Number.read? word).map .number

/-- The text of a string, from what stands between its quotes. -/
def stringText? (inside : List Char) : Option (Option String) :=
  (unescape? inside).map fun units => (joinHalves? units).map String.ofList

/-- Closes the innermost container. -/
def close? (c : Char) : List Frame → Option Reading
  | .array items :: frames => if c = ']' then some (deliver (.array items.reverse) frames) else none
  | .object fields _ :: frames =>
    if c = '\x7d' then some (deliver (.object fields.reverse) frames) else none
  | [] => none

/-- A lexeme where a value may stand. -/
def readValue? (frames : List Frame) : Lexeme → Option Reading
  | .bare word => (ofWord? word).map (deliver · frames)
  | .quoted inside => (stringText? inside).map fun text => deliver (.string text) frames
  | .mark c =>
    if c = '[' then some (.inside (.array [] :: frames) .valueOrEnd)
    else if c = '\x7b' then some (.inside (.object [] none :: frames) .keyOrEnd)
    else none

/-- A lexeme where a key may stand. -/
def readKey? (frames : List Frame) : Lexeme → Option Reading
  | .quoted inside =>
    match frames with
    | .object fields _ :: frames =>
      (stringText? inside).map fun key => .inside (.object fields key :: frames) .colon
    | _ => none
  | _ => none

/-- What has to follow a comma in the innermost container. -/
def afterComma? : List Frame → Option Expected
  | .array _ :: _ => some .value
  | .object _ _ :: _ => some .key
  | [] => none

/-- Reads one more lexeme. -/
def step? (reading : Reading) (lexeme : Lexeme) : Option Reading :=
  match reading with
  | .done _ => none
  | .inside frames expected =>
    match expected, lexeme with
    | .value, lexeme => readValue? frames lexeme
    | .valueOrEnd, .mark ']' => close? ']' frames
    | .valueOrEnd, lexeme => readValue? frames lexeme
    | .key, lexeme => readKey? frames lexeme
    | .keyOrEnd, .mark '\x7d' => close? '\x7d' frames
    | .keyOrEnd, lexeme => readKey? frames lexeme
    | .colon, lexeme => if lexeme = .mark ':' then some (.inside frames .value) else none
    | .commaOrEnd, .mark ',' => (afterComma? frames).map (.inside frames)
    | .commaOrEnd, .mark c => close? c frames
    | .commaOrEnd, _ => none

/-- Reads a whole text as one value. -/
def read? (text : List Char) : Option Json := do
  match ← (← lexemes? text).foldlM step? (.inside [] .value) with
  | .done value => some value
  | .inside _ _ => none

/-! ## Limits -/

mutual

/-- The value nests at most `levels` containers, every string in it has a text, and every number is
    in the floating-point range. -/
def isPlain (levels : Nat) : Json → Bool
  | null | bool _ => true
  | number n => n.inRange
  | string text => text.isSome
  | array items =>
    match levels with
    | 0 => false
    | levels + 1 => allPlain levels items
  | object fields =>
    match levels with
    | 0 => false
    | levels + 1 => allFieldsPlain levels fields

/-- Each of the values is plain. -/
def allPlain (levels : Nat) : List Json → Bool
  | [] => true
  | item :: items => isPlain levels item && allPlain levels items

/-- The keys have texts too. -/
def allFieldsPlain (levels : Nat) : List (Option String × Json) → Bool
  | [] => true
  | (key, value) :: fields => key.isSome && isPlain levels value && allFieldsPlain levels fields

end

/-- The values of the fields called `name`. -/
def valuesOf (name : String) (fields : List (Option String × Json)) : List Json :=
  fields.filterMap fun (key, value) => if key = some name then some value else none

/-- The natural number a value is. -/
def natural? : Json → Option Nat
  | number n => n.natural?
  | _ => none

/-- The text of a string. -/
def text? : Json → Option String
  | string text => text
  | _ => none

end Json

end RubyTree
