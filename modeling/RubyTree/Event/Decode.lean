import RubyTree.Event
import RubyTree.Json

/-!
# Events from JSON

An event is an object with the fields `event`, `args`, `line`, `column` and `token`, or an array of
their values in this order, of which those at the end may be missing. A field of another name is
not looked at. An argument is a null, a flag, a string, an array, or an object that has a symbol in
`sym` or an index in `ref`.

Containers may nest 127 deep, counted from the outermost of the text.
-/

namespace RubyTree

/-- The number of containers that may nest. -/
def nestingLimit : Nat := 127

/-- An argument that is written as an object. A `sym` that fits goes before a `ref`. -/
def Arg.ofFields? (fields : List (Option String × Json)) : Option Arg :=
  let named : Option Arg :=
    match Json.valuesOf "sym" fields with
    | [value] => value.text?.map .symbol
    | _ => none
  let numbered : Option Arg :=
    match Json.valuesOf "ref" fields with
    | [value] => value.natural?.map .ref
    | _ => none
  named <|> numbered

mutual

/-- The argument a value stands for, if it nests at most `levels` containers. -/
def Arg.ofJson? (levels : Nat) : Json → Option Arg
  | .null => some .absent
  | .bool flag => some (.bool flag)
  | .string content => content.map .text
  | .number _ => none
  | .array items =>
    match levels with
    | 0 => none
    | levels + 1 => (Arg.allOfJson? levels items).map .list
  | .object fields =>
    match levels with
    | 0 => none
    | levels + 1 => if Json.allFieldsPlain levels fields then Arg.ofFields? fields else none

/-- The arguments that values stand for. -/
def Arg.allOfJson? (levels : Nat) : List Json → Option (List Arg)
  | [] => some []
  | item :: items => do
    let arg ← Arg.ofJson? levels item
    return arg :: (← Arg.allOfJson? levels items)

end

namespace Event

/-- The arguments of an event inside which `levels` more containers may nest. -/
def argsOf? (levels : Nat) : Json → Option (List Arg)
  | .array items =>
    match levels with
    | 0 => none
    | levels + 1 => Arg.allOfJson? levels items
  | _ => none

/-- A token, or null for none. -/
def tokenOf? : Json → Option (Option String)
  | .null => some none
  | .string (some text) => some (some text)
  | _ => none

/-- The value of a field that has a default: at most one may be written. -/
def optional? {α : Type} (default : α) (read : Json → Option α) : List Json → Option α
  | [] => some default
  | [value] => read value
  | _ => none

/-- An event from the values of its fields, each of them absent, written once, or written more
    often, which is refused. -/
def build? (levels : Nat) (event args line column token : List Json) : Option Event := do
  let name ← match event with
    | [value] => value.text?
    | _ => none
  let args ← optional? [] (argsOf? levels) args
  let line ← optional? 0 Json.natural? line
  let column ← optional? 0 Json.natural? column
  let token ← optional? none tokenOf? token
  return { name, args, position := ⟨line, column⟩, token }

/-- The event a value stands for, which may nest `levels` containers. -/
def ofJson? (levels : Nat) : Json → Option Event
  | .object fields =>
    let values (name : String) := Json.valuesOf name fields
    if fields.all fun field => field.1.isSome then
      build? (levels - 1) (values "event") (values "args") (values "line") (values "column")
        (values "token")
    else none
  | .array items =>
    let item (n : Nat) := (items.drop n).take 1
    if items.length ≤ 5 then
      build? (levels - 1) (item 0) (item 1) (item 2) (item 3) (item 4)
    else none
  | _ => none

end Event

end RubyTree
