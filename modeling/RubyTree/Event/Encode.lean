import RubyTree.Event
import RubyTree.Json.Text

/-!
# Events as JSON

The written form of an event: one object without blanks, its fields in a fixed order, the token only
where there is one.
-/

namespace RubyTree

/-- A natural number in decimal digits. -/
def decimal (n : Nat) : List Char := (toString n).toList

/-- A field name with its colon. -/
def fieldName (name : String) : List Char := Json.quote name.toList ++ [':']

mutual

/-- The written form of an argument. -/
def Arg.encode : Arg → List Char
  | .absent => "null".toList
  | .bool flag => if flag then "true".toList else "false".toList
  | .text content => Json.quote content.toList
  | .symbol name => '\x7b' :: fieldName "sym" ++ Json.quote name.toList ++ ['\x7d']
  | .ref index => '\x7b' :: fieldName "ref" ++ decimal index ++ ['\x7d']
  | .list items => '[' :: Arg.encodeItems items ++ [']']

/-- The written forms of arguments, with commas between them. -/
def Arg.encodeItems : List Arg → List Char
  | [] => []
  | arg :: args => arg.encode ++ Arg.encodeMore args

/-- The written forms of arguments, with a comma before each. -/
def Arg.encodeMore : List Arg → List Char
  | [] => []
  | arg :: args => ',' :: arg.encode ++ Arg.encodeMore args

end

mutual

/-- The number of containers that nest in the written form of an argument. -/
def Arg.nesting : Arg → Nat
  | .symbol _ | .ref _ => 1
  | .list items => Arg.nestingAll items + 1
  | _ => 0

/-- The largest number of containers that nest in arguments. -/
def Arg.nestingAll : List Arg → Nat
  | [] => 0
  | arg :: args => max arg.nesting (Arg.nestingAll args)

end

/-- The written form of an event. -/
def Event.encode (event : Event) : List Char :=
  '\x7b' :: fieldName "event" ++ Json.quote event.name.toList
    ++ ',' :: fieldName "args" ++ (Arg.list event.args).encode
    ++ ',' :: fieldName "line" ++ decimal event.position.line
    ++ ',' :: fieldName "column" ++ decimal event.position.column
    ++ (match event.token with
        | none => []
        | some token => ',' :: fieldName "token" ++ Json.quote token.toList)
    ++ ['\x7d']

/-- Events, one on a line. -/
def encodeLines (events : List Event) : String :=
  String.ofList (events.flatMap fun event => event.encode ++ ['\n'])

/-- Events as one array. -/
def encodeArray (events : List Event) : String :=
  String.ofList ('[' :: List.intercalate [','] (events.map Event.encode) ++ [']'])

end RubyTree
