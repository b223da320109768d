import RubyTree.Position

/-!
# Events

One recorded step of a parser: the name of a production, its arguments, the place and the token at
which it fired. An argument may refer to the result of an earlier event by its index.
-/

namespace RubyTree

/-- A recorded argument. -/
inductive Arg where
  | absent
  | bool (flag : Bool)
  | text (text : String)
  | symbol (name : String)
  /-- The result of the event with this index. -/
  | ref (index : Nat)
  | list (items : List Arg)

/-- A recorded event. -/
structure Event where
  name : String
  args : List Arg := []
  position : Position := ⟨0, 0⟩
  token : Option String := none

mutual

/-- The indices an argument refers to, from left to right. -/
def Arg.references : Arg → List Nat
  | .ref index => [index]
  | .list items => Arg.referencesAll items
  | _ => []

/-- The indices that arguments refer to, from left to right. -/
def Arg.referencesAll : List Arg → List Nat
  | [] => []
  | arg :: args => arg.references ++ Arg.referencesAll args

end

end RubyTree
