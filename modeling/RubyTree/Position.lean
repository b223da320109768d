/-!
# Positions and diagnostics

Where an event fired, and what a parser had to say about a line.

Results:

* `Position.left?_eq_some_iff`: the column to the left is one less, on the same line.
-/

namespace RubyTree

/-- A place in a source text. Columns count from zero. -/
structure Position where
  line : Nat
  column : Nat
  deriving DecidableEq

/-- The position one column to the left, if there is one (`previous_column`). -/
def Position.left? (position : Position) : Option Position :=
  match position.column with
  | 0 => none
  | column + 1 => some ⟨position.line, column⟩

theorem Position.left?_eq_some_iff {p q : Position} :
    p.left? = some q ↔ p.line = q.line ∧ p.column = q.column + 1 := by
  obtain ⟨l, c⟩ := p
  obtain ⟨l', c'⟩ := q
  cases c <;> simp [left?]

/-- A message of the parser about a line. It does not stop the building of a tree. -/
structure Diagnostic where
  line : Nat
  message : String
  deriving DecidableEq

/-- A diagnostic as it is shown: `line: message`. -/
def Diagnostic.text (diagnostic : Diagnostic) : String :=
  toString diagnostic.line ++ ": " ++ diagnostic.message

end RubyTree
