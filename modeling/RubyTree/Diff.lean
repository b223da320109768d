import RubyTree.Text.Blank
import RubyTree.Text.Lines

/-!
# Comparing dumps

Two texts match when they agree up to blanks at their ends. If they do not, their lines are laid
side by side: a walk back through a table of common lengths chooses lines that stay, and the lines
between them are removed or added.

Results:

* `sameDump_refl`: a text matches itself.
-/

namespace RubyTree.Diff

open Text

/-- A text without the blanks it ends with. -/
def trimmed (text : String) : String := String.ofList (trimEnd text.toList)

/-- Two texts agree up to blanks at their ends (`dumps_match`). -/
def sameDump (expected actual : String) : Bool := trimmed expected == trimmed actual

/-- The pieces of a text between line feeds. -/
def pieces (text : String) : List String := (splitAtFeeds text.toList).map String.ofList

/-! ## The lines that stay -/

/-- The entry of a table for the lines `i` and `j`, from the entries before it. The table is kept
    row after row, and at the border only the neighbours that are there count. -/
def entry (a b : Array String) (table : Array Nat) (i j : Nat) : Nat :=
  let cell (row column : Nat) : Nat := table.getD (row * b.size + column) 0
  if a.getD i "" = b.getD j "" then
    if i = 0 ∨ j = 0 then 1 else cell (i - 1) (j - 1) + 1
  else if i = 0 then (if j = 0 then 0 else cell 0 (j - 1))
  else if j = 0 then cell (i - 1) 0
  else max (cell i (j - 1)) (cell (i - 1) j)

/-- The table of common lengths, row after row. -/
def table (a b : Array String) : Array Nat :=
  (List.range (a.size * b.size)).foldl
    (fun table k => table.push (entry a b table (k / b.size) (k % b.size))) #[]

/-- Walks back from the first `i` and the first `j` lines: equal lines stay, and otherwise the
    greater of two entries of the table shows which line to leave. In the first column, the entry
    to the left is the last one of the row above. -/
def walk (a b : Array String) (table : Array Nat) (kept : List String) : Nat → Nat → List String
  | i + 1, j + 1 =>
    if a.getD i "" = b.getD j "" then walk a b table (a.getD i "" :: kept) i j
    else if i = 0 ∨ table.getD ((i - 1) * b.size + j) 0 < table.getD (i * b.size + j - 1) 0 then
      walk a b table kept (i + 1) j
    else walk a b table kept i (j + 1)
  | _, _ => kept
termination_by i j => i + j

/-- The lines that stay. -/
def common (a b : List String) : List String :=
  walk a.toArray b.toArray (table a.toArray b.toArray) [] a.length b.length

/-! ## Edits -/

/-- What happens to a line. -/
inductive Mark where
  | same
  | removed
  | added
  deriving DecidableEq

/-- The character in front of a line. -/
def Mark.sign : Mark → String
  | same => " "
  | removed => "-"
  | added => "+"

/-- A line and what happens to it. -/
structure Edit where
  mark : Mark
  line : String
  deriving DecidableEq

/-- The edits that lead from one list of lines to the other by way of the lines that stay. -/
def edits (a b : List String) : List String → List Edit
  | [] => a.map (⟨.removed, ·⟩) ++ b.map (⟨.added, ·⟩)
  | line :: lines =>
    (a.takeWhile (· != line)).map (⟨.removed, ·⟩) ++ (b.takeWhile (· != line)).map (⟨.added, ·⟩)
      ++ ⟨.same, line⟩ :: edits (a.dropWhile (· != line)).tail (b.dropWhile (· != line)).tail lines

/-- A single empty line counts as no line. -/
def held (lines : List String) : List String := if lines = [""] then [] else lines

/-- The edits with the same mark next to each other, together. -/
def hunks (edits : List Edit) : List (List Edit) :=
  edits.splitBy fun first second => first.mark == second.mark

/-- A hunk as `print_diff` prints it: its lines are joined into a text, and each line of that text
    follows the sign. An empty line at the end of the hunk is therefore not seen. -/
def Hunk.print (hunk : List Edit) : String :=
  match hunk with
  | [] => ""
  | edit :: _ =>
    String.join ((lines (joinLines (hunk.map Edit.line))).map fun line =>
      edit.mark.sign ++ line ++ "\n")

/-- What is printed when an expected and an actual text differ, and nothing when they do not
    (`print_mismatch`). -/
def mismatch? (expected actual : String) : Option String :=
  let a := pieces (trimmed expected)
  let b := pieces (trimmed actual)
  let kept := common a b
  if a.length + b.length = 2 * kept.length then none
  else
    some ("--- expected\n+++ actual\n"
      ++ String.join ((hunks (edits (held a) (held b) (held kept))).map Hunk.print))

theorem sameDump_refl (text : String) : sameDump text text = true := by simp [sameDump]

end RubyTree.Diff
