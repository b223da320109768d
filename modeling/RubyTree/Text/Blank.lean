/-!
# Blank characters

The white space of Unicode (property `White_Space`) and the cuts made at it.

Results:

* `trimStart_cons_of_not_isBlank`: a text that begins with ink is left alone at its start.
* `trimEnd_concat_of_isBlank`, `trimEnd_concat_of_not_isBlank`: the same at the end.
* `trim_concat_of_isBlank`: a blank at the end makes no difference.
-/

namespace RubyTree.Text

/-- The 25 characters with the Unicode property `White_Space`. Format characters such as U+FEFF
    and U+200B are not among them. -/
def isBlank (c : Char) : Bool :=
  let n := c.toNat
  (9 ≤ n && n ≤ 13) || n == 0x20 || n == 0x85 || n == 0xA0 || n == 0x1680
    || (0x2000 ≤ n && n ≤ 0x200A) || n == 0x2028 || n == 0x2029 || n == 0x202F
    || n == 0x205F || n == 0x3000

/-- The text without the blanks it begins with. -/
def trimStart (cs : List Char) : List Char := cs.dropWhile isBlank

/-- The text without the blanks it ends with. -/
def trimEnd (cs : List Char) : List Char := (cs.reverse.dropWhile isBlank).reverse

/-- The text without the blanks at both ends. -/
def trim (cs : List Char) : List Char := trimEnd (trimStart cs)

@[simp] theorem trimStart_cons_of_not_isBlank {c : Char} {cs : List Char}
    (h : isBlank c = false) : trimStart (c :: cs) = c :: cs := by
  simp [trimStart, h]

theorem trimEnd_concat_of_isBlank {c : Char} (h : isBlank c = true) (cs : List Char) :
    trimEnd (cs ++ [c]) = trimEnd cs := by
  unfold trimEnd
  rw [List.reverse_concat, List.dropWhile_cons_of_pos h]

theorem trimEnd_concat_of_not_isBlank {c : Char} (h : isBlank c = false) (cs : List Char) :
    trimEnd (cs ++ [c]) = cs ++ [c] := by
  unfold trimEnd
  rw [List.reverse_concat, List.dropWhile_cons_of_neg (by simp [h]), List.reverse_cons,
    List.reverse_reverse]

/-- A blank at the end is cut off, even where only blanks are before it. -/
theorem trim_concat_of_isBlank {c : Char} (h : isBlank c = true) (cs : List Char) :
    trim (cs ++ [c]) = trim cs := by
  rw [trim, trim, trimStart, trimStart, List.dropWhile_append]
  split
  · next hblank =>
    rw [List.isEmpty_iff.mp hblank, List.dropWhile_cons_of_pos h]
    rfl
  · exact trimEnd_concat_of_isBlank h _

end RubyTree.Text
