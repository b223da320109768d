/-!
# Sets of characters

A set of characters is written as the increasing list of the code points at which membership
changes: the first member, the first non-member after it, the next member, and so on.
-/

namespace RubyTree.Text

/-- A set of characters given by the code points at which membership changes. -/
structure CharSet where
  changes : List Nat

/-- A character is a member when an odd number of changes lies at or below it. -/
def CharSet.contains (set : CharSet) (c : Char) : Bool :=
  (set.changes.takeWhile (· ≤ c.toNat)).length % 2 == 1

end RubyTree.Text
