import RubyTree.Diff
import RubyTree.Proofs.Dump.Reading
import RubyTree.Proofs.Weight.Labels

/-!
# Comparing renderings

Two texts are laid side by side by the lines that stay. Nothing is printed exactly when all lines
stay, which is when the texts agree up to blanks at their ends. For renderings of trees that means
that the trees have the same skeleton.

Results:

* `Diff.length_common_iff`: all lines stay exactly when the lines are the same.
* `Diff.mismatch?_eq_none_iff`: the two comparisons agree.
* `Normalized.compared_iff`: renderings compare as equal exactly when the skeletons are equal, and
  all replayed trees are such that this applies.
-/

namespace RubyTree

/-! ## Lines that stay -/

namespace Diff

/-- A walk back finds no more lines than there are on either side, and finds them all only if each
    line of one text is that of the other. -/
theorem length_walk (a b : Array String) (table : Array Nat) (kept : List String) (i j : Nat) :
    2 * (walk a b table kept i j).length ≤ 2 * kept.length + i + j ∧
      (2 * (walk a b table kept i j).length = 2 * kept.length + i + j ↔
        i = j ∧ ∀ k < i, a.getD k "" = b.getD k "") := by
  fun_induction walk a b table kept i j with
  | case1 kept i j hline ih =>
    rw [List.length_cons] at ih
    obtain ⟨hle, heq⟩ := ih
    refine ⟨by omega, ?_⟩
    constructor
    · intro hall
      obtain ⟨rfl, hlines⟩ := heq.mp (by omega)
      refine ⟨rfl, fun k hk => ?_⟩
      rcases Nat.lt_succ_iff_lt_or_eq.mp hk with hk | rfl
      · exact hlines k hk
      · exact hline
    · rintro ⟨hsame, hlines⟩
      obtain rfl : i = j := by omega
      have hall := heq.mpr ⟨rfl, fun k hk => hlines k (by omega)⟩
      omega
  | case2 kept i j hline hleft ih =>
    refine ⟨by omega, iff_of_false (by omega) ?_⟩
    rintro ⟨hsame, hlines⟩
    obtain rfl : i = j := by omega
    exact hline (hlines i (by omega))
  | case3 kept i j hline hleft ih =>
    refine ⟨by omega, iff_of_false (by omega) ?_⟩
    rintro ⟨hsame, hlines⟩
    obtain rfl : i = j := by omega
    exact hline (hlines i (by omega))
  | case4 kept i j hborder =>
    -- one of the two is used up
    cases i with
    | zero => cases j <;> simp
    | succ i =>
      cases j with
      | zero => simp
      | succ j => exact (hborder i j rfl rfl).elim

/-- All lines stay exactly when the lines are the same. -/
theorem length_common_iff (a b : List String) :
    a.length + b.length = 2 * (common a b).length ↔ a = b := by
  have h := (length_walk a.toArray b.toArray (table a.toArray b.toArray) [] a.length b.length).2
  rw [List.length_nil, Nat.mul_zero, Nat.zero_add] at h
  rw [eq_comm, common, h]
  constructor
  · rintro ⟨hlength, hlines⟩
    refine List.ext_getElem hlength fun k hk hk' => ?_
    simpa [List.getElem?_eq_getElem hk, List.getElem?_eq_getElem hk'] using hlines k hk
  · rintro rfl
    exact ⟨rfl, fun _ _ => rfl⟩

theorem pieces_inj {s t : String} : pieces s = pieces t ↔ s = t := by
  unfold pieces
  rw [List.map_inj_right fun _ _ h => String.ofList_inj.mp h, Text.splitAtFeeds_inj,
    String.toList_inj]

/-- The two ways to compare texts agree. -/
theorem mismatch?_eq_none_iff (expected actual : String) :
    mismatch? expected actual = none ↔ sameDump expected actual = true := by
  rw [mismatch?, sameDump, beq_iff_eq, ← pieces_inj, ← length_common_iff]
  simp

end Diff

/-! ## Renderings -/

/-- A dump ends with a parenthesis. -/
theorem Node.exists_dump_eq_concat (root : Node) :
    ∃ front, root.dump.toList = front ++ [')'] := by
  obtain ⟨kind, field, children⟩ := root
  refine ⟨'(' :: kind.name.toList ++ writeChildren 2 [] children, ?_⟩
  rw [dump, String.toList_ofList, write, List.append_assoc, ← writeChildren_append]
  rfl

theorem Node.dump_ne_empty (root : Node) : root.dump ≠ "" := by
  intro h
  obtain ⟨front, hfront⟩ := root.exists_dump_eq_concat
  rw [h] at hfront
  simp at hfront

namespace Normalized

/-- Without the blanks at its end a rendering is the dump, or nothing. -/
theorem trimmed_render (normalized : Normalized) :
    Diff.trimmed normalized.render = normalized.tree.elim "" Node.dump := by
  rw [Diff.trimmed, render, String.toList_append]
  change String.ofList (Text.trimEnd (_ ++ ['\n'])) = _
  rw [Text.trimEnd_concat_of_isBlank (by decide)]
  cases normalized.tree with
  | none => rfl
  | some root =>
    obtain ⟨front, hfront⟩ := root.exists_dump_eq_concat
    rw [Option.elim_some, hfront, Text.trimEnd_concat_of_not_isBlank (by decide), ← hfront,
      String.ofList_toList]

/-- Reads a rendering: no tree, or a skeleton. -/
def read? (text : String) : Option (Option Node) :=
  match Diff.trimmed text with
  | "" => some none
  | dump => (Dump.read? dump.toList).map some

theorem read?_render {normalized : Normalized} (h : normalized.WellLabeled) :
    read? normalized.render = some (normalized.tree.map Node.skeleton) := by
  rw [read?, trimmed_render]
  cases htree : normalized.tree with
  | none => rfl
  | some root =>
    rw [Option.elim_some]
    split
    · next hempty => exact absurd hempty root.dump_ne_empty
    · rw [Dump.read?_dump (h root htree)]
      rfl

theorem render_eq_of_skeleton_eq {a b : Normalized}
    (h : a.tree.map Node.skeleton = b.tree.map Node.skeleton) : a.render = b.render := by
  have hskeleton (normalized : Normalized) : normalized.tree.elim "" Node.dump =
      (normalized.tree.map Node.skeleton).elim "" Node.dump := by
    cases normalized.tree with
    | none => rfl
    | some root => exact root.dump_skeleton.symm
  rw [render, render, hskeleton a, hskeleton b, h]

/-- Renderings compare as equal exactly when there is no tree on either side or the trees have the
    same skeleton. -/
theorem sameDump_render_iff {a b : Normalized} (ha : a.WellLabeled) (hb : b.WellLabeled) :
    Diff.sameDump a.render b.render = true ↔
      a.tree.map Node.skeleton = b.tree.map Node.skeleton := by
  constructor
  · intro h
    rw [Diff.sameDump, beq_iff_eq] at h
    have hread : read? a.render = read? b.render := by rw [read?, read?, h]
    rw [read?_render ha, read?_render hb] at hread
    exact Option.some.inj hread
  · intro h
    rw [render_eq_of_skeleton_eq h]
    exact Diff.sameDump_refl _

/-- The labels of replayed trees are words. Where labels are words, renderings compare as equal, in
    both ways, exactly when the skeletons are equal; and the skeleton can be read off the
    rendering. -/
theorem compared_iff :
    (∀ (events : List Event) (normalized : Normalized),
      replay events = .ok normalized → normalized.WellLabeled) ∧
    ∀ a b : Normalized, a.WellLabeled → b.WellLabeled →
      (Diff.sameDump a.render b.render = true ↔
        a.tree.map Node.skeleton = b.tree.map Node.skeleton) ∧
      (Diff.mismatch? a.render b.render = none ↔
        a.tree.map Node.skeleton = b.tree.map Node.skeleton) ∧
      read? a.render = some (a.tree.map Node.skeleton) := by
  refine ⟨fun _ _ => wellLabeled_of_replay, fun a b ha hb => ?_⟩
  have hsame := sameDump_render_iff ha hb
  exact ⟨hsame, (Diff.mismatch?_eq_none_iff _ _).trans hsame, read?_render ha⟩

/-- A program that assigns a number to a name. -/
def assigning (name : String) : List Event :=
  [{ name := "ident", args := [.text name] }, { name := "var_field", args := [.ref 0] },
    { name := "int", args := [.text "1"] }, { name := "assign", args := [.ref 1, .ref 2] },
    { name := "program", args := [.list [.ref 3]] }]

/-- The tree of such a program. -/
def assigned (name : String) : Normalized where
  tree := some ⟨.program, .unlabeled, [.node ⟨.assignment, .unlabeled,
    [.node ⟨.identifier, .named "left", [.token name]⟩,
      .node ⟨.integerNumber, .named "right", [.token "1"]⟩]⟩]⟩
  diagnostics := []

/-- Names are tokens. -/
theorem compared_assigned :
    replay (assigning "x") = .ok (assigned "x") ∧ replay (assigning "y") = .ok (assigned "y") ∧
      (assigned "x").WellLabeled ∧ (assigned "y").WellLabeled ∧
      Diff.sameDump (assigned "x").render (assigned "y").render = true := by
  have hreplay (name : String) : replay (assigning name) = .ok (assigned name) := rfl
  have hwords (name : String) : (assigned name).WellLabeled :=
    compared_iff.1 _ _ (hreplay name)
  exact ⟨hreplay "x", hreplay "y", hwords "x", hwords "y",
    (compared_iff.2 _ _ (hwords "x") (hwords "y")).1.mpr rfl⟩

end Normalized

end RubyTree
