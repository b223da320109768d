import Mathlib.Order.Bounds.Basic
import RubyTree.CommandLine
import RubyTree.Proofs.Dump.Comparison

/-!
# Two ways to check a dump

The command that checks a stream against a dump looks for edits that lead from one text to the
other, while a suite compares the two texts. Both come to the same verdict.

An edit script says of each line whether it stays, is removed or is added. The edits that the
command looks at are such a script, by way of lines that both texts have in common. It need not be
the shortest one; but a script without changes leads from a text to the text itself, so it does not
matter for the verdict how short the script is.

Results:

* `Diff.isLeast_changes_zero_iff`: the least number of changes is zero exactly between equal lines.
* `Diff.isScript_edits_common`, `Diff.isSome_mismatch?_iff_changes`: what the command looks at is a
  script, and what it reports are changes in it.
* `check_succeeds_iff`: the two verdicts.
-/

namespace RubyTree

namespace Diff

/-! ## Edit scripts -/

/-- The lines before the edits. -/
def oldLines (script : List Edit) : List String :=
  (script.filter (·.mark != .added)).map Edit.line

/-- The lines after the edits. -/
def newLines (script : List Edit) : List String :=
  (script.filter (·.mark != .removed)).map Edit.line

/-- The number of lines that are removed or added. -/
def changes (script : List Edit) : Nat := script.countP (·.mark != .same)

/-- The edits lead from the lines `a` to the lines `b`. -/
structure IsScript (script : List Edit) (a b : List String) : Prop where
  old : oldLines script = a
  new : newLines script = b

theorem oldLines_append (front back : List Edit) :
    oldLines (front ++ back) = oldLines front ++ oldLines back := by
  rw [oldLines, List.filter_append, List.map_append, ← oldLines, ← oldLines]

theorem newLines_append (front back : List Edit) :
    newLines (front ++ back) = newLines front ++ newLines back := by
  rw [newLines, List.filter_append, List.map_append, ← newLines, ← newLines]

theorem changes_append (front back : List Edit) :
    changes (front ++ back) = changes front + changes back := List.countP_append

/-- Lines with the same mark. -/
theorem isScript_map (mark : Mark) (lines : List String) :
    IsScript (lines.map (⟨mark, ·⟩)) (if mark = .added then [] else lines)
      (if mark = .removed then [] else lines) := by
  cases mark <;> constructor <;>
    simp [oldLines, newLines, List.filter_map, Function.comp_def]

theorem changes_map (mark : Mark) (lines : List String) :
    changes (lines.map (⟨mark, ·⟩)) = if mark = .same then 0 else lines.length := by
  cases mark <;> simp [changes, List.countP_map, Function.comp_def]

theorem IsScript.append {front back : List Edit} {a b c d : List String}
    (hfront : IsScript front a b) (hback : IsScript back c d) :
    IsScript (front ++ back) (a ++ c) (b ++ d) :=
  ⟨by rw [oldLines_append, hfront.old, hback.old], by rw [newLines_append, hfront.new, hback.new]⟩

/-- Without changes nothing is removed or added. -/
theorem IsScript.eq_of_changes_eq_zero {script : List Edit} {a b : List String}
    (h : IsScript script a b) (hchanges : changes script = 0) : a = b := by
  have hsame : ∀ edit ∈ script, edit.mark = .same := by
    simpa [changes, List.countP_eq_zero] using hchanges
  have hold : script.filter (·.mark != .added) = script :=
    List.filter_eq_self.mpr fun edit hedit => by simp [hsame edit hedit]
  have hnew : script.filter (·.mark != .removed) = script :=
    List.filter_eq_self.mpr fun edit hedit => by simp [hsame edit hedit]
  rw [← h.old, ← h.new, oldLines, newLines, hold, hnew]

/-- However short scripts can be made, they are without changes only between equal lines. -/
theorem isLeast_changes_zero_iff (a b : List String) :
    IsLeast {n | ∃ script, IsScript script a b ∧ changes script = n} 0 ↔ a = b := by
  constructor
  · rintro ⟨⟨script, hscript, hchanges⟩, -⟩
    exact hscript.eq_of_changes_eq_zero hchanges
  · rintro rfl
    exact ⟨⟨_, isScript_map .same a, changes_map .same a⟩, fun n _ => n.zero_le⟩

/-! ## The edits of a comparison -/

/-- A line that stays is found at its first occurrence, and what stays behind it behind that. -/
theorem takeWhile_append_of_sublist {line : String} {kept lines : List String}
    (h : (line :: kept).Sublist lines) :
    lines.takeWhile (· != line) ++ line :: (lines.dropWhile (· != line)).tail = lines ∧
      kept.Sublist (lines.dropWhile (· != line)).tail := by
  induction lines with
  | nil => cases h
  | cons first lines ih =>
    by_cases hline : first = line
    · subst hline
      simpa using List.cons_sublist_cons.mp h
    · have hbehind : (line :: kept).Sublist lines := by
        cases h with
        | cons _ hbehind => exact hbehind
        | cons_cons => exact absurd rfl hline
      obtain ⟨hcut, hrest⟩ := ih hbehind
      simp [hline, hcut, hrest]

/-- Edits by way of lines in common are a script. By induction on the lines in common. -/
theorem isScript_edits {kept a b : List String} (ha : kept.Sublist a) (hb : kept.Sublist b) :
    IsScript (edits a b kept) a b := by
  induction kept generalizing a b with
  | nil =>
    have hscript := (isScript_map .removed a).append (isScript_map .added b)
    simpa [edits] using hscript
  | cons line kept ih =>
    obtain ⟨hcuta, hresta⟩ := takeWhile_append_of_sublist ha
    obtain ⟨hcutb, hrestb⟩ := takeWhile_append_of_sublist hb
    have hfront := (isScript_map .removed (a.takeWhile (· != line))).append
      (isScript_map .added (b.takeWhile (· != line)))
    have hscript := hfront.append ((isScript_map .same [line]).append (ih hresta hrestb))
    simpa [edits, hcuta, hcutb] using hscript

/-- Each line that stays saves two changes. -/
theorem changes_edits {kept a b : List String} (ha : kept.Sublist a) (hb : kept.Sublist b) :
    changes (edits a b kept) + 2 * kept.length = a.length + b.length := by
  induction kept generalizing a b with
  | nil => simp [edits, changes_append, changes_map]
  | cons line kept ih =>
    obtain ⟨hcuta, hresta⟩ := takeWhile_append_of_sublist ha
    obtain ⟨hcutb, hrestb⟩ := takeWhile_append_of_sublist hb
    have hrest := ih hresta hrestb
    have hlengtha := congrArg List.length hcuta
    have hlengthb := congrArg List.length hcutb
    have hline (script : List Edit) : changes (⟨.same, line⟩ :: script) = changes script := by
      simp [changes]
    rw [edits, changes_append, changes_append, changes_map, changes_map, hline]
    simp only [List.length_append, List.length_cons, reduceCtorEq, if_false] at hlengtha hlengthb ⊢
    omega

theorem cons_sublist_drop {lines : Array String} {kept : List String} {i : Nat}
    (hi : i < lines.size) (h : kept.Sublist (lines.toList.drop (i + 1))) :
    (lines.getD i "" :: kept).Sublist (lines.toList.drop i) := by
  have hline : lines.getD i "" = lines.toList[i] := by simp [hi]
  rw [hline, List.drop_eq_getElem_cons hi]
  exact h.cons_cons _

/-- The walk back keeps lines that are in both texts, in their order. -/
theorem sublist_walk (a b : Array String) (table : Array Nat) {kept : List String} {i j : Nat}
    (hi : i ≤ a.size) (hj : j ≤ b.size) (ha : kept.Sublist (a.toList.drop i))
    (hb : kept.Sublist (b.toList.drop j)) :
    (walk a b table kept i j).Sublist a.toList ∧ (walk a b table kept i j).Sublist b.toList := by
  fun_induction walk a b table kept i j with
  | case1 kept i j hline ih =>
    refine ih (by omega) (by omega) (cons_sublist_drop hi ha) ?_
    rw [hline]
    exact cons_sublist_drop hj hb
  | case2 kept i j hline hleft ih =>
    exact ih hi (by omega) ha (hb.trans (List.drop_sublist_drop_left _ (by omega)))
  | case3 kept i j hline hleft ih =>
    exact ih (by omega) hj (ha.trans (List.drop_sublist_drop_left _ (by omega))) hb
  | case4 kept i j hborder =>
    exact ⟨ha.trans (List.drop_sublist i _), hb.trans (List.drop_sublist j _)⟩

theorem sublist_common (a b : List String) :
    (common a b).Sublist a ∧ (common a b).Sublist b :=
  sublist_walk a.toArray b.toArray (table a.toArray b.toArray) (Nat.le_refl _) (Nat.le_refl _)
    (List.nil_sublist _) (List.nil_sublist _)

/-- The edits that the command looks at lead from one text to the other. -/
theorem isScript_edits_common (a b : List String) : IsScript (edits a b (common a b)) a b :=
  isScript_edits (sublist_common a b).1 (sublist_common a b).2

/-- It reports a difference exactly when there are changes among them. -/
theorem isSome_mismatch?_iff_changes (expected actual : String) :
    (mismatch? expected actual).isSome = true ↔
      changes (edits (pieces (trimmed expected)) (pieces (trimmed actual))
        (common (pieces (trimmed expected)) (pieces (trimmed actual)))) ≠ 0 := by
  rw [Option.isSome_iff_ne_none, mismatch?]
  generalize pieces (trimmed expected) = a
  generalize pieces (trimmed actual) = b
  obtain ⟨ha, hb⟩ := sublist_common a b
  have hchanges := changes_edits ha hb
  by_cases hall : a.length + b.length = 2 * (common a b).length
  · exact iff_of_false (fun h => h (if_pos hall)) (by omega)
  · exact iff_of_true (fun h => by rw [if_neg hall] at h; cases h) (by omega)

end Diff

/-! ## The two verdicts -/

/-- The case for a stream and a dump that lists the diagnostics of the stream itself. -/
def Case.listing (normalized : Normalized) (name events expected : String) (skip only : Bool) :
    Case where
  name
  events
  expected
  diagnostics := normalized.diagnostics.map Diagnostic.text
  skip
  only

theorem Suite.verdictOf_listing_iff {normalized : Normalized} {events : String}
    (h : normalize events = .ok normalized) (name expected : String) (skip only : Bool) :
    verdictOf (.listing normalized name events expected skip only) = .passed ↔
      Diff.sameDump expected normalized.render = true := by
  cases hsame : Diff.sameDump expected normalized.render <;>
    simp [verdictOf, Case.listing, h, hsame]

/-- The command succeeds on a stream that replays and a dump between which it sees no changes. -/
theorem CommandLine.status_run_check_iff (files : Files) (colors : Bool)
    (events expected : String) :
    (run files colors (.check events expected)).status = 0 ↔
      ∃ stream dump normalized, files.text? events = some stream ∧
        files.text? expected = some dump ∧ normalize stream = .ok normalized ∧
        Diff.mismatch? dump normalized.render = none := by
  simp only [run, perform, check, normalizeFile, bind, Except.bind]
  cases hevents : files.text? events with
  | none => simp
  | some stream =>
    cases hnormalize : normalize stream with
    | error error => simp [hnormalize]
    | ok normalized =>
      cases hexpected : files.text? expected with
      | none => simp [hnormalize]
      | some dump =>
        cases hmismatch : Diff.mismatch? dump normalized.render <;>
          simp [hnormalize, hmismatch, pure, Except.pure]

/-- Of two texts, the edits of the command have changes exactly if the suites hold the texts for
    different, and the same goes for the least number of changes between them. So the command
    succeeds exactly if both files are there, the stream replays, and a suite in which a case lists
    the diagnostics of the stream would pass that case. -/
theorem check_succeeds_iff :
    (∀ expected actual : String,
      ((Diff.mismatch? expected actual).isSome = true ↔ Diff.sameDump expected actual = false) ∧
      (IsLeast {n | ∃ script, Diff.IsScript script (Diff.pieces (Diff.trimmed expected))
          (Diff.pieces (Diff.trimmed actual)) ∧ Diff.changes script = n} 0 ↔
        Diff.sameDump expected actual = true)) ∧
    ∀ (files : Files) (colors : Bool) (events expected name : String) (skip only : Bool),
      (CommandLine.run files colors (.check events expected)).status = 0 ↔
        ∃ stream dump normalized, files.text? events = some stream ∧
          files.text? expected = some dump ∧ normalize stream = .ok normalized ∧
          Suite.verdictOf (.listing normalized name stream dump skip only) = .passed := by
  refine ⟨fun expected actual => ⟨?_, ?_⟩, ?_⟩
  · rw [Option.isSome_iff_ne_none, ne_eq, Diff.mismatch?_eq_none_iff, Bool.not_eq_true]
  · rw [Diff.isLeast_changes_zero_iff, Diff.pieces_inj, Diff.sameDump, beq_iff_eq]
  · intro files colors events expected name skip only
    rw [CommandLine.status_run_check_iff]
    constructor
    · rintro ⟨stream, dump, normalized, hevents, hexpected, hnormalize, hmismatch⟩
      refine ⟨stream, dump, normalized, hevents, hexpected, hnormalize, ?_⟩
      rw [Suite.verdictOf_listing_iff hnormalize, ← Diff.mismatch?_eq_none_iff, hmismatch]
    · rintro ⟨stream, dump, normalized, hevents, hexpected, hnormalize, hpassed⟩
      refine ⟨stream, dump, normalized, hevents, hexpected, hnormalize, ?_⟩
      rwa [Diff.mismatch?_eq_none_iff, ← Suite.verdictOf_listing_iff hnormalize name _ skip only]

end RubyTree
