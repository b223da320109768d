import Mathlib.Algebra.Order.BigOperators.Group.List
import Mathlib.Algebra.Order.Group.Nat
import Mathlib.Data.List.SplitBy
import RubyTree.Proofs.Suite.Agreement

/-!
# Reading a printed comparison

The edits between two texts are printed hunk by hunk, each line behind the sign of its mark. What is
printed can be read again: the lines that stay or are removed should be the old lines, and those
that stay or are added the new ones. The edits themselves are such a script, but the lines of a hunk
are joined into a text before they are printed, and the lines of that text are not always those of
the hunk: an empty line at the end is lost, and so is a carriage return at the end of a line that
another one follows.

Results:

* `readEdits_of_mismatch?`: what is read are the lines of the texts of the hunks.
* `shown_eq_self_iff`: which hunks are printed as they are.
* `faithful_iff`: a printed comparison is faithful exactly when each hunk is.
-/

namespace RubyTree.Diff

open Text

/-! ## Specification -/

/-- The lines of a text without the blanks at its end. A text without ink has none. -/
def linesOf (text : String) : List String := held (pieces (trimmed text))

/-- The edits between two texts. -/
def editsOf (expected actual : String) : List Edit :=
  edits (linesOf expected) (linesOf actual)
    (held (common (pieces (trimmed expected)) (pieces (trimmed actual))))

/-- The edit that a printed line shows, by its sign. -/
def Edit.ofLine? : List Char → Option Edit
  | ' ' :: line => some ⟨.same, String.ofList line⟩
  | '-' :: line => some ⟨.removed, String.ofList line⟩
  | '+' :: line => some ⟨.added, String.ofList line⟩
  | _ => none

/-- The edits that an output shows behind its two header lines. -/
def readEdits (output : String) : List Edit :=
  ((splitAtFeeds output.toList).drop 2).filterMap Edit.ofLine?

/-- The lines that stay or are removed are the expected ones, and the lines that stay or are added
    are the actual ones. -/
def IsFaithful (expected actual output : String) : Prop :=
  IsScript (readEdits output) (linesOf expected) (linesOf actual)

/-- The last line is not empty, and no other line ends with a carriage return. -/
structure PrintsWhole (hunk : List Edit) : Prop where
  last : hunk.getLast?.map Edit.line ≠ some ""
  before : ∀ edit ∈ hunk.dropLast, edit.line.toList.getLast? ≠ some '\r'

/-! ## The edits -/

theorem pieces_ne_nil (text : String) : pieces text ≠ [] := by
  simp [pieces, splitAtFeeds_ne_nil]

theorem held_sublist {kept lines : List String} (h : kept.Sublist lines) :
    (held kept).Sublist (held lines) := by
  by_cases hlines : lines = [""]
  · subst hlines
    rcases List.sublist_singleton.mp h with rfl | rfl
    · exact List.Sublist.refl _
    · exact List.Sublist.refl _
  · rw [held, held, if_neg hlines]
    split
    · exact List.nil_sublist lines
    · exact h

theorem held_inj {lines others : List String} (hlines : lines ≠ []) (hothers : others ≠ []) :
    held lines = held others ↔ lines = others := by
  unfold held
  split <;> split <;> simp_all [eq_comm]

/-- Nothing is lost before the edits are printed. -/
theorem isScript_editsOf (expected actual : String) :
    IsScript (editsOf expected actual) (linesOf expected) (linesOf actual) := by
  obtain ⟨ha, hb⟩ := sublist_common (pieces (trimmed expected)) (pieces (trimmed actual))
  exact isScript_edits (held_sublist ha) (held_sublist hb)

theorem not_mem_of_mem_linesOf {text line : String} (h : line ∈ linesOf text) :
    '\n' ∉ line.toList := by
  have hpiece : line ∈ pieces (trimmed text) := by
    unfold linesOf held at h
    split at h
    · cases h
    · exact h
  obtain ⟨piece, hmem, rfl⟩ := List.mem_map.mp hpiece
  rw [String.toList_ofList]
  exact not_mem_of_mem_splitAtFeeds hmem

theorem mem_oldLines_or_mem_newLines {script : List Edit} {edit : Edit} (h : edit ∈ script) :
    edit.line ∈ oldLines script ∨ edit.line ∈ newLines script := by
  by_cases hmark : edit.mark = .added
  · right
    exact List.mem_map.mpr ⟨edit, List.mem_filter.mpr ⟨h, by simp [hmark]⟩, rfl⟩
  · left
    exact List.mem_map.mpr ⟨edit, List.mem_filter.mpr ⟨h, by simpa using hmark⟩, rfl⟩

theorem not_mem_of_mem_editsOf {expected actual : String} {edit : Edit}
    (h : edit ∈ editsOf expected actual) : '\n' ∉ edit.line.toList := by
  obtain ⟨hold, hnew⟩ := isScript_editsOf expected actual
  rcases mem_oldLines_or_mem_newLines h with hline | hline
  · exact not_mem_of_mem_linesOf (hold ▸ hline)
  · exact not_mem_of_mem_linesOf (hnew ▸ hline)

/-! ## What is printed -/

/-- An edit on a line of its own. -/
def Edit.print (edit : Edit) : String := edit.mark.sign ++ edit.line ++ "\n"

/-- The edits that a hunk is printed as. -/
def Hunk.shown : List Edit → List Edit
  | [] => []
  | edit :: hunk =>
    (lines (joinLines ((edit :: hunk).map Edit.line))).map (⟨edit.mark, ·⟩)

theorem Hunk.toList_print (hunk : List Edit) :
    (Hunk.print hunk).toList = (Hunk.shown hunk).flatMap fun edit => edit.print.toList := by
  cases hunk with
  | nil => rfl
  | cons edit hunk =>
    simp [Hunk.print, Hunk.shown, Edit.print, String.toList_join, List.flatMap_map]

/-- The edits that are printed, hunk by hunk. -/
def shownEdits (script : List Edit) : List Edit := (hunks script).flatMap Hunk.shown

theorem toList_of_mismatch? {expected actual output : String}
    (h : mismatch? expected actual = some output) :
    output.toList = "--- expected\n+++ actual\n".toList ++
      (shownEdits (editsOf expected actual)).flatMap fun edit => edit.print.toList := by
  rw [mismatch?, Option.ite_none_left_eq_some] at h
  obtain ⟨-, hprinted⟩ := h
  obtain rfl := Option.some.inj hprinted
  simp only [String.toList_append, String.toList_join, List.flatMap_map, Hunk.toList_print,
    shownEdits, List.flatMap_assoc]
  rfl

theorem Edit.ofLine?_sign (edit : Edit) :
    Edit.ofLine? (edit.mark.sign.toList ++ edit.line.toList) = some edit := by
  obtain ⟨mark, line⟩ := edit
  cases mark <;> simp [Edit.ofLine?, Mark.sign]

/-- Edits that were printed line by line are read again. -/
theorem filterMap_splitAtFeeds_print {script : List Edit}
    (h : ∀ edit ∈ script, '\n' ∉ edit.line.toList) :
    (splitAtFeeds (script.flatMap fun edit => edit.print.toList)).filterMap Edit.ofLine? =
      script := by
  induction script with
  | nil => rfl
  | cons edit script ih =>
    obtain ⟨hedit, hscript⟩ := List.forall_mem_cons.mp h
    have hfeed : '\n' ∉ edit.mark.sign.toList ++ edit.line.toList := by
      rw [List.mem_append, not_or]
      exact ⟨by cases edit.mark <;> decide, hedit⟩
    have hprint : edit.print.toList = edit.mark.sign.toList ++ edit.line.toList ++ ['\n'] := by
      simp [Edit.print]
    rw [List.flatMap_cons, hprint, List.append_assoc, List.singleton_append,
      splitAtFeeds_append_feed hfeed, List.filterMap_cons_some edit.ofLine?_sign, ih hscript]

theorem not_mem_of_mem_shownEdits {script : List Edit} {edit : Edit}
    (h : edit ∈ shownEdits script) : '\n' ∉ edit.line.toList := by
  obtain ⟨hunk, -, hedit⟩ := List.mem_flatMap.mp h
  cases hunk with
  | nil => cases hedit
  | cons first hunk =>
    obtain ⟨line, hline, rfl⟩ := List.mem_map.mp hedit
    obtain ⟨chars, hchars, rfl⟩ := List.mem_map.mp hline
    rw [String.toList_ofList]
    exact not_mem_of_mem_closeLines (fun _ => not_mem_of_mem_splitAtFeeds) chars hchars

/-- What is read from an output are the edits of its hunks, as they are shown. -/
theorem readEdits_of_mismatch? {expected actual output : String}
    (h : mismatch? expected actual = some output) :
    readEdits output = shownEdits (editsOf expected actual) := by
  have hheader : "--- expected\n+++ actual\n".toList =
      "--- expected".toList ++ '\n' :: ("+++ actual".toList ++ ['\n']) := by decide
  rw [readEdits, toList_of_mismatch? h, hheader]
  simp only [List.append_assoc, List.cons_append, List.nil_append]
  rw [splitAtFeeds_append_feed (by decide), splitAtFeeds_append_feed (by decide)]
  exact filterMap_splitAtFeeds_print fun edit hedit => not_mem_of_mem_shownEdits hedit

/-! ## The lines of a hunk -/

/-- Lines with the same mark. -/
def marked (mark : Mark) (lines : List (List Char)) : List Edit :=
  lines.map fun line => ⟨mark, String.ofList line⟩

theorem marked_injective (mark : Mark) : Function.Injective (marked mark) :=
  List.map_injective_iff.mpr fun _ _ h => String.ofList_inj.mp (Edit.mk.inj h).2

theorem mark_eq_of_isChain {edit : Edit} {hunk : List Edit}
    (h : (edit :: hunk).IsChain fun first second => (first.mark == second.mark) = true) :
    ∀ other ∈ edit :: hunk, other.mark = edit.mark := by
  induction hunk generalizing edit with
  | nil => simp
  | cons next hunk ih =>
    obtain ⟨hnext, hchain⟩ := List.isChain_cons_cons.mp h
    refine List.forall_mem_cons.mpr ⟨rfl, fun other hother => ?_⟩
    rw [ih hchain other hother]
    exact (beq_iff_eq.mp hnext).symm

/-- The edits of a hunk have the same mark. -/
theorem exists_eq_marked {script hunk : List Edit}
    (hlines : ∀ edit ∈ script, '\n' ∉ edit.line.toList) (h : hunk ∈ hunks script) :
    ∃ mark lines, hunk = marked mark lines ∧ lines ≠ [] ∧ ∀ line ∈ lines, '\n' ∉ line := by
  have hmem : ∀ edit ∈ hunk, edit ∈ script := fun edit hedit => by
    rw [← List.flatten_splitBy (fun first second => first.mark == second.mark) script]
    exact List.mem_flatten.mpr ⟨hunk, h, hedit⟩
  have hchain := List.isChain_of_mem_splitBy h
  have hnonempty : hunk ≠ [] := fun hnil => List.nil_notMem_splitBy _ _ (hnil ▸ h)
  obtain ⟨edit, rest, rfl⟩ := List.exists_cons_of_ne_nil hnonempty
  have hmark := mark_eq_of_isChain hchain
  refine ⟨edit.mark, (edit :: rest).map (·.line.toList), ?_, List.cons_ne_nil _ _, ?_⟩
  · rw [marked, List.map_map]
    refine (List.map_id _).symm.trans (List.map_congr_left fun other hother => ?_)
    rw [Function.comp_apply, String.ofList_toList, ← hmark other hother]
    rfl
  · intro line hline
    obtain ⟨other, hother, rfl⟩ := List.mem_map.mp hline
    exact hlines other (hmem other hother)

theorem shown_marked {mark : Mark} {lines : List (List Char)} (hne : lines ≠ [])
    (h : ∀ line ∈ lines, '\n' ∉ line) :
    Hunk.shown (marked mark lines) = marked mark (closeLines lines) := by
  obtain ⟨line, rest, rfl⟩ := List.exists_cons_of_ne_nil hne
  have htext : (joinLines ((marked mark (line :: rest)).map Edit.line)).toList =
      List.intercalate ['\n'] (line :: rest) := by
    simp [joinLines, marked, Function.comp_def]
  change (Text.lines (joinLines ((marked mark (line :: rest)).map Edit.line))).map
    (Edit.mk mark) = _
  rw [Text.lines, htext, splitLines, splitAtFeeds_intercalate hne h, List.map_map]
  rfl

theorem printsWhole_marked_iff {mark : Mark} {lines : List (List Char)} :
    PrintsWhole (marked mark lines) ↔ closeLines lines = lines := by
  have hlast : (marked mark lines).getLast?.map Edit.line ≠ some "" ↔ lines.getLast? ≠ some [] := by
    rw [marked, List.getLast?_map]
    cases lines.getLast? <;> simp
  have hbefore : (∀ edit ∈ (marked mark lines).dropLast, edit.line.toList.getLast? ≠ some '\r') ↔
      ∀ line ∈ lines.dropLast, line.getLast? ≠ some '\r' := by
    simp [marked, ← List.map_dropLast]
  rw [closeLines_eq_self_iff, ← hlast, ← hbefore]
  exact ⟨fun ⟨last, before⟩ => ⟨last, before⟩, fun ⟨last, before⟩ => ⟨last, before⟩⟩

theorem printsWhole_singleton {edit : Edit} (h : edit.line ≠ "") : PrintsWhole [edit] where
  last := by simpa using h
  before := by simp

/-- A hunk is shown as it is exactly when it is printed whole. -/
theorem shown_eq_self_iff {script hunk : List Edit}
    (hlines : ∀ edit ∈ script, '\n' ∉ edit.line.toList) (h : hunk ∈ hunks script) :
    Hunk.shown hunk = hunk ↔ PrintsWhole hunk := by
  obtain ⟨mark, lines, rfl, hne, hfeed⟩ := exists_eq_marked hlines h
  rw [shown_marked hne hfeed, printsWhole_marked_iff, (marked_injective mark).eq_iff]

/-! ## Faithful outputs -/

theorem isScript_marked (mark : Mark) (lines : List (List Char)) :
    IsScript (marked mark lines) (if mark = .added then [] else lines.map String.ofList)
      (if mark = .removed then [] else lines.map String.ofList) := by
  have hscript := isScript_map mark (lines.map String.ofList)
  rwa [List.map_map] at hscript

theorem oldLines_flatMap {α : Type} (f : α → List Edit) (items : List α) :
    oldLines (items.flatMap f) = items.flatMap fun item => oldLines (f item) := by
  simp [oldLines, List.filter_flatMap, List.map_flatMap]

theorem newLines_flatMap {α : Type} (f : α → List Edit) (items : List α) :
    newLines (items.flatMap f) = items.flatMap fun item => newLines (f item) := by
  simp [newLines, List.filter_flatMap, List.map_flatMap]

theorem flatMap_hunks (script : List Edit) : (hunks script).flatMap id = script := by
  rw [List.flatMap_id, hunks, List.flatten_splitBy]

/-- No hunk shows more lines than it has, so no other hunk can make up for one that is lost. -/
theorem flatMap_eq_of_length_le {α β : Type} {f g : α → List β} {items : List α}
    (hle : ∀ item ∈ items, (f item).length ≤ (g item).length)
    (h : items.flatMap f = items.flatMap g) : ∀ item ∈ items, f item = g item := by
  induction items with
  | nil => exact nofun
  | cons item items ih =>
    obtain ⟨hitem, hitems⟩ := List.forall_mem_cons.mp hle
    rw [List.flatMap_cons, List.flatMap_cons] at h
    have hrest : (items.flatMap f).length ≤ (items.flatMap g).length := by
      rw [List.length_flatMap, List.length_flatMap]
      exact List.sum_le_sum hitems
    have hlength := congrArg List.length h
    rw [List.length_append, List.length_append] at hlength
    obtain ⟨hfirst, hothers⟩ := List.append_inj h (by omega)
    exact List.forall_mem_cons.mpr ⟨hfirst, ih hitems hothers⟩

/-- A hunk shows at most its lines on either side. -/
theorem length_shown_le {script hunk : List Edit}
    (hlines : ∀ edit ∈ script, '\n' ∉ edit.line.toList) (h : hunk ∈ hunks script) :
    (oldLines (Hunk.shown hunk)).length ≤ (oldLines hunk).length ∧
      (newLines (Hunk.shown hunk)).length ≤ (newLines hunk).length := by
  obtain ⟨mark, lines, rfl, hne, hfeed⟩ := exists_eq_marked hlines h
  have hlength := length_closeLines_le lines
  rw [shown_marked hne hfeed, (isScript_marked mark _).old, (isScript_marked mark _).old,
    (isScript_marked mark _).new, (isScript_marked mark _).new]
  cases mark <;> simpa using hlength

/-- The lines that a hunk shows on one side at least tell whether it is printed whole. -/
theorem printsWhole_of_sides {script hunk : List Edit}
    (hlines : ∀ edit ∈ script, '\n' ∉ edit.line.toList) (h : hunk ∈ hunks script)
    (hold : oldLines (Hunk.shown hunk) = oldLines hunk)
    (hnew : newLines (Hunk.shown hunk) = newLines hunk) : PrintsWhole hunk := by
  obtain ⟨mark, lines, rfl, hne, hfeed⟩ := exists_eq_marked hlines h
  have hinj : Function.Injective (List.map String.ofList) :=
    List.map_injective_iff.mpr fun _ _ => String.ofList_inj.mp
  rw [shown_marked hne hfeed, (isScript_marked mark _).old, (isScript_marked mark _).old] at hold
  rw [shown_marked hne hfeed, (isScript_marked mark _).new, (isScript_marked mark _).new] at hnew
  rw [printsWhole_marked_iff]
  cases mark with
  | same | removed => exact hinj hold
  | added => exact hinj hnew

theorem isScript_shownEdits_iff {script : List Edit} {a b : List String}
    (hlines : ∀ edit ∈ script, '\n' ∉ edit.line.toList) (h : IsScript script a b) :
    IsScript (shownEdits script) a b ↔ ∀ hunk ∈ hunks script, PrintsWhole hunk := by
  have hall := flatMap_hunks script
  constructor
  · rintro ⟨hold, hnew⟩
    rw [← h.old, ← congrArg oldLines hall, shownEdits, oldLines_flatMap, oldLines_flatMap] at hold
    rw [← h.new, ← congrArg newLines hall, shownEdits, newLines_flatMap, newLines_flatMap] at hnew
    have holds := flatMap_eq_of_length_le (fun _ hhunk => (length_shown_le hlines hhunk).1) hold
    have hnews := flatMap_eq_of_length_le (fun _ hhunk => (length_shown_le hlines hhunk).2) hnew
    exact fun hunk hhunk =>
      printsWhole_of_sides hlines hhunk (holds hunk hhunk) (hnews hunk hhunk)
  · intro hwhole
    have hshown : shownEdits script = script := by
      conv_rhs => rw [← hall]
      exact List.flatMap_congr fun hunk hhunk =>
        (shown_eq_self_iff hlines hhunk).mpr (hwhole hunk hhunk)
    rwa [hshown]

/-- Texts between which a difference is reported do not have the same lines. -/
theorem linesOf_ne_of_mismatch? {expected actual output : String}
    (h : mismatch? expected actual = some output) : linesOf expected ≠ linesOf actual := by
  intro hsame
  have hpieces := (held_inj (pieces_ne_nil _) (pieces_ne_nil _)).mp hsame
  have hnone : mismatch? expected actual = none := by
    rw [mismatch?_eq_none_iff, sameDump, beq_iff_eq, ← pieces_inj, hpieces]
  cases h.symm.trans hnone

/-- The edits between two texts that differ lead from the one to the other. What is printed of them
    says so exactly if each hunk is printed whole: its last line is not empty, and no other line of
    it ends with a carriage return. In that case at least one line is marked as removed or added. -/
theorem faithful_iff {expected actual output : String}
    (h : mismatch? expected actual = some output) :
    IsScript (editsOf expected actual) (linesOf expected) (linesOf actual) ∧
      (IsFaithful expected actual output ↔
        ∀ hunk ∈ hunks (editsOf expected actual), PrintsWhole hunk) ∧
      (IsFaithful expected actual output → changes (readEdits output) ≠ 0) := by
  have hscript := isScript_editsOf expected actual
  refine ⟨hscript, ?_, fun hfaithful hchanges => ?_⟩
  · rw [IsFaithful, readEdits_of_mismatch? h]
    exact isScript_shownEdits_iff (fun _ => not_mem_of_mem_editsOf) hscript
  · exact linesOf_ne_of_mismatch? h (hfaithful.eq_of_changes_eq_zero hchanges)

/-- The last line is replaced by another one. All three hunks are printed whole. -/
theorem faithful_iff_replaced :
    mismatch? "(program\n  (nil))" "(program\n  (self))" =
        some "--- expected\n+++ actual\n (program\n-  (nil))\n+  (self))\n" ∧
      IsFaithful "(program\n  (nil))" "(program\n  (self))"
        "--- expected\n+++ actual\n (program\n-  (nil))\n+  (self))\n" := by
  have hprinted : mismatch? "(program\n  (nil))" "(program\n  (self))" =
      some "--- expected\n+++ actual\n (program\n-  (nil))\n+  (self))\n" := by
    decide +kernel
  have hhunks : hunks (editsOf "(program\n  (nil))" "(program\n  (self))") =
      [[⟨.same, "(program"⟩], [⟨.removed, "  (nil))"⟩], [⟨.added, "  (self))"⟩]] := by
    decide +kernel
  refine ⟨hprinted, (faithful_iff hprinted).2.1.mpr fun hunk hhunk => ?_⟩
  rw [hhunks] at hhunk
  simp only [List.mem_cons, List.not_mem_nil, or_false] at hhunk
  rcases hhunk with rfl | rfl | rfl <;> exact printsWhole_singleton (by decide)

/-- An empty line in front of the last one. -/
def spaced : String := "(program\n\n  (integer))"

/-- The same dump without that line. -/
def compact : String := "(program\n  (integer))"

/-- The empty line is removed, which is a difference, but it is not printed, and no line that is
    printed is marked. -/
theorem spaced_not_faithful :
    mismatch? spaced compact = some "--- expected\n+++ actual\n (program\n   (integer))\n" ∧
      changes (readEdits "--- expected\n+++ actual\n (program\n   (integer))\n") = 0 ∧
      ¬ IsFaithful spaced compact "--- expected\n+++ actual\n (program\n   (integer))\n" := by
  refine ⟨by decide +kernel, by decide +kernel, fun hfaithful => ?_⟩
  have hlost : oldLines (readEdits "--- expected\n+++ actual\n (program\n   (integer))\n") ≠
      linesOf spaced := by
    decide +kernel
  exact hlost hfaithful.old

end RubyTree.Diff
