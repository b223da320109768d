/-!
# Lines

A line ends at a line feed, and a carriage return right before that line feed belongs to the end
of the line. A text that ends in a line feed has no further, empty line after it; a carriage return
elsewhere is an ordinary character.

Results:

* `not_mem_of_mem_splitAtFeeds`: no piece holds a line feed.
* `splitAtFeeds_inj`: the pieces decide the text.
* `splitAtFeeds_append`, `exists_splitAtFeeds_concat`: the pieces of a text in two parts.
* `closeLines_eq_self_iff`: which pieces are the lines of their text.
* `splitLines_flatMap`, `splitLines_intercalate`: the lines of a text that was put together line by
  line, with a line feed after each or between them.
-/

namespace RubyTree.Text

/-- A line that was ended by a line feed, given without it: one carriage return at its end goes
    too. -/
def dropReturn (cs : List Char) : List Char :=
  if cs.getLast? = some '\r' then cs.dropLast else cs

/-- The pieces of a text between its line feeds, the last one kept even when empty. -/
def splitAtFeeds : List Char → List (List Char)
  | [] => [[]]
  | c :: cs =>
    if c = '\n' then [] :: splitAtFeeds cs
    else match splitAtFeeds cs with
      | [] => [[c]]
      | piece :: pieces => (c :: piece) :: pieces

/-- Every piece but the last was ended by a line feed; the last counts as a line if it holds
    anything. -/
def closeLines : List (List Char) → List (List Char)
  | [] => []
  | [piece] => if piece = [] then [] else [piece]
  | piece :: pieces => dropReturn piece :: closeLines pieces

/-- The lines of a text. -/
def splitLines (cs : List Char) : List (List Char) := closeLines (splitAtFeeds cs)

/-- The lines of a text. -/
def lines (s : String) : List String := (splitLines s.toList).map String.ofList

/-- The pieces joined by line feeds. -/
def joinLines (pieces : List String) : String := "\n".intercalate pieces

theorem splitAtFeeds_ne_nil (cs : List Char) : splitAtFeeds cs ≠ [] := by
  cases cs with
  | nil => simp [splitAtFeeds]
  | cons c cs => simp only [splitAtFeeds]; split <;> (try split) <;> simp

theorem not_mem_of_mem_splitAtFeeds {cs piece : List Char} (h : piece ∈ splitAtFeeds cs) :
    '\n' ∉ piece := by
  induction cs generalizing piece with
  | nil => simp_all [splitAtFeeds]
  | cons c cs ih =>
    simp only [splitAtFeeds] at h
    split at h
    · rcases List.mem_cons.1 h with rfl | h
      · simp
      · exact ih h
    · next hc =>
      split at h
      · simp_all [Ne.symm hc]
      · next first rest heq =>
        rcases List.mem_cons.1 h with rfl | h
        · have : '\n' ∉ first := ih (by simp [heq])
          simp_all [Ne.symm hc]
        · exact ih (by simp [heq, h])

/-! ## Pieces put together -/

/-- The pieces of a text and the line feeds between them make up the text. -/
theorem intercalate_splitAtFeeds (cs : List Char) :
    List.intercalate ['\n'] (splitAtFeeds cs) = cs := by
  induction cs with
  | nil => rfl
  | cons c cs ih =>
    obtain ⟨first, rest, hsplit⟩ := List.exists_cons_of_ne_nil (splitAtFeeds_ne_nil cs)
    rw [hsplit] at ih
    rw [splitAtFeeds, hsplit]
    by_cases hc : c = '\n'
    · rw [if_pos hc, List.intercalate_cons_cons, ih, hc]
      rfl
    · rw [if_neg hc]
      cases rest with
      | nil => rw [← ih]; rfl
      | cons second rest =>
        rw [List.intercalate_cons_cons] at ih ⊢
        rw [← ih]
        rfl

theorem splitAtFeeds_inj {cs ds : List Char} : splitAtFeeds cs = splitAtFeeds ds ↔ cs = ds := by
  constructor
  · intro h
    rw [← intercalate_splitAtFeeds cs, h, intercalate_splitAtFeeds]
  · rintro rfl
    rfl

theorem splitAtFeeds_of_not_mem {cs : List Char} (h : '\n' ∉ cs) : splitAtFeeds cs = [cs] := by
  induction cs with
  | nil => rfl
  | cons c cs ih =>
    have hc : c ≠ '\n' := fun heq => h (heq ▸ List.mem_cons_self)
    rw [splitAtFeeds, if_neg hc, ih fun hmem => h (List.mem_cons_of_mem c hmem)]

/-- A line feed separates the pieces before it from the pieces behind it. -/
theorem splitAtFeeds_append (front back : List Char) :
    splitAtFeeds (front ++ '\n' :: back) = splitAtFeeds front ++ splitAtFeeds back := by
  induction front with
  | nil => rfl
  | cons c front ih =>
    obtain ⟨first, rest, hsplit⟩ := List.exists_cons_of_ne_nil (splitAtFeeds_ne_nil front)
    rw [List.cons_append, splitAtFeeds, splitAtFeeds, ih, hsplit]
    split <;> rfl

theorem splitAtFeeds_append_feed {cs : List Char} (h : '\n' ∉ cs) (rest : List Char) :
    splitAtFeeds (cs ++ '\n' :: rest) = cs :: splitAtFeeds rest := by
  rw [splitAtFeeds_append, splitAtFeeds_of_not_mem h]
  rfl

/-- Pieces joined by line feeds are the pieces of the text. -/
theorem splitAtFeeds_intercalate {pieces : List (List Char)} (hne : pieces ≠ [])
    (h : ∀ piece ∈ pieces, '\n' ∉ piece) :
    splitAtFeeds (List.intercalate ['\n'] pieces) = pieces := by
  induction pieces with
  | nil => exact absurd rfl hne
  | cons piece pieces ih =>
    obtain ⟨hpiece, hpieces⟩ := List.forall_mem_cons.mp h
    cases pieces with
    | nil => rw [List.intercalate_singleton, splitAtFeeds_of_not_mem hpiece]
    | cons next pieces =>
      rw [List.intercalate_cons_cons, List.append_assoc, List.singleton_append,
        splitAtFeeds_append_feed hpiece, ih (List.cons_ne_nil next pieces) hpieces]

/-- Another character at the end of a text goes to the last piece. -/
theorem exists_splitAtFeeds_concat {c : Char} (hc : c ≠ '\n') (cs : List Char) :
    ∃ pieces last, splitAtFeeds cs = pieces ++ [last] ∧
      splitAtFeeds (cs ++ [c]) = pieces ++ [last ++ [c]] := by
  induction cs with
  | nil => exact ⟨[], [], rfl, by simp [splitAtFeeds, hc]⟩
  | cons d cs ih =>
    obtain ⟨pieces, last, hsplit, hconcat⟩ := ih
    rw [List.cons_append, splitAtFeeds, splitAtFeeds, hsplit, hconcat]
    by_cases hd : d = '\n'
    · rw [if_pos hd, if_pos hd]
      exact ⟨[] :: pieces, last, rfl, rfl⟩
    · rw [if_neg hd, if_neg hd]
      cases pieces with
      | nil => exact ⟨[], d :: last, rfl, rfl⟩
      | cons piece pieces => exact ⟨(d :: piece) :: pieces, last, rfl, rfl⟩

/-! ## Closing lines -/

/-- The lines of a text have no line feed in them. -/
theorem not_mem_of_mem_closeLines {pieces : List (List Char)}
    (h : ∀ piece ∈ pieces, '\n' ∉ piece) : ∀ line ∈ closeLines pieces, '\n' ∉ line := by
  fun_induction closeLines pieces with
  | case1 => exact nofun
  | case2 => exact nofun
  | case3 => exact h
  | case4 piece pieces hne ih =>
    obtain ⟨hpiece, hpieces⟩ := List.forall_mem_cons.mp h
    refine List.forall_mem_cons.mpr ⟨?_, ih hpieces⟩
    unfold dropReturn
    split
    · exact fun hmem => hpiece (List.dropLast_subset piece hmem)
    · exact hpiece

theorem dropReturn_eq_self_iff {line : List Char} :
    dropReturn line = line ↔ line.getLast? ≠ some '\r' := by
  unfold dropReturn
  split
  · next hreturn =>
    refine iff_of_false (fun hsame => ?_) (absurd hreturn)
    have hlength := congrArg List.length hsame
    rw [List.length_dropLast] at hlength
    have hne : line.length ≠ 0 := by
      intro hzero
      rw [List.length_eq_zero_iff.mp hzero] at hreturn
      cases hreturn
    omega
  · next hreturn => exact iff_of_true rfl hreturn

/-- Joined lines are the lines again if the last one is not empty and no other one ends with a
    carriage return. -/
theorem closeLines_eq_self_iff {pieces : List (List Char)} : closeLines pieces = pieces ↔
    pieces.getLast? ≠ some [] ∧ ∀ piece ∈ pieces.dropLast, piece.getLast? ≠ some '\r' := by
  induction pieces with
  | nil => simp [closeLines]
  | cons piece pieces ih =>
    cases pieces with
    | nil => by_cases hpiece : piece = [] <;> simp [closeLines, hpiece]
    | cons next pieces =>
      have hcons : closeLines (piece :: next :: pieces) =
          dropReturn piece :: closeLines (next :: pieces) := rfl
      rw [hcons, List.cons_eq_cons, dropReturn_eq_self_iff, ih, List.getLast?_cons_cons,
        List.dropLast_cons_cons, List.forall_mem_cons]
      exact and_left_comm

theorem length_closeLines_le (pieces : List (List Char)) :
    (closeLines pieces).length ≤ pieces.length := by
  fun_induction closeLines pieces with
  | case1 => exact Nat.le_refl _
  | case2 => exact Nat.zero_le _
  | case3 => exact Nat.le_refl _
  | case4 piece pieces hne ih => exact Nat.succ_le_succ ih

/-! ## Lines put together -/

/-- A line that is not changed when it is ended by a line feed. -/
def IsClean (line : List Char) : Prop := '\n' ∉ line ∧ line.getLast? ≠ some '\r'

/-- A clean line in front is a line of the text. -/
theorem splitLines_append_feed {line : List Char} (h : IsClean line) (rest : List Char) :
    splitLines (line ++ '\n' :: rest) = line :: splitLines rest := by
  obtain ⟨piece, pieces, hsplit⟩ := List.exists_cons_of_ne_nil (splitAtFeeds_ne_nil rest)
  rw [splitLines, splitLines, splitAtFeeds_append_feed h.1, hsplit, closeLines, dropReturn,
    if_neg h.2]
  exact List.cons_ne_nil piece pieces

theorem splitLines_flatMap {lines : List (List Char)} (h : ∀ line ∈ lines, IsClean line) :
    splitLines (lines.flatMap fun line => line ++ ['\n']) = lines := by
  induction lines with
  | nil => rfl
  | cons line lines ih =>
    rw [List.flatMap_cons, List.append_assoc, List.singleton_append,
      splitLines_append_feed (h line List.mem_cons_self),
      ih fun other hother => h other (List.mem_cons_of_mem line hother)]

theorem splitLines_intercalate {lines : List (List Char)}
    (h : ∀ line ∈ lines, IsClean line ∧ line ≠ []) :
    splitLines (List.intercalate ['\n'] lines) = lines := by
  cases lines with
  | nil => rfl
  | cons line lines =>
    have hfeed : ∀ other ∈ line :: lines, '\n' ∉ other := fun other hother => (h other hother).1.1
    rw [splitLines, splitAtFeeds_intercalate (List.cons_ne_nil line lines) hfeed,
      closeLines_eq_self_iff]
    exact ⟨fun hlast => (h [] (List.mem_of_getLast? hlast)).2 rfl,
      fun other hother => (h other (List.dropLast_subset _ hother)).1.2⟩

end RubyTree.Text
