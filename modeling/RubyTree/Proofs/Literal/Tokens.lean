import Mathlib.Data.List.Chain
import Mathlib.Data.List.TakeWhile
import RubyTree.Literal.Escape

/-!
# Literal text as a list of tokens

Text in which escapes are interpreted falls into tokens: escapes, and the content between them. Four
rules say which lists of tokens are right. No token is empty, and together they are the text. Two
stretches of content never meet. Each escape is the longest one that begins where it stands, and
inside content none begins.

Which strings are escapes is said here on its own, form by form; the scan only measures how long the
escape at the front of a text is. The two meet in `length_le_escapeLength` and
`measured_of_escapeLength_ne_zero`.

Results:

* `escapeLength_eq_zero_iff`, `escapeLength_eq_length_iff`: what the scan measures is the longest
  escape.
* `isTokenization_cons_iff`: the rules for the first token, apart from those for the others.
* `isTokenization_pieces`, `IsTokenization.eq_pieces`: the scan follows the rules, and nothing else
  does.
* `splitEscapes_eq_iff`: the leaves of a text are those of its tokens.
-/

namespace RubyTree.Literal

/-! ## Escapes -/

/-- The escapes, by what follows the backslash. -/
inductive IsEscape : List Char → Prop where
  /-- One character that begins none of the other forms. -/
  | plain {c : Char} (hu : c ≠ 'u') (hx : c ≠ 'x') (hoctal : isOctal c = false) :
    IsEscape ['\\', c]
  /-- One or two hexadecimal digits. -/
  | hexadecimal {digits : List Char} (hdigits : ∀ d ∈ digits, isHex d = true)
    (hleast : 1 ≤ digits.length) (hmost : digits.length ≤ 2) : IsEscape ('\\' :: 'x' :: digits)
  /-- One to three octal digits. -/
  | octal {digits : List Char} (hdigits : ∀ d ∈ digits, isOctal d = true)
    (hleast : 1 ≤ digits.length) (hmost : digits.length ≤ 3) : IsEscape ('\\' :: digits)
  /-- Four hexadecimal digits. -/
  | codePoint {digits : List Char} (hdigits : ∀ d ∈ digits, isHex d = true)
    (hlength : digits.length = 4) : IsEscape ('\\' :: 'u' :: digits)
  /-- Hexadecimal digits and blanks in braces. -/
  | codePoints {inside : List Char} (hinside : ∀ c ∈ inside, (isHex c || c == ' ') = true)
    (hne : inside ≠ []) : IsEscape ('\\' :: 'u' :: '\x7b' :: (inside ++ ['\x7d']))

theorem IsEscape.ne_nil {escape : List Char} (h : IsEscape escape) : escape ≠ [] := by
  cases h <;> exact List.cons_ne_nil _ _

/-! ## Runs of characters -/

section Runs

variable {p : Char → Bool} {most : Nat} {cs : List Char}

theorem runLength_le (p : Char → Bool) (most : Nat) (cs : List Char) :
    runLength p most cs ≤ most :=
  Nat.le_trans (List.takeWhile_sublist p).length_le (List.length_take_le most cs)

theorem take_runLength (p : Char → Bool) (most : Nat) (cs : List Char) :
    cs.take (runLength p most cs) = (cs.take most).takeWhile p :=
  (List.prefix_iff_eq_take.mp
    ((List.takeWhile_prefix p).trans (List.take_prefix most cs))).symm

theorem of_mem_take_runLength {c : Char} (h : c ∈ cs.take (runLength p most cs)) : p c = true := by
  rw [take_runLength] at h
  exact List.mem_takeWhile_imp h

theorem length_take_runLength (p : Char → Bool) (most : Nat) (cs : List Char) :
    (cs.take (runLength p most cs)).length = runLength p most cs := by
  rw [take_runLength, runLength]

/-- A run at the front is not missed. -/
theorem length_le_runLength {front : List Char} (hfront : ∀ c ∈ front, p c = true)
    (hlength : front.length ≤ most) (rest : List Char) :
    front.length ≤ runLength p most (front ++ rest) := by
  rw [runLength, List.take_append, List.take_of_length_le hlength,
    List.takeWhile_append_of_pos hfront, List.length_append]
  exact Nat.le_add_right _ _

end Runs

/-! ## Brace groups -/

/-- The closing brace is no part of what is inside. -/
theorem braceGroupLength_of_inside {inside : List Char}
    (hinside : ∀ c ∈ inside, (isHex c || c == ' ') = true) (hne : inside ≠ []) (rest : List Char) :
    braceGroupLength ('\x7b' :: (inside ++ '\x7d' :: rest)) = inside.length + 2 := by
  have hwhole : (inside ++ '\x7d' :: rest).takeWhile (fun c => isHex c || c == ' ') = inside := by
    rw [List.takeWhile_append_of_pos hinside, List.takeWhile_cons_of_neg (by decide),
      List.append_nil]
  have hclosed : (inside ++ '\x7d' :: rest)[inside.length]? = some '\x7d' := by simp
  simp only [braceGroupLength, hwhole]
  rw [if_pos ⟨hne, hclosed⟩]

theorem exists_inside_of_braceGroupLength {cs : List Char} (h : braceGroupLength cs ≠ 0) :
    ∃ inside rest, cs = '\x7b' :: (inside ++ '\x7d' :: rest) ∧ inside ≠ [] ∧
      ∀ c ∈ inside, (isHex c || c == ' ') = true := by
  unfold braceGroupLength at h
  split at h
  · next cs =>
    dsimp only at h
    split at h
    · next hgroup =>
      obtain ⟨hne, hclosed⟩ := hgroup
      have hsplit : cs.takeWhile (fun c => isHex c || c == ' ') ++
          cs.dropWhile (fun c => isHex c || c == ' ') = cs := List.takeWhile_append_dropWhile
      rw [← congrArg (·[_]?) hsplit, List.getElem?_append_right (Nat.le_refl _), Nat.sub_self,
        ← List.head?_eq_getElem?] at hclosed
      obtain ⟨rest, hrest⟩ := List.head?_eq_some_iff.mp hclosed
      rw [hrest] at hsplit
      exact ⟨_, rest, congrArg _ hsplit.symm, hne,
        fun c => List.mem_takeWhile_imp (p := fun c => isHex c || c == ' ')⟩
    · exact absurd rfl h
  · exact absurd rfl h

/-! ## What the scan measures -/

section Forms

variable {c : Char} (cs : List Char)

theorem escapeLength_plain (hu : c ≠ 'u') (hx : c ≠ 'x') (hoctal : isOctal c = false) :
    escapeLength ('\\' :: c :: cs) = 2 := by
  simp [escapeLength, hu, hx, hoctal]

theorem escapeLength_hexadecimal : escapeLength ('\\' :: 'x' :: cs) =
    if runLength isHex 2 cs = 0 then 0 else runLength isHex 2 cs + 2 := by
  rw [escapeLength, if_pos rfl]
  cases runLength isHex 2 cs <;> rfl

theorem escapeLength_octal (hoctal : isOctal c = true) :
    escapeLength ('\\' :: c :: cs) = runLength isOctal 3 (c :: cs) + 1 := by
  have hx : c ≠ 'x' := by rintro rfl; cases hoctal
  have hu : c ≠ 'u' := by rintro rfl; cases hoctal
  rw [escapeLength, if_neg hx, if_neg hu, if_pos hoctal, Nat.add_comm]

theorem escapeLength_unicode : escapeLength ('\\' :: 'u' :: cs) =
    if runLength isHex 4 cs = 4 then 6
    else if braceGroupLength cs = 0 then 0 else braceGroupLength cs + 2 := by
  rw [escapeLength, if_neg (by decide), if_pos rfl]
  cases braceGroupLength cs <;> rfl

end Forms

theorem length_le_escapeLength {escape cs : List Char} (h : IsEscape escape)
    (hbegins : escape <+: cs) : escape.length ≤ escapeLength cs := by
  obtain ⟨rest, rfl⟩ := hbegins
  cases h with
  | plain hu hx hoctal => exact (escapeLength_plain rest hu hx hoctal).ge
  | @hexadecimal digits hdigits hleast hmost =>
    have hrun := length_le_runLength hdigits hmost rest
    rw [List.cons_append, List.cons_append, escapeLength_hexadecimal, if_neg (by omega)]
    simpa using hrun
  | @octal digits hdigits hleast hmost =>
    have hrun := length_le_runLength hdigits hmost rest
    obtain ⟨d, digits, rfl⟩ := List.exists_cons_of_length_pos hleast
    rw [List.cons_append, List.cons_append, escapeLength_octal _ (hdigits d List.mem_cons_self)]
    exact Nat.succ_le_succ hrun
  | @codePoint digits hdigits hlength =>
    have hrun := length_le_runLength hdigits hlength.le rest
    have hmost := runLength_le isHex 4 (digits ++ rest)
    rw [List.cons_append, List.cons_append, escapeLength_unicode, if_pos (by omega)]
    simp only [List.length_cons]
    omega
  | @codePoints inside hinside hne =>
    have hgroup := braceGroupLength_of_inside hinside hne rest
    have hnone : runLength isHex 4 ('\x7b' :: (inside ++ '\x7d' :: rest)) = 0 := by
      simp [runLength, List.takeWhile_cons_of_neg, isHex]
    rw [List.cons_append, List.cons_append, List.cons_append, List.append_assoc,
      List.singleton_append, escapeLength_unicode, hnone, if_neg (by decide), hgroup,
      if_neg (by omega)]
    simp

/-- Some escape at the front of a text is as long as the scan says. -/
def Measured (cs : List Char) : Prop :=
  ∃ escape, IsEscape escape ∧ escape <+: cs ∧ escape.length = escapeLength cs

theorem measured_of_isEscape {front cs : List Char} (h : IsEscape ('\\' :: front))
    (hfront : front <+: cs) (hlength : escapeLength ('\\' :: cs) = front.length + 1) :
    Measured ('\\' :: cs) :=
  ⟨_, h, List.cons_prefix_cons.mpr ⟨rfl, hfront⟩, hlength.symm⟩

section Measured

variable {c : Char} {cs : List Char}

theorem measured_hexadecimal (h : escapeLength ('\\' :: 'x' :: cs) ≠ 0) :
    Measured ('\\' :: 'x' :: cs) := by
  rw [escapeLength_hexadecimal] at h
  have hrun : runLength isHex 2 cs ≠ 0 := fun hnone => h (if_pos hnone)
  have hlength := length_take_runLength isHex 2 cs
  have hmost := runLength_le isHex 2 cs
  have hescape : IsEscape ('\\' :: 'x' :: cs.take (runLength isHex 2 cs)) :=
    .hexadecimal (fun _ => of_mem_take_runLength) (by omega) (by omega)
  refine measured_of_isEscape hescape (List.cons_prefix_cons.mpr ⟨rfl, List.take_prefix _ _⟩) ?_
  rw [escapeLength_hexadecimal, if_neg hrun, List.length_cons, hlength]

theorem measured_octal (hoctal : isOctal c = true) : Measured ('\\' :: c :: cs) := by
  have hlength := length_take_runLength isOctal 3 (c :: cs)
  have hmost := runLength_le isOctal 3 (c :: cs)
  have hleast : 1 ≤ runLength isOctal 3 (c :: cs) := by simp [runLength, hoctal]
  have hescape : IsEscape ('\\' :: (c :: cs).take (runLength isOctal 3 (c :: cs))) :=
    .octal (fun _ => of_mem_take_runLength) (by omega) (by omega)
  refine measured_of_isEscape hescape (List.take_prefix _ _) ?_
  rw [escapeLength_octal cs hoctal, hlength]

theorem measured_unicode (h : escapeLength ('\\' :: 'u' :: cs) ≠ 0) :
    Measured ('\\' :: 'u' :: cs) := by
  by_cases hrun : runLength isHex 4 cs = 4
  · have hlength := length_take_runLength isHex 4 cs
    have hescape : IsEscape ('\\' :: 'u' :: cs.take (runLength isHex 4 cs)) :=
      .codePoint (fun _ => of_mem_take_runLength) (hlength.trans hrun)
    refine measured_of_isEscape hescape (List.cons_prefix_cons.mpr ⟨rfl, List.take_prefix _ _⟩) ?_
    rw [escapeLength_unicode, if_pos hrun, List.length_cons, hlength, hrun]
  · rw [escapeLength_unicode, if_neg hrun] at h
    have hgroup : braceGroupLength cs ≠ 0 := fun hnone => h (if_pos hnone)
    obtain ⟨inside, rest, rfl, hne, hinside⟩ := exists_inside_of_braceGroupLength hgroup
    refine measured_of_isEscape (.codePoints hinside hne) ⟨rest, by simp⟩ ?_
    rw [escapeLength_unicode, if_neg hrun, if_neg hgroup, braceGroupLength_of_inside hinside hne]
    simp

/-- Where the scan measures something, it measures an escape. -/
theorem measured_of_escapeLength_ne_zero (h : escapeLength cs ≠ 0) : Measured cs := by
  obtain ⟨c, cs, rfl⟩ : ∃ c rest, cs = '\\' :: c :: rest := by
    unfold escapeLength at h
    split at h
    · exact ⟨_, _, rfl⟩
    · exact absurd rfl h
  by_cases hx : c = 'x'
  · subst hx
    exact measured_hexadecimal h
  by_cases hu : c = 'u'
  · subst hu
    exact measured_unicode h
  cases hoctal : isOctal c with
  | true => exact measured_octal hoctal
  | false =>
    exact measured_of_isEscape (.plain hu hx hoctal) ⟨cs, rfl⟩ (escapeLength_plain cs hu hx hoctal)

end Measured

/-- The scan measures nothing exactly where no escape begins. -/
theorem escapeLength_eq_zero_iff {cs : List Char} :
    escapeLength cs = 0 ↔ ∀ escape, IsEscape escape → ¬ escape <+: cs := by
  constructor
  · intro hnone escape hescape hbegins
    have hle := length_le_escapeLength hescape hbegins
    have hpos := List.length_pos_iff.mpr hescape.ne_nil
    omega
  · intro hclear
    by_contra hsome
    obtain ⟨escape, hescape, hbegins, -⟩ := measured_of_escapeLength_ne_zero hsome
    exact hclear escape hescape hbegins

/-- The scan measures the length of a string exactly if that is the longest escape. -/
theorem escapeLength_eq_length_iff {escape cs : List Char} (hbegins : escape <+: cs)
    (hne : escape ≠ []) :
    escapeLength cs = escape.length ↔ IsEscape escape ∧
      ∀ other, IsEscape other → other <+: cs → other.length ≤ escape.length := by
  have hpos := List.length_pos_iff.mpr hne
  constructor
  · intro hlength
    have hsome : escapeLength cs ≠ 0 := by omega
    obtain ⟨found, hfound, hfront, hmeasured⟩ := measured_of_escapeLength_ne_zero hsome
    have hsame : found = escape :=
      (List.prefix_of_prefix_length_le hfront hbegins (by omega)).eq_of_length (by omega)
    subst hsame
    exact ⟨hfound, fun other hother hfits => hlength ▸ length_le_escapeLength hother hfits⟩
  · rintro ⟨hescape, hlongest⟩
    have hle := length_le_escapeLength hescape hbegins
    have hsome : escapeLength cs ≠ 0 := by omega
    obtain ⟨found, hfound, hfront, hmeasured⟩ := measured_of_escapeLength_ne_zero hsome
    have hleast := hlongest found hfound hfront
    omega

/-! ## The rules for tokens -/

/-- The text that tokens make up. -/
def spelled (tokens : List Piece) : List Char := (tokens.map Piece.text).flatten

@[simp] theorem spelled_cons (token : Piece) (tokens : List Piece) :
    spelled (token :: tokens) = token.text ++ spelled tokens := rfl

@[simp] theorem spelled_append (front back : List Piece) :
    spelled (front ++ back) = spelled front ++ spelled back := by
  simp [spelled]

/-- An escape stands in a text from a position on. -/
def StandsAt (text : List Char) (position : Nat) (escape : List Char) : Prop :=
  IsEscape escape ∧ escape <+: text.drop position

namespace Piece

/-- The token is content. -/
def isContent : Piece → Bool
  | content _ => true
  | escape _ => false

/-- What the rules ask of a token that begins at a position: an escape is the longest one there, and
    inside content no escape begins. -/
def Obeys (text : List Char) (position : Nat) : Piece → Prop
  | content token =>
    ∀ offset < token.length, ∀ escape, ¬ StandsAt text (position + offset) escape
  | escape token => StandsAt text position token ∧
    ∀ other, StandsAt text position other → other.length ≤ token.length

end Piece

/-- The rules for the tokens of a text. A token begins where those in front of it end. -/
structure IsTokenization (text : List Char) (tokens : List Piece) : Prop where
  nonempty : ∀ token ∈ tokens, token.text ≠ []
  covers : spelled tokens = text
  apart : tokens.IsChain fun first second => ¬ (first.isContent ∧ second.isContent)
  obeys : ∀ front token back, tokens = front ++ token :: back →
    token.Obeys text (spelled front).length

theorem standsAt_append (front text : List Char) (position : Nat) (escape : List Char) :
    StandsAt (front ++ text) (front.length + position) escape ↔ StandsAt text position escape := by
  rw [StandsAt, StandsAt, List.drop_length_add_append]

theorem obeys_append (front text : List Char) (position : Nat) (token : Piece) :
    token.Obeys (front ++ text) (front.length + position) ↔ token.Obeys text position := by
  cases token with
  | content token => simp only [Piece.Obeys, Nat.add_assoc, standsAt_append]
  | escape token => simp only [Piece.Obeys, standsAt_append]

/-- The rules for the first token ask for nothing but the text behind it, and those for the others
    ask for nothing in front of them. -/
theorem isTokenization_cons_iff {text : List Char} {token : Piece} {tokens : List Piece} :
    IsTokenization text (token :: tokens) ↔ text = token.text ++ spelled tokens ∧
      token.text ≠ [] ∧ token.Obeys (token.text ++ spelled tokens) 0 ∧
      (∀ next ∈ tokens.head?, ¬ (token.isContent ∧ next.isContent)) ∧
      IsTokenization (spelled tokens) tokens := by
  constructor
  · rintro ⟨hnonempty, rfl, hapart, hobeys⟩
    obtain ⟨hfirst, hrest⟩ := List.isChain_cons.mp hapart
    refine ⟨rfl, hnonempty token List.mem_cons_self, hobeys [] token tokens rfl, hfirst,
      fun other hother => hnonempty other (List.mem_cons_of_mem _ hother), rfl, hrest, ?_⟩
    rintro front other back rfl
    have hother := hobeys (token :: front) other back rfl
    rwa [spelled_cons, spelled_cons, List.length_append, obeys_append] at hother
  · rintro ⟨rfl, hne, hfirst, hhead, hnonempty, -, hapart, hobeys⟩
    refine ⟨List.forall_mem_cons.mpr ⟨hne, hnonempty⟩, rfl, List.isChain_cons.mpr ⟨hhead, hapart⟩,
      ?_⟩
    rintro front other back hsplit
    cases front with
    | nil =>
      obtain ⟨rfl, rfl⟩ := List.cons.inj hsplit
      exact hfirst
    | cons first front =>
      obtain ⟨rfl, rfl⟩ := List.cons.inj hsplit
      rw [spelled_cons, List.length_append, obeys_append]
      exact hobeys front other back rfl

theorem isTokenization_nil_iff {text : List Char} : IsTokenization text [] ↔ text = [] := by
  refine ⟨fun h => h.covers.symm, ?_⟩
  rintro rfl
  exact ⟨List.forall_mem_nil _, rfl, .nil, fun front token back h => by simp at h⟩

/-! ## The scan -/

theorem obeys_content_iff {content rest : List Char} :
    (Piece.content content).Obeys (content ++ rest) 0 ↔
      ∀ offset < content.length, escapeLength ((content ++ rest).drop offset) = 0 := by
  simp only [Piece.Obeys, StandsAt, Nat.zero_add, escapeLength_eq_zero_iff, not_and]

theorem obeys_escape_iff {escape rest : List Char} (hne : escape ≠ []) :
    (Piece.escape escape).Obeys (escape ++ rest) 0 ↔
      escapeLength (escape ++ rest) = escape.length := by
  have hbegins : escape <+: escape ++ rest := List.prefix_append escape rest
  rw [escapeLength_eq_length_iff hbegins hne]
  simp only [Piece.Obeys, StandsAt, List.drop_zero, hbegins, and_true, and_imp]

theorem pieces_escape {escape rest : List Char} (hne : escape ≠ [])
    (h : escapeLength (escape ++ rest) = escape.length) :
    pieces (escape ++ rest) = .escape escape :: pieces rest := by
  obtain ⟨c, cs, rfl⟩ := List.exists_cons_of_ne_nil hne
  rw [List.cons_append] at h ⊢
  rw [pieces, h]
  simp

theorem consContent_eq_cons (c : Char) {tokens : List Piece}
    (h : ∀ next ∈ tokens.head?, next.isContent = false) :
    consContent c tokens = .content [c] :: tokens := by
  cases tokens with
  | nil => rfl
  | cons next tokens =>
    cases next with
    | content token => exact absurd (h _ rfl) Bool.noConfusion
    | escape token => rfl

/-- By induction on the content. Only behind its last character comes something that is none. -/
theorem pieces_content {content rest : List Char} (hne : content ≠ [])
    (h : ∀ offset < content.length, escapeLength ((content ++ rest).drop offset) = 0)
    (hnext : ∀ next ∈ (pieces rest).head?, next.isContent = false) :
    pieces (content ++ rest) = .content content :: pieces rest := by
  induction content with
  | nil => exact absurd rfl hne
  | cons c content ih =>
    have hfirst := h 0 (Nat.succ_pos _)
    rw [List.drop_zero, List.cons_append] at hfirst
    rw [List.cons_append, pieces, hfirst]
    by_cases hlast : content = []
    · subst hlast
      exact consContent_eq_cons c hnext
    · rw [ih hlast fun offset hoffset => h (offset + 1) (Nat.succ_lt_succ hoffset)]
      rfl

/-- No other tokens follow the rules. -/
theorem IsTokenization.eq_pieces {text : List Char} {tokens : List Piece}
    (h : IsTokenization text tokens) : tokens = pieces text := by
  induction tokens generalizing text with
  | nil => rw [isTokenization_nil_iff.mp h, pieces]
  | cons token tokens ih =>
    obtain ⟨rfl, hne, hobeys, hhead, hrest⟩ := isTokenization_cons_iff.mp h
    have htokens := ih hrest
    cases token with
    | content content =>
      have hnext : ∀ next ∈ (pieces (spelled tokens)).head?, next.isContent = false := by
        intro next hmem
        rw [← htokens] at hmem
        exact Bool.eq_false_iff.mpr fun hcontent => hhead next hmem ⟨rfl, hcontent⟩
      have hpieces := pieces_content hne (obeys_content_iff.mp hobeys) hnext
      rw [← htokens] at hpieces
      exact hpieces.symm
    | escape escape =>
      have hpieces := pieces_escape hne ((obeys_escape_iff hne).mp hobeys)
      rw [← htokens] at hpieces
      exact hpieces.symm

/-- A character at which no escape begins joins the content behind it, if there is some. -/
theorem IsTokenization.consContent {text : List Char} {tokens : List Piece}
    (h : IsTokenization text tokens) {c : Char} (hclear : escapeLength (c :: text) = 0) :
    IsTokenization (c :: text) (consContent c tokens) := by
  obtain rfl := h.covers
  by_cases hnext : ∀ next ∈ tokens.head?, next.isContent = false
  · rw [consContent_eq_cons c hnext]
    refine isTokenization_cons_iff.mpr ⟨rfl, List.cons_ne_nil _ _, ?_, ?_, h⟩
    · refine obeys_content_iff.mpr fun offset hoffset => ?_
      obtain rfl : offset = 0 := Nat.lt_one_iff.mp hoffset
      exact hclear
    · rintro next hmem ⟨-, hcontent⟩
      rw [hnext next hmem] at hcontent
      cases hcontent
  · obtain ⟨content, rest, rfl⟩ : ∃ content rest, tokens = .content content :: rest := by
      cases tokens with
      | nil => exact absurd (fun next hmem => nomatch hmem) hnext
      | cons token rest =>
        cases token with
        | content content => exact ⟨content, rest, rfl⟩
        | escape escape => exact absurd (by simp [Piece.isContent]) hnext
    obtain ⟨-, hne, hobeys, hhead, hrest⟩ := isTokenization_cons_iff.mp h
    refine isTokenization_cons_iff.mpr ⟨rfl, List.cons_ne_nil _ _, ?_, hhead, hrest⟩
    refine obeys_content_iff.mpr fun offset hoffset => ?_
    cases offset with
    | zero => exact hclear
    | succ offset => exact obeys_content_iff.mp hobeys offset (Nat.lt_of_succ_lt_succ hoffset)

theorem IsTokenization.cons_escape {rest : List Char} {tokens : List Piece}
    (h : IsTokenization rest tokens) {escape : List Char} (hne : escape ≠ [])
    (hlength : escapeLength (escape ++ rest) = escape.length) :
    IsTokenization (escape ++ rest) (.escape escape :: tokens) := by
  obtain rfl := h.covers
  refine isTokenization_cons_iff.mpr ⟨rfl, hne, (obeys_escape_iff hne).mpr hlength, ?_, h⟩
  rintro next - ⟨hcontent, -⟩
  cases hcontent

theorem isTokenization_pieces (text : List Char) : IsTokenization text (pieces text) := by
  fun_induction pieces text with
  | case1 => exact isTokenization_nil_iff.mpr rfl
  | case2 c cs hclear ih => exact ih.consContent hclear
  | case3 c cs n hlength ih =>
    have hsome : escapeLength (c :: cs) ≠ 0 := by omega
    obtain ⟨escape, -, hbegins, hescape⟩ := measured_of_escapeLength_ne_zero hsome
    have hfits := hbegins.length_le
    rw [List.length_cons] at hfits
    have hsplit : (c :: cs.take n) ++ cs.drop n = c :: cs := by simp
    have htaken : (c :: cs.take n).length = n + 1 := by
      rw [List.length_cons, List.length_take]
      omega
    have hcons := ih.cons_escape (List.cons_ne_nil c (cs.take n)) (by rw [hsplit, htaken, hlength])
    rwa [hsplit] at hcons

/-- A text falls into its tokens in one way. -/
theorem isTokenization_iff {text : List Char} {tokens : List Piece} :
    IsTokenization text tokens ↔ tokens = pieces text := by
  refine ⟨IsTokenization.eq_pieces, ?_⟩
  rintro rfl
  exact isTokenization_pieces text

/-- Leaves of content and of escapes are those of a text exactly if the rules hold for their
    tokens: none is empty, together they are the text, content does not follow content, an escape is
    the longest in its place, and inside content none begins. -/
theorem splitEscapes_eq_iff (text : String) (leaves : List Node) :
    splitEscapes text = leaves ↔
      ∃ tokens, leaves = tokens.map Piece.leaf ∧ IsTokenization text.toList tokens := by
  simp only [isTokenization_iff, exists_eq_right, splitEscapes, eq_comm]

end RubyTree.Literal
