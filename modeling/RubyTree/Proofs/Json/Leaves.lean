import Mathlib.Data.List.TakeWhile
import RubyTree.Event.Encode
import RubyTree.Json

/-!
# Strings and numbers in JSON

A string that is written with its escapes is scanned as one lexeme and read as the text that it was.
A natural number that is written in decimal digits is read as a number with that value.

Results:

* `escape_cases`: what one character is written as.
* `lexemesFrom?_quote`, `stringText?_flatMap_escape`: strings.
* `lexemesFrom?_word`: bare words.
* `read?_decimal`, `natural?_ofNat`: natural numbers.
-/

namespace RubyTree.Json

/-! ## What a character is written as -/

/-- A letter after a backslash, a code after a backslash, or the character itself. -/
theorem escape_cases (c : Char) :
    (∃ letter ∈ ['"', '\\', 'b', 'f', 'n', 'r', 't'],
      escape c = ['\\', letter] ∧ letterEscape? letter = some c) ∨
    (c.toNat < 0x20 ∧
      escape c = ['\\', 'u', '0', '0', hexDigit (c.toNat / 16), hexDigit (c.toNat % 16)]) ∨
    (0x20 ≤ c.toNat ∧ c ≠ '"' ∧ c ≠ '\\' ∧ escape c = [c]) := by
  unfold escape
  split
  · next h => exact .inl ⟨'"', by simp, rfl, congrArg some h.symm⟩
  split
  · next h => exact .inl ⟨'\\', by simp, rfl, congrArg some h.symm⟩
  split
  · next h => exact .inl ⟨'b', by simp, rfl, congrArg some h.symm⟩
  split
  · next h => exact .inl ⟨'f', by simp, rfl, congrArg some h.symm⟩
  split
  · next h => exact .inl ⟨'n', by simp, rfl, congrArg some h.symm⟩
  split
  · next h => exact .inl ⟨'r', by simp, rfl, congrArg some h.symm⟩
  split
  · next h => exact .inl ⟨'t', by simp, rfl, congrArg some h.symm⟩
  split
  · next h => exact .inr (.inl ⟨h, rfl⟩)
  · next hquote hslash _ _ _ _ _ h => exact .inr (.inr ⟨Nat.not_lt.mp h, hquote, hslash, rfl⟩)

/-- The hexadecimal digits of a control. -/
theorem hexWord?_control {n : Nat} (h : n < 0x20) :
    hexWord? '0' '0' (hexDigit (n / 16)) (hexDigit (n % 16)) = some n := by
  have hall : ∀ n < 0x20,
      hexWord? '0' '0' (hexDigit (n / 16)) (hexDigit (n % 16)) = some n := by decide
  exact hall n h

/-- A hexadecimal digit neither ends a string nor escapes anything. -/
theorem hexDigit_ne {n : Nat} (h : n < 16) :
    hexDigit n ≠ '"' ∧ hexDigit n ≠ '\\' ∧ 0x20 ≤ (hexDigit n).toNat := by
  have hall : ∀ n < 16, hexDigit n ≠ '"' ∧ hexDigit n ≠ '\\' ∧ 0x20 ≤ (hexDigit n).toNat := by
    decide
  exact hall n h

/-- No control is written. -/
theorem le_toNat_of_mem_escape {c d : Char} (h : d ∈ escape c) : 0x20 ≤ d.toNat := by
  rcases escape_cases c with ⟨letter, hletter, heq, -⟩ | ⟨hcontrol, heq⟩ | ⟨hle, -, -, heq⟩
  · rw [heq] at h
    simp only [List.mem_cons, List.not_mem_nil, or_false] at h hletter
    rcases h with rfl | rfl
    · decide
    · rcases hletter with rfl | rfl | rfl | rfl | rfl | rfl | rfl <;> decide
  · rw [heq] at h
    have hhigh := (hexDigit_ne (n := c.toNat / 16) (by omega)).2.2
    have hlow := (hexDigit_ne (n := c.toNat % 16) (by omega)).2.2
    simp only [List.mem_cons, List.not_mem_nil, or_false] at h
    rcases h with rfl | rfl | rfl | rfl | rfl | rfl
    · decide
    · decide
    · decide
    · decide
    · exact hhigh
    · exact hlow
  · rw [heq, List.mem_singleton] at h
    rwa [h]

/-! ## Strings -/

theorem unescape?_escape_append (c : Char) (rest : List Char) :
    unescape? (escape c ++ rest) = (unescape? rest).map (c.toNat :: ·) := by
  rcases escape_cases c with ⟨letter, hletter, heq, hread⟩ | ⟨hcontrol, heq⟩ |
    ⟨hle, hquote, hslash, heq⟩
  · have hu : letter ≠ 'u' := by
      rintro rfl
      exact absurd hletter (by decide)
    rw [heq, List.cons_append, List.cons_append, List.nil_append, unescape?, hread]
    · cases unescape? rest <;> rfl
    · intro a b d e cs hletter'
      exact absurd hletter' hu
  · rw [heq]
    simp only [List.cons_append, List.nil_append, unescape?, hexWord?_control hcontrol]
    cases unescape? rest <;> rfl
  · rw [heq, List.singleton_append, unescape?]
    · rw [if_neg (not_or.mpr ⟨hslash, Nat.not_lt.mpr hle⟩)]
    · intro a b d e cs hc
      exact absurd hc hslash
    · intro d cs hc
      exact absurd hc hslash

theorem unescape?_flatMap_escape (text : List Char) :
    unescape? (text.flatMap escape) = some (text.map Char.toNat) := by
  induction text with
  | nil => rfl
  | cons c text ih => rw [List.flatMap_cons, unescape?_escape_append, ih, Option.map_some,
      List.map_cons]

/-- A character is no half of a surrogate pair. -/
theorem not_half (c : Char) : isHighHalf c.toNat = false ∧ isLowHalf c.toNat = false := by
  have hvalid : c.toNat < 0xD800 ∨ 0xDFFF < c.toNat ∧ c.toNat < 0x110000 := c.valid
  simp only [isHighHalf, isLowHalf, Bool.and_eq_false_iff, decide_eq_false_iff_not]
  omega

theorem joinHalves?_map_toNat (text : List Char) :
    joinHalves? (text.map Char.toNat) = some text := by
  induction text with
  | nil => rfl
  | cons c text ih =>
    obtain ⟨hhigh, hlow⟩ := not_half c
    cases text with
    | nil => simp [joinHalves?, hhigh, hlow, Char.ofNat_toNat]
    | cons d text =>
      rw [List.map_cons] at ih
      simp [joinHalves?, hhigh, hlow, ih, Char.ofNat_toNat]

/-- A string is read as the text that was written. -/
theorem stringText?_flatMap_escape (text : List Char) :
    stringText? (text.flatMap escape) = some (some (String.ofList text)) := by
  rw [stringText?, unescape?_flatMap_escape, Option.map_some, joinHalves?_map_toNat,
    Option.map_some]

/-- Inside a string, a character that is no quote and no backslash is taken as it is. -/
theorem lexemesFrom?_inside {c : Char} (h : c ≠ '"' ∧ c ≠ '\\') (read rest : List Char) :
    lexemesFrom? (.quoted read false) (c :: rest) =
      lexemesFrom? (.quoted (c :: read) false) rest := by
  rw [lexemesFrom?, if_neg h.1, beq_eq_false_iff_ne.mpr h.2]

theorem lexemesFrom?_escape (read : List Char) (c : Char) (rest : List Char) :
    lexemesFrom? (.quoted read false) (escape c ++ rest) =
      lexemesFrom? (.quoted ((escape c).reverse ++ read) false) rest := by
  rcases escape_cases c with ⟨letter, -, heq, -⟩ | ⟨hcontrol, heq⟩ | ⟨-, hquote, hslash, heq⟩
  · rw [heq]
    simp [lexemesFrom?]
  · have hhigh := hexDigit_ne (n := c.toNat / 16) (by omega)
    have hlow := hexDigit_ne (n := c.toNat % 16) (by omega)
    rw [heq]
    change lexemesFrom? (.quoted ('u' :: '\\' :: read) false)
      ('0' :: '0' :: hexDigit (c.toNat / 16) :: hexDigit (c.toNat % 16) :: rest) = _
    rw [lexemesFrom?_inside (by decide), lexemesFrom?_inside (by decide),
      lexemesFrom?_inside ⟨hhigh.1, hhigh.2.1⟩, lexemesFrom?_inside ⟨hlow.1, hlow.2.1⟩]
    rfl
  · rw [heq]
    exact lexemesFrom?_inside ⟨hquote, hslash⟩ read rest

theorem lexemesFrom?_flatMap_escape (read text rest : List Char) :
    lexemesFrom? (.quoted read false) (text.flatMap escape ++ '"' :: rest) =
      (lexemesFrom? .between rest).map (.quoted (read.reverse ++ text.flatMap escape) :: ·) := by
  induction text generalizing read with
  | nil => simp [lexemesFrom?]
  | cons c text ih =>
    rw [List.flatMap_cons, List.append_assoc, lexemesFrom?_escape, ih]
    simp

/-- A string is one lexeme. -/
theorem lexemesFrom?_quote (text rest : List Char) :
    lexemesFrom? .between (quote text ++ rest) =
      (lexemesFrom? .between rest).map (.quoted (text.flatMap escape) :: ·) := by
  have h := lexemesFrom?_flatMap_escape [] text rest
  simpa [quote, lexemesFrom?, isSpace] using h

/-! ## Marks and words -/

/-- A mark is neither a blank nor a quote. -/
theorem not_isSpace_of_isMark {c : Char} (h : isMark c = true) : isSpace c = false ∧ c ≠ '"' := by
  simp only [isMark, Bool.or_eq_true, beq_iff_eq] at h
  rcases h with ((((rfl | rfl) | rfl) | rfl) | rfl) | rfl <;> decide

theorem lexemesFrom?_mark {c : Char} (h : isMark c = true) (rest : List Char) :
    lexemesFrom? .between (c :: rest) = (lexemesFrom? .between rest).map (.mark c :: ·) := by
  obtain ⟨hspace, hquote⟩ := not_isSpace_of_isMark h
  rw [lexemesFrom?, hspace, if_neg Bool.false_ne_true, if_neg hquote, if_pos h]

/-- Nothing but a mark, or the end, comes next. -/
def EndsWord (rest : List Char) : Prop := ∀ c ∈ rest.head?, isMark c = true

theorem endsWord_mark {c : Char} (h : isMark c = true) (rest : List Char) :
    EndsWord (c :: rest) := by
  intro d hd
  cases hd
  exact h

/-- The character may stand in a bare word. -/
def isWordChar (c : Char) : Bool := !isSpace c && c != '"' && !isMark c

theorem lexemesFrom?_bare {rest : List Char} (hrest : EndsWord rest) {word : List Char}
    (hword : ∀ c ∈ word, isWordChar c = true) (read : List Char) :
    lexemesFrom? (.bare read) (word ++ rest) =
      (lexemesFrom? .between rest).map (.bare (read.reverse ++ word) :: ·) := by
  induction word generalizing read with
  | nil =>
    cases rest with
    | nil => simp [lexemesFrom?]
    | cons c rest =>
      have hmark := hrest c rfl
      obtain ⟨hspace, hquote⟩ := not_isSpace_of_isMark hmark
      rw [List.nil_append, List.append_nil, lexemesFrom?_mark hmark, lexemesFrom?, hspace,
        if_neg Bool.false_ne_true, if_neg hquote, if_pos hmark, Option.map_map]
      rfl
  | cons c word ih =>
    have hc := hword c List.mem_cons_self
    simp only [isWordChar, Bool.and_eq_true, Bool.not_eq_true', bne_iff_ne] at hc
    obtain ⟨⟨hspace, hquote⟩, hmark⟩ := hc
    rw [List.cons_append, lexemesFrom?, hspace, if_neg Bool.false_ne_true, if_neg hquote, hmark,
      if_neg Bool.false_ne_true, ih (fun d hd => hword d (List.mem_cons_of_mem c hd)),
      List.reverse_cons, List.append_assoc]
    rfl

/-- A word that something ends is one lexeme. -/
theorem lexemesFrom?_word {rest : List Char} (hrest : EndsWord rest) {word : List Char}
    (hne : word ≠ []) (hword : word.all isWordChar = true) :
    lexemesFrom? .between (word ++ rest) =
      (lexemesFrom? .between rest).map (.bare word :: ·) := by
  obtain ⟨c, word, rfl⟩ := List.exists_cons_of_ne_nil hne
  rw [List.all_eq_true] at hword
  have hc := hword c List.mem_cons_self
  simp only [isWordChar, Bool.and_eq_true, Bool.not_eq_true', bne_iff_ne] at hc
  obtain ⟨⟨hspace, hquote⟩, hmark⟩ := hc
  rw [List.cons_append, lexemesFrom?, hspace, if_neg Bool.false_ne_true, if_neg hquote, hmark,
    if_neg Bool.false_ne_true,
    lexemesFrom?_bare hrest (fun d hd => hword d (List.mem_cons_of_mem c hd))]
  rfl

/-! ## Natural numbers -/

/-- A natural number as it is written. -/
def Number.ofNat (n : Nat) : Number := ⟨false, decimal n, none, none⟩

theorem decimal_eq (n : Nat) : decimal n = Nat.toDigits 10 n := Nat.toList_repr

theorem isDigit_of_mem_decimal {n : Nat} {c : Char} (h : c ∈ decimal n) : c.isDigit = true := by
  rw [decimal_eq] at h
  exact Nat.isDigit_of_mem_toDigits (by decide) (by decide) h

theorem decimal_ne_nil (n : Nat) : decimal n ≠ [] := by
  rw [decimal_eq]
  exact Nat.toDigits_ne_nil

/-- Only zero begins with a zero. -/
theorem eq_zero_of_head?_decimal {n : Nat} (h : (decimal n).head? = some '0') : n = 0 := by
  rw [decimal_eq] at h
  induction n using Nat.strongRecOn with
  | ind n ih =>
    rw [Nat.toDigits_eq_if (by decide)] at h
    split at h
    · simpa using h
    · next hle =>
      obtain ⟨c, cs, hcs⟩ := List.exists_cons_of_ne_nil (Nat.toDigits_ne_nil (n := n / 10))
      rw [hcs] at h
      have hzero := ih (n / 10) (by omega) (by rw [hcs]; exact h)
      omega

/-- The digits are read as the number that they were written for. -/
theorem valueFrom_decimal (n : Nat) : Number.valueFrom 0 (decimal n) = n := by
  have h := Nat.ofDigitChars_toDigits (b := 10) (n := n) (by decide) (by decide)
  rw [Nat.ofDigitChars_eq_foldl] at h
  simp only [Number.valueFrom, decimal_eq, Nat.mul_comm _ 10]
  exact h

theorem digits?_of_isDigit {cs : List Char} (hne : cs ≠ []) (h : ∀ c ∈ cs, c.isDigit = true) :
    Number.digits? cs = some (cs, []) := by
  rw [Number.digits?, List.takeWhile_eq_self_iff.mpr h, List.dropWhile_eq_nil_iff.mpr h]
  split
  · exact absurd rfl hne
  · rfl

theorem read?_decimal (n : Nat) : Number.read? (decimal n) = some (Number.ofNat n) := by
  have hzeros : ¬ ((decimal n).head? = some '0' ∧ (decimal n).length ≠ 1) := by
    rintro ⟨hhead, hlength⟩
    rw [eq_zero_of_head?_decimal hhead] at hlength
    exact hlength rfl
  rw [Number.read?]
  · simp only [digits?_of_isDigit (decimal_ne_nil n) fun c hc => isDigit_of_mem_decimal hc,
      bind, Option.bind, if_neg hzeros, Number.fraction?, Number.exponent?]
    rfl
  · intro cs hsign
    have hdigit : '-'.isDigit = true := isDigit_of_mem_decimal (n := n) (by simp [hsign])
    exact absurd hdigit (by decide)

theorem natural?_ofNat {n : Nat} (h : n < Nat.pow 2 64) : (Number.ofNat n).natural? = some n := by
  simp only [Number.natural?, Number.ofNat, valueFrom_decimal, Number.wordLimit]
  simp [h]

/-! ## The range of natural numbers -/

theorem le_valueFrom (start : Nat) (digits : List Char) :
    start ≤ Number.valueFrom start digits := by
  induction digits generalizing start with
  | nil => exact Nat.le_refl start
  | cons c digits ih =>
    have hrest := ih (start * 10 + (c.toNat - '0'.toNat))
    change start ≤ Number.valueFrom (start * 10 + (c.toNat - '0'.toNat)) digits
    omega

/-- All digits are taken up if their value fits. -/
theorem significant_of_lt {start : Nat} {digits : List Char}
    (h : Number.valueFrom start digits < Number.wordLimit) :
    Number.significant start digits = (Number.valueFrom start digits, digits.length) := by
  induction digits generalizing start with
  | nil => rfl
  | cons c digits ih =>
    have hnext : Number.valueFrom start [c] < Number.wordLimit :=
      Nat.lt_of_le_of_lt (le_valueFrom _ digits) h
    have hrest : Number.significant (Number.valueFrom start [c]) digits =
        (Number.valueFrom start (c :: digits), digits.length) := ih h
    rw [Number.significant, if_pos hnext, hrest]
    rfl

/-- Rounding at most doubles a number. -/
theorem round53_le (n : Nat) : Number.round53 n ≤ 2 * n := by
  unfold Number.round53
  split
  · omega
  · next hn =>
    have hpos : n ≠ 0 := by
      rintro rfl
      exact hn (by decide)
    have hunit : Nat.pow 2 (n.log2 - 52) ≤ n :=
      Nat.le_trans (Nat.pow_le_pow_right (by decide) (Nat.sub_le _ _)) (Nat.log2_self_le hpos)
    have hquotient : n / Nat.pow 2 (n.log2 - 52) * Nat.pow 2 (n.log2 - 52) ≤ n :=
      Nat.div_mul_le_self _ _
    dsimp only
    split
    · rw [Nat.add_mul]
      omega
    · omega

theorem inRange_ofNat {n : Nat} (h : n < Nat.pow 2 64) : (Number.ofNat n).inRange = true := by
  have hsignificant : Number.significant 0 (decimal n) = (n, (decimal n).length) := by
    rw [significant_of_lt (by rwa [valueFrom_decimal]), valueFrom_decimal]
  have hround : Number.round53 n < Number.floatLimit := by
    refine Nat.lt_of_le_of_lt (round53_le n) (Nat.lt_of_lt_of_le (m := Nat.pow 2 65) ?_ ?_)
    · rw [show Nat.pow 2 65 = 2 * Nat.pow 2 64 by decide]
      omega
    · decide +kernel
  have hone : Number.round53 (Nat.pow 10 (0 : Int).toNat) = 1 := by decide
  have hproduct : Number.round53 n * Number.round53 (Nat.pow 10 (0 : Int).toNat) <
      Number.floatLimit := by
    rwa [hone, Nat.mul_one]
  have hexponent : (0 : Int) + ((decimal n).length - (decimal n).length : Nat) - (0 : Nat) = 0 := by
    omega
  rw [Number.inRange]
  simp only [Number.ofNat, hsignificant, Number.writtenExponent, Option.getD_none,
    Number.significant, hexponent]
  rw [decide_eq_true hproduct]
  exact Bool.or_true _

end RubyTree.Json
