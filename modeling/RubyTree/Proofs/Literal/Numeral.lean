import RubyTree.Proofs.Attaching
import RubyTree.Proofs.Memory.Effect

/-!
# Numbers and their signs

The text of a number token ends with the suffixes that wrap the number, and it may begin with a sign
`+`. The rules cut the suffixes off a text that still has its sign, put the sign outside first and
move it outside again at each wrapper. What comes out is said here without these steps: a `Numeral`
is the number's digits with the suffixes behind them, its text has everything that was written, and
a sign is one operator around the whole of it.

Nothing is asked of the text, so what is said holds of ill-formed numbers too.

Results:

* `NumberEvent.read_eq`: without a sign, the result is the node of the numeral that was written.
* `NumberEvent.read_plus`: with a sign, it is the operator `+` on the result without.
* `sign_outermost`: what the events of numbers come to, and that they leave the context alone.
-/

namespace RubyTree

open Rules

/-! ## Specification -/

/-- The events of number tokens. -/
inductive NumberEvent where
  | integer
  | float
  | rational
  | imaginary

/-- The production of the event. -/
def NumberEvent.production : NumberEvent → Production
  | integer => .integer
  | float => .floatNumber
  | rational => .rationalNumber
  | imaginary => .imaginaryNumber

/-- A number as it is written, without a sign: its digits and the suffixes behind them. -/
structure Numeral where
  isFloat : Bool
  digits : List Char
  rational : Option Char
  imaginary : Option Char

namespace Numeral

/-- Everything that is written. -/
def text (numeral : Numeral) : List Char :=
  numeral.digits ++ numeral.rational.toList ++ numeral.imaginary.toList

/-- The digits, in a leaf. -/
def leaf (numeral : Numeral) : Node :=
  .leaf (if numeral.isFloat then .floatNumber else .integerNumber) (String.ofList numeral.digits)

/-- A node around another if there is a suffix for it. -/
def within (kind : Kind) (suffix : Option Char) (node : Node) : Node :=
  suffix.elim node fun _ => .around kind (some node)

/-- The leaf inside at most one rational inside at most one complex number. -/
def node (numeral : Numeral) : Node :=
  within .complex numeral.imaginary (within .rational numeral.rational numeral.leaf)

/-- What an event may write. A rational has one suffix, whatever it is. An imaginary number has one
    too, and an `r` right before it is the suffix of a rational. Both are floats if there is a point
    among the digits. -/
def Suits (numeral : Numeral) : NumberEvent → Prop
  | .integer => numeral.isFloat = false ∧ numeral.rational = none ∧ numeral.imaginary = none
  | .float => numeral.isFloat = true ∧ numeral.rational = none ∧ numeral.imaginary = none
  | .rational =>
    numeral.isFloat = numeral.digits.contains '.' ∧ numeral.rational.isSome = true ∧
      numeral.imaginary = none
  | .imaginary =>
    numeral.isFloat = numeral.digits.contains '.' ∧ numeral.imaginary.isSome = true ∧
      (numeral.rational = some 'r' ∨
        numeral.rational = none ∧ numeral.digits.getLast? ≠ some 'r')

end Numeral

/-- The operator `+` on a node. -/
def plus (operand : Node) : Node := ⟨.unary, .unlabeled, [.token "+", .called "operand" operand]⟩

/-! ## The numeral of a text -/

/-- A number is a float if there is a point among its digits. -/
def Numeral.ofDigits (digits : List Char) (rational imaginary : Option Char) : Numeral :=
  ⟨digits.contains '.', digits, rational, imaginary⟩

/-- The numeral that a text without a sign writes. -/
def NumberEvent.numeral (text : List Char) : NumberEvent → Numeral
  | integer => ⟨false, text, none, none⟩
  | float => ⟨true, text, none, none⟩
  | rational => .ofDigits text.dropLast text.getLast? none
  | imaginary =>
    if text.dropLast.getLast? = some 'r' then
      .ofDigits text.dropLast.dropLast (some 'r') text.getLast?
    else .ofDigits text.dropLast none text.getLast?

theorem dropLast_append_getLast? {α : Type} (items : List α) :
    items.dropLast ++ items.getLast?.toList = items := by
  cases h : items.getLast? with
  | none => simp [List.getLast?_eq_none_iff.mp h]
  | some last => exact List.dropLast_append_getLast? last h

namespace NumberEvent

/-- Nothing that is written is lost. -/
theorem text_numeral (event : NumberEvent) (text : List Char) :
    (event.numeral text).text = text := by
  cases event with
  | integer | float => simp [numeral, Numeral.text]
  | rational =>
    simp only [numeral, Numeral.ofDigits, Numeral.text, Option.toList_none, List.append_nil]
    exact dropLast_append_getLast? text
  | imaginary =>
    simp only [numeral, Numeral.ofDigits, Numeral.text]
    split
    · next hr =>
      rw [← hr, dropLast_append_getLast?]
      exact dropLast_append_getLast? text
    · rw [Option.toList_none, List.append_nil]
      exact dropLast_append_getLast? text

theorem suits_numeral (event : NumberEvent) {text : List Char} (h : text ≠ []) :
    (event.numeral text).Suits event := by
  have hlast : text.getLast?.isSome = true := List.getLast?_isSome.mpr h
  cases event with
  | integer | float => exact ⟨rfl, rfl, rfl⟩
  | rational => exact ⟨rfl, hlast, rfl⟩
  | imaginary =>
    simp only [numeral]
    split
    · exact ⟨rfl, hlast, .inl rfl⟩
    · next hr => exact ⟨rfl, hlast, .inr ⟨rfl, hr⟩⟩

end NumberEvent

/-! ## Wrapping -/

theorem wrapNumber_of_kind_ne (kind : Kind) {number : Node} (h : number.kind ≠ .unary) :
    wrapNumber kind number = .around kind (some number) := by
  rw [wrapNumber, if_neg h]
  rfl

/-- The sign moves outside of the wrapper. -/
theorem wrapNumber_plus (kind : Kind) (number : Node) :
    wrapNumber kind (plus number) = plus (.around kind (some number)) := rfl

/-! ## Texts without a sign -/

theorem signed_of_head?_ne (kind : Kind) {text : List Char} (h : text.head? ≠ some '+') :
    signed kind text = .leaf kind (String.ofList text) := by
  unfold signed
  split
  · exact absurd rfl h
  · rfl

theorem signed_plus (kind : Kind) {text : List Char} (h : text.head? ≠ some '+') :
    signed kind ('+' :: text) = plus (signed kind text) := by
  rw [signed_of_head?_ne kind h]
  rfl

theorem number_of_head?_ne {text : List Char} (h : text.head? ≠ some '+') :
    number text = (Numeral.ofDigits text none none).leaf := by
  rw [number, signed_of_head?_ne _ h, signed_of_head?_ne _ h, Numeral.leaf, Numeral.ofDigits]
  split <;> rfl

theorem number_plus {text : List Char} (h : text.head? ≠ some '+') :
    number ('+' :: text) = plus (number text) := by
  have hpoint : ('+' :: text).contains '.' = text.contains '.' := by simp
  rw [number, number, hpoint, signed_plus _ h, signed_plus _ h]
  split <;> rfl

theorem kind_leaf_ne (numeral : Numeral) : numeral.leaf.kind ≠ .unary := by
  obtain ⟨isFloat, digits, rational, imaginary⟩ := numeral
  cases isFloat <;> exact Kind.noConfusion

/-- A text begins with a sign if it does when its last character is cut off. -/
theorem head?_dropLast_ne {text : List Char} (h : text.head? ≠ some '+') :
    text.dropLast.head? ≠ some '+' := by
  rw [List.head?_dropLast]
  split
  · exact h
  · exact nofun

theorem rationalNumber_of_head?_ne {text : List Char} (h : text.head? ≠ some '+') :
    rationalNumber text =
      .around .rational (some (Numeral.ofDigits text.dropLast none none).leaf) := by
  rw [rationalNumber, number_of_head?_ne (head?_dropLast_ne h)]
  exact wrapNumber_of_kind_ne .rational (kind_leaf_ne _)

theorem rationalNumber_plus {text : List Char} (hne : text ≠ []) (h : text.head? ≠ some '+') :
    rationalNumber ('+' :: text) = plus (rationalNumber text) := by
  have hnumber := number_of_head?_ne (head?_dropLast_ne h)
  rw [rationalNumber, rationalNumber, List.dropLast_cons_of_ne_nil hne,
    number_plus (head?_dropLast_ne h), wrapNumber_plus, hnumber,
    wrapNumber_of_kind_ne _ (kind_leaf_ne _)]

/-! ## Reading a number token -/

namespace NumberEvent

/-- How an event reads the text of its token. -/
def read : NumberEvent → List Char → Node
  | integer => signed .integerNumber
  | float => signed .floatNumber
  | rational => rationalNumber
  | imaginary => imaginaryNumber

theorem exec_handle (event : NumberEvent) (token : Value) (position : Position)
    (scanned : Option String) (context : Context) :
    (handle event.production.name [token] position scanned).exec context =
      (.ok (.node (event.read token.spelling.toList)), context.enter position scanned) := by
  rw [exec_handle_name]
  cases event <;> rfl

theorem read_eq (event : NumberEvent) {text : List Char} (hne : text ≠ [])
    (h : text.head? ≠ some '+') : event.read text = (event.numeral text).node := by
  obtain ⟨suffix, hsuffix⟩ := Option.isSome_iff_exists.mp (List.getLast?_isSome.mpr hne)
  have hbody := head?_dropLast_ne h
  cases event with
  | integer => exact signed_of_head?_ne .integerNumber h
  | float => exact signed_of_head?_ne .floatNumber h
  | rational =>
    rw [read, rationalNumber_of_head?_ne h, numeral, hsuffix]
    rfl
  | imaginary =>
    rw [read, imaginaryNumber, numeral, hsuffix]
    split
    · rw [rationalNumber_of_head?_ne hbody, wrapNumber_of_kind_ne]
      · rfl
      · exact Kind.noConfusion
    · rw [number_of_head?_ne hbody, wrapNumber_of_kind_ne _ (kind_leaf_ne _)]
      rfl

theorem read_plus (event : NumberEvent) {text : List Char} (hne : text ≠ [])
    (h : text.head? ≠ some '+') : event.read ('+' :: text) = plus (event.read text) := by
  have hbody := head?_dropLast_ne h
  cases event with
  | integer => exact signed_plus .integerNumber h
  | float => exact signed_plus .floatNumber h
  | rational => exact rationalNumber_plus hne h
  | imaginary =>
    -- the sign is no `r`, so it does not matter for which suffixes there are
    have hlast :
        ('+' :: text.dropLast).getLast? = some 'r' ↔ text.dropLast.getLast? = some 'r' := by
      rw [List.getLast?_cons]
      cases text.dropLast.getLast? <;> simp
    simp only [read, imaginaryNumber, List.dropLast_cons_of_ne_nil hne, hlast]
    split
    · next hr =>
      have hne : text.dropLast ≠ [] := by
        intro hnil
        rw [hnil] at hr
        cases hr
      rw [rationalNumber_plus hne hbody, wrapNumber_plus, rationalNumber_of_head?_ne hbody,
        wrapNumber_of_kind_ne]
      exact Kind.noConfusion
    · rw [number_plus hbody, wrapNumber_plus, number_of_head?_ne hbody,
        wrapNumber_of_kind_ne _ (kind_leaf_ne _)]

end NumberEvent

/-- A number token without a sign becomes the node of a numeral whose text is that of the token.
    The same text with a sign `+` before it becomes the operator `+` on that node, which is also
    what an operator event with this operand comes to. None of them changes anything in the context
    that has moved on to it, even where a parenthesis has just closed. -/
theorem sign_outermost (event : NumberEvent) {text : List Char} (hne : text ≠ [])
    (hsign : text.head? ≠ some '+') {plain signed operator : Value}
    (hplain : plain.spelling.toList = text) (hsigned : signed.spelling.toList = '+' :: text)
    (hoperator : operator.spelling = "+") (position : Position) (scanned : Option String)
    (context : Context) :
    let numeral := event.numeral text
    numeral.text = text ∧ numeral.Suits event ∧
      (handle event.production.name [plain] position scanned).exec context =
        (.ok (.node numeral.node), context.enter position scanned) ∧
      (handle event.production.name [signed] position scanned).exec context =
        (.ok (.node (plus numeral.node)), context.enter position scanned) ∧
      (handle Production.unary.name [operator, .node numeral.node] position scanned).exec context =
        (.ok (.node (plus numeral.node)), context.enter position scanned) := by
  intro numeral
  refine ⟨event.text_numeral text, event.suits_numeral hne, ?_, ?_, ?_⟩
  · rw [event.exec_handle, hplain, event.read_eq hne hsign]
  · rw [event.exec_handle, hsigned, event.read_plus hne hsign, event.read_eq hne hsign]
  · rw [exec_handle_name]
    change (Rules.unary operator (.node numeral.node)).exec _ = _
    rw [Rules.unary, Build.exec_bind, Build.exec_ofOutcome, Value.asNode?_node, hoperator]
    exact exec_apply "+" _ _

/-- A rational imaginary number, right behind a closing parenthesis. -/
theorem sign_outermost_behindParen :
    let closed : Context := { lastParen := some ⟨⟨1, 2⟩, false⟩ }
    let number : Node :=
      .around .complex (some (.around .rational (some (.leaf .floatNumber "1.5"))))
    (closed.enter ⟨1, 3⟩ none).parenJustClosed = true ∧
      (handle "imaginary" [.text "1.5ri"] ⟨1, 3⟩ none).exec closed =
        (.ok (.node number), closed.enter ⟨1, 3⟩ none) ∧
      (handle "imaginary" [.text "+1.5ri"] ⟨1, 3⟩ none).exec closed =
        (.ok (.node (plus number)), closed.enter ⟨1, 3⟩ none) := by
  intro closed number
  have hplain : (Value.text "1.5ri").spelling.toList = "1.5ri".toList := rfl
  have hsigned : (Value.text "+1.5ri").spelling.toList = '+' :: "1.5ri".toList := rfl
  have hoperator : (Value.symbol "+").spelling = "+" := rfl
  have h := sign_outermost .imaginary (by decide) (by decide) hplain hsigned hoperator ⟨1, 3⟩ none
    closed
  exact ⟨rfl, h.2.2.1, h.2.2.2.1⟩

end RubyTree
