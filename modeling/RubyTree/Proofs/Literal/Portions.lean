import RubyTree.Proofs.Literal.Command
import RubyTree.Proofs.Literal.Tokens

/-!
# Text that arrives in portions

A text may reach a literal at once or in portions, one event for each. The children are the same if
no portion ends inside a token. The scan remembers nothing from one token to the next, so what is
behind such a seam is split as if it stood alone. In front of the seam the reason is the rules for
tokens: an escape that begins in the shorter text begins in the longer one too, so cutting makes no
escape appear and lets none grow, and the escape that ends at the seam is still there.

Results:

* `IsTokenization.split`: the rules hold on both sides of a seam.
* `exec_feed`: what a literal is after any number of portions.
* `splitEscapes_seam`: a text in two portions that meet at a seam is the text at once.
-/

namespace RubyTree.Literal

open Rules

/-! ## Seams -/

theorem StandsAt.append {text : List Char} {position : Nat} {escape : List Char}
    (h : StandsAt text position escape) (more : List Char) :
    StandsAt (text ++ more) position escape := by
  refine ⟨h.1, h.2.trans ?_⟩
  rw [List.drop_append]
  exact List.prefix_append _ _

/-- A token that follows the rules still does when the text behind it is cut. -/
theorem Piece.Obeys.of_append {token : Piece} {near far : List Char}
    (h : token.Obeys (token.text ++ (near ++ far)) 0) : token.Obeys (token.text ++ near) 0 := by
  rw [← List.append_assoc] at h
  cases token with
  | content token =>
    exact fun offset hoffset escape hstands => h offset hoffset escape (hstands.append far)
  | escape token =>
    obtain ⟨hstands, hlongest⟩ := h
    exact ⟨⟨hstands.1, List.prefix_append _ _⟩,
      fun other hother => hlongest other (hother.append far)⟩

/-- By induction on the tokens in front of the seam. -/
theorem IsTokenization.split {text : List Char} {front back : List Piece}
    (h : IsTokenization text (front ++ back)) :
    IsTokenization (spelled front) front ∧ IsTokenization (spelled back) back := by
  induction front generalizing text with
  | nil =>
    obtain rfl := h.covers
    exact ⟨isTokenization_nil_iff.mpr rfl, h⟩
  | cons token front ih =>
    rw [List.cons_append] at h
    obtain ⟨-, hne, hobeys, hhead, hrest⟩ := isTokenization_cons_iff.mp h
    obtain ⟨hfront, hback⟩ := ih hrest
    rw [spelled_append] at hobeys
    refine ⟨isTokenization_cons_iff.mpr ⟨rfl, hne, hobeys.of_append, ?_, hfront⟩, hback⟩
    intro next hnext
    exact hhead next (List.mem_head?_append_of_mem_head? hnext)

/-- The text in front of a position. -/
def before (text : String) (position : Nat) : String := String.ofList (text.toList.take position)

/-- The text from a position on. -/
def behind (text : String) (position : Nat) : String := String.ofList (text.toList.drop position)

/-- A position where a token of a text ends, or where the text begins. -/
def IsSeam (text : String) (position : Nat) : Prop :=
  ∃ front back, pieces text.toList = front ++ back ∧ (spelled front).length = position

theorem splitEscapes_eq_append {text : String} {position : Nat} (h : IsSeam text position) :
    splitEscapes text =
      splitEscapes (before text position) ++ splitEscapes (behind text position) := by
  obtain ⟨front, back, hpieces, rfl⟩ := h
  have hwhole := isTokenization_pieces text.toList
  rw [hpieces] at hwhole
  have hcovers := hwhole.covers
  rw [spelled_append] at hcovers
  have hbefore : (before text (spelled front).length).toList = spelled front := by
    rw [before, String.toList_ofList, ← hcovers, List.take_left']
    rfl
  have hbehind : (behind text (spelled front).length).toList = spelled back := by
    rw [behind, String.toList_ofList, ← hcovers, List.drop_left']
    rfl
  obtain ⟨hfront, hback⟩ := hwhole.split
  rw [splitEscapes, splitEscapes, splitEscapes, hbefore, hbehind, hpieces, List.map_append,
    ← hfront.eq_pieces, ← hback.eq_pieces]

/-! ## Literals that texts are added to -/

/-- A literal under construction: a string, or the parts of a regular expression or of a word. -/
inductive Begun where
  | string (node : Node)
  | parts (items : List Value)

namespace Begun

/-- The value that stands for the literal. -/
def value : Begun → Value
  | string node => .node node
  | parts items => .list items

/-- The productions that add a text to the literal. -/
def adding : Begun → List Production
  | string _ => [.stringAdd, .xstringAdd]
  | parts _ => [.regexpAdd, .wordAdd]

/-- The literal with more children. -/
def grown (leaves : List Node) : Begun → Begun
  | string node => .string (node.attachAll leaves)
  | parts items => .parts (items ++ leaves.map .node)

theorem grown_nil (literal : Begun) : literal.grown [] = literal := by
  cases literal with
  | string node =>
    obtain ⟨kind, field, children⟩ := node
    exact congrArg (Begun.string ⟨kind, field, ·⟩) (List.append_nil children)
  | parts items => exact congrArg Begun.parts (List.append_nil items)

theorem grown_append (literal : Begun) (front back : List Node) :
    literal.grown (front ++ back) = (literal.grown front).grown back := by
  cases literal with
  | string node => rw [grown, grown, grown, Node.attachAll_attachAll]
  | parts items => rw [grown, grown, grown, List.map_append, List.append_assoc]

theorem adding_grown (literal : Begun) (leaves : List Node) :
    (literal.grown leaves).adding = literal.adding := by
  cases literal <;> rfl

end Begun

@[simp] theorem Moment.inRaw_reached (moment : Moment) (context : Context) :
    (moment.reached context).inRaw = context.inRaw := by
  rw [Context.inRaw, Context.inRaw, Context.opener?, Context.opener?, moment.openers_reached]

/-- One event adds the leaves of a text. -/
theorem exec_fire_text (literal : Begun) {add : Production} (hadd : add ∈ literal.adding)
    (moment : Moment) (text : String) {context : Context} (hraw : context.inRaw = false) :
    (moment.fire add [literal.value, .text text]).exec context =
      (.ok (literal.grown (splitEscapes text)).value, moment.reached context) := by
  have hsplit : splitContent (moment.reached context) text = splitEscapes text := by
    rw [splitContent, moment.inRaw_reached, hraw, if_neg Bool.false_ne_true]
  rw [moment.exec_fire]
  cases literal with
  | string node =>
    have hrule : ruleOf add = .two stringAdd := by
      simp only [Begun.adding, List.mem_cons, List.not_mem_nil, or_false] at hadd
      rcases hadd with rfl | rfl <;> rfl
    simp [hrule, Rule.apply, Begun.value, Begun.grown, stringAdd, hsplit, Except.map]
  | parts items =>
    obtain ⟨what, hrule⟩ : ∃ what, ruleOf add = .two (addPart what) := by
      simp only [Begun.adding, List.mem_cons, List.not_mem_nil, or_false] at hadd
      rcases hadd with rfl | rfl <;> exact ⟨_, rfl⟩
    simp [hrule, Rule.apply, Begun.value, Begun.grown, addPart, contentParts, hsplit,
      Except.map]

/-- Adds texts to a literal, one event after the other. -/
def feed (add : Production) (literal : Value) (texts : List (Moment × String)) : Build Value :=
  texts.foldlM (fun literal text => text.1.fire add [literal, .text text.2]) literal

/-- By induction on the texts, whatever the literal holds already. -/
theorem exec_feed (literal : Begun) {add : Production} (hadd : add ∈ literal.adding)
    (texts : List (Moment × String)) {context : Context} (hraw : context.inRaw = false) :
    ((feed add literal.value texts).exec context).1 =
      .ok (literal.grown (texts.flatMap fun text => splitEscapes text.2)).value := by
  induction texts generalizing literal context with
  | nil => rw [List.flatMap_nil, literal.grown_nil, feed, List.foldlM_nil, Build.exec_pure]
  | cons text texts ih =>
    have hrest := ih (literal.grown (splitEscapes text.2))
      ((literal.adding_grown _).symm ▸ hadd) ((text.1.inRaw_reached context).trans hraw)
    rw [feed, List.foldlM_cons, Build.exec_bind, exec_fire_text literal hadd text.1 text.2 hraw,
      List.flatMap_cons, literal.grown_append]
    exact hrest

/-- A text is the text in front of a seam and the text behind it. A literal in which escapes are
    interpreted has the same children whether it gets the text at once or in these two portions,
    whatever literals are completed in between. -/
theorem splitEscapes_seam {text : String} {position : Nat} (h : IsSeam text position) :
    splitEscapes text =
      splitEscapes (before text position) ++ splitEscapes (behind text position) ∧
    ∀ context : Context, context.inRaw = false →
      ∀ literal : Begun, ∀ add ∈ literal.adding, ∀ once first second : Moment,
        ((feed add literal.value [(once, text)]).exec context).1 =
          .ok (literal.grown (splitEscapes text)).value ∧
        ((feed add literal.value
          [(first, before text position), (second, behind text position)]).exec context).1 =
          .ok (literal.grown (splitEscapes text)).value := by
  have happend := splitEscapes_eq_append h
  refine ⟨happend, fun context hraw literal add hadd once first second => ⟨?_, ?_⟩⟩
  · rw [exec_feed literal hadd _ hraw, List.flatMap_singleton]
  · rw [exec_feed literal hadd _ hraw, List.flatMap_cons, List.flatMap_singleton, happend]

/-- The digit behind the seam is not taken into the escape in front of it: three octal digits are
    all that an escape has. -/
theorem splitEscapes_seam_octal :
    IsSeam "ab\\1012\\x4\\" 6 ∧ (Context.initial.openLiteral "\"").inRaw = false ∧
    splitEscapes "ab\\1012\\x4\\" = splitEscapes "ab\\101" ++ splitEscapes "2\\x4\\" ∧
    ((feed .stringAdd (.node (.ofKind .stringLiteral))
      [(.inColumn 1, "ab\\101"), (.inColumn 7, "2\\x4\\")]).exec
        (Context.initial.openLiteral "\"")).1 =
      .ok (.node ((Node.ofKind .stringLiteral).attachAll (splitEscapes "ab\\1012\\x4\\"))) := by
  have hseam : IsSeam "ab\\1012\\x4\\" 6 :=
    ⟨[.content ['a', 'b'], .escape ['\\', '1', '0', '1']],
      [.content ['2'], .escape ['\\', 'x', '4'], .content ['\\']], by decide +kernel, rfl⟩
  have hraw : (Context.initial.openLiteral "\"").inRaw = false := by decide
  obtain ⟨happend, hfeed⟩ := splitEscapes_seam hseam
  have hportions := hfeed _ hraw (.string (.ofKind .stringLiteral)) .stringAdd (.head _)
    (.inColumn 1) (.inColumn 1) (.inColumn 7)
  exact ⟨hseam, hraw, happend, hportions.2⟩

end RubyTree.Literal
