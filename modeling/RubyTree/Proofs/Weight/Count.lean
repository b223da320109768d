import RubyTree.Proofs.Weight.Replay

/-!
# No node is doubled

Instance variables, class variables, global variables, hash keys and characters each have a kind of
their own, and only a token of that sort makes a node of it. On a scale for such a kind every node of
it weighs one, so the nodes of a token in a finished tree are at most as many as the events that
delivered such a token.

Results:

* `Node.weight_scale`: on the scale of a token, a tree weighs as much as it has nodes of the token.
* `count_le_of_replay`: a finished tree has at most one node for each event that delivers the token.
-/

namespace RubyTree

/-! ## Tokens with a kind of their own -/

/-- The tokens whose nodes are of a kind that nothing else makes. -/
inductive Scanned where
  | instanceVariable | classVariable | globalVariable | hashKey | character

namespace Scanned

/-- The kind of the node of a token. -/
def kind : Scanned → Kind
  | instanceVariable => .instanceVariable
  | classVariable => .classVariable
  | globalVariable => .globalVariable
  | hashKey => .hashKeySymbol
  | character => .character

/-- The names of the events that deliver a token. -/
def events : Scanned → List String
  | instanceVariable => ["ivar"]
  | classVariable => ["cvar"]
  | globalVariable => ["gvar", "backref"]
  | hashKey => ["label"]
  | character => ["CHAR"]

end Scanned

/-! ## Counting -/

namespace Node

mutual

/-- How many nodes of a tree are of the kind of a token. -/
def count (token : Scanned) : Node → Nat
  | ⟨kind, _, children⟩ => (if kind = token.kind then 1 else 0) + countAmong token children

/-- How many nodes of the trees among children are of the kind of a token. -/
def countAmong (token : Scanned) : List (Child Node) → Nat
  | [] => 0
  | .token _ :: children => countAmong token children
  | .node child :: children => count token child + countAmong token children

end

end Node

/-- The scale on which the nodes of a token weigh one each. -/
def Scanned.scale (token : Scanned) : Scale where
  kind kind := if kind = token.kind then 1 else 0
  label _ := 0
  kind_eq_zero := by
    rintro _ h
    refine if_neg ?_
    rintro rfl
    cases token <;> cases h
  label_eq_zero _ := rfl

namespace Node

variable {token : Scanned}

mutual

theorem weight_scale : (node : Node) → node.weight token.scale = node.count token
  | ⟨_, _, children⟩ => congrArg _ (weightAmong_scale children)

theorem weightAmong_scale : (children : List (Child Node)) →
    weightAmong token.scale children = countAmong token children
  | [] => rfl
  | .token _ :: children => weightAmong_scale children
  | .node child :: children => by
    have hlabel : token.scale.field child.field = 0 := by cases child.field <;> rfl
    rw [weightAmong, countAmong, hlabel, Nat.zero_add, weight_scale child,
      weightAmong_scale children]

end

end Node

/-! ## Replays -/

variable (token : Scanned)

theorem mem_events_of_tokenKind? {production : Production}
    (h : production.tokenKind? = some token.kind) : production.name ∈ token.events := by
  cases production with
  | instanceVariable | classVariable | globalVariable | backReference | label | charLiteral =>
    revert h
    cases token <;> decide
  | _ => cases h

/-- An event that does not deliver the token adds nothing to the scale of the token. -/
theorem made_scale_le (event : String) :
    token.scale.made event ≤ if event ∈ token.events then 1 else 0 := by
  rw [Scale.made]
  cases hproduction : Production.ofName? event with
  | none => exact Nat.zero_le _
  | some production =>
    obtain rfl := Production.ofName?_eq_some_iff.mp hproduction
    rw [Option.bind_some]
    cases hkind : production.tokenKind? with
    | none => exact Nat.zero_le _
    | some kind =>
      change (if kind = token.kind then 1 else 0) ≤ _
      split
      · next heq =>
        subst heq
        exact Nat.le_of_eq (if_pos (mem_events_of_tokenKind? token hkind)).symm
      · exact Nat.zero_le _

theorem sum_made_scale_le (events : List Event) :
    (events.map fun event => token.scale.made event.name).sum ≤
      events.countP fun event => event.name ∈ token.events := by
  induction events with
  | nil => exact Nat.le_refl _
  | cons event events ih =>
    have hadded := made_scale_le token event.name
    rw [List.map_cons, List.sum_cons, List.countP_cons]
    simp only [decide_eq_true_eq]
    omega

/-- In a stream that replays, the nodes of a token anywhere in the finished tree are at most as many
    as the events that delivered the token. -/
theorem count_le_of_replay {events : List Event} {normalized : Normalized}
    (h : replay events = .ok normalized) : ∀ tree ∈ normalized.tree,
      tree.count token ≤ events.countP fun event => event.name ∈ token.events := by
  intro tree htree
  rw [← Node.weight_scale tree]
  exact Nat.le_trans (weight_le_of_replay token.scale h tree htree) (sum_made_scale_le token events)

/-- A `case` with an alternative of two variables: `case c in @a | @b`. -/
def alternatives : List Event := [
  { name := "ident", args := [.text "c"] },
  { name := "ivar", args := [.text "@a"] },
  { name := "ivar", args := [.text "@b"] },
  { name := "binary", args := [.ref 1, .symbol "|", .ref 2] },
  { name := "in", args := [.ref 3, .list [], .absent] },
  { name := "case", args := [.ref 0, .ref 4] },
  { name := "program", args := [.list [.ref 5]] }]

/-- Each of the two variables stands in the tree once. -/
theorem count_alternatives : ∃ normalized tree, replay alternatives = .ok normalized ∧
    normalized.tree = some tree ∧ tree.count .instanceVariable = 2 ∧
    tree.count .instanceVariable ≤
      alternatives.countP fun event => event.name ∈ Scanned.instanceVariable.events := by
  have hcheck : (replay alternatives).toOption.any (fun normalized =>
      normalized.tree.any fun tree => decide (tree.count .instanceVariable = 2)) = true := by
    decide +kernel
  cases hrun : replay alternatives with
  | error cause =>
    rw [hrun] at hcheck
    cases hcheck
  | ok normalized =>
    rw [hrun] at hcheck
    obtain ⟨tree, htree, hcount⟩ : ∃ tree, normalized.tree = some tree ∧
        decide (tree.count .instanceVariable = 2) = true := (Option.any_eq_true _ _).mp hcheck
    exact ⟨normalized, tree, rfl, htree, of_decide_eq_true hcount,
      count_le_of_replay .instanceVariable hrun tree htree⟩

end RubyTree
