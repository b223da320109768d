import Mathlib.Data.List.Basic
import RubyTree.Proofs.Attaching
import RubyTree.Proofs.Dispatch

/-!
# Names of methods

A definition, an alias and an `undef` take the name of a method through `methodName`, which tells
symbols, operators, constants, globals and setters from plain identifiers. A call does not: it only
reads a capitalised name as a constant, `promoted`. The two agree on every identifier but those that
end in `=`, which are setters where a method is named and stay what they are where one is called.

Classification is settled after one step for every node that has the kind of a name. For other nodes
it is not: a keyword becomes an identifier first, and the identifier may be capitalised or end in
`=`.

Results:

* `methodName_eq_setter`: an identifier that ends in `=`.
* `methodName_eq_promoted_iff`: the identifiers on which both ways agree.
* `methodName_eq_self_iff`: the names that are settled.
* `methodName_classifies`: what names become and what calls hold.
-/

namespace RubyTree.Rules

/-- The kinds of nodes that name methods. -/
def methodNameKinds : List Kind :=
  [.simpleSymbol, .operator, .delimitedSymbol, .constant, .globalVariable, .setter, .identifier]

/-- The text that the node begins with ends in `=`, behind `base`. -/
def IsAssigning (node : Node) (base : String) : Prop := node.token? = some (base ++ "=")

/-! ## Kinds and texts -/

theorem mem_methodNameKinds_iff {kind : Kind} :
    kind ∈ methodNameKinds ↔ isNameKind kind = true ∨ kind = .identifier := by
  constructor
  · intro h
    simp only [methodNameKinds, List.mem_cons, List.not_mem_nil, or_false] at h
    rcases h with rfl | rfl | rfl | rfl | rfl | rfl | rfl
    all_goals decide
  · rintro (h | rfl)
    · unfold isNameKind at h
      split at h
      all_goals first | decide | cases h
    · decide

theorem withoutLast?_eq_some_iff {last : Char} {text base : String} :
    withoutLast? last text = some base ↔ text = base ++ String.ofList [last] := by
  have happend : (base ++ String.ofList [last]).toList = base.toList ++ [last] := by
    rw [String.toList_append, String.toList_ofList]
  constructor
  · intro h
    unfold withoutLast? at h
    split at h
    · next hlast =>
      cases h
      rw [← String.toList_inj, happend, String.toList_ofList]
      exact (List.dropLast_append_getLast? last hlast).symm
    · cases h
  · rintro rfl
    rw [withoutLast?, happend, List.getLast?_concat, if_pos rfl, List.dropLast_concat,
      String.ofList_toList]

/-- The text that a node begins with, less the `=` at its end. -/
theorem bind_withoutLast?_eq_some_iff {node : Node} {base : String} :
    node.token?.bind (withoutLast? '=') = some base ↔ IsAssigning node base := by
  rw [Option.bind_eq_some_iff, IsAssigning]
  constructor
  · rintro ⟨text, htext, hbase⟩
    rw [htext, withoutLast?_eq_some_iff.mp hbase]
  · intro h
    exact ⟨_, h, withoutLast?_eq_some_iff.mpr rfl⟩

/-! ## What identifiers become -/

section Identifier

variable {node : Node}

/-- Whatever else the node holds is left out. -/
theorem methodName_eq_setter {base : String} (hkind : node.kind = .identifier)
    (h : IsAssigning node base) :
    methodName node = ⟨.setter, .unlabeled, [.called "name" (.leaf .identifier base)]⟩ := by
  rw [methodName, if_neg (by rw [hkind]; decide), if_pos hkind,
    bind_withoutLast?_eq_some_iff.mpr h]
  rfl

theorem methodName_eq_promoted (hkind : node.kind = .identifier)
    (h : ∀ base, ¬ IsAssigning node base) : methodName node = promoted node := by
  have hnone : node.token?.bind (withoutLast? '=') = none := by
    rw [Option.eq_none_iff_forall_ne_some]
    exact fun base hbase => h base (bind_withoutLast?_eq_some_iff.mp hbase)
  rw [methodName, if_neg (by rw [hkind]; decide), if_pos hkind, hnone, promoted]
  simp only [hkind, true_and]

theorem kind_promoted (hkind : node.kind = .identifier) :
    (promoted node).kind = if node.startsUppercase then .constant else .identifier := by
  rw [promoted]
  by_cases hupper : node.startsUppercase = true
  · rw [if_pos ⟨hkind, hupper⟩, if_pos hupper]
    rfl
  · rw [if_neg fun h => hupper h.2, if_neg hupper]
    exact hkind

/-- A name that is called reads as it would where the method is named, unless it is a setter
    there. -/
theorem methodName_eq_promoted_iff (hkind : node.kind = .identifier) :
    methodName node = promoted node ↔ ∀ base, ¬ IsAssigning node base := by
  refine ⟨fun heq base h => ?_, methodName_eq_promoted hkind⟩
  have hsetter : (promoted node).kind = .setter := by
    rw [← heq, methodName_eq_setter hkind h]
  rw [kind_promoted hkind] at hsetter
  split at hsetter
  all_goals cases hsetter

end Identifier

/-! ## Settled names -/

/-- A name is settled if its kind says so already, or if it is a plain identifier. -/
theorem methodName_eq_self_iff (node : Node) : methodName node = node ↔
    isNameKind node.kind = true ∨ (node.kind = .identifier ∧ node.startsUppercase = false ∧
      ∀ base, ¬ IsAssigning node base) := by
  by_cases hname : isNameKind node.kind = true
  · exact iff_of_true (methodName_of_isNameKind hname) (.inl hname)
  · rw [or_iff_right hname]
    constructor
    · intro h
      have hkind : node.kind = .identifier := by
        by_contra hne
        have hretag : methodName node = node.retag .identifier := by
          rw [methodName, if_neg hname, if_neg hne]
        rw [hretag] at h
        exact hne (congrArg Node.kind h).symm
      have hplain : ∀ base, ¬ IsAssigning node base := by
        intro base hbase
        rw [methodName_eq_setter hkind hbase] at h
        cases hkind.symm.trans (congrArg Node.kind h).symm
      rw [methodName_eq_promoted hkind hplain] at h
      have hpromoted := kind_promoted hkind
      rw [h, hkind] at hpromoted
      refine ⟨hkind, ?_, hplain⟩
      by_contra hupper
      rw [if_pos (by simpa using hupper)] at hpromoted
      cases hpromoted
    · rintro ⟨hkind, hupper, hplain⟩
      rw [methodName_eq_promoted hkind hplain, promoted, if_neg (by simp [hupper])]

theorem kind_methodName (node : Node) : (methodName node).kind ∈ methodNameKinds := by
  rw [mem_methodNameKinds_iff]
  by_cases hname : isNameKind node.kind = true
  · rw [methodName_of_isNameKind hname]
    exact .inl hname
  by_cases hkind : node.kind = .identifier
  · by_cases hplain : ∀ base, ¬ IsAssigning node base
    · rw [methodName_eq_promoted hkind hplain, kind_promoted hkind]
      split
      · exact .inl rfl
      · exact .inr rfl
    · obtain ⟨base, hbase⟩ := not_forall_not.mp hplain
      rw [methodName_eq_setter hkind hbase]
      exact .inl rfl
  · rw [methodName, if_neg hname, if_neg hkind]
    exact .inr rfl

/-- A second step changes nothing: the first one leaves a setter, a constant, or an identifier that
    is neither capitalised nor ends in `=`. -/
theorem methodName_methodName {node : Node} (h : node.kind ∈ methodNameKinds) :
    methodName (methodName node) = methodName node := by
  rcases mem_methodNameKinds_iff.mp h with hname | hkind
  · rw [methodName_of_isNameKind hname, methodName_of_isNameKind hname]
  · rw [methodName_eq_self_iff]
    by_cases hplain : ∀ base, ¬ IsAssigning node base
    · rw [methodName_eq_promoted hkind hplain]
      by_cases hupper : node.startsUppercase = true
      · refine .inl ?_
        rw [kind_promoted hkind, if_pos hupper]
        rfl
      · refine .inr ?_
        rw [promoted, if_neg fun h => hupper h.2]
        exact ⟨hkind, by simpa using hupper, hplain⟩
    · obtain ⟨base, hbase⟩ := not_forall_not.mp hplain
      rw [methodName_eq_setter hkind hbase]
      exact .inl rfl

-- a keyword becomes an identifier first, and a setter next
example : methodName (methodName (.leaf .selfReference "self=")) ≠
    methodName (.leaf .selfReference "self=") := by decide +kernel

/-! ## Calls -/

/-- A call holds its receiver, its operator and its method, read as a constant if it is
    capitalised. -/
theorem call_node (receiver : Value.Read Value.asNode?) (operator : Value) (method : Node) :
    call receiver.value operator (.node method) = .ok (.node ⟨.call, .unlabeled,
      receiver.found.toList.map (.called "receiver") ++
        [.token operator.spelling, .called "method" (promoted method)]⟩) := by
  rw [call, receiver.reads]
  change Except.ok (Value.node ((((Node.ofKind .call).attachAs? "receiver"
    receiver.found).attachToken operator.spelling).attachAs "method" (promoted method))) = _
  rw [Node.attachAs?_eq, Node.extend_ofKind, Node.attachAs_eq, Node.attachToken, Node.extend,
    List.append_assoc]
  rfl

/-- The name of a method has one of seven kinds, and a node that has one of them already is settled
    by the first step. A call holds the same name under its own label if it is an identifier that
    does not end in `=`; one that does is a setter around the identifier in front of the `=`,
    capitalised or not. -/
theorem methodName_classifies :
    (∀ node, (methodName node).kind ∈ methodNameKinds) ∧
    (∀ node, node.kind ∈ methodNameKinds →
      methodName (methodName node) = methodName node) ∧
    ∀ node, node.kind = .identifier →
      ((∀ base, node.token? ≠ some (base ++ "=")) →
        ∀ (receiver : Value.Read Value.asNode?) (operator : Value),
          call receiver.value operator (.node node) = .ok (.node ⟨.call, .unlabeled,
            receiver.found.toList.map (.called "receiver") ++
              [.token operator.spelling, .called "method" (methodName node)]⟩)) ∧
      ∀ base, node.token? = some (base ++ "=") →
        methodName node = ⟨.setter, .unlabeled, [.called "name" (.leaf .identifier base)]⟩ := by
  refine ⟨kind_methodName, fun node => methodName_methodName, fun node hkind => ⟨?_, ?_⟩⟩
  · intro hplain receiver operator
    rw [(methodName_eq_promoted_iff hkind).mpr hplain]
    exact call_node receiver operator node
  · intro base hbase
    exact methodName_eq_setter hkind hbase

/-- The names `Name` and `Name=`. -/
theorem methodName_classifies_capitalized :
    (∀ base, (Node.leaf .identifier "Name").token? ≠ some (base ++ "=")) ∧
    call .absent (.text ".") (.node (.leaf .identifier "Name")) = .ok (.node
      ⟨.call, .unlabeled, [.token ".", .called "method" (.leaf .constant "Name")]⟩) ∧
    methodName (.leaf .identifier "Name=") =
      ⟨.setter, .unlabeled, [.called "name" (.leaf .identifier "Name")]⟩ ∧
    methodName (methodName (.leaf .identifier "Name=")) =
      ⟨.setter, .unlabeled, [.called "name" (.leaf .identifier "Name")]⟩ := by
  obtain ⟨-, hsettled, hidentifier⟩ := methodName_classifies
  have hplain : ∀ base, (Node.leaf .identifier "Name").token? ≠ some (base ++ "=") := by
    intro base h
    have hlast := congrArg (fun text => text.toList.getLast?) (Option.some.inj h)
    rw [String.toList_append] at hlast
    have hequals : (base.toList ++ "=".toList).getLast? = some '=' := List.getLast?_concat
    cases hlast.trans hequals
  have hsetter := (hidentifier (.leaf .identifier "Name=") rfl).2 "Name" rfl
  refine ⟨hplain, ?_, hsetter, ?_⟩
  · exact (hidentifier (.leaf .identifier "Name") rfl).1 hplain (.ofNode? none) (.text ".")
  · rw [hsettled (.leaf .identifier "Name=") (by decide), hsetter]

end RubyTree.Rules
