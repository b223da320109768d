import RubyTree.Proofs.Dump.Reading
import RubyTree.Proofs.Weight.Replay

/-!
# Labels of replayed trees

No argument of an event brings a label along, and every label that a rule gives is a word. On the
scale where a label weighs nothing just if it is a word, kinds weigh nothing either, so the tokens
add no weight, and finished trees weigh nothing.

Results:

* `Node.wellLabeled_iff_weight`: a tree is well labeled if it weighs nothing on that scale.
* `wellLabeled_of_replay`: a stream that replays gives a well labeled tree.
-/

namespace RubyTree

namespace Node

/-- The labels that rules give are words. -/
theorem isWord_of_isGiven {name : String} (h : isGiven name = true) : IsWord name := by
  unfold isGiven at h
  split at h
  all_goals first | decide | cases h

/-- The scale on which the labels that are no words weigh one each. -/
def labelScale : Scale where
  kind _ := 0
  label name := if IsWord name then 0 else 1
  kind_eq_zero _ := rfl
  label_eq_zero h := if_pos (isWord_of_isGiven h)

theorem field_labelScale_eq_zero_iff (field : Field) :
    labelScale.field field = 0 ↔ ∀ name ∈ field.name?, IsWord name := by
  cases field with
  | unlabeled => exact iff_of_true rfl nofun
  | named name =>
    change (if IsWord name then 0 else 1) = 0 ↔ ∀ other ∈ some name, IsWord other
    by_cases hword : IsWord name
    · simp [hword]
    · simp [hword]

mutual

theorem wellLabeled_iff_weight : (node : Node) →
    (node.WellLabeled ↔ node.weight labelScale = 0)
  | ⟨kind, field, children⟩ => by
    have hkind : labelScale.kind kind = 0 := rfl
    rw [weight, hkind, Nat.zero_add]
    exact labelsAmong_iff_weight children

theorem labelsAmong_iff_weight : (children : List (Child Node)) →
    ((∀ label ∈ labelsAmong children, IsWord label) ↔ weightAmong labelScale children = 0)
  | [] => iff_of_true nofun rfl
  | .token _ :: children => labelsAmong_iff_weight children
  | .node child :: children => by
    rw [labelsAmong, weightAmong, List.forall_mem_append, List.forall_mem_append, Nat.add_eq_zero_iff,
      Nat.add_eq_zero_iff, field_labelScale_eq_zero_iff, ← wellLabeled_iff_weight child,
      ← labelsAmong_iff_weight children, WellLabeled]
    simp only [Option.mem_toList, Option.mem_def]

end

end Node

/-- Every label below the root is a word, if there is a tree. -/
def Normalized.WellLabeled (normalized : Normalized) : Prop :=
  ∀ root ∈ normalized.tree, root.WellLabeled

/-- No token brings a label along. -/
theorem made_labelScale (event : String) : Node.labelScale.made event = 0 := by
  rw [Scale.made]
  cases (Production.ofName? event).bind Production.tokenKind? <;> rfl

/-- A stream that replays gives a well labeled tree. -/
theorem wellLabeled_of_replay {events : List Event} {normalized : Normalized}
    (h : replay events = .ok normalized) : normalized.WellLabeled := by
  intro root hroot
  have hweight := weight_le_of_replay Node.labelScale h root hroot
  have hmade : (events.map fun event => Node.labelScale.made event.name).sum = 0 := by
    refine List.sum_eq_zero fun made hmade => ?_
    obtain ⟨event, -, rfl⟩ := List.mem_map.mp hmade
    exact made_labelScale event.name
  rw [root.wellLabeled_iff_weight]
  exact Nat.le_zero.mp (hmade ▸ hweight)

end RubyTree
