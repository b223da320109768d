import RubyTree.Proofs.Weight.Expression
import RubyTree.Proofs.Dispatch
import RubyTree.Proofs.Replay.Run

/-!
# Weights of replayed trees

A result is handed to one event and is used up by it, and no rule makes two of one. So a finished
tree weighs at most as much as the nodes of the tokens that were delivered, counting what waits in
the table of results, what a rule makes of its arguments, and what becomes of heredoc bodies that
are moved.

Results:

* `conserves_ruleOf`: the rules of productions that are no tokens add no weight.
* `Heredoc.weight_relocate_le`: neither does moving heredoc bodies.
* `Replay.weight_of_step`, `Replay.weight_of_run`: what an event adds, and what a run adds.
* `weight_le_of_replay`: a finished tree weighs no more than the nodes of the tokens.
-/

namespace RubyTree

open Node (total)
open Value (weightAll)

variable (scale : Scale)

/-! ## Rules -/

namespace Rule

/-- With the right number of arguments, what the rule yields weighs no more than they do. -/
def Conserves : Rule → Prop
  | none step => step.Yields fun value => value.weight scale = 0
  | one step => ∀ a, (step a).Yields fun value => value.weight scale ≤ a.weight scale
  | two step => ∀ a b, (step a b).Yields fun value =>
    value.weight scale ≤ a.weight scale + b.weight scale
  | three step => ∀ a b c, (step a b c).Yields fun value =>
    value.weight scale ≤ a.weight scale + b.weight scale + c.weight scale
  | four step => ∀ a b c d, (step a b c d).Yields fun value =>
    value.weight scale ≤ a.weight scale + b.weight scale + c.weight scale + d.weight scale
  | five step => ∀ a b c d e, (step a b c d e).Yields fun value =>
    value.weight scale ≤
      a.weight scale + b.weight scale + c.weight scale + d.weight scale + e.weight scale
  | seven step => ∀ a b c d e f g, (step a b c d e f g).Yields fun value =>
    value.weight scale ≤ a.weight scale + b.weight scale + c.weight scale + d.weight scale +
      e.weight scale + f.weight scale + g.weight scale

variable {scale}

/-- With another number of arguments the rule yields nothing. -/
theorem Conserves.apply {rule : Rule} (h : rule.Conserves scale) (name : String)
    (arguments : List Value) :
    (rule.apply name arguments).Yields fun value =>
      value.weight scale ≤ weightAll scale arguments := by
  unfold Rule.apply
  split
  · exact h.imp fun _ h => by simp [h]
  · exact (h _).imp fun _ h => by simpa using h
  · exact (h _ _).imp fun _ h => by simpa using h
  · exact (h _ _ _).imp fun _ h => by simpa [Nat.add_assoc] using h
  · exact (h _ _ _ _).imp fun _ h => by simpa [Nat.add_assoc] using h
  · exact (h _ _ _ _ _).imp fun _ h => by simpa [Nat.add_assoc] using h
  · exact (h _ _ _ _ _ _ _).imp fun _ h => by simpa [Nat.add_assoc] using h
  · exact .ofOutcome (.error _)

theorem Conserves.same : Rule.same.Conserves scale := fun _ => .ofOutcome (.ok (Nat.le_refl _))

theorem Conserves.constant {value : Value} (h : value.weight scale = 0) :
    (Rule.constant value).Conserves scale := .ofOutcome (.ok h)

theorem Conserves.leaf {kind : Kind} (h : kind.isScanned = false) :
    (Rule.leaf kind).Conserves scale := fun _ => .ofOutcome (.ok (by grind [Rules.leaf]))

theorem Conserves.number {read : List Char → Node} (h : ∀ text, (read text).weight scale = 0) :
    (Rule.number read).Conserves scale :=
  fun _ => .ofOutcome (.ok (by grind [Rules.numberToken]))

theorem Conserves.map {step : Value → Outcome Value}
    (h : ∀ a, (step a).Yields fun value => value.weight scale ≤ a.weight scale) :
    (Rule.map step).Conserves scale := fun a => .ofOutcome (h a)

theorem Conserves.map₂ {step : Value → Value → Outcome Value}
    (h : ∀ a b, (step a b).Yields fun value => value.weight scale ≤ a.weight scale + b.weight scale) :
    (Rule.map₂ step).Conserves scale := fun a b => .ofOutcome (h a b)

theorem Conserves.map₃ {step : Value → Value → Value → Outcome Value}
    (h : ∀ a b c, (step a b c).Yields fun value =>
      value.weight scale ≤ a.weight scale + b.weight scale + c.weight scale) :
    (Rule.map₃ step).Conserves scale := fun a b c => .ofOutcome (h a b c)

theorem Conserves.map₄ {step : Value → Value → Value → Value → Outcome Value}
    (h : ∀ a b c d, (step a b c d).Yields fun value =>
      value.weight scale ≤ a.weight scale + b.weight scale + c.weight scale + d.weight scale) :
    (Rule.map₄ step).Conserves scale := fun a b c d => .ofOutcome (h a b c d)

end Rule

open Rules

/-- The kind of the leaf that a production makes of a scale with a kind of its own. -/
def Production.tokenKind? : Production → Option Kind
  | .instanceVariable => some .instanceVariable
  | .classVariable => some .classVariable
  | .globalVariable | .backReference => some .globalVariable
  | .label => some .hashKeySymbol
  | .charLiteral => some .character
  | _ => none

/-- The rules of all other productions add no weight. -/
theorem conserves_ruleOf {production : Production} (h : production.tokenKind? = none) :
    (ruleOf production).Conserves scale := by
  cases production with
  | instanceVariable | classVariable | globalVariable | backReference | label | charLiteral =>
    cases h
  -- tokens
  | identifier | constant | backtick => exact .leaf rfl
  | keyword => exact fun _ => .after fun _ => .pure (by grind [weight_keywordNode])
  | operator => exact fun _ => .after fun _ => .pure (by grind)
  | rparen | semicolon | endMarker => exact fun _ => .after fun _ => .pure (Nat.zero_le _)
  | tstringContent | argAmbiguous | assoclistFromArgs | varRef | vcall | constRef | argParen =>
    exact .same
  | magicComment => exact fun _ _ => .ofOutcome (.ok (Nat.zero_le _))
  | operatorAmbiguous => exact fun _ _ => .ofOutcome (.ok (Nat.le_add_right _ _))
  -- numbers
  | integer | floatNumber => exact .number (weight_signed scale rfl)
  | rationalNumber => exact .number (weight_rationalNumber scale)
  | imaginaryNumber => exact .number (weight_imaginaryNumber scale)
  -- quoted literals
  | tstringBeg | symbeg | regexpBeg | wordsBeg | qwordsBeg | symbolsBeg | qsymbolsBeg
  | heredocBeg => exact fun _ => .after fun _ => .pure (Nat.zero_le _)
  | heredocDedent => exact fun _ _ => .ofOutcome (.ok (by grind))
  | stringContent => exact .after fun context => .pure (by unfold stringKind; grind)
  | stringAdd | xstringAdd => exact weighs_stringAdd scale
  | stringConcat => exact .map₂ (weighs_stringConcat scale)
  | stringDvar | stringEmbexpr => exact .map (weighs_interpolation scale)
  | stringLiteral | xstringLiteral => exact weighs_stringLiteral scale
  | xstringNew => exact weighs_commandContent scale
  | symbol => exact fun _ => .after fun _ => .pure (by grind)
  | symbolLiteral => exact .map (weighs_symbolLiteral scale)
  | dynaSymbol => exact fun _ => .after fun _ => .pure (Nat.le_refl _)
  | regexpNew | wordNew | mlhsNew | argsNew | stmtsNew => exact .constant rfl
  | regexpAdd | wordAdd => exact weighs_addPart scale _
  | regexpLiteral =>
    exact fun parts _ => (weighs_regexpLiteral scale parts).imp fun _ h => Nat.le_add_right_of_le h
  | wordsNew | qwordsNew | symbolsNew | qsymbolsNew | mrhsNew | argsForward | superBare | yieldBare
  | returnBare | redoJump | retryJump => exact .constant (by grind)
  | wordsAdd | symbolsAdd => exact .map₂ (weighs_addWord scale rfl)
  | qwordsAdd | qsymbolsAdd => exact weighs_addRawWord scale rfl
  -- arrays and hashes
  | arrayLiteral => exact weighs_array scale
  | hashLiteral => exact .map (weighs_hash scale)
  | assocNew => exact .map₂ (weighs_pair scale)
  | assocSplat => exact .map (weighs_doubleSplat scale)
  | bareAssocHash => exact .map (weighs_bareHash scale)
  -- operators and names
  | binary => exact .map₃ (weighs_binary scale)
  | unary => exact weighs_unary scale
  | defined => exact weighs_defined scale
  | paren => exact weighs_paren scale
  | dot2 | dot3 => exact .map₂ (weighs_range scale)
  | ternary => exact .map₃ (weighs_ternary scale)
  | varField => exact .map (weighs_variableField scale)
  | constPathRef | constPathField => exact .map₂ (weighs_constantPath scale)
  | topConstRef | topConstField => exact .map (weighs_topConstant scale)
  | aref | arefField => exact .map₂ (weighs_elementReference scale)
  -- assignments
  | assign => exact .map₂ (weighs_assign scale)
  | opassign => exact .map₃ (weighs_operatorAssign scale)
  | massign => exact .map₂ (weighs_multipleAssign scale)
  | mlhsAdd => exact .map₂ (weighs_addTarget scale)
  | mlhsAddStar => exact .map₂ (weighs_addRestTarget scale)
  | mlhsAddPost => exact .map₂ (weighs_addTargets scale)
  | mlhsParen => exact .map (weighs_destructured scale)
  | mrhsNewFromArgs => exact .map (weighs_valuesOf scale)
  | mrhsAdd => exact .map₂ (weighs_addValue scale)
  | mrhsAddStar => exact .map₂ (weighs_addSplatValue scale)
  -- calls
  | methodCall => exact .map₃ (weighs_call scale)
  | fcall => exact .map (weighs_functionCall scale)
  | command => exact .map₂ (weighs_command scale)
  | commandCall => exact .map₄ (weighs_commandCall scale)
  | fieldCall =>
    exact .map₃ fun receiver operator name =>
      weighs_commandCall scale receiver operator name (.list [])
  | methodAddArg => exact .map₂ (weighs_addArguments scale)
  | methodAddBlock => exact .map₂ (weighs_addBlock scale)
  | argsAdd => exact .map₂ (weighs_addArgument scale)
  | argsAddBlock => exact .map₂ (weighs_addBlockArgument scale)
  | argsAddStar => exact .map₂ (weighs_addSplatArgument scale)
  | superArgs => exact .map (weighs_superCall scale)
  | yieldArgs => exact .map (weighs_yieldCall scale)
  | returnArgs | breakArgs | nextArgs => exact .map (weighs_jump scale rfl)
  | braceBlock => exact .map₂ (weighs_braceBlock scale)
  | doBlock => exact .map₂ (weighs_doBlock scale)
  | blockVar => exact .map₂ (weighs_blockVariables scale)
  -- definitions
  | methodDef => exact .map₃ (weighs_method scale)
  | singletonDef =>
    intro object period name params body
    refine .ofOutcome ((weighs_singletonMethod scale object name params body).imp fun _ h => ?_)
    omega
  | classDef => exact .map₃ (weighs_classDef scale)
  | moduleDef => exact .map₂ (weighs_moduleDef scale)
  | singletonClass => exact .map₂ (weighs_singletonClass scale)
  | params => exact fun a b c d e f g => .ofOutcome (weighs_parameters scale a b c d e f g)
  | restParam | kwrestParam | blockarg => exact .map (weighs_namedParameter scale rfl _)
  | nokwParam => exact fun _ => .ofOutcome (.ok (by grind))
  | excessedComma => exact .constant rfl
  | lambdaLiteral => exact weighs_lambda scale
  | aliasMethod | varAlias => exact .map₂ (weighs_aliasMethod scale)
  | undefine => exact .map (weighs_undefine scale)
  -- statements and branches
  | program => exact weighs_program scale
  | stmtsAdd => exact weighs_addStatement scale
  | voidStmt => exact weighs_voidStatement scale
  | bodyStatement => exact weighs_bodyStatement scale
  | beginEnd | beginHook | endHook | elseBranch => exact .map (weighs_sequence scale rfl _)
  | ifBranch | unlessBranch | elsifBranch => exact .map₃ (weighs_conditional scale rfl)
  | ifMod | unlessMod | whileMod | untilMod => exact .map₂ (weighs_modifier scale rfl)
  | whileLoop | untilLoop => exact .map₂ (weighs_loop scale rfl)
  | forLoop => exact .map₃ (weighs_forLoop scale)
  | caseOf => exact .map₂ (weighs_caseOf scale)
  | whenClause => exact .map₃ (weighs_whenClause scale)
  | rescueClause => exact .map₄ (weighs_rescueClause scale)
  | rescueMod => exact .map₂ (weighs_rescueModifier scale)
  | ensureClause => exact .map (weighs_ensureClause scale)
  -- patterns
  | inClause => exact weighs_inClause scale
  | arrayPattern => exact .map₄ (weighs_arrayPattern scale)
  | findPattern => exact .map₄ (weighs_findPattern scale)
  | hashPattern => exact weighs_hashPattern scale
  -- recovered errors
  | parseError => exact fun _ => .after fun _ => .pure (by grind)
  | aliasError | assignError | classNameError | paramError =>
    exact fun _ _ => .after fun _ => .pure (Nat.le_add_left _ _)

/-- A production with a scale kind makes the leaf of that kind. -/
theorem ruleOf_of_tokenKind? {production : Production} {kind : Kind}
    (h : production.tokenKind? = some kind) : ruleOf production = .leaf kind := by
  cases production with
  | instanceVariable | classVariable | globalVariable | backReference | label | charLiteral =>
    cases h
    rfl
  | _ => cases h

/-- What an event may add: the node of a token, if it delivers one that has a kind of its own. -/
def Scale.made (event : String) : Nat :=
  ((Production.ofName? event).bind Production.tokenKind?).elim 0 scale.kind

theorem weighs_apply_ruleOf (production : Production) (arguments : List Value) :
    ((ruleOf production).apply production.name arguments).Yields fun value =>
      value.weight scale ≤ weightAll scale arguments + production.tokenKind?.elim 0 scale.kind := by
  cases hkind : production.tokenKind? with
  | none =>
    exact ((conserves_ruleOf scale hkind).apply _ _).imp fun _ h => Nat.le_add_right_of_le h
  | some kind =>
    rw [ruleOf_of_tokenKind? hkind]
    by_cases hlength : arguments.length = 1
    · obtain ⟨argument, rfl⟩ := List.length_eq_one_iff.mp hlength
      have hleaf : (Node.leaf kind argument.spelling).weight scale ≤ scale.kind kind := by
        rw [Node.weight_leaf]
        split
        · exact Nat.le_refl _
        · exact Nat.zero_le _
      exact .ofOutcome (.ok (Nat.le_add_left_of_le hleaf))
    · rw [Rule.apply_of_length_ne _ hlength]
      exact .ofOutcome (.error _)

theorem weighs_handle (event : String) (arguments : List Value) (position : Position)
    (read : Option String) :
    (handle event arguments position read).Yields fun value =>
      value.weight scale ≤ weightAll scale arguments + scale.made event := by
  refine .after fun _ => ?_
  unfold dispatch
  split
  · next production hproduction =>
    have hmade : scale.made event = production.tokenKind?.elim 0 scale.kind := by
      rw [Scale.made, hproduction]
      rfl
    rw [hmade]
    exact weighs_apply_ruleOf scale production arguments
  · refine .ofOutcome (.ok ?_)
    cases arguments with
    | nil => exact Nat.zero_le _
    | cons argument arguments => grind [firstArgument]

/-! ## Heredoc bodies -/

namespace Heredoc

theorem total_partsAfter_le (before : Option Kind) (children : List Node) :
    total scale (partsAfter before children) ≤ total scale children := by
  induction children generalizing before with
  | nil => exact Nat.le_refl _
  | cons child children ih =>
    have hrest := ih (some child.kind)
    simp only [partsAfter]
    split
    · split
      · grind
      · grind
    · split
      · grind
      · grind

theorem weight_extract_le (body : Node) : (extract body).weight scale ≤ body.weight scale := by
  have hparts := total_partsAfter_le scale none body.nodes
  have hnodes : total scale body.nodes ≤ body.weight scale := Node.total_nodes_le body
  unfold extract parts
  grind

theorem field_walk (pending : List Node) (node : Node) :
    (walk pending node).result.field = node.field := by
  cases node
  unfold walk
  split
  · rfl
  · split
    · rfl
    · rfl

/-- What bodies weigh as children. -/
def held (pending : List Node) : Nat := Node.weightAmong scale (pending.map .node)

theorem held_append (pending more : List Node) :
    held scale (pending ++ more) = held scale pending + held scale more := by
  rw [held, List.map_append, Node.weightAmong_append]
  rfl

/-- A body that stands on its own has no label. -/
theorem held_extract_le (body : Node) : held scale [extract body] ≤ body.weight scale := by
  have hlabel : held scale [extract body] = (extract body).weight scale :=
    Nat.zero_add _
  exact hlabel.trans_le (weight_extract_le scale body)

mutual

/-- A walk takes bodies out of a node and puts others in, and what is pending changes with it. -/
theorem weight_walk_le : (node : Node) → (pending : List Node) →
    (walk pending node).result.weight scale + held scale (walk pending node).pending ≤
      held scale pending + node.weight scale
  | ⟨kind, field, children⟩, pending => by
    rw [walk]
    split
    · -- the marker weighs nothing, and the body becomes pending
      have hextract := held_extract_le scale ⟨kind, field, children⟩
      have hmarker : (marker ⟨kind, field, children⟩).weight scale = 0 :=
        Node.weight_of_children rfl
      rw [hmarker, held_append]
      omega
    · split
      · have hchildren := weightAmong_walkStatements_le children
        rw [Node.weight, Node.weight, Node.weightAmong_append]
        change _ + (held scale pending + _) + 0 ≤ _
        omega
      · have hchildren := weight_walkChildren_le children pending
        rw [Node.weight, Node.weight]
        dsimp only
        omega

theorem weightAmong_walkStatements_le : (children : List (Child Node)) →
    Node.weightAmong scale (walkStatements children) ≤ Node.weightAmong scale children
  | [] => Nat.le_refl _
  | .token _ :: children => weightAmong_walkStatements_le children
  | .node child :: children => by
    have hchild : _ ≤ 0 + child.weight scale := weight_walk_le child []
    have hchildren := weightAmong_walkStatements_le children
    rw [walkStatements, Node.weightAmong, Node.weightAmong, Node.weightAmong_append, field_walk]
    change _ + (held scale _ + _) ≤ _
    omega

theorem weight_walkChildren_le : (children : List (Child Node)) → (pending : List Node) →
    Node.weightAmong scale (walkChildren pending children).result +
        held scale (walkChildren pending children).pending ≤
      held scale pending + Node.weightAmong scale children
  | [], pending => by
    rw [walkChildren]
    exact Nat.le_of_eq (Nat.add_comm _ _)
  | .token _ :: children, pending => weight_walkChildren_le children pending
  | .node child :: children, pending => by
    have hchild := weight_walk_le child pending
    have hchildren := weight_walkChildren_le children (walk pending child).pending
    rw [walkChildren, Node.weightAmong, Node.weightAmong]
    dsimp only
    rw [field_walk]
    omega

end

/-- Moving the bodies adds no weight. -/
theorem weight_relocate_le (root : Node) :
    (relocate root).result.weight scale ≤ root.weight scale := by
  have hwalk : _ ≤ 0 + root.weight scale := weight_walk_le scale root []
  rw [relocate]
  omega

end Heredoc

/-! ## Results -/

namespace Results

/-- What the results that are not used up weigh. -/
def weight (scale : Scale) (results : Results) : Nat :=
  (results.map fun result => result.elim 0 (Value.weight scale)).sum

theorem weight_concat (results : Results) (value : Value) :
    weight scale (results ++ [some value]) = weight scale results + value.weight scale := by
  simp [weight]

/-- Using a result up takes its nodes out of the table. -/
theorem weight_set {results : Results} {index : Nat} {value : Value}
    (h : results[index]? = some (some value)) :
    value.weight scale + weight scale (results.set index none) = weight scale results := by
  induction results generalizing index with
  | nil => cases h
  | cons result results ih =>
    cases index with
    | zero =>
      cases h
      simp [weight]
    | succ index =>
      have hrest := ih h
      simp only [weight, List.set_cons_succ, List.map_cons, List.sum_cons] at hrest ⊢
      omega

theorem weight_of_take {results rest : Results} {index : Nat} {value : Value}
    (h : results.take index = .ok (value, rest)) :
    value.weight scale + weight scale rest = weight scale results := by
  unfold take at h
  split at h
  · cases h
  · cases h
  · next hvalue =>
    cases h
    exact weight_set scale hvalue

mutual

/-- What an argument holds is taken out of the table. -/
theorem weight_of_resolve : (arg : Arg) → {results rest : Results} → {value : Value} →
    results.resolve arg = .ok (value, rest) →
    value.weight scale + weight scale rest = weight scale results
  | .absent, _, _, _, h | .bool _, _, _, _, h | .text _, _, _, _, h | .symbol _, _, _, _, h => by
    rw [resolve] at h
    cases h
    exact Nat.zero_add _
  | .ref index, _, _, _, h => weight_of_take scale (by rwa [resolve] at h)
  | .list items, _, _, _, h => by
    rw [resolve, Outcome.map_eq_ok_iff] at h
    obtain ⟨found, hall, hfound⟩ := h
    cases hfound
    exact weight_of_resolveAll items hall

theorem weight_of_resolveAll : (args : List Arg) → {results rest : Results} →
    {values : List Value} → results.resolveAll args = .ok (values, rest) →
    weightAll scale values + weight scale rest = weight scale results
  | [], _, _, _, h => by
    rw [resolveAll_nil] at h
    cases h
    exact Nat.zero_add _
  | arg :: args, _, _, _, h => by
    rw [resolveAll_cons] at h
    obtain ⟨first, hfirst, hlater⟩ := Outcome.bind_eq_ok_iff.mp h
    obtain ⟨more, hmore, hvalues⟩ := Outcome.map_eq_ok_iff.mp hlater
    cases hvalues
    have hvalue := weight_of_resolve arg hfirst
    have hvalues := weight_of_resolveAll args hmore
    rw [Value.weightAll_cons]
    omega

end

end Results

/-! ## Replays -/

namespace Replay

variable {start : Replay}

/-- An event adds the node of the token that it delivers at most. -/
theorem weight_of_step {next : Replay} {event : Event} (h : start.step event = .ok next) :
    next.results.weight scale ≤ start.results.weight scale + scale.made event.name := by
  obtain ⟨arguments, rest, value, hargs, hrule, hresults⟩ :=
    (handleEvent_eq_ok_iff _ _ _).mp ((step_eq_ok_iff _ _ _).mp h)
  have htaken := Results.weight_of_resolveAll scale event.args hargs
  have hmade := weighs_handle scale event.name arguments event.position event.token start.context
    value (congrArg Prod.fst hrule)
  rw [hresults, Results.weight_concat]
  omega

/-- A run adds the nodes of the tokens that its events deliver at most. -/
theorem weight_of_run {last : Replay} {events : List Event} (h : start.run events = .ok last) :
    last.results.weight scale ≤
      start.results.weight scale + (events.map fun event => scale.made event.name).sum := by
  induction events generalizing start with
  | nil =>
    cases h
    exact Nat.le_refl _
  | cons event events ih =>
    obtain ⟨next, hstep, hrest⟩ := Outcome.bind_eq_ok_iff.mp h
    have hadded := weight_of_step scale hstep
    have hlater := ih hrest
    rw [List.map_cons, List.sum_cons]
    omega

/-- The value at the root waits in the table. -/
theorem weight_root_le (replay : Replay) :
    replay.root.weight scale ≤ replay.results.weight scale := by
  unfold root
  cases hlast : replay.results.getLast?.join with
  | none => exact Nat.zero_le _
  | some value =>
    obtain ⟨init, hresults⟩ := List.getLast?_eq_some_iff.mp (Option.join_eq_some_iff.mp hlast)
    rw [hresults, Results.weight_concat]
    exact Nat.le_add_left _ _

end Replay

/-- In a stream that replays, the finished tree weighs no more than the nodes of the tokens that its
    events deliver. -/
theorem weight_le_of_replay {events : List Event} {normalized : Normalized}
    (h : replay events = .ok normalized) : ∀ tree ∈ normalized.tree,
      tree.weight scale ≤ (events.map fun event => scale.made event.name).sum := by
  rw [replay_eq] at h
  obtain ⟨replayed, hrun, hfinish⟩ := Outcome.bind_eq_ok_iff.mp h
  have hyields : (finish replayed.root replayed.context).Yields fun normalized =>
      ∀ tree ∈ normalized.tree, tree.weight scale ≤ replayed.root.weight scale :=
    (Value.weighs_asNode? scale _ replayed.root).bind fun root hroot => .ok (by
      rintro tree htree
      obtain ⟨node, rfl, rfl⟩ := Option.map_eq_some_iff.mp htree
      have hmoved := Heredoc.weight_relocate_le scale node
      rw [Node.total_toList] at hroot
      exact Nat.le_trans hmoved hroot)
  intro tree htree
  have hrooted := hyields normalized (Outcome.mapError_eq_ok_iff.mp hfinish) tree htree
  have hwaiting := replayed.weight_root_le scale
  have hrun := Replay.weight_of_run scale hrun
  have hstart : Results.weight scale [] = 0 := rfl
  rw [hstart] at hrun
  omega

end RubyTree
