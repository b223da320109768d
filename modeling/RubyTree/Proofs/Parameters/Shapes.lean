import RubyTree.Proofs.Dispatch
import RubyTree.Proofs.Outcome
import RubyTree.Replay

/-!
# What parameter lists hold

A parameter may be destructured, and its parts are parameters in turn. Destructured parts arrive in
the shape of assignment targets, for that is what they look like while they are read. A parameter
list should hold parameters only: no target stands in it, neither as a parameter nor inside a
destructured one.

`toParameter` changes targets into parameters through every depth. The list of a block is built from
changed nodes, so the law holds of it. The list of a method, a singleton method or a lambda is built
from the nodes as they arrive: the law holds of it exactly when no target was among them.
Parentheses around the list change nothing.

Results:

* `holdsParameters_iff`: the law is decided by recursion over the parameters.
* `isParameter_toParameter`: the change of a target leaves none inside.
* `holdsParameters_of_parameters`: when the law holds of a list, for each way to build one.
* `destructuringMethod_not_holdsParameters`: a method whose list breaks it.
-/

namespace RubyTree.Rules

/-! ## The law -/

/-- A node is a parameter, or a part of it through destructured parameters. -/
inductive PartOf : Node → Node → Prop where
  | self {node : Node} : PartOf node node
  | inside {node part parameter : Node} : parameter.kind = .destructuredParameter →
    part ∈ parameter.nodes → PartOf node part → PartOf node parameter

/-- No target of an assignment is a parameter of the list, or a part of one. -/
def HoldsParameters (list : Node) : Prop :=
  ∀ parameter ∈ list.nodes, ∀ part, PartOf part parameter →
    part.kind ≠ .destructuredLeftAssignment ∧ part.kind ≠ .restAssignment

mutual

/-- The node has the shape of a parameter, with parameters inside if it is destructured. -/
def isParameter : Node → Bool
  | ⟨kind, _, children⟩ =>
    kind != .destructuredLeftAssignment && kind != .restAssignment &&
      (kind != .destructuredParameter || areParameters children)

/-- The nodes among children have the shape of parameters. -/
def areParameters : List (Child Node) → Bool
  | [] => true
  | .token _ :: children => areParameters children
  | .node child :: children => isParameter child && areParameters children

end

theorem areParameters_iff (children : List (Child Node)) : areParameters children = true ↔
    ∀ child ∈ children.filterMap Child.node?, isParameter child = true := by
  induction children with
  | nil => exact iff_of_true rfl nofun
  | cons child children ih =>
    cases child with
    | token text => exact ih
    | node child =>
      simp only [areParameters, Bool.and_eq_true, ih, Child.node?, List.filterMap_cons,
        List.forall_mem_cons]

theorem isParameter_iff (node : Node) : isParameter node = true ↔
    (node.kind ≠ .destructuredLeftAssignment ∧ node.kind ≠ .restAssignment) ∧
      (node.kind = .destructuredParameter → ∀ part ∈ node.nodes, isParameter part = true) := by
  obtain ⟨kind, field, children⟩ := node
  simp only [isParameter, Bool.and_eq_true, bne_iff_ne, Bool.or_eq_true, areParameters_iff,
    Decidable.imp_iff_not_or]
  rfl

@[simp] theorem isParameter_under (field : Field) (node : Node) :
    isParameter (node.under field) = isParameter node := by
  rw [Bool.eq_iff_iff, isParameter_iff, isParameter_iff]
  rfl

theorem isParameter_of_kind {node : Node} (hleft : node.kind ≠ .destructuredLeftAssignment)
    (hrest : node.kind ≠ .restAssignment) (hparameter : node.kind ≠ .destructuredParameter) :
    isParameter node = true :=
  (isParameter_iff node).mpr ⟨⟨hleft, hrest⟩, fun h => absurd h hparameter⟩

theorem isParameter_splat (name : Option Node) :
    isParameter ((Node.ofKind .splatParameter).attachAs? "name" name) = true := by
  cases name with
  | none => rfl
  | some name => exact isParameter_of_kind nofun nofun nofun

theorem isParameter_of_partOf {parameter part : Node} (h : PartOf part parameter)
    (hparameter : isParameter parameter = true) : isParameter part = true := by
  induction h with
  | self => exact hparameter
  | inside hkind hpart _ ih => exact ih (((isParameter_iff _).mp hparameter).2 hkind _ hpart)

mutual

theorem isParameter_of_parts : (parameter : Node) →
    (∀ part, PartOf part parameter →
      part.kind ≠ .destructuredLeftAssignment ∧ part.kind ≠ .restAssignment) →
    isParameter parameter = true
  | ⟨kind, field, children⟩, h => by
    have hself := h _ .self
    by_cases hkind : kind = .destructuredParameter
    · have hinside := areParameters_of_parts children fun child hchild part hpart =>
        h part (.inside hkind hchild hpart)
      exact (isParameter_iff _).mpr ⟨hself, fun _ => (areParameters_iff children).mp hinside⟩
    · exact isParameter_of_kind hself.1 hself.2 hkind

theorem areParameters_of_parts : (children : List (Child Node)) →
    (∀ child ∈ children.filterMap Child.node?, ∀ part, PartOf part child →
      part.kind ≠ .destructuredLeftAssignment ∧ part.kind ≠ .restAssignment) →
    areParameters children = true
  | [], _ => rfl
  | .token _ :: children, h => areParameters_of_parts children h
  | .node child :: children, h => by
    simp only [Child.node?, List.filterMap_cons, List.forall_mem_cons] at h
    rw [areParameters, isParameter_of_parts child h.1, areParameters_of_parts children h.2]
    rfl

end

/-- The law, decided by recursion over the parameters. -/
theorem holdsParameters_iff (list : Node) :
    HoldsParameters list ↔ ∀ parameter ∈ list.nodes, isParameter parameter = true := by
  refine forall₂_congr fun parameter _ => ⟨isParameter_of_parts parameter, fun h part hpart => ?_⟩
  exact ((isParameter_iff part).mp (isParameter_of_partOf hpart h)).1

/-! ## Targets become parameters -/

mutual

/-- The node is no destructured parameter yet, and if it is a destructured target, no node in it. -/
def isUnchanged : Node → Bool
  | ⟨kind, _, children⟩ =>
    kind != .destructuredParameter && (kind != .destructuredLeftAssignment || areUnchanged children)

/-- The nodes among children are no destructured parameters yet. -/
def areUnchanged : List (Child Node) → Bool
  | [] => true
  | .token _ :: children => areUnchanged children
  | .node child :: children => isUnchanged child && areUnchanged children

end

mutual

/-- Changing a target leaves no target in it. -/
theorem isParameter_toParameter : (node : Node) → isUnchanged node = true →
    isParameter (toParameter node) = true
  | ⟨kind, field, children⟩, h => by
    rw [isUnchanged, Bool.and_eq_true, Bool.or_eq_true, bne_iff_ne, bne_iff_ne] at h
    obtain ⟨hchanged, hinside⟩ := h
    rw [toParameter]
    split
    · next hleft =>
      have hparts := areParameters_toParameterChildren children
        (hinside.resolve_left fun hne => hne hleft)
      rw [isParameter, hparts]
      rfl
    · next hleft =>
      split
      · exact isParameter_splat _
      · next hrest => exact isParameter_of_kind hleft hrest hchanged

theorem areParameters_toParameterChildren : (children : List (Child Node)) →
    areUnchanged children = true → areParameters (toParameterChildren children) = true
  | [], _ => rfl
  | .token _ :: children, h => areParameters_toParameterChildren children h
  | .node child :: children, h => by
    rw [areUnchanged, Bool.and_eq_true] at h
    rw [toParameterChildren, areParameters, isParameter_under, isParameter_toParameter child h.1,
      areParameters_toParameterChildren children h.2]
    rfl

end

/-! ## Lists that are built -/

/-- The parameter list of a definition: its child of that name. -/
def parametersOf? (definition : Node) : Option Node :=
  definition.nodes.find? fun child => child.field = .named "parameters"

/-- Parameters reach the rule that builds a list of them bare or between parentheses. -/
def Arrives (params arrival : Value) : Prop :=
  arrival = params ∨ ∃ context changed, (paren params).exec context = (.ok arrival, changed)

/-- The parameter list of a method, a singleton method or a lambda. -/
inductive DefinitionList (params : Value) (list : Node) : Prop where
  | method {name body : Value} {definition : Node}
      (h : method name params body = .ok (.node definition))
      (hlist : parametersOf? definition = some list) : DefinitionList params list
  | singletonMethod {object name body : Value} {definition : Node}
      (h : singletonMethod object name params body = .ok (.node definition))
      (hlist : parametersOf? definition = some list) : DefinitionList params list
  | lambda {body : Value} {context changed : Context} {definition : Node}
      (h : (lambda params body).exec context = (.ok (.node definition), changed))
      (hlist : parametersOf? definition = some list) : DefinitionList params list

theorem parametersOf?_attachAs_of_ne {name : String} (h : name ≠ "parameters") (node child : Node) :
    parametersOf? (node.attachAs name child) = parametersOf? node := by
  simp [parametersOf?, Node.under, h]

theorem parametersOf?_attachAs? {node : Node} (h : parametersOf? node = none)
    (params : Option Node) : parametersOf? (node.attachAs? "parameters" params) =
      params.map (·.under (.named "parameters")) := by
  cases params with
  | none => exact h
  | some params =>
    rw [parametersOf?] at h
    simp [parametersOf?, Node.attachAs?, h, Node.under]

theorem parametersOf?_withBody (kind : Kind) (nodes : List Node) (node : Node) :
    parametersOf? (withBody kind nodes node) = parametersOf? node := by
  unfold withBody
  split
  · rfl
  · exact parametersOf?_attachAs_of_ne (by decide) node _

/-- Each of the three definitions takes its list from `parameterList`. -/
theorem DefinitionList.exists_parameterList {params : Value} {list : Node}
    (h : DefinitionList params list) : ∃ kind keepEmpty built,
      parameterList kind keepEmpty params = .ok (some built) ∧
      list = built.under (.named "parameters") := by
  cases h with
  | @method name body definition h hlist =>
    obtain ⟨name, -, h⟩ := Outcome.bind_eq_ok_iff.mp h
    obtain ⟨built, hbuilt, h⟩ := Outcome.bind_eq_ok_iff.mp h
    obtain ⟨nodes, -, h⟩ := Outcome.bind_eq_ok_iff.mp h
    cases h
    rw [parametersOf?_withBody, parametersOf?_attachAs? rfl, Option.map_eq_some_iff] at hlist
    obtain ⟨built, rfl, rfl⟩ := hlist
    exact ⟨_, _, built, hbuilt, rfl⟩
  | @singletonMethod object name body definition h hlist =>
    obtain ⟨object, -, h⟩ := Outcome.bind_eq_ok_iff.mp h
    obtain ⟨name, -, h⟩ := Outcome.bind_eq_ok_iff.mp h
    obtain ⟨built, hbuilt, h⟩ := Outcome.bind_eq_ok_iff.mp h
    obtain ⟨nodes, -, h⟩ := Outcome.bind_eq_ok_iff.mp h
    cases h
    have hnone : parametersOf? (((Node.ofKind .singletonMethodDef).attachAs? "object"
        object).attachAs "name" (methodName name)) = none := by
      rw [parametersOf?_attachAs_of_ne (by decide)]
      cases object <;> rfl
    rw [parametersOf?_withBody, parametersOf?_attachAs? hnone, Option.map_eq_some_iff] at hlist
    obtain ⟨built, rfl, rfl⟩ := hlist
    exact ⟨_, _, built, hbuilt, rfl⟩
  | @lambda body context changed definition h hlist =>
    rw [Rules.lambda, Build.exec_bind, Build.exec_context] at h
    obtain ⟨built, hbuilt, h⟩ := Build.exec_of_exec_ofOutcome_bind h
    obtain ⟨nodes, -, h⟩ := Build.exec_of_exec_ofOutcome_bind h
    have hdefinition : parametersOf? definition =
        parametersOf? ((Node.ofKind .lambdaLiteral).attachAs? "parameters" built) := by
      split at h
      · cases h
        rfl
      · cases h
        exact parametersOf?_attachAs_of_ne (by decide) _ _
    rw [hdefinition, parametersOf?_attachAs? rfl, Option.map_eq_some_iff] at hlist
    obtain ⟨built, rfl, rfl⟩ := hlist
    exact ⟨_, _, built, hbuilt, rfl⟩

/-! ## What arrives -/

theorem kind_ungroup (node : Node) : (ungroup node).kind = node.kind := by
  unfold ungroup
  split
  · split
    · next inner rest hdetach =>
      have hkind : rest.kind = node.kind := by
        unfold Node.detachLast? at hdetach
        split at hdetach
        · cases hdetach
          rfl
        · cases hdetach
      cases inner.firstNode? <;> exact hkind
    · rfl
  · rfl

/-- Undoing a group changes no parameter and no target. -/
theorem isParameter_ungroup (node : Node) : isParameter (ungroup node) = isParameter node := by
  by_cases hunary : node.kind = .unary
  · have hparameter {other : Node} (h : other.kind = .unary) : isParameter other = true :=
      isParameter_of_kind (by simp [h]) (by simp [h]) (by simp [h])
    rw [hparameter hunary, hparameter ((kind_ungroup node).trans hunary)]
  · rw [ungroup_of_kind_ne hunary]

theorem forall_mem_mapLast {change : Node → Node} {p : Node → Prop}
    (h : ∀ node, p (change node) ↔ p node) (nodes : List Node) :
    (∀ node ∈ mapLast change nodes, p node) ↔ ∀ node ∈ nodes, p node := by
  rcases nodes.eq_nil_or_concat with rfl | ⟨init, last, rfl⟩
  · rfl
  · rw [List.concat_eq_append, mapLast_concat, List.forall_mem_append, List.forall_mem_append,
      List.forall_mem_singleton, List.forall_mem_singleton, h]

/-- Parameters between parentheses are the ones that were written, up to a group that is undone. -/
theorem exists_nodes_of_arrives {nodes : List Node} {arrival : Value}
    (h : Arrives (.ofNodes nodes) arrival) : arrival = .ofNodes nodes ∨
      ∃ written, arrival = .node ((Node.ofKind .parenthesizedStatements).attachAll written) ∧
        ((∀ node ∈ written, isParameter node = true) ↔
          ∀ node ∈ nodes, isParameter node = true) := by
  refine h.imp_right fun ⟨context, changed, h⟩ => ?_
  rw [paren, Build.exec_bind, Build.exec_context] at h
  obtain ⟨read, hread, h⟩ := Build.exec_of_exec_ofOutcome_bind h
  rw [Value.asNodes_ofNodes] at hread
  cases hread
  cases h
  refine ⟨_, rfl, ?_⟩
  split
  · exact forall_mem_mapLast (fun node => by rw [isParameter_ungroup]) nodes
  · rfl

theorem holdsParameters_attachAll_iff (kind : Kind) (nodes : List Node) (field : Field) :
    HoldsParameters (((Node.ofKind kind).attachAll nodes).under field) ↔
      ∀ node ∈ nodes, isParameter node = true := by
  simp [holdsParameters_iff]

/-- The list of a definition is built from the parameters as they arrive. -/
theorem holdsParameters_definition_iff {nodes : List Node} {arrival : Value} {list : Node}
    (harrives : Arrives (.ofNodes nodes) arrival) (h : DefinitionList arrival list) :
    HoldsParameters list ↔ ∀ node ∈ nodes, isParameter node = true := by
  obtain ⟨kind, keepEmpty, built, hbuilt, rfl⟩ := h.exists_parameterList
  rcases exists_nodes_of_arrives harrives with rfl | ⟨written, rfl, hwritten⟩
  · cases nodes with
    | nil => cases hbuilt
    | cons node nodes =>
      obtain ⟨read, hread, hsome⟩ := Outcome.map_eq_ok_iff.mp hbuilt
      have hnodes : (Value.ofNodes (node :: nodes)).asNodes "parameters" = .ok read := hread
      rw [Value.asNodes_ofNodes] at hnodes
      cases hnodes
      cases hsome
      exact holdsParameters_attachAll_iff kind (node :: nodes) _
  · rw [parameterList] at hbuilt
    split at hbuilt
    · cases hbuilt
      rw [holdsParameters_attachAll_iff, ← hwritten]
      simp
    · cases hbuilt

/-! ## The lists of blocks -/

theorem nodes_foldl_attachAs (name : String) (children : List Node) (node : Node) :
    (children.foldl (·.attachAs name ·) node).nodes =
      node.nodes ++ children.map (·.under (.named name)) := by
  induction children generalizing node with
  | nil => simp
  | cons child children ih => simp [ih]

/-- Names that are read are items of what they are read from. -/
theorem mem_of_mapM_asNode? {what : String} {items : List Value} {read : List (Option Node)}
    (h : items.mapM (fun item => item.asNode? what) = .ok read) {node : Node}
    (hnode : node ∈ read.filterMap id) : .node node ∈ items := by
  induction items generalizing read with
  | nil =>
    cases h
    cases hnode
  | cons item items ih =>
    rw [List.mapM_cons] at h
    obtain ⟨first, hfirst, h⟩ := Outcome.bind_eq_ok_iff.mp h
    obtain ⟨others, hothers, h⟩ := Outcome.bind_eq_ok_iff.mp h
    cases h
    rw [List.mem_filterMap] at hnode
    obtain ⟨_, hmem, rfl⟩ := hnode
    rcases List.mem_cons.mp hmem with heq | hmem
    · unfold Value.asNode? at hfirst
      split at hfirst <;> cases hfirst <;> cases heq
      exact List.mem_cons_self
    · exact List.mem_cons_of_mem _ (ih hothers (List.mem_filterMap.mpr ⟨_, hmem, rfl⟩))

theorem exists_of_blockVariables {arrival locals : Value} {list : Node}
    (h : blockVariables arrival locals = .ok (.node list)) : ∃ params, ∃ names : List Node,
      arrival.asNodes "block parameters" = .ok params ∧
      (∀ name ∈ names, .node name ∈ locals.items) ∧
      list = names.foldl (·.attachAs "locals" ·)
        ((Node.ofKind .blockParameters).attachAll (toParameters params)) := by
  obtain ⟨params, hparams, h⟩ := Outcome.bind_eq_ok_iff.mp h
  dsimp only at h
  split at h
  · obtain ⟨read, hread, h⟩ := Outcome.bind_eq_ok_iff.mp h
    cases h
    exact ⟨params, _, hparams, fun name => mem_of_mapM_asNode? hread, rfl⟩
  · cases h
    exact ⟨params, [], hparams, nofun, rfl⟩

theorem isParameter_toParameters {nodes : List Node} (h : ∀ node ∈ nodes, isUnchanged node = true) :
    ∀ node ∈ toParameters nodes, isParameter node = true := by
  simpa [toParameters] using fun node hnode => isParameter_toParameter node (h node hnode)

/-- The list of a block is built from targets that were changed. -/
theorem holdsParameters_blockVariables {nodes : List Node} {arrival locals : Value} {list : Node}
    (harrives : Arrives (.ofNodes nodes) arrival) (hnodes : ∀ node ∈ nodes, isUnchanged node = true)
    (hlocals : ∀ node, .node node ∈ locals.items → isParameter node = true)
    (h : blockVariables arrival locals = .ok (.node list)) : HoldsParameters list := by
  obtain ⟨params, names, hparams, hnames, rfl⟩ := exists_of_blockVariables h
  rw [holdsParameters_iff, nodes_foldl_attachAs, Node.nodes_attachAll, List.forall_mem_append,
    List.forall_mem_append, List.forall_mem_map, List.forall_mem_map]
  simp only [isParameter_under]
  refine ⟨⟨nofun, ?_⟩, fun name hname => hlocals name (hnames name hname)⟩
  rcases exists_nodes_of_arrives harrives with rfl | ⟨written, rfl, -⟩
  · rw [Value.asNodes_ofNodes] at hparams
    cases hparams
    exact isParameter_toParameters hnodes
  · -- the whole list between parentheses is one node, a group
    cases hparams
    exact isParameter_toParameters (List.forall_mem_singleton.mpr rfl)

/-! ## The law of parameters -/

/-- For the list that `parameters` makes of all kinds of parameters, bare or between parentheses:
    the law holds of the list of a definition exactly when no target is among the parameters or in
    a destructured one, and it holds of the list of a block whose parameters are targets as they
    are read. -/
theorem holdsParameters_of_parameters
    {required optional rest post keywords keywordRest block params : Value}
    (h : parameters required optional rest post keywords keywordRest block = .ok params) :
    ∃ nodes, params = .ofNodes nodes ∧ ∀ arrival, Arrives params arrival →
      (∀ list, DefinitionList arrival list →
        (HoldsParameters list ↔ ∀ node ∈ nodes, isParameter node = true)) ∧
      ((∀ node ∈ nodes, isUnchanged node = true) → ∀ locals list,
        (∀ node, .node node ∈ locals.items → isParameter node = true) →
        blockVariables arrival locals = .ok (.node list) → HoldsParameters list) := by
  obtain ⟨required, -, h⟩ := Outcome.bind_eq_ok_iff.mp h
  obtain ⟨optionalItems, -, h⟩ := Outcome.bind_eq_ok_iff.mp h
  obtain ⟨optional, -, h⟩ := Outcome.bind_eq_ok_iff.mp h
  obtain ⟨rest, -, h⟩ := Outcome.bind_eq_ok_iff.mp h
  obtain ⟨post, -, h⟩ := Outcome.bind_eq_ok_iff.mp h
  obtain ⟨keywordItems, -, h⟩ := Outcome.bind_eq_ok_iff.mp h
  obtain ⟨keywords, -, h⟩ := Outcome.bind_eq_ok_iff.mp h
  obtain ⟨keywordRest, -, h⟩ := Outcome.bind_eq_ok_iff.mp h
  obtain ⟨block, -, h⟩ := Outcome.bind_eq_ok_iff.mp h
  cases h
  exact ⟨_, rfl, fun arrival harrives =>
    ⟨fun list hlist => holdsParameters_definition_iff harrives hlist,
      fun hnodes locals list hlocals hlist =>
        holdsParameters_blockVariables harrives hnodes hlocals hlist⟩⟩

/-- The target `(a, *b)`. -/
def splatTarget : Node :=
  ((Node.ofKind .destructuredLeftAssignment).attach (.leaf .identifier "a")).attach
    ((Node.ofKind .restAssignment).attach (.leaf .identifier "b"))

/-- Handed on as it is, the target breaks the law in the list of a definition and keeps it in the
    list of a block. -/
theorem splatTarget_lists :
    (∀ list, DefinitionList (.ofNodes [splatTarget]) list → ¬ HoldsParameters list) ∧
      ∀ list, blockVariables (.ofNodes [splatTarget]) .absent = .ok (.node list) →
        HoldsParameters list := by
  have hparameters : parameters (.ofNodes [splatTarget]) .absent .absent .absent .absent .absent
      .absent = .ok (.ofNodes [splatTarget]) := rfl
  obtain ⟨nodes, hnodes, hlists⟩ := holdsParameters_of_parameters hparameters
  have heq := congrArg (Value.asNodes "parameters") hnodes
  rw [Value.asNodes_ofNodes, Value.asNodes_ofNodes] at heq
  cases heq
  obtain ⟨hdefinition, hblock⟩ := hlists _ (.inl rfl)
  refine ⟨fun list hlist hholds => ?_, fun list hlist => ?_⟩
  · exact absurd ((hdefinition list hlist).mp hholds) (by decide)
  · exact hblock (by decide) .absent list (fun _ => List.not_mem_nil.elim) hlist

/-- A method with one parameter, which is destructured: `def f((a, *b))`. -/
def destructuringMethod : List Event := [
  { name := "ident", args := [.text "a"] },
  { name := "ident", args := [.text "b"] },
  { name := "mlhs_new" },
  { name := "mlhs_add", args := [.ref 2, .ref 0] },
  { name := "mlhs_add_star", args := [.ref 3, .ref 1] },
  { name := "mlhs_paren", args := [.ref 4] },
  { name := "params",
    args := [.list [.ref 5], .absent, .absent, .absent, .absent, .absent, .absent] },
  { name := "ident", args := [.text "f"] },
  { name := "def", args := [.ref 7, .ref 6, .list []] },
  { name := "program", args := [.list [.ref 8]] }]

/-- The parameter stays a target in the finished tree. -/
theorem destructuringMethod_not_holdsParameters : ∃ normalized tree definition list,
    replay destructuringMethod = .ok normalized ∧ normalized.tree = some tree ∧
      tree.firstNode? = some definition ∧ parametersOf? definition = some list ∧
      ¬ HoldsParameters list := by
  have hcheck : (replay destructuringMethod).toOption.any (fun normalized =>
      (normalized.tree.bind fun tree => tree.firstNode?.bind parametersOf?).any fun list =>
        !list.nodes.all isParameter) = true := by decide +kernel
  cases hrun : replay destructuringMethod with
  | error cause =>
    rw [hrun] at hcheck
    cases hcheck
  | ok normalized =>
    rw [hrun] at hcheck
    obtain ⟨list, hlist, hparameters⟩ : ∃ list,
        (normalized.tree.bind fun tree => tree.firstNode?.bind parametersOf?) = some list ∧
          (!list.nodes.all isParameter) = true := (Option.any_eq_true _ _).mp hcheck
    obtain ⟨tree, htree, hlist⟩ := Option.bind_eq_some_iff.mp hlist
    obtain ⟨definition, hdefinition, hlist⟩ := Option.bind_eq_some_iff.mp hlist
    refine ⟨normalized, tree, definition, list, rfl, htree, hdefinition, hlist, fun hholds => ?_⟩
    rw [List.all_eq_true.mpr ((holdsParameters_iff list).mp hholds)] at hparameters
    cases hparameters

end RubyTree.Rules
