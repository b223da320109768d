import RubyTree.Proofs.Attaching
import RubyTree.Proofs.Memory.Operand
import RubyTree.Proofs.Yields

/-!
# Operators before a pattern

Two rules for patterns look back at the operators that were scanned. A hash pattern that is handed
no rest has an anonymous `**` when the last operator was `**`, and no hash pattern came since. A
match on one line is a `match_pattern` when `=>` was scanned after the last keyword `in`.

Neither rule asks where the operator stands. A `**` in the expression that is matched is still the
last operator in a pattern without operators, and gives that pattern a rest; a `=>` that binds a
name inside a pattern makes a `match_pattern` of a match that is written with `in`.

Results:

* `stillSet_append`: what is still set after a history in two parts.
* `rest_of_hashPattern`: the rest of a hash pattern behind a keyword `in` without a `**` of its own.
* `kind_of_oneLineMatch`: the kind of a match on one line that is written with `in`.
-/

namespace RubyTree

open Build Rules

namespace Firing

instance (text : String) (firing : Firing) : Decidable (firing.IsOperator text) :=
  inferInstanceAs (Decidable (_ ∧ _))

instance (text : String) (firing : Firing) : Decidable (firing.IsKeyword text) :=
  inferInstanceAs (Decidable (_ ∧ _))

theorem Is.not_is {production other : Production} {firing : Firing} (h : firing.Is production)
    (hne : production ≠ other) : ¬ firing.Is other := by
  rw [is_iff] at h ⊢
  simp [h, hne]

theorem Is.exec_handle {production : Production} {firing : Firing} (h : firing.Is production)
    (context : Context) :
    firing.handle.exec context =
      ((ruleOf production).apply production.name firing.arguments).exec
        (context.enter firing.position firing.token) := by
  rw [Is] at h
  rw [handle, h, exec_handle_name]

end Firing

/-! ## Histories in two parts -/

variable {sets clears : Firing → Prop}

/-- It was set in the back part, or in the front and not cleared in the back. -/
theorem stillSet_append (front back : List Firing) :
    StillSet sets clears (front ++ back) ↔
      StillSet sets clears back ∨
        (StillSet sets clears front ∧ ∀ other ∈ back, ¬ clears other) := by
  induction back using List.reverseRecOn with
  | nil => simp [stillSet_nil]
  | append_singleton back last ih =>
    rw [← List.append_assoc, stillSet_concat, ih, stillSet_concat, List.forall_mem_append,
      List.forall_mem_singleton]
    tauto

theorem stillSet_iff_of_not_clears {history : List Firing}
    (h : ∀ other ∈ history, ¬ clears other) :
    StillSet sets clears history ↔ ∃ firing ∈ history, sets firing := by
  constructor
  · rintro ⟨before, firing, later, rfl, hsets, -⟩
    exact ⟨firing, by simp, hsets⟩
  · rintro ⟨firing, hmem, hsets⟩
    obtain ⟨before, later, rfl⟩ := List.append_of_mem hmem
    refine ⟨before, firing, later, rfl, hsets, ?_⟩
    intro other hother
    exact h other (by simp [hother])

/-- What nothing in the back part set was set in the front, and is still set. -/
theorem stillSet_append_of_not_sets {front back : List Firing}
    (h : ∀ firing ∈ back, ¬ sets firing) :
    StillSet sets clears (front ++ back) ↔
      StillSet sets clears front ∧ ∀ other ∈ back, ¬ clears other := by
  rw [stillSet_append, or_iff_right]
  rintro ⟨before, firing, later, rfl, hsets, -⟩
  exact h firing (by simp) hsets

/-- In a run an event meets a context that recalls the events before it. -/
theorem exists_handle_of_session {front later : List Firing} {firing : Firing} {last : Context}
    (h : (session (front ++ firing :: later)).exec .initial = (.ok (), last)) :
    (∃ value next, firing.handle.exec (reached front) = (.ok value, next)) ∧
      Recalls front (reached front).memory := by
  obtain ⟨middle, hfront, hback⟩ := exec_session_append h
  obtain ⟨value, next, hhandle, -⟩ := exec_session_cons hback
  have hreached : reached front = middle := congrArg Prod.snd hfront
  rw [hreached]
  refine ⟨⟨value, next, hhandle⟩, ?_⟩
  rw [memory_of_session hfront]
  exact recalls_foldl front

/-! ## Hash patterns -/

/-- A hash pattern with an optional class, its keys and an optional rest. -/
def hashPatternNode (constant : Option Node) (keys : List Node) (rest : Option Node) : Node :=
  ⟨.hashPattern, .unlabeled,
    constant.toList.map (.called "class") ++ keys.map .plain ++ rest.toList.map .plain⟩

theorem yields_keywordPattern (pair : Value) :
    Outcome.Yields (fun key => key.kind = .keywordPattern) (keywordPattern pair) := by
  intro node h
  obtain ⟨items, -, hitems⟩ := Outcome.bind_eq_ok_iff.mp h
  cases items with
  | nil => cases hitems
  | cons key values =>
    obtain ⟨key, -, hkey⟩ := Outcome.bind_eq_ok_iff.mp hitems
    obtain ⟨value, -, hvalue⟩ := Outcome.bind_eq_ok_iff.mp hkey
    cases hvalue
    rw [Node.attachAs?_eq, Node.attachAs?_eq, Node.kind_extend, Node.kind_extend]
    rfl

/-- A hash pattern that is handed no rest asks the memory for it. -/
theorem exists_of_exec_hashPattern {constant pairs value : Value} {context changed : Context}
    (h : (hashPattern constant pairs .absent).exec context = (.ok value, changed)) :
    ∃ constant keys, (∀ key ∈ keys, key.kind = .keywordPattern) ∧
      value = .node (hashPatternNode constant keys
        (if context.doubleStar then some (.ofKind .hashSplatParameter) else none)) := by
  change (ofOutcome (constant.asNode? "pattern class") >>= _).exec context.forgetDoubleStar = _ at h
  obtain ⟨constant, -, h⟩ := exec_of_exec_ofOutcome_bind h
  obtain ⟨items, -, h⟩ := exec_of_exec_ofOutcome_bind h
  obtain ⟨keys, hkeys, h⟩ := exec_of_exec_ofOutcome_bind h
  obtain ⟨rest, hrest, h⟩ := exec_of_exec_ofOutcome_bind h
  cases hrest
  cases h
  refine ⟨constant, keys, ?_, ?_⟩
  · exact Outcome.Yields.mapM (fun pair _ => yields_keywordPattern pair) keys hkeys
  · rw [Node.attachAs?_eq, Node.attachAll_eq, Node.attach?_eq]
    rfl

/-- A hash pattern that is handed no rest, behind a keyword `in` with no `**` between them, has
    none, unless a `**` before the keyword is still the last operator and no hash pattern asked for
    it. Then that one is its rest. -/
theorem rest_of_hashPattern (before between later : List Firing) {keyword pattern : Firing}
    {constant pairs : Value} {last : Context}
    (h : (session (before ++ keyword :: (between ++ pattern :: later))).exec .initial =
      (.ok (), last))
    (hkeyword : keyword.IsKeyword "in") (hbetween : ∀ firing ∈ between, ¬ firing.IsOperator "**")
    (hpattern : pattern.Is .hashPattern)
    (harguments : pattern.arguments = [constant, pairs, .absent]) :
    ∃ constant keys rest,
      (pattern.handle.exec (reached (before ++ keyword :: between))).1 =
        .ok (.node (hashPatternNode constant keys rest)) ∧
      (∀ key ∈ keys, key.kind = .keywordPattern) ∧
      (∀ splat ∈ rest, splat = .ofKind .hashSplatParameter) ∧
      (rest.isSome ↔
        StillSet (·.IsOperator "**") (fun other => other.Is .operator ∨ other.Is .hashPattern)
          before ∧
        ∀ firing ∈ between, ¬ (firing.Is .operator ∨ firing.Is .hashPattern)) := by
  rw [← List.cons_append, ← List.append_assoc] at h
  obtain ⟨⟨value, next, hhandle⟩, hrecalls⟩ := exists_handle_of_session h
  have hstill := hrecalls.doubleStar
  have hkeep : ¬ (keyword.Is .operator ∨ keyword.Is .hashPattern) :=
    not_or.mpr ⟨hkeyword.1.not_is nofun, hkeyword.1.not_is nofun⟩
  rw [List.append_cons, stillSet_append_of_not_sets hbetween, stillSet_concat,
    or_iff_right (fun hsets => hkeep (.inl hsets.1)), and_iff_right hkeep, ← List.append_cons]
    at hstill
  have hrule := hhandle
  rw [hpattern.exec_handle, harguments] at hrule
  obtain ⟨constant, keys, hkeys, rfl⟩ := exists_of_exec_hashPattern hrule
  refine ⟨constant, keys, _, congrArg Prod.fst hhandle, hkeys, ?_, ?_⟩
  · intro splat hsplat
    rw [Option.mem_def, Option.ite_none_right_eq_some, Option.some.injEq] at hsplat
    exact hsplat.2.symm
  · rw [← hstill, Option.isSome_ite]
    rfl

/-- The keyword `in`. -/
def inKeyword : Firing := ⟨"kw", [.text "in"], ⟨1, 7⟩, none⟩

/-- The events of `2 ** 3`. -/
def exponentiation : List Firing :=
  [⟨"int", [.text "2"], ⟨1, 0⟩, none⟩, ⟨"op", [.text "**"], ⟨1, 2⟩, none⟩,
    ⟨"int", [.text "3"], ⟨1, 5⟩, none⟩, ⟨"binary", [.node (.leaf .integerNumber "2"), .symbol "**",
      .node (.leaf .integerNumber "3")], ⟨1, 6⟩, none⟩]

/-- The key of the pattern `{a:}`. -/
def keyToken : Firing := ⟨"label", [.text "a:"], ⟨1, 11⟩, none⟩

/-- The pattern `{a:}` itself. -/
def keyPattern : Firing :=
  ⟨"hshptn", [.absent, .list [.list [.node (.leaf .hashKeySymbol "a:"), .absent]], .absent],
    ⟨1, 13⟩, none⟩

theorem rest_of_hashPattern_exponentiation : ∃ last,
    (session (exponentiation ++ inKeyword :: ([keyToken] ++ keyPattern :: []))).exec .initial =
      (.ok (), last) ∧
    inKeyword.IsKeyword "in" ∧ (∀ firing ∈ [keyToken], ¬ firing.IsOperator "**") ∧
    keyPattern.Is .hashPattern ∧ ∃ constant keys rest,
      (keyPattern.handle.exec (reached (exponentiation ++ inKeyword :: [keyToken]))).1 =
        .ok (.node (hashPatternNode constant keys rest)) ∧ rest.isSome := by
  have hrun : (session (exponentiation ++ inKeyword :: ([keyToken] ++ keyPattern :: []))).exec
      .initial = (.ok (), _) := rfl
  have hkeyword : inKeyword.IsKeyword "in" := ⟨rfl, rfl⟩
  have hbetween : ∀ firing ∈ [keyToken], ¬ firing.IsOperator "**" := by decide
  obtain ⟨constant, keys, rest, hhandle, -, -, hrest⟩ :=
    rest_of_hashPattern exponentiation [keyToken] [] hrun hkeyword hbetween rfl rfl
  have hstill : StillSet (·.IsOperator "**")
      (fun other => other.Is .operator ∨ other.Is .hashPattern) exponentiation :=
    ⟨[exponentiation[0]], exponentiation[1], [exponentiation[2], exponentiation[3]], rfl,
      ⟨rfl, rfl⟩, by decide⟩
  exact ⟨_, hrun, hkeyword, hbetween, rfl, constant, keys, rest, hhandle,
    hrest.mpr ⟨hstill, by decide⟩⟩

/-- `2 ** 3 in {a:}` has no `**` in its pattern, and yet the pattern gets a rest. -/
theorem exponentiation_gives_rest : ∃ last,
    (session (exponentiation ++ inKeyword :: ([keyToken] ++ keyPattern :: []))).exec .initial =
      (.ok (), last) ∧
    inKeyword.IsKeyword "in" ∧ (∀ firing ∈ [keyToken], ¬ firing.IsOperator "**") ∧
    keyPattern.Is .hashPattern ∧
    (keyPattern.handle.exec (reached (exponentiation ++ inKeyword :: [keyToken]))).1 =
      .ok (.node (hashPatternNode none
        [(Node.ofKind .keywordPattern).attachAs "key" (.leaf .hashKeySymbol "a:")]
        (some (.ofKind .hashSplatParameter)))) :=
  ⟨_, rfl, ⟨rfl, rfl⟩, by decide, rfl, rfl⟩

/-! ## Matches on one line -/

/-- A pattern that is handed neither a body nor clauses after it is a match on one line, of the kind
    that the memory says. -/
theorem exec_inClause_oneLine (pattern : Node) (context : Context) :
    (inClause (.node pattern) .absent .absent).exec context =
      (.ok (.node ⟨context.oneLine.kind, .unlabeled,
        (toPattern pattern).toList.map (.called "pattern")⟩), context) := by
  rw [← Node.extend_ofKind, ← Node.attachAs?_eq]
  rfl

/-- A match on one line that is written with `in` is a `match_pattern` if some `=>` was scanned in
    its pattern, and a `test_pattern` if not. -/
theorem kind_of_oneLineMatch (before between later : List Firing) {keyword clause : Firing}
    {pattern : Node} {last : Context}
    (h : (session (before ++ keyword :: (between ++ clause :: later))).exec .initial =
      (.ok (), last))
    (hkeyword : keyword.IsKeyword "in") (hbetween : ∀ firing ∈ between, ¬ firing.IsKeyword "in")
    (hclause : clause.Is .inClause)
    (harguments : clause.arguments = [.node pattern, .absent, .absent]) :
    ∃ kind,
      (clause.handle.exec (reached (before ++ keyword :: between))).1 =
        .ok (.node ⟨kind, .unlabeled, (toPattern pattern).toList.map (.called "pattern")⟩) ∧
      (kind = .testPattern ∨ kind = .matchPattern) ∧
      (kind = .matchPattern ↔ ∃ firing ∈ between, firing.IsOperator "=>") := by
  rw [← List.cons_append, ← List.append_assoc] at h
  obtain ⟨⟨value, next, hhandle⟩, hrecalls⟩ := exists_handle_of_session h
  have hstill := hrecalls.oneLine
  have hoperator : ¬ keyword.Is .operator := hkeyword.1.not_is nofun
  have hset : ¬ keyword.IsOperator "=>" := fun hsets => hoperator hsets.1
  rw [List.append_cons, stillSet_append, stillSet_concat, or_iff_right hset,
    iff_false_intro (not_not_intro hkeyword), false_and, false_and, or_false,
    stillSet_iff_of_not_clears hbetween, ← List.append_cons] at hstill
  refine ⟨_, ?_, ?_, hstill⟩
  · rw [hclause.exec_handle, harguments]
    exact congrArg Prod.fst (exec_inClause_oneLine pattern _)
  · cases (reached (before ++ keyword :: between)).memory.oneLine with
    | arrow => exact .inr rfl
    | keyword => exact .inl rfl

/-- The events of the pattern `Integer => n`. -/
def bindingEvents : List Firing :=
  [⟨"const", [.text "Integer"], ⟨1, 5⟩, none⟩, ⟨"op", [.text "=>"], ⟨1, 13⟩, none⟩,
    ⟨"ident", [.text "n"], ⟨1, 16⟩, none⟩,
    ⟨"var_field", [.node (.leaf .identifier "n")], ⟨1, 17⟩, none⟩,
    ⟨"binary", [.node (.leaf .constant "Integer"), .symbol "=>",
      .node ((Node.ofKind .varField).attachAs "name" (.leaf .identifier "n"))], ⟨1, 17⟩, none⟩]

/-- The expression `Integer => n`, as the event is handed it. -/
def boundConstant : Node :=
  (((Node.ofKind .binary).attachAs "left" (.leaf .constant "Integer")).attachToken "=>").attachAs
    "right" ((Node.ofKind .varField).attachAs "name" (.leaf .identifier "n"))

/-- The event of the match. -/
def oneLineMatch : Firing := ⟨"in", [.node boundConstant, .absent, .absent], ⟨1, 17⟩, none⟩

theorem kind_of_oneLineMatch_binding : ∃ last,
    (session ([] ++ inKeyword :: (bindingEvents ++ oneLineMatch :: []))).exec .initial =
      (.ok (), last) ∧
    inKeyword.IsKeyword "in" ∧ (∀ firing ∈ bindingEvents, ¬ firing.IsKeyword "in") ∧
    oneLineMatch.Is .inClause ∧
    (oneLineMatch.handle.exec (reached ([] ++ inKeyword :: bindingEvents))).1 =
      .ok (.node ⟨.matchPattern, .unlabeled,
        (toPattern boundConstant).toList.map (.called "pattern")⟩) := by
  have hrun : (session ([] ++ inKeyword :: (bindingEvents ++ oneLineMatch :: []))).exec .initial =
      (.ok (), _) := rfl
  have hkeyword : inKeyword.IsKeyword "in" := ⟨rfl, rfl⟩
  have hbetween : ∀ firing ∈ bindingEvents, ¬ firing.IsKeyword "in" := by decide
  obtain ⟨kind, hhandle, -, hkind⟩ :=
    kind_of_oneLineMatch [] bindingEvents [] hrun hkeyword hbetween rfl rfl
  have harrow : ∃ firing ∈ bindingEvents, firing.IsOperator "=>" := by decide
  rw [hkind.mpr harrow] at hhandle
  exact ⟨_, hrun, hkeyword, hbetween, rfl, hhandle⟩

/-- `x in Integer => n` is written with `in`, and is no `test_pattern`. -/
theorem binding_gives_matchPattern : ∃ last,
    (session (inKeyword :: (bindingEvents ++ [oneLineMatch]))).exec .initial = (.ok (), last) ∧
    inKeyword.IsKeyword "in" ∧ (∀ firing ∈ bindingEvents, ¬ firing.IsKeyword "in") ∧
    oneLineMatch.Is .inClause ∧
    ∃ node, (oneLineMatch.handle.exec (reached (inKeyword :: bindingEvents))).1 = .ok (.node node) ∧
      node.kind ≠ .testPattern :=
  ⟨_, rfl, ⟨rfl, rfl⟩, by decide, rfl, _, rfl, by decide⟩

end RubyTree
