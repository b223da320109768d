import RubyTree.Proofs.Memory.History

/-!
# Events that do nothing

An event of a production is refused if it comes with another number of arguments than the
production takes, and an event of no production hands its first argument on. Such an event is idle:
the context moves on to it, which sets the position and the token, and nothing else changes. Since
the next event sets both again, no later event can tell whether an idle one came before it.

Specification: `Production.arity` is a table of the numbers of arguments, and `Context.Moved` says
what an idle event does to the context.

Results:

* `succeeds_iff`: the table is right, a production can succeed with the number it gives only.
* `run_without_idle`: the other events of a run come to the same without its idle ones.
* `idle_moves_on`: what an idle event comes to, and that it leaves the context and the run alone.
-/

namespace RubyTree

/-! ## Specification -/

/-- The number of arguments a production takes. -/
def Production.arity : Production → Nat
  | .regexpNew | .wordNew | .wordsNew | .qwordsNew | .symbolsNew | .qsymbolsNew | .xstringNew
  | .stringContent | .mlhsNew | .mrhsNew | .argsNew | .argsForward | .superBare | .yieldBare
  | .returnBare | .redoJump | .retryJump | .excessedComma | .stmtsNew | .voidStmt => 0
  | .magicComment | .operatorAmbiguous | .heredocDedent | .stringAdd | .xstringAdd
  | .stringConcat | .regexpAdd | .regexpLiteral | .wordAdd | .wordsAdd | .symbolsAdd | .qwordsAdd
  | .qsymbolsAdd | .assocNew | .unary | .dot2 | .dot3 | .constPathRef | .constPathField | .aref
  | .arefField | .assign | .massign | .mlhsAdd | .mlhsAddStar | .mlhsAddPost | .mrhsAdd
  | .mrhsAddStar | .command | .methodAddArg | .methodAddBlock | .argsAdd | .argsAddBlock
  | .argsAddStar | .braceBlock | .doBlock | .blockVar | .moduleDef | .singletonClass
  | .lambdaLiteral | .aliasMethod | .varAlias | .stmtsAdd | .ifMod | .unlessMod | .whileMod
  | .untilMod | .whileLoop | .untilLoop | .caseOf | .rescueMod | .aliasError | .assignError
  | .classNameError | .paramError => 2
  | .binary | .ternary | .opassign | .methodCall | .fieldCall | .methodDef | .classDef | .ifBranch
  | .unlessBranch | .elsifBranch | .forLoop | .whenClause | .inClause | .hashPattern => 3
  | .commandCall | .bodyStatement | .rescueClause | .arrayPattern | .findPattern => 4
  | .singletonDef => 5
  | .params => 7
  | _ => 1

/-- The context has moved on to a position and a token, and all else is as it was. -/
structure Context.Moved (before : Context) (position : Position) (token : Option String)
    (after : Context) : Prop where
  position : after.position = position
  token : after.token = token
  openers : after.openers = before.openers
  doubleStar : after.doubleStar = before.doubleStar
  oneLine : after.oneLine = before.oneLine
  lambdaBody : after.lambdaBody = before.lambdaBody
  lastParen : after.lastParen = before.lastParen
  lastSemicolon : after.lastSemicolon = before.lastSemicolon
  ended : after.ended = before.ended
  diagnostics : after.diagnostics = before.diagnostics

/-- The context may have moved on, and all else is as it was. -/
def Context.Moves (before after : Context) : Prop :=
  ∃ position token, before.Moved position token after

/-- Some event of the production that comes with this number of arguments succeeds. -/
def Production.Succeeds (production : Production) (count : Nat) : Prop :=
  ∃ arguments position token context value after, arguments.length = count ∧
    (handle production.name arguments position token).exec context = (.ok value, after)

/-- The event is refused for the number of its arguments, or it is one of no production. -/
def Firing.IsIdle (firing : Firing) : Prop :=
  ∀ production, firing.Is production → firing.arguments.length ≠ production.arity

/-- What each event of a run comes to. An event that fails does not end the run, and what it changed
    before stays changed. -/
def replies : List Firing → Context → List (Firing × Outcome Value)
  | [], _ => []
  | firing :: firings, context =>
    (firing, (firing.handle.exec context).1) :: replies firings (firing.handle.exec context).2

/-- The context after such a run. -/
def settled (firings : List Firing) (context : Context) : Context :=
  firings.foldl (fun context firing => (firing.handle.exec context).2) context

theorem settled_cons (firing : Firing) (firings : List Firing) (context : Context) :
    settled (firing :: firings) context = settled firings (firing.handle.exec context).2 := rfl

instance (firing : Firing) : Decidable firing.IsIdle :=
  decidable_of_iff (∀ production ∈ Production.ofName? firing.event,
      firing.arguments.length ≠ production.arity) <| by
    simp only [Option.mem_def, Production.ofName?_eq_some_iff, Firing.IsIdle, Firing.Is]

/-! ## Contexts that differ in the position and the token -/

theorem Context.moved_iff {before after : Context} {position : Position} {token : Option String} :
    before.Moved position token after ↔ after = before.enter position token := by
  constructor
  · rintro ⟨hposition, htoken, hopeners, hstar, hline, hbody, hparen, hsemicolon, hended, hnoted⟩
    cases after
    simp_all [enter]
  · rintro rfl
    exact ⟨rfl, rfl, rfl, rfl, rfl, rfl, rfl, rfl, rfl, rfl⟩

theorem Context.Moves.refl (context : Context) : context.Moves context :=
  ⟨context.position, context.token, moved_iff.mpr rfl⟩

theorem Context.Moves.trans {before between after : Context} (h : before.Moves between)
    (hnext : between.Moves after) : before.Moves after := by
  obtain ⟨_, _, hbetween⟩ := h
  obtain ⟨position, token, hafter⟩ := hnext
  rw [moved_iff] at hbetween hafter
  subst hbetween
  exact ⟨position, token, moved_iff.mpr hafter⟩

/-! ## The number of arguments -/

theorem arity_ruleOf (production : Production) :
    (ruleOf production).arity = production.arity := by
  cases production <;> rfl

theorem exec_handle_of_length_ne {production : Production} {arguments : List Value}
    (h : arguments.length ≠ production.arity) (position : Position) (token : Option String)
    (context : Context) :
    (handle production.name arguments position token).exec context =
      (.error (.arity production.name production.arity arguments.length),
        context.enter position token) := by
  rw [← arity_ruleOf] at h ⊢
  rw [exec_handle_name, Rule.apply_of_length_ne production.name h, Build.exec_ofOutcome]

/-- A context in which a literal is open. -/
def openString : Context := Context.initial.openLiteral "\""

/-- As many arguments as asked for: none is given, all are nodes, or the first is a list. -/
def samples (count : Nat) : List (List Value) :=
  [.replicate count .absent, .replicate count (.node (.ofKind .argumentList)),
    (List.replicate count (.node (.ofKind .argumentList))).set 0 (.list [])]

theorem length_of_mem_samples {count : Nat} {arguments : List Value}
    (h : arguments ∈ samples count) : arguments.length = count := by
  simp only [samples, List.mem_cons, List.not_mem_nil, or_false] at h
  rcases h with rfl | rfl | rfl <;> simp

theorem all_samples : (Production.all.all fun production =>
    (samples production.arity).any fun arguments =>
      (((ruleOf production).apply production.name arguments).exec openString).1.isOk) = true := by
  decide +kernel

/-- The number of arguments is the only one with which an event of the production can succeed. -/
theorem succeeds_iff {production : Production} {count : Nat} :
    production.Succeeds count ↔ count = production.arity := by
  constructor
  · rintro ⟨arguments, position, token, context, value, after, rfl, hhandle⟩
    rw [exec_handle_name] at hhandle
    rw [Rule.length_of_exec_apply hhandle, arity_ruleOf]
  · rintro rfl
    have hall := List.all_eq_true.mp all_samples production (Production.mem_all production)
    obtain ⟨arguments, hmem, hok⟩ := List.any_eq_true.mp hall
    rcases hexec : ((ruleOf production).apply production.name arguments).exec openString with
      ⟨_ | value, after⟩
    · rw [hexec] at hok
      cases hok
    · refine ⟨arguments, openString.position, openString.token, openString, value, after,
        length_of_mem_samples hmem, ?_⟩
      rw [exec_handle_name]
      exact hexec

/-! ## Runs -/

/-- What an idle event leaves is the context, moved on to it. -/
theorem Firing.IsIdle.exec_handle {firing : Firing} (h : firing.IsIdle) (context : Context) :
    (firing.handle.exec context).2 = context.enter firing.position firing.token := by
  cases hname : Production.ofName? firing.event with
  | none => rw [handle, exec_handle_of_ofName?_eq_none hname]
  | some production =>
    have hevent := Production.ofName?_eq_some_iff.mp hname
    rw [handle, hevent, exec_handle_of_length_ne (h production hevent)]

/-- A context that has moved on goes through a run as it would have before. -/
theorem replies_enter (firings : List Firing) (position : Position) (token : Option String)
    (context : Context) :
    replies firings (context.enter position token) = replies firings context := by
  cases firings with
  | nil => rfl
  | cons firing firings => rfl

theorem moves_settled_enter (firings : List Firing) (position : Position) (token : Option String)
    (context : Context) :
    (settled firings context).Moves (settled firings (context.enter position token)) := by
  cases firings with
  | nil => exact ⟨position, token, Context.moved_iff.mpr rfl⟩
  | cons firing firings => exact .refl _

/-- Without its idle events, the other events of a run come to what they came to with them, and
    the run ends in the same context up to the position and the token. -/
theorem run_without_idle (firings : List Firing) (context : Context) :
    (replies firings context).filter (fun reply => ¬ reply.1.IsIdle) =
        replies (firings.filter fun firing => ¬ firing.IsIdle) context ∧
      (settled (firings.filter fun firing => ¬ firing.IsIdle) context).Moves
        (settled firings context) := by
  induction firings generalizing context with
  | nil => exact ⟨rfl, .refl context⟩
  | cons firing firings ih =>
    rw [replies, settled_cons]
    by_cases hidle : firing.IsIdle
    · rw [List.filter_cons_of_neg (by simpa using hidle),
        List.filter_cons_of_neg (by simpa using hidle), hidle.exec_handle, replies_enter]
      obtain ⟨hreplies, hsettled⟩ := ih context
      exact ⟨hreplies, hsettled.trans (moves_settled_enter firings _ _ context)⟩
    · rw [List.filter_cons_of_pos (by simpa using hidle),
        List.filter_cons_of_pos (by simpa using hidle), replies, settled_cons]
      obtain ⟨hreplies, hsettled⟩ := ih (firing.handle.exec context).2
      exact ⟨congrArg _ hreplies, hsettled⟩

/-! ## Idle events -/

/-- In any context an event with another number of arguments than its production takes is refused,
    and the cause names the production, the number it takes and the number it got. An event of no
    production hands its first argument on. In both cases the position and the token are all that
    changes. The number a production takes is the only one with which it can succeed. So a run may
    leave out its idle events: all others come to the same, and so does the context at the end. -/
theorem idle_moves_on (context : Context) :
    (∀ (production : Production) (arguments : List Value) (position : Position)
      (token : Option String), arguments.length ≠ production.arity →
      ∃ cause after, (handle production.name arguments position token).exec context =
          (.error cause, after) ∧
        cause = .arity production.name production.arity arguments.length ∧
        (Error.shape cause).message =
          "unexpected argument shape: " ++ ("`" ++ production.name ++ "` takes " ++
            toString production.arity ++ " argument(s), found " ++ toString arguments.length) ∧
        context.Moved position token after) ∧
    (∀ (event : String) (arguments : List Value) (position : Position) (token : Option String),
      (∀ production : Production, event ≠ production.name) →
      ∃ after, (handle event arguments position token).exec context =
          (.ok (arguments.head?.getD .absent), after) ∧
        context.Moved position token after) ∧
    (∀ (production : Production) (count : Nat),
      production.Succeeds count ↔ count = production.arity) ∧
    ∀ firings : List Firing,
      (replies firings context).filter (fun reply => ¬ reply.1.IsIdle) =
          replies (firings.filter fun firing => ¬ firing.IsIdle) context ∧
        (settled (firings.filter fun firing => ¬ firing.IsIdle) context).Moves
          (settled firings context) := by
  refine ⟨fun production arguments position token hlength => ?_,
    fun event arguments position token hevent => ?_, fun _ _ => succeeds_iff,
    fun firings => run_without_idle firings context⟩
  · exact ⟨_, _, exec_handle_of_length_ne hlength position token context, rfl, rfl,
      Context.moved_iff.mpr rfl⟩
  · have hname := Production.ofName?_eq_none_iff.mpr hevent
    exact ⟨_, exec_handle_of_ofName?_eq_none hname arguments position token context,
      Context.moved_iff.mpr rfl⟩

/-- A literal is open, and all that can be remembered is. -/
def busy : Context where
  openers := ["\""]
  doubleStar := true
  oneLine := .arrow
  lambdaBody := .doEnd
  lastParen := some ⟨⟨2, 3⟩, true⟩
  lastSemicolon := some ⟨1, 8⟩
  ended := true
  diagnostics := [⟨1, "unterminated string"⟩]

/-- A hash pattern without its rest, which would have forgotten the double star, and a period. -/
theorem idle_moves_on_busy :
    (∃ after, (handle "hshptn" [.absent, .list []] ⟨2, 5⟩ (some ")")).exec busy =
        (.error (.arity "hshptn" 3 2), after) ∧
      busy.Moved ⟨2, 5⟩ (some ")") after ∧ after.doubleStar = true) ∧
    ∃ after, (handle "period" [.text "."] ⟨2, 5⟩ (some ".")).exec busy =
        (.ok (.text "."), after) ∧ busy.Moved ⟨2, 5⟩ (some ".") after := by
  obtain ⟨hrefused, hunknown, -⟩ := idle_moves_on busy
  obtain ⟨_, after, hhandle, rfl, -, hmoved⟩ :=
    hrefused .hashPattern [.absent, .list []] ⟨2, 5⟩ (some ")") (by decide)
  have hperiod : ∀ production : Production, "period" ≠ production.name :=
    Production.ofName?_eq_none_iff.mp (by decide +kernel)
  exact ⟨⟨after, hhandle, hmoved, hmoved.doubleStar⟩,
    hunknown "period" [.text "."] ⟨2, 5⟩ (some ".") hperiod⟩

end RubyTree
