/-
This file proves that the walk is sound for undefined variables: if it reports none, then no run of
the body reads a variable before it has a value. One case per statement assembles what is tracked
through loops, branches and exceptions.
-/

import PhpAudit.Declaration
import PhpAudit.Proofs.Flow.Tracking

namespace PhpAudit

open Execution

namespace Flow

variable {env : Env}

/-! ### Walking statements -/

/--
The statements whose definitions the walk follows. The step of a `for` loop is walked before the
body and so must neither leave nor assign; `foreach` takes values into plain variables.
-/
def followsDefinitions (inLoop : Bool) : StmtKind → Bool
  | .expr _ | .echo _ | .returns _ | .block _ | .branch .. | .whileLoop .. | .tryCatch .. | .nop =>
    true
  | .breaks | .continues => inLoop
  | .forLoop _ _ step _ => step.all (everyExpr fun kind => isQuiet kind && assignsNothing kind)
  | .foreach _ key target byRef _ => !byRef && isVariable target && key.all isVariable
  | _ => false

/-- Statements of the fragment, at any depth. -/
abbrev Tracked (env : Env) (inLoop : Bool) (body : List Stmt) : Prop :=
  everyStmt (everyExpr (definesPlainly env)) followsDefinitions inLoop body = true

theorem followsExits_of_definesPlainly (kind : ExprKind) (plain : definesPlainly env kind = true) :
    followsExits kind = true := by
  cases kind with
  | assign target value op byRef =>
    simp only [definesPlainly, Bool.and_eq_true, beq_iff_eq] at plain
    simp [followsExits, plain.1.2]
  | binary op left right => cases op <;> simp_all [definesPlainly, followsExits]
  | _ => simp_all [definesPlainly, followsExits]

theorem followed_expr {expr : Expr} (plain : everyExpr (definesPlainly env) expr = true) :
    everyExpr followsExits expr = true :=
  everyExpr_mono followsExits_of_definesPlainly expr plain

theorem followsFlow_of_followsDefinitions (inLoop : Bool) (kind : StmtKind)
    (tracked : followsDefinitions inLoop kind = true) : followsFlow inLoop kind = true := by
  cases kind with
  | forLoop init test step body =>
    refine all_mono (fun expr => everyExpr_mono (fun kind free => ?_) expr) tracked
    exact (Bool.and_eq_true_iff.mp free).1
  | _ => simp_all [followsDefinitions, followsFlow]

/-- The fragment is one in which the walk follows the exits. -/
theorem followed_of_tracked {inLoop : Bool} {body : List Stmt} (tracked : Tracked env inLoop body) :
    Followed inLoop body :=
  everyStmt_mono (fun _ => followed_expr) followsFlow_of_followsDefinitions inLoop body tracked

theorem follows_of_tracked {inLoop : Bool} {body : List Stmt} (tracked : Tracked env inLoop body) :
    Follows (execute env body) (walkStmts env body) :=
  follows_stmts env inLoop body (followed_of_tracked tracked)

theorem tracks_target (env : Env) {target : Expr} (plainTarget : isVariable target = true)
    (mode : AssignMode) (types : TypeSet) :
    Tracks ((place env target).seq (store env target)).lift (walkAssign env mode types target) := by
  obtain ⟨kind, span⟩ := target
  cases kind with
  | var name =>
    rw [place, store, Runs.done_seq]
    exact (Tracks.of_gains (gains_assignVar env mode (fun _ => types) name span span)).congr
      fun walk => by rw [walkAssign]
  | _ => simp [isVariable] at plainTarget

theorem tracks_key (env : Env) {key : Option Expr} (plainKey : key.all isVariable = true) :
    Tracks (executeKey env key).lift (walkKey env key) := by
  cases key with
  | none =>
    rw [executeKey_none, Runs.lift_done]
    exact .of_idle (fun walk => by rw [walkKey_none]; exact ⟨rfl, rfl⟩) fun _ => .done trivial
  | some key =>
    rw [executeKey]
    exact (tracks_target env plainKey (.iteration key.span) keyTypes).congr fun walk => by
      rw [walkKey]

section

variable (outermost : env.enclosing = [])

include outermost

theorem tracks_expr {expr : Expr} (plain : everyExpr (definesPlainly env) expr = true) :
    Tracks (evaluate env expr).lift (walkExpr env expr) := by
  obtain ⟨_, _, gains⟩ := gains_expr outermost expr plain
  exact .of_gains gains

theorem tracks_exprs {values : List Expr}
    (plain : values.all (everyExpr (definesPlainly env)) = true) :
    Tracks (evaluateAll env values).lift (walkExprs env values) := by
  obtain ⟨_, _, gains⟩ := gains_exprs outermost values plain
  exact .of_gains gains

theorem tracks_returns {value : Option Expr}
    (plain : value.all (everyExpr (definesPlainly env)) = true) (span : Span) :
    Tracks (executeKind env span (.returns value)) (walkStmtKind env (.returns value)) := by
  have left : Tracks (Runs.leave Leave.returned) fun walk => walk.leave .byReturn :=
    .of_idle (Walk.idle_leave .byReturn) fun _ => .leave _
  rw [executeKind]
  cases value with
  | none =>
    have bare : Tracks (Runs.leave Leave.returned) fun walk =>
        ({ walk with bareReturn := true } : Walk).leave .byReturn :=
      left.idle_then fun _ => ⟨rfl, rfl⟩
    rw [evaluateOptional_none, Runs.lift_done, Runs.done_seq]
    exact bare.congr fun walk => by rw [walkStmtKind]
  | some value =>
    have noted : Tracks (Runs.leave Leave.returned) fun walk =>
        ({ walk with
          returnTypes := walk.returnTypes.append (walk.localType env value)
          returnsValue := true } : Walk).leave .byReturn :=
      left.idle_then fun _ => ⟨rfl, rfl⟩
    rw [evaluateOptional]
    exact ((tracks_expr outermost plain).seq noted).congr fun walk => by rw [walkStmtKind]

theorem tracks_while {test : Expr} {body : List Stmt}
    (plain : everyExpr (definesPlainly env) test = true)
    (tracks : Tracks (execute env body) (walkStmts env body)) (span : Span) :
    Tracks (executeKind env span (.whileLoop test body))
      (walkStmtKind env (.whileLoop test body)) := by
  have unstepped : Gains ∅ Runs.done fun walk => walk :=
    .of_idle (fun _ => ⟨rfl, rfl⟩) fun _ => .done trivial
  have loop := tracks_loop (tracks_expr outermost plain) unstepped (fun _ => tracks)
    (fun block => { block.child with insideLoop := true }) fun _ => rfl
  rw [Runs.lift_done] at loop
  rw [executeKind]
  exact loop.congr fun walk => by
    rw [walkStmtKind]
    rfl

theorem tracks_for {init test step : List Expr} {body : List Stmt}
    (plainInit : init.all (everyExpr (definesPlainly env)) = true)
    (plainTest : test.all (everyExpr (definesPlainly env)) = true)
    (plainStep : step.all (everyExpr (definesPlainly env)) = true)
    (free : step.all (everyExpr assignsNothing) = true)
    (tracks : Tracks (execute env body) (walkStmts env body)) (span : Span) :
    Tracks (executeKind env span (.forLoop init test step body))
      (walkStmtKind env (.forLoop init test step body)) := by
  obtain ⟨names, none, stepped⟩ := gains_exprs outermost step plainStep
  obtain rfl := none free
  rw [executeKind]
  exact ((tracks_exprs outermost plainInit).seq (tracks_loop (tracks_exprs outermost plainTest)
    stepped (fun _ => tracks) (fun block => { block.child with insideLoop := true })
    fun _ => rfl)).congr fun walk => by
      rw [walkStmtKind]
      rfl

theorem tracks_foreach {subject target : Expr} {key : Option Expr} {body : List Stmt}
    (plain : everyExpr (definesPlainly env) subject = true)
    (plainTarget : isVariable target = true) (plainKey : key.all isVariable = true)
    (tracks : Tracks (execute env body) (walkStmts env body)) (span : Span) :
    Tracks (executeKind env span (.foreach subject key target false body))
      (walkStmtKind env (.foreach subject key target false body)) := by
  have untested : Tracks Runs.attempt.lift fun walk => walk :=
    .of_idle (fun _ => ⟨rfl, rfl⟩) fun _ => .lift (.attempt trivial)
  have unstepped : Gains ∅ Runs.done fun walk => walk :=
    .of_idle (fun _ => ⟨rfl, rfl⟩) fun _ => .done trivial
  have entered : Tracks (execute env body) fun walk =>
      walkStmts env body (walk.mapBlock fun block => { block with insideLoop := true }) :=
    tracks.idle_then fun _ => ⟨rfl, rfl⟩
  have round (types : TypeSet) := (tracks_target env plainTarget (.iteration target.span) types).seq
    ((tracks_key env plainKey).seq entered)
  have loop := tracks_loop untested unstepped
    (fun outer => round (outer.localType env subject).element) Block.child fun _ => rfl
  rw [Runs.lift_done] at loop
  rw [executeKind]
  exact ((tracks_expr outermost plain).seq (loop.then_idle
    (idle_checkForeachKey env key target))).congr fun walk => by
      rw [walkStmtKind]
      rfl

end

mutual

/-- The walk over a list of statements keeps track of its definitions. -/
theorem tracks_stmts (outermost : env.enclosing = []) (inLoop : Bool) (body : List Stmt)
    (tracked : Tracked env inLoop body) :
    Tracks (execute env body) (walkStmts env body) := by
  cases body with
  | nil =>
    rw [execute_nil]
    exact .of_idle (fun walk => by rw [walkStmts_nil]; exact ⟨rfl, rfl⟩) fun _ => .done trivial
  | cons stmt rest =>
    obtain ⟨kind, span⟩ := stmt
    simp only [Tracked, everyStmt, Bool.and_eq_true] at tracked
    have first := (tracks_kind outermost inLoop kind span tracked.1.1 tracked.1.2).idle_then
      (Walk.idle_checkDeadCode env ⟨kind, span⟩)
    rw [execute, executeStmt]
    exact (first.seq (tracks_stmts outermost inLoop rest tracked.2)).congr fun walk => by
      rw [walkStmts, walkStmt]

theorem tracks_kind (outermost : env.enclosing = []) (inLoop : Bool) (kind : StmtKind) (span : Span)
    (own : followsDefinitions inLoop kind = true)
    (parts : everyPart (everyExpr (definesPlainly env)) followsDefinitions inLoop kind = true) :
    Tracks (executeKind env span kind) (walkStmtKind env kind) := by
  cases kind with
  | expr value =>
    rw [executeKind]
    exact (tracks_expr outermost parts).congr fun walk => by rw [walkStmtKind]
  | echo values =>
    obtain ⟨names, _, gains⟩ := gains_exprs outermost values parts
    rw [executeKind]
    exact (Tracks.of_gains ((gains.idle_then Walk.idle_impure).then_runs fun _ =>
      .attempt trivial)).congr fun walk => by rw [walkStmtKind]
  | returns value => exact tracks_returns outermost parts span
  | breaks =>
    rw [executeKind]
    exact (Tracks.of_idle (Walk.idle_leave .byBreak) fun _ => .leave _).congr fun walk => by
      rw [walkStmtKind]
  | continues =>
    rw [executeKind]
    exact (Tracks.of_idle (Walk.idle_leave .byContinue) fun _ => .leave _).congr fun walk => by
      rw [walkStmtKind]
  | block body =>
    rw [executeKind_block]
    exact (tracks_stmts outermost inLoop body parts).congr fun walk => by rw [walkStmtKind_block]
  | branch test body bodySpan rest =>
    simp only [everyPart, Bool.and_eq_true] at parts
    obtain ⟨names, _, gains⟩ := gains_expr outermost test parts.1.1
    exact tracks_branch parts.1.1 gains (tracks_stmts outermost inLoop body parts.1.2) bodySpan span
      (paced_of_followed env _ (followed_expr parts.1.1)) (follows_of_tracked parts.1.2)
      (tracks_otherwise outermost inLoop rest parts.2)
  | whileLoop test body =>
    simp only [everyPart, Bool.and_eq_true] at parts
    exact tracks_while outermost parts.1 (tracks_stmts outermost true body parts.2) span
  | forLoop init test step body =>
    simp only [everyPart, Bool.and_eq_true] at parts
    have free : step.all (everyExpr assignsNothing) = true :=
      all_mono (fun expr => everyExpr_mono (fun kind free => (Bool.and_eq_true_iff.mp free).2) expr)
        own
    exact tracks_for outermost parts.1.1.1 parts.1.1.2 parts.1.2 free
      (tracks_stmts outermost true body parts.2) span
  | foreach subject key target byRef body =>
    simp only [everyPart, Bool.and_eq_true] at parts
    simp only [followsDefinitions, Bool.and_eq_true, Bool.not_eq_true'] at own
    obtain ⟨⟨rfl, plainTarget⟩, plainKey⟩ := own
    exact tracks_foreach outermost parts.1.1.1 plainTarget plainKey
      (tracks_stmts outermost true body parts.2) span
  | tryCatch body catches final finalSpan =>
    simp only [everyPart, Bool.and_eq_true] at parts
    cases final with
    | none =>
      exact tracks_try (tracks_stmts outermost inLoop body parts.1.1) (follows_of_tracked parts.1.1)
        (tracks_catches outermost inLoop catches parts.1.2) finalSpan span
    | some last =>
      exact tracks_tryFinally (tracks_stmts outermost inLoop body parts.1.1)
        (follows_of_tracked parts.1.1) (tracks_catches outermost inLoop catches parts.1.2)
        (tracks_stmts outermost inLoop last parts.2) finalSpan span
  | nop =>
    rw [executeKind]
    exact .of_idle (fun walk => by rw [walkStmtKind]; exact ⟨rfl, rfl⟩) fun _ => .done trivial
  | _ => simp [followsDefinitions] at own

theorem tracks_otherwise (outermost : env.enclosing = []) (inLoop : Bool) (rest : Otherwise)
    (parts : everyOtherwise (everyExpr (definesPlainly env)) followsDefinitions inLoop rest = true)
    (initial : Scope) (chain : Chain) (no : chain.no.continues = true) :
    Chain.Tracks initial (executeOtherwise env rest) chain
      (walkOtherwise env initial rest chain) := by
  cases rest with
  | nothing => exact tracks_nothing initial chain
  | orElse body =>
    exact tracks_orElse (tracks_stmts outermost inLoop body parts) (follows_of_tracked parts) initial
      chain no
  | orIf test body span rest =>
    simp only [everyOtherwise, Bool.and_eq_true] at parts
    obtain ⟨names, _, gains⟩ := gains_expr outermost test parts.1.1
    exact tracks_orIf parts.1.1 gains (tracks_stmts outermost inLoop body parts.1.2) span
      (paced_of_followed env _ (followed_expr parts.1.1)) (follows_of_tracked parts.1.2) initial
      (tracks_otherwise outermost inLoop rest parts.2 initial) chain

theorem tracks_catches (outermost : env.enclosing = []) (inLoop : Bool) (clauses : List Catch)
    (parts : everyCatch (everyExpr (definesPlainly env)) followsDefinitions inLoop clauses = true)
    (thrown : Block) (catches : Catches) :
    Catches.Tracks thrown (executeCatches env clauses) catches
      (walkCatches env thrown clauses catches) := by
  cases clauses with
  | nil =>
    rw [executeCatches_nil, walkCatches_nil]
    exact ⟨Nat.le_refl _, id, rfl, List.Subset.refl _, rfl, fun _ _ _ _ => .empty⟩
  | cons clause rest =>
    obtain ⟨types, name, body, span⟩ := clause
    simp only [everyCatch, Bool.and_eq_true] at parts
    exact tracks_catch types name span (tracks_stmts outermost inLoop body parts.1)
      (follows_of_tracked parts.1) thrown (tracks_catches outermost inLoop rest parts.2 thrown)
      catches

end

/-! ### No variable is read before it has a value -/

/-- A body starts with its parameters, and `$this` in a method. -/
theorem of_has_bodyScope {params : List ParamInfo} {this : Option String} {name : String}
    (defined : (Declaration.bodyScope params this).has name = true) :
    (∃ param ∈ params, param.name = name) ∨ name = "$this" ∧ this.isSome = true := by
  have bound (defined : (Scope.empty.bind params).has name = true) :
      ∃ param ∈ params, param.name = name := by
    refine (Scope.of_has_foldl _ (fun scope param member defined => ?_) defined).resolve_left ?_
    · rw [Scope.has_add, Bool.or_eq_true] at defined
      refine defined.imp_right fun added => ⟨param, member, ?_⟩
      simpa using added
    · simp [Scope.has, Scope.get?, Scope.empty]
  cases this with
  | none => exact .inl (bound defined)
  | some owner =>
    have added : ((Scope.empty.bind params).add "$this" (.named owner) true).has name = true :=
      defined
    rw [Scope.has_add, Bool.or_eq_true] at added
    rcases added with defined | added
    · exact .inl (bound defined)
    · have equal : "$this" = name := by simpa using added
      exact .inr ⟨equal.symm, rfl⟩

theorem idle_shareAll (params : List ParamInfo) :
    Idle fun walk => params.foldl (fun walk param => walk.share param.name) walk := by
  induction params with
  | nil => exact fun _ => ⟨rfl, rfl⟩
  | cons param rest inductionHypothesis =>
    exact (Walk.idle_share param.name).comp inductionHypothesis

/-- Reports of other kinds do not count as undefined variables. -/
theorem undefined_of_append {before after : List Issue} {emitted : List Issue}
    (issues : after = before ++ emitted) (clean : ∀ issue ∈ emitted, issue.check ≠ "undefined") :
    after.countP (·.check == "undefined") = before.countP (·.check == "undefined") := by
  have none : emitted.countP (·.check == "undefined") = 0 := by
    rw [List.countP_eq_zero]
    exact fun issue member equal => clean issue member (eq_of_beq equal)
  rw [issues, List.countP_append, none, Nat.add_zero]

/--
No variable is read before it has a value. If the walk of a body with bound parameters reports no
undefined variable, then in every run a variable that is read is a superglobal, is bound when the
body starts, or was written before.
-/
theorem reads_follow_definitions (env : FileEnv) (naming : Naming) (body : List Stmt)
    (tracked : Tracked (env.walkEnv naming) false body) (params : List ParamInfo)
    (this : Option String) (report : Report) (enabled : report.enabled = true)
    (emitted : List Issue)
    (issues : (walkBody (env.walkEnv naming) body (startBody (Declaration.bodyScope params this)
      params report)).report.issues = report.issues ++ emitted)
    (clean : ∀ issue ∈ emitted, issue.check ≠ "undefined") :
    ∀ run ∈ execute (env.walkEnv naming) body, ∀ before name span after,
      run.trace = before ++ .read name span :: after →
        isSuperglobal name = true ∨ ((∃ param ∈ params, param.name = name) ∨
          name = "$this" ∧ this.isSome = true) ∨ ∃ place, .write name place ∈ before := by
  let start := startBody (Declaration.bodyScope params this) params report
  have idle := idle_shareAll (params.filter (·.byRef))
    (.start (Declaration.bodyScope params this) report)
  have scope : start.scope = Declaration.bodyScope params this := idle.1
  have ledger : start.ledger = (Walk.start (Declaration.bodyScope params this) report).ledger :=
    idle.2
  have passes : Walk.Passes (walkStmts (env.walkEnv naming) body) start := by
    refine ⟨?_, ?_⟩
    · unfold Walk.Reporting
      rw [ledger]
      exact ⟨enabled, rfl⟩
    · have counted : (walkBody (env.walkEnv naming) body start).ledger.undefined =
          report.issues.countP (·.check == "undefined") := undefined_of_append issues clean
      rw [walkBody, Walk.ledger_flushUnused] at counted
      rw [counted, ledger]
      rfl
  have tracks := tracks_stmts rfl false body tracked
  have reads := tracks.reads passes fun name defined => defined
  intro run member before name span after equal
  rcases (reads run member).1 before name span after equal with super | defined | written
  · exact .inl super
  · have bound : start.scope.has name = true := defined
    rw [scope] at bound
    exact .inr (.inl (of_has_bodyScope bound))
  · exact .inr (.inr written)

/--
`if ($a) { $x = 1; } else { return; }`,
`try { $y = f($x); } catch (\E $e) { $y = $e; } finally { $z = $x; }`,
`while ($y) { $k = $y; if ($k) break; }`, and `foreach ($a as $v) echo $v + $x + $y + $z;`
-/
def definingBody : List Stmt :=
  let var (name : String) : Expr := ⟨.var name, ⟨0, 1⟩⟩
  let one : Expr := ⟨.integer, ⟨0, 1⟩⟩
  let add (left right : Expr) : Expr := ⟨.binary .add left right, ⟨0, 1⟩⟩
  let stmt (kind : StmtKind) : Stmt := ⟨kind, ⟨0, 1⟩⟩
  let assign (name : String) (value : Expr) : Stmt :=
    stmt (.expr ⟨.assign (var name) value .assign false, ⟨0, 1⟩⟩)
  [stmt (.branch (var "$a") [assign "$x" one] ⟨0, 1⟩ (.orElse [stmt (.returns none)])),
    stmt (.tryCatch [assign "$y" ⟨.call "f" [⟨var "$x", false, none⟩], ⟨0, 1⟩⟩]
      [⟨["\\E"], some "$e", [assign "$y" (var "$e")], ⟨0, 1⟩⟩]
      (some [assign "$z" (var "$x")]) ⟨0, 1⟩),
    stmt (.whileLoop (var "$y") [assign "$k" (var "$y"),
      stmt (.branch (var "$k") [stmt .breaks] ⟨0, 1⟩ .nothing)]),
    stmt (.foreach (var "$a") none (var "$v") false
      [stmt (.echo [add (add (var "$v") (var "$x")) (add (var "$y") (var "$z"))])])]

/-- A body with branches, an exception and loops in which all reads come after definitions. -/
theorem reads_follow_definitions_definingBody :
    Tracked ((default : FileEnv).walkEnv {}) false definingBody ∧
      (walkBody ((default : FileEnv).walkEnv {}) definingBody
        (startBody (Declaration.bodyScope [⟨"$a", .mixed, false, false⟩] none)
          [⟨"$a", .mixed, false, false⟩] { enabled := true })).report.issues.all
            (·.check != "undefined") = true ∧
      ∀ run ∈ execute ((default : FileEnv).walkEnv {}) definingBody, ∀ before name span after,
        run.trace = before ++ .read name span :: after →
          isSuperglobal name = true ∨ name = "$a" ∨ ∃ place, .write name place ∈ before := by
  refine ⟨by decide +kernel, by decide +kernel, ?_⟩
  intro run member before name span after equal
  have defined := reads_follow_definitions default {} definingBody (by decide +kernel)
    [⟨"$a", .mixed, false, false⟩] none { enabled := true } rfl _ (List.nil_append _).symm
    (by decide +kernel) run member before name span after equal
  rcases defined with super | (⟨param, member, same⟩ | ⟨_, absent⟩) | written
  · exact .inl super
  · obtain rfl := List.mem_singleton.mp member
    exact .inr (.inl same.symm)
  · exact absurd absent (by decide)
  · exact .inr (.inr written)

end Flow

end PhpAudit
