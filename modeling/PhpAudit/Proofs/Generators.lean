/-
This file is about generators. A call of a function whose body contains `yield` creates a generator
and returns; the body runs when the generator is asked for values. The declaration of a function
records how its body ends and does not ask whether it yields. So a generator counts as returning as
long as it can be run to its end, and one that cannot, although every call of it returns, is recorded
like a function that never returns.
-/

import PhpAudit.Declaration
import PhpAudit.Proofs.Flow.Leaving

namespace PhpAudit

open PhpAudit.Execution PhpAudit.Flow

/-! ### Bodies that yield -/

/-- The node suspends the function around it. -/
def suspends : ExprKind → Bool
  | .yield .. | .yieldFrom _ => true
  | _ => false

/-- A `yield` stands in the body outside of nested functions and classes. -/
def isGenerator (body : List Stmt) : Bool :=
  !everyStmt (everyExpr fun kind => !suspends kind) (fun _ _ => true) false body

/-- The body can be run to its end, possibly by a `return`. -/
def RunsOut (env : Env) (body : List Stmt) : Prop :=
  (execute env body).EndsIn none ∨ (execute env body).EndsIn (some .returned)

/-! ### The end of a body -/

namespace Flow

/-- A body starts in a block that was not left. -/
theorem live_startBody (scope : Scope) (params : List ParamInfo) (report : Report) :
    (startBody scope params report).Live := by
  refine live_of_record (Walk.record_foldl _ (fun walk param => ?_) _)
    (show (Walk.start scope report).Live from rfl)
  exact Walk.record_share walk param.name

/-- A body that some run comes to the end of has no final exit. -/
theorem finalExits_of_runsOut {env : Env} {body : List Stmt} (paced : Paced env false body)
    (runsOut : RunsOut env body) {walk : Walk} (live : walk.Live) :
    (walkBody env body walk).finalExits = .none := by
  by_contra final
  obtain ⟨unreached, silent⟩ := not_live_of_finalExits final
  have follows := follows_body env false body paced
  have kept := record_flushUnused env (walkStmts env body walk)
  rcases runsOut with completes | returns
  · exact unreached (live_of_record kept (follows.live completes live))
  · have noticed := follows.returns returns live
    unfold Walk.MayReturn at silent noticed
    rw [walkBody, kept] at silent
    exact silent noticed

end Flow

/-! ### Declarations -/

namespace Declaration

theorem exits_describe {env : FileEnv} {naming : Naming} {body : List Stmt}
    (paced : Paced (env.walkEnv naming) false body) (runsOut : RunsOut (env.walkEnv naming) body)
    (base : Option BaseMethod) (this : Option String) (signature : Signature) (report : Report) :
    (describe env naming base this signature (some body) report).info.exits = .none :=
  finalExits_of_runsOut paced runsOut (live_startBody _ _ _)

/-- Whatever can be run to its end counts as returning, whether or not it yields. -/
theorem exits_function {env : FileEnv} {naming : Naming} {decl : FunctionDecl} (declared : Declared)
    (paced : Paced (env.walkEnv (naming.enterFunction (naming.declared decl.name))) false decl.body)
    (runsOut : RunsOut (env.walkEnv (naming.enterFunction (naming.declared decl.name))) decl.body) :
    ∃ info, (function env naming decl declared).symbols.functions[
      symbolKey (naming.declared decl.name)]? = some info ∧ info.exits = .none :=
  ⟨_, Std.TreeMap.getElem?_insert_self, exits_describe paced runsOut ..⟩

theorem exits_method {env : FileEnv} {naming : Naming} (withBase : Bool) {decl : MethodDecl}
    (before : ClassBody) {body : List Stmt} (written : decl.body = some body)
    (paced : Paced (env.walkEnv (naming.enterFunction decl.name)) false body)
    (runsOut : RunsOut (env.walkEnv (naming.enterFunction decl.name)) body) :
    ∃ info, (method env naming withBase decl before).info.method? decl.name = some info ∧
      info.exits = .none := by
  obtain ⟨⟩ := decl
  obtain rfl := written
  exact ⟨_, Std.TreeMap.getElem?_insert_self, exits_describe paced runsOut ..⟩

/--
A generator that can be run to its end counts as returning. Every function and every method whose body
is that of such a generator is recorded without exits.
-/
theorem completing_generators_recorded_as_returning (env : FileEnv) (naming : Naming) :
    (∀ (decl : FunctionDecl) (declared : Declared),
      let name := naming.declared decl.name
      let inner := env.walkEnv (naming.enterFunction name)
      isGenerator decl.body = true → Paced inner false decl.body → RunsOut inner decl.body →
        ∃ info, (function env naming decl declared).symbols.functions[symbolKey name]? = some info ∧
          info.exits = .none) ∧
    ∀ (withBase : Bool) (decl : MethodDecl) (before : ClassBody) (body : List Stmt),
      let inner := env.walkEnv (naming.enterFunction decl.name)
      decl.body = some body → isGenerator body = true → Paced inner false body → RunsOut inner body →
        ∃ info, (method env naming withBase decl before).info.method? decl.name = some info ∧
          info.exits = .none :=
  ⟨fun _ declared _ paced runsOut => exits_function declared paced runsOut,
    fun withBase _ before _ written _ paced runsOut =>
      exits_method withBase before written paced runsOut⟩

/-- `while ($a) { $b = yield $a; if ($b) { return; } }` -/
def lastingGenerator : List Stmt :=
  let expr (kind : ExprKind) : Expr := ⟨kind, ⟨0, 1⟩⟩
  let stmt (kind : StmtKind) : Stmt := ⟨kind, ⟨0, 1⟩⟩
  [stmt (.whileLoop (expr (.var "$a"))
    [stmt (.expr (expr (.assign (expr (.var "$b")) (expr (.yield none (some (expr (.var "$a")))))
        .assign false))),
      stmt (.branch (expr (.var "$b")) [stmt (.returns none)] ⟨0, 1⟩ .nothing)])]

theorem runsOut_lastingGenerator (env : Env) : RunsOut env lastingGenerator := by
  left
  have tested : ⟨[.read "$a" ⟨0, 1⟩], none⟩ ∈ (evaluate env ⟨.var "$a", ⟨0, 1⟩⟩).lift := by
    rw [evaluate, evaluateKind, Execution.read]
    exact Runs.mem_lift (Runs.mem_seq_of_mem (Runs.mem_emit _) Runs.mem_attempt)
  rw [lastingGenerator, execute, executeStmt, executeKind, execute, Runs.seq_done]
  exact ⟨_, Runs.mem_loop_of_test tested, rfl⟩

/-- A function with the body `body`. -/
def declaring (body : List Stmt) : FunctionDecl :=
  { name := "g", nameSpan := ⟨0, 1⟩, span := ⟨0, 1⟩, params := [], hint := none, byRef := false,
    body }

/-- A method with the body `body`. -/
def declaringMethod (body : List Stmt) : MethodDecl :=
  { name := "g", nameSpan := ⟨0, 1⟩, span := ⟨0, 1⟩, params := [], hint := none, body := some body,
    isStatic := false, isAbstract := false, isFinal := false, visibility := .everyone }

/-- The class `\A`, of which nothing was declared so far. -/
def plainClass : ClassBody where
  info := { name := "\\A", position := ⟨"a.php", 1, 0, 0⟩ }
  report := { enabled := false }

/-- A generator that may go on for ever, as a function and as a method of the class `\A`. -/
theorem completing_generators_recorded_as_returning_lasting :
    (∃ info, (function default default (declaring lastingGenerator)
        { report := { enabled := false } }).symbols.functions[symbolKey "\\g"]? = some info ∧
      info.exits = .none) ∧
    ∃ info, (method default default false (declaringMethod lastingGenerator)
        plainClass).info.method? "g" = some info ∧ info.exits = .none := by
  have functions := (completing_generators_recorded_as_returning default default).1
    (declaring lastingGenerator) { report := { enabled := false } }
  have methods := (completing_generators_recorded_as_returning default default).2 false
    (declaringMethod lastingGenerator) plainClass lastingGenerator rfl
  exact ⟨functions (by decide) (by decide) (runsOut_lastingGenerator _),
    methods (by decide) (by decide) (runsOut_lastingGenerator _)⟩

/-- `yield $a; throw $a;` -/
def throwingGenerator : List Stmt :=
  let expr (kind : ExprKind) : Expr := ⟨kind, ⟨0, 1⟩⟩
  [⟨.expr (expr (.yield none (some (expr (.var "$a"))))), ⟨0, 1⟩⟩,
    ⟨.expr (expr (.throw (expr (.var "$a")))), ⟨0, 1⟩⟩]

/-- A generator that throws in the end is recorded as if calls of it threw. -/
theorem throwingGenerator_recorded :
    isGenerator throwingGenerator = true ∧
      ∃ info, (function default default (declaring throwingGenerator)
          { report := { enabled := false } }).symbols.functions[symbolKey "\\g"]? = some info ∧
        info.neverReturns = true := by
  exact ⟨by decide, _, Std.TreeMap.getElem?_insert_self, by decide +kernel⟩

end Declaration

end PhpAudit
