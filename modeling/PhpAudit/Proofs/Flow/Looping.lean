/-
This file says what a loop proves about the code after it. The body of a `while`, `for` or `foreach`
is walked in a block of its own and joined as one that may not run at all, so it makes no variable
defined and takes no exit. What is left is what the parts evaluated before the first round do.

The steps of a `for` loop are not evaluated before the first round, but they are walked in the block
around the loop like its tests. So if the body may run zero times, a step that stores a variable or
leaves the block proves too much.
-/

import PhpAudit.Proofs.Flow.Drift
import PhpAudit.Proofs.Flow.Ignoring
import PhpAudit.Proofs.Flow.Merging

namespace PhpAudit.Flow

/-! ### The parts of a loop -/

/-- The expressions of a loop that are evaluated even if its body never runs. -/
def evaluatedParts? : StmtKind → Option (List Expr)
  | .whileLoop test _ => some [test]
  | .forLoop init test _ _ => some (init ++ test)
  | .foreach subject _ _ _ _ => some [subject]
  | _ => none

/-- The expressions of a loop that are evaluated after each round. -/
def stepsOf : StmtKind → List Expr
  | .forLoop _ _ step _ => step
  | _ => []

variable {env : Env} {name : String} {walk : Walk}

theorem walkExprs_append (first second : List Expr) (walk : Walk) :
    walkExprs env (first ++ second) walk = walkExprs env second (walkExprs env first walk) := by
  induction first generalizing walk with
  | nil => rw [List.nil_append, walkExprs_nil]
  | cons value rest inductionHypothesis =>
    rw [List.cons_append, walkExprs, walkExprs, inductionHypothesis]

theorem walkExprs_singleton (value : Expr) (walk : Walk) :
    walkExprs env [value] walk = walkExpr env value walk := by
  rw [walkExprs, walkExprs]

/-- Expressions without `throw`, `exit` and callees that never return leave the exits alone. -/
theorem record_walkExprs {values : List Expr} (calm : values.all (everyExpr (isCalm env)) = true)
    (walk : Walk) : (walkExprs env values walk).record = walk.record := by
  induction values generalizing walk with
  | nil => rw [walkExprs_nil]
  | cons value rest inductionHypothesis =>
    simp only [List.all_cons, Bool.and_eq_true] at calm
    have drift : Drift False walk.record (walkExpr env value walk).record :=
      drift_expr env value (.inl calm.1) walk
    rw [walkExprs, inductionHypothesis calm.2, drift.eq_of_not not_false]

/-! ### Bodies that may not run -/

/-- Two walks agree on the variables that are always defined, and on the exits that are taken. -/
def ProvesAlike (first second : Walk) : Prop :=
  (∀ name, first.scope.has name = second.scope.has name) ∧ first.block.exits = second.block.exits

theorem has_mergeOptional_iff {block branch : Block} :
    (block.mergeOptional branch).scope.has name = true ↔ block.scope.has name = true :=
  ⟨Block.of_has_mergeOptional,
    (Scope.Spares.mergeOptional block branch : Scope.Spares name True _ _).has⟩

/-- A block that may not run proves nothing, whatever it does. -/
theorem provesAlike_mergeOptional (start : Block) (steps : Walk → Walk) (walk : Walk) :
    ProvesAlike
      ((walk.within start steps).2.mapBlock (·.mergeOptional (walk.within start steps).1)) walk :=
  ⟨fun _ => Bool.eq_iff_iff.mpr has_mergeOptional_iff, rfl⟩

/-- What a loop proves is what the parts before its first round do, and its steps. -/
theorem provesAlike_loop {kind : StmtKind} {parts : List Expr}
    (loops : evaluatedParts? kind = some parts) :
    ProvesAlike (walkStmtKind env kind walk)
      (walkExprs env (stepsOf kind) (walkExprs env parts walk)) := by
  cases kind with
  | whileLoop test body =>
    obtain rfl := Option.some.inj loops
    show ProvesAlike _ (walkExprs env [] (walkExprs env [test] walk))
    rw [walkStmtKind, walkExprs, walkExprs_singleton]
    exact provesAlike_mergeOptional _ _ _
  | forLoop init test step body =>
    obtain rfl := Option.some.inj loops
    rw [walkStmtKind, stepsOf, walkExprs_append]
    exact provesAlike_mergeOptional _ _ _
  | foreach subject key value byRef body =>
    obtain rfl := Option.some.inj loops
    show ProvesAlike _ (walkExprs env [] (walkExprs env [subject] walk))
    rw [walkStmtKind, walkExprs, walkExprs_singleton]
    unfold ProvesAlike Walk.scope
    rw [block_checkForeachKey]
    exact provesAlike_mergeOptional _ _ _
  | _ => cases loops

/--
After a `while`, `for` or `foreach` loop, the variables that are always defined and the exits that
are taken are those after walking the parts that are evaluated before the first round, and then the
steps of a `for` loop. The steps make no difference to a variable that is defined before them or that
they do not name; and none to the exits if they have no `throw`, `exit` or callee that never returns.
-/
theorem loops_prove_nothing (env : Env) (kind : StmtKind) (parts : List Expr) (walk : Walk)
    (loops : evaluatedParts? kind = some parts) :
    let before := walkExprs env parts walk
    let after := walkStmtKind env kind walk
    ProvesAlike after (walkExprs env (stepsOf kind) before) ∧
    (∀ name, before.scope.has name = true ∨ (stepsOf kind).all (everyExpr (omits name)) = true →
      after.scope.has name = before.scope.has name) ∧
    ((stepsOf kind).all (everyExpr (isCalm env)) = true → after.block.exits = before.block.exits) ∧
    (stepsOf kind = [] → ProvesAlike after before) := by
  intro before after
  have looped : ProvesAlike after (walkExprs env (stepsOf kind) before) := provesAlike_loop loops
  refine ⟨looped, fun name spared => ?_, fun calm => ?_, fun none => ?_⟩
  · rw [looped.1]
    rcases spared with has | omitted
    · rw [has, has_walkExprs (stepsOf kind) has]
    · exact Scope.has_of_definedness (walkExprs_ignores (stepsOf kind) omitted before)
  · rw [looped.2]
    exact congrArg ExitRecord.exits (record_walkExprs calm before)
  · rw [none, walkExprs] at looped
    exact looped

/-- `for ($i = 1; $c; $i = 2) { $x = 'a'; return; }` -/
def countingLoop : StmtKind :=
  let assigned (start : Nat) (name : String) (value : ExprKind) : Expr :=
    ⟨.assign ⟨.var name, ⟨start, start + 2⟩⟩ ⟨value, ⟨start + 5, start + 6⟩⟩ .assign false,
      ⟨start, start + 6⟩⟩
  .forLoop [assigned 5 "$i" .integer] [⟨.var "$c", ⟨13, 15⟩⟩] [assigned 17 "$i" .integer]
    [assignAt 27 (.string (some "a")), ⟨.returns none, ⟨37, 44⟩⟩]

/-- A loop whose step stores a variable that is defined before, and does not leave. -/
theorem loops_prove_nothing_countingLoop :
    let walk := startWith ["$c"]
    let after := walkStmtKind default countingLoop walk
    after.scope.has "$i" = true ∧ after.scope.has "$x" = false ∧ after.block.exits = .none := by
  intro walk after
  let parts := (evaluatedParts? countingLoop).getD []
  have loops : evaluatedParts? countingLoop = some parts := rfl
  obtain ⟨_, stays, exits, _⟩ := loops_prove_nothing default countingLoop parts walk loops
  have before : (walkExprs default parts walk).scope.has "$i" = true := by decide
  have unnamed : (stepsOf countingLoop).all (everyExpr (omits "$x")) = true := by decide
  have calm : (stepsOf countingLoop).all (everyExpr (isCalm default)) = true := by decide
  refine ⟨(stays "$i" (.inl before)).trans before, ?_, ?_⟩
  · exact (stays "$x" (.inr unnamed)).trans (by decide)
  · exact (exits calm).trans (by decide)

/-- `for (; $c; exit()) { }` leaves the block although it may run zero times, and
`for (; $c; $x = 1) { }` defines the variable. -/
theorem steps_prove_too_much :
    let walk := startWith ["$c"]
    let test : Expr := ⟨.var "$c", ⟨7, 9⟩⟩
    let stepping (step : Expr) : Walk := walkStmtKind default (.forLoop [] [test] [step] []) walk
    let before := walkExprs default [test] walk
    (stepping ⟨.exit true [], ⟨11, 17⟩⟩).block.exits ≠ before.block.exits ∧
      (stepping ⟨.assign ⟨.var "$x", ⟨11, 13⟩⟩ ⟨.integer, ⟨16, 17⟩⟩ .assign false,
        ⟨11, 17⟩⟩).scope.has "$x" ≠ before.scope.has "$x" := by
  decide

end PhpAudit.Flow
