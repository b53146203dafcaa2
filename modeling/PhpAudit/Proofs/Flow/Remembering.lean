/-
This file proves that the walk over the statements of a body remembers every value that it sees
assigned to a property of `$this`. Branches, loops, cases and clauses are walked in blocks of their own,
and what a block defines may be forgotten when it is joined with others; the remembered assignments do
not belong to a block, and so nothing of them is lost there.
-/

import PhpAudit.Proofs.Flow.Collecting
import PhpAudit.Proofs.Flow.Following

namespace PhpAudit.Flow

section

variable {env : Env} (owned : env.naming.owner.isEmpty = false)

include owned

-- the hypothesis is used by the theorems of a mutual block together, not by each of them
set_option linter.unusedSectionVars false

theorem walkStatics_remembers (bindings : List Binding) (walk : Walk) :
    walk.Remembers env (walkStatics env bindings walk) (fillingsStatics env bindings walk) := by
  induction bindings generalizing walk with
  | nil => exact .of_eq rfl
  | cons binding rest inductionHypothesis =>
    obtain ⟨name, value, span⟩ := binding
    rw [walkStatics]
    exact (walkOptional_remembers owned value walk).trans ((inductionHypothesis _).from_eq rfl)

theorem walkConstItems_remembers (items : List ConstItem) (walk : Walk) :
    walk.Remembers env (walkConstItems env items walk) (fillingsConstItems env items walk) := by
  induction items generalizing walk with
  | nil => exact .of_eq rfl
  | cons item rest inductionHypothesis =>
    obtain ⟨name, value, span⟩ := item
    rw [walkConstItems]
    exact (walkExpr_remembers owned value walk).trans (inductionHypothesis _)

theorem walkKey_remembers (key : Option Expr) (walk : Walk) :
    walk.Remembers env (walkKey env key walk) (fillingsKey env key walk) := by
  cases key with
  | none => exact .of_eq rfl
  | some key =>
    rw [walkKey]
    exact walkAssign_remembers owned _ keyTypes key walk

/-- A condition is walked after steps that remember nothing, and in a block of its own. -/
theorem test_remembers (test : Expr) (guard : Guard) (block : Block) (before : Walk)
    (same : guard.walk.assignments = before.assignments) :
    before.Remembers env ((walkTest env false false test guard).split block).walk
      (fillingsTest env false false test guard) :=
  (walkTest_remembers owned false false test guard).split same

mutual

/-- The walk over statements remembers what it sees assigned to properties of `$this`. -/
theorem walkStmts_remembers (stmts : List Stmt) (walk : Walk) :
    walk.Remembers env (walkStmts env stmts walk) (fillingsStmts env stmts walk) := by
  cases stmts with
  | nil => exact .of_eq rfl
  | cons stmt rest =>
    rw [walkStmts]
    exact (walkStmt_remembers stmt walk).trans (walkStmts_remembers rest _)

theorem walkStmt_remembers (stmt : Stmt) (walk : Walk) :
    walk.Remembers env (walkStmt env stmt walk) (fillingsStmt env stmt walk) := by
  obtain ⟨kind, span⟩ := stmt
  rw [walkStmt]
  exact (walkStmtKind_remembers kind _).from_eq (walk.assignments_checkDeadCode env _)

theorem walkStmtKind_remembers (kind : StmtKind) (walk : Walk) :
    walk.Remembers env (walkStmtKind env kind walk) (fillingsStmtKind env kind walk) := by
  cases kind
  case returns value =>
    cases value with
    | none => exact .of_eq rfl
    | some value =>
      rw [walkStmtKind]
      exact (walkExpr_remembers owned value walk).to_eq rfl
  case branch test body span rest =>
    obtain ⟨flag, -, -, equal⟩ := walkStmtKind_branch env test body span rest walk
    rw [equal]
    let split := (walkTest env false false test (.start walk [])).split walk.block
    let left := split.walk.within split.yes (walkStmts env body)
    have tested : walk.Remembers env split.walk _ := test_remembers owned test (.start walk []) _ walk rfl
    have inYes : split.walk.Remembers env left.2 _ :=
      (walkStmts_remembers body { split.walk with block := split.yes }).within
    have others := walkOtherwise_remembers walk.scope rest
      ((Chain.start split).push walk.scope left.1 left.2)
    exact ((tested.trans inYes).trans (others.from_eq rfl)).to_eq (Chain.assignments_close _ flag)
  all_goals rw [walkStmtKind]
  case expr value => exact walkExpr_remembers owned value walk
  case echo values => exact (walkExprs_remembers owned values walk.impure).from_eq rfl
  case block body => exact walkStmts_remembers body walk
  case whileLoop test body =>
    exact (walkExpr_remembers owned test walk).trans ((walkStmts_remembers body _).within.to_eq rfl)
  case doWhile body test =>
    let entered := walk.mapBlock fun block => { block with insideLoop := true }
    have inBody : walk.Remembers env (walkStmts env body entered) _ :=
      (walkStmts_remembers body entered).from_eq rfl
    exact (inBody.trans (walkExpr_remembers owned test _)).to_eq rfl
  case forLoop init test step body =>
    exact (((walkExprs_remembers owned init walk).trans (walkExprs_remembers owned test _)).trans
      (walkExprs_remembers owned step _)).trans ((walkStmts_remembers body _).within.to_eq rfl)
  case «foreach» subject key value byRef body =>
    let walked := walkExpr env subject walk
    let elements := (walked.localType env subject).element
    let entered := shareSlot byRef value { walked with block := walked.block.child }
    let bound := walkAssign env (.iteration value.span) elements value entered
    let keyed := (walkKey env key bound).mapBlock fun block => { block with insideLoop := true }
    have inValue : walked.Remembers env bound _ :=
      (walkAssign_remembers owned (.iteration value.span) elements value entered).from_eq
        (assignments_shareSlot _ byRef value)
    have inKey : bound.Remembers env keyed _ := (walkKey_remembers owned key bound).to_eq rfl
    have inBody := (((walkExpr_remembers owned subject walk).trans inValue).trans inKey).trans
      (walkStmts_remembers body keyed)
    exact (inBody.to_eq rfl).to_eq (assignments_checkForeachKey env _ key value)
  case switch subject cases =>
    have inCases := walkCases_remembers cases { walk := walkExpr env subject walk }
    exact (walkExpr_remembers owned subject walk).trans (inCases.to_eq rfl)
  case tryCatch body catches final span =>
    let left := walk.within walk.block.child (walkStmts env body)
    let thrown := afterThrow left.2.block left.1
    let caught := walkCatches env thrown catches { walk := left.2 }
    have inBody : walk.Remembers env left.2 _ :=
      (walkStmts_remembers body { walk with block := walk.block.child }).within
    have clauses := inBody.trans (walkCatches_remembers thrown catches { walk := left.2 })
    cases final with
    | none => exact (clauses.to_eq rfl).trans (.of_eq rfl)
    | some last =>
      have inLast := walkStmts_remembers last { caught.walk with block := thrown.child }
      exact ((clauses.trans inLast.within).to_eq (assignments_checkFinally env _ body left.1 _ last
        span _)).to_eq rfl
  case static bindings => exact (walkStatics_remembers owned bindings walk.impure).from_eq rfl
  case constants items => exact walkConstItems_remembers owned items walk
  case global names =>
    refine .of_eq (Walk.assignments_foldl walk.impure (fun walk name => ?_) names)
    rfl
  case unset names =>
    refine .of_eq (Walk.assignments_foldl walk (fun walk name => ?_) names)
    rfl
  all_goals exact .of_eq rfl

theorem walkOtherwise_remembers (initial : Scope) (rest : Otherwise) (chain : Chain) :
    chain.walk.Remembers env (walkOtherwise env initial rest chain).walk
      (fillingsOtherwise env initial rest chain) := by
  cases rest with
  | nothing =>
    rw [walkOtherwise_nothing]
    exact Walk.Remembers.of_eq rfl
  | orElse body =>
    rw [walkOtherwise]
    exact (walkStmts_remembers body { chain.walk with block := chain.no }).within
  | orIf test body span rest =>
    rw [walkOtherwise]
    let inner : Walk := { chain.walk with block := chain.no }
    let split := (walkTest env false false test (.start inner chain.markers)).split chain.no
    let walk : Walk := { split.walk with block := chain.walk.block }
    let left := walk.within split.yes (walkStmts env body)
    have tested : chain.walk.Remembers env walk _ :=
      (test_remembers owned test (.start inner chain.markers) chain.no chain.walk rfl).to_eq rfl
    have inBody : walk.Remembers env left.2 _ :=
      (walkStmts_remembers body { walk with block := split.yes }).within
    have others := walkOtherwise_remembers initial rest
      (({ chain with markers := split.markers, no := split.no } : Chain).push initial left.1 left.2)
    exact (tested.trans inBody).trans (others.from_eq rfl)

theorem walkCases_remembers (list : List Case) (cases : Cases) :
    cases.walk.Remembers env (walkCases env list cases).walk (fillingsCases env list cases) := by
  cases list with
  | nil =>
    rw [walkCases_nil]
    exact .of_eq rfl
  | cons first rest =>
    obtain ⟨test, body, span, gap⟩ := first
    rw [walkCases]
    refine (walkOptional_remembers owned test cases.walk).trans ?_
    generalize walkOptional env test cases.walk = walk
    dsimp only
    split
    · exact (walkCases_remembers rest _).from_eq rfl
    let started : Walk := { walk with block := walk.block.child }
    let ended := checkCaseBreak env span rest (walkStmts env body started)
    have inBody : started.Remembers env ended _ :=
      (walkStmts_remembers body started).to_eq (assignments_checkCaseBreak env _ span rest)
    have inCase : started.Remembers env
        (if ended.block.continues then ended.silently (walkFallThrough env rest) else ended)
        (fillingsStmts env body started ++ if ended.block.continues then fillingsFallThrough env rest
          { ended with report := { ended.report with enabled := false } } else []) := by
      refine inBody.trans ?_
      split
      · exact (walkFallThrough_remembers rest _).silently
      · exact .of_eq rfl
    let left := walk.within walk.block.child fun walk =>
      let walk := checkCaseBreak env span rest (walkStmts env body walk)
      if walk.block.continues then walk.silently (walkFallThrough env rest) else walk
    have walked : walk.Remembers env left.2 _ := inCase.within
    exact walked.trans ((walkCases_remembers rest _).from_eq rfl)

theorem walkFallThrough_remembers (list : List Case) (walk : Walk) :
    walk.Remembers env (walkFallThrough env list walk) (fillingsFallThrough env list walk) := by
  cases list with
  | nil => exact .of_eq rfl
  | cons first rest =>
    obtain ⟨test, body, span, gap⟩ := first
    rw [walkFallThrough]
    refine (walkStmts_remembers body walk).trans ?_
    split
    · exact walkFallThrough_remembers rest _
    · exact .of_eq rfl

theorem walkCatches_remembers (thrown : Block) (list : List Catch) (catches : Catches) :
    catches.walk.Remembers env (walkCatches env thrown list catches).walk
      (fillingsCatches env thrown list catches) := by
  cases list with
  | nil => exact .of_eq rfl
  | cons first rest =>
    obtain ⟨types, name, body, span⟩ := first
    rw [walkCatches]
    let left := catches.walk.within thrown.child fun walk =>
      walkStmts env body (bindCaught env types name walk)
    have inBody : catches.walk.Remembers env left.2 _ :=
      ((walkStmts_remembers body _).from_eq (assignments_bindCaught env _ types name)).within
    exact inBody.trans ((walkCatches_remembers thrown rest (catches.push left.1 left.2)).from_eq rfl)

end

end

end PhpAudit.Flow
