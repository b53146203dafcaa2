/-
This file proves that a walk does not look at its report, nor at what an index that is still being
filled knows, but for the functions that it calls by name. A walk that is hushed before it starts, and
asks another index that gives it the same answers, comes to the same state as one that is hushed after
it has ended. So whether and what is reported influences nothing that the walk finds out about a body.
Closures and arrow functions hand the report of the walk around them through a walk of their own.
-/

import PhpAudit.Proofs.Flow.Calls

namespace PhpAudit.Flow

-- Every function is unfolded once on each side; what remains are its parts, each of which mirrors, put
-- together by steps that do. The functions called in a node are those of its parts one after another, by
-- definition, so the answers for a node are answers for each part without unfolding.

variable {index : Index}

mutual

/-- The walk over an expression looks neither at the report nor at other answers. -/
theorem walkExpr_mirrors {env : Env} (expr : Expr) (answers : Answers env index (callsExpr expr)) :
    Walk.Mirrors (walkExpr (env.withIndex index) expr) (walkExpr env expr) := by
  obtain ⟨kind, span⟩ := expr
  intro walk
  rw [walkExpr, walkExpr, walkKind_mirrors span kind answers]

theorem walkKind_mirrors {env : Env} (span : Span) (kind : ExprKind)
    (answers : Answers env index (callsKind kind)) :
    Walk.Mirrors (walkKind (env.withIndex index) span kind) (walkKind env span kind) := by
  intro walk
  rw [walkKind.eq_def, walkKind.eq_def]
  cases kind with
  | paren inner | clone inner | unary _ inner | property inner _ _ =>
    exact walkExpr_mirrors inner answers walk
  | includeFile inner | yieldFrom inner => exact walkExpr_mirrors inner answers walk.impure
  | throw inner =>
    dsimp only
    rw [walkExpr_mirrors inner answers, Walk.leave_hush]
  | isEmpty inner => exact walkProbe_mirrors inner answers walk
  | array items | list items => exact walkItems_mirrors items answers walk
  | element base index =>
    dsimp only
    rw [Walk.checkArrayAccess_hush env, walkExpr_mirrors base answers.left,
      walkOptional_mirrors index answers.right]
  | assign target value op byRef =>
    cases byRef with
    | true =>
      simp only [if_true]
      rw [walkShared_mirrors value answers.right, Walk.localType_withIndex, Walk.localType_hush,
        walkAssign_mirrors _ _ target answers.left]
    | false =>
      simp only [Bool.false_eq_true, if_false]
      rw [walkExpr_mirrors value answers.right]
      cases op <;> exact walkAssign_mirrors _ _ target answers.left _
  | binary op left right =>
    cases op with
    | coalesce =>
      dsimp only
      rw [walkProbe_mirrors left answers.left,
        Walk.conditionally_hush (walkExpr_mirrors right answers.right)]
    | and | or | lowOr =>
      dsimp only
      rw [walkExpr_mirrors left answers.left,
        Walk.conditionally_hush (walkExpr_mirrors right answers.right)]
    | _ =>
      dsimp only
      rw [walkExpr_mirrors left answers.left, walkExpr_mirrors right answers.right]
  | instanceOf subject ref =>
    dsimp only
    rw [walkExpr_mirrors subject answers.left, walkRef_mirrors ref answers.right]
  | ternary test yes no =>
    cases yes with
    | none =>
      dsimp only
      rw [walkExpr_mirrors test answers.left.left,
        Walk.conditionally_hush (walkExpr_mirrors no answers.right)]
    | some yes =>
      dsimp only
      rw [Guard.start_hush, walkTest_mirrors false false test answers.left.left, Walk.block_hush,
        Guard.split_hush]
      generalize (walkTest env false false test (.start walk [])).split walk.block = split
      simp only [Split.hush, Walk.within_hush (walkExpr_mirrors yes answers.left.right),
        Walk.within_hush (walkExpr_mirrors no answers.right), closeTernary_hush, Walk.scope_hush]
  | call name args =>
    have alike := answers.callee
    dsimp only
    rw [globalName_withIndex, options_withIndex, apply_ite Walk.hush,
      walkCompactArgs_mirrors args answers.tail]
    refine ite_congr rfl (fun _ => rfl) fun _ => ?_
    have started : (if (callee? (env.withIndex index) name).any (·.isPure) then
        tolerate (globalName env name) walk.hush
          else (tolerate (globalName env name) walk.hush).impure) =
        (if (callee? env name).any (·.isPure) then tolerate (globalName env name) walk
          else (tolerate (globalName env name) walk).impure).hush := by
      rw [alike.isPure, apply_ite Walk.hush, tolerate_hush, Walk.impure_hush]
    rw [started, walkArgs_mirrors alike.refParam 0 args answers.tail, apply_ite Walk.hush]
    generalize walkArgs env ((callee? env name).map (·.params)) 0 args _ = passed
    have left := answers.leftByCallee_hush name passed
    exact ite_congr rfl
      (fun _ => (congrArg (·.leave .byDie) left).trans (Walk.leave_hush _ _)) fun _ => left
  | callValue function args =>
    dsimp only
    rw [Walk.impure_hush, walkExpr_mirrors function answers.left,
      walkArgs_mirrors (fun _ => rfl) 0 args answers.right]
  | methodCall object method args nullsafe =>
    dsimp only
    rw [Walk.impure_hush, walkExpr_mirrors object answers.left, answers.lookupMethodOf?_hush,
      walkArgs_mirrors (fun _ => rfl) 0 args answers.right, answers.leaveByFound_hush]
  | staticCall ref method args =>
    dsimp only
    rw [Walk.impure_hush, walkRef_mirrors ref answers.left, answers.staticCallee?,
      walkArgs_mirrors (fun _ => rfl) 0 args answers.right, answers.leaveByFound_hush]
  | staticProperty ref name | classConstant ref name => exact walkRef_mirrors ref answers walk
  | new ref args =>
    dsimp only
    rw [Walk.impure_hush, walkRef_mirrors ref answers.left, answers.constructor?,
      walkArgs_mirrors (fun _ => rfl) 0 args answers.right]
  | isset values => exact walkProbes_mirrors values answers walk
  | closure params captures hint isStatic body =>
    dsimp only
    rw [capture_withIndex, captures_hush, Walk.scope_hush]
    generalize captures.foldl (capture env) (walk, closureScope isStatic walk.scope) = outer
    obtain ⟨outer, scope⟩ := outer
    -- the walk of the body starts with the report of the walk around it, and ends with it
    dsimp only
    rw [Walk.report_hush, startClosure_hush _ _ _ _ outer.report, naming_withIndex,
      enclosing_withIndex, walkStmts_mirrors body (answers.enclosedBy []),
      Walk.flushUnused_withIndex, Walk.flushUnused_hush]
    rfl
  | arrow params hint isStatic body =>
    let inner : Env := { env with enclosing := walk.scope :: env.enclosing }
    let started := Walk.start ((arrowScope isStatic walk.scope).bind
      (Param.describe env.naming none params)) walk.report
    have walked : walkExpr (inner.withIndex index) body started.hush =
        (walkExpr inner body started).hush :=
      walkExpr_mirrors body (answers.enclosedBy (walk.scope :: env.enclosing)) started
    have untracked (names : List String) :
        Walk.Deaf (names.foldl fun walk name => walk.untrack env name) :=
      .foldl (fun _ _ => rfl) names
    show (walkExpr (inner.withIndex index) body started.hush).captured.foldl
      (fun walk name => walk.untrack env name)
        { walk.hush with report := (walkExpr (inner.withIndex index) body started.hush).report } = _
    rw [walked]
    exact untracked _ { walk with report := (walkExpr inner body started).report }
  | matchOn subject arms =>
    dsimp only
    rw [walkExpr_mirrors subject answers.left, walkArms_mirrors arms answers.right]
  | yield key value =>
    dsimp only
    rw [Walk.impure_hush, walkOptional_mirrors key answers.left,
      walkOptional_mirrors value answers.right]
  | var | dynamicVar | interpolated | unmodeled =>
    simp only [Walk.read_withIndex, Walk.readAll_withIndex, Walk.read_hush, Walk.readAll_hush]
  | print => simp only [Walk.readAll_withIndex, Walk.impure_hush, Walk.readAll_hush]
  | exit => simp only [Walk.readAll_withIndex, Walk.impure_hush, Walk.readAll_hush, Walk.leave_hush]
  | integer | float | string | boolean | null | magic | constant => rfl

theorem walkExprs_mirrors {env : Env} (values : List Expr)
    (answers : Answers env index (callsExprs values)) :
    Walk.Mirrors (walkExprs (env.withIndex index) values) (walkExprs env values) := by
  intro walk
  cases values with
  | nil => rw [walkExprs_nil, walkExprs_nil]
  | cons value rest =>
    rw [walkExprs, walkExprs, walkExpr_mirrors value answers.left,
      walkExprs_mirrors rest answers.right]

theorem walkOptional_mirrors {env : Env} (value : Option Expr)
    (answers : Answers env index (callsOptional value)) :
    Walk.Mirrors (walkOptional (env.withIndex index) value) (walkOptional env value) := by
  intro walk
  cases value with
  | none => rw [walkOptional_none, walkOptional_none]
  | some value => rw [walkOptional, walkOptional, walkExpr_mirrors value answers]

theorem walkConditionals_mirrors {env : Env} (values : List Expr)
    (answers : Answers env index (callsExprs values)) :
    Walk.Mirrors (walkConditionals (env.withIndex index) values) (walkConditionals env values) := by
  intro walk
  cases values with
  | nil => rw [walkConditionals_nil, walkConditionals_nil]
  | cons value rest =>
    rw [walkConditionals, walkConditionals,
      Walk.conditionally_hush (walkExpr_mirrors value answers.left),
      walkConditionals_mirrors rest answers.right]

theorem walkItems_mirrors {env : Env} (items : List Item)
    (answers : Answers env index (callsItems items)) :
    Walk.Mirrors (walkItems (env.withIndex index) items) (walkItems env items) := by
  intro walk
  cases items with
  | nil => rw [walkItems_nil, walkItems_nil]
  | cons item rest =>
    cases item with
    | skip => rw [walkItems, walkItems, walkItems_mirrors rest answers]
    | entry key value byRef unpack =>
      rw [walkItems, walkItems, walkOptional_mirrors key answers.left.left,
        walkExpr_mirrors value answers.left.right, walkItems_mirrors rest answers.right]

theorem walkRef_mirrors {env : Env} (ref : ClassRef) (answers : Answers env index (callsRef ref)) :
    Walk.Mirrors (walkRef (env.withIndex index) ref) (walkRef env ref) := by
  intro walk
  cases ref with
  | dynamic value => rw [walkRef, walkRef, walkExpr_mirrors value answers]
  | named | self | static | parent => rw [walkRef, walkRef]

theorem walkArms_mirrors {env : Env} (arms : List MatchArm)
    (answers : Answers env index (callsArms arms)) :
    Walk.Mirrors (walkArms (env.withIndex index) arms) (walkArms env arms) := by
  intro walk
  cases arms with
  | nil => rw [walkArms_nil, walkArms_nil]
  | cons arm rest =>
    obtain ⟨conditions, body⟩ := arm
    rw [walkArms, walkArms, walkConditionals_mirrors conditions answers.left.left,
      Walk.conditionally_hush (walkExpr_mirrors body answers.left.right),
      walkArms_mirrors rest answers.right]

theorem walkProbe_mirrors {env : Env} (value : Expr)
    (answers : Answers env index (callsExpr value)) :
    Walk.Mirrors (walkProbe (env.withIndex index) value) (walkProbe env value) := by
  obtain ⟨kind, span⟩ := value
  intro walk
  rw [walkProbe.eq_def, walkProbe.eq_def]
  have read := walkKind_mirrors span kind answers walk
  cases kind with
  | paren inner => exact walkProbe_mirrors inner answers walk
  | var name => rfl
  | element base index =>
    dsimp only
    rw [walkProbe_mirrors base answers.left, walkOptional_mirrors index answers.right]
  | property object _ _ => exact walkProbe_mirrors object answers walk
  | _ => exact read

theorem walkProbes_mirrors {env : Env} (values : List Expr)
    (answers : Answers env index (callsExprs values)) :
    Walk.Mirrors (walkProbes (env.withIndex index) values) (walkProbes env values) := by
  intro walk
  cases values with
  | nil => rw [walkProbes_nil, walkProbes_nil]
  | cons value rest =>
    rw [walkProbes, walkProbes, walkProbe_mirrors value answers.left,
      walkProbes_mirrors rest answers.right]

theorem walkAssign_mirrors {env : Env} (mode : AssignMode) (types : TypeSet) (target : Expr)
    (answers : Answers env index (callsExpr target)) :
    Walk.Mirrors (walkAssign (env.withIndex index) mode types target)
      (walkAssign env mode types target) := by
  obtain ⟨kind, span⟩ := target
  intro walk
  rw [walkAssign.eq_def, walkAssign.eq_def]
  have read := walkKind_mirrors span kind answers walk
  cases kind with
  | var name => exact assignVar_hush env walk mode types name span
  | paren inner => exact walkAssign_mirrors mode types inner answers walk
  | element base index =>
    dsimp only
    rw [Walk.checkArrayAccess_hush env, walkStore_mirrors types base.span base answers.left,
      walkOptional_mirrors index answers.right]
  | list items | array items => exact walkPattern_mirrors types 0 items answers walk
  | property object name nullsafe =>
    dsimp only
    rw [Walk.impure_hush, assignOwnProperty_withIndex, assignOwnProperty_hush,
      walkExpr_mirrors object answers]
  | staticProperty ref name =>
    dsimp only
    rw [Walk.impure_hush, assignOwnStatic_withIndex, assignOwnStatic_hush,
      walkRef_mirrors ref answers]
  | _ => exact read

theorem walkPattern_mirrors {env : Env} (types : TypeSet) (position : Nat) (items : List Item)
    (answers : Answers env index (callsItems items)) :
    Walk.Mirrors (walkPattern (env.withIndex index) types position items)
      (walkPattern env types position items) := by
  intro walk
  cases items with
  | nil => rw [walkPattern_nil, walkPattern_nil]
  | cons item rest =>
    cases item with
    | skip => rw [walkPattern, walkPattern, walkPattern_mirrors types position rest answers]
    | entry key value byRef unpack =>
      rw [walkPattern, walkPattern, walkOptional_mirrors key answers.left.left, shareSlot_hush,
        walkAssign_mirrors .plain _ value answers.left.right,
        walkPattern_mirrors types (position + 1) rest answers.right]

theorem walkStore_mirrors {env : Env} (types : TypeSet) (outer : Span) (base : Expr)
    (answers : Answers env index (callsExpr base)) :
    Walk.Mirrors (walkStore (env.withIndex index) types outer base)
      (walkStore env types outer base) := by
  obtain ⟨kind, span⟩ := base
  intro walk
  rw [walkStore.eq_def, walkStore.eq_def]
  have read := walkKind_mirrors span kind answers
  cases kind with
  | paren inner => exact walkStore_mirrors types outer inner answers walk
  | var name => exact storeInVar_hush env walk types name outer
  | element base index =>
    dsimp only
    rw [Walk.checkArrayAccess_hush env,
      walkStore_mirrors types.inArray base.span base answers.left,
      walkOptional_mirrors index answers.right]
  | property | staticProperty => exact read walk.impure
  | _ => exact read walk

theorem walkShared_mirrors {env : Env} (value : Expr)
    (answers : Answers env index (callsExpr value)) :
    Walk.Mirrors (walkShared (env.withIndex index) value) (walkShared env value) := by
  obtain ⟨kind, span⟩ := value
  intro walk
  rw [walkShared.eq_def, walkShared.eq_def]
  have read := walkKind_mirrors span kind answers walk
  cases kind with
  | paren inner => exact walkShared_mirrors inner answers walk
  | var name => exact shareVar_hush env walk name
  | _ => exact read

theorem walkArgs_mirrors {env : Env} {params others : Option (List ParamInfo)}
    (same : ∀ position, refParam? params position = refParam? others position) (position : Nat)
    (args : List Arg) (answers : Answers env index (callsArgs args)) :
    Walk.Mirrors (walkArgs (env.withIndex index) params position args)
      (walkArgs env others position args) := by
  intro walk
  cases args with
  | nil => rw [walkArgs_nil, walkArgs_nil]
  | cons arg rest =>
    obtain ⟨value, unpack, label⟩ := arg
    rw [walkArgs, walkArgs, same position]
    cases refParam? others position with
    | some param =>
      dsimp only
      rw [walkPassed_mirrors param value.span value answers.left,
        walkArgs_mirrors same (position + 1) rest answers.right]
    | none =>
      dsimp only
      rw [walkExpr_mirrors value answers.left,
        walkArgs_mirrors same (position + 1) rest answers.right]

theorem walkPassed_mirrors {env : Env} (param : ParamInfo) (outer : Span) (value : Expr)
    (answers : Answers env index (callsExpr value)) :
    Walk.Mirrors (walkPassed (env.withIndex index) param outer value)
      (walkPassed env param outer value) := by
  obtain ⟨kind, span⟩ := value
  intro walk
  rw [walkPassed.eq_def, walkPassed.eq_def]
  have read := walkKind_mirrors span kind answers walk
  cases kind with
  | paren inner => exact walkPassed_mirrors param outer inner answers walk
  | var name => rfl
  | element base index =>
    dsimp only
    rw [Walk.checkArrayAccess_hush env, walkStore_mirrors .mixed base.span base answers.left,
      walkOptional_mirrors index answers.right]
  | _ => exact read

theorem walkCompactArgs_mirrors {env : Env} (args : List Arg)
    (answers : Answers env index (callsArgs args)) :
    Walk.Mirrors (walkCompactArgs (env.withIndex index) args) (walkCompactArgs env args) := by
  intro walk
  cases args with
  | nil => rw [walkCompactArgs_nil, walkCompactArgs_nil]
  | cons arg rest =>
    obtain ⟨value, unpack, label⟩ := arg
    rw [walkCompactArgs, walkCompactArgs, walkCompact_mirrors value.span value answers.left,
      walkCompactArgs_mirrors rest answers.right]

theorem walkCompact_mirrors {env : Env} (outer : Span) (value : Expr)
    (answers : Answers env index (callsExpr value)) :
    Walk.Mirrors (walkCompact (env.withIndex index) outer value) (walkCompact env outer value) := by
  obtain ⟨kind, span⟩ := value
  intro walk
  rw [walkCompact.eq_def, walkCompact.eq_def]
  have read := walkKind_mirrors span kind answers walk
  cases kind with
  | paren inner => exact walkCompact_mirrors outer inner answers walk
  | string text =>
    cases text with
    | none => exact read
    | some name => exact Walk.read_hush env walk ("$" ++ name) outer
  | array items => exact walkCompactItems_mirrors items answers walk
  | _ => exact read

theorem walkCompactItems_mirrors {env : Env} (items : List Item)
    (answers : Answers env index (callsItems items)) :
    Walk.Mirrors (walkCompactItems (env.withIndex index) items) (walkCompactItems env items) := by
  intro walk
  cases items with
  | nil => rw [walkCompactItems_nil, walkCompactItems_nil]
  | cons item rest =>
    cases item with
    | skip => rw [walkCompactItems, walkCompactItems, walkCompactItems_mirrors rest answers]
    | entry key value byRef unpack =>
      rw [walkCompactItems, walkCompactItems,
        walkCompact_mirrors value.span value answers.left.right,
        walkCompactItems_mirrors rest answers.right]

theorem walkTest_mirrors {env : Env} (negated inLogic : Bool) (test : Expr)
    (answers : Answers env index (callsExpr test)) (guard : Guard) :
    walkTest (env.withIndex index) negated inLogic test guard.hush =
      (walkTest env negated inLogic test guard).hush := by
  obtain ⟨kind, span⟩ := test
  rw [walkTest.eq_def, walkTest.eq_def]
  have read := guard.mapWalk_hush (walkKind_mirrors span kind answers)
  cases kind with
  | paren inner => exact walkTest_mirrors negated inLogic inner answers guard
  | binary op left right =>
    cases op with
    | and | or =>
      dsimp only
      rw [walkTest_mirrors negated true left answers.left,
        Guard.conditionally_hush _ (walkTest_mirrors negated true right answers.right)]
    | _ => exact read
  | unary op operand =>
    cases op with
    | not =>
      dsimp only
      rw [Guard.markNotEmpty_hush, walkTest_mirrors (!negated) inLogic operand answers]
    | _ => exact read
  | isset values =>
    dsimp only
    rw [Guard.markIsset_hush, Guard.mapWalk_hush _ (walkProbes_mirrors values answers)]
  | instanceOf subject ref =>
    have walked : Walk.Mirrors
        (fun walk => walkRef (env.withIndex index) ref (walkExpr (env.withIndex index) subject walk))
        fun walk => walkRef env ref (walkExpr env subject walk) := by
      intro walk
      dsimp only
      rw [walkExpr_mirrors subject answers.left, walkRef_mirrors ref answers.right]
    dsimp only
    rw [Guard.mapWalk_hush _ walked, naming_withIndex, Guard.narrowTo_hush]
  | _ => exact read

/-- The walk over statements looks neither at the report nor at other answers. -/
theorem walkStmts_mirrors {env : Env} (body : List Stmt)
    (answers : Answers env index (callsStmts body)) :
    Walk.Mirrors (walkStmts (env.withIndex index) body) (walkStmts env body) := by
  intro walk
  cases body with
  | nil => rw [walkStmts_nil, walkStmts_nil]
  | cons stmt rest =>
    rw [walkStmts, walkStmts, walkStmt_mirrors stmt answers.left,
      walkStmts_mirrors rest answers.right]

theorem walkStmt_mirrors {env : Env} (stmt : Stmt) (answers : Answers env index (callsStmt stmt)) :
    Walk.Mirrors (walkStmt (env.withIndex index) stmt) (walkStmt env stmt) := by
  obtain ⟨kind, span⟩ := stmt
  intro walk
  rw [walkStmt, walkStmt, Walk.checkDeadCode_withIndex, Walk.checkDeadCode_hush,
    walkStmtKind_mirrors kind answers]

theorem walkStmtKind_mirrors {env : Env} (kind : StmtKind)
    (answers : Answers env index (callsStmtKind kind)) :
    Walk.Mirrors (walkStmtKind (env.withIndex index) kind) (walkStmtKind env kind) := by
  intro walk
  rw [walkStmtKind.eq_def, walkStmtKind.eq_def]
  cases kind with
  | expr value => exact walkExpr_mirrors value answers walk
  | echo values => exact walkExprs_mirrors values answers walk.impure
  | returns value =>
    cases value with
    | none => rfl
    | some value =>
      dsimp only
      rw [walkExpr_mirrors value answers]
      rfl
  | block body => exact walkStmts_mirrors body answers walk
  | branch test body span rest =>
    dsimp only
    rw [Guard.start_hush, walkTest_mirrors false false test answers.left.left, Walk.block_hush,
      Guard.split_hush]
    generalize (walkTest env false false test (.start walk [])).split walk.block = split
    simp only [Split.hush, Walk.within_hush (walkStmts_mirrors body answers.left.right),
      Walk.scope_hush]
    generalize split.walk.within split.yes (walkStmts env body) = ended
    obtain ⟨branch, after⟩ := ended
    let chain : Chain :=
      { walk := after, branches := [], links := 0, markers := split.markers, no := split.no }
    have walked := walkOtherwise_mirrors walk.scope rest answers.right
      (chain.push walk.scope branch after)
    show (walkOtherwise (env.withIndex index) walk.scope rest
      (chain.push walk.scope branch after).hush).close _ = _
    rw [walked, Chain.close_hush]
  | whileLoop test body =>
    dsimp only
    rw [walkExpr_mirrors test answers.left, loop_hush _ (walkStmts_mirrors body answers.right)]
  | doWhile body test =>
    dsimp only
    rw [Walk.mapBlock_hush, walkStmts_mirrors body answers.left,
      walkExpr_mirrors test answers.right, Walk.mapBlock_hush]
    rfl
  | forLoop init test step body =>
    dsimp only
    rw [walkExprs_mirrors init answers.left.left.left, walkExprs_mirrors test answers.left.left.right,
      walkExprs_mirrors step answers.left.right, loop_hush _ (walkStmts_mirrors body answers.right)]
  | foreach subject key value byRef body =>
    have round (types : TypeSet) : Walk.Mirrors
        (fun walk => walkStmts (env.withIndex index) body ((walkKey (env.withIndex index) key
          (walkAssign (env.withIndex index) (.iteration value.span) types value
            (shareSlot byRef value walk))).mapBlock fun block => { block with insideLoop := true }))
        fun walk => walkStmts env body ((walkKey env key (walkAssign env (.iteration value.span) types
          value (shareSlot byRef value walk))).mapBlock fun block =>
            { block with insideLoop := true }) := by
      intro walk
      dsimp only
      rw [shareSlot_hush, walkAssign_mirrors _ types value answers.left.right,
        walkKey_mirrors key answers.left.left.right, Walk.mapBlock_hush,
        walkStmts_mirrors body answers.right]
    dsimp only
    rw [walkExpr_mirrors subject answers.left.left.left, Walk.localType_withIndex,
      Walk.localType_hush, Walk.block_hush, checkForeachKey_withIndex]
    simp only [Walk.within_hush (round _), Walk.mapBlock_hush, checkForeachKey_hush]
  | switch subject cases =>
    dsimp only
    rw [walkExpr_mirrors subject answers.left]
    have walked := walkCases_mirrors cases answers.right { walk := walkExpr env subject walk }
    show (walkCases (env.withIndex index) cases
      (Cases.hush { walk := walkExpr env subject walk })).close = _
    rw [walked, Cases.close_hush]
  | tryCatch body catches final span =>
    dsimp only
    rw [Walk.block_hush]
    simp only [Walk.within_hush (walkStmts_mirrors body answers.left.left), Walk.block_hush]
    generalize walk.within walk.block.child (walkStmts env body) = tried
    obtain ⟨tried, after⟩ := tried
    dsimp only
    have caught := walkCatches_mirrors (afterThrow after.block tried) catches answers.left.right
      { walk := after }
    cases final with
    | none =>
      show closeTry tried (walkCatches (env.withIndex index) _ catches
        (Catches.hush { walk := after })) = _
      rw [caught, closeTry_hush]
    | some last =>
      have hushed : walkCatches (env.withIndex index) (afterThrow after.block tried) catches
          { walk := after.hush } =
        (walkCatches env (afterThrow after.block tried) catches { walk := after }).hush := caught
      simp only [hushed]
      generalize walkCatches env (afterThrow after.block tried) catches { walk := after } = caught
      simp only [Catches.hush, Walk.within_hush (walkStmts_mirrors last answers.right),
        checkFinally_withIndex, checkFinally_hush]
      rfl
  | static bindings => exact walkStatics_mirrors bindings answers walk.impure
  | constants items => exact walkConstItems_mirrors items answers walk
  | global names =>
    have bound : Walk.Deaf (names.foldl fun walk name =>
        ((walk.mapScope fun scope =>
          scope.assign name (.singleton (.global (Text.withoutDollar name))) true).share
            name).untrack env name) := .foldl (fun _ _ => rfl) names
    exact bound walk.impure
  | unset names =>
    have erased : Walk.Deaf (names.foldl fun walk name =>
      (walk.untrack env name).mapScope (·.erase name)) := .foldl (fun _ _ => rfl) names
    exact erased walk
  | breaks | continues | namespaced | imports | function | classLike | nop => rfl

theorem walkKey_mirrors {env : Env} (key : Option Expr)
    (answers : Answers env index (callsOptional key)) :
    Walk.Mirrors (walkKey (env.withIndex index) key) (walkKey env key) := by
  intro walk
  cases key with
  | none => rw [walkKey_none, walkKey_none]
  | some key => rw [walkKey, walkKey, walkAssign_mirrors _ keyTypes key answers]

theorem walkOtherwise_mirrors {env : Env} (initial : Scope) (rest : Otherwise)
    (answers : Answers env index (callsOtherwise rest)) (chain : Chain) :
    walkOtherwise (env.withIndex index) initial rest chain.hush =
      (walkOtherwise env initial rest chain).hush := by
  cases rest with
  | nothing => rw [walkOtherwise_nothing, walkOtherwise_nothing]; rfl
  | orElse body =>
    rw [walkOtherwise, walkOtherwise]
    simp only [Chain.hush, Walk.within_hush (walkStmts_mirrors body answers)]
    rfl
  | orIf test body span rest =>
    -- the branch after the test, which is walked in the block of the walk around the statement
    let pushed (env : Env) (guard : Guard) (chain : Chain) : Chain :=
      let split := guard.split chain.no
      let around : Walk := { split.walk with block := chain.walk.block }
      let ended := around.within split.yes (walkStmts env body)
      ({ chain with markers := split.markers, no := split.no } : Chain).push initial ended.1 ended.2
    have equal (env : Env) (chain : Chain) :
        walkOtherwise env initial (.orIf test body span rest) chain =
          walkOtherwise env initial rest (pushed env (walkTest env false false test
            (.start { chain.walk with block := chain.no } chain.markers)) chain) := by
      rw [walkOtherwise]
    have tested : walkTest (env.withIndex index) false false test
        (.start { chain.hush.walk with block := chain.hush.no } chain.hush.markers) =
          (walkTest env false false test
            (.start { chain.walk with block := chain.no } chain.markers)).hush :=
      walkTest_mirrors false false test answers.left.left
        (.start { chain.walk with block := chain.no } chain.markers)
    have pushedHushed (guard : Guard) :
        pushed (env.withIndex index) guard.hush chain.hush = (pushed env guard chain).hush := by
      let split := guard.split chain.no
      let around : Walk := { split.walk with block := chain.walk.block }
      have entered : around.hush.within split.yes (walkStmts (env.withIndex index) body) =
          ((around.within split.yes (walkStmts env body)).1,
            (around.within split.yes (walkStmts env body)).2.hush) :=
        Walk.within_hush (walkStmts_mirrors body answers.left.right) split.yes
      exact congrArg (fun ended : Block × Walk => ({ chain.hush with
        markers := split.markers, no := split.no } : Chain).push initial ended.1 ended.2) entered
    rw [equal, equal, tested, pushedHushed, walkOtherwise_mirrors initial rest answers.right]

theorem walkCases_mirrors {env : Env} (cases : List Case)
    (answers : Answers env index (callsCases cases)) (walked : Cases) :
    walkCases (env.withIndex index) cases walked.hush = (walkCases env cases walked).hush := by
  cases cases with
  | nil => rw [walkCases_nil, walkCases_nil]
  | cons case rest =>
    obtain ⟨test, body, span, announced⟩ := case
    have tested : walkOptional (env.withIndex index) test walked.hush.walk =
        (walkOptional env test walked.walk).hush :=
      walkOptional_mirrors test answers.left.left walked.walk
    have entered : Walk.Mirrors
        (fun walk =>
          let walk := checkCaseBreak env span rest (walkStmts (env.withIndex index) body walk)
          if walk.block.continues then
            walk.silently (walkFallThrough (env.withIndex index) rest)
          else walk)
        fun walk =>
          let walk := checkCaseBreak env span rest (walkStmts env body walk)
          if walk.block.continues then walk.silently (walkFallThrough env rest) else walk := by
      intro walk
      dsimp only
      rw [walkStmts_mirrors body answers.left.right, checkCaseBreak_hush, apply_ite Walk.hush,
        Walk.block_hush, Walk.silently_hush (walkFallThrough_mirrors rest answers.right)]
    let begun : Cases :=
      { walked with
        walk := walkOptional env test walked.walk
        hasDefault := walked.hasDefault || test.isNone }
    rw [walkCases, walkCases, tested, checkCaseBreak_withIndex]
    simp only [Walk.block_hush, Walk.within_hush entered]
    rw [apply_ite Cases.hush]
    exact ite_congr rfl (fun _ => walkCases_mirrors rest answers.right begun)
      fun _ => walkCases_mirrors rest answers.right (begun.push _ _)

theorem walkFallThrough_mirrors {env : Env} (cases : List Case)
    (answers : Answers env index (callsCases cases)) :
    Walk.Mirrors (walkFallThrough (env.withIndex index) cases) (walkFallThrough env cases) := by
  intro walk
  cases cases with
  | nil => rw [walkFallThrough_nil, walkFallThrough_nil]
  | cons case rest =>
    obtain ⟨test, body, span, announced⟩ := case
    rw [walkFallThrough, walkFallThrough, walkStmts_mirrors body answers.left.right,
      apply_ite Walk.hush, Walk.block_hush, walkFallThrough_mirrors rest answers.right]

theorem walkCatches_mirrors {env : Env} (thrown : Block) (catches : List Catch)
    (answers : Answers env index (callsCatches catches)) (walked : Catches) :
    walkCatches (env.withIndex index) thrown catches walked.hush =
      (walkCatches env thrown catches walked).hush := by
  cases catches with
  | nil => rw [walkCatches_nil, walkCatches_nil]
  | cons clause rest =>
    obtain ⟨types, name, body, span⟩ := clause
    have bound : Walk.Mirrors
        (fun walk => walkStmts (env.withIndex index) body (bindCaught env types name walk))
        fun walk => walkStmts env body (bindCaught env types name walk) := by
      intro walk
      dsimp only
      rw [bindCaught_hush, walkStmts_mirrors body answers.left]
    let ended := walked.walk.within thrown.child fun walk =>
      walkStmts env body (bindCaught env types name walk)
    have entered : walked.hush.walk.within thrown.child (fun walk =>
        walkStmts (env.withIndex index) body (bindCaught env types name walk)) =
          (ended.1, ended.2.hush) :=
      Walk.within_hush bound thrown.child
    rw [walkCatches, walkCatches, bindCaught_withIndex, entered]
    exact walkCatches_mirrors thrown rest answers.right (walked.push ended.1 ended.2)

theorem walkStatics_mirrors {env : Env} (bindings : List Binding)
    (answers : Answers env index (callsBindings bindings)) :
    Walk.Mirrors (walkStatics (env.withIndex index) bindings) (walkStatics env bindings) := by
  intro walk
  cases bindings with
  | nil => rw [walkStatics_nil, walkStatics_nil]
  | cons binding rest =>
    obtain ⟨name, value, span⟩ := binding
    let begun := walkOptional env value walk
    let types := (value.map (begun.localType env)).getD .empty
    rw [walkStatics, walkStatics, walkOptional_mirrors value answers.left]
    exact walkStatics_mirrors rest answers.right
      (((begun.mapScope (·.add name types true)).share name).untrack env name)

theorem walkConstItems_mirrors {env : Env} (items : List ConstItem)
    (answers : Answers env index (callsConstItems items)) :
    Walk.Mirrors (walkConstItems (env.withIndex index) items) (walkConstItems env items) := by
  intro walk
  cases items with
  | nil => rw [walkConstItems_nil, walkConstItems_nil]
  | cons item rest =>
    obtain ⟨name, value, span⟩ := item
    rw [walkConstItems, walkConstItems, walkExpr_mirrors value answers.left,
      walkConstItems_mirrors rest answers.right]

end

theorem walkBody_mirrors {env : Env} (body : List Stmt)
    (answers : Answers env index (callsStmts body)) :
    Walk.Mirrors (walkBody (env.withIndex index) body) (walkBody env body) := by
  intro walk
  rw [walkBody, walkBody, walkStmts_mirrors body answers, Walk.flushUnused_withIndex,
    Walk.flushUnused_hush]

end PhpAudit.Flow
