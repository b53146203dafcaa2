/-
This file follows what the blocks of a walk record about their exits, from point to point. The record
of the block at hand is noted before and after every statement, every expression and every part of a
condition, and between the steps of a statement that change it more than once. Other blocks take its
place for a while: branches, bodies of loops, cases, clauses, and the bodies of closures. Each of them
has a list of its own, from its start to the point at which it is joined.

The states in between are those of the walk itself. The record that is noted after some code is that
of the walk over it, and so is the record from which the code after it goes on.
-/

import PhpAudit.Proofs.Flow.Drift

namespace PhpAudit

/-- What blocks record while some code is walked. -/
structure History where
  /-- The records of the block at hand, in the order of the walk -/
  here : List ExitRecord := []
  /-- The records of each block that took its place, in the same order -/
  branches : List (List ExitRecord) := []

namespace History

def nothing : History := {}

instance : Append History :=
  ⟨fun first second => ⟨first.here ++ second.here, first.branches ++ second.branches⟩⟩

/-- The block at hand at one point. -/
def stage (record : ExitRecord) : History :=
  ⟨[record], []⟩

/-- The history of steps, with the points before and after them. -/
def around (before : Walk) (steps : History) (after : Walk) : History :=
  stage before.record ++ steps ++ stage after.record

/-- The history of steps that are taken in a block of their own. -/
def within (block : Block) (steps : History) : History :=
  ⟨[], (block.record :: steps.here) :: steps.branches⟩

end History

namespace Flow

open History

/-- The block at hand when control has left the branch of an `if` and goes on in the false outcome. -/
def historyFalse (chain : Chain) (continuesInFalse : Bool) : History :=
  if continuesInFalse then
    let entered := stage chain.continueInFalse.record
    entered ++ within chain.no (entered ++ stage (chain.close true).record)
  else
    nothing

mutual

def historyExpr (env : Env) : Expr → Walk → History
  | ⟨kind, span⟩, walk => around walk (historyKind env span kind walk) (walkKind env span kind walk)

def historyKind (env : Env) (span : Span) : ExprKind → Walk → History
  | .paren inner, walk | .clone inner, walk | .unary _ inner, walk | .property inner _ _, walk
  | .throw inner, walk => historyExpr env inner walk
  | .includeFile inner, walk | .yieldFrom inner, walk => historyExpr env inner walk.impure
  | .array items, walk | .list items, walk => historyItems env items walk
  | .element base index, walk =>
    let walk := walk.checkArrayAccess env base span
    historyExpr env base walk ++ historyOptional env index (walkExpr env base walk)
  | .assign target value op byRef, walk =>
    if byRef then
      let after := walkShared env value walk
      historyShared env value walk ++
        historyAssign env .reference (after.localType env value) target after
    else
      let after := walkExpr env value walk
      historyExpr env value walk ++
        match op with
        | .assign => historyAssign env .plain (after.localType env value) target after
        | _ =>
          let types := after.localType env ⟨.assign target value op byRef, span⟩
          historyAssign env (.compound target.span) types target after
  | .binary op left right, walk =>
    match op with
    | .coalesce => historyProbe env left walk ++ historyExpr env right (walkProbe env left walk)
    | _ => historyExpr env left walk ++ historyExpr env right (walkExpr env left walk)
  | .instanceOf subject ref, walk =>
    historyExpr env subject walk ++ historyRef env ref (walkExpr env subject walk)
  | .ternary test none no, walk =>
    historyExpr env test walk ++ historyExpr env no (walkExpr env test walk)
  | .ternary test (some yes) no, walk =>
    let split := (walkTest env false false test (.start walk [])).split walk.block
    let (yesBlock, between) := split.walk.within split.yes (walkExpr env yes)
    let (noBlock, _) := between.within split.no (walkExpr env no)
    within walk.block.child (historyTest env false false test (.start walk []) ++
        historyExpr env yes { split.walk with block := split.yes } ++
        stage ⟨.none, yesBlock.possible⟩) ++
      within split.no (historyExpr env no { between with block := split.no } ++
        stage ⟨.none, noBlock.possible⟩)
  | .call name args, walk =>
    let function := globalName env name
    if function == "\\compact" then
      historyCompactArgs env args walk
    else
      let callee := callee? env name
      let walk := tolerate function walk
      let walk := if callee.any (·.isPure) then walk else walk.impure
      let after := walkArgs env (callee.map (·.params)) 0 args walk
      let left := match callee with
        | some info => after.leaveByCallee env info.exits
        | none => after
      historyArgs env (callee.map (·.params)) 0 args walk ++ stage left.record
  | .callValue callee args, walk =>
    historyExpr env callee walk.impure ++
      historyArgs env none 0 args (walkExpr env callee walk.impure)
  | .methodCall object method args _, walk =>
    let after := walkExpr env object walk.impure
    let found := method.bind (after.lookupMethodOf? env object)
    historyExpr env object walk.impure ++ historyArgs env (methodParams found) 0 args after
  | .staticCall ref method args, walk =>
    historyRef env ref walk.impure ++
      historyArgs env (methodParams (staticCallee? env ref method)) 0 args
        (walkRef env ref walk.impure)
  | .new ref args, walk =>
    historyRef env ref walk.impure ++
      historyArgs env (methodParams (constructor? env ref)) 0 args (walkRef env ref walk.impure)
  | .staticProperty ref _, walk | .classConstant ref _, walk => historyRef env ref walk
  | .isset values, walk => historyProbes env values walk
  | .isEmpty value, walk => historyProbe env value walk
  | .closure params captures _ isStatic body, walk =>
    let (walk, scope) := captures.foldl (capture env) (walk, closureScope isStatic walk.scope)
    let described := Param.describe env.naming none params
    let inner := { env with enclosing := [] }
    let started := startClosure inner (scope.bind described) described captures walk.report
    within started.block (historyStmts inner body started)
  | .arrow params _ isStatic body, walk =>
    let described := Param.describe env.naming none params
    let inner := { env with enclosing := walk.scope :: env.enclosing }
    let started := Walk.start ((arrowScope isStatic walk.scope).bind described) walk.report
    within started.block (historyExpr inner body started)
  | .matchOn subject arms, walk =>
    historyExpr env subject walk ++ historyArms env arms (walkExpr env subject walk)
  | .yield key value, walk =>
    historyOptional env key walk.impure ++
      historyOptional env value (walkOptional env key walk.impure)
  | .var _, _ | .dynamicVar _, _ | .integer, _ | .float, _ | .string _, _ | .interpolated _, _
  | .boolean _, _ | .null, _ | .magic _, _ | .constant _, _ | .exit _ _, _ | .print _, _
  | .unmodeled _, _ => nothing

def historyExprs (env : Env) : List Expr → Walk → History
  | [], _ => nothing
  | value :: rest, walk =>
    historyExpr env value walk ++ historyExprs env rest (walkExpr env value walk)

def historyOptional (env : Env) : Option Expr → Walk → History
  | none, _ => nothing
  | some value, walk => historyExpr env value walk

def historyConditionals (env : Env) : List Expr → Walk → History
  | [], _ => nothing
  | value :: rest, walk =>
    historyExpr env value walk ++
      historyConditionals env rest (walk.conditionally (walkExpr env value))

def historyItems (env : Env) : List Item → Walk → History
  | [], _ => nothing
  | .skip :: rest, walk => historyItems env rest walk
  | .entry key value _ _ :: rest, walk =>
    let keyed := walkOptional env key walk
    historyOptional env key walk ++ historyExpr env value keyed ++
      historyItems env rest (walkExpr env value keyed)

def historyRef (env : Env) : ClassRef → Walk → History
  | .dynamic value, walk => historyExpr env value walk
  | .named _, _ | .self, _ | .static, _ | .parent, _ => nothing

def historyArms (env : Env) : List MatchArm → Walk → History
  | [], _ => nothing
  | ⟨conditions, body⟩ :: rest, walk =>
    let matched := walkConditionals env conditions walk
    historyConditionals env conditions walk ++ historyExpr env body matched ++
      historyArms env rest (matched.conditionally (walkExpr env body))

def historyProbe (env : Env) : Expr → Walk → History
  | ⟨kind, span⟩, walk =>
    let read := around walk (historyKind env span kind walk) (walkKind env span kind walk)
    match kind with
    | .paren inner => historyProbe env inner walk
    | .var _ => nothing
    | .element base index =>
      historyProbe env base walk ++ historyOptional env index (walkProbe env base walk)
    | .property object _ _ => historyProbe env object walk
    | _ => read

def historyProbes (env : Env) : List Expr → Walk → History
  | [], _ => nothing
  | value :: rest, walk =>
    historyProbe env value walk ++ historyProbes env rest (walkProbe env value walk)

def historyAssign (env : Env) (mode : AssignMode) (types : TypeSet) : Expr → Walk → History
  | ⟨kind, span⟩, walk =>
    let read := around walk (historyKind env span kind walk) (walkKind env span kind walk)
    match kind with
    | .var _ => nothing
    | .paren inner => historyAssign env mode types inner walk
    | .element base index =>
      let walk := walk.checkArrayAccess env base (mode.elementSpan span)
      historyStore env types base.span base walk ++
        historyOptional env index (walkStore env types base.span base walk)
    | .list items | .array items => historyPattern env types 0 items walk
    | .property object name _ =>
      historyExpr env object (assignOwnProperty env types object name walk.impure)
    | .staticProperty ref name =>
      historyRef env ref (assignOwnStatic env types ref name walk.impure)
    | _ => read

def historyPattern (env : Env) (types : TypeSet) (position : Nat) : List Item → Walk → History
  | [], _ => nothing
  | .skip :: rest, walk => historyPattern env types position rest walk
  | .entry key value byRef _ :: rest, walk =>
    let keyed := shareSlot byRef value (walkOptional env key walk)
    let slot := slotTypes types position key
    historyOptional env key walk ++ historyAssign env .plain slot value keyed ++
      historyPattern env types (position + 1) rest (walkAssign env .plain slot value keyed)

def historyStore (env : Env) (types : TypeSet) (outer : Span) : Expr → Walk → History
  | ⟨kind, span⟩, walk =>
    let read walk := around walk (historyKind env span kind walk) (walkKind env span kind walk)
    match kind with
    | .paren inner => historyStore env types outer inner walk
    | .var _ => nothing
    | .element base index =>
      let walk := walk.checkArrayAccess env base outer
      historyStore env types.inArray base.span base walk ++
        historyOptional env index (walkStore env types.inArray base.span base walk)
    | .property .. | .staticProperty .. => read walk.impure
    | _ => read walk

def historyShared (env : Env) : Expr → Walk → History
  | ⟨kind, span⟩, walk =>
    let read := around walk (historyKind env span kind walk) (walkKind env span kind walk)
    match kind with
    | .paren inner => historyShared env inner walk
    | .var _ => nothing
    | _ => read

def historyArgs (env : Env) (params : Option (List ParamInfo)) (position : Nat) :
    List Arg → Walk → History
  | [], _ => nothing
  | ⟨value, _, _⟩ :: rest, walk =>
    match refParam? params position with
    | some param =>
      historyPassed env param value.span value walk ++
        historyArgs env params (position + 1) rest (walkPassed env param value.span value walk)
    | none =>
      historyExpr env value walk ++
        historyArgs env params (position + 1) rest (walkExpr env value walk)

def historyPassed (env : Env) (param : ParamInfo) (outer : Span) : Expr → Walk → History
  | ⟨kind, span⟩, walk =>
    let read := around walk (historyKind env span kind walk) (walkKind env span kind walk)
    match kind with
    | .paren inner => historyPassed env param outer inner walk
    | .var _ => nothing
    | .element base index =>
      let walk := walk.checkArrayAccess env base outer
      historyStore env .mixed base.span base walk ++
        historyOptional env index (walkStore env .mixed base.span base walk)
    | _ => read

def historyCompactArgs (env : Env) : List Arg → Walk → History
  | [], _ => nothing
  | ⟨value, _, _⟩ :: rest, walk =>
    historyCompact env value.span value walk ++
      historyCompactArgs env rest (walkCompact env value.span value walk)

def historyCompact (env : Env) (outer : Span) : Expr → Walk → History
  | ⟨kind, span⟩, walk =>
    let read := around walk (historyKind env span kind walk) (walkKind env span kind walk)
    match kind with
    | .paren inner => historyCompact env outer inner walk
    | .string (some _) => nothing
    | .array items => historyCompactItems env items walk
    | _ => read

def historyCompactItems (env : Env) : List Item → Walk → History
  | [], _ => nothing
  | .skip :: rest, walk => historyCompactItems env rest walk
  | .entry _ value _ _ :: rest, walk =>
    historyCompact env value.span value walk ++
      historyCompactItems env rest (walkCompact env value.span value walk)

/-- The history of the block in which the condition is true. -/
def historyTest (env : Env) (negated inLogic : Bool) : Expr → Guard → History
  | ⟨kind, span⟩, guard =>
    let read := historyKind env span kind guard.walk
    around guard.walk
      (match kind with
        | .paren inner => historyTest env negated inLogic inner guard
        | .binary .and left right | .binary .or left right =>
          historyTest env negated true left guard ++
            historyTest env negated true right (walkTest env negated true left guard)
        | .unary .not operand =>
          historyTest env (!negated) inLogic operand (guard.markNotEmpty negated operand)
        | .isset values => historyProbes env values (guard.markIsset negated values).walk
        | .instanceOf subject ref =>
          historyExpr env subject guard.walk ++ historyRef env ref (walkExpr env subject guard.walk)
        | _ => read)
      (walkTest env negated inLogic ⟨kind, span⟩ guard).walk

def historyStmts (env : Env) : List Stmt → Walk → History
  | [], _ => nothing
  | stmt :: rest, walk => historyStmt env stmt walk ++ historyStmts env rest (walkStmt env stmt walk)

def historyStmt (env : Env) : Stmt → Walk → History
  | ⟨kind, span⟩, walk =>
    around walk (historyStmtKind env kind (walk.checkDeadCode env ⟨kind, span⟩))
      (walkStmt env ⟨kind, span⟩ walk)

def historyStmtKind (env : Env) : StmtKind → Walk → History
  | .expr value, walk => historyExpr env value walk
  | .echo values, walk => historyExprs env values walk.impure
  | .returns value, walk => historyOptional env value walk
  | .block body, walk => historyStmts env body walk
  | .branch test body _ rest, walk =>
    let split := (walkTest env false false test (.start walk [])).split walk.block
    let (branch, after) := split.walk.within split.yes (walkStmts env body)
    let continuesInFalse := !branch.continues && test.isNarrowing &&
      match rest with
      | .nothing => true
      | _ => false
    let chain : Chain :=
      { walk := after, branches := [], links := 0, markers := split.markers, no := split.no }
    let pushed := chain.push walk.scope branch after
    within walk.block.child (historyTest env false false test (.start walk []) ++
        historyStmts env body { split.walk with block := split.yes }) ++
      historyOtherwise env walk.scope rest pushed ++
      historyFalse (walkOtherwise env walk.scope rest pushed) continuesInFalse
  | .whileLoop test body, walk =>
    let tested := walkExpr env test walk
    let started : Walk := { tested with block := { tested.block.child with insideLoop := true } }
    historyExpr env test walk ++ within started.block (historyStmts env body started)
  | .doWhile body test, walk =>
    let entered := walk.mapBlock fun block => { block with insideLoop := true }
    historyStmts env body entered ++ historyExpr env test (walkStmts env body entered)
  | .forLoop init test step body, walk =>
    let initiated := walkExprs env init walk
    let tested := walkExprs env test initiated
    let stepped := walkExprs env step tested
    let started : Walk := { stepped with block := { stepped.block.child with insideLoop := true } }
    historyExprs env init walk ++ historyExprs env test initiated ++ historyExprs env step tested ++
      within started.block (historyStmts env body started)
  | .foreach subject key value byRef body, walk =>
    let walked := walkExpr env subject walk
    let elements := (walked.localType env subject).element
    let entered := shareSlot byRef value { walked with block := walked.block.child }
    let bound := walkAssign env (.iteration value.span) elements value entered
    let keyed := (walkKey env key bound).mapBlock fun block => { block with insideLoop := true }
    historyExpr env subject walk ++
      within walked.block.child (historyAssign env (.iteration value.span) elements value entered ++
        historyKey env key bound ++ historyStmts env body keyed)
  | .switch subject cases, walk =>
    historyExpr env subject walk ++ historyCases env cases { walk := walkExpr env subject walk }
  | .tryCatch body catches final _, walk =>
    let (tried, after) := walk.within walk.block.child (walkStmts env body)
    let thrown := afterThrow after.block tried
    let caught := walkCatches env thrown catches { walk := after }
    within walk.block.child (historyStmts env body { walk with block := walk.block.child }) ++
      within thrown nothing ++ historyCatches env thrown catches { walk := after } ++
      historyFinal env thrown final caught.walk ++ stage (closeTry tried caught).record
  | .static bindings, walk => historyStatics env bindings walk.impure
  | .constants items, walk => historyConstItems env items walk
  | .breaks, _ | .continues, _ | .global _, _ | .unset _, _ | .namespaced _ _, _ | .imports _, _
  | .function _, _ | .classLike _, _ | .nop, _ => nothing

def historyFinal (env : Env) (thrown : Block) : Option (List Stmt) → Walk → History
  | none, _ => nothing
  | some last, walk => within thrown.child (historyStmts env last { walk with block := thrown.child })

def historyKey (env : Env) : Option Expr → Walk → History
  | none, _ => nothing
  | some key, walk => historyAssign env (.iteration key.span) keyTypes key walk

/-- The block in which every test so far is false is that of the `else`; a further test is walked in
blocks that start from it. -/
def historyOtherwise (env : Env) (initial : Scope) : Otherwise → Chain → History
  | .nothing, chain => within chain.no nothing
  | .orElse body, chain =>
    within chain.no (historyStmts env body { chain.walk with block := chain.no })
  | .orIf test body _ rest, chain =>
    let inner : Walk := { chain.walk with block := chain.no }
    let split := (walkTest env false false test (.start inner chain.markers)).split chain.no
    let walk : Walk := { split.walk with block := chain.walk.block }
    let (branch, after) := walk.within split.yes (walkStmts env body)
    within chain.no nothing ++
      within chain.no.child (historyTest env false false test (.start inner chain.markers) ++
        historyStmts env body { walk with block := split.yes }) ++
      historyOtherwise env initial rest
        (({ chain with markers := split.markers, no := split.no } : Chain).push initial branch after)

def historyCases (env : Env) : List Case → Cases → History
  | [], _ => nothing
  | ⟨test, body, span, _⟩ :: rest, cases =>
    let walk := walkOptional env test cases.walk
    let entered : Cases := { cases with walk, hasDefault := cases.hasDefault || test.isNone }
    historyOptional env test cases.walk ++
      if body.isEmpty then
        historyCases env rest entered
      else
        let started : Walk := { walk with block := walk.block.child }
        let ended := checkCaseBreak env span rest (walkStmts env body started)
        let quiet : Walk := { ended with report := { ended.report with enabled := false } }
        let (branch, after) := walk.within walk.block.child fun walk =>
          let walk := checkCaseBreak env span rest (walkStmts env body walk)
          if walk.block.continues then walk.silently (walkFallThrough env rest) else walk
        within walk.block.child (historyStmts env body started ++
            (if ended.block.continues then historyFallThrough env rest quiet else nothing) ++
            stage ⟨caseExits branch, branch.possible⟩) ++
          historyCases env rest (entered.push branch after)

def historyFallThrough (env : Env) : List Case → Walk → History
  | [], _ => nothing
  | ⟨_, body, _, _⟩ :: rest, walk =>
    let after := walkStmts env body walk
    historyStmts env body walk ++
      if after.block.continues then historyFallThrough env rest after else nothing

def historyCatches (env : Env) (thrown : Block) : List Catch → Catches → History
  | [], _ => nothing
  | ⟨types, name, body, _⟩ :: rest, catches =>
    let (branch, after) := catches.walk.within thrown.child fun walk =>
      walkStmts env body (bindCaught env types name walk)
    within thrown.child
        (historyStmts env body
          (bindCaught env types name { catches.walk with block := thrown.child })) ++
      historyCatches env thrown rest (catches.push branch after)

def historyStatics (env : Env) : List Binding → Walk → History
  | [], _ => nothing
  | ⟨name, value, _⟩ :: rest, walk =>
    let after := walkOptional env value walk
    let types := (value.map (after.localType env)).getD .empty
    historyOptional env value walk ++
      historyStatics env rest
        (((after.mapScope (·.add name types true)).share name).untrack env name)

def historyConstItems (env : Env) : List ConstItem → Walk → History
  | [], _ => nothing
  | ⟨_, value, _⟩ :: rest, walk =>
    historyExpr env value walk ++ historyConstItems env rest (walkExpr env value walk)

end

section

variable (env : Env)

theorem historyKind_call (span : Span) (name : String) (args : List Arg) (walk : Walk) :
    historyKind env span (.call name args) walk =
      if globalName env name == "\\compact" then historyCompactArgs env args walk
      else
        let callee := callee? env name
        let walk := tolerate (globalName env name) walk
        let walk := if callee.any (·.isPure) then walk else walk.impure
        let after := walkArgs env (callee.map (·.params)) 0 args walk
        let left := match callee with
          | some info => after.leaveByCallee env info.exits
          | none => after
        historyArgs env (callee.map (·.params)) 0 args walk ++ stage left.record := rfl

theorem historyArgs_cons (params : Option (List ParamInfo)) (position : Nat) (value : Expr)
    (unpack : Bool) (label : Option String) (rest : List Arg) (walk : Walk) :
    historyArgs env params position (⟨value, unpack, label⟩ :: rest) walk =
      match refParam? params position with
      | some param =>
        historyPassed env param value.span value walk ++
          historyArgs env params (position + 1) rest (walkPassed env param value.span value walk)
      | none =>
        historyExpr env value walk ++
          historyArgs env params (position + 1) rest (walkExpr env value walk) := rfl

theorem historyFallThrough_cons (test : Option Expr) (body : List Stmt) (span : Span)
    (announced : Bool) (rest : List Case) (walk : Walk) :
    historyFallThrough env (⟨test, body, span, announced⟩ :: rest) walk =
      historyStmts env body walk ++
        if (walkStmts env body walk).block.continues then
          historyFallThrough env rest (walkStmts env body walk)
        else nothing := rfl

/-- A walk is noted at every point between the statements of a list. -/
theorem record_mem_historyStmts (before after : List Stmt) (walk : Walk) :
    (walkStmts env before walk).record ∈ walk.record ::
      (historyStmts env (before ++ after) walk).here ++
        [(walkStmts env (before ++ after) walk).record] := by
  induction before generalizing walk with
  | nil => exact List.mem_cons_self
  | cons stmt rest inductionHypothesis =>
    obtain ⟨kind, span⟩ := stmt
    let next := walkStmt env ⟨kind, span⟩ walk
    have noted : next.record ∈ (historyStmt env ⟨kind, span⟩ walk).here :=
      List.mem_append_right _ (List.mem_singleton.mpr rfl)
    show (walkStmts env rest next).record ∈ walk.record ::
      ((historyStmt env ⟨kind, span⟩ walk).here ++ (historyStmts env (rest ++ after) next).here) ++
        [(walkStmts env (rest ++ after) next).record]
    have further := inductionHypothesis next
    simp only [List.cons_append, List.mem_cons, List.append_assoc, List.mem_append] at further ⊢
    rcases further with same | further
    · exact .inr (.inl (same ▸ noted))
    · exact .inr (.inr further)

end

end Flow

end PhpAudit
