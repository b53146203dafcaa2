/-
This file lists what a body assigns to the properties of `$this`, twice. Read off the syntax, the list
has the name of the property and the assigned expression. Read off a walk, it also has the state in
which the walk is when it asks for the types of the value: right after it walked the expression.

Both lists leave out what the walk does not look into, or forgets: the bodies of closures and arrow
functions, and the keys in the arrays whose elements name variables in a call of `compact`. What a walk
sees is more than what the syntax has only where a `switch` falls through: the bodies of the cases that
follow are walked once more.
-/

import PhpAudit.Flow.Body

namespace PhpAudit

/-- The property to which `$this->name = value` assigns; other assignments have none. -/
def ownProperty? (target : Expr) (op : AssignOp) (byRef : Bool) : Option String :=
  match op, byRef, target.unparen.kind with
  | .assign, false, .property object (some name) _ =>
    if object.variableName? == some "$this" then some name else none
  | _, _, _ => none

/-! ### Read off the syntax -/

namespace Flow

/-- A property of `$this` and an expression that is assigned to it. -/
abbrev Own := String × Expr

section

variable (env : Env)

mutual

/-- What an expression assigns to properties of `$this`, in the order of a walk. -/
def ownExpr : Expr → List Own
  | ⟨kind, _⟩ => ownKind kind

def ownKind : ExprKind → List Own
  | .paren inner | .clone inner | .unary _ inner | .property inner _ _ | .includeFile inner
  | .yieldFrom inner | .throw inner | .isEmpty inner => ownExpr inner
  | .array items | .list items => ownItems items
  | .element base index => ownExpr base ++ ownOptional index
  | .assign target value op byRef =>
    ownExpr value ++ (ownProperty? target op byRef).toList.map (·, value) ++ ownExpr target
  | .binary _ left right => ownExpr left ++ ownExpr right
  | .instanceOf subject ref => ownExpr subject ++ ownRef ref
  | .ternary test yes no => ownExpr test ++ ownOptional yes ++ ownExpr no
  | .call name args =>
    if globalName env name == "\\compact" then ownCompactArgs args else ownArgs args
  | .callValue callee args => ownExpr callee ++ ownArgs args
  | .methodCall object _ args _ => ownExpr object ++ ownArgs args
  | .staticCall ref _ args | .new ref args => ownRef ref ++ ownArgs args
  | .staticProperty ref _ | .classConstant ref _ => ownRef ref
  | .isset values => ownExprs values
  | .matchOn subject arms => ownExpr subject ++ ownArms arms
  | .yield key value => ownOptional key ++ ownOptional value
  | .var _ | .dynamicVar _ | .integer | .float | .string _ | .interpolated _ | .boolean _ | .null
  | .magic _ | .constant _ | .exit _ _ | .print _ | .closure .. | .arrow .. | .unmodeled _ => []

def ownOptional : Option Expr → List Own
  | none => []
  | some value => ownExpr value

def ownExprs : List Expr → List Own
  | [] => []
  | value :: rest => ownExpr value ++ ownExprs rest

def ownItems : List Item → List Own
  | [] => []
  | .skip :: rest => ownItems rest
  | .entry key value _ _ :: rest => ownOptional key ++ ownExpr value ++ ownItems rest

def ownRef : ClassRef → List Own
  | .dynamic value => ownExpr value
  | .named _ | .self | .static | .parent => []

def ownArms : List MatchArm → List Own
  | [] => []
  | ⟨conditions, body⟩ :: rest => ownExprs conditions ++ ownExpr body ++ ownArms rest

def ownArgs : List Arg → List Own
  | [] => []
  | ⟨value, _, _⟩ :: rest => ownExpr value ++ ownArgs rest

/-- The arguments of `compact`. -/
def ownCompactArgs : List Arg → List Own
  | [] => []
  | ⟨value, _, _⟩ :: rest => ownCompact value ++ ownCompactArgs rest

def ownCompact : Expr → List Own
  | ⟨kind, _⟩ =>
    let read := ownKind kind
    match kind with
    | .paren inner => ownCompact inner
    | .array items => ownCompactItems items
    | _ => read

/-- The keys are not looked at. -/
def ownCompactItems : List Item → List Own
  | [] => []
  | .skip :: rest => ownCompactItems rest
  | .entry _ value _ _ :: rest => ownCompact value ++ ownCompactItems rest

end

mutual

/-- What statements assign to properties of `$this`, outside nested functions and classes. -/
def ownStmts : List Stmt → List Own
  | [] => []
  | stmt :: rest => ownStmt stmt ++ ownStmts rest

def ownStmt : Stmt → List Own
  | ⟨kind, _⟩ =>
    match kind with
    | .expr value => ownExpr env value
    | .echo values => ownExprs env values
    | .returns value => ownOptional env value
    | .block body => ownStmts body
    | .branch test body _ rest => ownExpr env test ++ ownStmts body ++ ownOtherwise rest
    | .whileLoop test body => ownExpr env test ++ ownStmts body
    | .doWhile body test => ownStmts body ++ ownExpr env test
    | .forLoop init test step body =>
      ownExprs env init ++ ownExprs env test ++ ownExprs env step ++ ownStmts body
    | .foreach subject key value _ body =>
      ownExpr env subject ++ ownExpr env value ++ ownOptional env key ++ ownStmts body
    | .switch subject cases => ownExpr env subject ++ ownCases cases
    | .tryCatch body catches final _ => ownStmts body ++ ownCatches catches ++ ownFinal final
    | .static bindings => bindings.flatMap fun binding => ownOptional env binding.value
    | .constants items => items.flatMap fun item => ownExpr env item.value
    | .breaks | .continues | .global _ | .unset _ | .namespaced _ _ | .imports _ | .function _
    | .classLike _ | .nop => []

def ownOtherwise : Otherwise → List Own
  | .nothing => []
  | .orElse body => ownStmts body
  | .orIf test body _ rest => ownExpr env test ++ ownStmts body ++ ownOtherwise rest

def ownCases : List Case → List Own
  | [] => []
  | ⟨test, body, _, _⟩ :: rest => ownOptional env test ++ ownStmts body ++ ownCases rest

def ownCatches : List Catch → List Own
  | [] => []
  | ⟨_, _, body, _⟩ :: rest => ownStmts body ++ ownCatches rest

def ownFinal : Option (List Stmt) → List Own
  | none => []
  | some last => ownStmts last

end

end

/-! ### Read off a walk -/

/-- A value that a walk sees assigned to a property of `$this`, and the state after the value. -/
structure Filling where
  name : String
  value : Expr
  walk : Walk

namespace Filling

def own (filling : Filling) : Own :=
  (filling.name, filling.value)

/-- The types that the value has where it is assigned. -/
def types (env : Env) (filling : Filling) : TypeSet :=
  filling.walk.localType env filling.value

end Filling

/-- How an assignment by `op` is walked, and the types that it assigns, in the state after the value. -/
def assignedAs (env : Env) (span : Span) (target value : Expr) (op : AssignOp) (after : Walk) :
    AssignMode × TypeSet :=
  match op with
  | .assign => (.plain, after.localType env value)
  | _ => (.compound target.span, after.localType env ⟨.assign target value op false, span⟩)

mutual

/-- What the walk over an expression sees assigned to properties of `$this`. -/
def fillingsExpr (env : Env) : Expr → Walk → List Filling
  | ⟨kind, span⟩, walk => fillingsKind env span kind walk

def fillingsKind (env : Env) (span : Span) : ExprKind → Walk → List Filling
  | .paren inner, walk | .clone inner, walk | .unary _ inner, walk | .property inner _ _, walk
  | .throw inner, walk => fillingsExpr env inner walk
  | .includeFile inner, walk | .yieldFrom inner, walk => fillingsExpr env inner walk.impure
  | .array items, walk | .list items, walk => fillingsItems env items walk
  | .element base index, walk =>
    let walk := walk.checkArrayAccess env base span
    fillingsExpr env base walk ++ fillingsOptional env index (walkExpr env base walk)
  | .assign target value op byRef, walk =>
    if byRef then
      let after := walkShared env value walk
      fillingsShared env value walk ++
        fillingsAssign env .reference (after.localType env value) target after
    else
      let after := walkExpr env value walk
      let (mode, types) := assignedAs env span target value op after
      fillingsExpr env value walk ++
        (ownProperty? target op false).toList.map (⟨·, value, after⟩) ++
        fillingsAssign env mode types target after
  | .binary op left right, walk =>
    match op with
    | .coalesce => fillingsProbe env left walk ++ fillingsExpr env right (walkProbe env left walk)
    | _ => fillingsExpr env left walk ++ fillingsExpr env right (walkExpr env left walk)
  | .instanceOf subject ref, walk =>
    fillingsExpr env subject walk ++ fillingsRef env ref (walkExpr env subject walk)
  | .ternary test none no, walk =>
    fillingsExpr env test walk ++ fillingsExpr env no (walkExpr env test walk)
  | .ternary test (some yes) no, walk =>
    let split := (walkTest env false false test (.start walk [])).split walk.block
    let between := (split.walk.within split.yes (walkExpr env yes)).2
    fillingsTest env false false test (.start walk []) ++
      fillingsExpr env yes { split.walk with block := split.yes } ++
      fillingsExpr env no { between with block := split.no }
  | .call name args, walk =>
    if globalName env name == "\\compact" then
      fillingsCompactArgs env args walk
    else
      let callee := callee? env name
      let walk := tolerate (globalName env name) walk
      let walk := if callee.any (·.isPure) then walk else walk.impure
      fillingsArgs env (callee.map (·.params)) 0 args walk
  | .callValue callee args, walk =>
    fillingsExpr env callee walk.impure ++
      fillingsArgs env none 0 args (walkExpr env callee walk.impure)
  | .methodCall object method args _, walk =>
    let after := walkExpr env object walk.impure
    let found := method.bind (after.lookupMethodOf? env object)
    fillingsExpr env object walk.impure ++ fillingsArgs env (methodParams found) 0 args after
  | .staticCall ref method args, walk =>
    fillingsRef env ref walk.impure ++
      fillingsArgs env (methodParams (staticCallee? env ref method)) 0 args
        (walkRef env ref walk.impure)
  | .new ref args, walk =>
    fillingsRef env ref walk.impure ++
      fillingsArgs env (methodParams (constructor? env ref)) 0 args (walkRef env ref walk.impure)
  | .staticProperty ref _, walk | .classConstant ref _, walk => fillingsRef env ref walk
  | .isset values, walk => fillingsProbes env values walk
  | .isEmpty value, walk => fillingsProbe env value walk
  | .matchOn subject arms, walk =>
    fillingsExpr env subject walk ++ fillingsArms env arms (walkExpr env subject walk)
  | .yield key value, walk =>
    fillingsOptional env key walk.impure ++
      fillingsOptional env value (walkOptional env key walk.impure)
  | .var _, _ | .dynamicVar _, _ | .integer, _ | .float, _ | .string _, _ | .interpolated _, _
  | .boolean _, _ | .null, _ | .magic _, _ | .constant _, _ | .exit _ _, _ | .print _, _
  | .closure .., _ | .arrow .., _ | .unmodeled _, _ => []

def fillingsExprs (env : Env) : List Expr → Walk → List Filling
  | [], _ => []
  | value :: rest, walk =>
    fillingsExpr env value walk ++ fillingsExprs env rest (walkExpr env value walk)

def fillingsOptional (env : Env) : Option Expr → Walk → List Filling
  | none, _ => []
  | some value, walk => fillingsExpr env value walk

def fillingsConditionals (env : Env) : List Expr → Walk → List Filling
  | [], _ => []
  | value :: rest, walk =>
    fillingsExpr env value walk ++
      fillingsConditionals env rest (walk.conditionally (walkExpr env value))

def fillingsItems (env : Env) : List Item → Walk → List Filling
  | [], _ => []
  | .skip :: rest, walk => fillingsItems env rest walk
  | .entry key value _ _ :: rest, walk =>
    let keyed := walkOptional env key walk
    fillingsOptional env key walk ++ fillingsExpr env value keyed ++
      fillingsItems env rest (walkExpr env value keyed)

def fillingsRef (env : Env) : ClassRef → Walk → List Filling
  | .dynamic value, walk => fillingsExpr env value walk
  | .named _, _ | .self, _ | .static, _ | .parent, _ => []

def fillingsArms (env : Env) : List MatchArm → Walk → List Filling
  | [], _ => []
  | ⟨conditions, body⟩ :: rest, walk =>
    let matched := walkConditionals env conditions walk
    fillingsConditionals env conditions walk ++ fillingsExpr env body matched ++
      fillingsArms env rest (matched.conditionally (walkExpr env body))

def fillingsProbe (env : Env) : Expr → Walk → List Filling
  | ⟨kind, span⟩, walk =>
    let read := fillingsKind env span kind
    match kind with
    | .paren inner => fillingsProbe env inner walk
    | .element base index =>
      fillingsProbe env base walk ++ fillingsOptional env index (walkProbe env base walk)
    | .property object _ _ => fillingsProbe env object walk
    | _ => read walk

def fillingsProbes (env : Env) : List Expr → Walk → List Filling
  | [], _ => []
  | value :: rest, walk =>
    fillingsProbe env value walk ++ fillingsProbes env rest (walkProbe env value walk)

/-- The walk over the target of an assignment sees what the parts of the target assign. -/
def fillingsAssign (env : Env) (mode : AssignMode) (types : TypeSet) : Expr → Walk → List Filling
  | ⟨kind, span⟩, walk =>
    let read := fillingsKind env span kind
    match kind with
    | .paren inner => fillingsAssign env mode types inner walk
    | .element base index =>
      let walk := walk.checkArrayAccess env base (mode.elementSpan span)
      fillingsStore env types base.span base walk ++
        fillingsOptional env index (walkStore env types base.span base walk)
    | .list items | .array items => fillingsPattern env types 0 items walk
    | .property object name _ =>
      fillingsExpr env object (assignOwnProperty env types object name walk.impure)
    | .staticProperty ref name =>
      fillingsRef env ref (assignOwnStatic env types ref name walk.impure)
    | _ => read walk

def fillingsPattern (env : Env) (types : TypeSet) (position : Nat) : List Item → Walk → List Filling
  | [], _ => []
  | .skip :: rest, walk => fillingsPattern env types position rest walk
  | .entry key value byRef _ :: rest, walk =>
    let keyed := shareSlot byRef value (walkOptional env key walk)
    let slot := slotTypes types position key
    fillingsOptional env key walk ++ fillingsAssign env .plain slot value keyed ++
      fillingsPattern env types (position + 1) rest (walkAssign env .plain slot value keyed)

def fillingsStore (env : Env) (types : TypeSet) (outer : Span) : Expr → Walk → List Filling
  | ⟨kind, span⟩, walk =>
    let read := fillingsKind env span kind
    match kind with
    | .paren inner => fillingsStore env types outer inner walk
    | .element base index =>
      let walk := walk.checkArrayAccess env base outer
      fillingsStore env types.inArray base.span base walk ++
        fillingsOptional env index (walkStore env types.inArray base.span base walk)
    | .property .. | .staticProperty .. => read walk.impure
    | _ => read walk

def fillingsShared (env : Env) : Expr → Walk → List Filling
  | ⟨kind, span⟩, walk =>
    let read := fillingsKind env span kind
    match kind with
    | .paren inner => fillingsShared env inner walk
    | _ => read walk

def fillingsArgs (env : Env) (params : Option (List ParamInfo)) (position : Nat) :
    List Arg → Walk → List Filling
  | [], _ => []
  | ⟨value, _, _⟩ :: rest, walk =>
    match refParam? params position with
    | some param =>
      fillingsPassed env param value.span value walk ++
        fillingsArgs env params (position + 1) rest (walkPassed env param value.span value walk)
    | none =>
      fillingsExpr env value walk ++
        fillingsArgs env params (position + 1) rest (walkExpr env value walk)

def fillingsPassed (env : Env) (param : ParamInfo) (outer : Span) : Expr → Walk → List Filling
  | ⟨kind, span⟩, walk =>
    let read := fillingsKind env span kind
    match kind with
    | .paren inner => fillingsPassed env param outer inner walk
    | .element base index =>
      let walk := walk.checkArrayAccess env base outer
      fillingsStore env .mixed base.span base walk ++
        fillingsOptional env index (walkStore env .mixed base.span base walk)
    | _ => read walk

def fillingsCompactArgs (env : Env) : List Arg → Walk → List Filling
  | [], _ => []
  | ⟨value, _, _⟩ :: rest, walk =>
    fillingsCompact env value.span value walk ++
      fillingsCompactArgs env rest (walkCompact env value.span value walk)

def fillingsCompact (env : Env) (outer : Span) : Expr → Walk → List Filling
  | ⟨kind, span⟩, walk =>
    let read := fillingsKind env span kind
    match kind with
    | .paren inner => fillingsCompact env outer inner walk
    | .array items => fillingsCompactItems env items walk
    | _ => read walk

def fillingsCompactItems (env : Env) : List Item → Walk → List Filling
  | [], _ => []
  | .skip :: rest, walk => fillingsCompactItems env rest walk
  | .entry _ value _ _ :: rest, walk =>
    fillingsCompact env value.span value walk ++
      fillingsCompactItems env rest (walkCompact env value.span value walk)

def fillingsTest (env : Env) (negated inLogic : Bool) : Expr → Guard → List Filling
  | ⟨kind, span⟩, guard =>
    let read := fillingsKind env span kind
    match kind with
    | .paren inner => fillingsTest env negated inLogic inner guard
    | .binary .and left right | .binary .or left right =>
      fillingsTest env negated true left guard ++
        fillingsTest env negated true right (walkTest env negated true left guard)
    | .unary .not operand =>
      fillingsTest env (!negated) inLogic operand (guard.markNotEmpty negated operand)
    | .isset values => fillingsProbes env values (guard.markIsset negated values).walk
    | .instanceOf subject ref =>
      fillingsExpr env subject guard.walk ++ fillingsRef env ref (walkExpr env subject guard.walk)
    | _ => read guard.walk

/-- What the walk over statements sees assigned to properties of `$this`. -/
def fillingsStmts (env : Env) : List Stmt → Walk → List Filling
  | [], _ => []
  | stmt :: rest, walk => fillingsStmt env stmt walk ++ fillingsStmts env rest (walkStmt env stmt walk)

def fillingsStmt (env : Env) : Stmt → Walk → List Filling
  | ⟨kind, span⟩, walk => fillingsStmtKind env kind (walk.checkDeadCode env ⟨kind, span⟩)

def fillingsStmtKind (env : Env) : StmtKind → Walk → List Filling
  | .expr value, walk => fillingsExpr env value walk
  | .echo values, walk => fillingsExprs env values walk.impure
  | .returns value, walk => fillingsOptional env value walk
  | .block body, walk => fillingsStmts env body walk
  | .branch test body _ rest, walk =>
    let split := (walkTest env false false test (.start walk [])).split walk.block
    let (branch, after) := split.walk.within split.yes (walkStmts env body)
    let chain : Chain :=
      { walk := after, branches := [], links := 0, markers := split.markers, no := split.no }
    fillingsTest env false false test (.start walk []) ++
      fillingsStmts env body { split.walk with block := split.yes } ++
      fillingsOtherwise env walk.scope rest (chain.push walk.scope branch after)
  | .whileLoop test body, walk =>
    let tested := walkExpr env test walk
    fillingsExpr env test walk ++
      fillingsStmts env body { tested with block := { tested.block.child with insideLoop := true } }
  | .doWhile body test, walk =>
    let entered := walk.mapBlock fun block => { block with insideLoop := true }
    fillingsStmts env body entered ++ fillingsExpr env test (walkStmts env body entered)
  | .forLoop init test step body, walk =>
    let started := walkExprs env init walk
    let tested := walkExprs env test started
    let stepped := walkExprs env step tested
    fillingsExprs env init walk ++ fillingsExprs env test started ++ fillingsExprs env step tested ++
      fillingsStmts env body { stepped with block := { stepped.block.child with insideLoop := true } }
  | .foreach subject key value byRef body, walk =>
    let walked := walkExpr env subject walk
    let elements := (walked.localType env subject).element
    let entered := shareSlot byRef value { walked with block := walked.block.child }
    let bound := walkAssign env (.iteration value.span) elements value entered
    let keyed := (walkKey env key bound).mapBlock fun block => { block with insideLoop := true }
    fillingsExpr env subject walk ++
      fillingsAssign env (.iteration value.span) elements value entered ++
      fillingsKey env key bound ++ fillingsStmts env body keyed
  | .switch subject cases, walk =>
    fillingsExpr env subject walk ++ fillingsCases env cases { walk := walkExpr env subject walk }
  | .tryCatch body catches final _, walk =>
    let (tried, after) := walk.within walk.block.child (walkStmts env body)
    let thrown := afterThrow after.block tried
    let caught := walkCatches env thrown catches { walk := after }
    fillingsStmts env body { walk with block := walk.block.child } ++
      fillingsCatches env thrown catches { walk := after } ++
      fillingsFinal env final { caught.walk with block := thrown.child }
  | .static bindings, walk => fillingsStatics env bindings walk.impure
  | .constants items, walk => fillingsConstItems env items walk
  | .breaks, _ | .continues, _ | .global _, _ | .unset _, _ | .namespaced _ _, _ | .imports _, _
  | .function _, _ | .classLike _, _ | .nop, _ => []

def fillingsFinal (env : Env) : Option (List Stmt) → Walk → List Filling
  | none, _ => []
  | some last, walk => fillingsStmts env last walk

def fillingsKey (env : Env) : Option Expr → Walk → List Filling
  | none, _ => []
  | some key, walk => fillingsAssign env (.iteration key.span) keyTypes key walk

def fillingsOtherwise (env : Env) (initial : Scope) : Otherwise → Chain → List Filling
  | .nothing, _ => []
  | .orElse body, chain => fillingsStmts env body { chain.walk with block := chain.no }
  | .orIf test body _ rest, chain =>
    let inner : Walk := { chain.walk with block := chain.no }
    let split := (walkTest env false false test (.start inner chain.markers)).split chain.no
    let walk : Walk := { split.walk with block := chain.walk.block }
    let (branch, after) := walk.within split.yes (walkStmts env body)
    fillingsTest env false false test (.start inner chain.markers) ++
      fillingsStmts env body { walk with block := split.yes } ++
      fillingsOtherwise env initial rest
        (({ chain with markers := split.markers, no := split.no } : Chain).push initial branch after)

def fillingsCases (env : Env) : List Case → Cases → List Filling
  | [], _ => []
  | ⟨test, body, span, _⟩ :: rest, cases =>
    let walk := walkOptional env test cases.walk
    let entered : Cases := { cases with walk, hasDefault := cases.hasDefault || test.isNone }
    fillingsOptional env test cases.walk ++
      if body.isEmpty then
        fillingsCases env rest entered
      else
        let started : Walk := { walk with block := walk.block.child }
        let ended := checkCaseBreak env span rest (walkStmts env body started)
        let quiet : Walk := { ended with report := { ended.report with enabled := false } }
        let (branch, after) := walk.within walk.block.child fun walk =>
          let walk := checkCaseBreak env span rest (walkStmts env body walk)
          if walk.block.continues then walk.silently (walkFallThrough env rest) else walk
        fillingsStmts env body started ++
          (if ended.block.continues then fillingsFallThrough env rest quiet else []) ++
          fillingsCases env rest (entered.push branch after)

def fillingsFallThrough (env : Env) : List Case → Walk → List Filling
  | [], _ => []
  | ⟨_, body, _, _⟩ :: rest, walk =>
    let after := walkStmts env body walk
    fillingsStmts env body walk ++
      if after.block.continues then fillingsFallThrough env rest after else []

def fillingsCatches (env : Env) (thrown : Block) : List Catch → Catches → List Filling
  | [], _ => []
  | ⟨types, name, body, _⟩ :: rest, catches =>
    let (branch, after) := catches.walk.within thrown.child fun walk =>
      walkStmts env body (bindCaught env types name walk)
    fillingsStmts env body (bindCaught env types name { catches.walk with block := thrown.child }) ++
      fillingsCatches env thrown rest (catches.push branch after)

def fillingsStatics (env : Env) : List Binding → Walk → List Filling
  | [], _ => []
  | ⟨name, value, _⟩ :: rest, walk =>
    let after := walkOptional env value walk
    let types := (value.map (after.localType env)).getD .empty
    fillingsOptional env value walk ++
      fillingsStatics env rest
        (((after.mapScope (·.add name types true)).share name).untrack env name)

def fillingsConstItems (env : Env) : List ConstItem → Walk → List Filling
  | [], _ => []
  | ⟨_, value, _⟩ :: rest, walk =>
    fillingsExpr env value walk ++ fillingsConstItems env rest (walkExpr env value walk)

end

section

variable (env : Env)

theorem ownKind_call (name : String) (args : List Arg) :
    ownKind env (.call name args) =
      if globalName env name == "\\compact" then ownCompactArgs env args else ownArgs env args := rfl

theorem fillingsKind_call (span : Span) (name : String) (args : List Arg) (walk : Walk) :
    fillingsKind env span (.call name args) walk =
      if globalName env name == "\\compact" then fillingsCompactArgs env args walk
      else
        let tolerant := tolerate (globalName env name) walk
        fillingsArgs env ((callee? env name).map (·.params)) 0 args
          (if (callee? env name).any (·.isPure) then tolerant else tolerant.impure) := rfl

theorem fillingsArgs_cons (params : Option (List ParamInfo)) (position : Nat) (value : Expr)
    (unpack : Bool) (label : Option String) (rest : List Arg) (walk : Walk) :
    fillingsArgs env params position (⟨value, unpack, label⟩ :: rest) walk =
      match refParam? params position with
      | some param =>
        fillingsPassed env param value.span value walk ++
          fillingsArgs env params (position + 1) rest (walkPassed env param value.span value walk)
      | none =>
        fillingsExpr env value walk ++
          fillingsArgs env params (position + 1) rest (walkExpr env value walk) := rfl

end

end Flow

end PhpAudit
