/-
This file walks a body once, forward, and follows its control flow. Each statement and expression
turns the state of the walk into the next one; branches are walked in blocks of their own and joined
afterwards. Along the way the walk reports undefined, unused and unreachable code, and collects what
the declaration of the body needs: the types it returns, how it ends, and whether it is pure.

Every function recurses on the syntax alone. How an expression is used decides which function walks
it: read, probed for existence, assigned to, passed by reference, or tested.
-/

import PhpAudit.Flow.Guard

namespace PhpAudit.Flow

/-! ### Uses of variables -/

/-- How a plain variable takes a value. -/
inductive AssignMode where
  /-- `$x = value` -/
  | plain
  /-- `$x += value`: the target is read as well; carries the range of the whole target -/
  | compound (span : Span)
  /-- `$x = &$y` -/
  | reference
  /-- The variable of a loop; carries the range of the whole target -/
  | iteration (span : Span)

/-- Assigns to a plain variable at `span`. -/
def assignVar (env : Env) (mode : AssignMode) (types : TypeSet) (name : String) (span : Span)
    (walk : Walk) : Walk :=
  let assigned := walk.mapScope (·.assign name types true)
  match mode with
  | .plain => assigned.track env name span
  | .compound _ => assigned.untrack env name
  | .reference => (assigned.share name).untrack env name
  | .iteration outer => assigned.track env name outer

/-- The range at which access to an assigned element is checked. -/
def AssignMode.elementSpan (own : Span) : AssignMode → Span
  | .compound outer => outer
  | .plain | .reference | .iteration _ => own

/-- Stores into an element of a plain variable: an empty array becomes an array of the value. -/
def storeInVar (env : Env) (types : TypeSet) (name : String) (span : Span) (walk : Walk) : Walk :=
  if (walk.scope.types? name).any (·.isJust TypeName.emptyArray) then
    (walk.mapScope (·.assign name types.inArray true)).untrack env name
  else
    (walk.mapScope (·.add name types.inArray true)).read env name span

/-- Passes a plain variable by reference: the call defines it. -/
def passVar (env : Env) (param : ParamInfo) (name : String) (walk : Walk) : Walk :=
  let types := if param.types.isEmpty then .mixed else param.types
  ((walk.mapScope (·.add name types true)).share name).untrack env name

/-- Takes a reference to a plain variable, which then exists. -/
def shareVar (env : Env) (name : String) (walk : Walk) : Walk :=
  let defined :=
    if walk.scope.has name then walk else walk.mapScope (·.add name (.named "null") true)
  (defined.share name).untrack env name

/-- Notes an assignment to a property of `$this` inside a class. -/
def assignOwnProperty (env : Env) (types : TypeSet) (object : Expr) (name : Option String)
    (walk : Walk) : Walk :=
  match name with
  | some name =>
    if object.variableName? == some "$this" && !env.naming.owner.isEmpty then
      walk.noteAssignment name false types
    else
      walk
  | none => walk

/-- Notes an assignment to a static property of the class around the code. -/
def assignOwnStatic (env : Env) (types : TypeSet) (ref : ClassRef) (name : Option String)
    (walk : Walk) : Walk :=
  match name with
  | some name =>
    if !env.naming.owner.isEmpty && ref.name? env.naming == some env.naming.owner then
      walk.noteAssignment name true types
    else
      walk
  | none => walk

/-- The types that a destructuring pattern gives to the slot at `position`. -/
def slotTypes (types : TypeSet) (position : Nat) (key : Option Expr) : TypeSet :=
  match key with
  | some key => Typing.elements types (Typing.literalKey? (some key))
  | none => Typing.elements types (some (toString position))

/-- A variable bound by reference in a destructuring pattern is exempt from being unused. -/
def shareSlot (byRef : Bool) (value : Expr) (walk : Walk) : Walk :=
  match byRef, value.variableName? with
  | true, some name => walk.share name
  | _, _ => walk

/-! ### Calls -/

/-- The function meant by a call, under its qualified name or its global one. -/
def callee? (env : Env) (name : String) : Option FunctionInfo :=
  let candidates := env.naming.functionName name
  env.index.function? candidates.name <|> candidates.fallback.bind env.index.function?

/-- The folded global name of a called function. -/
def globalName (env : Env) (name : String) : String :=
  let candidates := env.naming.functionName name
  Text.lower (candidates.fallback.getD candidates.name)

/-- What a call of some builtin functions does to the reports about its body. -/
def tolerate (function : String) (walk : Walk) : Walk :=
  match function with
  | "\\func_get_args" => { walk with toleratesUnused := true }
  | "\\extract" => { walk with toleratesUnused := true, toleratesUndefined := true }
  | _ => walk

/-- A call that raises a fatal user error. -/
def isFatalError (function : String) (args : List Arg) : Bool :=
  (function == "\\trigger_error" || function == "\\user_error") &&
    match args with
    | [_, level] =>
      match level.value.unparen.kind with
      | .constant name => Text.withoutRoot name == "E_USER_ERROR"
      | _ => false
    | _ => false

/-- The by-reference parameter that takes the argument at `position`, if there is one. -/
def refParam? (params : Option (List ParamInfo)) (position : Nat) : Option ParamInfo :=
  params.bind fun params =>
    (params[position]? <|> params.getLast?.filter (·.variadic)).filter (·.byRef)

def methodParams (found : Option FoundMethod) : Option (List ParamInfo) :=
  found.map (·.info.params)

/-- The constructor called by `new`. -/
def constructor? (env : Env) (ref : ClassRef) : Option FoundMethod :=
  (ref.name? env.naming).bind fun owner => Walk.lookupMethod? env owner "__construct"

def staticCallee? (env : Env) (ref : ClassRef) (method : Option String) : Option FoundMethod :=
  match ref.name? env.naming, method with
  | some owner, some method => Walk.lookupMethod? env owner method
  | _, _ => none

/-! ### Closures -/

/-- The scope in which the body of a closure starts, with `$this` unless the closure is static. -/
def closureScope (isStatic : Bool) (outer : Scope) : Scope :=
  if isStatic then
    .empty
  else
    match outer.types? "$this" with
    | some types =>
      if outer.inMethod then { (Scope.empty.add "$this" types true) with inMethod := true }
      else Scope.empty.add "$this" (.named "possibly_late_bound") true
    | none => Scope.empty.add "$this" (.named "possibly_late_bound") true

/-- Takes a variable into a closure: gives the walk around it and the scope inside it. -/
def capture (env : Env) (state : Walk × Scope) (captured : Capture) : Walk × Scope :=
  let (walk, inner) := state
  let checked :=
    if captured.byRef || walk.scope.has captured.name then
      walk
    else
      walk.issue env captured.span .error "undefined"
        s!"Cannot find referenced variable {captured.name}"
  let inner := inner.add captured.name ((walk.scope.types? captured.name).getD .empty) true
  let shared := if captured.byRef then checked.share captured.name else checked
  (shared.untrack env captured.name, inner)

/-- The walk at the start of a body with parameters: those by reference are never unused. -/
def startBody (scope : Scope) (params : List ParamInfo) (report : Report) : Walk :=
  (params.filter (·.byRef)).foldl (fun walk param => walk.share param.name)
    (.start scope report)

/-- The walk at the start of the body of a closure. -/
def startClosure (env : Env) (scope : Scope) (params : List ParamInfo) (captures : List Capture)
    (report : Report) : Walk :=
  captures.foldl (fun walk captured =>
    if captured.byRef then walk.share captured.name
    else walk.track env captured.name captured.span) (startBody scope params report)

/-- The scope in which the body of an arrow function starts. -/
def arrowScope (isStatic : Bool) (outer : Scope) : Scope :=
  match isStatic || !outer.inMethod, outer.types? "$this" with
  | false, some types => { (Scope.empty.add "$this" types true) with inMethod := true }
  | _, _ => .empty

/-! ### Branching statements -/

/-- The branches of an `if` walked so far. -/
structure Chain where
  walk : Walk
  branches : List Block
  /-- The number of paths that reach the end of the statement -/
  links : Nat
  markers : List String
  /-- The block in which every test so far is false -/
  no : Block

/-- Adds a branch that was walked to its end. -/
def Chain.push (initial : Scope) (chain : Chain) (branch : Block) (walk : Walk) : Chain :=
  { chain with
    walk
    branches := chain.branches ++ [branch.restoreImplicit initial]
    links := if branch.continues then chain.links + 1 else chain.links }

/-- Goes on in the block in which the test is false: the branch after it was left. -/
def Chain.continueInFalse (chain : Chain) : Walk :=
  { chain.walk with
    block :=
      { chain.no with
        possible := chain.no.possible ∪ chain.walk.block.possible
        deadCodeReported := chain.walk.block.deadCodeReported } }

/-- Joins the branches of an `if`. -/
def Chain.close (chain : Chain) (continuesInFalse : Bool) : Walk :=
  let walk := if continuesInFalse then chain.continueInFalse else chain.walk
  (walk.mapBlock fun block =>
    (block.propagate chain.branches chain.links).merge chain.branches chain.links).dropMarkers
      chain.markers

/-- Joins the two branches of a conditional expression, which cannot leave the block. -/
def closeTernary (initial : Scope) (yes no : Block) (markers : List String) (walk : Walk) : Walk :=
  let settle (branch : Block) : Block := { branch.restoreImplicit initial with exits := .none }
  (walk.mapBlock (·.merge [settle yes, settle no] 2)).dropMarkers markers

/-- The cases of a `switch` walked so far. -/
structure Cases where
  walk : Walk
  branches : List Block := []
  links : Nat := 0
  hasDefault : Bool := false

/-- The exits of a case that leave more than the `switch`. -/
def caseExits (branch : Block) : Exits :=
  branch.exits \ Exits.loopLocal

/-- Adds a case that was walked to its end. -/
def Cases.push (cases : Cases) (branch : Block) (walk : Walk) : Cases :=
  { cases with
    walk
    branches := cases.branches ++ [branch]
    links := if (caseExits branch).isEmpty then cases.links + 1 else cases.links }

/-- Joins the cases of a `switch`; without a default case it may be passed by. -/
def Cases.close (cases : Cases) : Walk :=
  let links := if cases.hasDefault then cases.links else cases.links + 1
  let possible :=
    cases.branches.foldl (fun exits branch => exits ∪ branch.possible) cases.walk.block.possible
  let taken := cases.branches.foldl (fun exits branch => exits ∪ caseExits branch) Exits.none
  let allLeave := cases.hasDefault && !cases.branches.isEmpty &&
    cases.branches.all fun branch => !(caseExits branch).isEmpty
  let settled := cases.branches.map fun branch => { branch with exits := caseExits branch }
  cases.walk.mapBlock fun block =>
    ({ block with
      possible
      exits := if allLeave then block.exits ∪ taken else block.exits } : Block).merge settled links

/-- Reports a case that runs into the next one without a comment that says so. -/
def checkCaseBreak (env : Env) (span : Span) (rest : List Case) (walk : Walk) : Walk :=
  match rest with
  | next :: _ =>
    if walk.block.continues && !next.announced then
      walk.issue env span .warning "caseBreak"
        "Add break or '// fallthrough' to the end of the case"
    else
      walk
  | [] => walk

/-- The state in which a `catch` or `finally` starts: any statement of the body may have thrown. -/
def afterThrow (block body : Block) : Block :=
  body.scope.entries.foldl (fun after (name, info) =>
    after.mapScope (·.add name info.types false)) block.child

/-- The catches walked so far. -/
structure Catches where
  walk : Walk
  branches : List Block := []
  links : Nat := 0

def Catches.push (catches : Catches) (branch : Block) (walk : Walk) : Catches where
  walk := walk
  branches := catches.branches ++ [branch]
  links := if branch.continues then catches.links + 1 else catches.links

/-- Binds the variable of a `catch`. -/
def bindCaught (env : Env) (types : List String) (name : Option String) (walk : Walk) : Walk :=
  match name with
  | some name =>
    let caught := TypeSet.ofList
      (types.map fun written => TypeValue.concrete (env.naming.className written))
    walk.mapScope (·.assign name caught true)
  | none => walk

/-- The exits of the body and the catches that a `return` in the last clause overrides. -/
def overridden (body : List Stmt) (tried : Block) (catches : List (List Stmt × Block)) :
    List ExitPoint :=
  let ofBody :=
    if tried.possible.meets (Exits.byReturn ∪ Exits.byDie) then
      ExitPoint.find body (tried.possible \ Exits.byThrow)
    else
      []
  ofBody ++ catches.flatMap fun (caught, block) =>
    let exits := block.possible \ Exits.byDie
    if exits.isEmpty then [] else ExitPoint.find caught exits

/-- Reports what a `finally` makes pointless, or why it is not reached. -/
def checkFinally (env : Env) (body : List Stmt) (tried : Block)
    (catches : List (List Stmt × Block)) (final : List Stmt) (finalSpan : Span) (finished : Block)
    (walk : Walk) : Walk :=
  match catches.findIdx? fun (_, block) => block.possible.dies with
  | some position =>
    walk.issue env finalSpan .error "deadCode"
      s!"Block finally is unreachable (because catch block {position + 1} contains a exit/die)"
  | none =>
    if finished.exits == Exits.byReturn then
      match ExitPoint.find final Exits.byReturn with
      | first :: _ =>
        let line := env.source.line first.span.start
        (overridden body tried catches).foldl (fun walk point =>
          walk.issue env point.span .error "deadCode"
            s!"{point.word} is unreachable (because finally block contains a return on line {line})")
          walk
      | [] => walk
    else
      walk

/-- Joins the body and the catches of a `try`. -/
def closeTry (tried : Block) (catches : Catches) : Walk :=
  let links := if tried.continues then catches.links + 1 else catches.links
  let allLeave := !tried.continues && catches.branches.all fun branch => !branch.continues
  let taken := catches.branches.foldl (fun exits branch => exits ∪ branch.exits) tried.exits
  let possible := catches.branches.foldl (fun exits branch => exits ∪ branch.possible)
    catches.walk.block.possible ∪ tried.possible
  catches.walk.mapBlock fun block =>
    let merged := { block with possible }.merge (catches.branches ++ [tried]) links
    { merged with exits := if allLeave then merged.exits ∪ taken else merged.exits }

/-- Joins the last clause of a `try`: what it defines is defined, and its exit is final. -/
def closeFinally (finished : Block) (walk : Walk) : Walk :=
  walk.mapBlock fun block =>
    let joined := block.mapScope fun scope =>
      finished.scope.entries.foldl (fun scope (name, info) =>
        scope.add name info.types (finished.continues && info.always)) scope
    { joined with
      possible := joined.possible ∪ finished.possible
      exits := if finished.continues then joined.exits else finished.exits }

/-! ### Loops -/

/-- Runs the body of a loop, which may not run at all. -/
def loop (body : Walk → Walk) (walk : Walk) : Walk :=
  let (branch, walk) := walk.within { walk.block.child with insideLoop := true } body
  walk.mapBlock (·.mergeOptional branch)

/-- The types of the keys of a collection. -/
def keyTypes : TypeSet :=
  .ofList [.concrete "int", .concrete "string"]

/-- Reports a key of `foreach` that the body does not read. -/
def checkForeachKey (env : Env) (key : Option Expr) (value : Expr) (walk : Walk) : Walk :=
  match key with
  | none => walk
  | some key =>
    match key.variableName?, value.variableName? with
    | some keyName, some valueName =>
      if env.options.isDiscard keyName || !walk.unread.contains keyName then
        walk
      else
        (walk.untrack env keyName).issue env key.span .warning "unused"
          s!"Foreach key {keyName} is unused, can simplify {keyName} => {valueName} to just {valueName}"
    | _, _ => walk

/-! ### The walk -/

mutual

/-- Walks an expression whose value is read. -/
def walkExpr (env : Env) : Expr → Walk → Walk
  | ⟨kind, span⟩, walk => walkKind env span kind walk

def walkKind (env : Env) (span : Span) : ExprKind → Walk → Walk
  | .var name, walk => walk.read env name span
  | .dynamicVar reads, walk | .interpolated reads, walk | .unmodeled reads, walk =>
    walk.readAll env reads span
  | .print reads, walk => walk.impure.readAll env reads span
  | .integer, walk | .float, walk | .string _, walk | .boolean _, walk | .null, walk
  | .magic _, walk | .constant _, walk => walk
  | .paren inner, walk | .clone inner, walk | .unary _ inner, walk | .property inner _ _, walk =>
    walkExpr env inner walk
  | .array items, walk | .list items, walk => walkItems env items walk
  | .element base index, walk =>
    walkOptional env index (walkExpr env base (walk.checkArrayAccess env base span))
  | .assign target value op byRef, walk =>
    if byRef then
      let walk := walkShared env value walk
      walkAssign env .reference (walk.localType env value) target walk
    else
      let walk := walkExpr env value walk
      match op with
      | .assign => walkAssign env .plain (walk.localType env value) target walk
      | _ =>
        let types := walk.localType env ⟨.assign target value op byRef, span⟩
        walkAssign env (.compound target.span) types target walk
  | .binary op left right, walk =>
    match op with
    | .coalesce => (walkProbe env left walk).conditionally (walkExpr env right)
    | .and | .or | .lowOr => (walkExpr env left walk).conditionally (walkExpr env right)
    | _ => walkExpr env right (walkExpr env left walk)
  | .instanceOf subject ref, walk => walkRef env ref (walkExpr env subject walk)
  | .ternary test none no, walk => (walkExpr env test walk).conditionally (walkExpr env no)
  | .ternary test (some yes) no, walk =>
    let initial := walk.scope
    let split := (walkTest env false false test (.start walk [])).split walk.block
    let (yesBlock, walk) := split.walk.within split.yes (walkExpr env yes)
    let (noBlock, walk) := walk.within split.no (walkExpr env no)
    closeTernary initial yesBlock noBlock split.markers walk
  | .call name args, walk =>
    let function := globalName env name
    if function == "\\compact" then
      walkCompactArgs env args walk
    else
      let callee := callee? env name
      let walk := tolerate function walk
      let walk := if callee.any (·.isPure) then walk else walk.impure
      let walk := walkArgs env (callee.map (·.params)) 0 args walk
      let walk := match callee with
        | some info => walk.leaveByCallee env info.exits
        | none => walk
      if isFatalError function args && !env.options.ignoreTriggerError then walk.leave .byDie
      else walk
  | .callValue callee args, walk => walkArgs env none 0 args (walkExpr env callee walk.impure)
  | .methodCall object method args _, walk =>
    let walk := walkExpr env object walk.impure
    let found := method.bind (walk.lookupMethodOf? env object)
    (walkArgs env (methodParams found) 0 args walk).leaveByFound env found
  | .staticCall ref method args, walk =>
    let found := staticCallee? env ref method
    (walkArgs env (methodParams found) 0 args (walkRef env ref walk.impure)).leaveByFound env found
  | .staticProperty ref _, walk | .classConstant ref _, walk => walkRef env ref walk
  | .new ref args, walk =>
    walkArgs env (methodParams (constructor? env ref)) 0 args (walkRef env ref walk.impure)
  | .isset values, walk => walkProbes env values walk
  | .isEmpty value, walk => walkProbe env value walk
  | .exit _ reads, walk => (walk.impure.readAll env reads span).leave .byDie
  | .includeFile path, walk => walkExpr env path walk.impure
  | .throw exception, walk => (walkExpr env exception walk).leave .byThrow
  | .closure params captures _ isStatic body, walk =>
    let (walk, scope) := captures.foldl (capture env) (walk, closureScope isStatic walk.scope)
    let described := Param.describe env.naming none params
    let inner := { env with enclosing := [] }
    let started := startClosure inner (scope.bind described) described captures walk.report
    { walk with report := ((walkStmts inner body started).flushUnused inner).report }
  | .arrow params _ isStatic body, walk =>
    let described := Param.describe env.naming none params
    let inner := { env with enclosing := walk.scope :: env.enclosing }
    let after := walkExpr inner body
      (.start ((arrowScope isStatic walk.scope).bind described) walk.report)
    after.captured.foldl (fun walk name => walk.untrack env name)
      { walk with report := after.report }
  | .matchOn subject arms, walk => walkArms env arms (walkExpr env subject walk)
  | .yield key value, walk => walkOptional env value (walkOptional env key walk.impure)
  | .yieldFrom source, walk => walkExpr env source walk.impure

def walkExprs (env : Env) : List Expr → Walk → Walk
  | [], walk => walk
  | value :: rest, walk => walkExprs env rest (walkExpr env value walk)

def walkOptional (env : Env) : Option Expr → Walk → Walk
  | none, walk => walk
  | some value, walk => walkExpr env value walk

/-- Walks operands that may be skipped. -/
def walkConditionals (env : Env) : List Expr → Walk → Walk
  | [], walk => walk
  | value :: rest, walk => walkConditionals env rest (walk.conditionally (walkExpr env value))

def walkItems (env : Env) : List Item → Walk → Walk
  | [], walk => walk
  | .skip :: rest, walk => walkItems env rest walk
  | .entry key value _ _ :: rest, walk =>
    walkItems env rest (walkExpr env value (walkOptional env key walk))

def walkRef (env : Env) : ClassRef → Walk → Walk
  | .dynamic value, walk => walkExpr env value walk
  | .named _, walk | .self, walk | .static, walk | .parent, walk => walk

def walkArms (env : Env) : List MatchArm → Walk → Walk
  | [], walk => walk
  | ⟨conditions, body⟩ :: rest, walk =>
    walkArms env rest
      ((walkConditionals env conditions walk).conditionally (walkExpr env body))

/-- Walks an operand of `isset`, `empty` or the left of `??`: it may be undefined. -/
def walkProbe (env : Env) : Expr → Walk → Walk
  | ⟨kind, span⟩, walk =>
    let read := walkKind env span kind
    match kind with
    | .paren inner => walkProbe env inner walk
    | .var name => walk.untrack env name
    | .element base index => walkOptional env index (walkProbe env base walk)
    | .property object _ _ => walkProbe env object walk
    | _ => read walk

def walkProbes (env : Env) : List Expr → Walk → Walk
  | [], walk => walk
  | value :: rest, walk => walkProbes env rest (walkProbe env value walk)

/-- Walks the target of an assignment of a value with the given types. -/
def walkAssign (env : Env) (mode : AssignMode) (types : TypeSet) : Expr → Walk → Walk
  | ⟨kind, span⟩, walk =>
    let read := walkKind env span kind
    match kind with
    | .var name => assignVar env mode types name span walk
    | .paren inner => walkAssign env mode types inner walk
    | .element base index =>
      let walk := walk.checkArrayAccess env base (mode.elementSpan span)
      walkOptional env index (walkStore env types base.span base walk)
    | .list items | .array items => walkPattern env types 0 items walk
    | .property object name _ =>
      walkExpr env object (assignOwnProperty env types object name walk.impure)
    | .staticProperty ref name =>
      walkRef env ref (assignOwnStatic env types ref name walk.impure)
    | _ => read walk

/-- Walks the slots of a destructuring pattern. -/
def walkPattern (env : Env) (types : TypeSet) (position : Nat) : List Item → Walk → Walk
  | [], walk => walk
  | .skip :: rest, walk => walkPattern env types position rest walk
  | .entry key value byRef _ :: rest, walk =>
    let walk := shareSlot byRef value (walkOptional env key walk)
    walkPattern env types (position + 1) rest
      (walkAssign env .plain (slotTypes types position key) value walk)

/-- Walks the container, at `outer`, of an element that is assigned a value of the given types. -/
def walkStore (env : Env) (types : TypeSet) (outer : Span) : Expr → Walk → Walk
  | ⟨kind, span⟩, walk =>
    let read := walkKind env span kind
    match kind with
    | .paren inner => walkStore env types outer inner walk
    | .var name => storeInVar env types name outer walk
    | .element base index =>
      let walk := walk.checkArrayAccess env base outer
      walkOptional env index (walkStore env types.inArray base.span base walk)
    | .property .. | .staticProperty .. => read walk.impure
    | _ => read walk

/-- Walks an operand to which a reference is taken. -/
def walkShared (env : Env) : Expr → Walk → Walk
  | ⟨kind, span⟩, walk =>
    let read := walkKind env span kind
    match kind with
    | .paren inner => walkShared env inner walk
    | .var name => shareVar env name walk
    | _ => read walk

/-- Walks arguments in order; those for by-reference parameters are defined by the call. -/
def walkArgs (env : Env) (params : Option (List ParamInfo)) (position : Nat) :
    List Arg → Walk → Walk
  | [], walk => walk
  | ⟨value, _, _⟩ :: rest, walk =>
    let walk := match refParam? params position with
      | some param => walkPassed env param value.span value walk
      | none => walkExpr env value walk
    walkArgs env params (position + 1) rest walk

/-- Walks the argument, at `outer`, for a by-reference parameter. -/
def walkPassed (env : Env) (param : ParamInfo) (outer : Span) : Expr → Walk → Walk
  | ⟨kind, span⟩, walk =>
    let read := walkKind env span kind
    match kind with
    | .paren inner => walkPassed env param outer inner walk
    | .var name => passVar env param name walk
    | .element base index =>
      let walk := walk.checkArrayAccess env base outer
      walkOptional env index (walkStore env .mixed base.span base walk)
    | _ => read walk

/-- Walks the arguments of `compact`, which reads the variables it names. -/
def walkCompactArgs (env : Env) : List Arg → Walk → Walk
  | [], walk => walk
  | ⟨value, _, _⟩ :: rest, walk =>
    walkCompactArgs env rest (walkCompact env value.span value walk)

def walkCompact (env : Env) (outer : Span) : Expr → Walk → Walk
  | ⟨kind, span⟩, walk =>
    let read := walkKind env span kind
    match kind with
    | .paren inner => walkCompact env outer inner walk
    | .string (some name) => walk.read env ("$" ++ name) outer
    | .array items => walkCompactItems env items walk
    | _ => read walk

def walkCompactItems (env : Env) : List Item → Walk → Walk
  | [], walk => walk
  | .skip :: rest, walk => walkCompactItems env rest walk
  | .entry _ value _ _ :: rest, walk =>
    walkCompactItems env rest (walkCompact env value.span value walk)

/-- Walks a condition, or a part of one that stands under negations and logical operators. -/
def walkTest (env : Env) (negated inLogic : Bool) : Expr → Guard → Guard
  | ⟨kind, span⟩, guard =>
    let read := walkKind env span kind
    match kind with
    | .paren inner => walkTest env negated inLogic inner guard
    | .binary .and left right | .binary .or left right =>
      (walkTest env negated true left guard).conditionally (walkTest env negated true right)
    | .unary .not operand =>
      walkTest env (!negated) inLogic operand (guard.markNotEmpty negated operand)
    | .isset values => (guard.markIsset negated values).mapWalk (walkProbes env values)
    | .instanceOf subject ref =>
      (guard.mapWalk fun walk => walkRef env ref (walkExpr env subject walk)).narrowTo env.naming
        subject ref negated inLogic
    | _ => guard.mapWalk read

/-- Walks statements in order. -/
def walkStmts (env : Env) : List Stmt → Walk → Walk
  | [], walk => walk
  | stmt :: rest, walk => walkStmts env rest (walkStmt env stmt walk)

def walkStmt (env : Env) : Stmt → Walk → Walk
  | ⟨kind, span⟩, walk => walkStmtKind env kind (walk.checkDeadCode env ⟨kind, span⟩)

def walkStmtKind (env : Env) : StmtKind → Walk → Walk
  | .expr value, walk => walkExpr env value walk
  | .echo values, walk => walkExprs env values walk.impure
  | .returns none, walk => ({ walk with bareReturn := true } : Walk).leave .byReturn
  | .returns (some value), walk =>
    let walk := walkExpr env value walk
    ({ walk with
      returnTypes := walk.returnTypes.append (walk.localType env value)
      returnsValue := true } : Walk).leave .byReturn
  | .breaks, walk => walk.leave .byBreak
  | .continues, walk => walk.leave .byContinue
  | .block body, walk => walkStmts env body walk
  | .branch test body _ rest, walk =>
    let initial := walk.scope
    let split := (walkTest env false false test (.start walk [])).split walk.block
    let (branch, walk) := split.walk.within split.yes (walkStmts env body)
    let continuesInFalse := !branch.continues && test.isNarrowing &&
      match rest with
      | .nothing => true
      | _ => false
    let chain : Chain :=
      { walk, branches := [], links := 0, markers := split.markers, no := split.no }
    (walkOtherwise env initial rest (chain.push initial branch walk)).close continuesInFalse
  | .whileLoop test body, walk => loop (walkStmts env body) (walkExpr env test walk)
  | .doWhile body test, walk =>
    let entered := walk.mapBlock fun block => { block with insideLoop := true }
    (walkExpr env test (walkStmts env body entered)).mapBlock fun block =>
      { block with
        insideLoop := walk.block.insideLoop
        exits := block.exits \ Exits.loopLocal }
  | .forLoop init test step body, walk =>
    loop (walkStmts env body)
      (walkExprs env step (walkExprs env test (walkExprs env init walk)))
  | .foreach subject key value byRef body, walk =>
    let walk := walkExpr env subject walk
    let elements := (walk.localType env subject).element
    let (branch, walk) := walk.within walk.block.child fun walk =>
      let walk := walkAssign env (.iteration value.span) elements value
        (shareSlot byRef value walk)
      let walk := walkKey env key walk
      walkStmts env body (walk.mapBlock fun block => { block with insideLoop := true })
    checkForeachKey env key value (walk.mapBlock (·.mergeOptional branch))
  | .switch subject cases, walk =>
    (walkCases env cases { walk := walkExpr env subject walk }).close
  | .tryCatch body catches final finalSpan, walk =>
    let (tried, walk) := walk.within walk.block.child (walkStmts env body)
    let thrown := afterThrow walk.block tried
    let caught := walkCatches env thrown catches { walk }
    let bodies := (catches.map (·.body)).zip caught.branches
    match final with
    | none => closeTry tried caught
    | some last =>
      let (finished, walk) := caught.walk.within thrown.child (walkStmts env last)
      let walk := checkFinally env body tried bodies last finalSpan finished walk
      closeFinally finished (closeTry tried { caught with walk })
  | .global names, walk =>
    names.foldl (fun walk name =>
      ((walk.mapScope fun scope =>
        scope.assign name (.singleton (.global (Text.withoutDollar name))) true).share
          name).untrack env name) walk.impure
  | .static bindings, walk => walkStatics env bindings walk.impure
  | .unset names, walk =>
    names.foldl (fun walk name => (walk.untrack env name).mapScope (·.erase name)) walk
  | .constants items, walk => walkConstItems env items walk
  | .namespaced _ _, walk | .imports _, walk | .function _, walk | .classLike _, walk
  | .nop, walk => walk

/-- Walks the key of `foreach`. -/
def walkKey (env : Env) : Option Expr → Walk → Walk
  | none, walk => walk
  | some key, walk => walkAssign env (.iteration key.span) keyTypes key walk

/-- Walks the branches after the first one of an `if`. -/
def walkOtherwise (env : Env) (initial : Scope) : Otherwise → Chain → Chain
  | .nothing, chain => { chain with links := chain.links + 1 }
  | .orElse body, chain =>
    let (branch, walk) := chain.walk.within chain.no (walkStmts env body)
    chain.push initial branch walk
  | .orIf test body _ rest, chain =>
    let outer := chain.walk.block
    let inner : Walk := { chain.walk with block := chain.no }
    let split := (walkTest env false false test (.start inner chain.markers)).split chain.no
    let walk : Walk := { split.walk with block := outer }
    let (branch, walk) := walk.within split.yes (walkStmts env body)
    walkOtherwise env initial rest
      (({ chain with markers := split.markers, no := split.no } : Chain).push initial branch walk)

/-- Walks the cases of a `switch`, each with the cases it falls through to. -/
def walkCases (env : Env) : List Case → Cases → Cases
  | [], cases => cases
  | ⟨test, body, span, _⟩ :: rest, cases =>
    let walk := walkOptional env test cases.walk
    let cases : Cases := { cases with walk, hasDefault := cases.hasDefault || test.isNone }
    if body.isEmpty then
      walkCases env rest cases
    else
      let (branch, walk) := walk.within walk.block.child fun walk =>
        let walk := checkCaseBreak env span rest (walkStmts env body walk)
        if walk.block.continues then walk.silently (walkFallThrough env rest) else walk
      walkCases env rest (cases.push branch walk)

/-- Walks the bodies of the following cases until one leaves. -/
def walkFallThrough (env : Env) : List Case → Walk → Walk
  | [], walk => walk
  | ⟨_, body, _, _⟩ :: rest, walk =>
    let walk := walkStmts env body walk
    if walk.block.continues then walkFallThrough env rest walk else walk

def walkCatches (env : Env) (thrown : Block) : List Catch → Catches → Catches
  | [], catches => catches
  | ⟨types, name, body, _⟩ :: rest, catches =>
    let (branch, walk) := catches.walk.within thrown.child fun walk =>
      walkStmts env body (bindCaught env types name walk)
    walkCatches env thrown rest (catches.push branch walk)

def walkStatics (env : Env) : List Binding → Walk → Walk
  | [], walk => walk
  | ⟨name, value, _⟩ :: rest, walk =>
    let walk := walkOptional env value walk
    let types := (value.map (walk.localType env)).getD .empty
    walkStatics env rest (((walk.mapScope (·.add name types true)).share name).untrack env name)

def walkConstItems (env : Env) : List ConstItem → Walk → Walk
  | [], walk => walk
  | ⟨_, value, _⟩ :: rest, walk => walkConstItems env rest (walkExpr env value walk)

end

/-! ### Empty sequences -/

section

variable (env : Env) (walk : Walk)

theorem walkExprs_nil : walkExprs env [] walk = walk := by
  rw [walkExprs]

theorem walkOptional_none : walkOptional env none walk = walk := by
  rw [walkOptional]

theorem walkConditionals_nil : walkConditionals env [] walk = walk := by
  rw [walkConditionals]

theorem walkItems_nil : walkItems env [] walk = walk := by
  rw [walkItems]

theorem walkArms_nil : walkArms env [] walk = walk := by
  rw [walkArms]

theorem walkProbes_nil : walkProbes env [] walk = walk := by
  rw [walkProbes]

theorem walkPattern_nil (types : TypeSet) (position : Nat) :
    walkPattern env types position [] walk = walk := by
  rw [walkPattern]

theorem walkArgs_nil (params : Option (List ParamInfo)) (position : Nat) :
    walkArgs env params position [] walk = walk := by
  rw [walkArgs]

theorem walkCompactArgs_nil : walkCompactArgs env [] walk = walk := by
  rw [walkCompactArgs]

theorem walkCompactItems_nil : walkCompactItems env [] walk = walk := by
  rw [walkCompactItems]

theorem walkStmts_nil : walkStmts env [] walk = walk := by
  rw [walkStmts]

theorem walkKey_none : walkKey env none walk = walk := by
  rw [walkKey]

theorem walkOtherwise_nothing (initial : Scope) (chain : Chain) :
    walkOtherwise env initial .nothing chain = { chain with links := chain.links + 1 } := by
  rw [walkOtherwise]

theorem walkCases_nil (cases : Cases) : walkCases env [] cases = cases := by
  rw [walkCases]

theorem walkFallThrough_nil : walkFallThrough env [] walk = walk := by
  rw [walkFallThrough]

theorem walkCatches_nil (thrown : Block) (catches : Catches) :
    walkCatches env thrown [] catches = catches := by
  rw [walkCatches]

theorem walkStatics_nil : walkStatics env [] walk = walk := by
  rw [walkStatics]

theorem walkConstItems_nil : walkConstItems env [] walk = walk := by
  rw [walkConstItems]

end

/-! ### Parentheses -/

section

variable (env : Env) (inner : Expr) (span : Span)

theorem walkKind_paren (walk : Walk) :
    walkKind env span (.paren inner) walk = walkExpr env inner walk := by
  rw [walkKind]

theorem walkProbe_paren (walk : Walk) :
    walkProbe env ⟨.paren inner, span⟩ walk = walkProbe env inner walk := by
  rw [walkProbe]

theorem walkAssign_paren (mode : AssignMode) (types : TypeSet) (walk : Walk) :
    walkAssign env mode types ⟨.paren inner, span⟩ walk = walkAssign env mode types inner walk := by
  rw [walkAssign]

theorem walkStore_paren (types : TypeSet) (outer : Span) (walk : Walk) :
    walkStore env types outer ⟨.paren inner, span⟩ walk = walkStore env types outer inner walk := by
  rw [walkStore]

theorem walkShared_paren (walk : Walk) :
    walkShared env ⟨.paren inner, span⟩ walk = walkShared env inner walk := by
  rw [walkShared]

theorem walkPassed_paren (param : ParamInfo) (outer : Span) (walk : Walk) :
    walkPassed env param outer ⟨.paren inner, span⟩ walk =
      walkPassed env param outer inner walk := by
  rw [walkPassed]

theorem walkCompact_paren (outer : Span) (walk : Walk) :
    walkCompact env outer ⟨.paren inner, span⟩ walk = walkCompact env outer inner walk := by
  rw [walkCompact]

theorem walkTest_paren (negated inLogic : Bool) (guard : Guard) :
    walkTest env negated inLogic ⟨.paren inner, span⟩ guard =
      walkTest env negated inLogic inner guard := by
  rw [walkTest]

end

/-! ### Blocks -/

theorem walkStmtKind_block (env : Env) (body : List Stmt) (walk : Walk) :
    walkStmtKind env (.block body) walk = walkStmts env body walk := by
  rw [walkStmtKind]

/-- Walks a whole body and reports its unused variables. -/
def walkBody (env : Env) (body : List Stmt) (walk : Walk) : Walk :=
  (walkStmts env body walk).flushUnused env

end PhpAudit.Flow
