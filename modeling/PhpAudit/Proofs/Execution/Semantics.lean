/-
This file gives every expression and statement its set of runs. Operands are evaluated in the order
of the language; what a value decides is left open, so both outcomes of a test are runs, and so are
all ways through a chain of operands that may be skipped.

Two things are taken from the index: which parameters of a recorded callee take references, and that
a callee recorded as never returning does not return. An operator whose text could not be
read may be any operator, also one that skips its right operand.
-/

import PhpAudit.Flow.Body
import PhpAudit.Proofs.Execution.Run

namespace PhpAudit.Execution

open Runs

/-! ### Variables -/

/-- A read of a variable; a handler of warnings may turn it into an exception. -/
def read (name : String) (span : Span) : Runs Abort :=
  (emit (.read name span)).seq attempt

def readAll (span : Span) : List String → Runs Abort
  | [] => done
  | name :: rest => (read name span).seq (readAll span rest)

/-- The variables that a closure takes with it: those by reference are bound, the others read. -/
def captures : List Capture → Runs Abort
  | [] => done
  | captured :: rest =>
    (if captured.byRef then emit (.write captured.name captured.span)
      else read captured.name captured.span).seq (captures rest)

/-! ### Callees -/

/-- Whether a call by name may come back: no recorded exit and no fatal error forbids it. -/
def mayReturn (env : Env) (name : String) (args : List Arg) : Bool :=
  !(Flow.callee? env name).any (·.neverReturns) &&
    !(Flow.isFatalError (Flow.globalName env name) args && !env.options.ignoreTriggerError)

def methodMayReturn (found : Option FoundMethod) : Bool :=
  !found.any (·.info.neverReturns)

/-- Whether a null object anywhere in a chain of fetches and calls cuts off the rest of it. -/
def mayCutOff : Expr → Bool
  | ⟨.paren inner, _⟩ => mayCutOff inner
  | ⟨.property object _ nullsafe, _⟩ | ⟨.methodCall object _ _ nullsafe, _⟩ =>
    nullsafe || mayCutOff object
  | ⟨.element base _, _⟩ => mayCutOff base
  | _ => false

/-- Operands that a null object may cut off. -/
def unlessCutOff (cuts : Bool) (operands : Runs Abort) : Runs Abort :=
  if cuts then optional operands else operands

/-- The operators that also store into their operand. -/
def steps : UnaryOp → Bool
  | .preIncrement | .preDecrement | .postIncrement | .postDecrement => true
  | _ => false

/-! ### Expressions and statements -/

/-- Binds the exception that a clause catches, if the clause names it. -/
def bindException (span : Span) : Option String → Runs Leave
  | some name => emit (.write name span)
  | none => done

theorem endsIn_bindException (span : Span) (name : Option String) (exit : Leave) :
    ¬ (bindException span name).EndsIn (some exit) := by
  cases name <;> simp [bindException]

mutual

/-- The runs of an expression whose value is read. -/
def evaluate (env : Env) : Expr → Runs Abort
  | ⟨kind, span⟩ => evaluateKind env span kind

def evaluateKind (env : Env) (span : Span) : ExprKind → Runs Abort
  | .var name => read name span
  | .dynamicVar reads | .interpolated reads | .unmodeled reads | .print reads =>
    (readAll span reads).seq attempt
  | .integer | .float | .string _ | .boolean _ | .null | .magic _ => done
  | .constant _ => attempt
  | .paren inner => evaluate env inner
  | .clone inner | .includeFile inner | .yieldFrom inner => (evaluate env inner).seq attempt
  | .unary op operand =>
    ((evaluate env operand).seq attempt).seq (if steps op then store env operand else done)
  | .property object _ _ => (evaluate env object).seq attempt
  | .array items | .list items => evaluateItems env items
  | .element base index =>
    (evaluate env base).seq
      (unlessCutOff (mayCutOff base) ((evaluateOptional env index).seq attempt))
  | .assign target value op byRef =>
    if byRef then
      ((place env target).seq (bindReference env value)).seq (store env target)
    else
      match op with
      | .coalesce =>
        (probe env target).seq (optional (((place env target).seq (evaluate env value)).seq
          (store env target)))
      | .assign => ((place env target).seq (evaluate env value)).seq (store env target)
      | _ =>
        -- the old value is taken after the operands of the target
        ((place env target).seq (evaluate env value)).seq ((fetch env target).seq
          (attempt.seq (store env target)))
  | .binary op left right =>
    match op with
    | .coalesce => (probe env left).seq (optional (evaluate env right))
    | .and | .or | .lowOr => (evaluate env left).seq (optional (evaluate env right))
    | .other => (evaluate env left).seq (optional ((evaluate env right).seq attempt))
    | _ => (evaluate env left).seq ((evaluate env right).seq attempt)
  | .instanceOf subject ref => (evaluate env subject).seq ((evaluateRef env ref).seq attempt)
  | .ternary test none no => (evaluate env test).seq (optional (evaluate env no))
  | .ternary test (some yes) no =>
    (evaluate env test).seq (evaluate env yes ∪ evaluate env no)
  | .call name args =>
    if Flow.globalName env name == "\\compact" then
      (evaluateCompactArgs env args).seq attempt
    else
      (evaluateArgs env ((Flow.callee? env name).map (·.params)) 0 args).seq
        (callee (mayReturn env name args))
  | .callValue function args =>
    (evaluate env function).seq ((evaluateArgs env none 0 args).seq attempt)
  | .methodCall object _ args nullsafe =>
    (evaluate env object).seq (unlessCutOff (nullsafe || mayCutOff object)
      ((evaluateArgs env none 0 args).seq attempt))
  | .staticCall ref method args =>
    let found := Flow.staticCallee? env ref method
    (evaluateRef env ref).seq
      ((evaluateArgs env (Flow.methodParams found) 0 args).seq
        (callee (methodMayReturn found)))
  | .staticProperty ref _ | .classConstant ref _ => (evaluateRef env ref).seq attempt
  | .new ref args =>
    (evaluateRef env ref).seq
      ((evaluateArgs env (Flow.methodParams (Flow.constructor? env ref)) 0 args).seq attempt)
  | .isset values => probeAll env values
  | .isEmpty value => probe env value
  | .exit _ reads => (readAll span reads).seq (callee false)
  | .throw exception => (evaluate env exception).seq (leave .thrown)
  | .closure _ captured _ _ _ => captures captured
  | .arrow .. => done
  | .matchOn subject arms =>
    (evaluate env subject).seq (evaluateArms env (evaluateDefault env arms) arms)
  | .yield key value => (evaluateOptional env key).seq ((evaluateOptional env value).seq attempt)

def evaluateAll (env : Env) : List Expr → Runs Abort
  | [] => done
  | value :: rest => (evaluate env value).seq (evaluateAll env rest)

def evaluateOptional (env : Env) : Option Expr → Runs Abort
  | none => done
  | some value => evaluate env value

def evaluateItems (env : Env) : List Item → Runs Abort
  | [] => done
  | .skip :: rest => evaluateItems env rest
  | .entry key value _ _ :: rest =>
    ((evaluateOptional env key).seq (evaluate env value)).seq (evaluateItems env rest)

def evaluateRef (env : Env) : ClassRef → Runs Abort
  | .dynamic value => evaluate env value
  | .named _ | .self | .static | .parent => done

/-- The arguments of a call; a callee that is not known takes values. -/
def evaluateArgs (env : Env) (params : Option (List ParamInfo)) (position : Nat) :
    List Arg → Runs Abort
  | [] => done
  | ⟨value, _, _⟩ :: rest =>
    (match Flow.refParam? params position with
      | some _ => pass env value
      | none => evaluate env value).seq (evaluateArgs env params (position + 1) rest)

/-- An argument that is passed by reference: a variable then exists. -/
def pass (env : Env) : Expr → Runs Abort
  | ⟨kind, span⟩ =>
    let other := evaluateKind env span kind
    match kind with
    | .paren inner => pass env inner
    | .var name => emit (.write name span)
    | .element base index =>
      ((container env base).seq (evaluateOptional env index)).seq (attempt.seq (store env base))
    | _ => other

/-- The arguments of `compact`, which reads the variables it names. -/
def evaluateCompactArgs (env : Env) : List Arg → Runs Abort
  | [] => done
  | ⟨value, _, _⟩ :: rest => (evaluateCompact env value).seq (evaluateCompactArgs env rest)

def evaluateCompact (env : Env) : Expr → Runs Abort
  | ⟨kind, span⟩ =>
    let other := evaluateKind env span kind
    match kind with
    | .paren inner => evaluateCompact env inner
    | .string (some name) => read ("$" ++ name) span
    | .array items => evaluateCompactItems env items
    | _ => other

def evaluateCompactItems (env : Env) : List Item → Runs Abort
  | [] => done
  | .skip :: rest => evaluateCompactItems env rest
  | .entry _ value _ _ :: rest =>
    (evaluateCompact env value).seq (evaluateCompactItems env rest)

/-- Compares with the conditions of an arm in turn; `hit` is its body, `miss` what comes after. -/
def evaluateConditions (env : Env) (hit miss : Runs Abort) : List Expr → Runs Abort
  | [] => miss
  | condition :: rest =>
    (evaluate env condition).seq (hit ∪ evaluateConditions env hit miss rest)

def evaluateArms (env : Env) (otherwise : Runs Abort) : List MatchArm → Runs Abort
  | [] => otherwise
  | ⟨conditions, body⟩ :: rest =>
    evaluateConditions env (evaluate env body) (evaluateArms env otherwise rest) conditions

/-- The default arm; without one a value that no arm accepts is an error. -/
def evaluateDefault (env : Env) : List MatchArm → Runs Abort
  | [] => leave .thrown
  | ⟨conditions, body⟩ :: rest =>
    let own := evaluate env body
    let others := evaluateDefault env rest
    if conditions.isEmpty then own else others

/-- An operand that may be undefined. -/
def probe (env : Env) : Expr → Runs Abort
  | ⟨kind, span⟩ =>
    let other := evaluateKind env span kind
    match kind with
    | .paren inner => probe env inner
    | .var name => emit (.probe name span)
    | .element base index =>
      (probe env base).seq (unlessCutOff (mayCutOff base)
        ((evaluateOptional env index).seq attempt))
    | .property object _ _ => (probe env object).seq attempt
    | _ => other

/-- The operands of `isset`: the first that is not set ends the test. -/
def probeAll (env : Env) : List Expr → Runs Abort
  | [] => done
  | value :: rest => (probe env value).seq (optional (probeAll env rest))

/-- Evaluates the operands in the target of an assignment. -/
def place (env : Env) : Expr → Runs Abort
  | ⟨kind, span⟩ =>
    let other := evaluateKind env span kind
    match kind with
    | .var _ | .list _ | .array _ => done
    | .paren inner => place env inner
    | .element base index => (container env base).seq (evaluateOptional env index)
    | .property object _ _ => evaluate env object
    | .staticProperty ref _ => evaluateRef env ref
    | _ => other

/-- Evaluates the operands in the container of an element that is stored into. -/
def container (env : Env) : Expr → Runs Abort
  | ⟨kind, span⟩ =>
    let other := evaluateKind env span kind
    match kind with
    | .var _ => done
    | .paren inner => container env inner
    | .element base index => (container env base).seq (evaluateOptional env index)
    | _ => other

/-- Takes the old value of a target whose operands were evaluated. -/
def fetch (env : Env) : Expr → Runs Abort
  | ⟨kind, span⟩ =>
    match kind with
    | .var name => read name span
    | .paren inner => fetch env inner
    | .element base _ => (fetch env base).seq attempt
    | _ => attempt

/-- Stores into a target whose operands were evaluated. -/
def store (env : Env) : Expr → Runs Abort
  | ⟨kind, span⟩ =>
    match kind with
    | .var name => emit (.write name span)
    | .paren inner => store env inner
    | .element base _ => attempt.seq (store env base)
    | .list items | .array items => storeItems env items
    | _ => attempt

/-- Stores into the slots of a destructuring pattern. -/
def storeItems (env : Env) : List Item → Runs Abort
  | [] => done
  | .skip :: rest => storeItems env rest
  | .entry key value _ _ :: rest =>
    ((evaluateOptional env key).seq ((place env value).seq (attempt.seq (store env value)))).seq
      (storeItems env rest)

/-- Takes a reference to an operand; a variable then exists. -/
def bindReference (env : Env) : Expr → Runs Abort
  | ⟨kind, span⟩ =>
    let other := evaluateKind env span kind
    match kind with
    | .paren inner => bindReference env inner
    | .var name => emit (.write name span)
    | _ => other

/-- The runs of a list of statements. -/
def execute (env : Env) : List Stmt → Runs Leave
  | [] => done
  | stmt :: rest => (executeStmt env stmt).seq (execute env rest)

def executeStmt (env : Env) : Stmt → Runs Leave
  | ⟨kind, span⟩ => executeKind env span kind

def executeKind (env : Env) (span : Span) : StmtKind → Runs Leave
  | .expr value => (evaluate env value).lift
  | .echo values => ((evaluateAll env values).seq attempt).lift
  | .returns value => (evaluateOptional env value).lift.seq (leave .returned)
  | .breaks => leave .broke
  | .continues => leave .continued
  | .block body => execute env body
  | .branch test body _ rest =>
    (evaluate env test).lift.seq (execute env body ∪ executeOtherwise env rest)
  | .whileLoop test body => loop (evaluate env test).lift (execute env body) done
  | .doWhile body test =>
    (execute env body).round (loop (evaluate env test).lift (execute env body) done)
  | .forLoop init test step body =>
    (evaluateAll env init).lift.seq
      (loop (evaluateAll env test).lift (execute env body) (evaluateAll env step).lift)
  | .foreach subject key value _ body =>
    (evaluate env subject).lift.seq
      (loop attempt.lift
        (((place env value).seq (store env value)).lift.seq
          ((executeKey env key).lift.seq (execute env body))) done)
  | .switch subject cases =>
    -- `break` and `continue` both leave the `switch` only
    (evaluate env subject).lift.seq
      ((executeCases env (executeDefault env cases) cases).round done)
  | .tryCatch body catches final _ =>
    let rescued := (execute env body).rescue (executeCatches env catches)
    match final with
    | none => rescued
    | some last => rescued.ensuring (execute env last)
  | .global names => names.foldr (fun name rest => (emit (.write name span)).seq rest) done
  | .static bindings => (executeBindings env bindings).lift
  | .unset names => names.foldr (fun name rest => (emit (.unset name)).seq rest) done
  | .constants items => (evaluateConstItems env items).lift
  | .namespaced _ _ | .imports _ | .function _ | .classLike _ | .nop => done

/-- Binds the key of `foreach`. -/
def executeKey (env : Env) : Option Expr → Runs Abort
  | none => done
  | some key => (place env key).seq (store env key)

def executeOtherwise (env : Env) : Otherwise → Runs Leave
  | .nothing => done
  | .orElse body => execute env body
  | .orIf test body _ rest =>
    (evaluate env test).lift.seq (execute env body ∪ executeOtherwise env rest)

/-- Compares with the cases in turn; from the one that is entered on, the bodies run in order. -/
def executeCases (env : Env) (otherwise : Runs Leave) : List Case → Runs Leave
  | [] => otherwise
  | ⟨test, body, _, _⟩ :: rest =>
    let entered := (execute env body).seq (executeFrom env rest)
    let missed := executeCases env otherwise rest
    match test with
    | none => missed
    | some test => (evaluate env test).lift.seq (entered ∪ missed)

/-- The default case with the bodies after it; without one nothing runs. -/
def executeDefault (env : Env) : List Case → Runs Leave
  | [] => done
  | ⟨test, body, _, _⟩ :: rest =>
    let entered := (execute env body).seq (executeFrom env rest)
    let others := executeDefault env rest
    if test.isNone then entered else others

/-- The bodies of some cases in order. -/
def executeFrom (env : Env) : List Case → Runs Leave
  | [] => done
  | ⟨_, body, _, _⟩ :: rest => (execute env body).seq (executeFrom env rest)

/-- Any of the clauses may take an exception. -/
def executeCatches (env : Env) : List Catch → Runs Leave
  | [] => ∅
  | ⟨_, name, body, span⟩ :: rest =>
    ((bindException span name).seq (execute env body)) ∪ executeCatches env rest

def executeBindings (env : Env) : List Binding → Runs Abort
  | [] => done
  | ⟨name, value, span⟩ :: rest =>
    ((evaluateOptional env value).seq (emit (.write name span))).seq (executeBindings env rest)

def evaluateConstItems (env : Env) : List ConstItem → Runs Abort
  | [] => done
  | ⟨_, value, _⟩ :: rest => ((evaluate env value).seq attempt).seq (evaluateConstItems env rest)

end

/-! ### Empty sequences -/

section

variable (env : Env)

theorem evaluateAll_nil : evaluateAll env [] = done := by
  rw [evaluateAll]

theorem evaluateOptional_none : evaluateOptional env none = done := by
  rw [evaluateOptional]

theorem evaluateItems_nil : evaluateItems env [] = done := by
  rw [evaluateItems]

theorem evaluateArgs_nil (params : Option (List ParamInfo)) (position : Nat) :
    evaluateArgs env params position [] = done := by
  rw [evaluateArgs]

theorem evaluateCompactArgs_nil : evaluateCompactArgs env [] = done := by
  rw [evaluateCompactArgs]

theorem evaluateCompactItems_nil : evaluateCompactItems env [] = done := by
  rw [evaluateCompactItems]

theorem evaluateConditions_nil (hit miss : Runs Abort) :
    evaluateConditions env hit miss [] = miss := by
  rw [evaluateConditions]

theorem evaluateArms_nil (otherwise : Runs Abort) : evaluateArms env otherwise [] = otherwise := by
  rw [evaluateArms]

theorem evaluateDefault_nil : evaluateDefault env [] = leave .thrown := by
  rw [evaluateDefault]

theorem probeAll_nil : probeAll env [] = done := by
  rw [probeAll]

theorem storeItems_nil : storeItems env [] = done := by
  rw [storeItems]

theorem execute_nil : execute env [] = done := by
  rw [execute]

theorem executeKey_none : executeKey env none = done := by
  rw [executeKey]

theorem executeOtherwise_nothing : executeOtherwise env .nothing = done := by
  rw [executeOtherwise]

theorem executeCases_nil (otherwise : Runs Leave) : executeCases env otherwise [] = otherwise := by
  rw [executeCases]

theorem executeDefault_nil : executeDefault env [] = done := by
  rw [executeDefault]

theorem executeFrom_nil : executeFrom env [] = done := by
  rw [executeFrom]

theorem executeCatches_nil : executeCatches env [] = ∅ := by
  rw [executeCatches]

theorem executeBindings_nil : executeBindings env [] = done := by
  rw [executeBindings]

theorem evaluateConstItems_nil : evaluateConstItems env [] = done := by
  rw [evaluateConstItems]

end

/-! ### Parentheses -/

section

variable (env : Env) (inner : Expr) (span : Span)

theorem evaluateKind_paren : evaluateKind env span (.paren inner) = evaluate env inner := by
  rw [evaluateKind]

theorem pass_paren : pass env ⟨.paren inner, span⟩ = pass env inner := by
  rw [pass]

theorem evaluateCompact_paren :
    evaluateCompact env ⟨.paren inner, span⟩ = evaluateCompact env inner := by
  rw [evaluateCompact]

theorem probe_paren : probe env ⟨.paren inner, span⟩ = probe env inner := by
  rw [probe]

theorem place_paren : place env ⟨.paren inner, span⟩ = place env inner := by
  rw [place]

theorem container_paren : container env ⟨.paren inner, span⟩ = container env inner := by
  rw [container]

theorem store_paren : store env ⟨.paren inner, span⟩ = store env inner := by
  rw [store]

theorem bindReference_paren : bindReference env ⟨.paren inner, span⟩ = bindReference env inner := by
  rw [bindReference]

end

/-! ### Blocks -/

theorem executeKind_block (env : Env) (span : Span) (body : List Stmt) :
    executeKind env span (.block body) = execute env body := by
  rw [executeKind]

end PhpAudit.Execution
