/-
This file follows the variables that an expression defines. In the fragment treated here an
expression assigns to plain variables only, and never in an operand that may be skipped; so the
variables that it assigns are the same in all its runs. The walk gains at most these variables, a run
that completes has written all of them, and if the walk reports no undefined variable, then every
run reads only variables that the scope had, or that were written before.
-/

import PhpAudit.Proofs.Execution.Reading
import PhpAudit.Proofs.Execution.Semantics
import PhpAudit.Proofs.Flow.Ledger
import PhpAudit.Proofs.Syntax.Every

namespace PhpAudit

open Execution

/-- Every variable that the scope counts as defined is known to have a value. -/
def Scope.Within (scope : Scope) (known : Set String) : Prop :=
  ∀ name, scope.has name = true → name ∈ known

theorem Scope.Within.mono {scope : Scope} {known later : Set String} (within : scope.Within known)
    (grown : known ⊆ later) : scope.Within later :=
  fun name defined => grown (within name defined)

/-- The steps of a walk over code that, when it completes, has given `names` a value. -/
structure Gains (names : Set String) (runs : Runs Abort) (steps : Walk → Walk) : Prop
    extends Steady steps where
  has : ∀ {walk : Walk}, Walk.Passes steps walk → ∀ {name : String},
    (steps walk).scope.has name = true → walk.scope.has name = true ∨ name ∈ names
  mayHave : ∀ {walk : Walk}, Walk.Passes steps walk → ∀ {name : String},
    (steps walk).scope.mayHave name = true → walk.scope.mayHave name = true ∨ name ∈ names
  reads : ∀ {walk : Walk} {known : Set String}, Walk.Passes steps walk → walk.scope.Within known →
    runs.Reads known (names ⊆ ·)

namespace Gains

variable {names others : Set String} {runs first second : Runs Abort}
  {steps before after : Walk → Walk}

/-- What the scope has after the steps is known where the code completes. -/
theorem within (gains : Gains names runs steps) {walk : Walk} {known : Set String}
    (passes : Walk.Passes steps walk) (inside : walk.scope.Within known) (gained : names ⊆ known) :
    (steps walk).scope.Within known :=
  fun name defined => (gains.has passes defined).elim (inside name) (gained ·)

theorem seq (left : Gains names first before) (right : Gains others second after) :
    Gains (names ∪ others) (first.seq second) fun walk => after (before walk) where
  toSteady := left.toSteady.comp right.toSteady
  has passes name defined := by
    obtain ⟨passesFirst, passesSecond⟩ := passes.split left.toSteady right.toSteady
    rcases right.has passesSecond defined with defined | gained
    · exact (left.has passesFirst defined).imp_right .inl
    · exact .inr (.inr gained)
  mayHave passes name defined := by
    obtain ⟨passesFirst, passesSecond⟩ := passes.split left.toSteady right.toSteady
    rcases right.mayHave passesSecond defined with defined | gained
    · exact (left.mayHave passesFirst defined).imp_right .inl
    · exact .inr (.inr gained)
  reads {walk known} passes inside := by
    obtain ⟨passesFirst, passesSecond⟩ := passes.split left.toSteady right.toSteady
    refine (left.reads passesFirst inside).seq fun later grown gained => ?_
    have insideNext := left.within passesFirst (inside.mono grown) gained
    exact (right.reads passesSecond insideNext).mono fun further grownFurther gainedNext =>
      Set.union_subset (gained.trans grownFurther) gainedNext

/-- Steps that change nothing, for code without reads and writes. -/
theorem of_idle (idle : Idle steps) (reads : ∀ known, runs.Reads known fun _ => True) :
    Gains ∅ runs steps where
  toSteady := .of_idle idle
  has _ _ defined := .inl ((idle _).1 ▸ defined)
  mayHave _ _ defined := .inl ((idle _).1 ▸ defined)
  reads _ _ := (reads _).mono fun _ _ _ => Set.empty_subset _

/-- Idle steps may stand before the steps of the code. -/
theorem idle_then (idle : Idle before) (gains : Gains names runs after) :
    Gains names runs fun walk => after (before walk) := by
  have nothing : Gains ∅ Runs.done before := .of_idle idle fun _ => .done trivial
  have both := nothing.seq gains
  rwa [Set.empty_union, Runs.done_seq] at both

/-- Idle steps may stand after the steps of the code. -/
theorem then_idle (gains : Gains names runs before) (idle : Idle after) :
    Gains names runs fun walk => after (before walk) := by
  have nothing : Gains ∅ Runs.done after := .of_idle idle fun _ => .done trivial
  have both := gains.seq nothing
  rwa [Set.union_empty, Runs.seq_done] at both

/-- Code without reads that is not walked. -/
theorem then_runs (gains : Gains names runs steps)
    (reads : ∀ known, second.Reads known fun _ => True) : Gains names (runs.seq second) steps := by
  have nothing : Gains ∅ second id := of_idle (fun _ => ⟨rfl, rfl⟩) reads
  have both := gains.seq nothing
  rwa [Set.union_empty] at both

theorem congr (gains : Gains names runs before) (same : ∀ walk, after walk = before walk) :
    Gains names runs after := by
  rwa [funext same]

/-- An operand that may be skipped defines nothing. -/
theorem conditionally (gains : Gains ∅ runs steps) :
    Gains ∅ runs.optional fun walk => walk.conditionally steps where
  grows := gains.grows
  reporting := gains.reporting
  has := gains.has
  mayHave := gains.mayHave
  reads passes inside := .optional (Set.empty_subset _) (gains.reads passes inside)

end Gains

namespace Flow

variable {env : Env}

/-! ### Variables -/

theorem idle_noteRead (env : Env) (name : String) (span : Span) :
    Idle fun walk => (walk.checkDiscard env name span).untrack env name :=
  fun walk => Walk.idle_checkDiscard env name span walk

/-- Reading a variable: it has a value, or it is reported and then counted as defined. -/
theorem read_eq (outermost : env.enclosing = []) (name : String) (span : Span) (walk : Walk) :
    walk.read env name span =
      let noted := (walk.checkDiscard env name span).untrack env name
      if walk.scope.has name || isSuperglobal name || walk.ledger.tolerates then noted
      else noted.readMissing env name span := by
  have idle := idle_noteRead env name span walk
  have tolerates : ((walk.checkDiscard env name span).untrack env name).toleratesUndefined =
      walk.ledger.tolerates := congrArg Ledger.tolerates idle.2
  unfold Walk.read
  dsimp only at idle ⊢
  rw [outermost, idle.1, tolerates]
  rfl

theorem steady_readMissing (env : Env) (name : String) (span : Span) :
    Steady (Walk.readMissing env name span) := by
  constructor
  · intro walk
    unfold Walk.readMissing
    dsimp only
    split
    · exact (Walk.steady_issue env span _ _ _).grows walk
    · exact (Walk.steady_issue env span _ _ _).grows walk
  · intro walk reporting
    unfold Walk.readMissing
    dsimp only
    split
    · exact (Walk.steady_issue env span _ _ _).reporting walk reporting
    · exact (Walk.steady_issue env span _ _ _).reporting walk reporting

theorem undefined_readMissing (env : Env) {walk : Walk} (reporting : walk.Reporting) (name : String)
    (span : Span) :
    (walk.readMissing env name span).ledger.undefined = walk.ledger.undefined + 1 := by
  unfold Walk.readMissing
  dsimp only
  split
  · exact walk.undefined_issue env reporting span _ _
  · exact walk.undefined_issue env reporting span _ _

/-- A read outside of arrow functions is reported unless the variable is defined. -/
theorem gains_read (outermost : env.enclosing = []) (name : String) (span : Span) :
    Gains ∅ (Execution.read name span) (Walk.read env name span) := by
  have idle := idle_noteRead env name span
  have steady : Steady (Walk.read env name span) := by
    have missing := (Steady.of_idle idle).comp (steady_readMissing env name span)
    constructor
    · intro walk
      rw [read_eq outermost]
      dsimp only
      split
      · exact (Steady.of_idle idle).grows walk
      · exact missing.grows walk
    · intro walk reporting
      rw [read_eq outermost]
      dsimp only
      split
      · exact (Steady.of_idle idle).reporting walk reporting
      · exact missing.reporting walk reporting
  -- a read that passes finds the variable and leaves the scope alone
  have found {walk : Walk} (passes : Walk.Passes (Walk.read env name span) walk) :
      (walk.scope.has name = true ∨ isSuperglobal name = true) ∧
        (walk.read env name span).scope = walk.scope := by
    obtain ⟨reporting, equal⟩ := passes
    rw [read_eq outermost] at equal ⊢
    dsimp only at equal ⊢
    rw [reporting.2, Bool.or_false] at equal ⊢
    split at equal
    · next defined =>
      rw [if_pos defined]
      exact ⟨by simpa using defined, (idle walk).1⟩
    · have counted := undefined_readMissing env
        ((Steady.of_idle idle).reporting walk reporting) name span
      rw [(idle walk).2] at counted
      omega
  refine { toSteady := steady, has := ?_, mayHave := ?_, reads := ?_ }
  · intro walk passes other defined
    exact .inl ((found passes).2 ▸ defined)
  · intro walk passes other defined
    exact .inl ((found passes).2 ▸ defined)
  · intro walk known passes inside
    have defined := (found passes).1.symm.imp_right (inside name)
    exact (Runs.Reads.read defined span trivial).seq fun later _ (_ : True) =>
      .attempt (Set.empty_subset _)

theorem gains_readAll (outermost : env.enclosing = []) (names : List String) (span : Span) :
    Gains ∅ (Execution.readAll span names) (Walk.readAll env names span) := by
  induction names with
  | nil => exact .of_idle (fun _ => ⟨rfl, rfl⟩) fun _ => .done trivial
  | cons name rest inductionHypothesis =>
    have both := (gains_read outermost name span).seq inductionHypothesis
    rw [Set.union_empty] at both
    exact both

/-- An assignment to a plain variable. -/
theorem gains_assignVar (env : Env) (mode : AssignMode) (types : Walk → TypeSet) (name : String)
    (place span : Span) :
    Gains {name} (Runs.emit (.write name place))
      fun walk => assignVar env mode (types walk) name span walk := by
  have tracked (walk : Walk) :
      (assignVar env mode (types walk) name span walk).scope =
        walk.scope.assign name (types walk) true ∧
      (assignVar env mode (types walk) name span walk).ledger = walk.ledger := by
    unfold assignVar
    cases mode with
    | plain => exact Walk.idle_track env name span _
    | compound => exact ⟨rfl, rfl⟩
    | reference => exact ⟨rfl, rfl⟩
    | iteration outer => exact Walk.idle_track env name outer _
  refine
    { toSteady := .of_ledger fun walk => (tracked walk).2, has := ?_, mayHave := ?_, reads := ?_ }
  · intro walk _ other defined
    rw [(tracked walk).1] at defined
    exact (Scope.of_has_assign _ _ _ defined).symm.imp_right Eq.symm
  · intro walk _ other defined
    rw [(tracked walk).1] at defined
    exact (Scope.of_mayHave_assign _ _ _ defined).symm.imp_right Eq.symm
  · intro walk known _ _
    exact .write name place Set.subset_union_right

/-! ### Expressions -/

/-- The expressions that assign nothing themselves. -/
def assignsNothing : ExprKind → Bool
  | .assign .. => false
  | _ => true

def isVariable : Expr → Bool
  | ⟨.var _, _⟩ => true
  | _ => false

/-- Calls of functions that leave the variables of their caller alone. -/
def takesValues (env : Env) (name : String) : Bool :=
  globalName env name != "\\compact" && globalName env name != "\\extract" &&
    (callee? env name).all fun info => info.params.all fun param => !param.byRef

/--
The expressions whose definitions the walk follows: variables, literals, parentheses, plain
assignments to variables, operators, calls by name of functions that take values, `throw` and `exit`.
An operand that may be skipped assigns nothing.
-/
def definesPlainly (env : Env) : ExprKind → Bool
  | .var _ | .integer | .float | .string _ | .interpolated _ | .boolean _ | .null | .magic _
  | .constant _ | .paren _ | .unary _ _ | .throw _ | .exit _ _ => true
  | .assign target _ op byRef => isVariable target && op == .assign && !byRef
  | .binary op _ right =>
    match op with
    | .coalesce | .other => false
    | .and | .or | .lowOr => everyExpr assignsNothing right
    | _ => true
  | .call name _ => takesValues env name
  | _ => false

/-- The variables that code assigns, which are none if it has no assignment. -/
def GainsSome (free : Bool) (runs : Runs Abort) (steps : Walk → Walk) : Prop :=
  ∃ names, (free = true → names = ∅) ∧ Gains names runs steps

theorem refParam?_of_takesValues {name : String} (values : takesValues env name = true)
    (position : Nat) : refParam? ((callee? env name).map (·.params)) position = none := by
  simp only [takesValues, Bool.and_eq_true] at values
  unfold refParam?
  cases found : callee? env name with
  | none => rfl
  | some info =>
    have byValue := values.2
    rw [found, Option.all_some, List.all_eq_true] at byValue
    simp only [Option.map_some, Option.bind_some, Option.filter_eq_none_iff]
    intro param chosen
    have member : param ∈ info.params := by
      rw [Option.orElse_eq_orElse, Option.orElse_eq_or, Option.or_eq_some_iff] at chosen
      rcases chosen with chosen | ⟨_, chosen⟩
      · exact List.mem_of_getElem? chosen
      · exact List.mem_of_getLast? (Option.filter_eq_some_iff.mp chosen).1
    simpa using byValue param member

/-- Storing into an operand reads nothing. -/
theorem reads_store (expr : Expr) (plain : everyExpr (definesPlainly env) expr = true)
    (known : Set String) : (store env expr).Reads known fun _ => True := by
  obtain ⟨kind, span⟩ := expr
  simp only [everyExpr, Bool.and_eq_true] at plain
  cases kind with
  | var name =>
    rw [store]
    exact .write name span trivial
  | paren inner =>
    rw [store_paren]
    exact reads_store inner plain.2 known
  | element | list | array => simp [definesPlainly] at plain
  | _ =>
    rw [store.eq_def]
    exact .attempt trivial

/-- What a call does before its arguments are walked. -/
theorem idle_beforeCall {function : String} (other : function ≠ "\\extract")
    (callee : Option FunctionInfo) :
    Idle fun walk =>
      let walk := tolerate function walk
      if callee.any (·.isPure) then walk else walk.impure := by
  intro walk
  dsimp only
  split <;> exact idle_tolerate other walk

/-- What a call does after its arguments were walked. -/
theorem idle_afterCall (env : Env) (callee : Option FunctionInfo) (fatal : Bool) :
    Idle fun walk =>
      let walk := match callee with
        | some info => walk.leaveByCallee env info.exits
        | none => walk
      if fatal then walk.leave .byDie else walk := by
  intro walk
  cases callee with
  | none =>
    cases fatal with
    | false => exact ⟨rfl, rfl⟩
    | true => exact Walk.idle_leave .byDie walk
  | some info =>
    cases fatal with
    | false => exact Walk.idle_leaveByCallee env info.exits walk
    | true => exact (Walk.idle_leaveByCallee env info.exits).comp (Walk.idle_leave .byDie) walk

mutual

/-- An expression of the fragment gains the variables that it assigns. -/
theorem gains_expr (outermost : env.enclosing = []) (expr : Expr)
    (plain : everyExpr (definesPlainly env) expr = true) :
    GainsSome (everyExpr assignsNothing expr) (evaluate env expr) (walkExpr env expr) := by
  obtain ⟨kind, span⟩ := expr
  simp only [everyExpr, Bool.and_eq_true] at plain
  obtain ⟨names, none, gains⟩ := gains_kind outermost kind span plain.1 plain.2
  refine ⟨names, ?_, ?_⟩
  · intro free
    simp only [everyExpr, Bool.and_eq_true] at free
    exact none (Bool.and_eq_true_iff.mpr free)
  · rw [evaluate]
    exact gains.congr fun walk => by rw [walkExpr]

theorem gains_kind (outermost : env.enclosing = []) (kind : ExprKind) (span : Span)
    (own : definesPlainly env kind = true)
    (plain : everyOperand (definesPlainly env) kind = true) :
    GainsSome (assignsNothing kind && everyOperand assignsNothing kind)
      (evaluateKind env span kind) (walkKind env span kind) := by
  have idle : Idle fun walk => walk := fun _ => ⟨rfl, rfl⟩
  cases kind with
  | var name =>
    refine ⟨∅, fun _ => rfl, ?_⟩
    rw [evaluateKind]
    exact (gains_read outermost name span).congr fun walk => by rw [walkKind]
  | integer | float | string | boolean | null | magic =>
    refine ⟨∅, fun _ => rfl, ?_⟩
    rw [evaluateKind]
    exact (Gains.of_idle idle fun _ => .done trivial).congr fun walk => by rw [walkKind]
  | constant =>
    refine ⟨∅, fun _ => rfl, ?_⟩
    rw [evaluateKind]
    exact (Gains.of_idle idle fun _ => .attempt trivial).congr fun walk => by rw [walkKind]
  | interpolated reads =>
    refine ⟨∅, fun _ => rfl, ?_⟩
    rw [evaluateKind]
    exact ((gains_readAll outermost reads span).then_runs fun _ => .attempt trivial).congr
      fun walk => by rw [walkKind]
  | paren inner =>
    obtain ⟨names, none, gains⟩ := gains_expr outermost inner plain
    refine ⟨names, none, ?_⟩
    rw [evaluateKind_paren]
    exact gains.congr fun walk => by rw [walkKind_paren]
  | unary op inner =>
    obtain ⟨names, none, gains⟩ := gains_expr outermost inner plain
    have stored (known : Set String) :
        Runs.Reads known (if steps op then store env inner else Runs.done) fun _ => True := by
      split
      · exact reads_store inner plain known
      · exact .done trivial
    refine ⟨names, none, ?_⟩
    rw [evaluateKind]
    exact ((gains.then_runs fun _ => .attempt trivial).then_runs stored).congr fun walk => by
      rw [walkKind]
  | throw exception =>
    obtain ⟨names, none, gains⟩ := gains_expr outermost exception plain
    refine ⟨names, none, ?_⟩
    rw [evaluateKind]
    exact ((gains.then_runs fun _ => .leave _).then_idle (Walk.idle_leave .byThrow)).congr
      fun walk => by rw [walkKind]
  | exit die reads =>
    refine ⟨∅, fun _ => rfl, ?_⟩
    rw [evaluateKind]
    exact (((gains_readAll outermost reads span).idle_then Walk.idle_impure).then_runs fun _ =>
      .callee trivial).then_idle (Walk.idle_leave .byDie) |>.congr fun walk => by rw [walkKind]
  | assign target value op byRef =>
    obtain ⟨targetKind, targetSpan⟩ := target
    simp only [definesPlainly, Bool.and_eq_true, beq_iff_eq, Bool.not_eq_true'] at own
    obtain ⟨⟨plainTarget, rfl⟩, rfl⟩ := own
    cases targetKind with
    | var name =>
      simp only [everyOperand, Bool.and_eq_true] at plain
      obtain ⟨names, none, gains⟩ := gains_expr outermost value plain.2
      refine ⟨names ∪ {name}, by simp [assignsNothing], ?_⟩
      have assigned := gains.seq (gains_assignVar env .plain (fun walk => walk.localType env value)
        name targetSpan targetSpan)
      simp only [evaluateKind, Bool.false_eq_true, if_false, place, store, Runs.done_seq]
      exact assigned.congr fun walk => by
        simp only [walkKind, Bool.false_eq_true, if_false, walkAssign]
    | _ => simp [isVariable] at plainTarget
  | binary op left right =>
    simp only [everyOperand, Bool.and_eq_true] at plain
    obtain ⟨names, none, gains⟩ := gains_expr outermost left plain.1
    obtain ⟨others, noOthers, gainsRight⟩ := gains_expr outermost right plain.2
    cases op with
    | coalesce | other => simp [definesPlainly] at own
    | and | or | lowOr =>
      obtain rfl := noOthers own
      refine ⟨names ∪ ∅, ?_, ?_⟩
      · simp only [everyOperand, Bool.and_eq_true, Set.union_empty]
        exact fun free => none free.2.1
      · rw [evaluateKind]
        exact (gains.seq gainsRight.conditionally).congr fun walk => by rw [walkKind]
    | _ =>
      refine ⟨names ∪ others, ?_, ?_⟩
      · simp only [everyOperand, Bool.and_eq_true]
        intro free
        rw [none free.2.1, noOthers free.2.2, Set.union_empty]
      · simp only [evaluateKind]
        exact (gains.seq (gainsRight.then_runs fun _ => .attempt trivial)).congr fun walk => by
          simp only [walkKind]
  | call name args =>
    have byValue := refParam?_of_takesValues own
    simp only [definesPlainly, takesValues, Bool.and_eq_true, bne_iff_ne] at own
    obtain ⟨names, none, gains⟩ := gains_args outermost byValue 0 args plain
    refine ⟨names, none, ?_⟩
    rw [evaluateKind, if_neg (by simpa using own.1.1)]
    exact (((gains.idle_then (idle_beforeCall own.1.2 (callee? env name))).then_idle
      (idle_afterCall env (callee? env name)
        (isFatalError (globalName env name) args && !env.options.ignoreTriggerError))).then_runs
          fun _ => .callee trivial).congr fun walk => by
            rw [walkKind]
            exact if_neg (by simpa using own.1.1)
  | _ => simp [definesPlainly] at own

theorem gains_args (outermost : env.enclosing = []) {params : Option (List ParamInfo)}
    (byValue : ∀ position, refParam? params position = none) (position : Nat) (args : List Arg)
    (plain : everyArg (definesPlainly env) args = true) :
    GainsSome (everyArg assignsNothing args) (evaluateArgs env params position args)
      (walkArgs env params position args) := by
  cases args with
  | nil =>
    refine ⟨∅, fun _ => rfl, ?_⟩
    rw [evaluateArgs_nil]
    exact (Gains.of_idle (fun walk => ⟨rfl, rfl⟩) fun _ => .done trivial).congr fun walk => by
      rw [walkArgs_nil]
  | cons arg rest =>
    obtain ⟨value, unpack, label⟩ := arg
    simp only [everyArg, Bool.and_eq_true] at plain
    obtain ⟨names, none, gains⟩ := gains_expr outermost value plain.1
    obtain ⟨others, noOthers, gainsRest⟩ := gains_args outermost byValue (position + 1) rest plain.2
    refine ⟨names ∪ others, ?_, ?_⟩
    · simp only [everyArg, Bool.and_eq_true]
      intro free
      rw [none free.1, noOthers free.2, Set.union_empty]
    · rw [evaluateArgs.eq_def]
      dsimp only
      rw [byValue]
      exact (gains.seq gainsRest).congr fun walk => by
        rw [walkArgs.eq_def]
        dsimp only
        rw [byValue]

end

theorem gains_exprs (outermost : env.enclosing = []) (values : List Expr)
    (plain : values.all (everyExpr (definesPlainly env)) = true) :
    GainsSome (values.all (everyExpr assignsNothing)) (evaluateAll env values)
      (walkExprs env values) := by
  induction values with
  | nil =>
    refine ⟨∅, fun _ => rfl, ?_⟩
    rw [evaluateAll_nil]
    exact (Gains.of_idle (fun walk => ⟨rfl, rfl⟩) fun _ => .done trivial).congr fun walk => by
      rw [walkExprs_nil]
  | cons value rest inductionHypothesis =>
    simp only [List.all_cons, Bool.and_eq_true] at plain
    obtain ⟨names, none, gains⟩ := gains_expr outermost value plain.1
    obtain ⟨others, noOthers, gainsRest⟩ := inductionHypothesis plain.2
    refine ⟨names ∪ others, ?_, ?_⟩
    · simp only [List.all_cons, Bool.and_eq_true]
      intro free
      rw [none free.1, noOthers free.2, Set.union_empty]
    · rw [evaluateAll]
      exact (gains.seq gainsRest).congr fun walk => by rw [walkExprs]

/-! ### Conditions -/

theorem unparen_ne_isEmpty (expr : Expr) (plain : everyExpr (definesPlainly env) expr = true)
    (inner : Expr) : expr.unparen.kind ≠ .isEmpty inner := by
  obtain ⟨kind, span⟩ := expr
  simp only [everyExpr, Bool.and_eq_true] at plain
  cases kind with
  | paren operand => exact unparen_ne_isEmpty operand plain.2 inner
  | isEmpty => simp [definesPlainly] at plain
  | _ => simp [Expr.unparen]

/-- A condition without `isset`, `empty` and `instanceof` is walked like any expression. -/
theorem walkTest_eq (negated inLogic : Bool) (test : Expr)
    (plain : everyExpr (definesPlainly env) test = true) (guard : Guard) :
    walkTest env negated inLogic test guard = guard.mapWalk (walkExpr env test) := by
  obtain ⟨kind, span⟩ := test
  simp only [everyExpr, Bool.and_eq_true] at plain
  cases kind with
  | paren inner =>
    rw [walkTest_paren, walkTest_eq negated inLogic inner plain.2 guard]
    simp only [Guard.mapWalk, walkExpr, walkKind]
  | binary op left right =>
    simp only [everyOperand, Bool.and_eq_true] at plain
    cases op with
    | and | or =>
      rw [walkTest, walkTest_eq negated true left plain.2.1 guard, Guard.conditionally,
        walkTest_eq negated true right plain.2.2]
      simp only [Guard.mapWalk, walkExpr, walkKind]
      rfl
    | _ => simp only [walkTest, walkExpr]
  | unary op operand =>
    cases op with
    | not =>
      have unmarked : guard.markNotEmpty negated operand = guard := by
        unfold Guard.markNotEmpty
        split
        · next inner empty => exact absurd empty (unparen_ne_isEmpty operand plain.2 inner)
        · rfl
      rw [walkTest, unmarked, walkTest_eq (!negated) inLogic operand plain.2 guard]
      simp only [Guard.mapWalk, walkExpr, walkKind]
    | _ => simp only [walkTest, walkExpr]
  | isset | instanceOf => simp [definesPlainly] at plain
  | _ => simp only [walkTest, walkExpr]

theorem isNarrowing_eq_false (test : Expr) (plain : everyExpr (definesPlainly env) test = true) :
    test.isNarrowing = false := by
  obtain ⟨kind, span⟩ := test
  simp only [everyExpr, Bool.and_eq_true] at plain
  cases kind with
  | paren inner =>
    rw [Expr.isNarrowing]
    exact isNarrowing_eq_false inner plain.2
  | binary op left right =>
    simp only [everyOperand, Bool.and_eq_true] at plain
    cases op with
    | and | or =>
      rw [Expr.isNarrowing, isNarrowing_eq_false left plain.2.1]
      rfl
    | _ => rfl
  | unary op operand =>
    cases op with
    | not =>
      rw [Expr.isNarrowing]
      exact isNarrowing_eq_false operand plain.2
    | _ => rfl
  | instanceOf => simp [definesPlainly] at plain
  | _ => rfl

/--
The outcomes of a condition: the block that holds it and the false outcome get the variables that it
assigns, which every run of it has written.
-/
theorem of_has_split {names : Set String} {test : Expr} {runs : Runs Abort} {walk : Walk}
    (gains : Gains names runs (walkExpr env test)) (markers : List String)
    (passes : Walk.Passes (walkExpr env test) { walk with block := walk.block.child })
    (name : String) :
    let split := ((Guard.start walk markers).mapWalk (walkExpr env test)).split walk.block
    (split.yes.scope.has name = true → walk.scope.has name = true ∨ name ∈ names) ∧
    (split.no.scope.has name = true → walk.scope.has name = true ∨ name ∈ names) ∧
    (split.walk.scope.has name = true → walk.scope.has name = true ∨ name ∈ names) := by
  intro split
  -- a fresh variable is one that the condition gained
  have fresh (keep : String × VarInfo → Bool) (step : Scope → String × VarInfo → Scope)
      (keeps : ∀ item, keep item = true → walk.scope.mayHave item.1 = false)
      (steps : ∀ scope item, step scope item = scope.add item.1 item.2.types true) (scope : Scope)
      (defined : ((split.yes.scope.entries.filter keep).foldl step scope).has name = true) :
      scope.has name = true ∨ name ∈ names := by
    refine Scope.of_has_foldl _ (fun scope item member defined => ?_) defined
    rw [steps, Scope.has_add, Bool.or_eq_true] at defined
    refine defined.imp_right fun defined => ?_
    simp only [Bool.and_true, beq_iff_eq] at defined
    subst defined
    rw [List.mem_filter] at member
    have present : split.yes.scope.mayHave item.1 = true := by
      unfold Scope.mayHave
      rw [(Scope.mem_entries _ _).mp member.1]
      rfl
    refine (gains.mayHave passes present).resolve_left fun before => ?_
    exact Bool.false_ne_true ((keeps item member.2).symm.trans before)
  have keeps (item : String × VarInfo)
      (kept : !(item.2.implicit || markers.contains item.1 || walk.block.scope.mayHave item.1)) :
      walk.scope.mayHave item.1 = false := by
    simp only [Bool.not_eq_true', Bool.or_eq_false_iff] at kept
    exact kept.2
  exact ⟨gains.has passes, fresh _ _ keeps (fun _ _ => rfl) _, fresh _ _ keeps (fun _ _ => rfl) _⟩

end Flow

end PhpAudit
