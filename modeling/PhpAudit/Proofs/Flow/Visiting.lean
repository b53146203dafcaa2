/-
This file proves that a walk does to what it knows about variables what its visits say: over an
expression it gathers what they gain, and over statements it sees no more than they allow.
-/

import PhpAudit.Proofs.Flow.Branching

namespace PhpAudit

open PhpAudit.Flow

/-! ### Closures -/

namespace Gathers

variable {env : Env}

/-- The variables that a closure takes with it. -/
theorem captures (captured : List Capture) (walk : Walk) (inner : Scope) :
    Gathers env.source (captured.map Visits.ofCapture) walk
      (captured.foldl (capture env) (walk, inner)).1 := by
  induction captured generalizing walk inner with
  | nil => exact .refl walk
  | cons first rest inductionHypothesis =>
    have checked : Eases env.source walk (if first.byRef || walk.scope.has first.name then walk
        else walk.issue env first.span .error "undefined"
          s!"Cannot find referenced variable {first.name}") := by
      split
      · exact .refl walk
      · refine .issue (fun name _ _ equal => ?_) first.span walk
        have texts : ("Cannot find referenced variable " ++ first.name).toList =
          ("Undefined variable: " ++ name).toList := congrArg String.toList equal
        rw [String.toList_append, String.toList_append] at texts
        exact absurd (List.cons.inj texts).1 (by decide)
    have shared (walk : Walk) : Eases env.source walk
        (if first.byRef then walk.share first.name else walk) := by
      split
      · exact .share first.name walk
      · exact .refl walk
    have taken : Gathers env.source [Visits.ofCapture first] walk
        (capture env (walk, inner) first).1 :=
      .eases_then (checked.trans (shared _)) (.untrack rfl rfl _)
    have idle : ∀ visit ∈ [Visits.ofCapture first], visit.gains = false := by
      intro visit member
      rw [List.mem_singleton.mp member]
      rfl
    have both := taken.chain (inductionHypothesis (capture env (walk, inner) first).1
      (capture env (walk, inner) first).2)
    rwa [Visits.chain_of_idle idle] at both

/-- The reports of a nested function stand at visits in it. -/
theorem inside {visits : List Visit} {walk started after : Walk}
    (sees : Sees env.source visits started after) (report : started.report = walk.report) :
    Gathers env.source (visits.map Visit.inside) walk { walk with report := after.report } := by
  have first {name : String} {span : Span} (raised : after.Raised env.source name span) :
      walk.Raised env.source name span ∨ ∃ visit ∈ visits.map Visit.inside,
        visit.At env.source name span ∧ visit.use = .nested := by
    rcases sees.raises raised with raised | ⟨visit, member, place, _⟩
    · unfold Walk.Raised at *
      rw [report] at raised
      exact .inl raised
    · exact .inr ⟨visit.inside, List.mem_map_of_mem member, place, rfl⟩
  exact
    { inLoop := rfl
      tolerates := id
      quiet := fun silent => (sees.quiet (report ▸ silent)).trans report
      pending := fun member => .inl ⟨member, fun visit present _ => by
        obtain ⟨old, _, rfl⟩ := List.mem_map.mp present
        rfl⟩
      implicit := fun _ => id
      keeps := fun _ => id
      raises := fun raised => (first raised).imp_right fun ⟨visit, member, place, nested⟩ =>
        ⟨visit, member, place, .inl nested⟩
      gains := fun _ ⟨visit, present, _, gains⟩ => by
        obtain ⟨old, _, rfl⟩ := List.mem_map.mp present
        exact absurd gains Bool.false_ne_true
      first := fun raised => (first raised).imp_right fun ⟨visit, member, place, nested⟩ =>
        ⟨visit, member, place, .inl nested⟩ }

/-- A call by name: nothing that it does apart from its arguments is about variables. -/
theorem call (env : Env) (span : Span) (name : String) (args : List Arg) (walk : Walk)
    {compact plain : List Visit}
    (named : Gathers env.source compact walk (walkCompactArgs env args walk))
    (passed : ∀ walk, Gathers env.source plain walk
      (walkArgs env ((callee? env name).map (·.params)) 0 args walk)) :
    Gathers env.source (if env.naming.isCompact name then compact else plain) walk
      (walkKind env span (.call name args) walk) := by
  have isCompact : env.naming.isCompact name = (globalName env name == "\\compact") := rfl
  have started : Eases env.source walk
      (if (callee? env name).any (·.isPure) then tolerate (globalName env name) walk
        else (tolerate (globalName env name) walk).impure) := by
    split
    · exact .tolerate _ walk
    · exact (Eases.tolerate _ walk).trans (.impure _)
  have left (walk : Walk) (exits : Exits) (fatal : Bool) : Eases env.source walk
      (if fatal then walk.leave exits else walk) := by
    split
    · exact .leave _ walk
    · exact .refl walk
  rw [isCompact, walkKind]
  dsimp only
  split
  · exact named
  · have walked := Gathers.eases_then started (passed _)
    generalize callee? env name = callee at walked ⊢
    cases callee with
    | none => exact walked.then_eases (left _ _ _)
    | some info => exact (walked.then_eases (.leaveByCallee _ _)).then_eases (left _ _ _)

end Gathers

namespace Flow

theorem report_startClosure (env : Env) (scope : Scope) (params : List ParamInfo)
    (captures : List Capture) (report : Report) :
    (startClosure env scope params captures report).report = report := by
  have kept {Item : Type} {step : Walk → Item → Walk}
      (same : ∀ walk item, (step walk item).report = walk.report) (items : List Item)
      (walk : Walk) : (items.foldl step walk).report = walk.report := by
    induction items generalizing walk with
    | nil => rfl
    | cons item rest inductionHypothesis =>
      rw [List.foldl_cons, inductionHypothesis, same]
  unfold startClosure startBody
  rw [kept, kept]
  · rfl
  · exact fun _ _ => rfl
  · intro walk captured
    split
    · rfl
    · unfold Walk.track
      split
      · rfl
      · split <;> rfl

/-! ### The walk -/

-- As for the assignments that are collected, each part of the code has visits of its own.
mutual

theorem walkExpr_gathers (env : Env) (expr : Expr) (walk : Walk) :
    Gathers env.source (visitsExpr env.naming expr) walk (walkExpr env expr walk) := by
  obtain ⟨kind, span⟩ := expr
  rw [visitsExpr, walkExpr]
  exact walkKind_gathers env span kind walk

theorem walkKind_gathers (env : Env) (span : Span) (kind : ExprKind) (walk : Walk) :
    Gathers env.source (visitsKind env.naming span kind) walk (walkKind env span kind walk) := by
  cases kind with
  | var name =>
    rw [visitsKind, walkKind]
    exact .read name span walk
  | dynamicVar reads | interpolated reads | unmodeled reads =>
    rw [visitsKind, walkKind]
    exact .readAll reads span walk
  | print reads =>
    rw [visitsKind, walkKind]
    exact .eases_then (.impure walk) (.readAll reads span _)
  | exit die reads =>
    rw [visitsKind, walkKind]
    exact .then_eases (.eases_then (.impure walk) (.readAll reads span _)) (.leave _ _)
  | integer | float | string | boolean | null | magic | constant =>
    rw [visitsKind, walkKind]
    exact .refl walk
  | paren inner | clone inner | property inner _ _ =>
    rw [visitsKind, walkKind]
    exact walkExpr_gathers env inner walk
  | unary op inner =>
    rw [visitsKind, walkKind]
    exact (walkExpr_gathers env inner walk).hastenIf _
  | includeFile inner | yieldFrom inner =>
    rw [visitsKind, walkKind]
    exact .eases_then (.impure walk) (walkExpr_gathers env inner _)
  | throw inner =>
    rw [visitsKind, walkKind]
    exact (walkExpr_gathers env inner walk).then_eases (.leave _ _)
  | isEmpty inner =>
    rw [visitsKind, walkKind]
    exact walkProbe_gathers env inner walk
  | array items | list items =>
    rw [visitsKind, walkKind]
    exact walkItems_gathers env items walk
  | element base index =>
    rw [visitsKind, walkKind]
    exact .eases_then (.checkArrayAccess base span walk)
      ((walkExpr_gathers env base _).chain (walkOptional_gathers env index _))
  | assign target value op byRef =>
    rw [visitsKind.eq_def, walkKind.eq_def]
    cases byRef with
    | true =>
      exact (walkShared_gathers env value walk).chain
        ((walkAssign_gathers env _ _ target _).hastenIf _)
    | false =>
      have value := walkExpr_gathers env value walk
      cases op <;> exact value.chain ((walkAssign_gathers env _ _ target _).hastenIf _)
  | binary op left right =>
    rw [visitsKind.eq_def, walkKind.eq_def]
    cases op with
    | coalesce =>
      exact ((walkProbe_gathers env left walk).chain (walkExpr_gathers env right _)).then_eases
        (.setExits _ _)
    | and | or | lowOr =>
      exact ((walkExpr_gathers env left walk).chain (walkExpr_gathers env right _)).then_eases
        (.setExits _ _)
    | _ => exact (walkExpr_gathers env left walk).chain (walkExpr_gathers env right _)
  | instanceOf subject ref =>
    rw [visitsKind, walkKind]
    exact (walkExpr_gathers env subject walk).chain (walkRef_gathers env ref _)
  | ternary test yes no =>
    cases yes with
    | none =>
      rw [visitsKind, walkKind]
      exact ((walkExpr_gathers env test walk).chain (walkExpr_gathers env no _)).then_eases
        (.setExits _ _)
    | some yes =>
      rw [visitsKind, walkKind]
      exact .ternary (walkTest_weighs env false false test (.start walk []))
        (walkExpr_gathers env yes _) (walkExpr_gathers env no _)
  | call name args =>
    rw [visitsKind]
    exact .call env span name args walk (walkCompactArgs_gathers env args walk)
      (walkArgs_gathers env _ 0 args)
  | callValue function args =>
    rw [visitsKind, walkKind]
    exact .eases_then (.impure walk)
      ((walkExpr_gathers env function _).chain (walkArgs_gathers env none 0 args _))
  | methodCall object method args nullsafe =>
    rw [visitsKind, walkKind]
    exact .then_eases (.eases_then (.impure walk)
      ((walkExpr_gathers env object _).chain (walkArgs_gathers env _ 0 args _)))
      (.leaveByFound _ _)
  | staticCall ref method args =>
    rw [visitsKind, walkKind]
    exact .then_eases (.eases_then (.impure walk)
      ((walkRef_gathers env ref _).chain (walkArgs_gathers env _ 0 args _))) (.leaveByFound _ _)
  | staticProperty ref name | classConstant ref name =>
    rw [visitsKind, walkKind]
    exact walkRef_gathers env ref walk
  | new ref args =>
    rw [visitsKind, walkKind]
    exact .eases_then (.impure walk)
      ((walkRef_gathers env ref _).chain (walkArgs_gathers env _ 0 args _))
  | isset values =>
    rw [visitsKind, walkKind]
    exact walkProbes_gathers env values walk
  | closure params captures hint isStatic body =>
    rw [visitsKind, walkKind]
    let outer := captures.foldl (capture env) (walk, closureScope isStatic walk.scope)
    let described := Param.describe env.naming none params
    let inner : Env := { env with enclosing := [] }
    let started := startClosure inner (outer.2.bind described) described captures outer.1.report
    have walked : Sees env.source (visitsStmts env.naming body) started
        ((walkStmts inner body started).flushUnused inner) :=
      (walkStmts_sees inner body started).then_eases (.flushUnused _)
    exact (Gathers.captures captures walk _).chain
      (.inside walked (report_startClosure inner _ _ captures _))
  | arrow params hint isStatic body =>
    rw [visitsKind, walkKind]
    let inner : Env := { env with enclosing := walk.scope :: env.enclosing }
    let started := Walk.start ((arrowScope isStatic walk.scope).bind
      (Param.describe env.naming none params)) walk.report
    have walked : Sees env.source (visitsExpr env.naming body) started
        (walkExpr inner body started) := (walkExpr_gathers inner body started).toSees
    have reported : Gathers env.source _ walk
      { walk with report := (walkExpr inner body started).report } := .inside walked rfl
    exact reported.then_eases (.foldl (fun walk name => .untrack name walk) _ _)
  | matchOn subject arms =>
    rw [visitsKind, walkKind]
    exact (walkExpr_gathers env subject walk).chain (walkArms_gathers env false arms _)
  | yield key value =>
    rw [visitsKind, walkKind]
    exact .eases_then (.impure walk)
      ((walkOptional_gathers env key _).chain (walkOptional_gathers env value _))

theorem walkExprs_gathers (env : Env) (values : List Expr) (walk : Walk) :
    Gathers env.source (visitsExprs env.naming values) walk (walkExprs env values walk) := by
  cases values with
  | nil =>
    rw [visitsExprs_nil, walkExprs_nil]
    exact .refl walk
  | cons value rest =>
    rw [visitsExprs, walkExprs]
    exact (walkExpr_gathers env value walk).chain (walkExprs_gathers env rest _)

theorem walkOptional_gathers (env : Env) (value : Option Expr) (walk : Walk) :
    Gathers env.source (visitsOptional env.naming value) walk (walkOptional env value walk) := by
  cases value with
  | none =>
    rw [visitsOptional_none, walkOptional_none]
    exact .refl walk
  | some value =>
    rw [visitsOptional, walkOptional]
    exact walkExpr_gathers env value walk

theorem walkConditionals_gathers (env : Env) (values : List Expr) (walk : Walk) :
    Gathers env.source (visitsExprs env.naming values) walk
      (walkConditionals env values walk) := by
  cases values with
  | nil =>
    rw [visitsExprs_nil, walkConditionals_nil]
    exact .refl walk
  | cons value rest =>
    rw [visitsExprs, walkConditionals]
    have skipped : Gathers env.source _ walk (walk.conditionally (walkExpr env value)) :=
      (walkExpr_gathers env value walk).then_eases (.setExits _ _)
    exact skipped.chain (walkConditionals_gathers env rest _)

theorem walkItems_gathers (env : Env) (items : List Item) (walk : Walk) :
    Gathers env.source (visitsItems env.naming items) walk (walkItems env items walk) := by
  cases items with
  | nil =>
    rw [visitsItems_nil, walkItems_nil]
    exact .refl walk
  | cons item rest =>
    cases item with
    | skip =>
      rw [visitsItems, walkItems]
      exact walkItems_gathers env rest walk
    | entry key value byRef unpack =>
      rw [visitsItems, walkItems]
      exact ((walkOptional_gathers env key walk).chain (walkExpr_gathers env value _)).chain
        (walkItems_gathers env rest _)

theorem walkRef_gathers (env : Env) (ref : ClassRef) (walk : Walk) :
    Gathers env.source (visitsRef env.naming ref) walk (walkRef env ref walk) := by
  cases ref with
  | dynamic value =>
    rw [visitsRef, walkRef]
    exact walkExpr_gathers env value walk
  | named | self | static | parent =>
    rw [visitsRef, walkRef]
    exact .refl walk

theorem walkArms_gathers (env : Env) (late : Bool) (arms : List MatchArm) (walk : Walk) :
    Gathers env.source (visitsArms env.naming late arms) walk (walkArms env arms walk) := by
  cases arms with
  | nil =>
    rw [visitsArms_nil, walkArms_nil]
    exact .refl walk
  | cons arm rest =>
    obtain ⟨conditions, body⟩ := arm
    rw [visitsArms, walkArms]
    have conditions := (walkConditionals_gathers env conditions walk).hastenIf late
    exact (conditions.chain ((walkExpr_gathers env body _).then_eases (.setExits _ _))).chain
      (walkArms_gathers env _ rest _)

theorem walkProbe_gathers (env : Env) (value : Expr) (walk : Walk) :
    Gathers env.source (visitsProbe env.naming value) walk (walkProbe env value walk) := by
  obtain ⟨kind, span⟩ := value
  rw [visitsProbe.eq_def, walkProbe.eq_def]
  have read := walkKind_gathers env span kind walk
  cases kind with
  | paren inner => exact walkProbe_gathers env inner walk
  | var name => exact .untrack rfl rfl walk
  | element base index =>
    exact (walkProbe_gathers env base walk).chain (walkOptional_gathers env index _)
  | property object _ _ => exact walkProbe_gathers env object walk
  | _ => exact read

theorem walkProbes_gathers (env : Env) (values : List Expr) (walk : Walk) :
    Gathers env.source (visitsProbes env.naming values) walk (walkProbes env values walk) := by
  cases values with
  | nil =>
    rw [visitsProbes_nil, walkProbes_nil]
    exact .refl walk
  | cons value rest =>
    rw [visitsProbes, walkProbes]
    exact (walkProbe_gathers env value walk).chain (walkProbes_gathers env rest _)

theorem walkAssign_gathers (env : Env) (mode : AssignMode) (types : TypeSet) (target : Expr)
    (walk : Walk) :
    Gathers env.source (visitsAssign env.naming mode target) walk
      (walkAssign env mode types target walk) := by
  obtain ⟨kind, span⟩ := target
  rw [visitsAssign.eq_def, walkAssign.eq_def]
  have read := (walkKind_gathers env span kind walk).hastenIf true
  cases kind with
  | var name => exact .assignVar mode types name span walk
  | paren inner => exact walkAssign_gathers env mode types inner walk
  | element base index =>
    exact .eases_then (.checkArrayAccess base _ walk)
      ((walkStore_gathers env types base.span true base _).chain
        ((walkOptional_gathers env index _).hastenIf true))
  | list items | array items => exact walkPattern_gathers env types 0 items walk
  | property object name nullsafe =>
    exact .eases_then ((Eases.impure walk).trans (.assignOwnProperty types object name _))
      ((walkExpr_gathers env object _).hastenIf true)
  | staticProperty ref name =>
    exact .eases_then ((Eases.impure walk).trans (.assignOwnStatic types ref name _))
      ((walkRef_gathers env ref _).hastenIf true)
  | _ => exact read

theorem walkPattern_gathers (env : Env) (types : TypeSet) (position : Nat) (items : List Item)
    (walk : Walk) :
    Gathers env.source (visitsPattern env.naming items) walk
      (walkPattern env types position items walk) := by
  cases items with
  | nil =>
    rw [visitsPattern_nil, walkPattern_nil]
    exact .refl walk
  | cons item rest =>
    cases item with
    | skip =>
      rw [visitsPattern, walkPattern]
      exact walkPattern_gathers env types position rest walk
    | entry key value byRef unpack =>
      rw [visitsPattern, walkPattern]
      have slot := (walkOptional_gathers env key walk).then_eases (.shareSlot byRef value _)
      exact (slot.chain (walkAssign_gathers env .plain _ value _)).chain
        (walkPattern_gathers env types (position + 1) rest _)

theorem walkStore_gathers (env : Env) (types : TypeSet) (outer : Span) (early : Bool)
    (base : Expr) (walk : Walk) :
    Gathers env.source (visitsContainer env.naming early base) walk
      (walkStore env types outer base walk) := by
  obtain ⟨kind, span⟩ := base
  rw [visitsContainer.eq_def, walkStore.eq_def]
  have read (walk : Walk) := (walkKind_gathers env span kind walk).hastenIf early
  cases kind with
  | paren inner => exact walkStore_gathers env types outer early inner walk
  | var name => exact .storeInVar types name outer span walk
  | element base index =>
    exact .eases_then (.checkArrayAccess base outer walk)
      ((walkStore_gathers env types.inArray base.span early base _).chain
        ((walkOptional_gathers env index _).hastenIf early))
  | property | staticProperty => exact .eases_then (.impure walk) (read _)
  | _ => exact read walk

theorem walkShared_gathers (env : Env) (value : Expr) (walk : Walk) :
    Gathers env.source (visitsExpr env.naming value) walk (walkShared env value walk) := by
  obtain ⟨kind, span⟩ := value
  rw [visitsExpr, walkShared.eq_def]
  have read := walkKind_gathers env span kind walk
  cases kind with
  | paren inner =>
    rw [visitsKind_paren]
    exact walkShared_gathers env inner walk
  | var name =>
    rw [visitsKind]
    exact .shareVar name span walk
  | _ => exact read

theorem walkArgs_gathers (env : Env) (params : Option (List ParamInfo)) (position : Nat)
    (args : List Arg) (walk : Walk) :
    Gathers env.source (visitsArgs env.naming args) walk
      (walkArgs env params position args walk) := by
  cases args with
  | nil =>
    rw [visitsArgs_nil, walkArgs_nil]
    exact .refl walk
  | cons arg rest =>
    obtain ⟨value, unpack, label⟩ := arg
    rw [visitsArgs, walkArgs]
    cases refParam? params position with
    | some param =>
      exact ((walkPassed_gathers env param value.span value walk).hastenIf _).chain
        (walkArgs_gathers env params (position + 1) rest _)
    | none =>
      exact ((walkExpr_gathers env value walk).hastenIf _).chain
        (walkArgs_gathers env params (position + 1) rest _)

theorem walkPassed_gathers (env : Env) (param : ParamInfo) (outer : Span) (value : Expr)
    (walk : Walk) :
    Gathers env.source (visitsExpr env.naming value) walk
      (walkPassed env param outer value walk) := by
  obtain ⟨kind, span⟩ := value
  rw [visitsExpr, walkPassed.eq_def]
  have read := walkKind_gathers env span kind walk
  cases kind with
  | paren inner =>
    rw [visitsKind_paren]
    exact walkPassed_gathers env param outer inner walk
  | var name =>
    rw [visitsKind]
    exact .passVar param name span walk
  | element base index =>
    rw [visitsKind]
    exact .eases_then (.checkArrayAccess base outer walk)
      (((visitsContainer_false env.naming base) ▸ walkStore_gathers env .mixed base.span false base
        _).chain (walkOptional_gathers env index _))
  | _ => exact read

theorem walkCompactArgs_gathers (env : Env) (args : List Arg) (walk : Walk) :
    Gathers env.source (visitsCompactArgs env.naming args) walk (walkCompactArgs env args walk) := by
  cases args with
  | nil =>
    rw [visitsCompactArgs_nil, walkCompactArgs_nil]
    exact .refl walk
  | cons arg rest =>
    obtain ⟨value, unpack, label⟩ := arg
    rw [visitsCompactArgs, walkCompactArgs]
    exact (walkCompact_gathers env value.span value walk).chain
      (walkCompactArgs_gathers env rest _)

theorem walkCompact_gathers (env : Env) (outer : Span) (value : Expr) (walk : Walk) :
    Gathers env.source (visitsCompact env.naming outer value) walk
      (walkCompact env outer value walk) := by
  obtain ⟨kind, span⟩ := value
  rw [visitsCompact.eq_def, walkCompact.eq_def]
  have read := walkKind_gathers env span kind walk
  cases kind with
  | paren inner => exact walkCompact_gathers env outer inner walk
  | string text =>
    cases text with
    | none => exact read
    | some name =>
      have named : Gathers env.source _ walk (walk.read env ("$" ++ name) outer) :=
        .read ("$" ++ name) outer walk
      dsimp only
      by_cases same : outer = span
      · subst same
        have once : [outer, outer].dedup = [outer] := by simp
        rw [once]
        exact named
      · have twice : [outer, span].dedup = [outer, span] := by simp [same]
        rw [twice]
        exact named.again rfl span
  | array items => exact walkCompactItems_gathers env items walk
  | _ => exact read

theorem walkCompactItems_gathers (env : Env) (items : List Item) (walk : Walk) :
    Gathers env.source (visitsCompactItems env.naming items) walk
      (walkCompactItems env items walk) := by
  cases items with
  | nil =>
    rw [visitsCompactItems_nil, walkCompactItems_nil]
    exact .refl walk
  | cons item rest =>
    cases item with
    | skip =>
      rw [visitsCompactItems, walkCompactItems]
      exact walkCompactItems_gathers env rest walk
    | entry key value byRef unpack =>
      rw [visitsCompactItems, walkCompactItems]
      exact (walkCompact_gathers env value.span value walk).chain
        (walkCompactItems_gathers env rest _)

theorem walkTest_weighs (env : Env) (negated inLogic : Bool) (test : Expr) (guard : Guard) :
    Weighs env.source (visitsTest env.naming negated test) guard
      (walkTest env negated inLogic test guard) := by
  obtain ⟨kind, span⟩ := test
  rw [visitsTest.eq_def, walkTest.eq_def]
  have read : Weighs env.source (visitsKind env.naming span kind) guard
      (guard.mapWalk (walkKind env span kind)) := .of_gathers (walkKind_gathers env span kind _)
  cases kind with
  | paren inner => exact walkTest_weighs env negated inLogic inner guard
  | binary op left right =>
    cases op with
    | and | or =>
      exact ((walkTest_weighs env negated true left guard).chain
        (walkTest_weighs env negated true right _)).setExits _
    | _ => exact read
  | unary op operand =>
    cases op with
    | not =>
      exact (Weighs.markNotEmpty guard negated operand span).chain
        (walkTest_weighs env (!negated) inLogic operand _)
    | _ => exact read
  | isset values =>
    exact (Weighs.markIsset guard negated values span).chain
      (.of_gathers (walkProbes_gathers env values _))
  | instanceOf subject ref =>
    have operands : Weighs env.source
        (Visits.chain (visitsExpr env.naming subject) (visitsRef env.naming ref)) guard
        (guard.mapWalk fun walk => walkRef env ref (walkExpr env subject walk)) :=
      .of_gathers ((walkExpr_gathers env subject _).chain (walkRef_gathers env ref _))
    exact operands.chain (.narrowTo _ env.naming subject ref negated inLogic span)
  | _ => exact read

/-- The walk over statements sees their visits. -/
theorem walkStmts_sees (env : Env) (body : List Stmt) (walk : Walk) :
    Sees env.source (visitsStmts env.naming body) walk (walkStmts env body walk) := by
  cases body with
  | nil =>
    rw [visitsStmts_nil, walkStmts_nil]
    exact .refl walk
  | cons stmt rest =>
    rw [visitsStmts, walkStmts]
    exact (walkStmt_sees env stmt walk).trans (walkStmts_sees env rest _)

theorem walkStmt_sees (env : Env) (stmt : Stmt) (walk : Walk) :
    Sees env.source (visitsStmt env.naming stmt) walk (walkStmt env stmt walk) := by
  obtain ⟨kind, span⟩ := stmt
  rw [visitsStmt, walkStmt]
  exact .eases_then (.checkDeadCode ⟨kind, span⟩ walk) (walkStmtKind_sees env span kind _)

theorem walkStmtKind_sees (env : Env) (span : Span) (kind : StmtKind) (walk : Walk) :
    Sees env.source (visitsStmtKind env.naming span kind) walk (walkStmtKind env kind walk) := by
  cases kind with
  | expr value =>
    rw [visitsStmtKind, walkStmtKind]
    exact (walkExpr_gathers env value walk).toSees
  | echo values =>
    rw [visitsStmtKind, walkStmtKind]
    exact .eases_then (.impure walk) (walkExprs_gathers env values _).toSees
  | returns value =>
    cases value with
    | none =>
      rw [visitsStmtKind, walkStmtKind, visitsOptional_none]
      have noted : Eases env.source walk { walk with bareReturn := true } :=
        .of_eq rfl rfl rfl rfl rfl
      exact .of_eases (noted.trans (.leave _ _))
    | some value =>
      rw [visitsStmtKind, walkStmtKind, visitsOptional]
      have noted (walk : Walk) (returnTypes : TypeSet) :
          Eases env.source walk { walk with returnTypes, returnsValue := true } :=
        .of_eq rfl rfl rfl rfl rfl
      exact (walkExpr_gathers env value walk).toSees.then_eases ((noted _ _).trans (.leave _ _))
  | breaks | continues =>
    rw [visitsStmtKind, walkStmtKind]
    exact .of_eases (.leave _ walk)
  | block body =>
    rw [visitsStmtKind_block, walkStmtKind_block]
    exact walkStmts_sees env body walk
  | branch test body bodySpan rest =>
    rw [visitsStmtKind, walkStmtKind.eq_def]
    have weighs := walkTest_weighs env false false test (.start walk [])
    have begun := Chained.first weighs [] 0
    have pushed := begun.push (walkStmts_sees env body _) weighs.walk.inLoop
      (fun keeping known => weighs.yes keeping (.inl known)) walk.scope
    exact (walkOtherwise_chained env walk.scope rest pushed).close _
  | whileLoop test body =>
    rw [visitsStmtKind, walkStmtKind]
    exact ((walkExpr_gathers env test walk).toSees.relabel .inHead).loop (walkStmts_sees env body _)
  | doWhile body test =>
    rw [visitsStmtKind, walkStmtKind]
    let entered := walk.mapBlock fun block => { block with insideLoop := true }
    have round := (walkStmts_sees env body entered).trans (walkExpr_gathers env test _).toSees
    exact (round.inBody rfl).looped (· \ Exits.loopLocal)
  | forLoop init test step body =>
    rw [visitsStmtKind, walkStmtKind]
    have started := (walkExprs_gathers env init walk).toSees
    have turned := (walkExprs_gathers env test (walkExprs env init walk)).toSees.trans
      (walkExprs_gathers env step _).toSees
    exact (started.trans (turned.relabel .inHead)).loop (walkStmts_sees env body _)
  | foreach subject key value byRef body =>
    rw [visitsStmtKind, walkStmtKind, ← List.append_assoc]
    let around := walkExpr env subject walk
    let entered : Walk := { around with block := around.block.child }
    let elements := (around.localType env subject).element
    let taken := walkKey env key (walkAssign env (.iteration value.span) elements value
      (shareSlot byRef value entered))
    have left : Sees env.source _ walk around := (walkExpr_gathers env subject walk).toSees
    have targets : Sees env.source (visitsAssign env.naming (.iteration value.span) value ++
        visitsKey env.naming key) entered taken :=
      (Sees.eases_then (.shareSlot byRef value entered) (walkAssign_gathers env _ _ value _).toSees)
        |>.trans (walkKey_gathers env key _).toSees
    have headed := targets.relabel .inHead
    have head := left.branch headed id fun keeping known => left.keeps keeping known
    have inner := (walkStmts_sees env body
      (taken.mapBlock fun block => { block with insideLoop := true })).inBody rfl
    have round := head.branch inner (fun outside => absurd outside.symm Bool.false_ne_true)
      fun keeping known => headed.keeps keeping.right (left.keeps keeping.left known)
    exact (round.then_eases (.mergeOptional _ _)).then_eases (.checkForeachKey key value _)
  | switch subject cases =>
    rw [visitsStmtKind, walkStmtKind]
    have walked := walkCases_sees env false cases { walk := walkExpr env subject walk }
    exact ((walkExpr_gathers env subject walk).toSees.trans walked).then_eases (.closeCases _)
  | tryCatch body catches final finalSpan =>
    rw [visitsStmtKind, walkStmtKind.eq_def]
    let entered := walkStmts env body { walk with block := walk.block.child }
    let thrown := afterThrow walk.block entered.block
    have tried : Sees env.source (visitsStmts env.naming body) walk
        { entered with block := walk.block } :=
      (Sees.refl walk).branch (walkStmts_sees env body _) id fun _ known => known
    have covers : walk.scope.Widens thrown.scope := Block.widens_afterThrow walk.block _
    have inLoop : thrown.insideLoop = walk.block.insideLoop := Block.insideLoop_afterThrow _ _
    have caught := tried.trans (walkCatches_sees env thrown catches
      { walk := { entered with block := walk.block } } covers.mayHave inLoop)
    cases final with
    | none =>
      rw [visitsFinal_none, List.append_nil]
      exact caught.then_eases (.closeTry _ _)
    | some last =>
      rw [visitsFinal]
      let clauses := walkCatches env thrown catches { walk := { entered with block := walk.block } }
      let finished := walkStmts env last { clauses.walk with block := thrown.child }
      have settled : Sees env.source _ walk { finished with block := clauses.walk.block } :=
        caught.branch (walkStmts_sees env last _)
          (fun outside => caught.inLoop.trans (inLoop.symm.trans outside)) fun keeping known => by
            have kept := caught.tolerates
            exact known.imp_right (Or.imp kept covers.mayHave)
      have checked := settled.then_eases (.checkFinally body entered.block
        ((catches.map (·.body)).zip clauses.branches) last finalSpan finished.block _)
      have closed := checked.then_eases (.closeTry entered.block { clauses with walk := _ })
      exact closed.then_eases (.closeFinally _ _)
  | global names =>
    rw [visitsStmtKind, walkStmtKind]
    exact .eases_then (.impure walk) (Gathers.globals names span _).toSees
  | static bindings =>
    rw [visitsStmtKind, walkStmtKind]
    exact .eases_then (.impure walk) (walkStatics_gathers env bindings _).toSees
  | unset names =>
    rw [visitsStmtKind, walkStmtKind]
    exact (Gathers.unset names span walk).toSees
  | constants items =>
    rw [visitsStmtKind, walkStmtKind]
    exact (walkConstItems_gathers env items walk).toSees
  | namespaced | imports | function | classLike | nop =>
    rw [visitsStmtKind, walkStmtKind]
    exact .refl walk

theorem walkKey_gathers (env : Env) (key : Option Expr) (walk : Walk) :
    Gathers env.source (visitsKey env.naming key) walk (walkKey env key walk) := by
  cases key with
  | none =>
    rw [visitsKey_none, walkKey_none]
    exact .refl walk
  | some key =>
    rw [visitsKey, walkKey]
    exact walkAssign_gathers env _ keyTypes key walk

theorem walkOtherwise_chained (env : Env) (initial : Scope) (rest : Otherwise)
    {visits : List Visit} {start : Walk} {chain : Chain}
    (chained : Chained env.source visits start chain) :
    Chained env.source (visits ++ visitsOtherwise env.naming rest) start
      (walkOtherwise env initial rest chain) := by
  cases rest with
  | nothing =>
    rw [visitsOtherwise_nothing, walkOtherwise_nothing, List.append_nil]
    exact ⟨chained.walk, chained.no, chained.implicit, chained.inLoop, chained.markers⟩
  | orElse body =>
    rw [visitsOtherwise, walkOtherwise]
    exact chained.push (walkStmts_sees env body _) chained.inLoop chained.no initial
  | orIf test body bodySpan rest =>
    rw [visitsOtherwise, walkOtherwise, ← List.append_assoc, ← List.append_assoc]
    let guard := walkTest env false false test
      (.start { chain.walk with block := chain.no } chain.markers)
    have weighs : Weighs env.source (visitsTest env.naming false test)
      (.start { chain.walk with block := chain.no } chain.markers) guard :=
      walkTest_weighs env false false test _
    have tested := chained.next weighs chain.branches chain.links
    have pushed := tested.push (walkStmts_sees env body guard.walk)
      (weighs.walk.inLoop.trans chained.inLoop)
      (fun keeping known => weighs.yes keeping.right (.inl (chained.no keeping.left known))) initial
    exact walkOtherwise_chained env initial rest pushed

theorem walkCases_sees (env : Env) (late : Bool) (cases : List Case) (walked : Cases) :
    Sees env.source (visitsCases env.naming late cases) walked.walk
      (walkCases env cases walked).walk := by
  cases cases with
  | nil =>
    rw [visitsCases_nil, walkCases_nil]
    exact .refl walked.walk
  | cons case rest =>
    obtain ⟨test, body, span, announced⟩ := case
    have tested := (walkOptional_gathers env test walked.walk).hastenIf late
    cases body with
    | nil =>
      rw [visitsCases, walkCases, visitsStmts_nil, List.append_nil]
      exact tested.toSees.trans (walkCases_sees env _ rest
        { walked with
          walk := walkOptional env test walked.walk
          hasDefault := walked.hasDefault || test.isNone })
    | cons first body =>
      rw [visitsCases, walkCases]
      let around := walkOptional env test walked.walk
      let ended := checkCaseBreak env span rest
        (walkStmts env (first :: body) { around with block := around.block.child })
      have inside := (walkStmts_sees env (first :: body)
        { around with block := around.block.child }).then_eases (.checkCaseBreak span rest _)
      have inLoop : ended.block.insideLoop = around.block.insideLoop := inside.inLoop
      have left : Sees env.source _ walked.walk { ended with block := around.block } :=
        tested.toSees.branch inside id fun keeping known => tested.keeps keeping known
      have combined {inner final : Walk} (ends : inner = if ended.block.continues then
            ended.silently (walkFallThrough env rest) else ended)
          (right : Sees env.source (visitsCases env.naming (late || test.isNone) rest)
            { inner with block := around.block } final) :
          Sees env.source (Visits.hastenIf late (visitsOptional env.naming test) ++
            visitsStmts env.naming (first :: body) ++
              visitsCases env.naming (late || test.isNone) rest) walked.walk final := by
        by_cases goesOn : ended.block.continues = true
        · rw [if_pos goesOn] at ends
          subst ends
          have echoes := Echoes.silently (walkFallThrough_echoes env (late || test.isNone) rest
            { ended with report := { ended.report with enabled := false } })
          exact echoes.1.then_sees left echoes.2 inLoop right
        · rw [if_neg goesOn] at ends
          subst ends
          exact left.trans right
      let inner := if ended.block.continues then
        ended.silently (walkFallThrough env rest) else ended
      let begun : Cases :=
        { walked with walk := around, hasDefault := walked.hasDefault || test.isNone }
      exact combined rfl (walkCases_sees env _ rest
        (begun.push inner.block { inner with block := around.block }))

theorem walkFallThrough_echoes (env : Env) (late : Bool) (cases : List Case) (walk : Walk) :
    Echoes (visitsCases env.naming late cases) walk (walkFallThrough env cases walk) := by
  cases cases with
  | nil =>
    rw [visitsCases_nil, walkFallThrough_nil]
    exact .refl walk
  | cons case rest =>
    obtain ⟨test, body, span, announced⟩ := case
    rw [visitsCases, walkFallThrough]
    have entered : Echoes (visitsStmts env.naming body) walk (walkStmts env body walk) :=
      .of_sees (walkStmts_sees env body walk)
    have within : visitsStmts env.naming body ⊆
        Visits.hastenIf late (visitsOptional env.naming test) ++ visitsStmts env.naming body :=
      fun _ => List.mem_append_right _
    split
    · exact (entered.mono within).trans (walkFallThrough_echoes env _ rest _)
    · exact entered.mono fun _ member => List.mem_append_left _ (within member)

theorem walkCatches_sees (env : Env) (thrown : Block) (catches : List Catch) (walked : Catches)
    (covers : ∀ {name}, walked.walk.scope.mayHave name = true → thrown.scope.mayHave name = true)
    (inLoop : thrown.insideLoop = walked.walk.block.insideLoop) :
    Sees env.source (visitsCatches env.naming catches) walked.walk
      (walkCatches env thrown catches walked).walk := by
  cases catches with
  | nil =>
    rw [visitsCatches_nil, walkCatches_nil]
    exact .refl walked.walk
  | cons clause rest =>
    obtain ⟨types, name, body, span⟩ := clause
    rw [visitsCatches, walkCatches]
    let entered : Walk := { walked.walk with block := thrown.child }
    have bound : Gathers env.source _ entered (bindCaught env types name entered) :=
      .bindCaught types name span entered
    have inner := bound.toSees.trans (walkStmts_sees env body _)
    have around := (Sees.refl walked.walk).branch inner (fun outside => inLoop.symm.trans outside)
      fun _ known => known.imp_right (Or.imp_right covers)
    exact around.trans (walkCatches_sees env thrown rest (walked.push _ _) covers inLoop)

theorem walkStatics_gathers (env : Env) (bindings : List Binding) (walk : Walk) :
    Gathers env.source (visitsBindings env.naming bindings) walk
      (walkStatics env bindings walk) := by
  cases bindings with
  | nil =>
    rw [visitsBindings_nil, walkStatics_nil]
    exact .refl walk
  | cons binding rest =>
    obtain ⟨name, value, span⟩ := binding
    rw [visitsBindings, walkStatics]
    have value := walkOptional_gathers env value walk
    refine .chain (.chain value (.bound span (.trans (.mapScope (.add ..)) (.share name _)) ?_))
      (walkStatics_gathers env rest _)
    exact .inr (.inr (Scope.mayHave_add_self ..))

theorem walkConstItems_gathers (env : Env) (items : List ConstItem) (walk : Walk) :
    Gathers env.source (visitsConstItems env.naming items) walk
      (walkConstItems env items walk) := by
  cases items with
  | nil =>
    rw [visitsConstItems_nil, walkConstItems_nil]
    exact .refl walk
  | cons item rest =>
    obtain ⟨name, value, span⟩ := item
    rw [visitsConstItems, walkConstItems]
    exact (walkExpr_gathers env value walk).chain (walkConstItems_gathers env rest _)

end

end Flow

end PhpAudit
