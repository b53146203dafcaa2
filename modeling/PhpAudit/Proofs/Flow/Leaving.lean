/-
This file proves that the exits which the walk records for a list of statements are exits that every
run takes. If the walk of a list that control reaches ends with recorded exits, no run of the list
completes; and if the walk of a body gives it a final exit, every run of the body that ends does so
by an exception or by the end of the program.
-/

import PhpAudit.Proofs.Flow.Trailing

namespace PhpAudit.Flow

open Execution

variable (env : Env)

/-! ### Walking statements -/

theorem follows_expr {expr : Expr} (followed : everyExpr (pacesExits env) expr = true) :
    Follows (evaluate env expr).lift (walkExpr env expr) :=
  .of_drift (drift_expr env expr (.inr trivial)) (live_expr env expr followed)

theorem drift_exprs {leaves : Prop} (values : List Expr)
    (permitted : values.all (everyExpr (isCalm env)) = true ∨ leaves) (walk : Walk) :
    Drift leaves walk.record (walkExprs env values walk).record := by
  induction values generalizing walk with
  | nil =>
    rw [walkExprs_nil]
    exact .refl _
  | cons value rest inductionHypothesis =>
    simp only [List.all_cons, Bool.and_eq_true, and_or_right] at permitted
    rw [walkExprs]
    exact .trans (drift_expr env value permitted.1 walk) (inductionHypothesis permitted.2 _)

theorem follows_exprs {values : List Expr}
    (followed : values.all (everyExpr (pacesExits env)) = true) :
    Follows (evaluateAll env values).lift (walkExprs env values) :=
  .of_drift (drift_exprs env values (.inr trivial)) (live_exprs env values followed)

theorem follows_target {target : Expr} (followed : everyExpr (pacesExits env) target = true)
    (mode : AssignMode) (types : TypeSet) :
    Follows ((place env target).seq (store env target)).lift
      (walkAssign env mode types target) :=
  .of_drift (drift_assign env mode types target (.inr trivial)) fun ends =>
    live_assign env mode types target followed (.inl (Runs.endsIn_seq_none.mp ends))

theorem follows_key {key : Option Expr} (followed : key.all (everyExpr (pacesExits env)) = true) :
    Follows (executeKey env key).lift (walkKey env key) := by
  cases key with
  | none =>
    refine .of_record (fun walk => ?_) (Runs.not_returned_lift _)
    rw [walkKey_none]
  | some key =>
    have target := follows_target env followed (.iteration key.span) keyTypes
    rw [executeKey]
    exact target.congr_record fun walk => by rw [walkKey]

theorem follows_returns {value : Option Expr}
    (followed : value.all (everyExpr (pacesExits env)) = true) (span : Span) :
    Follows (executeKind env span (.returns value)) (walkStmtKind env (.returns value)) := by
  rw [executeKind]
  have left : Follows (Runs.leave Leave.returned) fun walk => walk.leave .byReturn :=
    .leave _ fun _ => rfl
  cases value with
  | none =>
    have noValue : Follows (evaluateOptional env none).lift fun walk =>
        { walk with bareReturn := true } :=
      .of_record (fun _ => rfl) (Runs.not_returned_lift _)
    exact (noValue.seq left).congr_record fun walk => by rw [walkStmtKind]
  | some value =>
    have valued : Follows (evaluate env value).lift fun walk =>
        let after := walkExpr env value walk
        { after with
          returnTypes := after.returnTypes.append (after.localType env value)
          returnsValue := true } :=
      (follows_expr env followed).congr_record fun _ => rfl
    rw [evaluateOptional]
    exact (valued.seq left).congr_record fun walk => by rw [walkStmtKind]

theorem follows_while {test : Expr} {body : List Stmt}
    (followed : everyExpr (pacesExits env) test = true)
    (follows : Follows (execute env body) (walkStmts env body)) (span : Span) :
    Follows (executeKind env span (.whileLoop test body))
      (walkStmtKind env (.whileLoop test body)) := by
  rw [executeKind]
  refine (follows_loop (follows_expr env followed) (fun _ => follows)
    (fun block => { block.child with insideLoop := true }) (fun _ => rfl) (by simp)).congr_record
      fun walk => ?_
  rw [walkStmtKind]
  rfl

/-- The step of a loop is walked before the body, which makes no difference if it is calm. -/
theorem follows_for {init test step : List Expr} {body : List Stmt}
    (initial : init.all (everyExpr (pacesExits env)) = true)
    (tested : test.all (everyExpr (pacesExits env)) = true)
    (calm : step.all (everyExpr (isCalm env)) = true)
    (follows : Follows (execute env body) (walkStmts env body)) (span : Span) :
    Follows (executeKind env span (.forLoop init test step body))
      (walkStmtKind env (.forLoop init test step body)) := by
  have stepped : ∀ walk, (walkExprs env step walk).record = walk.record := fun walk =>
    (drift_exprs env step (.inl calm) walk).eq_of_not not_false
  rw [executeKind]
  have testedThenStepped : Follows (evaluateAll env test).lift fun walk =>
      walkExprs env step (walkExprs env test walk) :=
    (follows_exprs env tested).congr_record fun walk => stepped (walkExprs env test walk)
  refine ((follows_exprs env initial).seq (follows_loop testedThenStepped (fun _ => follows)
    (fun block => { block.child with insideLoop := true }) (fun _ => rfl)
    (Runs.not_returned_lift _))).congr_record fun walk => ?_
  rw [walkStmtKind]
  rfl

@[simp]
theorem record_checkForeachKey (key : Option Expr) (value : Expr) (walk : Walk) :
    (checkForeachKey env key value walk).record = walk.record :=
  congrArg Block.record (block_checkForeachKey env key value walk)

theorem follows_foreach {subject target : Expr} {key : Option Expr} {body : List Stmt}
    (followed : everyExpr (pacesExits env) subject = true)
    (keyed : key.all (everyExpr (pacesExits env)) = true)
    (assigned : everyExpr (pacesExits env) target = true)
    (follows : Follows (execute env body) (walkStmts env body)) (byRef : Bool) (span : Span) :
    Follows (executeKind env span (.foreach subject key target byRef body))
      (walkStmtKind env (.foreach subject key target byRef body)) := by
  have entered : Follows (execute env body) fun walk =>
      walkStmts env body (walk.mapBlock fun block => { block with insideLoop := true }) :=
    follows.record_then fun _ => rfl
  have round (types : TypeSet) := ((follows_target env assigned (.iteration target.span) types).seq
    ((follows_key env keyed).seq entered)).record_then fun walk => record_shareSlot walk byRef target
  have untested : Follows Runs.attempt.lift fun walk => walk :=
    .of_record (fun _ => rfl) (Runs.not_returned_lift _)
  rw [executeKind]
  refine ((follows_expr env followed).seq (follows_loop untested
    (fun outer => round (outer.localType env subject).element) Block.child (fun _ => rfl)
    (by simp))).congr_record fun walk => ?_
  rw [walkStmtKind, record_checkForeachKey]

theorem follows_global (names : List String) (span : Span) :
    Follows (executeKind env span (.global names)) (walkStmtKind env (.global names)) := by
  refine .of_record (fun walk => ?_) ?_
  · rw [walkStmtKind]
    refine (Walk.record_foldl _ ?_ names).trans (Walk.record_impure walk)
    exact fun _ _ => rfl
  · rw [executeKind]
    induction names <;> simp_all

theorem follows_unset (names : List String) (span : Span) :
    Follows (executeKind env span (.unset names)) (walkStmtKind env (.unset names)) := by
  refine .of_record (fun walk => ?_) ?_
  · rw [walkStmtKind]
    refine Walk.record_foldl walk ?_ names
    exact fun _ _ => rfl
  · rw [executeKind]
    induction names <;> simp_all

theorem follows_bindings (bindings : List Binding)
    (followed : everyBinding (everyExpr (pacesExits env)) bindings = true) :
    Follows (executeBindings env bindings).lift (walkStatics env bindings) := by
  refine .of_drift (fun walk => ?_) fun ends {walk} live => ?_
  · induction bindings generalizing walk with
    | nil =>
      rw [walkStatics_nil]
      exact .refl _
    | cons binding rest inductionHypothesis =>
      obtain ⟨name, value, span⟩ := binding
      simp only [everyBinding, Bool.and_eq_true] at followed
      rw [walkStatics]
      refine .trans (drift_optional env value (.inr trivial) walk)
        (.trans (.of_eq ?_) (inductionHypothesis followed.2 _))
      rfl
  · induction bindings generalizing walk with
    | nil => rwa [walkStatics_nil]
    | cons binding rest inductionHypothesis =>
      obtain ⟨name, value, span⟩ := binding
      simp only [everyBinding, Bool.and_eq_true] at followed
      simp only [executeBindings, Runs.endsIn_seq_none] at ends
      have followedValue : everyOptional (pacesExits env) value = true := by
        cases value with
        | none => rfl
        | some value => simpa [everyOptional] using followed.1
      rw [walkStatics]
      exact inductionHypothesis followed.2 ends.2
        (live_optional env value followedValue ends.1.1 live)

theorem follows_constants (items : List ConstItem)
    (followed : everyConst (everyExpr (pacesExits env)) items = true) :
    Follows (evaluateConstItems env items).lift (walkConstItems env items) := by
  refine .of_drift (fun walk => ?_) fun ends {walk} live => ?_
  · induction items generalizing walk with
    | nil =>
      rw [walkConstItems_nil]
      exact .refl _
    | cons item rest inductionHypothesis =>
      obtain ⟨name, value, span⟩ := item
      simp only [everyConst, Bool.and_eq_true] at followed
      rw [walkConstItems]
      exact .trans (drift_expr env value (.inr trivial) walk) (inductionHypothesis followed.2 _)
  · induction items generalizing walk with
    | nil => rwa [walkConstItems_nil]
    | cons item rest inductionHypothesis =>
      obtain ⟨name, value, span⟩ := item
      simp only [everyConst, Bool.and_eq_true] at followed
      simp only [evaluateConstItems, Runs.endsIn_seq_none] at ends
      rw [walkConstItems]
      exact inductionHypothesis followed.2 ends.2 (live_expr env value followed.1 ends.1.1 live)

@[simp]
theorem record_flushUnused (walk : Walk) : (walk.flushUnused env).record = walk.record := by
  unfold Walk.flushUnused
  split
  · rfl
  · refine Walk.record_foldl walk ?_ _
    exact fun _ _ => rfl

@[simp]
theorem record_checkDeadCode (stmt : Stmt) (walk : Walk) :
    (walk.checkDeadCode env stmt).record = walk.record := by
  unfold Walk.checkDeadCode
  extract_lets exempt
  split <;> rfl

/-! ### Jumps out of loops -/

theorem contained_events {Item : Type} (event : Item → Event) (items : List Item) :
    Runs.Contained
      (items.foldr (fun item rest => (Runs.emit (event item)).seq rest) Runs.done) := by
  induction items with
  | nil => exact Runs.contained_done
  | cons item rest inductionHypothesis => exact (Runs.contained_emit _).seq inductionHypothesis

mutual

/-- Statements whose jumps stand in loops are not left by one. -/
theorem contained_body (body : List Stmt) (stays : staysInside body = true) :
    (execute env body).Contained := by
  cases body with
  | nil =>
    rw [execute_nil]
    exact Runs.contained_done
  | cons stmt rest =>
    obtain ⟨kind, span⟩ := stmt
    simp only [staysInside, everyStmt, Bool.and_eq_true] at stays
    rw [execute, executeStmt]
    exact (contained_kind kind span stays.1.1 stays.1.2).seq (contained_body rest stays.2)

theorem contained_kind (kind : StmtKind) (span : Span) (own : keepsJumps false kind = true)
    (parts : everyPart (fun _ => true) keepsJumps false kind = true) :
    (executeKind env span kind).Contained := by
  cases kind with
  | expr | echo | static | constants =>
    rw [executeKind]
    exact Runs.contained_lift _
  | returns value =>
    rw [executeKind]
    exact (Runs.contained_lift _).seq (by simp [Runs.Contained])
  | block body =>
    rw [executeKind_block]
    exact contained_body body parts
  | branch test body bodySpan rest =>
    simp only [everyPart, Bool.and_eq_true] at parts
    rw [executeKind]
    exact (Runs.contained_lift _).seq
      ((contained_body body parts.1.2).union (contained_otherwise rest parts.2))
  | whileLoop test body =>
    rw [executeKind]
    exact .loop _ (Runs.contained_lift _) Runs.contained_done
  | forLoop init test step body =>
    rw [executeKind]
    exact (Runs.contained_lift _).seq (.loop _ (Runs.contained_lift _) (Runs.contained_lift _))
  | foreach subject key target byRef body =>
    rw [executeKind]
    exact (Runs.contained_lift _).seq (.loop _ (Runs.contained_lift _) Runs.contained_done)
  | tryCatch body catches final finalSpan =>
    simp only [everyPart, Bool.and_eq_true] at parts
    have rescued := (contained_body body parts.1.1).rescue (contained_catches catches parts.1.2)
    cases final with
    | none =>
      rw [executeKind]
      exact rescued
    | some last =>
      rw [executeKind]
      exact rescued.ensuring (contained_body last parts.2)
  | global names =>
    rw [executeKind]
    exact contained_events (fun name => .write name span) names
  | unset names =>
    rw [executeKind]
    exact contained_events .unset names
  | breaks | continues => simp [keepsJumps] at own
  | switch subject cases =>
    rw [executeKind]
    exact (Runs.contained_lift _).seq (Runs.contained_round Runs.contained_done)
  | doWhile body test =>
    rw [executeKind]
    exact Runs.contained_round (.loop _ (Runs.contained_lift _) Runs.contained_done)
  | namespaced | imports | function | classLike | nop =>
    rw [executeKind]
    exact Runs.contained_done

theorem contained_otherwise (rest : Otherwise)
    (parts : everyOtherwise (fun _ => true) keepsJumps false rest = true) :
    (executeOtherwise env rest).Contained := by
  cases rest with
  | nothing =>
    rw [executeOtherwise_nothing]
    exact Runs.contained_done
  | orElse body =>
    rw [executeOtherwise]
    exact contained_body body parts
  | orIf test body span rest =>
    simp only [everyOtherwise, Bool.and_eq_true] at parts
    rw [executeOtherwise]
    exact (Runs.contained_lift _).seq
      ((contained_body body parts.1.2).union (contained_otherwise rest parts.2))

theorem contained_catches (clauses : List Catch)
    (parts : everyCatch (fun _ => true) keepsJumps false clauses = true) :
    (executeCatches env clauses).Contained := by
  cases clauses with
  | nil => simp [executeCatches, Runs.Contained]
  | cons clause rest =>
    obtain ⟨types, name, body, span⟩ := clause
    simp only [everyCatch, Bool.and_eq_true] at parts
    rw [executeCatches]
    refine Runs.Contained.union (.seq ?_ (contained_body body parts.1))
      (contained_catches rest parts.2)
    cases name with
    | none => exact Runs.contained_done
    | some name => exact Runs.contained_emit _

end

/-- A body outside of loops has no `break` or `continue` to leave it by. -/
theorem contained_stmts (body : List Stmt) (followed : Followed false body) :
    (execute env body).Contained := by
  refine contained_body env body (everyStmt_mono (fun _ _ => rfl) ?_ false body followed)
  intro inLoop kind own
  cases kind <;> first | exact own | rfl

/-! ### Jumps at the end -/

theorem ends_nil : Ends (execute env []) (walkStmts env []) := by
  rw [execute]
  exact .of_contained (.of_record (fun walk => by rw [walkStmts]) (by simp)) Runs.contained_done

/-- A statement that is not left by a jump may stand before the end. -/
theorem ends_cons {kind : StmtKind} {span : Span} {rest : List Stmt}
    (follows : Follows (executeKind env span kind) (walkStmtKind env kind))
    (stays : staysInside [⟨kind, span⟩] = true)
    (ends : Ends (execute env rest) (walkStmts env rest)) :
    Ends (execute env (⟨kind, span⟩ :: rest)) (walkStmts env (⟨kind, span⟩ :: rest)) := by
  simp only [staysInside, everyStmt, Bool.and_eq_true] at stays
  have first := follows.record_then fun walk => record_checkDeadCode env ⟨kind, span⟩ walk
  rw [execute, executeStmt]
  exact (ends.seq first (contained_kind env kind span stays.1.1 stays.1.2)).congr_record fun walk => by
    rw [walkStmts, walkStmt]

theorem ends_block {body : List Stmt} (ends : Ends (execute env body) (walkStmts env body))
    (span : Span) :
    Ends (execute env [⟨.block body, span⟩]) (walkStmts env [⟨.block body, span⟩]) := by
  rw [execute, executeStmt, execute, Runs.seq_done, executeKind]
  refine (ends.record_then fun walk =>
    record_checkDeadCode env ⟨.block body, span⟩ walk).congr_record fun walk => ?_
  rw [walkStmts, walkStmt, walkStmts, walkStmtKind]

/-! ### Walking lists of statements -/

mutual

/-- The walk over a list of statements follows its runs. -/
theorem follows_body (inLoop : Bool) (body : List Stmt) (paced : Paced env inLoop body) :
    Follows (execute env body) (walkStmts env body) := by
  cases body with
  | nil =>
    rw [execute_nil]
    exact .of_record (fun walk => by rw [walkStmts_nil]) (by simp)
  | cons stmt rest =>
    obtain ⟨kind, span⟩ := stmt
    simp only [Paced, everyStmt, Bool.and_eq_true] at paced
    obtain ⟨⟨own, parts⟩, others⟩ := paced
    have first := (follows_statement inLoop kind span own parts).record_then
      fun walk => record_checkDeadCode env ⟨kind, span⟩ walk
    rw [execute, executeStmt]
    exact (first.seq (follows_body inLoop rest others)).congr_record fun walk => by
      rw [walkStmts, walkStmt]

theorem follows_statement (inLoop : Bool) (kind : StmtKind) (span : Span)
    (own : followsJumps env inLoop kind = true)
    (parts : everyPart (everyExpr (pacesExits env)) (followsJumps env) inLoop kind = true) :
    Follows (executeKind env span kind) (walkStmtKind env kind) := by
  cases kind with
  | expr value =>
    rw [executeKind]
    exact (follows_expr env parts).congr_record fun walk => by rw [walkStmtKind]
  | echo values =>
    have noted : Follows ((evaluateAll env values).seq Runs.attempt).lift
        fun walk => walkExprs env values walk.impure :=
      .of_drift (fun walk => drift_exprs env values (.inr trivial) walk.impure) fun ends _ live =>
        live_exprs env values parts (Runs.endsIn_seq_none.mp ends).1 live
    rw [executeKind]
    exact noted.congr_record fun walk => by rw [walkStmtKind]
  | returns value => exact follows_returns env parts span
  | breaks =>
    rw [executeKind]
    exact (Follows.leave .byBreak (by simp)).congr_record fun walk => by rw [walkStmtKind]
  | continues =>
    rw [executeKind]
    exact (Follows.leave .byContinue (by simp)).congr_record fun walk => by
      rw [walkStmtKind]
  | block body =>
    rw [executeKind_block]
    exact (follows_body inLoop body parts).congr_record fun walk => by rw [walkStmtKind_block]
  | branch test body bodySpan rest =>
    simp only [everyPart, Bool.and_eq_true] at parts
    exact follows_branch env bodySpan span parts.1.1 (follows_body inLoop body parts.1.2)
      (extends_otherwise inLoop rest parts.2)
  | whileLoop test body =>
    simp only [everyPart, Bool.and_eq_true] at parts
    exact follows_while env parts.1 (follows_body true body parts.2) span
  | forLoop init test step body =>
    simp only [everyPart, Bool.and_eq_true] at parts
    exact follows_for env parts.1.1.1 parts.1.1.2 own (follows_body true body parts.2) span
  | foreach subject key target byRef body =>
    simp only [everyPart, Bool.and_eq_true] at parts
    exact follows_foreach env parts.1.1.1 parts.1.1.2 parts.1.2 (follows_body true body parts.2)
      byRef span
  | tryCatch body catches final finalSpan =>
    simp only [everyPart, Bool.and_eq_true] at parts
    cases final with
    | none =>
      exact follows_try env (follows_body inLoop body parts.1.1)
        (extends_catches inLoop catches parts.1.2) finalSpan span
    | some last =>
      exact follows_tryFinally env (follows_body inLoop body parts.1.1)
        (extends_catches inLoop catches parts.1.2) (follows_body inLoop last parts.2) finalSpan span
  | global names => exact follows_global env names span
  | unset names => exact follows_unset env names span
  | static bindings =>
    rw [executeKind]
    exact ((follows_bindings env bindings parts).record_then fun walk =>
      walk.record_impure).congr_record fun walk => by rw [walkStmtKind]
  | constants items =>
    rw [executeKind]
    exact (follows_constants env items parts).congr_record fun walk => by rw [walkStmtKind]
  | switch subject cases =>
    simp only [everyPart, Bool.and_eq_true] at parts
    exact follows_switch parts.1 (everyCase_tests parts.2) own (follows_bodies cases parts.2)
      (ends_bodies cases parts.2) span
  | doWhile body test =>
    simp only [everyPart, Bool.and_eq_true] at parts
    exact follows_doWhile parts.2 (follows_body true body parts.1)
      (ends_body true body parts.1 own) span
  | namespaced | imports | function | classLike | nop =>
    rw [executeKind]
    exact .of_record (fun walk => by rw [walkStmtKind]) (by simp)

theorem extends_otherwise (inLoop : Bool) (rest : Otherwise)
    (parts : everyOtherwise (everyExpr (pacesExits env)) (followsJumps env) inLoop rest = true)
    (initial : Scope) (chain : Chain) (no : chain.no.continues = true) :
    chain.Extends (executeOtherwise env rest) (walkOtherwise env initial rest chain) := by
  cases rest with
  | nothing => exact extends_nothing env initial chain no
  | orElse body => exact extends_orElse env (follows_body inLoop body parts) initial chain no
  | orIf test body span rest =>
    simp only [everyOtherwise, Bool.and_eq_true] at parts
    exact extends_orIf env span parts.1.1 (follows_body inLoop body parts.1.2)
      (extends_otherwise inLoop rest parts.2) initial chain

theorem extends_catches (inLoop : Bool) (clauses : List Catch)
    (parts : everyCatch (everyExpr (pacesExits env)) (followsJumps env) inLoop clauses = true)
    (thrown : Block) (catches : Catches) :
    catches.Extends (executeCatches env clauses) (walkCatches env thrown clauses catches) := by
  cases clauses with
  | nil =>
    rw [executeCatches_nil, walkCatches_nil]
    exact ⟨rfl, List.Subset.refl _, fun ends => absurd ends (by simp),
      fun ends => absurd ends (by simp)⟩
  | cons clause rest =>
    obtain ⟨types, name, body, span⟩ := clause
    simp only [everyCatch, Bool.and_eq_true] at parts
    exact extends_catch env types name span (follows_body inLoop body parts.1)
      (extends_catches inLoop rest parts.2) thrown catches

theorem follows_bodies (cases : List Case)
    (parts : everyCase (everyExpr (pacesExits env)) (followsJumps env) cases = true) :
    BodiesFollow env cases := by
  cases cases with
  | nil => exact List.forall_mem_nil _
  | cons case rest =>
    obtain ⟨test, body, span, announced⟩ := case
    simp only [everyCase, Bool.and_eq_true] at parts
    exact List.forall_mem_cons.mpr ⟨follows_body true body parts.1.2, follows_bodies rest parts.2⟩

theorem ends_bodies (cases : List Case)
    (parts : everyCase (everyExpr (pacesExits env)) (followsJumps env) cases = true)
    (last : cases.all (fun case => jumpsLast env case.body) = true) : BodiesEnd env cases := by
  cases cases with
  | nil => exact List.forall_mem_nil _
  | cons case rest =>
    obtain ⟨test, body, span, announced⟩ := case
    simp only [everyCase, Bool.and_eq_true] at parts
    simp only [List.all_cons, Bool.and_eq_true] at last
    exact List.forall_mem_cons.mpr
      ⟨ends_body true body parts.1.2 last.1, ends_bodies rest parts.2 last.2⟩

/-- The walk over a list of statements with jumps at its end tells how the list ends. -/
theorem ends_body (inLoop : Bool) (body : List Stmt) (paced : Paced env inLoop body)
    (last : jumpsLast env body = true) : Ends (execute env body) (walkStmts env body) := by
  cases body with
  | nil => exact ends_nil env
  | cons stmt rest =>
    obtain ⟨kind, span⟩ := stmt
    simp only [Paced, everyStmt, Bool.and_eq_true] at paced
    obtain ⟨⟨own, parts⟩, others⟩ := paced
    simp only [jumpsLast, Bool.or_eq_true, Bool.and_eq_true] at last
    rcases last with (⟨stays, last⟩ | ⟨empty, inBraces⟩) | only
    · exact ends_cons env (follows_statement inLoop kind span own parts) stays
        (ends_body inLoop rest others last)
    · obtain rfl := List.isEmpty_iff.mp empty
      cases kind with
      | block inner => exact ends_block env (ends_body inLoop inner parts inBraces) span
      | _ => cases inBraces
    · exact ends_of_jumpsOnly env only

end

theorem follows_stmts (inLoop : Bool) (body : List Stmt) (followed : Followed inLoop body) :
    Follows (execute env body) (walkStmts env body) :=
  follows_body env inLoop body (paced_of_followedBody env followed)

/-! ### Recorded exits are taken -/

/-- Only a body that was left, and in which no `return` was seen, has a final exit. -/
theorem not_live_of_finalExits {walk : Walk} (final : walk.finalExits ≠ .none) :
    ¬ walk.Live ∧ ¬ walk.MayReturn := by
  unfold Walk.finalExits at final
  dsimp only at final
  split at final
  · next equal =>
    simp only [Bool.and_eq_true, beq_iff_eq, Bool.not_eq_true'] at equal
    rw [← equal.1] at final
    refine ⟨fun live => final ?_, fun returned => ?_⟩
    · exact eq_of_beq live
    · unfold Walk.MayReturn at returned
      exact Bool.false_ne_true (equal.2.symm.trans returned)
  · exact absurd rfl final

/--
Recorded exits are taken. If the walk of a list of statements starts in a block that was not left and
ends in one that was, no run of the list completes. If the walk of a body gives it a final exit,
every run that ends does so by an exception or by the end of the program.
-/
theorem recorded_exits_taken (body : List Stmt) (followed : Followed false body) (walk : Walk)
    (fresh : walk.block.exits = .none) :
    ((walkStmts env body walk).block.exits ≠ .none →
      ∀ run ∈ execute env body, run.exit ≠ none) ∧
    ((walkBody env body walk).finalExits ≠ .none →
      ∀ run ∈ execute env body, run.exit ≠ some (.aborted .running) →
        run.exit = some (.aborted .thrown) ∨ run.exit = some (.aborted .died)) := by
  have live : walk.Live := by
    unfold Walk.Live Walk.record Block.record
    rw [fresh]
    rfl
  have follows := follows_stmts env false body followed
  constructor
  · intro left run member completes
    have reached : (walkStmts env body walk).Live := follows.live ⟨run, member, completes⟩ live
    exact left (eq_of_beq reached)
  · intro final run member ended
    rw [walkBody] at final
    obtain ⟨unreached, silent⟩ := not_live_of_finalExits final
    have contained := contained_stmts env body followed
    have kept := record_flushUnused env (walkStmts env body walk)
    match exit : run.exit with
    | none => exact absurd (live_of_record kept (follows.live ⟨run, member, exit⟩ live)) unreached
    | some .returned =>
      have returned := follows.returns ⟨run, member, exit⟩ live
      unfold Walk.MayReturn at silent
      rw [kept] at silent
      exact absurd returned silent
    | some .broke => exact absurd ⟨run, member, exit⟩ contained.1
    | some .continued => exact absurd ⟨run, member, exit⟩ contained.2
    | some (.aborted .thrown) => exact .inl rfl
    | some (.aborted .died) => exact .inr rfl
    | some (.aborted .running) => exact absurd exit ended

/--
`while ($a) { if ($b) break; }`, and then
`try { if ($a) exit; else throw $e; } catch (\E $x) { throw $x; } finally { $d = 1; }`
-/
def leavingBody : List Stmt :=
  let var (name : String) : Expr := ⟨.var name, ⟨0, 1⟩⟩
  let stmt (kind : StmtKind) : Stmt := ⟨kind, ⟨0, 1⟩⟩
  let expr (kind : ExprKind) : Stmt := stmt (.expr ⟨kind, ⟨0, 1⟩⟩)
  [stmt (.whileLoop (var "$a") [stmt (.branch (var "$b") [stmt .breaks] ⟨0, 1⟩ .nothing)]),
    stmt (.tryCatch
      [stmt (.branch (var "$a") [expr (.exit false [])] ⟨0, 1⟩ (.orElse [expr (.throw (var "$e"))]))]
      [⟨["\\E"], some "$x", [expr (.throw (var "$x"))], ⟨0, 1⟩⟩]
      (some [expr (.assign (var "$d") ⟨.integer, ⟨0, 1⟩⟩ .assign false)]) ⟨0, 1⟩)]

/-- A loop and a `try` whose every way out is an exception or the end of the program. -/
theorem recorded_exits_taken_leavingBody :
    (∀ run ∈ execute default leavingBody, run.exit ≠ none) ∧
    ∀ run ∈ execute default leavingBody, run.exit ≠ some (.aborted .running) →
      run.exit = some (.aborted .thrown) ∨ run.exit = some (.aborted .died) := by
  have taken := recorded_exits_taken default leavingBody (by decide +kernel)
    (.start .empty { enabled := true }) rfl
  exact ⟨taken.1 (by decide +kernel), taken.2 (by decide +kernel)⟩

/-- `$a && exit;` with an operator that could not be read. -/
def unreadOperator : List Stmt :=
  [⟨.expr ⟨.binary .other ⟨.var "$a", ⟨0, 2⟩⟩ ⟨.exit false [], ⟨6, 10⟩⟩, ⟨0, 10⟩⟩, ⟨0, 11⟩⟩]

/--
The right operand of an operator that could not be read is walked as if it could not be skipped, so
the exits recorded for it are not always taken.
-/
theorem unreadOperator_completes :
    (walkStmts default unreadOperator (.start .empty { enabled := true })).block.exits ≠ .none ∧
      ∃ run ∈ execute default unreadOperator, run.exit = none := by
  constructor
  · decide +kernel
  · show Runs.EndsIn _ none
    simp [unreadOperator, execute, executeStmt, executeKind, evaluate, evaluateKind,
      Execution.read]

end PhpAudit.Flow
