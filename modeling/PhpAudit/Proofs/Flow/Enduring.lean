/-
This file proves that a variable which is always defined stays so, unless `unset` takes it away in the
same block. Branches, loop bodies, cases and clauses are walked in blocks of their own, and joins only
add to the block around them; so it does not even matter what is unset in there.
-/

import PhpAudit.Proofs.Flow.Sparing
import PhpAudit.Proofs.Flow.Switching

namespace PhpAudit.Flow

variable {env : Env} {name : String} {walk : Walk}

/-! ### Expressions -/

theorem has_walkExpr (expr : Expr) (has : walk.scope.has name = true) :
    (walkExpr env expr walk).scope.has name = true :=
  (walkExpr_spares expr False.elim walk).has has

theorem has_walkOptional (value : Option Expr) (has : walk.scope.has name = true) :
    (walkOptional env value walk).scope.has name = true :=
  (walkOptional_spares value False.elim walk).has has

theorem has_walkExprs (values : List Expr) (has : walk.scope.has name = true) :
    (walkExprs env values walk).scope.has name = true := by
  induction values generalizing walk with
  | nil => rwa [walkExprs_nil]
  | cons value rest inductionHypothesis =>
    rw [walkExprs]
    exact inductionHypothesis (has_walkExpr value has)

theorem has_walkConstItems (items : List ConstItem) (has : walk.scope.has name = true) :
    (walkConstItems env items walk).scope.has name = true := by
  induction items generalizing walk with
  | nil => rwa [walkConstItems_nil]
  | cons item rest inductionHypothesis =>
    obtain ⟨_, value, _⟩ := item
    rw [walkConstItems]
    exact inductionHypothesis (has_walkExpr value has)

theorem has_walkStatics (bindings : List Binding) (has : walk.scope.has name = true) :
    (walkStatics env bindings walk).scope.has name = true := by
  induction bindings generalizing walk with
  | nil => rwa [walkStatics_nil]
  | cons binding rest inductionHypothesis =>
    obtain ⟨_, value, _⟩ := binding
    rw [walkStatics]
    refine inductionHypothesis ?_
    exact Scope.has_add_of_has (has_walkOptional value has)

/-! ### Branches -/

/-- A variable that is defined where the tests so far are false, and that no test marked. -/
structure Chain.Knows (name : String) (chain : Chain) : Prop where
  no : chain.no.scope.has name = true
  unmarked : name ∉ chain.markers

/-- The outcomes of a test that comes after others, or of the first one. -/
theorem knows_test (env : Env) (walk : Walk) (test : Expr) {markers : List String}
    (has : walk.scope.has name = true) (unmarked : name ∉ markers) :
    let split := (walkTest env false false test (.start walk markers)).split walk.block
    split.yes.scope.has name = true ∧ split.no.scope.has name = true ∧ name ∉ split.markers := by
  have tested : Guard.Spares name (.start walk markers)
      (walkTest env false false test (.start walk markers)) :=
    walkTest_spares false false test False.elim _
  obtain ⟨yes, no⟩ := tested.outcomes has
  exact ⟨yes, no, fun member => unmarked (tested.markers has member)⟩

theorem knows_walkOtherwise {rest : Otherwise} {initial : Scope} {chain : Chain}
    (knows : chain.Knows name) : (walkOtherwise env initial rest chain).Knows name := by
  cases rest with
  | nothing =>
    rw [walkOtherwise_nothing]
    exact ⟨knows.no, knows.unmarked⟩
  | orElse body =>
    rw [walkOtherwise]
    exact ⟨knows.no, knows.unmarked⟩
  | orIf test body span rest =>
    rw [walkOtherwise]
    refine knows_walkOtherwise ?_
    obtain ⟨_, no, unmarked⟩ := knows_test env { chain.walk with block := chain.no } test knows.no
      knows.unmarked
    exact ⟨no, unmarked⟩

/-- The branches of an `if` leave the block around them alone until they are joined. -/
theorem block_walkOtherwise (rest : Otherwise) (initial : Scope) (chain : Chain) :
    (walkOtherwise env initial rest chain).walk.block = chain.walk.block := by
  cases rest with
  | nothing => rw [walkOtherwise_nothing]
  | orElse body => rw [walkOtherwise]; rfl
  | orIf test body span rest =>
    rw [walkOtherwise, block_walkOtherwise rest]
    rfl

theorem has_close {chain : Chain} (knows : chain.Knows name)
    (has : chain.walk.scope.has name = true) (continuesInFalse : Bool) :
    (chain.close continuesInFalse).scope.has name = true := by
  unfold Chain.close
  refine Walk.has_dropMarkers knows.unmarked (Block.has_merge.mpr (.inl ?_))
  cases continuesInFalse with
  | false => exact has
  | true => exact knows.no

theorem has_branch (test : Expr) (body : List Stmt) (bodySpan : Span) (rest : Otherwise)
    (has : walk.scope.has name = true) :
    (walkStmtKind env (.branch test body bodySpan rest) walk).scope.has name = true := by
  obtain ⟨flag, _, _, equal⟩ := walkStmtKind_branch env test body bodySpan rest walk
  obtain ⟨_, no, unmarked⟩ := knows_test env walk test has List.not_mem_nil
  let guard := walkTest env false false test (.start walk [])
  rw [equal]
  refine has_close (knows_walkOtherwise ?_) ?_ flag
  · exact ⟨no, unmarked⟩
  · unfold Walk.scope
    rw [block_walkOtherwise]
    exact (guard.spares_split walk.block True).1.has has

/-! ### Cases and clauses -/

theorem has_walkCases (cases : List Case) {before : Cases}
    (has : before.walk.scope.has name = true) :
    (walkCases env cases before).walk.scope.has name = true :=
  block_walkCases env (fun first second => first.scope.has name = true → second.scope.has name = true)
    (fun _ => id) (fun left right has => right (left has))
    (fun test _ _ => has_walkExpr test) before has

theorem block_walkCatches (thrown : Block) (clauses : List Catch) (before : Catches) :
    (walkCatches env thrown clauses before).walk.block = before.walk.block := by
  induction clauses generalizing before with
  | nil => rw [walkCatches_nil]
  | cons clause rest inductionHypothesis =>
    obtain ⟨types, bound, body, span⟩ := clause
    rw [walkCatches, inductionHypothesis]
    rfl

theorem has_closeTry {tried : Block} {caught : Catches} (has : caught.walk.scope.has name = true) :
    (closeTry tried caught).scope.has name = true := by
  have joined : (caught.walk.block.merge (caught.branches ++ [tried])
      (if tried.continues then caught.links + 1 else caught.links)).scope.has name = true :=
    Block.has_merge.mpr (.inl has)
  exact joined

theorem has_closeFinally {finished : Block} (has : walk.scope.has name = true) :
    (closeFinally finished walk).scope.has name = true :=
  (Scope.has_foldl_add VarInfo.types (fun info => finished.continues && info.always)
    finished.scope.entries walk.scope).mpr (.inl has)

theorem has_mergeOptional {branch : Block} (has : walk.scope.has name = true) :
    (walk.mapBlock (·.mergeOptional branch)).scope.has name = true :=
  (Scope.Spares.mergeOptional walk.block branch : Scope.Spares name True _ _).has has

theorem has_try (body : List Stmt) (clauses : List Catch) (final : Option (List Stmt))
    (finalSpan : Span) (has : walk.scope.has name = true) :
    (walkStmtKind env (.tryCatch body clauses final finalSpan) walk).scope.has name = true := by
  have caught (thrown : Block) (walk : Walk) (has : walk.scope.has name = true) :
      (walkCatches env thrown clauses { walk }).walk.scope.has name = true := by
    unfold Walk.scope at *
    rwa [block_walkCatches]
  rw [walkStmtKind.eq_def]
  cases final with
  | none => exact has_closeTry (caught _ _ has)
  | some last =>
    refine has_closeFinally (has_closeTry ?_)
    refine (congrArg (Scope.has · name) (idle_checkFinally ..).1).trans ?_
    exact caught _ _ has

/-! ### Statements -/

/-- Whether a statement leaves the variable set. -/
def keepsSet (name : String) : StmtKind → Bool
  | .unset names => !names.contains name
  | _ => true

/-- Nothing in the statements, at any depth, unsets the variable. -/
abbrev NeverUnset (name : String) (inLoop : Bool) (body : List Stmt) : Prop :=
  everyStmt (fun _ => true) (fun _ => keepsSet name) inLoop body = true

mutual

/-- A variable that is defined before the statements, and that they do not unset, is so after them. -/
theorem has_walkStmts (inLoop : Bool) (body : List Stmt) (kept : NeverUnset name inLoop body)
    {walk : Walk} (has : walk.scope.has name = true) :
    (walkStmts env body walk).scope.has name = true := by
  cases body with
  | nil => rwa [walkStmts_nil]
  | cons stmt rest =>
    obtain ⟨kind, span⟩ := stmt
    simp only [NeverUnset, everyStmt, Bool.and_eq_true] at kept
    obtain ⟨⟨own, parts⟩, others⟩ := kept
    rw [walkStmts, walkStmt]
    have reached : (walk.checkDeadCode env ⟨kind, span⟩).scope.has name = true := by
      rwa [(Walk.idle_checkDeadCode env ⟨kind, span⟩ walk).1]
    exact has_walkStmts inLoop rest others (has_walkStmtKind inLoop kind own parts reached)

theorem has_walkStmtKind (inLoop : Bool) (kind : StmtKind) (own : keepsSet name kind = true)
    (parts : everyPart (fun _ => true) (fun _ => keepsSet name) inLoop kind = true) {walk : Walk}
    (has : walk.scope.has name = true) : (walkStmtKind env kind walk).scope.has name = true := by
  cases kind with
  | branch test body bodySpan rest => exact has_branch test body bodySpan rest has
  | tryCatch body clauses final finalSpan => exact has_try body clauses final finalSpan has
  | doWhile body test =>
    simp only [everyPart, Bool.and_eq_true] at parts
    rw [walkStmtKind]
    have entered : (walk.mapBlock fun block => { block with insideLoop := true }).scope.has name =
      true := has
    exact has_walkExpr test (has_walkStmts true body parts.1 entered)
  | block body =>
    rw [walkStmtKind_block]
    exact has_walkStmts inLoop body parts has
  | unset names =>
    simp only [keepsSet, Bool.not_eq_true', List.contains_eq_mem, decide_eq_false_iff_not] at own
    rw [walkStmtKind]
    refine List.foldlRecOn (motive := fun walk : Walk => walk.scope.has name = true) names _ has
      fun walk has other member => ?_
    exact (walk.untrack env other).scope.has_erase_of_ne (fun equal => own (equal ▸ member)) has
  | global names =>
    rw [walkStmtKind]
    exact List.foldlRecOn (motive := fun walk : Walk => walk.scope.has name = true) names _ has
      fun _ has _ _ => Scope.has_assign_of_has has
  | expr value =>
    rw [walkStmtKind]
    exact has_walkExpr value has
  | echo values =>
    rw [walkStmtKind]
    have reached : walk.impure.scope.has name = true := has
    exact has_walkExprs values reached
  | returns value =>
    cases value with
    | none =>
      rw [walkStmtKind, Walk.scope_leave]
      exact has
    | some value =>
      rw [walkStmtKind, Walk.scope_leave]
      exact has_walkExpr value has
  | breaks | continues =>
    rw [walkStmtKind, Walk.scope_leave]
    exact has
  | whileLoop test body =>
    rw [walkStmtKind]
    exact has_mergeOptional (has_walkExpr test has)
  | forLoop init test step body =>
    rw [walkStmtKind]
    exact has_mergeOptional (has_walkExprs step (has_walkExprs test (has_walkExprs init has)))
  | foreach subject key value byRef body =>
    rw [walkStmtKind]
    refine (congrArg (Scope.has · name) (idle_checkForeachKey env key value _).1).trans ?_
    exact has_mergeOptional (has_walkExpr subject has)
  | switch subject cases =>
    rw [walkStmtKind]
    exact Block.has_merge.mpr (.inl (has_walkCases cases (has_walkExpr subject has)))
  | static bindings =>
    rw [walkStmtKind]
    have reached : walk.impure.scope.has name = true := has
    exact has_walkStatics bindings reached
  | constants items =>
    rw [walkStmtKind]
    exact has_walkConstItems items has
  | namespaced | imports | function | classLike | nop =>
    rw [walkStmtKind]
    exact has

end

end PhpAudit.Flow
