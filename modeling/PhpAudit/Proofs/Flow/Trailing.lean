/-
This file is about code that may follow a jump in a body: a `break` or `continue` in some branch
leaves no trace at the end, so what comes after it is walked as if it always ran. Plain statements,
whose expressions do not leave, preserve what such expressions and the joins of branches preserve; in
particular, control stays in the `switch` or goes on after it.
-/

import PhpAudit.Proofs.Flow.Switching

namespace PhpAudit

open Execution

namespace Flow

theorem block_checkForeachKey (env : Env) (key : Option Expr) (target : Expr) (walk : Walk) :
    (checkForeachKey env key target walk).block = walk.block := by
  unfold checkForeachKey
  split
  · rfl
  · split
    · split <;> rfl
    · rfl

/-! ### What plain statements preserve -/

/--
A property of blocks that depends on their exits and variables, and that is preserved by jumps, by
the expressions which `value` accepts, and where branches are joined.
-/
structure Preserved (env : Env) (value : Expr → Bool) (holds : Block → Prop) : Prop where
  same : ∀ {block other : Block}, other.exits = block.exits → other.scope = block.scope →
    holds block → holds other
  expr : ∀ {expr : Expr}, value expr = true → ∀ {walk : Walk}, holds walk.block →
    holds (walkExpr env expr walk).block
  /-- A condition, which is true in one outcome and false in the other -/
  condition : ∀ {test : Expr}, value test = true → ∀ (markers : List String) {walk : Walk},
    holds walk.block →
      let split := (walkTest env false false test (.start walk markers)).split walk.block
      holds split.walk.block ∧ holds split.yes ∧ holds split.no
  jump : ∀ {walk : Walk} {exits : Exits}, (exits \ Exits.loopLocal).isEmpty = true →
    holds walk.block → holds (walk.leave exits).block
  optional : ∀ {block : Block} (branch : Block), holds block → holds (block.mergeOptional branch)
  restore : ∀ {block branch : Block}, holds block → holds branch →
    holds (branch.restoreImplicit block.scope)
  close : ∀ {chain : Chain} (continuesInFalse : Bool), holds chain.walk.block → holds chain.no →
    (∀ branch ∈ chain.branches, holds branch) → holds (chain.close continuesInFalse).block

namespace Preserved

variable {env : Env} {value : Expr → Bool} {holds : Block → Prop}
  (preserved : Preserved env value holds)

include preserved

theorem exprs {values : List Expr} (accepted : values.all value = true) {walk : Walk}
    (before : holds walk.block) : holds (walkExprs env values walk).block := by
  induction values generalizing walk with
  | nil => rwa [walkExprs_nil]
  | cons first rest inductionHypothesis =>
    simp only [List.all_cons, Bool.and_eq_true] at accepted
    rw [walkExprs]
    exact inductionHypothesis accepted.2 (preserved.expr accepted.1 before)

theorem checkDeadCode (stmt : Stmt) {walk : Walk} (before : holds walk.block) :
    holds (walk.checkDeadCode env stmt).block := by
  unfold Walk.checkDeadCode
  extract_lets exempt
  split
  · exact before
  · refine preserved.same ?_ ?_ before <;> rfl

/-- The branches of an `if` that are walked in blocks with the property. -/
theorem push {chain : Chain} {block : Block} (outer : holds block)
    (branches : ∀ branch ∈ chain.branches, holds branch) {branch : Block} (own : holds branch)
    (walk : Walk) : ∀ pushed ∈ (chain.push block.scope branch walk).branches, holds pushed := by
  intro pushed member
  rcases List.mem_append.mp member with member | member
  · exact branches pushed member
  · rw [List.mem_singleton.mp member]
    exact preserved.restore outer own

variable {inLoop : Bool}

mutual

theorem stmts (body : List Stmt)
    (accepted : everyStmt value (fun _ => isPlain) inLoop body = true) {walk : Walk}
    (before : holds walk.block) : holds (walkStmts env body walk).block := by
  cases body with
  | nil => rwa [walkStmts_nil]
  | cons stmt rest =>
    obtain ⟨kind, span⟩ := stmt
    simp only [everyStmt, Bool.and_eq_true] at accepted
    rw [walkStmts, walkStmt]
    exact stmts rest accepted.2 (stmtKind kind accepted.1.1 accepted.1.2
      (preserved.checkDeadCode ⟨kind, span⟩ before))

theorem stmtKind (kind : StmtKind) (own : isPlain kind = true)
    (parts : everyPart value (fun _ => isPlain) inLoop kind = true) {walk : Walk}
    (before : holds walk.block) : holds (walkStmtKind env kind walk).block := by
  cases kind with
  | expr inner =>
    rw [walkStmtKind]
    exact preserved.expr parts before
  | echo values =>
    rw [walkStmtKind]
    exact preserved.exprs parts (preserved.same rfl rfl before)
  | block body =>
    rw [walkStmtKind_block]
    exact stmts body parts before
  | branch test body bodySpan rest =>
    simp only [everyPart, Bool.and_eq_true] at parts
    obtain ⟨flag, -, -, equal⟩ := walkStmtKind_branch env test body bodySpan rest walk
    obtain ⟨outer, yes, no⟩ := preserved.condition parts.1.1 [] before
    rw [equal]
    let split := (walkTest env false false test (.start walk [])).split walk.block
    obtain ⟨around, whereFalse, branches⟩ := otherwise rest parts.2 before
      ((Chain.start split).pushBranch env walk.scope body split split.walk) outer no
      (preserved.push before (List.forall_mem_nil _) (stmts body parts.1.2 yes) _)
    exact preserved.close flag around whereFalse branches
  | whileLoop test body =>
    simp only [everyPart, Bool.and_eq_true] at parts
    rw [walkStmtKind]
    exact preserved.optional _ (preserved.expr parts.1 before)
  | forLoop init test step body =>
    simp only [everyPart, Bool.and_eq_true] at parts
    rw [walkStmtKind]
    exact preserved.optional _ (preserved.exprs parts.1.2
      (preserved.exprs parts.1.1.2 (preserved.exprs parts.1.1.1 before)))
  | foreach subject key target byRef body =>
    simp only [everyPart, Bool.and_eq_true] at parts
    rw [walkStmtKind, block_checkForeachKey]
    exact preserved.optional _ (preserved.expr parts.1.1.1 before)
  | breaks | continues =>
    rw [walkStmtKind]
    exact preserved.jump rfl before
  | namespaced | imports | function | classLike | nop =>
    rw [walkStmtKind]
    exact before
  | returns | tryCatch | switch | doWhile | global | static | unset | constants =>
    cases own

theorem otherwise (rest : Otherwise)
    (parts : everyOtherwise value (fun _ => isPlain) inLoop rest = true) {block : Block}
    (outer : holds block) (chain : Chain) (around : holds chain.walk.block)
    (no : holds chain.no) (branches : ∀ branch ∈ chain.branches, holds branch) :
    holds (walkOtherwise env block.scope rest chain).walk.block ∧
      holds (walkOtherwise env block.scope rest chain).no ∧
      ∀ branch ∈ (walkOtherwise env block.scope rest chain).branches, holds branch := by
  cases rest with
  | nothing =>
    rw [walkOtherwise_nothing]
    exact ⟨around, no, branches⟩
  | orElse body =>
    rw [walkOtherwise]
    exact ⟨around, no, preserved.push outer branches (stmts body parts no) _⟩
  | orIf test body span rest =>
    simp only [everyOtherwise, Bool.and_eq_true] at parts
    let inner : Walk := { chain.walk with block := chain.no }
    obtain ⟨_, yes, whereFalse⟩ := preserved.condition parts.1.1 chain.markers
      (show holds inner.block from no)
    let split := (walkTest env false false test (.start inner chain.markers)).split chain.no
    let pushed := chain.pushBranch env block.scope body split
      { split.walk with block := chain.walk.block }
    have pushedHold : ∀ branch ∈ pushed.branches, holds branch :=
      preserved.push outer branches (stmts body parts.1.2 yes) chain.walk
    rw [walkOtherwise]
    exact otherwise rest parts.2 outer pushed around whereFalse pushedHold

end

end Preserved

/-! ### Staying in the `switch` -/

section

variable (env : Env)

theorem rejoins_of_exits {block other : Block} (same : other.exits = block.exits)
    (rejoins : Rejoins block) : Rejoins other := by
  unfold Rejoins caseExits at *
  rwa [same]

theorem isEmpty_diff_loopLocal {exits : Exits} :
    (exits \ Exits.loopLocal).isEmpty = true ↔
      exits.returns = false ∧ exits.throws = false ∧ exits.dies = false := by
  obtain ⟨returns, breaks, continues, throws, dies⟩ := exits
  cases returns <;> cases breaks <;> cases continues <;> cases throws <;> cases dies <;> decide

theorem isEmpty_union_diff_loopLocal {first second : Exits}
    (left : (first \ Exits.loopLocal).isEmpty = true)
    (right : (second \ Exits.loopLocal).isEmpty = true) :
    ((first ∪ second) \ Exits.loopLocal).isEmpty = true := by
  rw [isEmpty_diff_loopLocal] at *
  exact ⟨Bool.or_eq_false_iff.mpr ⟨left.1, right.1⟩,
    Bool.or_eq_false_iff.mpr ⟨left.2.1, right.2.1⟩, Bool.or_eq_false_iff.mpr ⟨left.2.2, right.2.2⟩⟩

theorem rejoins_foldl {branches : List Block} (rejoin : ∀ branch ∈ branches, Rejoins branch)
    {start : Exits} (before : (start \ Exits.loopLocal).isEmpty = true) :
    ((branches.foldl (fun exits branch => exits ∪ branch.exits) start) \
      Exits.loopLocal).isEmpty = true := by
  induction branches generalizing start with
  | nil => exact before
  | cons branch rest inductionHypothesis =>
    obtain ⟨own, others⟩ := List.forall_mem_cons.mp rejoin
    exact inductionHypothesis others (isEmpty_union_diff_loopLocal before own)

/-- Calm statements do not leave what is around the `switch`. -/
theorem preserved_rejoins : Preserved env (everyExpr (isCalm env)) Rejoins where
  same equal _ := rejoins_of_exits equal
  expr calm walk := by
    have drift := (drift_expr env _ (.inl calm) walk).eq_of_not not_false
    exact rejoins_of_exits (congrArg ExitRecord.exits drift)
  condition {test} calm markers walk before := by
    refine ⟨before, rejoins_of_continues ?_, rejoins_of_continues (continues_no env ..)⟩
    exact (congrArg Exits.isEmpty (exits_test env false false test calm (.start walk markers)))
  jump {walk exits} inside before := by
    have record := congrArg ExitRecord.exits (walk.record_leave exits)
    unfold ExitRecord.leave at record
    split at record
    · unfold Rejoins caseExits
      rwa [show (walk.leave exits).block.exits = exits from record]
    · exact rejoins_of_exits record before
  optional branch before := before
  restore _ own := own
  close {chain} flag around no branches := by
    have dropped := congrArg ExitRecord.exits (Walk.record_dropMarkers
      ((if flag then chain.continueInFalse else chain.walk).mapBlock fun block =>
        (block.propagate chain.branches chain.links).merge chain.branches chain.links)
      chain.markers)
    refine rejoins_of_exits dropped ?_
    have start : Rejoins (if flag then chain.continueInFalse else chain.walk).block := by
      cases flag
      · exact around
      · exact no
    show ((if chain.links == 0 && !chain.branches.isEmpty then _ ∪ _ else _) \
      Exits.loopLocal).isEmpty = true
    split
    · exact isEmpty_union_diff_loopLocal start (rejoins_foldl branches rfl)
    · exact start

/-- After a jump at the end of some statements the block was left. -/
theorem left_of_getLast {body : List Stmt}
    (jump : (body.getLast?.any fun stmt => match stmt.kind with
      | .breaks | .continues => true
      | _ => false) = true) (walk : Walk) : ¬ (walkStmts env body walk).Live := by
  have left (walk : Walk) {exits : Exits} (jump : exits ≠ .none) : ¬ (walk.leave exits).Live := by
    unfold Walk.Live
    rw [Walk.record_leave, ExitRecord.leave]
    split
    · exact fun empty => jump (eq_of_beq empty)
    · next gone => exact gone
  induction body generalizing walk with
  | nil => cases jump
  | cons stmt rest inductionHypothesis =>
    rw [walkStmts]
    cases rest with
    | nil =>
      obtain ⟨kind, span⟩ := stmt
      rw [walkStmts_nil, walkStmt]
      cases kind with
      | breaks =>
        rw [walkStmtKind]
        exact left _ (show Exits.byBreak ≠ .none by decide)
      | continues =>
        rw [walkStmtKind]
        exact left _ (show Exits.byContinue ≠ .none by decide)
      | _ => cases jump
    | cons next rest => exact inductionHypothesis (by simpa using jump) _

/-- Statements that only jumps leave, with a jump at the end. -/
theorem ends_of_jumpsOnly {body : List Stmt} {runs : Runs Leave} (jumps : jumpsOnly env body = true) :
    Ends runs (walkStmts env body) := by
  obtain ⟨plain, last⟩ := Bool.and_eq_true_iff.mp jumps
  exact {
    rejoins := fun _ _ live => (preserved_rejoins env).stmts body plain
      (rejoins_of_continues live.continues)
    jumps := fun _ walk _ => left_of_getLast env last walk }

end

end Flow

end PhpAudit
