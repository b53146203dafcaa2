/-
This file reads off the program how a variable stands at a point of it: whether code before the point
names it, and whether a test told of it. What a test tells holds in its outcomes alone, so the walk
gives back at the end of a branch what was known of a narrowed variable before. It keeps a flag for
that. In the program, a test of the variable narrows it in both outcomes, a guard narrows it for the
code behind, and a plain assignment makes it an ordinary variable again; a branch that is joined
changes nothing, whatever was assigned in it.

The description agrees with the scopes of the walk: the walk holds no variable that is not known, and
flags none that is not narrowed.
-/

import PhpAudit.Proofs.Flow.Ignoring
import PhpAudit.Proofs.Flow.Merging
import PhpAudit.Proofs.Flow.Narrowing

namespace PhpAudit

/-! ### Tests of the variable -/

/-- What a test tells of a variable in both of its outcomes: nothing, unless it is `told`. -/
structure Guard.Tells (name : String) (told : Prop) (before after : Guard) : Prop where
  walk : after.walk.scope.hasImplicit name = true →
    told ∨ before.walk.scope.hasImplicit name = true
  otherwise : after.otherwise.scope.hasImplicit name = true →
    told ∨ before.otherwise.scope.hasImplicit name = true
  loose : after.walk.scope.isHeld name = true → before.walk.scope.isHeld name = true
  looseOtherwise : after.otherwise.scope.isHeld name = true →
    before.otherwise.scope.isHeld name = true

namespace Guard

variable {name : String} {told : Prop}

namespace Tells

variable {guard first second third : Guard}

theorem refl (guard : Guard) : Tells name told guard guard :=
  ⟨.inr, .inr, id, id⟩

theorem trans (left : Tells name told first second) (right : Tells name told second third) :
    Tells name told first third where
  walk implicit := (right.walk implicit).elim .inl left.walk
  otherwise implicit := (right.otherwise implicit).elim .inl left.otherwise
  loose held := left.loose (right.loose held)
  looseOtherwise held := left.looseOtherwise (right.looseOtherwise held)

theorem mono {wider : Prop} (weaker : told → wider) (tells : Tells name told first second) :
    Tells name wider first second :=
  ⟨fun implicit => (tells.walk implicit).imp_left weaker,
    fun implicit => (tells.otherwise implicit).imp_left weaker, tells.loose, tells.looseOtherwise⟩

/-- Steps of the walk in the true outcome. -/
theorem of_walk (spares : Scope.Spares name False first.walk.scope second.walk.scope)
    (same : second.otherwise = first.otherwise) : Tells name told first second where
  walk implicit := .inr (spares.untold implicit)
  otherwise implicit := .inr (same ▸ implicit)
  loose := spares.loose
  looseOtherwise held := same ▸ held

end Tells

variable {guard : Guard}

theorem tells_mark (guarded : Expr) : Tells name told guard (guard.mark guarded) := by
  refine .of_walk ?_ (guard.otherwise_mark guarded)
  unfold mark
  split
  · exact .refl _
  · split
    · exact .refl _
    · exact .add ..

theorem tells_markNotEmpty (negated : Bool) (operand : Expr) :
    Tells name told guard (guard.markNotEmpty negated operand) := by
  unfold markNotEmpty
  split
  · split
    · exact .refl guard
    · exact tells_mark _
  · exact .refl guard

theorem tells_markIsset (negated : Bool) (values : List Expr) :
    Tells name told guard (guard.markIsset negated values) := by
  unfold markIsset
  split
  · exact .refl guard
  · induction values generalizing guard with
    | nil => exact .refl guard
    | cons value rest inductionHypothesis => exact (tells_mark value).trans inductionHypothesis

/-- A narrowed variable is not pinned, and no other variable is touched. -/
theorem tells_narrow {other : String} (tested : String) (negated inLogic : Bool)
    (same : other = name → told) : Tells name told guard (guard.narrow other tested negated inLogic) := by
  have widened (scope : Scope) (types : TypeSet) :
      (scope.update other fun info => { info with types := info.types.union types }).hasImplicit
          name = scope.hasImplicit name ∧
        (scope.update other fun info => { info with types := info.types.union types }).isHeld name =
          scope.isHeld name := by
    unfold Scope.update
    split
    · next info found =>
      rw [Scope.hasImplicit_put, Scope.isHeld_put]
      split
      · next equal => simp [← equal, Scope.hasImplicit, Scope.isHeld, found]
      · exact ⟨rfl, rfl⟩
    · exact ⟨rfl, rfl⟩
  have narrowed (scope : Scope) (types : TypeSet) :
      ((scope.narrow other types).hasImplicit name = true → told ∨ scope.hasImplicit name = true) ∧
        ((scope.narrow other types).isHeld name = true → scope.isHeld name = true) := by
    unfold Scope.narrow
    rw [Scope.hasImplicit_put, Scope.isHeld_put]
    by_cases equal : other = name
    · exact ⟨fun _ => .inl (same equal), fun held => by simp [equal] at held⟩
    · rw [if_neg equal, if_neg equal]
      exact ⟨.inr, id⟩
  unfold narrow
  dsimp only
  split
  · exact ⟨fun implicit => .inr ((widened _ _).1 ▸ implicit),
      fun implicit => .inr ((widened _ _).1 ▸ implicit), fun held => (widened _ _).2 ▸ held,
      fun held => (widened _ _).2 ▸ held⟩
  · exact ⟨(narrowed _ _).1, (narrowed _ _).1, (narrowed _ _).2, (narrowed _ _).2⟩

theorem tells_narrowTo {naming : Naming} (subject : Expr) (ref : ClassRef) (negated inLogic : Bool)
    (same : ∀ tested, Expr.testedClass? naming name subject ref = some tested → told) :
    Tells name told guard (guard.narrowTo naming subject ref negated inLogic) := by
  unfold narrowTo
  split
  · next other tested found known =>
    refine tells_narrow tested negated inLogic fun equal => same tested ?_
    rw [Expr.testedClass?, if_pos (equal ▸ found), known]
  · exact .refl guard

end Guard

namespace Flow

theorem walkTest_tells (env : Env) (name : String) (first negated inLogic : Bool) (test : Expr)
    (guard : Guard) :
    Guard.Tells name (test.tests env.naming name first negated ≠ []) guard
      (walkTest env negated inLogic test guard) := by
  obtain ⟨kind, span⟩ := test
  have read (told : Prop) : Guard.Tells name told guard (guard.mapWalk (walkKind env span kind)) :=
    .of_walk (walkKind_spares span kind False.elim False.elim guard.walk) rfl
  rw [walkTest.eq_def]
  cases kind with
  | paren inner =>
    rw [Expr.tests]
    exact walkTest_tells env name first negated inLogic inner guard
  | binary op left right =>
    cases op with
    | and | or =>
      rw [Expr.tests]
      have inLeft := walkTest_tells env name first negated true left guard
      have inRight := walkTest_tells env name
        (first && (left.tests env.naming name first negated).isEmpty) negated true right
        (walkTest env negated true left guard)
      have both := (inLeft.mono fun told => List.append_ne_nil_of_left_ne_nil told _).trans
        (inRight.mono fun told => List.append_ne_nil_of_right_ne_nil _ told)
      exact ⟨both.walk, both.otherwise, both.loose, both.looseOtherwise⟩
    | _ => exact read _
  | unary op operand =>
    cases op with
    | not =>
      rw [Expr.tests]
      exact (Guard.tells_markNotEmpty negated operand).trans
        (walkTest_tells env name first (!negated) inLogic operand _)
    | _ => exact read _
  | isset values =>
    exact (Guard.tells_markIsset negated values).trans
      (.of_walk (walkProbes_spares values False.elim _) rfl)
  | instanceOf subject ref =>
    have operands : Guard.Tells name
        (Expr.tests env.naming name first negated ⟨.instanceOf subject ref, span⟩ ≠ []) guard
        (guard.mapWalk fun walk => walkRef env ref (walkExpr env subject walk)) :=
      .of_walk ((walkExpr_spares subject False.elim guard.walk).trans
        (walkRef_spares ref False.elim _)) rfl
    refine operands.trans (Guard.tells_narrowTo subject ref negated inLogic fun tested found => ?_)
    rw [Expr.tests, found]
    exact List.cons_ne_nil _ _
  | _ => exact read _

/-! ### How a variable stands -/

/-- The value that a plain assignment gives to the variable. -/
def assignedValue? (name : String) : Expr → Option Expr
  | ⟨.assign ⟨.var other, _⟩ value .assign false, _⟩ => if other = name then some value else none
  | _ => none

theorem assignedValue?_eq_some {name : String} {expr assigned : Expr}
    (found : assignedValue? name expr = some assigned) :
    ∃ targetSpan span,
      expr = ⟨.assign ⟨.var name, targetSpan⟩ assigned .assign false, span⟩ := by
  unfold assignedValue? at found
  split at found
  · split at found
    · next equal =>
      obtain rfl := Option.some.inj found
      exact ⟨_, _, by rw [equal]⟩
    · cases found
  · cases found

/-- Whether a statement is an expression, a block or an `if`. -/
def isBranching (_inLoop : Bool) : StmtKind → Bool
  | .expr _ | .block _ | .branch .. => true
  | _ => false

/-- How a variable stands at a point of the program. -/
structure Standing where
  /-- Code before the point names it, so that something may be known of it -/
  known : Bool
  /-- A test that told of it holds at the point, and it was not assigned to since -/
  narrowed : Bool
  /-- It is narrowed, and was pinned before, so that assignments to it leave it narrowed -/
  held : Bool := false

namespace Standing

/-- How a variable stands where a walk starts with the scope. -/
def start (scope : Scope) (name : String) : Standing where
  known := scope.mayHave name
  narrowed := scope.hasImplicit name
  held := scope.isHeld name

/-- How it stands after an expression that is a statement. -/
def afterExpr (name : String) (expr : Expr) (standing : Standing) : Standing :=
  match assignedValue? name expr with
  | some _ => { standing with known := true, narrowed := standing.held }
  | none => { standing with known := standing.known || !everyExpr (omits name) expr }

/-- How it stands in either outcome of a test. -/
def inOutcome (env : Env) (name : String) (test : Expr) (standing : Standing) : Standing where
  known := standing.known || !everyExpr (omits name) test
  narrowed := standing.narrowed || !(test.tests env.naming name true false).isEmpty
  held := standing.held

end Standing

mutual

/-- How a variable stands after some statements. -/
def standingAfter (env : Env) (name : String) : List Stmt → Walk → Standing → Standing
  | [], _, standing => standing
  | ⟨kind, span⟩ :: rest, walk, standing =>
    let reached := walk.checkDeadCode env ⟨kind, span⟩
    standingAfter env name rest (walkStmtKind env kind reached)
      (standingAfterKind env name kind reached standing)

/--
How it stands after a statement. Behind a guard control goes on where the test is false. Behind other
branches the variable is narrowed if it was before them, whatever they do. Of statements of other
kinds nothing is said.
-/
def standingAfterKind (env : Env) (name : String) : StmtKind → Walk → Standing → Standing
  | .expr value, _, standing => standing.afterExpr name value
  | .block body, walk, standing => standingAfter env name body walk standing
  | .branch test body span rest, walk, standing =>
    let split := splitOn env test [] walk
    let branch := (walkStmts env body { split.walk with block := split.yes }).block
    let named := !everyPart (everyExpr (omits name)) isBranching false (.branch test body span rest)
    let behind := if isGuard test rest branch then standing.inOutcome env name test else standing
    { behind with known := standing.known || named }
  | _, _, _ => ⟨true, true, true⟩

end

/-! ### Agreement with the scopes of a walk -/

/-- The scope of a walk holds and flags the variable only if the standing says so. -/
structure Standing.Describes (standing : Standing) (name : String) (scope : Scope) : Prop where
  known : scope.mayHave name = true → standing.known = true
  narrowed : scope.hasImplicit name = true → standing.narrowed = true
  held : scope.isHeld name = true → standing.held = true

namespace Standing

variable {standing : Standing} {env : Env} {name : String} {walk : Walk} {before after : Scope}

theorem describes_start (scope : Scope) (name : String) : (start scope name).Describes name scope :=
  ⟨id, id, id⟩

theorem Describes.of_eq (describes : standing.Describes name before) (same : after = before) :
    standing.Describes name after :=
  same ▸ describes

theorem Describes.afterExpr (describes : standing.Describes name walk.scope) (expr : Expr) :
    (standing.afterExpr name expr).Describes name (walkExpr env expr walk).scope := by
  unfold Standing.afterExpr
  cases found : assignedValue? name expr with
  | some assigned =>
    obtain ⟨targetSpan, span, rfl⟩ := assignedValue?_eq_some found
    have value : Scope.Spares name False walk.scope (walkExpr env assigned walk).scope :=
      walkExpr_spares assigned False.elim walk
    have stored (types : TypeSet) (walk : Walk) :
        (walkAssign env .plain types ⟨.var name, targetSpan⟩ walk).scope =
          walk.scope.assign name types true := by
      rw [walkAssign.eq_def]
      exact (Walk.idle_track env name targetSpan _).1
    rw [walkExpr, walkKind.eq_def]
    dsimp only
    rw [if_neg Bool.false_ne_true, stored]
    refine ⟨fun _ => rfl, fun implicit => describes.held (value.loose ?_),
      fun held => describes.held (value.loose ?_)⟩
    · exact Scope.hasImplicit_assign_self.symm.trans implicit
    · exact Scope.isHeld_assign_self.symm.trans held
  | none =>
    have spares : Scope.Spares name False walk.scope (walkExpr env expr walk).scope :=
      walkExpr_spares expr False.elim walk
    refine ⟨fun known => ?_, fun implicit => describes.narrowed (spares.untold implicit),
      fun held => describes.held (spares.loose held)⟩
    cases omitted : everyExpr (omits name) expr with
    | false => simp
    | true =>
      rw [Scope.mayHave_of_definedness (walkExpr_ignores expr omitted walk)] at known
      simp [describes.known known]

/-- Both outcomes of a test, and the block around it, which is told nothing. -/
theorem Describes.splitOn (describes : standing.Describes name walk.scope) (env : Env) (test : Expr)
    (markers : List String) :
    let split := Flow.splitOn env test markers walk
    let inside := standing.inOutcome env name test
    inside.Describes name split.yes.scope ∧ inside.Describes name split.no.scope ∧
      { standing with known := inside.known }.Describes name split.walk.scope := by
  intro split inside
  let guard := walkTest env false false test (.start walk markers)
  have tells : Guard.Tells name (test.tests env.naming name true false ≠ [])
      (.start walk markers) guard := walkTest_tells env name true false false test _
  obtain ⟨around, no⟩ : Scope.Spares name False walk.block.scope split.walk.scope ∧
      Scope.Spares name False guard.otherwise.scope split.no.scope := guard.spares_split walk.block False
  have narrowed (implicit : test.tests env.naming name true false ≠ [] ∨
      walk.scope.hasImplicit name = true) : inside.narrowed = true := by
    rcases implicit with told | implicit
    · simp [inside, inOutcome, told]
    · simp [inside, inOutcome, describes.narrowed implicit]
  have known {scope : Scope} (same : everyExpr (omits name) test = true →
      scope.definedness name = walk.scope.definedness name) (known : scope.mayHave name = true) :
      inside.known = true := by
    show (standing.known || !everyExpr (omits name) test) = true
    cases omitted : everyExpr (omits name) test with
    | false => simp
    | true =>
      rw [Scope.mayHave_of_definedness (same omitted)] at known
      simp [describes.known known]
  have ignores (omitted : everyExpr (omits name) test = true) :
      Guard.Ignores name (.start walk markers) guard := walkTest_ignores false false test omitted _
  refine ⟨⟨known fun omitted => (ignores omitted).walk, ?_, ?_⟩,
    ⟨known fun omitted => (ignores omitted).split.2, ?_, ?_⟩,
    ⟨known fun omitted => (ignores omitted).split.1, ?_, ?_⟩⟩
  · exact fun implicit => narrowed (tells.walk implicit)
  · exact fun held => describes.held (tells.loose held)
  · exact fun implicit => narrowed (tells.otherwise (no.untold implicit))
  · exact fun held => describes.held (tells.looseOtherwise (no.loose held))
  · exact fun implicit => describes.narrowed (around.untold implicit)
  · exact fun held => describes.held (around.loose held)

/-- Where an `if` is joined, the block around it counts, or that of the false outcome behind a guard. -/
theorem describes_close {chain : Chain} (guarding : Bool)
    (around : standing.Describes name (if guarding then chain.no else chain.walk.block).scope)
    (joined : ∀ branch ∈ Block.ongoing chain.branches, branch.scope.mayHave name = true →
      standing.known = true) : standing.Describes name (chain.close guarding).scope := by
  let inside := if guarding then chain.continueInFalse else chain.walk
  have same : inside.scope = (if guarding then chain.no else chain.walk.block).scope := by
    cases guarding <;> rfl
  have merged : Scope.Spares name False inside.scope
      (inside.block.merge chain.branches chain.links).scope := .merge ..
  have known : (inside.block.merge chain.branches chain.links).scope.mayHave name = true →
      standing.known = true := fun known =>
    (Block.mayHave_merge_iff.mp known).elim (fun known => around.known (same ▸ known))
      fun ⟨branch, member, known⟩ => joined branch member known
  unfold Chain.close
  exact ⟨fun still => known (Walk.mayHave_of_dropMarkers still),
    fun implicit => around.narrowed (same ▸ merged.untold
      (Walk.any_of_dropMarkers (fun _ _ => rfl) implicit)),
    fun held => around.held (same ▸ merged.loose (Walk.any_of_dropMarkers (fun _ _ => rfl) held))⟩

end Standing

/-! ### Statements -/

section

variable {env : Env} {name : String}

mutual

/-- A variable is known behind statements that do not name it only if it was before. -/
theorem known_standingAfter (body : List Stmt)
    (omitted : everyStmt (everyExpr (omits name)) isBranching false body = true) (walk : Walk)
    {standing : Standing} (unknown : standing.known = false) :
    (standingAfter env name body walk standing).known = false := by
  cases body with
  | nil =>
    rw [standingAfter]
    exact unknown
  | cons stmt rest =>
    obtain ⟨kind, span⟩ := stmt
    simp only [everyStmt, Bool.and_eq_true] at omitted
    rw [standingAfter]
    exact known_standingAfter rest omitted.2 _
      (known_standingAfterKind kind omitted.1.1 omitted.1.2 _ unknown)

theorem known_standingAfterKind (kind : StmtKind) (branching : isBranching false kind = true)
    (omitted : everyPart (everyExpr (omits name)) isBranching false kind = true) (walk : Walk)
    {standing : Standing} (unknown : standing.known = false) :
    (standingAfterKind env name kind walk standing).known = false := by
  cases kind with
  | expr value =>
    rw [standingAfterKind, Standing.afterExpr]
    cases found : assignedValue? name value with
    | some assigned =>
      obtain ⟨targetSpan, span, rfl⟩ := assignedValue?_eq_some found
      simp [everyPart, everyExpr, everyOperand, omits] at omitted
    | none => simpa [unknown, everyPart] using omitted
  | block body =>
    rw [standingAfterKind]
    exact known_standingAfter body omitted walk unknown
  | branch test body span rest =>
    rw [standingAfterKind]
    simp [unknown, omitted]
  | _ => cases branching

end

/-- A variable that a branch does not name is not known at its end. -/
theorem mayHave_branchEnd {body : List Stmt}
    (omitted : everyStmt (everyExpr (omits name)) isBranching false body = true)
    {standing : Standing} (unknown : standing.known = false) {initial : Scope}
    (before : initial.mayHave name = false) (start : Walk)
    (describes : (standingAfter env name body start standing).Describes name
      (walkStmts env body start).scope) :
    ((walkStmts env body start).block.restoreImplicit initial).scope.mayHave name = false := by
  have still : (standingAfter env name body start standing).known = false :=
    known_standingAfter body omitted start unknown
  have atEnd : (walkStmts env body start).scope.mayHave name = false :=
    Bool.eq_false_iff.mpr fun known => Bool.false_ne_true (still.symm.trans (describes.known known))
  rw [Scope.mayHave, Block.get?_restoreImplicit, before, Bool.and_false, if_neg Bool.false_ne_true]
  exact atEnd

mutual

/-- The standing of a variable after some statements describes the scope of the walk there. -/
theorem describes_walkStmts (body : List Stmt) {walk : Walk} {standing : Standing}
    (describes : standing.Describes name walk.scope) :
    (standingAfter env name body walk standing).Describes name (walkStmts env body walk).scope := by
  cases body with
  | nil =>
    rw [standingAfter, walkStmts_nil]
    exact describes
  | cons stmt rest =>
    obtain ⟨kind, span⟩ := stmt
    have reached : (walk.checkDeadCode env ⟨kind, span⟩).scope = walk.scope :=
      (walk.idle_checkDeadCode env ⟨kind, span⟩).1
    rw [standingAfter, walkStmts, walkStmt]
    exact describes_walkStmts rest (describes_walkStmtKind kind (describes.of_eq reached))

theorem describes_walkStmtKind (kind : StmtKind) {walk : Walk} {standing : Standing}
    (describes : standing.Describes name walk.scope) :
    (standingAfterKind env name kind walk standing).Describes name
      (walkStmtKind env kind walk).scope := by
  cases kind with
  | expr value =>
    rw [standingAfterKind, walkStmtKind]
    exact describes.afterExpr value
  | block body =>
    rw [standingAfterKind, walkStmtKind_block]
    exact describes_walkStmts body describes
  | branch test body span rest =>
    obtain ⟨yes, no, around⟩ := describes.splitOn env test []
    let split := splitOn env test [] walk
    let branch := (walkStmts env body { split.walk with block := split.yes }).block
    let guarding := isGuard test rest branch
    let kind : StmtKind := .branch test body span rest
    let named := !everyPart (everyExpr (omits name)) isBranching false kind
    let behind := if guarding then standing.inOutcome env name test else standing
    have weaker (known : (standing.inOutcome env name test).known = true) :
        (standing.known || named) = true := by
      refine Bool.or_eq_true_iff.mpr ((Bool.or_eq_true_iff.mp known).imp_right fun inTest => ?_)
      simp only [named, kind, everyPart, Bool.not_and, inTest, Bool.true_or]
    have counted : { behind with known := standing.known || named }.Describes name
        (if guarding then (walkBranches env test body rest walk).no
          else (walkBranches env test body rest walk).walk.block).scope := by
      cases guard : guarding with
      | true =>
        cases rest with
        | nothing =>
          rw [walkBranches, walkOtherwise_nothing]
          simp only [behind, guard, if_true]
          exact ⟨fun known => weaker (no.known known), no.narrowed, no.held⟩
        | orElse | orIf => simp [guarding, isGuard] at guard
      | false =>
        simp only [behind, guard, Bool.false_eq_true, if_false, block_walkBranches]
        exact ⟨fun known => weaker (around.known known), around.narrowed, around.held⟩
    rw [standingAfterKind, walkStmtKind_walkBranches]
    refine Standing.describes_close guarding counted fun joined member known => ?_
    by_contra unknown
    simp only [Bool.or_eq_true, not_or, Bool.not_eq_true] at unknown
    obtain ⟨unknown, unnamed⟩ := unknown
    obtain ⟨⟨inTest, inBody⟩, inRest⟩ : (everyExpr (omits name) test = true ∧
        everyStmt (everyExpr (omits name)) isBranching false body = true) ∧
          everyOtherwise (everyExpr (omits name)) isBranching false rest = true := by
      simpa [named, kind, everyPart] using unnamed
    have before : walk.scope.mayHave name = false :=
      Bool.eq_false_iff.mpr fun known => by simp [describes.known known] at unknown
    have unknown : (standing.inOutcome env name test).known = false := by
      simp [Standing.inOutcome, unknown, inTest]
    have first := mayHave_branchEnd inBody unknown before { split.walk with block := split.yes }
      (describes_walkStmts body yes)
    have ended : ∀ branch ∈ (walkBranches env test body rest walk).branches,
        branch.scope.mayHave name = false :=
      mayHave_walkOtherwise rest inRest before no unknown
        fun branch member => List.mem_singleton.mp member ▸ first
    exact Bool.false_ne_true ((ended joined (List.mem_of_mem_filter member)).symm.trans known)
  | _ =>
    rw [standingAfterKind]
    · exact ⟨fun _ => rfl, fun _ => rfl, fun _ => rfl⟩
    all_goals nofun

/-- A variable that no branch names is known at the end of none. -/
theorem mayHave_walkOtherwise (rest : Otherwise)
    (omitted : everyOtherwise (everyExpr (omits name)) isBranching false rest = true)
    {initial : Scope} (before : initial.mayHave name = false) {chain : Chain}
    {standing : Standing} (no : standing.Describes name chain.no.scope)
    (unknown : standing.known = false)
    (ended : ∀ branch ∈ chain.branches, branch.scope.mayHave name = false) :
    ∀ branch ∈ (walkOtherwise env initial rest chain).branches,
      branch.scope.mayHave name = false := by
  cases rest with
  | nothing =>
    rw [walkOtherwise_nothing]
    exact ended
  | orElse body =>
    have last := mayHave_branchEnd omitted unknown before { chain.walk with block := chain.no }
      (describes_walkStmts body no)
    rw [walkOtherwise]
    exact List.forall_mem_append.mpr ⟨ended, fun branch member => List.mem_singleton.mp member ▸ last⟩
  | orIf test body span rest =>
    simp only [everyOtherwise, Bool.and_eq_true] at omitted
    obtain ⟨⟨inTest, inBody⟩, inRest⟩ := omitted
    let inner : Walk := { chain.walk with block := chain.no }
    let split := splitOn env test chain.markers inner
    have outside : standing.Describes name inner.scope := no
    obtain ⟨yes, no, -⟩ := outside.splitOn env test chain.markers
    have unknown : (standing.inOutcome env name test).known = false := by
      simp [Standing.inOutcome, unknown, inTest]
    let walk : Walk := { split.walk with block := chain.walk.block }
    have last := mayHave_branchEnd inBody unknown before { walk with block := split.yes }
      (describes_walkStmts body yes)
    rw [walkOtherwise]
    exact mayHave_walkOtherwise rest inRest before no unknown (List.forall_mem_append.mpr
      ⟨ended, fun branch member => List.mem_singleton.mp member ▸ last⟩)

end

end

end Flow

end PhpAudit
