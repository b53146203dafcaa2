/-
This file says exactly what the walk makes of an `if` that ends in `else`. The ends of those
branches that go on are joined into the block around the statement, as it is after the first test: a
variable is defined afterwards if it was before, or at each of these ends, and it may be of the
types that it had before, and of those at the ends.

Usually what was before is at the ends as well, and then they alone decide. But a branch may unset a
variable, or assign to it and replace its types, and what was before still counts.
-/

import PhpAudit.Proofs.Flow.Enduring
import PhpAudit.Proofs.Flow.Tracking

namespace PhpAudit

/-! ### Chains of branches -/

namespace Otherwise

/-- Whether the last branch is an `else`, so that one of the branches runs. -/
def isClosed : Otherwise → Bool
  | .nothing => false
  | .orElse _ => true
  | .orIf _ _ _ rest => rest.isClosed

def tests : Otherwise → List Expr
  | .nothing | .orElse _ => []
  | .orIf test _ _ rest => test :: rest.tests

def bodies : Otherwise → List (List Stmt)
  | .nothing => []
  | .orElse body => [body]
  | .orIf _ body _ rest => body :: rest.bodies

end Otherwise

namespace Flow

/-- The branches of an `if`, each walked to its end. -/
def walkBranches (env : Env) (test : Expr) (body : List Stmt) (rest : Otherwise) (walk : Walk) :
    Chain :=
  let split := splitOn env test [] walk
  walkOtherwise env walk.scope rest
    ((Chain.start split).pushBranch env walk.scope body split split.walk)

/-- A branch as it is joined: its body is walked to the end, and what its test only narrowed goes
back. -/
def EndOf (env : Env) (initial : Scope) (body : List Stmt) (branch : Block) : Prop :=
  ∃ start, branch = (walkStmts env body start).block.restoreImplicit initial

theorem branches_walkOtherwise (env : Env) (rest : Otherwise) (initial : Scope) (chain : Chain) :
    ∃ ends, (walkOtherwise env initial rest chain).branches = chain.branches ++ ends ∧
      List.Forall₂ (EndOf env initial) rest.bodies ends := by
  cases rest with
  | nothing =>
    rw [walkOtherwise_nothing]
    exact ⟨[], (List.append_nil _).symm, .nil⟩
  | orElse body =>
    rw [walkOtherwise]
    exact ⟨_, rfl, .cons ⟨_, rfl⟩ .nil⟩
  | orIf test body span rest =>
    rw [walkOtherwise]
    obtain ⟨ends, same, others⟩ := branches_walkOtherwise env rest initial _
    exact ⟨_ :: ends, by rw [same]; exact List.append_assoc .., .cons ⟨_, rfl⟩ others⟩

theorem subset_walkOtherwise (env : Env) (rest : Otherwise) (initial : Scope) (chain : Chain) :
    chain.branches ⊆ (walkOtherwise env initial rest chain).branches := by
  obtain ⟨ends, same, _⟩ := branches_walkOtherwise env rest initial chain
  rw [same]
  exact List.subset_append_left _ _

/-- There is one end for each of the bodies. -/
theorem branches_walkBranches (env : Env) (test : Expr) (body : List Stmt) (rest : Otherwise)
    (walk : Walk) :
    List.Forall₂ (EndOf env walk.scope) (body :: rest.bodies)
      (walkBranches env test body rest walk).branches := by
  unfold walkBranches
  obtain ⟨ends, same, others⟩ := branches_walkOtherwise env rest walk.scope
    ((Chain.start (splitOn env test [] walk)).pushBranch env walk.scope body (splitOn env test [] walk)
      (splitOn env test [] walk).walk)
  rw [same]
  exact .cons ⟨_, rfl⟩ others

variable {env : Env} {name : String} {test : Expr} {body : List Stmt} {rest : Otherwise}

/-- A branch without `else` that is left is a guard if its test is built from `instanceof`: control
goes on in the false outcome. -/
def isGuard (test : Expr) (rest : Otherwise) (branch : Block) : Bool :=
  !branch.continues && test.isNarrowing &&
    match rest with
    | .nothing => true
    | _ => false

/-- An `if` is walked as a chain of branches that is closed at the end. -/
theorem walkStmtKind_walkBranches (bodySpan : Span) (walk : Walk) :
    let split := splitOn env test [] walk
    let branch := (walkStmts env body { split.walk with block := split.yes }).block
    walkStmtKind env (.branch test body bodySpan rest) walk =
      (walkBranches env test body rest walk).close (isGuard test rest branch) := by
  rw [walkStmtKind.eq_def]
  cases rest <;> rfl

theorem walkStmtKind_closed (bodySpan : Span) (closed : rest.isClosed = true) (walk : Walk) :
    walkStmtKind env (.branch test body bodySpan rest) walk =
      (walkBranches env test body rest walk).close false := by
  have noGuard (branch : Block) : isGuard test rest branch = false := by
    cases rest with
    | nothing => cases closed
    | orElse | orIf => exact Bool.and_false _
  rw [walkStmtKind_walkBranches, noGuard]

theorem block_walkBranches (walk : Walk) :
    (walkBranches env test body rest walk).walk.block = (splitOn env test [] walk).walk.block :=
  block_walkOtherwise ..

/-- With an `else`, the paths that reach the end of the statement are the branches that go on. -/
theorem links_walkOtherwise (rest : Otherwise) (closed : rest.isClosed = true) {initial : Scope}
    {chain : Chain} (counted : chain.links = (Block.ongoing chain.branches).length) :
    (walkOtherwise env initial rest chain).links =
      (Block.ongoing (walkOtherwise env initial rest chain).branches).length := by
  have pushed (chain : Chain) (branch : Block) (walk : Walk)
      (counted : chain.links = (Block.ongoing chain.branches).length) :
      (chain.push initial branch walk).links =
        (Block.ongoing (chain.push initial branch walk).branches).length := by
    have kept : (branch.restoreImplicit initial).continues = branch.continues := rfl
    rw [Chain.links_push]
    unfold Chain.push
    rw [Block.ongoing_append, List.length_append, Block.length_ongoing_singleton, kept, counted]
    split <;> rfl
  cases rest with
  | nothing => cases closed
  | orElse body =>
    rw [walkOtherwise]
    exact pushed chain _ _ counted
  | orIf test body span rest =>
    rw [walkOtherwise]
    exact links_walkOtherwise rest closed (pushed _ _ _ counted)

theorem links_walkBranches (closed : rest.isClosed = true) (walk : Walk) :
    (walkBranches env test body rest walk).links =
      (Block.ongoing (walkBranches env test body rest walk).branches).length := by
  refine links_walkOtherwise rest closed ?_
  unfold Chain.pushBranch Chain.start
  rw [Chain.links_push]
  unfold Chain.push
  rw [List.nil_append, Block.length_ongoing_singleton]
  rfl

/-! ### Tests without markers -/

/-- Whether the node of an expression does not ask whether a variable is set. -/
def asksNothing : ExprKind → Bool
  | .isset _ | .isEmpty _ => false
  | _ => true

theorem markers_walkTest (negated inLogic : Bool) (test : Expr)
    (unasked : everyExpr asksNothing test = true) (guard : Guard) :
    (walkTest env negated inLogic test guard).markers = guard.markers := by
  obtain ⟨kind, span⟩ := test
  simp only [everyExpr, Bool.and_eq_true] at unasked
  obtain ⟨own, parts⟩ := unasked
  have read := guard.markers_mapWalk (walkKind env span kind)
  rw [walkTest.eq_def]
  cases kind with
  | paren inner => exact markers_walkTest negated inLogic inner parts guard
  | binary op left right =>
    simp only [everyOperand, Bool.and_eq_true] at parts
    cases op with
    | and | or =>
      exact (markers_walkTest negated true right parts.2 _).trans
        (markers_walkTest negated true left parts.1 guard)
    | _ => exact read
  | unary op operand =>
    cases op with
    | not =>
      have asked := everyExpr_unparen operand parts
      refine (markers_walkTest (!negated) inLogic operand parts _).trans ?_
      unfold Guard.markNotEmpty
      cases kind : operand.unparen.kind with
      | isEmpty inner =>
        rw [kind] at asked
        cases asked
      | _ => rfl
    | _ => exact read
  | isset values => cases own
  | instanceOf subject ref =>
    exact (guard.mapWalk _).markers_narrowTo env.naming subject ref negated inLogic
  | _ => exact read

theorem markers_walkOtherwise (rest : Otherwise) (initial : Scope)
    (unasked : rest.tests.all (everyExpr asksNothing) = true) (chain : Chain) :
    (walkOtherwise env initial rest chain).markers = chain.markers := by
  cases rest with
  | nothing => rw [walkOtherwise_nothing]
  | orElse body => rw [walkOtherwise]; rfl
  | orIf test body span rest =>
    simp only [Otherwise.tests, List.all_cons, Bool.and_eq_true] at unasked
    rw [walkOtherwise, markers_walkOtherwise rest initial unasked.2]
    exact markers_walkTest false false test unasked.1 _

/-- Without markers the statement ends in a join of the branches that go on. -/
theorem scope_branch (bodySpan : Span) (closed : rest.isClosed = true)
    (unasked : (test :: rest.tests).all (everyExpr asksNothing) = true) (walk : Walk) :
    let chain := walkBranches env test body rest walk
    (walkStmtKind env (.branch test body bodySpan rest) walk).scope =
      ((splitOn env test [] walk).walk.block.merge chain.branches
        (Block.ongoing chain.branches).length).scope := by
  intro chain
  simp only [List.all_cons, Bool.and_eq_true] at unasked
  have unmarked : chain.markers = [] :=
    (markers_walkOtherwise rest walk.scope unasked.2 _).trans
      (markers_walkTest false false test unasked.1 _)
  have counted : chain.links = (Block.ongoing chain.branches).length :=
    links_walkBranches closed walk
  have around : chain.walk.block = (splitOn env test [] walk).walk.block := block_walkBranches walk
  rw [walkStmtKind_closed bodySpan closed, ← counted, ← around]
  show (chain.close false).scope = _
  unfold Chain.close
  rw [unmarked]
  rfl

/-! ### Definedness -/

/-- What was known before a test is known in the block around it as before. -/
theorem get?_split {guard : Guard} {block : Block} (known : block.scope.mayHave name = true) :
    (guard.split block).walk.scope.get? name = block.scope.get? name := by
  refine Scope.get?_foldl_add VarInfo.types (fun _ => true) (fun entry member equal => ?_)
    block.scope
  obtain ⟨_, fresh⟩ := List.mem_filter.mp member
  simp [equal, known] at fresh

/-- What was known before a test is known in the block of its false outcome as at its end. -/
theorem get?_no_of_split {guard : Guard} {block : Block} (known : block.scope.mayHave name = true) :
    (guard.split block).no.scope.get? name = guard.otherwise.scope.get? name := by
  refine Scope.get?_foldl_add VarInfo.types (fun _ => true) (fun entry member equal => ?_)
    guard.otherwise.scope
  obtain ⟨_, fresh⟩ := List.mem_filter.mp member
  simp [equal, known] at fresh

/-- What a test defines in the block around it is defined in its false outcome too. -/
theorem has_no_of_split {guard : Guard} {block : Block}
    (before : block.scope.has name = true → guard.otherwise.scope.has name = true)
    (has : (guard.split block).walk.scope.has name = true) :
    (guard.split block).no.scope.has name = true := by
  let fresh := guard.walk.block.scope.entries.filter fun entry =>
    !(entry.2.implicit || guard.markers.contains entry.1 || block.scope.mayHave entry.1)
  have inBlock := (Scope.has_foldl_add VarInfo.types (fun _ => true) fresh block.scope).mp has
  exact (Scope.has_foldl_add VarInfo.types (fun _ => true) fresh guard.otherwise.scope).mpr
    (inBlock.imp_left before)

/-- A branch gives back what was defined before, and keeps the rest. -/
theorem has_restoreImplicit {initial : Scope} {branch : Block}
    (before : initial.mayHave name = true → initial.has name = true)
    (has : branch.scope.has name = true) :
    (branch.restoreImplicit initial).scope.has name = true := by
  unfold Scope.has
  rw [Block.get?_restoreImplicit]
  split
  · next restored =>
    rw [Bool.and_eq_true] at restored
    exact before restored.2
  · exact has

/-- A variable that is defined where the first test is false, and that no branch unsets, is defined
at the ends of all branches. -/
theorem has_walkOtherwise (rest : Otherwise) {initial : Scope} {chain : Chain}
    (before : initial.mayHave name = true → initial.has name = true)
    (kept : ∀ inner ∈ rest.bodies, NeverUnset name false inner)
    (no : chain.no.scope.has name = true)
    (ended : ∀ branch ∈ chain.branches, branch.scope.has name = true) :
    ∀ branch ∈ (walkOtherwise env initial rest chain).branches, branch.scope.has name = true := by
  have pushed (chain : Chain) (body : List Stmt) (kept : NeverUnset name false body) {walk : Walk}
      (has : walk.scope.has name = true) (around : Walk)
      (ended : ∀ branch ∈ chain.branches, branch.scope.has name = true) :
      ∀ branch ∈ (chain.push initial (walkStmts env body walk).block around).branches,
        branch.scope.has name = true := by
    intro branch member
    rcases List.mem_append.mp member with member | member
    · exact ended branch member
    · rw [List.mem_singleton.mp member]
      exact has_restoreImplicit before (has_walkStmts false body kept has)
  cases rest with
  | nothing =>
    rw [walkOtherwise_nothing]
    exact ended
  | orElse body =>
    rw [walkOtherwise]
    have reached : ({ chain.walk with block := chain.no } : Walk).scope.has name = true := no
    exact pushed chain body (kept body (.head _)) reached _ ended
  | orIf test body span rest =>
    let start := Guard.start { chain.walk with block := chain.no } chain.markers
    have tested : Guard.Spares name start (walkTest env false false test start) :=
      walkTest_spares false false test False.elim _
    obtain ⟨yes, no⟩ := tested.outcomes no
    rw [walkOtherwise]
    exact has_walkOtherwise rest before (fun inner member => kept inner (.tail _ member)) no
      (pushed _ body (kept body (.head _)) yes _ ended)

/--
After an `if` that ends in `else`, a variable is defined if it was so before the branches, or at the
end of each branch that goes on. The branches alone decide unless the variable was defined before
them and one of them unsets it. There is one end for each of the bodies, which is the walk of it.
-/
theorem defined_after_branches (env : Env) (test : Expr) (body : List Stmt) (bodySpan : Span)
    (rest : Otherwise) (walk : Walk) (name : String) (closed : rest.isClosed = true)
    (unasked : (test :: rest.tests).all (everyExpr asksNothing) = true)
    (survives : Block.ongoing (walkBranches env test body rest walk).branches ≠ []) :
    let split := splitOn env test [] walk
    let ends := Block.ongoing (walkBranches env test body rest walk).branches
    let after := (walkStmtKind env (.branch test body bodySpan rest) walk).scope
    List.Forall₂ (EndOf env walk.scope) (body :: rest.bodies)
      (walkBranches env test body rest walk).branches ∧
    (after.has name = true ↔
      split.walk.scope.has name = true ∨ ∀ branch ∈ ends, branch.scope.has name = true) ∧
    ((split.walk.scope.has name = true → split.yes.scope.has name = true ∧
        ∀ inner ∈ body :: rest.bodies, NeverUnset name false inner) →
      (after.has name = true ↔ ∀ branch ∈ ends, branch.scope.has name = true)) := by
  intro split ends after
  have joined : after.has name = true ↔
      split.walk.scope.has name = true ∨ ∀ branch ∈ ends, branch.scope.has name = true := by
    show (walkStmtKind env (.branch test body bodySpan rest) walk).scope.has name = true ↔ _
    rw [scope_branch bodySpan closed unasked]
    exact Block.has_merge_ongoing survives
  refine ⟨branches_walkBranches env test body rest walk, joined,
    fun kept => joined.trans (or_iff_right_of_imp fun has => ?_)⟩
  obtain ⟨yes, unset⟩ := kept has
  have tested : Guard.Spares name (.start walk [])
      (walkTest env false false test (.start walk [])) :=
    walkTest_spares false false test False.elim _
  have before (known : walk.scope.mayHave name = true) : walk.scope.has name = true := by
    have same : split.walk.scope.get? name = walk.scope.get? name := get?_split known
    unfold Scope.has at has ⊢
    rwa [same] at has
  let chain := (Chain.start split).pushBranch env walk.scope body split split.walk
  have no : chain.no.scope.has name = true := has_no_of_split tested.otherwise has
  have first : ∀ branch ∈ chain.branches, branch.scope.has name = true := by
    intro branch member
    rw [List.mem_singleton.mp member]
    exact has_restoreImplicit before (has_walkStmts false body (unset body (.head _)) yes)
  intro branch member
  have reached : branch ∈ (walkOtherwise env walk.scope rest chain).branches :=
    (List.mem_filter.mp member).1
  exact has_walkOtherwise rest before (fun inner member => unset inner (.tail _ member)) no first
    branch reached

/-- A walk in whose scope the given variables are defined, as integers. -/
def startWith (names : List String) : Walk :=
  .start (names.foldl (fun scope name => scope.add name (.named "int") true) .empty)
    { enabled := true }

/-- `$x = ...;` -/
def assignAt (start : Nat) (value : ExprKind) : Stmt :=
  ⟨.expr ⟨.assign ⟨.var "$x", ⟨start, start + 2⟩⟩ ⟨value, ⟨start + 5, start + 8⟩⟩ .assign false,
    ⟨start, start + 8⟩⟩, ⟨start, start + 9⟩⟩

/-- `elseif ($d) { return; } else { $x = 'b'; }`, after `if ($c) { $x = 'a'; }` -/
def returnOrAssign : Otherwise :=
  .orIf ⟨.var "$d", ⟨31, 33⟩⟩ [⟨.returns none, ⟨37, 44⟩⟩] ⟨35, 46⟩
    (.orElse [assignAt 54 (.string (some "b"))])

/-- A new variable is defined after branches that define it or return. -/
theorem defined_after_branches_returnOrAssign :
    let walk := startWith ["$c", "$d"]
    let test : Expr := ⟨.var "$c", ⟨4, 6⟩⟩
    let body := [assignAt 10 (.string (some "a"))]
    let ends := Block.ongoing (walkBranches default test body returnOrAssign walk).branches
    returnOrAssign.isClosed = true ∧
      (test :: returnOrAssign.tests).all (everyExpr asksNothing) = true ∧ ends.length = 2 ∧
      (walkStmtKind default (.branch test body ⟨8, 22⟩ returnOrAssign) walk).scope.has "$x" =
        true := by
  intro walk test body ends
  have closed : returnOrAssign.isClosed = true := by decide
  have unasked : (test :: returnOrAssign.tests).all (everyExpr asksNothing) = true := by decide
  have two : ends.length = 2 := by decide
  have survives : ends ≠ [] := fun none => by rw [none] at two; cases two
  have ended : ∀ branch ∈ ends, branch.scope.has "$x" = true := by decide
  have unknown : (splitOn default test [] walk).walk.scope.has "$x" = false := by decide
  have decided := (defined_after_branches default test body ⟨8, 22⟩ returnOrAssign walk "$x" closed
    unasked survives).2.2 fun has => absurd (has.symm.trans unknown) (by decide)
  exact ⟨closed, unasked, two, decided.mpr ended⟩

/-- `if ($c) { unset($x); } else { unset($x); }` leaves the variable defined. -/
theorem defined_after_unset :
    let walk := startWith ["$c", "$x"]
    let test : Expr := ⟨.var "$c", ⟨4, 6⟩⟩
    let body : List Stmt := [⟨.unset ["$x"], ⟨10, 20⟩⟩]
    let rest : Otherwise := .orElse [⟨.unset ["$x"], ⟨30, 40⟩⟩]
    let ends := Block.ongoing (walkBranches default test body rest walk).branches
    (walkStmtKind default (.branch test body ⟨8, 22⟩ rest) walk).scope.has "$x" = true ∧
      ends.length = 2 ∧ ∀ branch ∈ ends, branch.scope.has "$x" = false := by
  decide

/-! ### Types -/

/--
After an `if` that ends in `else`, a variable may be of the types that it had before the branches,
and of those that it has at the ends of the branches that go on. The branches alone decide if and
only if none of the earlier types is gone from all of these ends. There is one end for each of the
bodies, which is the walk of it.
-/
theorem types_after_branches (env : Env) (test : Expr) (body : List Stmt) (bodySpan : Span)
    (rest : Otherwise) (walk : Walk) (name : String) (closed : rest.isClosed = true)
    (unasked : (test :: rest.tests).all (everyExpr asksNothing) = true) :
    let before := (splitOn env test [] walk).walk.scope
    let ends := Block.ongoing (walkBranches env test body rest walk).branches
    let after := (walkStmtKind env (.branch test body bodySpan rest) walk).scope
    List.Forall₂ (EndOf env walk.scope) (body :: rest.bodies)
      (walkBranches env test body rest walk).branches ∧
    (∀ value, after.MayBe name value ↔
      before.MayBe name value ∨ ∃ branch ∈ ends, branch.scope.MayBe name value) ∧
    ((∀ value, before.MayBe name value → ∃ branch ∈ ends, branch.scope.MayBe name value) ↔
      ∀ value, after.MayBe name value ↔ ∃ branch ∈ ends, branch.scope.MayBe name value) := by
  intro before ends after
  have joined (value : TypeValue) : after.MayBe name value ↔
      before.MayBe name value ∨ ∃ branch ∈ ends, branch.scope.MayBe name value := by
    show (walkStmtKind env (.branch test body bodySpan rest) walk).scope.MayBe name value ↔ _
    rw [scope_branch bodySpan closed unasked]
    exact Block.mayBe_merge
  refine ⟨branches_walkBranches env test body rest walk, joined,
    fun covered value => (joined value).trans (or_iff_right_of_imp (covered value)),
    fun decided value earlier => ?_⟩
  exact (decided value).mp ((joined value).mpr (.inl earlier))

/-- What was not known before the branches may be of the types at their ends. -/
theorem types_after_branches_returnOrAssign :
    let walk := startWith ["$c", "$d"]
    let test : Expr := ⟨.var "$c", ⟨4, 6⟩⟩
    let body := [assignAt 10 (.string (some "a"))]
    let ends := Block.ongoing (walkBranches default test body returnOrAssign walk).branches
    returnOrAssign.isClosed = true ∧
      (test :: returnOrAssign.tests).all (everyExpr asksNothing) = true ∧
      (∃ branch ∈ ends, branch.scope.MayBe "$x" (.concrete "string")) ∧
      ∀ value, (walkStmtKind default (.branch test body ⟨8, 22⟩ returnOrAssign) walk).scope.MayBe
        "$x" value ↔ ∃ branch ∈ ends, branch.scope.MayBe "$x" value := by
  intro walk test body ends
  have closed : returnOrAssign.isClosed = true := by decide
  have unasked : (test :: returnOrAssign.tests).all (everyExpr asksNothing) = true := by decide
  have unknown : (splitOn default test [] walk).walk.scope.mayHave "$x" = false := by
    decide
  refine ⟨closed, unasked, by decide, (types_after_branches default test body ⟨8, 22⟩
    returnOrAssign walk "$x" closed unasked).2.2.mp fun value mayBe => ?_⟩
  exact absurd mayBe.mayHave (Bool.eq_false_iff.mp unknown)

/-- `if ($c) { $x = 'a'; } else { $x = 'b'; }` leaves the type that the variable had before. -/
theorem types_after_assignments :
    let walk := startWith ["$c", "$x"]
    let test : Expr := ⟨.var "$c", ⟨4, 6⟩⟩
    let body := [assignAt 10 (.string (some "a"))]
    let rest : Otherwise := .orElse [assignAt 30 (.string (some "b"))]
    let ends := Block.ongoing (walkBranches default test body rest walk).branches
    (walkStmtKind default (.branch test body ⟨8, 22⟩ rest) walk).scope.MayBe "$x"
        (.concrete "int") ∧
      ends.length = 2 ∧ ∀ branch ∈ ends, ¬ branch.scope.MayBe "$x" (.concrete "int") := by
  decide

end Flow

end PhpAudit
