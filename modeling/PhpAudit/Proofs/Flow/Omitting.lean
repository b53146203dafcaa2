/-
This file compares an `if` without `else` to the same statement with an empty `else`. Without `else`
one more path is counted and joined as a path that defines nothing. With an empty `else` the block in
which every test is false is joined like a branch; it differs from the block around the statement only
by what the tests after the first one store.

So both forms leave the block alike, and they define the same variables unless such a test stores one:
the path on which every test is false has evaluated it.
-/

import PhpAudit.Proofs.Flow.Ignoring
import PhpAudit.Proofs.Flow.Merging

namespace PhpAudit

theorem Exits.union_none (exits : Exits) : exits ∪ .none = exits := by
  obtain ⟨_, _, _, _, _⟩ := exits
  simp [Union.union, union, none]

/-- The chain with an empty `else`, if it has no `else`. -/
def Otherwise.withElse : Otherwise → Otherwise
  | .nothing => .orElse []
  | .orElse body => .orElse body
  | .orIf test body span rest => .orIf test body span rest.withElse

namespace Otherwise

theorem isClosed_withElse (rest : Otherwise) : rest.withElse.isClosed = true := by
  cases rest with
  | nothing | orElse => rfl
  | orIf _ _ _ rest => exact isClosed_withElse rest

theorem tests_withElse (rest : Otherwise) : rest.withElse.tests = rest.tests := by
  cases rest with
  | nothing | orElse => rfl
  | orIf test _ _ rest => exact congrArg (test :: ·) (tests_withElse rest)

end Otherwise

namespace Flow

variable {env : Env} {name : String} {test : Expr} {body : List Stmt} {rest : Otherwise}

/-! ### Tests that tell nothing about variables -/

/-- Whether the node of an expression tells nothing about a variable when it is tested. -/
def tellsNothing : ExprKind → Bool
  | .isset _ | .isEmpty _ | .instanceOf _ _ => false
  | _ => true

theorem asksNothing_of_tellsNothing {expr : Expr} (untold : everyExpr tellsNothing expr = true) :
    everyExpr asksNothing expr = true :=
  everyExpr_mono (fun kind own => by cases kind <;> first | rfl | cases own) expr untold

theorem isNarrowing_of_tellsNothing (test : Expr) (untold : everyExpr tellsNothing test = true) :
    test.isNarrowing = false := by
  obtain ⟨kind, span⟩ := test
  simp only [everyExpr, Bool.and_eq_true] at untold
  obtain ⟨own, parts⟩ := untold
  cases kind with
  | paren inner =>
    rw [Expr.isNarrowing]
    exact isNarrowing_of_tellsNothing inner parts
  | unary op operand =>
    cases op with
    | not =>
      rw [Expr.isNarrowing]
      exact isNarrowing_of_tellsNothing operand parts
    | _ => rfl
  | binary op left right =>
    simp only [everyOperand, Bool.and_eq_true] at parts
    cases op with
    | and | or =>
      rw [Expr.isNarrowing, isNarrowing_of_tellsNothing left parts.1, Bool.false_and]
    | _ => rfl
  | instanceOf subject ref => cases own
  | _ => rfl

theorem otherwise_walkTest (negated inLogic : Bool) (test : Expr)
    (untold : everyExpr tellsNothing test = true) (guard : Guard) :
    (walkTest env negated inLogic test guard).otherwise = guard.otherwise := by
  obtain ⟨kind, span⟩ := test
  simp only [everyExpr, Bool.and_eq_true] at untold
  obtain ⟨own, parts⟩ := untold
  have read := guard.otherwise_mapWalk (walkKind env span kind)
  rw [walkTest.eq_def]
  cases kind with
  | paren inner => exact otherwise_walkTest negated inLogic inner parts guard
  | binary op left right =>
    simp only [everyOperand, Bool.and_eq_true] at parts
    cases op with
    | and | or =>
      exact (otherwise_walkTest negated true right parts.2 _).trans
        (otherwise_walkTest negated true left parts.1 guard)
    | _ => exact read
  | unary op operand =>
    cases op with
    | not =>
      exact (otherwise_walkTest (!negated) inLogic operand parts _).trans
        (guard.otherwise_markNotEmpty negated operand)
    | _ => exact read
  | isset | instanceOf => cases own
  | _ => exact read

/-! ### The path on which every test is false -/

/-- The block in which the tests so far are false: nothing has left it, and what was known before the
branches is known as it was. -/
structure Falls (initial : Scope) (no : Block) : Prop where
  record : no.record = ⟨.none, .none⟩
  known : ∀ {name : String}, initial.mayHave name = true → no.scope.get? name = initial.get? name

theorem Falls.continues {initial : Scope} {no : Block} (falls : Falls initial no) :
    no.continues = true := by
  have exits : no.exits = .none := congrArg ExitRecord.exits falls.record
  unfold Block.continues
  rw [exits]
  rfl

/-- The block takes nothing back at its end. -/
theorem Falls.get?_restoreImplicit {initial : Scope} {no : Block} (falls : Falls initial no)
    (name : String) : (no.restoreImplicit initial).scope.get? name = no.scope.get? name := by
  rw [Block.get?_restoreImplicit]
  split
  · next restored =>
    rw [Bool.and_eq_true] at restored
    exact (falls.known restored.2).symm
  · rfl

theorem falls_splitOn {initial : Scope} {walk : Walk} {markers : List String}
    (untold : everyExpr tellsNothing test = true)
    (known : ∀ {name : String}, initial.mayHave name = true →
      walk.scope.get? name = initial.get? name) :
    Falls initial (splitOn env test markers walk).no where
  record := record_otherwise_test env false false test (.start walk markers)
  known {name} before := by
    have around : walk.block.scope.mayHave name = true := by
      have same := known before
      unfold Scope.mayHave at before ⊢
      unfold Walk.scope at same
      rwa [same]
    refine (get?_no_of_split around).trans ?_
    rw [otherwise_walkTest false false test untold]
    exact known before

/-- An empty `else` adds the block in which every test is false to the branches. -/
theorem walkOtherwise_withElse (rest : Otherwise) (absent : rest.isClosed = false)
    (untold : rest.tests.all (everyExpr tellsNothing) = true) {initial : Scope} {chain : Chain}
    (falls : Falls initial chain.no) :
    let walked := walkOtherwise env initial rest chain
    Falls initial walked.no ∧
      walkOtherwise env initial rest.withElse chain =
        { walked with branches := walked.branches ++ [walked.no.restoreImplicit initial] } := by
  cases rest with
  | nothing =>
    rw [walkOtherwise_nothing]
    refine ⟨falls, ?_⟩
    rw [Otherwise.withElse, walkOtherwise]
    unfold Walk.within Chain.push
    rw [walkStmts]
    dsimp only
    rw [if_pos falls.continues]
  | orElse body => cases absent
  | orIf test body span rest =>
    simp only [Otherwise.tests, List.all_cons, Bool.and_eq_true] at untold
    rw [Otherwise.withElse, walkOtherwise, walkOtherwise]
    exact walkOtherwise_withElse rest absent untold.2 (falls_splitOn untold.1 falls.known)

/-- Tests that do not name a variable leave it as it is where they are false. -/
theorem definedness_no_walkOtherwise (rest : Otherwise) {initial : Scope} (chain : Chain)
    (omitted : rest.tests.all (everyExpr (omits name)) = true) :
    (walkOtherwise env initial rest chain).no.scope.definedness name =
      chain.no.scope.definedness name := by
  cases rest with
  | nothing => rw [walkOtherwise_nothing]
  | orElse body => rw [walkOtherwise]; rfl
  | orIf test body span rest =>
    simp only [Otherwise.tests, List.all_cons, Bool.and_eq_true] at omitted
    let inner : Walk := { chain.walk with block := chain.no }
    have tested : Guard.Ignores name (.start inner chain.markers)
        (walkTest env false false test (.start inner chain.markers)) :=
      walkTest_ignores false false test omitted.1 _
    rw [walkOtherwise, definedness_no_walkOtherwise rest _ omitted.2]
    exact tested.split.2

/-! ### Closing the chain -/

theorem record_close {chain : Chain} (reached : chain.links ≠ 0) :
    (chain.close false).record =
      ⟨chain.walk.block.exits, chain.branches.foldl (fun exits branch => exits ∪ branch.possible)
        chain.walk.block.possible⟩ := by
  unfold Chain.close
  rw [Walk.record_dropMarkers]
  unfold Walk.record Walk.mapBlock Block.record Block.merge Block.mapScope Block.propagate
  dsimp only
  rw [beq_eq_false_iff_ne.mpr reached, Bool.false_and]
  rfl

theorem scope_close {chain : Chain} (unmarked : chain.markers = []) :
    (chain.close false).scope = (chain.walk.block.merge chain.branches chain.links).scope := by
  unfold Chain.close
  rw [unmarked]
  rfl

theorem walkBranches_withElse (env : Env) (body : List Stmt) (absent : rest.isClosed = false)
    (untold : (test :: rest.tests).all (everyExpr tellsNothing) = true) (walk : Walk) :
    let chain := walkBranches env test body rest walk
    Falls walk.scope chain.no ∧
      walkBranches env test body rest.withElse walk =
        { chain with branches := chain.branches ++ [chain.no.restoreImplicit walk.scope] } := by
  simp only [List.all_cons, Bool.and_eq_true] at untold
  exact walkOtherwise_withElse rest absent untold.2 (falls_splitOn untold.1 fun _ => rfl)

/-- Without `else`, control also reaches the end where every test is false. -/
theorem links_walkBranches_open (env : Env) (body : List Stmt) (absent : rest.isClosed = false)
    (untold : (test :: rest.tests).all (everyExpr tellsNothing) = true) (walk : Walk) :
    (walkBranches env test body rest walk).links =
      (Block.ongoing (walkBranches env test body rest walk).branches).length + 1 := by
  obtain ⟨falls, added⟩ :=
    walkBranches_withElse env body absent untold walk
  have counted : (walkBranches env test body rest.withElse walk).links =
      (Block.ongoing (walkBranches env test body rest.withElse walk).branches).length :=
    links_walkBranches rest.isClosed_withElse walk
  rw [added, Block.ongoing_append, List.length_append, Block.length_ongoing_singleton,
    Chain.continues_restoreImplicit, if_pos falls.continues] at counted
  exact counted

theorem markers_walkBranches (env : Env) (body : List Stmt)
    (unasked : (test :: rest.tests).all (everyExpr asksNothing) = true)
    (walk : Walk) : (walkBranches env test body rest walk).markers = [] := by
  simp only [List.all_cons, Bool.and_eq_true] at unasked
  exact (markers_walkOtherwise rest walk.scope unasked.2 _).trans
    (markers_walkTest false false test unasked.1 _)

section

variable (bodySpan : Span) (absent : rest.isClosed = false)
  (untold : (test :: rest.tests).all (everyExpr tellsNothing) = true) (walk : Walk)

include untold

theorem walkStmtKind_open :
    walkStmtKind env (.branch test body bodySpan rest) walk =
      (walkBranches env test body rest walk).close false := by
  simp only [List.all_cons, Bool.and_eq_true] at untold
  have noGuard (branch : Block) : isGuard test rest branch = false := by
    unfold isGuard
    rw [isNarrowing_of_tellsNothing test untold.1, Bool.and_false, Bool.false_and]
  rw [walkStmtKind_walkBranches, noGuard]

/-- Where every test is false, an `elseif` has defined nothing that its test does not name. -/
theorem has_no_walkBranches (omitted : rest.tests.all (everyExpr (omits name)) = true) :
    (walkBranches env test body rest walk).no.scope.has name =
      (splitOn env test [] walk).walk.scope.has name := by
  simp only [List.all_cons, Bool.and_eq_true] at untold
  have same : (splitOn env test [] walk).no.scope = (splitOn env test [] walk).walk.scope := by
    have otherwise : (walkTest env false false test (.start walk [])).otherwise = walk.block.child :=
      otherwise_walkTest false false test untold.1 _
    unfold splitOn Guard.split
    rw [otherwise]
    rfl
  rw [← same]
  exact Scope.has_of_definedness (definedness_no_walkOtherwise rest _ omitted)

include absent

/-- Without `else` the path on which every test is false defines nothing. -/
theorem has_without_else :
    (walkStmtKind env (.branch test body bodySpan rest) walk).scope.has name =
      (splitOn env test [] walk).walk.scope.has name := by
  have unmarked := markers_walkBranches env body
    (all_mono (fun _ => asksNothing_of_tellsNothing) untold) walk
  have counted := links_walkBranches_open env body absent untold walk
  have atMost : (Block.ongoing (walkBranches env test body rest walk).branches).countP
      (·.scope.has name) ≤ (Block.ongoing (walkBranches env test body rest walk).branches).length :=
    List.countP_le_length
  rw [walkStmtKind_open bodySpan untold, scope_close unmarked, block_walkBranches, Bool.eq_iff_iff,
    Block.has_merge]
  exact or_iff_left_of_imp fun ⟨_, all⟩ => by omega

/-- With an empty `else` the path on which every test is false counts as a branch. -/
theorem has_empty_else :
    (walkStmtKind env (.branch test body bodySpan rest.withElse) walk).scope.has name = true ↔
      (splitOn env test [] walk).walk.scope.has name = true ∨
        (walkBranches env test body rest walk).no.scope.has name = true ∧
          ∀ branch ∈ Block.ongoing (walkBranches env test body rest walk).branches,
            branch.scope.has name = true := by
  obtain ⟨falls, added⟩ := walkBranches_withElse env body absent untold walk
  let chain := walkBranches env test body rest walk
  have unmarked : (walkBranches env test body rest.withElse walk).markers = [] :=
    markers_walkBranches env body (all_mono (fun _ => asksNothing_of_tellsNothing)
      (by rwa [Otherwise.tests_withElse])) walk
  have last : Block.ongoing [chain.no.restoreImplicit walk.scope] =
      [chain.no.restoreImplicit walk.scope] :=
    List.filter_cons_of_pos falls.continues
  have ends : Block.ongoing (walkBranches env test body rest.withElse walk).branches =
      Block.ongoing chain.branches ++ [chain.no.restoreImplicit walk.scope] := by
    rw [added, Block.ongoing_append, last]
  have survives : Block.ongoing (walkBranches env test body rest.withElse walk).branches ≠ [] := by
    simp [ends]
  have atEnd : (chain.no.restoreImplicit walk.scope).scope.has name = chain.no.scope.has name := by
    unfold Scope.has
    rw [falls.get?_restoreImplicit]
  rw [walkStmtKind_closed bodySpan rest.isClosed_withElse, scope_close unmarked, block_walkBranches,
    links_walkBranches rest.isClosed_withElse, Block.has_merge_ongoing survives, ends]
  refine or_congr_right ?_
  simp only [List.forall_mem_append, List.forall_mem_singleton, atEnd]
  exact and_comm

/-- Neither form leaves the block, since control may get past every test. -/
theorem record_empty_else :
    (walkStmtKind env (.branch test body bodySpan rest.withElse) walk).record =
      (walkStmtKind env (.branch test body bodySpan rest) walk).record := by
  obtain ⟨falls, added⟩ := walkBranches_withElse env body absent untold walk
  have counted := links_walkBranches_open env body absent untold walk
  have reached : (walkBranches env test body rest walk).links ≠ 0 := by omega
  have nothing : ((walkBranches env test body rest walk).no.restoreImplicit walk.scope).possible =
      .none :=
    congrArg ExitRecord.possible falls.record
  rw [walkStmtKind_open bodySpan untold, walkStmtKind_closed bodySpan rest.isClosed_withElse, added,
    record_close reached]
  refine (record_close (by exact reached)).trans ?_
  rw [List.foldl_append, List.foldl_cons, List.foldl_nil, nothing, Exits.union_none]

end

/--
An `if` without `else`, whose tests tell nothing about variables, leaves the block in the same ways as
with an empty `else`. Without `else` it defines what is defined after the first test. With an empty
`else` it also defines what is defined where every test is false and at the end of each branch that
goes on. So both forms define a variable alike unless the test of an `elseif` names it.
-/
theorem absent_else_is_empty (env : Env) (test : Expr) (body : List Stmt) (bodySpan : Span)
    (rest : Otherwise) (walk : Walk) (absent : rest.isClosed = false)
    (untold : (test :: rest.tests).all (everyExpr tellsNothing) = true) :
    let chain := walkBranches env test body rest walk
    let without := walkStmtKind env (.branch test body bodySpan rest) walk
    let empty := walkStmtKind env (.branch test body bodySpan rest.withElse) walk
    empty.record = without.record ∧
    (∀ name, without.scope.has name = (splitOn env test [] walk).walk.scope.has name) ∧
    (∀ name, empty.scope.has name = true ↔ without.scope.has name = true ∨
      chain.no.scope.has name = true ∧
        ∀ branch ∈ Block.ongoing chain.branches, branch.scope.has name = true) ∧
    ∀ name, rest.tests.all (everyExpr (omits name)) = true →
      empty.scope.has name = without.scope.has name := by
  intro chain without empty
  have hasWithout (name : String) : without.scope.has name =
      (splitOn env test [] walk).walk.scope.has name :=
    has_without_else bodySpan absent untold walk
  have hasEmpty (name : String) : empty.scope.has name = true ↔ without.scope.has name = true ∨
      chain.no.scope.has name = true ∧
        ∀ branch ∈ Block.ongoing chain.branches, branch.scope.has name = true := by
    rw [hasWithout]
    exact has_empty_else bodySpan absent untold walk
  refine ⟨record_empty_else bodySpan absent untold walk, hasWithout, hasEmpty, fun name omitted => ?_⟩
  rw [Bool.eq_iff_iff, hasEmpty]
  refine or_iff_left_of_imp fun ⟨defined, _⟩ => ?_
  rwa [hasWithout, ← has_no_walkBranches untold walk omitted]

/-- `elseif ($d) { $x = 'b'; }`, after `if ($c) { $x = 'a'; }` -/
def assignWhere : Otherwise :=
  .orIf ⟨.var "$d", ⟨31, 33⟩⟩ [assignAt 37 (.string (some "b"))] ⟨35, 48⟩ .nothing

/-- A variable that both branches assign is not defined afterwards, with or without an empty `else`. -/
theorem absent_else_is_empty_assignWhere :
    let walk := startWith ["$c", "$d"]
    let test : Expr := ⟨.var "$c", ⟨4, 6⟩⟩
    let body := [assignAt 10 (.string (some "a"))]
    let empty := walkStmtKind default (.branch test body ⟨8, 22⟩ assignWhere.withElse) walk
    empty.scope.has "$x" = false ∧ empty.block.exits = .none := by
  intro walk test body empty
  have absent : assignWhere.isClosed = false := by decide
  have untold : (test :: assignWhere.tests).all (everyExpr tellsNothing) = true := by decide
  have unnamed : assignWhere.tests.all (everyExpr (omits "$x")) = true := by decide
  obtain ⟨exits, defined, _, same⟩ :=
    absent_else_is_empty default test body ⟨8, 22⟩ assignWhere walk absent untold
  exact ⟨(same "$x" unnamed).trans ((defined "$x").trans (by decide)),
    (congrArg ExitRecord.exits exits).trans (by decide)⟩

/-- `if ($c) { return; } elseif ($x = 'b') { }` does not define the variable, and with an empty
`else` it does. -/
theorem absent_else_forgets :
    let walk := startWith ["$c"]
    let test : Expr := ⟨.var "$c", ⟨4, 6⟩⟩
    let assigned : Expr := ⟨.assign ⟨.var "$x", ⟨29, 31⟩⟩ ⟨.string (some "b"), ⟨34, 37⟩⟩ .assign false,
      ⟨29, 37⟩⟩
    let rest : Otherwise := .orIf assigned [] ⟨39, 42⟩ .nothing
    let after (rest : Otherwise) : Walk :=
      walkStmtKind default (.branch test [⟨.returns none, ⟨10, 17⟩⟩] ⟨8, 19⟩ rest) walk
    rest.isClosed = false ∧ (test :: rest.tests).all (everyExpr tellsNothing) = true ∧
      (after rest).scope.has "$x" ≠ (after rest.withElse).scope.has "$x" := by
  decide

end Flow

end PhpAudit
