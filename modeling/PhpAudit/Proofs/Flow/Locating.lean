/-
This file proves that where a walk finds a `return` possible, the search for exits finds one. The two go
through the code in different ways. The walk leaves out cases that are empty, goes through the cases that
a case falls into once more, and keeps apart what several paths do. The search looks at every statement
once.

They meet in a third description: whether some code is free of `return`, at any depth. A search that
finds nothing has seen that the code is free of it, and over such code a walk makes only those exits
possible that other statements take and in which callees end.
-/

import PhpAudit.Declaration
import PhpAudit.Proofs.Flow.Accruing
import PhpAudit.Proofs.Syntax.Viewing

namespace PhpAudit.Flow

open ExitPoint

/-! ### The search -/

/-- If nothing is noted after a visit, nothing was before, and what was visited is free of `return`. -/
def Tells (before after : List ExitPoint) (free : Bool) : Prop :=
  after = [] → before = [] ∧ free = true

namespace Tells

variable {before between after : List ExitPoint} {first second : Bool}

theorem append (left : Tells before between first) (right : Tells between after second) :
    Tells before after (first && second) := by
  intro silent
  obtain ⟨noted, free⟩ := right silent
  exact ⟨(left noted).1, by rw [(left noted).2, free]; rfl⟩

/-- Before a visit others may be made that note nothing. -/
theorem from_eq (tells : Tells between after first) (same : between = before) :
    Tells before after first :=
  same ▸ tells

/-- After a visit others may be made that note nothing. -/
theorem to_eq (tells : Tells before between first) (same : after = between) :
    Tells before after first :=
  same ▸ tells

/-- What was visited has no statements. -/
theorem nothing (same : after = before) : Tells before after true :=
  fun silent => ⟨same ▸ silent, rfl⟩

/-- A `return` is noted, and stays so. -/
theorem found {point : ExitPoint} (same : after = before ++ [point]) : Tells before after first :=
  fun silent => absurd (same.symm.trans silent) (by simp)

end Tells

/-- Looks for `return`. -/
abbrev returnsVisitor : Visitor (List ExitPoint) :=
  visitor .byReturn

section

variable (points : List ExitPoint)

/-- No expression is noted. -/
theorem points_onExpr (expr : Expr) (points : List ExitPoint) :
    id (returnsVisitor.onExpr expr points).1 = id points := by
  obtain ⟨kind, span⟩ := expr
  cases kind <;> rfl

theorem points_expr (value : Expr) : returnsVisitor.expr value points = points :=
  Visitor.view_expr points_onExpr rfl value points

theorem points_exprs (values : List Expr) : returnsVisitor.exprs values points = points :=
  Visitor.view_exprs points_onExpr rfl values points

theorem points_optional (value : Option Expr) : returnsVisitor.optional value points = points :=
  Visitor.view_optional points_onExpr rfl value points

theorem points_bindings (list : List Binding) : returnsVisitor.bindings list points = points :=
  Visitor.view_bindings points_onExpr rfl list points

theorem points_constItems (list : List ConstItem) : returnsVisitor.constItems list points = points :=
  Visitor.view_constItems points_onExpr rfl list points

end

/-! ### Expressions are free of it -/

@[simp] theorem all_anyExpr (values : List Expr) : values.all anyExpr = true :=
  List.all_eq_true.mpr fun _ _ => rfl

@[simp] theorem optional_anyExpr (value : Option Expr) : value.all anyExpr = true := by
  cases value <;> rfl

@[simp] theorem everyBinding_anyExpr (list : List Binding) : everyBinding anyExpr list = true := by
  induction list with
  | nil => rfl
  | cons binding rest inductionHypothesis =>
    obtain ⟨_, initial, _⟩ := binding
    rw [everyBinding, optional_anyExpr, inductionHypothesis]
    rfl

@[simp] theorem everyConst_anyExpr (list : List ConstItem) : everyConst anyExpr list = true := by
  induction list with
  | nil => rfl
  | cons item rest inductionHypothesis =>
    obtain ⟨_, value, _⟩ := item
    rw [everyConst, inductionHypothesis]
    rfl

mutual

theorem tells_stmts (inLoop : Bool) (body : List Stmt) (points : List ExitPoint) :
    Tells points (returnsVisitor.stmts body points) (everyStmt anyExpr noReturn inLoop body) := by
  cases body with
  | nil => exact .nothing rfl
  | cons stmt rest =>
    obtain ⟨kind, span⟩ := stmt
    exact (tells_stmt inLoop kind span points).append (tells_stmts inLoop rest _)

theorem tells_stmt (inLoop : Bool) (kind : StmtKind) (span : Span) (points : List ExitPoint) :
    Tells points (returnsVisitor.stmt ⟨kind, span⟩ points)
      (noReturn inLoop kind && everyPart anyExpr noReturn inLoop kind) := by
  cases kind
  case returns value => exact .found (points_optional _ value)
  all_goals
    show Tells points (returnsVisitor.parts _ points) (true && _)
    simp only [everyPart, Bool.true_and, Bool.and_true, anyExpr, all_anyExpr, optional_anyExpr,
      everyBinding_anyExpr, everyConst_anyExpr]
  case expr value => exact .nothing (points_expr points value)
  case echo values => exact .nothing (points_exprs points values)
  case block body => exact tells_stmts inLoop body points
  case branch test body _ rest =>
    exact ((tells_stmts inLoop body _).append (tells_otherwise inLoop rest _)).from_eq
      (points_expr points test)
  case whileLoop test body => exact (tells_stmts true body _).from_eq (points_expr points test)
  case doWhile body test => exact (tells_stmts true body points).to_eq (points_expr _ test)
  case forLoop init test step body =>
    exact (((tells_stmts true body _).from_eq (points_exprs _ step)).from_eq
      (points_exprs _ test)).from_eq (points_exprs points init)
  case «foreach» subject key target _ body =>
    exact (((tells_stmts true body _).from_eq (points_expr _ target)).from_eq
      (points_optional _ key)).from_eq (points_expr points subject)
  case switch subject list => exact (tells_cases list _).from_eq (points_expr points subject)
  case tryCatch body list final _ =>
    exact ((tells_stmts inLoop body points).append (tells_catches inLoop list _)).append
      (tells_final inLoop final _)
  case static list => exact .nothing (points_bindings points list)
  case constants list => exact .nothing (points_constItems points list)
  -- the search looks for exits in a namespace block, and a walk does not go into it
  case namespaced body =>
    exact fun silent => ⟨(tells_stmts inLoop body points silent).1, rfl⟩
  case breaks | continues | global | unset | imports | function | classLike | nop =>
    exact .nothing rfl

theorem tells_otherwise (inLoop : Bool) (rest : Otherwise) (points : List ExitPoint) :
    Tells points (returnsVisitor.otherwise rest points)
      (everyOtherwise anyExpr noReturn inLoop rest) := by
  cases rest with
  | nothing => exact .nothing rfl
  | orElse body => exact tells_stmts inLoop body points
  | orIf test body _ rest =>
    exact ((tells_stmts inLoop body _).append (tells_otherwise inLoop rest _)).from_eq
      (points_expr points test)

theorem tells_cases (list : List Case) (points : List ExitPoint) :
    Tells points (returnsVisitor.cases list points) (everyCase anyExpr noReturn list) := by
  cases list with
  | nil => exact .nothing rfl
  | cons first rest =>
    obtain ⟨test, body, _, _⟩ := first
    rw [everyCase, optional_anyExpr]
    exact ((tells_stmts true body _).append (tells_cases rest _)).from_eq
      (points_optional points test)

theorem tells_catches (inLoop : Bool) (list : List Catch) (points : List ExitPoint) :
    Tells points (returnsVisitor.catches list points) (everyCatch anyExpr noReturn inLoop list) := by
  cases list with
  | nil => exact .nothing rfl
  | cons clause rest =>
    obtain ⟨_, _, body, _⟩ := clause
    exact (tells_stmts inLoop body points).append (tells_catches inLoop rest _)

theorem tells_final (inLoop : Bool) (final : Option (List Stmt)) (points : List ExitPoint) :
    Tells points (returnsVisitor.optionalBody final points)
      (everyFinal anyExpr noReturn inLoop final) := by
  cases final with
  | none => exact .nothing rfl
  | some body => exact tells_stmts inLoop body points

end

/-- If the search finds no `return`, the code is free of it. -/
theorem noReturn_of_find {body : List Stmt} (silent : find body .byReturn = []) :
    everyStmt anyExpr noReturn false body = true :=
  (tells_stmts false body [] silent).2

/-! ### The walk -/

variable {env : Env}

/-- Code that is free of `return`, with callees that end by throwing or by ending the program. -/
theorem admits_of_abnormal (abnormal : env.index.CalleesWithin (.byThrow ∪ .byDie)) :
    env.Admits (.all \ .byReturn) where
  own := Exits.le_refl _
  callees := {
    functions := fun info member => Exits.le_trans (abnormal.functions info member) (by decide)
    methods := fun declarer declares info member =>
      Exits.le_trans (abnormal.methods declarer declares info member) (by decide) }

theorem finalExits_le (walk : Walk) : walk.finalExits ≤ .byThrow ∪ .byDie := by
  unfold Walk.finalExits
  dsimp only
  split
  · rw [Exits.le_iff]
    simp [Inter.inter, Exits.inter, Union.union, Exits.union, Exits.byDie, Exits.byThrow]
  · exact Exits.none_le _

/-- What is recorded for a function or method is such an end. -/
theorem exits_describe_le (env : FileEnv) (naming : Naming) (base : Option BaseMethod)
    (this : Option String) (signature : Declaration.Signature) (body : Option (List Stmt))
    (report : Report) :
    (Declaration.describe env naming base this signature body report).info.exits ≤
      .byThrow ∪ .byDie := by
  cases body with
  | none => exact Exits.none_le _
  | some body => exact finalExits_le _

/-- The exits that are sure in a branch are possible in it. -/
theorem exits_le_possible (env : Env) (body : List Stmt) (outer : Block) (walk : Walk) :
    (walk.within outer.child (walkStmts env body)).1.exits ≤
      (walk.within outer.child (walkStmts env body)).1.possible := by
  have spans := spans_stmts env.admits_all false body (.inl rfl)
    { walk with block := outer.child }
  exact (spans.walked rfl).exits_le

/-- A branch in which `return` is possible has one that the search finds. -/
theorem find_ne_nil (abnormal : env.index.CalleesWithin (.byThrow ∪ .byDie)) (body : List Stmt)
    (outer : Block) (walk : Walk)
    (returns : (walk.within outer.child (walkStmts env body)).1.possible.returns = true) :
    find body .byReturn ≠ [] := by
  intro silent
  have spans := spans_stmts (admits_of_abnormal abnormal) false body (.inr (noReturn_of_find silent))
    { walk with block := outer.child }
  have bound : (walk.within outer.child (walkStmts env body)).1.possible ≤ .all \ .byReturn :=
    (spans.walked rfl).possible_le
  have allowed : (Exits.all \ Exits.byReturn).returns = true := (Exits.le_iff.mp bound).1 returns
  exact absurd allowed (by decide)

/-- Reports exits that the `return` at `span` in the last clause of a `try` overrides. -/
def reportOverridden (env : Env) (span : Span) (points : List ExitPoint) (walk : Walk) : Walk :=
  let line := env.source.line span.start
  points.foldl (fun walk point =>
    walk.issue env point.span .error "deadCode"
      s!"{point.word} is unreachable (because finally block contains a return on line {line})") walk

/--
Where a walk over a branch finds `return` possible, the search finds one. So if the last clause of a
`try` is sure to return, and no `catch` ends the program, what it overrides is reported with the line of
the first `return` in it.
-/
theorem possible_return_found (env : Env) (abnormal : env.index.CalleesWithin (.byThrow ∪ .byDie))
    (body : List Stmt) (outer : Block) (walk : Walk) :
    let finished := (walk.within outer.child (walkStmts env body)).1
    (finished.possible.returns = true → find body .byReturn ≠ []) ∧
      (finished.exits = .byReturn → ∃ first rest, find body .byReturn = first :: rest ∧
        ∀ (guarded : List Stmt) (tried : Block) (catches : List (List Stmt × Block)) (span : Span)
          (after : Walk), (∀ clause ∈ catches, clause.2.possible.dies = false) →
          checkFinally env guarded tried catches body span finished after =
            reportOverridden env first.span (overridden guarded tried catches) after) := by
  intro finished
  have whenPossible := find_ne_nil abnormal body outer walk
  refine ⟨whenPossible, fun sure => ?_⟩
  have included : finished.exits ≤ finished.possible := exits_le_possible env body outer walk
  rw [sure] at included
  obtain ⟨first, rest, noted⟩ :=
    List.exists_cons_of_ne_nil (whenPossible ((Exits.le_iff.mp included).1 rfl))
  refine ⟨first, rest, noted, fun guarded tried catches span after survives => ?_⟩
  rw [checkFinally, List.findIdx?_eq_none_iff.mpr (by exact survives)]
  dsimp only
  rw [sure, noted]
  rfl

/-- The function `fail`, whose body is `throw $e;` -/
def failing : FunctionInfo :=
  let body : List Stmt := [⟨.expr ⟨.throw ⟨.var "$e", ⟨0, 1⟩⟩, ⟨0, 1⟩⟩, ⟨0, 1⟩⟩]
  (Declaration.describe default default none none
    { name := "\\fail", span := ⟨0, 1⟩, params := [], hint := none } (some body)
    { enabled := false }).info

def failingEnv : Env :=
  { (default : Env) with
    index := (Index.empty.insertFile "sample" (FileSymbols.addFunction {} failing)).setComplete true
    naming := .ofNamespace none }

/-- `$a && fail();` and then `return;` -/
def failingBody : List Stmt :=
  [⟨.expr ⟨.binary .and ⟨.var "$a", ⟨0, 2⟩⟩ ⟨.call "fail" [], ⟨6, 12⟩⟩, ⟨0, 12⟩⟩, ⟨0, 13⟩⟩,
    ⟨.returns none, ⟨14, 21⟩⟩]

/-- A last clause whose callee may throw, and which is sure to return otherwise, overrides an `exit`. -/
theorem possible_return_found_failingBody :
    let walk := Walk.start .empty { enabled := true }
    let finished := (walk.within walk.block.child (walkStmts failingEnv failingBody)).1
    let guarded : List Stmt := [⟨.expr ⟨.exit false [], ⟨0, 4⟩⟩, ⟨0, 5⟩⟩]
    let tried : Block := { scope := .empty, exits := .byDie, possible := .byDie }
    finished.possible = .byReturn ∪ .byThrow ∧ finished.exits = .byReturn ∧
      find failingBody .byReturn ≠ [] ∧
      checkFinally failingEnv guarded tried [] failingBody ⟨0, 21⟩ finished walk =
        reportOverridden failingEnv ⟨14, 21⟩ [⟨⟨0, 4⟩, "exit"⟩] walk := by
  intro walk finished guarded tried
  have functions : failingEnv.index.functions.values = [failing] := rfl
  have declarers : Hierarchy.declarers failingEnv.index = [] := rfl
  have abnormal : failingEnv.index.CalleesWithin (.byThrow ∪ .byDie) := by
    constructor
    · intro info member
      rw [functions] at member
      obtain rfl := List.mem_singleton.mp member
      exact exits_describe_le ..
    · rw [declarers]
      exact fun _ member => absurd member List.not_mem_nil
  have possible : finished.possible = .byReturn ∪ .byThrow := by decide +kernel
  have sure : finished.exits = .byReturn := by decide +kernel
  have located : find failingBody .byReturn = [⟨⟨14, 21⟩, "return"⟩] := rfl
  have overrides : overridden guarded tried [] = [⟨⟨0, 4⟩, "exit"⟩] := by decide
  obtain ⟨found, reported⟩ := possible_return_found failingEnv abnormal failingBody walk.block walk
  obtain ⟨first, rest, noted, reports⟩ := reported sure
  obtain ⟨rfl, -⟩ := List.cons.inj (located.symm.trans noted)
  refine ⟨possible, sure, found (by rw [possible]; decide), ?_⟩
  rw [← overrides]
  exact reports guarded tried [] ⟨0, 21⟩ walk fun _ member => absurd member List.not_mem_nil

end PhpAudit.Flow
