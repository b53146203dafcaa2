/-
This file proves that a walk meets every assignment to a property of `$this` that the syntax of a body
has outside nested functions and classes, whatever state the walk starts in. Over an expression it meets
them in the order of the syntax and each once: also operands that may be skipped are walked, and what
differs between a target, a condition and a plain operand is only which state they are walked in.
-/

import PhpAudit.Proofs.Flow.Filling

namespace PhpAudit

open PhpAudit.Flow

theorem ownProperty?_byRef (target : Expr) (op : AssignOp) : ownProperty? target op true = none := by
  unfold ownProperty?
  split
  · next byRef _ => cases byRef
  · rfl

namespace Flow

/-! ### Expressions -/

theorem map_own_append {first second : List Filling} {left right : List Own}
    (inFirst : first.map Filling.own = left) (inSecond : second.map Filling.own = right) :
    (first ++ second).map Filling.own = left ++ right := by
  rw [List.map_append, inFirst, inSecond]

section

variable (env : Env)

theorem map_own_assign (span : Span) {target value : Expr} (op : AssignOp) (byRef : Bool) {walk : Walk}
    (valued : (fillingsExpr env value walk).map Filling.own = ownExpr env value)
    (shared : (fillingsShared env value walk).map Filling.own = ownExpr env value)
    (assigned : ∀ mode types walk,
      (fillingsAssign env mode types target walk).map Filling.own = ownExpr env target) :
    (fillingsKind env span (.assign target value op byRef) walk).map Filling.own =
      ownKind env (.assign target value op byRef) := by
  cases byRef with
  | true =>
    refine map_own_append (shared.trans ?_) (assigned _ _ _)
    rw [ownProperty?_byRef]
    exact (List.append_nil _).symm
  | false =>
    refine map_own_append (map_own_append valued ?_) (assigned _ _ _)
    exact List.map_map

mutual

/-- The walk over an expression meets what the expression assigns to properties of `$this`. -/
theorem fillingsExpr_own (value : Expr) (walk : Walk) :
    (fillingsExpr env value walk).map Filling.own = ownExpr env value := by
  obtain ⟨kind, span⟩ := value
  exact fillingsKind_own span kind walk

theorem fillingsKind_own (span : Span) (kind : ExprKind) (walk : Walk) :
    (fillingsKind env span kind walk).map Filling.own = ownKind env kind := by
  cases kind
  case assign target value op byRef =>
    exact map_own_assign env span op byRef (fillingsExpr_own value walk) (fillingsShared_own value walk)
      fun mode types => fillingsAssign_own mode types target
  case binary op left right =>
    cases op with
    | coalesce => exact map_own_append (fillingsProbe_own left walk) (fillingsExpr_own right _)
    | _ => exact map_own_append (fillingsExpr_own left walk) (fillingsExpr_own right _)
  case ternary test yes no =>
    cases yes with
    | none =>
      have tested := (fillingsExpr_own test walk).trans (List.append_nil _).symm
      exact map_own_append tested (fillingsExpr_own no _)
    | some yes =>
      exact map_own_append (map_own_append (fillingsTest_own false false test _)
        (fillingsExpr_own yes _)) (fillingsExpr_own no _)
  case call name args =>
    rw [fillingsKind_call, ownKind_call]
    split
    · exact fillingsCompactArgs_own args walk
    · exact fillingsArgs_own _ 0 args _
  case paren inner | clone inner | unary _ inner | property inner _ _ | throw inner | includeFile inner
      | yieldFrom inner => exact fillingsExpr_own inner _
  case isEmpty inner => exact fillingsProbe_own inner walk
  case isset values => exact fillingsProbes_own values walk
  case array items | list items => exact fillingsItems_own items walk
  case element base index =>
    exact map_own_append (fillingsExpr_own base _) (fillingsOptional_own index _)
  case instanceOf subject ref =>
    exact map_own_append (fillingsExpr_own subject walk) (fillingsRef_own ref _)
  case callValue function args =>
    exact map_own_append (fillingsExpr_own function _) (fillingsArgs_own none 0 args _)
  case methodCall object method args nullsafe =>
    exact map_own_append (fillingsExpr_own object _) (fillingsArgs_own _ 0 args _)
  case staticCall ref method args =>
    exact map_own_append (fillingsRef_own ref _) (fillingsArgs_own _ 0 args _)
  case new ref args => exact map_own_append (fillingsRef_own ref _) (fillingsArgs_own _ 0 args _)
  case staticProperty ref name | classConstant ref name => exact fillingsRef_own ref walk
  case matchOn subject arms =>
    exact map_own_append (fillingsExpr_own subject walk) (fillingsArms_own arms _)
  case yield key value =>
    exact map_own_append (fillingsOptional_own key _) (fillingsOptional_own value _)
  all_goals rfl

theorem fillingsExprs_own (values : List Expr) (walk : Walk) :
    (fillingsExprs env values walk).map Filling.own = ownExprs env values := by
  cases values with
  | nil => rfl
  | cons value rest =>
    exact map_own_append (fillingsExpr_own value walk) (fillingsExprs_own rest _)

theorem fillingsOptional_own (value : Option Expr) (walk : Walk) :
    (fillingsOptional env value walk).map Filling.own = ownOptional env value := by
  cases value with
  | none => rfl
  | some value =>
    exact fillingsExpr_own value walk

theorem fillingsConditionals_own (values : List Expr) (walk : Walk) :
    (fillingsConditionals env values walk).map Filling.own = ownExprs env values := by
  cases values with
  | nil => rfl
  | cons value rest =>
    exact map_own_append (fillingsExpr_own value walk) (fillingsConditionals_own rest _)

theorem fillingsItems_own (items : List Item) (walk : Walk) :
    (fillingsItems env items walk).map Filling.own = ownItems env items := by
  cases items with
  | nil => rfl
  | cons item rest =>
    cases item with
    | skip =>
      exact fillingsItems_own rest walk
    | entry key value byRef unpack =>
      exact map_own_append (map_own_append (fillingsOptional_own key walk) (fillingsExpr_own value _))
        (fillingsItems_own rest _)

theorem fillingsRef_own (ref : ClassRef) (walk : Walk) :
    (fillingsRef env ref walk).map Filling.own = ownRef env ref := by
  cases ref with
  | dynamic value =>
    exact fillingsExpr_own value walk
  | named | self | static | parent => rfl

theorem fillingsArms_own (arms : List MatchArm) (walk : Walk) :
    (fillingsArms env arms walk).map Filling.own = ownArms env arms := by
  cases arms with
  | nil => rfl
  | cons arm rest =>
    obtain ⟨conditions, body⟩ := arm
    exact map_own_append (map_own_append (fillingsConditionals_own conditions walk)
      (fillingsExpr_own body _)) (fillingsArms_own rest _)

theorem fillingsProbe_own (value : Expr) (walk : Walk) :
    (fillingsProbe env value walk).map Filling.own = ownExpr env value := by
  obtain ⟨kind, span⟩ := value
  have read := fillingsKind_own span kind walk
  cases kind with
  | paren inner =>
    exact fillingsProbe_own inner walk
  | element base index =>
    exact map_own_append (fillingsProbe_own base walk) (fillingsOptional_own index _)
  | property object _ _ =>
    exact fillingsProbe_own object walk
  | _ => exact read

theorem fillingsProbes_own (values : List Expr) (walk : Walk) :
    (fillingsProbes env values walk).map Filling.own = ownExprs env values := by
  cases values with
  | nil => rfl
  | cons value rest =>
    exact map_own_append (fillingsProbe_own value walk) (fillingsProbes_own rest _)

theorem fillingsAssign_own (mode : AssignMode) (types : TypeSet) (target : Expr) (walk : Walk) :
    (fillingsAssign env mode types target walk).map Filling.own = ownExpr env target := by
  obtain ⟨kind, span⟩ := target
  have read := fillingsKind_own span kind walk
  cases kind with
  | paren inner =>
    exact fillingsAssign_own mode types inner walk
  | element base index =>
    exact map_own_append (fillingsStore_own types base.span base _) (fillingsOptional_own index _)
  | list items | array items =>
    exact fillingsPattern_own types 0 items walk
  | property object name nullsafe =>
    exact fillingsExpr_own object _
  | staticProperty ref name =>
    exact fillingsRef_own ref _
  | _ => exact read

theorem fillingsPattern_own (types : TypeSet) (position : Nat) (items : List Item) (walk : Walk) :
    (fillingsPattern env types position items walk).map Filling.own = ownItems env items := by
  cases items with
  | nil => rfl
  | cons item rest =>
    cases item with
    | skip =>
      exact fillingsPattern_own types position rest walk
    | entry key value byRef unpack =>
      exact map_own_append (map_own_append (fillingsOptional_own key walk)
        (fillingsAssign_own .plain _ value _)) (fillingsPattern_own types (position + 1) rest _)

theorem fillingsStore_own (types : TypeSet) (outer : Span) (base : Expr) (walk : Walk) :
    (fillingsStore env types outer base walk).map Filling.own = ownExpr env base := by
  obtain ⟨kind, span⟩ := base
  have read := fillingsKind_own span kind
  cases kind with
  | paren inner =>
    exact fillingsStore_own types outer inner walk
  | element base index =>
    exact map_own_append (fillingsStore_own types.inArray base.span base _)
      (fillingsOptional_own index _)
  | property | staticProperty => exact read walk.impure
  | _ => exact read walk

theorem fillingsShared_own (value : Expr) (walk : Walk) :
    (fillingsShared env value walk).map Filling.own = ownExpr env value := by
  obtain ⟨kind, span⟩ := value
  have read := fillingsKind_own span kind walk
  cases kind with
  | paren inner =>
    exact fillingsShared_own inner walk
  | _ => exact read

theorem fillingsArgs_own (params : Option (List ParamInfo)) (position : Nat) (args : List Arg)
    (walk : Walk) :
    (fillingsArgs env params position args walk).map Filling.own = ownArgs env args := by
  cases args with
  | nil => rfl
  | cons arg rest =>
    obtain ⟨value, unpack, label⟩ := arg
    rw [fillingsArgs_cons]
    cases refParam? params position with
    | some param =>
      exact map_own_append (fillingsPassed_own param value.span value walk)
        (fillingsArgs_own params (position + 1) rest _)
    | none =>
      exact map_own_append (fillingsExpr_own value walk)
        (fillingsArgs_own params (position + 1) rest _)

theorem fillingsPassed_own (param : ParamInfo) (outer : Span) (value : Expr) (walk : Walk) :
    (fillingsPassed env param outer value walk).map Filling.own = ownExpr env value := by
  obtain ⟨kind, span⟩ := value
  have read := fillingsKind_own span kind walk
  cases kind with
  | paren inner =>
    exact fillingsPassed_own param outer inner walk
  | element base index =>
    exact map_own_append (fillingsStore_own .mixed base.span base _) (fillingsOptional_own index _)
  | _ => exact read

theorem fillingsCompactArgs_own (args : List Arg) (walk : Walk) :
    (fillingsCompactArgs env args walk).map Filling.own = ownCompactArgs env args := by
  cases args with
  | nil => rfl
  | cons arg rest =>
    obtain ⟨value, unpack, label⟩ := arg
    exact map_own_append (fillingsCompact_own value.span value walk) (fillingsCompactArgs_own rest _)

theorem fillingsCompact_own (outer : Span) (value : Expr) (walk : Walk) :
    (fillingsCompact env outer value walk).map Filling.own = ownCompact env value := by
  obtain ⟨kind, span⟩ := value
  have read := fillingsKind_own span kind walk
  cases kind with
  | paren inner => exact fillingsCompact_own outer inner walk
  | array items => exact fillingsCompactItems_own items walk
  | _ => exact read

theorem fillingsCompactItems_own (items : List Item) (walk : Walk) :
    (fillingsCompactItems env items walk).map Filling.own = ownCompactItems env items := by
  cases items with
  | nil => rfl
  | cons item rest =>
    cases item with
    | skip =>
      exact fillingsCompactItems_own rest walk
    | entry key value byRef unpack =>
      exact map_own_append (fillingsCompact_own value.span value walk)
        (fillingsCompactItems_own rest _)

theorem fillingsTest_own (negated inLogic : Bool) (test : Expr) (guard : Guard) :
    (fillingsTest env negated inLogic test guard).map Filling.own = ownExpr env test := by
  obtain ⟨kind, span⟩ := test
  have read := fillingsKind_own span kind guard.walk
  cases kind with
  | paren inner =>
    exact fillingsTest_own negated inLogic inner guard
  | binary op left right =>
    cases op with
    | and | or =>
      exact map_own_append (fillingsTest_own negated true left guard)
        (fillingsTest_own negated true right _)
    | _ => exact read
  | unary op operand =>
    cases op with
    | not =>
      exact fillingsTest_own (!negated) inLogic operand _
    | _ => exact read
  | isset values =>
    exact fillingsProbes_own values _
  | instanceOf subject ref =>
    exact map_own_append (fillingsExpr_own subject guard.walk) (fillingsRef_own ref _)
  | _ => exact read

end

/-! ### Statements -/

/--
A walk meets a list of assignments. It may meet some twice: the bodies of the cases of a `switch` are
walked once more for the cases that fall through to them.
-/
def Meets (fillings : List Filling) (owns : List Own) : Prop :=
  owns ⊆ fillings.map Filling.own

namespace Meets

variable {first second : List Filling} {left right : List Own}

theorem of_eq (same : first.map Filling.own = left) : Meets first left :=
  same ▸ List.Subset.refl _

/-- A walk may meet more. -/
theorem more (inFirst : Meets first left) : Meets (first ++ second) left := by
  unfold Meets
  rw [List.map_append]
  exact List.subset_append_of_subset_left _ inFirst

theorem append (inFirst : Meets first left) (inSecond : Meets second right) :
    Meets (first ++ second) (left ++ right) := by
  unfold Meets
  rw [List.map_append]
  exact List.append_subset.mpr ⟨List.subset_append_of_subset_left _ inFirst,
    List.subset_append_of_subset_right _ inSecond⟩

end Meets

theorem fillingsStatics_meets (bindings : List Binding) (walk : Walk) :
    Meets (fillingsStatics env bindings walk)
      (bindings.flatMap fun binding => ownOptional env binding.value) := by
  induction bindings generalizing walk with
  | nil => exact List.nil_subset _
  | cons binding rest inductionHypothesis =>
    obtain ⟨name, value, span⟩ := binding
    rw [fillingsStatics, List.flatMap_cons]
    exact (Meets.of_eq (fillingsOptional_own env value walk)).append (inductionHypothesis _)

theorem fillingsConstItems_meets (items : List ConstItem) (walk : Walk) :
    Meets (fillingsConstItems env items walk) (items.flatMap fun item => ownExpr env item.value) := by
  induction items generalizing walk with
  | nil => exact List.nil_subset _
  | cons item rest inductionHypothesis =>
    obtain ⟨name, value, span⟩ := item
    rw [fillingsConstItems, List.flatMap_cons]
    exact (Meets.of_eq (fillingsExpr_own env value walk)).append (inductionHypothesis _)

theorem fillingsKey_own (key : Option Expr) (walk : Walk) :
    (fillingsKey env key walk).map Filling.own = ownOptional env key := by
  cases key with
  | none => rfl
  | some key =>
    exact fillingsAssign_own env _ keyTypes key walk

mutual

/-- The walk over statements meets what they assign to properties of `$this`. -/
theorem fillingsStmts_meets (stmts : List Stmt) (walk : Walk) :
    Meets (fillingsStmts env stmts walk) (ownStmts env stmts) := by
  cases stmts with
  | nil => exact List.nil_subset _
  | cons stmt rest =>
    exact (fillingsStmt_meets stmt walk).append (fillingsStmts_meets rest _)

theorem fillingsStmt_meets (stmt : Stmt) (walk : Walk) :
    Meets (fillingsStmt env stmt walk) (ownStmt env stmt) := by
  obtain ⟨kind, span⟩ := stmt
  rw [fillingsStmt]
  generalize walk.checkDeadCode env ⟨kind, span⟩ = walk
  cases kind
  case expr value => exact .of_eq (fillingsExpr_own env value walk)
  case echo values => exact .of_eq (fillingsExprs_own env values _)
  case returns value => exact .of_eq (fillingsOptional_own env value walk)
  case block body => exact fillingsStmts_meets body walk
  case branch test body span rest =>
    exact ((Meets.of_eq (fillingsTest_own env false false test _)).append
      (fillingsStmts_meets body _)).append (fillingsOtherwise_meets _ rest _)
  case whileLoop test body =>
    exact (Meets.of_eq (fillingsExpr_own env test walk)).append (fillingsStmts_meets body _)
  case doWhile body test =>
    exact (fillingsStmts_meets body _).append (.of_eq (fillingsExpr_own env test _))
  case forLoop init test step body =>
    refine Meets.append (.of_eq ?_) (fillingsStmts_meets body _)
    exact map_own_append (map_own_append (fillingsExprs_own env init walk)
      (fillingsExprs_own env test _)) (fillingsExprs_own env step _)
  case «foreach» subject key value byRef body =>
    refine Meets.append (.of_eq ?_) (fillingsStmts_meets body _)
    exact map_own_append (map_own_append (fillingsExpr_own env subject walk)
      (fillingsAssign_own env (.iteration value.span) _ value _)) (fillingsKey_own env key _)
  case switch subject cases =>
    exact (Meets.of_eq (fillingsExpr_own env subject walk)).append (fillingsCases_meets cases _)
  case tryCatch body catches final span =>
    refine ((fillingsStmts_meets body _).append (fillingsCatches_meets _ catches _)).append ?_
    cases final with
    | none => exact List.nil_subset _
    | some last => exact fillingsStmts_meets last _
  case static bindings => exact fillingsStatics_meets env bindings _
  case constants items => exact fillingsConstItems_meets env items walk
  all_goals exact List.nil_subset _

theorem fillingsOtherwise_meets (initial : Scope) (rest : Otherwise) (chain : Chain) :
    Meets (fillingsOtherwise env initial rest chain) (ownOtherwise env rest) := by
  cases rest with
  | nothing => exact List.nil_subset _
  | orElse body =>
    exact fillingsStmts_meets body _
  | orIf test body span rest =>
    exact ((Meets.of_eq (fillingsTest_own env false false test _)).append
      (fillingsStmts_meets body _)).append (fillingsOtherwise_meets initial rest _)

theorem fillingsCases_meets (list : List Case) (cases : Cases) :
    Meets (fillingsCases env list cases) (ownCases env list) := by
  cases list with
  | nil => exact List.nil_subset _
  | cons first rest =>
    obtain ⟨test, body, span, gap⟩ := first
    rw [fillingsCases, ownCases, List.append_assoc]
    refine (Meets.of_eq (fillingsOptional_own env test cases.walk)).append ?_
    split
    · next empty =>
      rw [List.isEmpty_iff.mp empty]
      exact fillingsCases_meets rest _
    · exact (fillingsStmts_meets body _).more.append (fillingsCases_meets rest _)

theorem fillingsCatches_meets (thrown : Block) (list : List Catch) (catches : Catches) :
    Meets (fillingsCatches env thrown list catches) (ownCatches env list) := by
  cases list with
  | nil => exact List.nil_subset _
  | cons first rest =>
    obtain ⟨types, name, body, span⟩ := first
    exact (fillingsStmts_meets body _).append (fillingsCatches_meets thrown rest _)

end

end

end Flow

end PhpAudit
