/-
This file is about visitors that only look at statements. What they note at an expression, and below it,
does not show in what they are asked for in the end.
-/

import PhpAudit.Syntax.Traversal

namespace PhpAudit

-- the hypotheses are used by the theorems of a mutual block together, not by each of them
set_option linter.unusedSectionVars false

namespace Visitor

section

variable {State View : Type} {visitor : Visitor State} {view : State → View}
  (blind : ∀ expr state, view (visitor.onExpr expr state).1 = view state)
  (outside : visitor.entersScopes = false)

include blind outside

mutual

/-- A visitor that notes nothing at expressions notes nothing below them either. -/
theorem view_expr (value : Expr) (state : State) : view (visitor.expr value state) = view state := by
  obtain ⟨kind, span⟩ := value
  have own := blind ⟨kind, span⟩ state
  rw [expr]
  split
  · next noted found => rw [← own, found]
  · next noted found =>
    rw [view_children kind noted, ← own, found]

theorem view_children (kind : ExprKind) (state : State) :
    view (visitor.children kind state) = view state := by
  cases kind
  case paren inner | isEmpty inner | includeFile inner | throw inner | clone inner
    | yieldFrom inner | unary inner | property inner _ _ => exact view_expr inner state
  case array slots | list slots => exact view_items slots state
  case element base index => exact (view_optional index _).trans (view_expr base state)
  case assign target value _ _ => exact (view_expr value _).trans (view_expr target state)
  case binary left right => exact (view_expr right _).trans (view_expr left state)
  case instanceOf subject ref => exact (view_classRef ref _).trans (view_expr subject state)
  case ternary test yes no =>
    exact (view_expr no _).trans ((view_optional yes _).trans (view_expr test state))
  case call list => exact view_args list state
  case callValue callee list => exact (view_args list _).trans (view_expr callee state)
  case methodCall object _ list _ => exact (view_args list _).trans (view_expr object state)
  case staticCall ref _ list | new ref list =>
    exact (view_args list _).trans (view_classRef ref state)
  case staticProperty ref _ | classConstant ref _ => exact view_classRef ref state
  case isset values => exact view_exprs values state
  case closure _ _ _ _ body =>
    show view (if visitor.entersScopes then visitor.stmts body state else state) = _
    rw [outside]
    rfl
  case arrow _ _ _ body =>
    show view (if visitor.entersScopes then visitor.expr body state else state) = _
    rw [outside]
    rfl
  case matchOn subject list => exact (view_arms list _).trans (view_expr subject state)
  case yield key value => exact (view_optional value _).trans (view_optional key state)
  all_goals rfl

theorem view_optional (value : Option Expr) (state : State) :
    view (visitor.optional value state) = view state := by
  cases value with
  | none => rfl
  | some value => exact view_expr value state

theorem view_exprs (values : List Expr) (state : State) :
    view (visitor.exprs values state) = view state := by
  cases values with
  | nil => rfl
  | cons value rest => exact (view_exprs rest _).trans (view_expr value state)

theorem view_items (slots : List Item) (state : State) :
    view (visitor.items slots state) = view state := by
  cases slots with
  | nil => rfl
  | cons slot rest =>
    cases slot with
    | skip => exact view_items rest state
    | entry key value _ _ =>
      exact (view_items rest _).trans ((view_expr value _).trans (view_optional key state))

theorem view_args (list : List Arg) (state : State) :
    view (visitor.args list state) = view state := by
  cases list with
  | nil => rfl
  | cons arg rest =>
    obtain ⟨value, _, _⟩ := arg
    exact (view_args rest _).trans (view_expr value state)

theorem view_arms (list : List MatchArm) (state : State) :
    view (visitor.arms list state) = view state := by
  cases list with
  | nil => rfl
  | cons arm rest =>
    obtain ⟨conditions, body⟩ := arm
    exact (view_arms rest _).trans ((view_expr body _).trans (view_exprs conditions state))

theorem view_classRef (ref : ClassRef) (state : State) :
    view (visitor.classRef ref state) = view state := by
  cases ref with
  | dynamic value => exact view_expr value state
  | named | self | static | parent => rfl

end

theorem view_bindings (list : List Binding) (state : State) :
    view (visitor.bindings list state) = view state := by
  induction list generalizing state with
  | nil => rfl
  | cons binding rest inductionHypothesis =>
    obtain ⟨_, value, _⟩ := binding
    exact (inductionHypothesis _).trans (view_optional blind outside value state)

theorem view_constItems (list : List ConstItem) (state : State) :
    view (visitor.constItems list state) = view state := by
  induction list generalizing state with
  | nil => rfl
  | cons item rest inductionHypothesis =>
    obtain ⟨_, value, _⟩ := item
    exact (inductionHypothesis _).trans (view_expr blind outside value state)

end

end Visitor

end PhpAudit
