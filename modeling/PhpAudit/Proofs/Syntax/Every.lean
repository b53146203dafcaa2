/-
This file asks a question of every node of a syntax tree, so that fragments of the language can be
described by what they allow at a single node. Bodies of nested functions are code of their own and
are not asked about. For statements the question also says whether a loop is around the node.
-/

import PhpAudit.Syntax.Tree

namespace PhpAudit

/-! ### Expressions -/

section

variable (accepts : ExprKind → Bool)

mutual

/-- Whether every node of an expression is accepted. -/
def everyExpr : Expr → Bool
  | ⟨kind, _⟩ => accepts kind && everyOperand kind

/-- Whether every node below an expression is accepted. -/
def everyOperand : ExprKind → Bool
  | .paren inner | .clone inner | .includeFile inner | .yieldFrom inner | .unary _ inner
  | .property inner _ _ | .isEmpty inner | .throw inner => everyExpr inner
  | .array items | .list items => everyItem items
  | .element base index => everyExpr base && everyOptional index
  | .assign target value _ _ => everyExpr target && everyExpr value
  | .binary _ left right => everyExpr left && everyExpr right
  | .instanceOf subject ref => everyExpr subject && everyRef ref
  | .ternary test yes no => everyExpr test && everyOptional yes && everyExpr no
  | .call _ args => everyArg args
  | .callValue function args => everyExpr function && everyArg args
  | .methodCall object _ args _ => everyExpr object && everyArg args
  | .staticCall ref _ args | .new ref args => everyRef ref && everyArg args
  | .staticProperty ref _ | .classConstant ref _ => everyRef ref
  | .isset values => everyIn values
  | .matchOn subject arms => everyExpr subject && everyArm arms
  | .yield key value => everyOptional key && everyOptional value
  | .var _ | .dynamicVar _ | .integer | .float | .string _ | .interpolated _ | .boolean _ | .null
  | .magic _ | .constant _ | .exit _ _ | .print _ | .closure .. | .arrow .. | .unmodeled _ => true

def everyIn : List Expr → Bool
  | [] => true
  | value :: rest => everyExpr value && everyIn rest

def everyOptional : Option Expr → Bool
  | none => true
  | some value => everyExpr value

def everyItem : List Item → Bool
  | [] => true
  | .skip :: rest => everyItem rest
  | .entry key value _ _ :: rest => everyOptional key && everyExpr value && everyItem rest

def everyArg : List Arg → Bool
  | [] => true
  | ⟨value, _, _⟩ :: rest => everyExpr value && everyArg rest

def everyRef : ClassRef → Bool
  | .dynamic value => everyExpr value
  | .named _ | .self | .static | .parent => true

def everyArm : List MatchArm → Bool
  | [] => true
  | ⟨conditions, body⟩ :: rest => everyIn conditions && everyExpr body && everyArm rest

end

end

/-! ### Statements -/

section

variable (value : Expr → Bool) (accepts : Bool → StmtKind → Bool)

def everyBinding : List Binding → Bool
  | [] => true
  | ⟨_, initial, _⟩ :: rest => initial.all value && everyBinding rest

def everyConst : List ConstItem → Bool
  | [] => true
  | ⟨_, inner, _⟩ :: rest => value inner && everyConst rest

mutual

/-- Whether every statement of a list, at any depth, is accepted with its expressions. -/
def everyStmt (inLoop : Bool) : List Stmt → Bool
  | [] => true
  | ⟨kind, _⟩ :: rest => accepts inLoop kind && everyPart inLoop kind && everyStmt inLoop rest

/-- Whether the expressions of a statement and the statements below it are accepted. -/
def everyPart (inLoop : Bool) : StmtKind → Bool
  | .expr inner => value inner
  | .echo values => values.all value
  | .returns result => result.all value
  | .block body => everyStmt inLoop body
  | .branch test body _ rest => value test && everyStmt inLoop body && everyOtherwise inLoop rest
  | .whileLoop test body => value test && everyStmt true body
  | .doWhile body test => everyStmt true body && value test
  | .forLoop init test step body =>
    init.all value && test.all value && step.all value && everyStmt true body
  | .foreach subject key target _ body =>
    value subject && key.all value && value target && everyStmt true body
  | .switch subject cases => value subject && everyCase cases
  | .tryCatch body catches final _ =>
    everyStmt inLoop body && everyCatch inLoop catches && everyFinal inLoop final
  | .static bindings => everyBinding value bindings
  | .constants items => everyConst value items
  | .breaks | .continues | .global _ | .unset _ | .namespaced _ _ | .imports _ | .function _
  | .classLike _ | .nop => true

def everyOtherwise (inLoop : Bool) : Otherwise → Bool
  | .nothing => true
  | .orElse body => everyStmt inLoop body
  | .orIf test body _ rest => value test && everyStmt inLoop body && everyOtherwise inLoop rest

def everyCase : List Case → Bool
  | [] => true
  | ⟨test, body, _, _⟩ :: rest => test.all value && everyStmt true body && everyCase rest

def everyCatch (inLoop : Bool) : List Catch → Bool
  | [] => true
  | ⟨_, _, body, _⟩ :: rest => everyStmt inLoop body && everyCatch inLoop rest

def everyFinal (inLoop : Bool) : Option (List Stmt) → Bool
  | none => true
  | some last => everyStmt inLoop last

end

end

/-! ### Larger fragments -/

-- the hypotheses are used by the theorems of a mutual block together, not by each of them
set_option linter.unusedSectionVars false

section

variable {Rule : Type} {accepts : Rule → ExprKind → Bool} {wider : ExprKind → Bool}
  (weaker : ∀ kind, (∀ rule, accepts rule kind = true) →
    (∀ rule, everyOperand (accepts rule) kind = true) → wider kind = true)

include weaker

mutual

/-- An expression that belongs to some fragments belongs to every fragment that holds what they have in
common; a node is compared together with what is below it. -/
theorem everyExpr_of_forall (expr : Expr) (every : ∀ rule, everyExpr (accepts rule) expr = true) :
    everyExpr wider expr = true := by
  obtain ⟨kind, span⟩ := expr
  simp only [everyExpr, Bool.and_eq_true, forall_and] at *
  exact ⟨weaker kind every.1 every.2, everyOperand_of_forall kind every.2⟩

theorem everyOperand_of_forall (kind : ExprKind)
    (every : ∀ rule, everyOperand (accepts rule) kind = true) : everyOperand wider kind = true := by
  cases kind <;> simp only [everyOperand, Bool.and_eq_true, forall_and] at *
  case paren inner | clone inner | includeFile inner | yieldFrom inner | unary inner
    | property inner _ _ | isEmpty inner | throw inner => exact everyExpr_of_forall inner every
  case array items | list items => exact everyItem_of_forall items every
  case element base index =>
    exact ⟨everyExpr_of_forall base every.1, everyOptional_of_forall index every.2⟩
  case assign target value _ _ =>
    exact ⟨everyExpr_of_forall target every.1, everyExpr_of_forall value every.2⟩
  case binary left right =>
    exact ⟨everyExpr_of_forall left every.1, everyExpr_of_forall right every.2⟩
  case instanceOf subject ref =>
    exact ⟨everyExpr_of_forall subject every.1, everyRef_of_forall ref every.2⟩
  case ternary test yes no =>
    exact ⟨⟨everyExpr_of_forall test every.1.1, everyOptional_of_forall yes every.1.2⟩,
      everyExpr_of_forall no every.2⟩
  case call args => exact everyArg_of_forall args every
  case callValue function args =>
    exact ⟨everyExpr_of_forall function every.1, everyArg_of_forall args every.2⟩
  case methodCall object _ args _ =>
    exact ⟨everyExpr_of_forall object every.1, everyArg_of_forall args every.2⟩
  case staticCall ref _ args | new ref args =>
    exact ⟨everyRef_of_forall ref every.1, everyArg_of_forall args every.2⟩
  case staticProperty ref _ | classConstant ref _ => exact everyRef_of_forall ref every
  case isset values => exact everyIn_of_forall values every
  case matchOn subject arms =>
    exact ⟨everyExpr_of_forall subject every.1, everyArm_of_forall arms every.2⟩
  case yield key value =>
    exact ⟨everyOptional_of_forall key every.1, everyOptional_of_forall value every.2⟩

theorem everyIn_of_forall (values : List Expr)
    (every : ∀ rule, everyIn (accepts rule) values = true) : everyIn wider values = true := by
  cases values with
  | nil => rfl
  | cons value rest =>
    simp only [everyIn, Bool.and_eq_true, forall_and] at *
    exact ⟨everyExpr_of_forall value every.1, everyIn_of_forall rest every.2⟩

theorem everyOptional_of_forall (value : Option Expr)
    (every : ∀ rule, everyOptional (accepts rule) value = true) :
    everyOptional wider value = true := by
  cases value with
  | none => rfl
  | some value => exact everyExpr_of_forall value every

theorem everyItem_of_forall (items : List Item)
    (every : ∀ rule, everyItem (accepts rule) items = true) : everyItem wider items = true := by
  cases items with
  | nil => rfl
  | cons item rest =>
    cases item with
    | skip => exact everyItem_of_forall rest every
    | entry key value _ _ =>
      simp only [everyItem, Bool.and_eq_true, forall_and] at *
      exact ⟨⟨everyOptional_of_forall key every.1.1, everyExpr_of_forall value every.1.2⟩,
        everyItem_of_forall rest every.2⟩

theorem everyArg_of_forall (args : List Arg)
    (every : ∀ rule, everyArg (accepts rule) args = true) : everyArg wider args = true := by
  cases args with
  | nil => rfl
  | cons arg rest =>
    obtain ⟨value, _, _⟩ := arg
    simp only [everyArg, Bool.and_eq_true, forall_and] at *
    exact ⟨everyExpr_of_forall value every.1, everyArg_of_forall rest every.2⟩

theorem everyRef_of_forall (ref : ClassRef)
    (every : ∀ rule, everyRef (accepts rule) ref = true) : everyRef wider ref = true := by
  cases ref with
  | dynamic value => exact everyExpr_of_forall value every
  | named | self | static | parent => rfl

theorem everyArm_of_forall (arms : List MatchArm)
    (every : ∀ rule, everyArm (accepts rule) arms = true) : everyArm wider arms = true := by
  cases arms with
  | nil => rfl
  | cons arm rest =>
    obtain ⟨conditions, body⟩ := arm
    simp only [everyArm, Bool.and_eq_true, forall_and] at *
    exact ⟨⟨everyIn_of_forall conditions every.1.1, everyExpr_of_forall body every.1.2⟩,
      everyArm_of_forall rest every.2⟩

end

end

section

variable {accepts wider : ExprKind → Bool}
  (weaker : ∀ kind, accepts kind = true → everyOperand accepts kind = true → wider kind = true)

include weaker

/-- An expression of a fragment is one of every larger fragment. -/
theorem everyExpr_widen (expr : Expr) (every : everyExpr accepts expr = true) :
    everyExpr wider expr = true :=
  everyExpr_of_forall (fun kind own operands => weaker kind (own ()) (operands ())) expr
    fun _ : Unit => every

theorem everyIn_widen (values : List Expr) (every : everyIn accepts values = true) :
    everyIn wider values = true :=
  everyIn_of_forall (fun kind own operands => weaker kind (own ()) (operands ())) values
    fun _ : Unit => every

end

/-- The same if every node is accepted on its own. -/
theorem everyExpr_mono {accepts wider : ExprKind → Bool}
    (weaker : ∀ kind, accepts kind = true → wider kind = true) (expr : Expr)
    (every : everyExpr accepts expr = true) : everyExpr wider expr = true :=
  everyExpr_widen (fun kind own _ => weaker kind own) expr every

section

variable {Rule : Type} {value : Rule → Expr → Bool} {wider : Expr → Bool}
  {accepts : Rule → Bool → StmtKind → Bool} {others : Bool → StmtKind → Bool}
  (weakerValue : ∀ expr, (∀ rule, value rule expr = true) → wider expr = true)
  (weaker : ∀ inLoop kind, (∀ rule, accepts rule inLoop kind = true) → others inLoop kind = true)

include weakerValue

theorem all_of_forall {values : List Expr} (every : ∀ rule, values.all (value rule) = true) :
    values.all wider = true := by
  simp only [List.all_eq_true] at *
  exact fun expr member => weakerValue expr fun rule => every rule expr member

theorem option_all_of_forall {expr : Option Expr} (every : ∀ rule, expr.all (value rule) = true) :
    expr.all wider = true := by
  cases expr with
  | none => rfl
  | some expr => exact weakerValue expr every

theorem everyBinding_of_forall (bindings : List Binding)
    (every : ∀ rule, everyBinding (value rule) bindings = true) :
    everyBinding wider bindings = true := by
  induction bindings with
  | nil => rfl
  | cons binding rest inductionHypothesis =>
    obtain ⟨_, initial, _⟩ := binding
    simp only [everyBinding, Bool.and_eq_true, forall_and] at *
    exact ⟨option_all_of_forall weakerValue every.1, inductionHypothesis every.2⟩

theorem everyConst_of_forall (items : List ConstItem)
    (every : ∀ rule, everyConst (value rule) items = true) : everyConst wider items = true := by
  induction items with
  | nil => rfl
  | cons item rest inductionHypothesis =>
    obtain ⟨_, inner, _⟩ := item
    simp only [everyConst, Bool.and_eq_true, forall_and] at *
    exact ⟨weakerValue inner every.1, inductionHypothesis every.2⟩

include weaker

mutual

/-- Statements that belong to some fragments belong to every fragment that holds what they have in
common. -/
theorem everyStmt_of_forall (inLoop : Bool) (body : List Stmt)
    (every : ∀ rule, everyStmt (value rule) (accepts rule) inLoop body = true) :
    everyStmt wider others inLoop body = true := by
  cases body with
  | nil => rfl
  | cons stmt rest =>
    obtain ⟨kind, _⟩ := stmt
    simp only [everyStmt, Bool.and_eq_true, forall_and] at *
    exact ⟨⟨weaker inLoop kind every.1.1, everyPart_of_forall inLoop kind every.1.2⟩,
      everyStmt_of_forall inLoop rest every.2⟩

theorem everyPart_of_forall (inLoop : Bool) (kind : StmtKind)
    (every : ∀ rule, everyPart (value rule) (accepts rule) inLoop kind = true) :
    everyPart wider others inLoop kind = true := by
  cases kind <;> simp only [everyPart, Bool.and_eq_true, forall_and] at *
  case expr inner => exact weakerValue inner every
  case echo values => exact all_of_forall weakerValue every
  case returns result => exact option_all_of_forall weakerValue every
  case block body => exact everyStmt_of_forall inLoop body every
  case branch test body _ rest =>
    exact ⟨⟨weakerValue test every.1.1, everyStmt_of_forall inLoop body every.1.2⟩,
      everyOtherwise_of_forall inLoop rest every.2⟩
  case whileLoop test body =>
    exact ⟨weakerValue test every.1, everyStmt_of_forall true body every.2⟩
  case doWhile body test => exact ⟨everyStmt_of_forall true body every.1, weakerValue test every.2⟩
  case forLoop init test step body =>
    exact ⟨⟨⟨all_of_forall weakerValue every.1.1.1, all_of_forall weakerValue every.1.1.2⟩,
      all_of_forall weakerValue every.1.2⟩, everyStmt_of_forall true body every.2⟩
  case foreach subject key target _ body =>
    exact ⟨⟨⟨weakerValue subject every.1.1.1, option_all_of_forall weakerValue every.1.1.2⟩,
      weakerValue target every.1.2⟩, everyStmt_of_forall true body every.2⟩
  case switch subject cases => exact ⟨weakerValue subject every.1, everyCase_of_forall cases every.2⟩
  case tryCatch body catches final _ =>
    exact ⟨⟨everyStmt_of_forall inLoop body every.1.1, everyCatch_of_forall inLoop catches every.1.2⟩,
      everyFinal_of_forall inLoop final every.2⟩
  case static bindings => exact everyBinding_of_forall weakerValue bindings every
  case constants items => exact everyConst_of_forall weakerValue items every

theorem everyOtherwise_of_forall (inLoop : Bool) (rest : Otherwise)
    (every : ∀ rule, everyOtherwise (value rule) (accepts rule) inLoop rest = true) :
    everyOtherwise wider others inLoop rest = true := by
  cases rest with
  | nothing => rfl
  | orElse body => exact everyStmt_of_forall inLoop body every
  | orIf test body _ rest =>
    simp only [everyOtherwise, Bool.and_eq_true, forall_and] at *
    exact ⟨⟨weakerValue test every.1.1, everyStmt_of_forall inLoop body every.1.2⟩,
      everyOtherwise_of_forall inLoop rest every.2⟩

theorem everyCase_of_forall (cases : List Case)
    (every : ∀ rule, everyCase (value rule) (accepts rule) cases = true) :
    everyCase wider others cases = true := by
  cases cases with
  | nil => rfl
  | cons case rest =>
    obtain ⟨test, body, _, _⟩ := case
    simp only [everyCase, Bool.and_eq_true, forall_and] at *
    exact ⟨⟨option_all_of_forall weakerValue every.1.1, everyStmt_of_forall true body every.1.2⟩,
      everyCase_of_forall rest every.2⟩

theorem everyCatch_of_forall (inLoop : Bool) (catches : List Catch)
    (every : ∀ rule, everyCatch (value rule) (accepts rule) inLoop catches = true) :
    everyCatch wider others inLoop catches = true := by
  cases catches with
  | nil => rfl
  | cons clause rest =>
    obtain ⟨_, _, body, _⟩ := clause
    simp only [everyCatch, Bool.and_eq_true, forall_and] at *
    exact ⟨everyStmt_of_forall inLoop body every.1, everyCatch_of_forall inLoop rest every.2⟩

theorem everyFinal_of_forall (inLoop : Bool) (final : Option (List Stmt))
    (every : ∀ rule, everyFinal (value rule) (accepts rule) inLoop final = true) :
    everyFinal wider others inLoop final = true := by
  cases final with
  | none => rfl
  | some last => exact everyStmt_of_forall inLoop last every

end

end

section

variable {value wider : Expr → Bool} {accepts others : Bool → StmtKind → Bool}
  (weakerValue : ∀ expr, value expr = true → wider expr = true)
  (weaker : ∀ inLoop kind, accepts inLoop kind = true → others inLoop kind = true)

include weakerValue

theorem all_mono {values : List Expr} (every : values.all value = true) :
    values.all wider = true :=
  all_of_forall (fun expr own => weakerValue expr (own ())) fun _ : Unit => every

include weaker

/-- Statements of a fragment are statements of every larger fragment. -/
theorem everyStmt_mono (inLoop : Bool) (body : List Stmt)
    (every : everyStmt value accepts inLoop body = true) :
    everyStmt wider others inLoop body = true :=
  everyStmt_of_forall (fun expr own => weakerValue expr (own ()))
    (fun inLoop kind own => weaker inLoop kind (own ())) inLoop body fun _ : Unit => every

theorem everyCase_mono (cases : List Case) (every : everyCase value accepts cases = true) :
    everyCase wider others cases = true :=
  everyCase_of_forall (fun expr own => weakerValue expr (own ()))
    (fun inLoop kind own => weaker inLoop kind (own ())) cases fun _ : Unit => every

theorem everyCatch_mono (inLoop : Bool) (catches : List Catch)
    (every : everyCatch value accepts inLoop catches = true) :
    everyCatch wider others inLoop catches = true :=
  everyCatch_of_forall (fun expr own => weakerValue expr (own ()))
    (fun inLoop kind own => weaker inLoop kind (own ())) inLoop catches fun _ : Unit => every

end

end PhpAudit
