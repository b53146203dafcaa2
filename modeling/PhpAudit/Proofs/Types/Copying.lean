/-
This file says where the types of variables are copied to. The local type of an expression is made of
literals, names and the types of some variables; an assignment, a `return`, a `foreach` or a `static`
binding copies these. Code is careful if nothing copies the type of a variable that a test has just
marked. The local types that careful code stores satisfy every law.
-/

import PhpAudit.Proofs.Syntax.Every
import PhpAudit.Proofs.Types.Law

namespace PhpAudit

/-! ### Variables whose types are taken over -/

mutual

/-- The variables whose types the local type of an expression is made of. -/
def told : Expr → List String
  | ⟨kind, _⟩ => toldKind kind

def toldKind : ExprKind → List String
  | .var name => [name]
  | .paren inner | .clone inner | .element inner _ | .property inner _ _
  | .methodCall inner _ _ _ => told inner
  | .assign target value op _ =>
    match op with
    | .assign => told value
    | .coalesce => told target ++ told value
    | .concat | .arithmetic | .bitwise => []
  | .binary op left right => if op == .coalesce then told left ++ told right else []
  | .unary op operand =>
    match op with
    | .not | .bitNot | .cast _ | .negate | .plus | .other => []
    | _ => told operand
  | .ternary test none no => told test ++ told no
  | .ternary _ (some yes) no => told yes ++ told no
  | .matchOn _ arms => toldArms arms
  | _ => []

def toldArms : List MatchArm → List String
  | [] => []
  | ⟨_, body⟩ :: rest => told body ++ toldArms rest

end

/-- None of the variables is among those whose types are taken over. -/
def avoids (names told : List String) : Bool :=
  told.all fun name => !names.contains name

/-- The node does not copy the type of one of the variables. -/
def copiesNone (names : List String) : ExprKind → Bool
  | .assign _ value _ true => avoids names (told value)
  | .assign target value op false => avoids names (toldKind (.assign target value op false))
  | _ => true

/-- The statement itself does not copy the type of one of the variables. -/
def copiesNoneStmt (names : List String) : StmtKind → Bool
  | .returns (some value) | .foreach value _ _ _ _ => avoids names (told value)
  | .static bindings => bindings.all fun binding =>
    binding.value.all fun value => avoids names (told value)
  | _ => true

/-! ### Variables that tests mark -/

/-- The variable that `!empty` of the operand asks for. -/
def askedNotEmpty (negated : Bool) (operand : Expr) : List String :=
  match operand.unparen.kind with
  | .isEmpty inner => if negated then [] else inner.rootName?.toList
  | _ => []

/-- The variables that a test marks in its true outcome if they are not defined. -/
def asked (negated : Bool) : Expr → List String
  | ⟨.paren inner, _⟩ => asked negated inner
  | ⟨.binary .and left right, _⟩ | ⟨.binary .or left right, _⟩ =>
    asked negated left ++ asked negated right
  | ⟨.unary .not operand, _⟩ => askedNotEmpty negated operand ++ asked (!negated) operand
  | ⟨.isset values, _⟩ => if negated then [] else values.filterMap Expr.rootName?
  | _ => []

/-- Those that it may mark if some variables are sure to be defined. -/
def mayMark (sure : List String) (test : Expr) : List String :=
  (asked false test).filter fun name => !sure.contains name

/-- What a test may mark is copied neither by the test nor by its true outcome; and casts do not name
markers. -/
def confines (sure : List String) : ExprKind → Bool
  | .unary (.cast target) _ => !TypeName.isMarker target
  | .ternary test (some yes) _ =>
    everyExpr (copiesNone (mayMark sure test)) test && everyExpr (copiesNone (mayMark sure test)) yes
  | _ => true

def confinesBranch (sure : List String) (inLoop : Bool) (test : Expr) (body : List Stmt) : Bool :=
  everyExpr (copiesNone (mayMark sure test)) test &&
    everyStmt (everyExpr (copiesNone (mayMark sure test)))
      (fun _ => copiesNoneStmt (mayMark sure test)) inLoop body

def confinesOtherwise (sure : List String) (inLoop : Bool) : Otherwise → Bool
  | .nothing | .orElse _ => true
  | .orIf test body _ rest =>
    confinesBranch sure inLoop test body && confinesOtherwise sure inLoop rest

def confinesStmt (sure : List String) (inLoop : Bool) : StmtKind → Bool
  | .branch test body _ rest =>
    confinesBranch sure inLoop test body && confinesOtherwise sure inLoop rest
  | _ => true

/-- The statement itself unsets none of the variables. -/
def unsetsNone (sure : List String) : StmtKind → Bool
  | .unset names => avoids sure names
  | _ => true

/-! ### Careful code -/

/-- What is asked of a node where the variables `names` may have their markers for types, by a law that
makes an exception of markers. -/
def careful (lenient : Bool) (sure names : List String) (kind : ExprKind) : Bool :=
  lenient || (confines sure kind && copiesNone names kind)

def carefulStmt (lenient : Bool) (sure names : List String) (inLoop : Bool) (kind : StmtKind) :
    Bool :=
  unsetsNone sure kind && (lenient || (confinesStmt sure inLoop kind && copiesNoneStmt names kind))

section

variable {lenient : Bool} {sure names more : List String}

theorem avoids_append (told : List String) :
    avoids (names ++ more) told = (avoids names told && avoids more told) := by
  unfold avoids
  induction told with
  | nil => rfl
  | cons name rest inductionHypothesis =>
    rw [List.all_cons, List.all_cons, List.all_cons, inductionHypothesis, List.contains_append]
    cases names.contains name <;> cases more.contains name <;> simp

theorem copiesNone_append (kind : ExprKind) :
    copiesNone (names ++ more) kind = (copiesNone names kind && copiesNone more kind) := by
  unfold copiesNone
  split
  · exact avoids_append _
  · exact avoids_append _
  · rfl

theorem copiesNoneStmt_append (kind : StmtKind) :
    copiesNoneStmt (names ++ more) kind =
      (copiesNoneStmt names kind && copiesNoneStmt more kind) := by
  unfold copiesNoneStmt
  split
  · exact avoids_append _
  · exact avoids_append _
  · next bindings =>
    induction bindings with
    | nil => rfl
    | cons binding rest inductionHypothesis =>
      rw [List.all_cons, List.all_cons, List.all_cons, inductionHypothesis]
      cases binding.value with
      | none => rfl
      | some value =>
        simp only [Option.all_some, avoids_append]
        cases avoids names (told value) <;> cases avoids more (told value) <;> simp
  · rfl

theorem careful_append {kind : ExprKind} (own : careful lenient sure names kind = true)
    (also : (lenient || copiesNone more kind) = true) :
    careful lenient sure (names ++ more) kind = true := by
  cases lenient with
  | true => rfl
  | false =>
    simp only [careful, Bool.false_or, Bool.and_eq_true, copiesNone_append] at *
    exact ⟨own.1, own.2, also⟩

theorem carefulStmt_append {inLoop : Bool} {kind : StmtKind}
    (own : carefulStmt lenient sure names inLoop kind = true)
    (also : (lenient || copiesNoneStmt more kind) = true) :
    carefulStmt lenient sure (names ++ more) inLoop kind = true := by
  cases lenient with
  | true => exact own
  | false =>
    simp only [carefulStmt, Bool.false_or, Bool.and_eq_true, copiesNoneStmt_append] at *
    exact ⟨own.1, own.2.1, own.2.2, also⟩

/-! Where nothing is marked, everything may be copied. -/

@[simp]
theorem avoids_nil (told : List String) : avoids [] told = true :=
  List.all_eq_true.mpr fun _ _ => rfl

@[simp]
theorem copiesNone_nil (kind : ExprKind) : copiesNone [] kind = true := by
  unfold copiesNone
  split <;> simp

@[simp]
theorem copiesNoneStmt_nil (kind : StmtKind) : copiesNoneStmt [] kind = true := by
  unfold copiesNoneStmt
  split <;> simp

/-- Nothing is asked by a law that makes no exception, if no variable is sure to be defined. -/
theorem careful_of_lenient (expr : Expr) : everyExpr (careful true sure names) expr = true := by
  have noRule : ∀ rule : Empty, everyExpr (Empty.elim rule) expr = true := fun rule => rule.elim
  exact everyExpr_of_forall (fun _ _ _ => rfl) expr noRule

theorem carefulStmt_of_lenient (inLoop : Bool) (body : List Stmt) :
    everyStmt (everyExpr (careful true [] names)) (carefulStmt true [] names) inLoop body = true := by
  have noRule : ∀ rule : Empty, everyStmt (Empty.elim rule) (Empty.elim rule) inLoop body = true :=
    fun rule => rule.elim
  have own (inLoop : Bool) (kind : StmtKind) : carefulStmt true [] names inLoop kind = true := by
    rw [carefulStmt, Bool.true_or, Bool.and_true]
    unfold unsetsNone
    split
    · exact List.all_eq_true.mpr fun _ _ => rfl
    · rfl
  exact everyStmt_of_forall (fun expr _ => careful_of_lenient expr) (fun inLoop kind _ =>
    own inLoop kind) inLoop body noRule

/-- Code that copies the types of more variables nowhere is careful with these too. -/
theorem everyExpr_careful {expr : Expr} (care : everyExpr (careful lenient sure names) expr = true)
    (also : (lenient || everyExpr (copiesNone more) expr) = true) :
    everyExpr (careful lenient sure (names ++ more)) expr = true := by
  cases lenient with
  | true => exact careful_of_lenient expr
  | false =>
    have both : ∀ second : Bool,
        everyExpr (cond second (copiesNone more) (careful false sure names)) expr = true
      | true => also
      | false => care
    exact everyExpr_of_forall (fun kind own _ => careful_append (own false) (own true)) expr both

theorem everyStmt_careful {inLoop : Bool} {body : List Stmt}
    (care : everyStmt (everyExpr (careful lenient sure names)) (carefulStmt lenient sure names) inLoop
      body = true)
    (also : (lenient || everyStmt (everyExpr (copiesNone more)) (fun _ => copiesNoneStmt more)
      inLoop body) = true) :
    everyStmt (everyExpr (careful lenient sure (names ++ more)))
      (carefulStmt lenient sure (names ++ more)) inLoop body = true := by
  cases lenient with
  | true =>
    exact everyStmt_mono (fun expr _ => careful_of_lenient expr) (fun _ _ own => own) inLoop body care
  | false =>
    have both : ∀ second : Bool,
        everyStmt (cond second (everyExpr (copiesNone more)) (everyExpr (careful false sure names)))
          (cond second (fun _ => copiesNoneStmt more) (carefulStmt false sure names)) inLoop body =
            true
      | true => also
      | false => care
    exact everyStmt_of_forall (fun expr own => everyExpr_careful (own false) (own true))
      (fun _ kind own => carefulStmt_append (own false) (own true)) inLoop body both

theorem confinesStmt_of_careful {inLoop : Bool} {kind : StmtKind}
    (own : carefulStmt lenient sure names inLoop kind = true) :
    (lenient || confinesStmt sure inLoop kind) = true := by
  cases lenient with
  | true => rfl
  | false => exact (Bool.and_eq_true_iff.mp (Bool.and_eq_true_iff.mp own).2).1

theorem copiesNoneStmt_of_careful {inLoop : Bool} {kind : StmtKind}
    (own : carefulStmt lenient sure names inLoop kind = true) :
    (lenient || copiesNoneStmt names kind) = true := by
  cases lenient with
  | true => rfl
  | false => exact (Bool.and_eq_true_iff.mp (Bool.and_eq_true_iff.mp own).2).2

theorem unsetsNone_of_careful {inLoop : Bool} {gone : List String}
    (own : carefulStmt lenient sure names inLoop (.unset gone) = true) :
    ∀ name ∈ gone, name ∉ sure := by
  intro name member
  have kept := List.all_eq_true.mp (Bool.and_eq_true_iff.mp own).1 name member
  simpa using kept

/-- A test marks only what it may mark. -/
theorem mem_sure_or_mayMark (test : Expr) :
    ∀ name ∈ asked false test, name ∈ sure ∨ name ∈ mayMark sure test := by
  intro name member
  by_cases isSure : name ∈ sure
  · exact .inl isSure
  · exact .inr (List.mem_filter.mpr ⟨member, by simpa using isSure⟩)

theorem avoids_static {name : String} {value : Option Expr} {span : Span} {rest : List Binding}
    (own : (lenient || copiesNoneStmt names (.static (⟨name, value, span⟩ :: rest))) = true) :
    (lenient || value.all fun value => avoids names (told value)) = true ∧
      (lenient || copiesNoneStmt names (.static rest)) = true := by
  cases lenient with
  | true => exact ⟨rfl, rfl⟩
  | false => exact Bool.and_eq_true_iff.mp own

/-- What a conditional expression that is careful does with the variables that its test asks for. -/
theorem confines_ternary {test yes no : Expr}
    (own : careful lenient sure names (.ternary test (some yes) no) = true) :
    (lenient || everyExpr (copiesNone (mayMark sure test)) test) = true ∧
      (lenient || everyExpr (copiesNone (mayMark sure test)) yes) = true := by
  cases lenient with
  | true => exact ⟨rfl, rfl⟩
  | false =>
    simp only [careful, confines, Bool.false_or, Bool.and_eq_true] at own
    exact own.1

/-- The same of the first branch of an `if`. -/
theorem confines_branch {inLoop : Bool} {test : Expr} {body : List Stmt}
    (own : (lenient || confinesBranch sure inLoop test body) = true) :
    (lenient || everyExpr (copiesNone (mayMark sure test)) test) = true ∧
      (lenient || everyStmt (everyExpr (copiesNone (mayMark sure test)))
        (fun _ => copiesNoneStmt (mayMark sure test)) inLoop body) = true := by
  cases lenient with
  | true => exact ⟨rfl, rfl⟩
  | false => exact Bool.and_eq_true_iff.mp own

theorem confines_chain {inLoop : Bool} {test : Expr} {body : List Stmt} {rest : Otherwise}
    (own : (lenient || (confinesBranch sure inLoop test body &&
      confinesOtherwise sure inLoop rest)) = true) :
    (lenient || confinesBranch sure inLoop test body) = true ∧
      (lenient || confinesOtherwise sure inLoop rest) = true := by
  cases lenient with
  | true => exact ⟨rfl, rfl⟩
  | false => exact Bool.and_eq_true_iff.mp own

end

/-! ### Local types -/

namespace Typing

section

variable (law : TypeLaw)

theorem every_arithmetic (left right : TypeSet) : (arithmetic left right).Every law.Holds :=
  .ite (law.every_plain rfl) (law.every_plain rfl)

theorem every_signed (operand : TypeSet) : (signed operand).Every law.Holds := by
  unfold signed
  split
  · next just =>
    intro value member
    simp only [TypeSet.isJust, Bool.and_eq_true, List.all_eq_true] at just
    obtain rfl := TypeValue.isNamed_iff.mp (just.2 value member)
    exact law.concrete "int" (law.allows_plain rfl)
  · exact law.every_plain rfl

theorem every_cast {target : String} (allowed : law.allows target = true) :
    (cast target).Every law.Holds := by
  unfold cast
  split
  · exact law.every_plain rfl
  · exact law.every_plain rfl
  · exact law.every_named allowed

theorem every_arrayLiteral (items : List Item) : (arrayLiteral items).Every law.Holds := by
  unfold arrayLiteral
  split
  · exact law.every_plain rfl
  · split_ifs <;> exact law.every_plain rfl

theorem every_ofRef {naming : Naming} {ref : ClassRef} {value : String → TypeValue}
    (lawful : ∀ name, ref.name? naming = some name → law.Holds (value name)) :
    (ofRef naming ref value).Every law.Holds := by
  unfold ofRef
  split
  · next name found => exact TypeSet.every_singleton (lawful name found)
  · exact TypeSet.every_empty

end

section

variable {law : TypeLaw} {scope : Scope} {naming : Naming} {marked : String → Prop}
  {sure names : List String}

mutual

/-- The local type of an expression satisfies the law if it takes over no type of a marked variable. -/
theorem every_localType (every : scope.Every (law.Permits marked)) (named : naming.Obeys law)
    (expr : Expr) (care : everyExpr (careful law.lenient sure names) expr = true)
    (unmarked : ∀ name ∈ told expr, ¬ marked name) :
    (localType scope naming expr).Every law.Holds := by
  obtain ⟨kind, span⟩ := expr
  simp only [everyExpr, Bool.and_eq_true] at care
  rw [localType]
  exact every_localKind every named kind care.1 care.2 unmarked

theorem every_localKind (every : scope.Every (law.Permits marked)) (named : naming.Obeys law)
    (kind : ExprKind) (own : careful law.lenient sure names kind = true)
    (parts : everyOperand (careful law.lenient sure names) kind = true)
    (unmarked : ∀ name ∈ toldKind kind, ¬ marked name) :
    (localKind scope naming kind).Every law.Holds := by
  rw [localKind.eq_def]
  cases kind with
  | var name =>
    exact .getD TypeSet.every_empty fun types found =>
      every.unmarked (unmarked name (List.mem_singleton_self name)) found
  | paren inner | clone inner => exact every_localType every named inner parts unmarked
  | magic name =>
    dsimp only
    split <;> exact law.every_plain rfl
  | array items => exact every_arrayLiteral law items
  | element base index =>
    simp only [everyOperand, Bool.and_eq_true] at parts
    exact TypeLaw.every_elements (every_localType every named base parts.1 unmarked) _
  | assign target value op byRef =>
    simp only [everyOperand, Bool.and_eq_true] at parts
    cases op with
    | assign => exact every_localType every named value parts.2 unmarked
    | concat | bitwise => exact law.every_plain rfl
    | arithmetic => exact every_arithmetic law _ _
    | coalesce =>
      obtain ⟨ofTarget, ofValue⟩ := List.forall_mem_append.mp unmarked
      exact (every_localType every named target parts.1 ofTarget).union
        (every_localType every named value parts.2 ofValue)
  | binary op left right =>
    simp only [everyOperand, Bool.and_eq_true] at parts
    dsimp only
    split_ifs with _ _ _ _ coalesces
    · exact every_arithmetic law _ _
    · exact law.every_plain rfl
    · exact law.every_plain rfl
    · exact law.every_plain rfl
    · rw [toldKind, if_pos coalesces] at unmarked
      obtain ⟨ofLeft, ofRight⟩ := List.forall_mem_append.mp unmarked
      exact (every_localType every named left parts.1 ofLeft).union
        (every_localType every named right parts.2 ofRight)
    · exact TypeSet.every_empty
  | unary op operand =>
    have typed := every_localType every named operand parts
    cases op with
    | not | bitNot => exact law.every_plain rfl
    | cast target =>
      refine every_cast law ?_
      simp only [careful, confines, Bool.or_eq_true, Bool.and_eq_true] at own
      unfold TypeLaw.allows
      exact Bool.or_eq_true_iff.mpr (own.imp_right And.left)
    | negate | plus => exact every_signed law _
    | other => exact TypeSet.every_empty
    | _ => exact typed unmarked
  | ternary test yes no =>
    simp only [everyOperand, Bool.and_eq_true] at parts
    obtain ⟨⟨inTest, inYes⟩, inNo⟩ := parts
    cases yes with
    | none =>
      obtain ⟨ofTest, ofNo⟩ := List.forall_mem_append.mp unmarked
      exact (every_localType every named test inTest ofTest).union
        (every_localType every named no inNo ofNo)
    | some yes =>
      obtain ⟨ofYes, ofNo⟩ := List.forall_mem_append.mp unmarked
      exact (every_localType every named yes inYes ofYes).union
        (every_localType every named no inNo ofNo)
  | call | constant => exact TypeSet.every_singleton (law.symbol _ rfl)
  | methodCall object method args nullsafe =>
    simp only [everyOperand, Bool.and_eq_true] at parts
    cases method with
    | none => exact TypeSet.every_empty
    | some method =>
      exact (every_localType every named object parts.1 unmarked).map fun object =>
        law.methodCall object method
  | property object name nullsafe =>
    cases name with
    | none => exact TypeSet.every_empty
    | some name =>
      exact (every_localType every named object parts unmarked).map fun object =>
        law.property object name
  | staticCall ref method args =>
    cases method with
    | none => exact TypeSet.every_empty
    | some method => exact every_ofRef law fun _ _ => law.symbol _ rfl
  | staticProperty ref name =>
    cases name with
    | none => exact TypeSet.every_empty
    | some name => exact every_ofRef law fun _ _ => law.symbol _ rfl
  | classConstant ref name =>
    dsimp only
    split
    · exact law.every_plain rfl
    · exact every_ofRef law fun _ _ => law.symbol _ rfl
  | new ref args => exact every_ofRef law fun name found => law.concrete name (named ref name found)
  | matchOn subject arms =>
    simp only [everyOperand, Bool.and_eq_true] at parts
    exact every_localArms every named arms parts.2 unmarked TypeSet.every_empty
  | callValue | dynamicVar | list | exit | throw | unmodeled => exact TypeSet.every_empty
  | _ => exact law.every_plain rfl

theorem every_localArms (every : scope.Every (law.Permits marked)) (named : naming.Obeys law)
    (arms : List MatchArm) (care : everyArm (careful law.lenient sure names) arms = true)
    (unmarked : ∀ name ∈ toldArms arms, ¬ marked name) {types : TypeSet}
    (given : types.Every law.Holds) : (localArms scope naming arms types).Every law.Holds := by
  cases arms with
  | nil => rwa [localArms]
  | cons arm rest =>
    obtain ⟨conditions, body⟩ := arm
    simp only [everyArm, Bool.and_eq_true] at care
    obtain ⟨ofBody, ofRest⟩ := List.forall_mem_append.mp unmarked
    rw [localArms]
    exact every_localArms every named rest care.2 ofRest
      (given.append (every_localType every named body care.1.2 ofBody))

end

end

end Typing

end PhpAudit
