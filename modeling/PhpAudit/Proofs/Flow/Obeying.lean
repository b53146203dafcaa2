/-
This file proves that careful code keeps every law of type values, however it is nested: after a walk
the law holds of the types in the scope, those of the results and those of the assigned properties, but
for the variables that were marked before. Tests mark more variables for a while. Where these markers
are known nothing copies them, and they are retracted before anything else is walked. Closures and
arrow functions are walked in scopes of their own.
-/

import PhpAudit.Proofs.Flow.Values

namespace PhpAudit.Flow

/-- A test takes no marker back. -/
theorem markers_subset_walkTest (env : Env) (negated inLogic : Bool) (test : Expr)
    (guard : Guard) : guard.markers ⊆ (walkTest env negated inLogic test guard).markers := by
  obtain ⟨kind, span⟩ := test
  have read : guard.markers ⊆ (guard.mapWalk (walkKind env span kind)).markers := by
    rw [guard.markers_mapWalk]
    exact List.Subset.refl _
  rw [walkTest.eq_def]
  cases kind with
  | paren inner => exact markers_subset_walkTest env negated inLogic inner guard
  | binary op left right =>
    cases op with
    | and | or =>
      exact List.Subset.trans (markers_subset_walkTest env negated true left guard)
        (markers_subset_walkTest env negated true right _)
    | _ => exact read
  | unary op operand =>
    cases op with
    | not =>
      exact List.Subset.trans (guard.subset_markNotEmpty negated operand)
        (markers_subset_walkTest env (!negated) inLogic operand _)
    | _ => exact read
  | isset values => exact guard.subset_markIsset negated values
  | instanceOf subject ref =>
    dsimp only
    rw [Guard.markers_narrowTo, Guard.markers_mapWalk]
    exact List.Subset.refl _
  | _ => exact read

-- the hypothesis is used by the theorems of a mutual block together, not by each of them
set_option linter.unusedSectionVars false

section

variable {law : TypeLaw} {sure : List String} {env : Env} (known : env.Obeys law)

include known

-- Every function is unfolded once; what remains are its parts, put together by steps that keep the law.
-- A single step keeps it only if the types that it is given are lawful, and these depend on the state
-- before; so `Steps`, which lets a step assign any types, has no instance for it. The marked variables
-- change below a test, so they are quantified in each statement.

mutual

/-- The walk over a careful expression. -/
theorem walkExpr_obeys {marked : String → Prop} {names : List String}
    (within : ∀ name, marked name → name ∈ names) (expr : Expr)
    (care : everyExpr (careful law.lenient sure names) expr = true) :
    Walk.Keeps law marked sure (walkExpr env expr) := by
  obtain ⟨kind, span⟩ := expr
  simp only [everyExpr, Bool.and_eq_true] at care
  intro walk obeys
  rw [walkExpr]
  exact walkKind_obeys within span kind care.1 care.2 walk obeys

theorem walkKind_obeys {marked : String → Prop} {names : List String}
    (within : ∀ name, marked name → name ∈ names) (span : Span) (kind : ExprKind)
    (own : careful law.lenient sure names kind = true)
    (parts : everyOperand (careful law.lenient sure names) kind = true) :
    Walk.Keeps law marked sure (walkKind env span kind) := by
  intro walk obeys
  rw [walkKind.eq_def]
  cases kind with
  | var name => exact obeys.read known name span
  | dynamicVar reads | interpolated reads | unmodeled reads => exact obeys.readAll known reads span
  | print reads => exact obeys.impure.readAll known reads span
  | exit die reads => exact (obeys.impure.readAll known reads span).leave _
  | paren inner | clone inner | unary _ inner | property inner _ _ =>
    exact walkExpr_obeys within inner parts walk obeys
  | includeFile inner | yieldFrom inner => exact walkExpr_obeys within inner parts _ obeys.impure
  | throw inner => exact (walkExpr_obeys within inner parts walk obeys).leave _
  | isEmpty inner => exact walkProbe_obeys within inner parts walk obeys
  | isset values => exact walkProbes_obeys within values parts walk obeys
  | array items | list items => exact walkItems_obeys within items parts walk obeys
  | element base index =>
    simp only [everyOperand, Bool.and_eq_true] at parts
    exact walkOptional_obeys within index parts.2 _
      (walkExpr_obeys within base parts.1 _ (obeys.checkArrayAccess base span))
  | assign target value op byRef =>
    have whole : everyExpr (careful law.lenient sure names) ⟨.assign target value op byRef, span⟩ =
        true := by
      simp only [everyExpr, own, parts, Bool.and_self]
    simp only [everyOperand, Bool.and_eq_true] at parts
    obtain ⟨inTarget, inValue⟩ := parts
    cases byRef with
    | true =>
      have shared := walkShared_obeys within value inValue walk obeys
      exact walkAssign_obeys within .reference (shared.localType known within inValue own) target
        inTarget _ shared
    | false =>
      have valued := walkExpr_obeys within value inValue walk obeys
      cases op with
      | assign =>
        exact walkAssign_obeys within .plain (valued.localType known within inValue own) target
          inTarget _ valued
      | _ =>
        exact walkAssign_obeys within _ (valued.localType known within whole own) target inTarget _
          valued
  | binary op left right =>
    simp only [everyOperand, Bool.and_eq_true] at parts
    obtain ⟨inLeft, inRight⟩ := parts
    cases op with
    | coalesce =>
      exact (walkProbe_obeys within left inLeft walk obeys).conditionally
        (walkExpr_obeys within right inRight)
    | and | or | lowOr =>
      exact (walkExpr_obeys within left inLeft walk obeys).conditionally
        (walkExpr_obeys within right inRight)
    | _ => exact walkExpr_obeys within right inRight _ (walkExpr_obeys within left inLeft walk obeys)
  | instanceOf subject ref =>
    simp only [everyOperand, Bool.and_eq_true] at parts
    exact walkRef_obeys within ref parts.2 _ (walkExpr_obeys within subject parts.1 walk obeys)
  | ternary test yes no =>
    simp only [everyOperand, Bool.and_eq_true] at parts
    obtain ⟨⟨inTest, inYes⟩, inNo⟩ := parts
    cases yes with
    | none =>
      exact (walkExpr_obeys within test inTest walk obeys).conditionally
        (walkExpr_obeys within no inNo)
    | some yes =>
      obtain ⟨ofTest, ofYes⟩ := confines_ternary own
      have tested := walkTest_obeys within false false test (mem_sure_or_mayMark test)
        (everyExpr_careful inTest ofTest) (.start walk [])
        (.start obeys fun _ none => absurd none List.not_mem_nil)
      obtain ⟨around, inTrue, inFalse⟩ := tested.split obeys.scope
      obtain ⟨endedYes, afterYes⟩ := around.within inTrue
        (walkExpr_obeys (Marked.within within) yes (everyExpr_careful inYes ofYes))
      obtain ⟨endedNo, afterNo⟩ := afterYes.within inFalse (walkExpr_obeys within no inNo)
      exact obeys_closeTernary obeys.scope.types tested.fresh endedYes.types endedNo.types afterNo
  | call name args =>
    dsimp only
    split
    · exact walkCompactArgs_obeys within args parts walk obeys
    have tolerated := obeys_tolerate obeys (globalName env name)
    have started (isPure : Bool) : Walk.Obeys law marked sure
        (if isPure then tolerate (globalName env name) walk
          else (tolerate (globalName env name) walk).impure) := by
      split
      · exact tolerated
      · exact tolerated.impure
    have typed := obey_callee? known name
    generalize callee? env name = found at typed
    cases found with
    | none =>
      have passed := walkArgs_obeys within typed 0 args parts _ (started false)
      dsimp only
      split
      · exact passed.leave _
      · exact passed
    | some info =>
      have passed := walkArgs_obeys within typed 0 args parts _ (started info.isPure)
      dsimp only
      split
      · exact (passed.leaveByCallee _).leave _
      · exact passed.leaveByCallee _
  | callValue function args =>
    simp only [everyOperand, Bool.and_eq_true] at parts
    exact walkArgs_obeys within (fun _ none => by cases none) 0 args parts.2 _
      (walkExpr_obeys within function parts.1 _ obeys.impure)
  | methodCall object method args nullsafe =>
    simp only [everyOperand, Bool.and_eq_true] at parts
    exact (walkArgs_obeys within (obey_lookupMethodOf? known object method) 0 args parts.2 _
      (walkExpr_obeys within object parts.1 _ obeys.impure)).leaveByFound _
  | staticCall ref method args =>
    simp only [everyOperand, Bool.and_eq_true] at parts
    exact (walkArgs_obeys within (obey_staticCallee? known ref method) 0 args parts.2 _
      (walkRef_obeys within ref parts.1 _ obeys.impure)).leaveByFound _
  | staticProperty ref name | classConstant ref name =>
    exact walkRef_obeys within ref parts walk obeys
  | new ref args =>
    simp only [everyOperand, Bool.and_eq_true] at parts
    exact walkArgs_obeys within (obey_constructor? known ref) 0 args parts.2 _
      (walkRef_obeys within ref parts.1 _ obeys.impure)
  | closure params captures hint isStatic body =>
    have outer := obeys_captures env captures (closureScope isStatic walk.scope) obeys
    exact ⟨outer.scope, outer.returns, outer.assigned⟩
  | arrow params hint isStatic body =>
    exact List.foldlRecOn _ _ ⟨obeys.scope, obeys.returns, obeys.assigned⟩
      fun _ obeys name _ => Walk.Obeys.untrack obeys name
  | matchOn subject arms =>
    simp only [everyOperand, Bool.and_eq_true] at parts
    exact walkArms_obeys within arms parts.2 _ (walkExpr_obeys within subject parts.1 walk obeys)
  | yield key value =>
    simp only [everyOperand, Bool.and_eq_true] at parts
    exact walkOptional_obeys within value parts.2 _
      (walkOptional_obeys within key parts.1 _ obeys.impure)
  | integer | float | string | boolean | null | magic | constant => exact obeys

theorem walkOptional_obeys {marked : String → Prop} {names : List String}
    (within : ∀ name, marked name → name ∈ names) (value : Option Expr)
    (care : everyOptional (careful law.lenient sure names) value = true) :
    Walk.Keeps law marked sure (walkOptional env value) := by
  intro walk obeys
  cases value with
  | none => rwa [walkOptional_none]
  | some value =>
    rw [walkOptional]
    exact walkExpr_obeys within value care walk obeys

theorem walkConditionals_obeys {marked : String → Prop} {names : List String}
    (within : ∀ name, marked name → name ∈ names) (values : List Expr)
    (care : everyIn (careful law.lenient sure names) values = true) :
    Walk.Keeps law marked sure (walkConditionals env values) := by
  intro walk obeys
  cases values with
  | nil => rwa [walkConditionals_nil]
  | cons value rest =>
    simp only [everyIn, Bool.and_eq_true] at care
    rw [walkConditionals]
    exact walkConditionals_obeys within rest care.2 _
      (obeys.conditionally (walkExpr_obeys within value care.1))

theorem walkItems_obeys {marked : String → Prop} {names : List String}
    (within : ∀ name, marked name → name ∈ names) (items : List Item)
    (care : everyItem (careful law.lenient sure names) items = true) :
    Walk.Keeps law marked sure (walkItems env items) := by
  intro walk obeys
  cases items with
  | nil => rwa [walkItems_nil]
  | cons item rest =>
    cases item with
    | skip =>
      rw [walkItems]
      exact walkItems_obeys within rest care walk obeys
    | entry key value byRef unpack =>
      simp only [everyItem, Bool.and_eq_true] at care
      rw [walkItems]
      exact walkItems_obeys within rest care.2 _ (walkExpr_obeys within value care.1.2 _
        (walkOptional_obeys within key care.1.1 walk obeys))

theorem walkRef_obeys {marked : String → Prop} {names : List String}
    (within : ∀ name, marked name → name ∈ names) (ref : ClassRef)
    (care : everyRef (careful law.lenient sure names) ref = true) :
    Walk.Keeps law marked sure (walkRef env ref) := by
  intro walk obeys
  cases ref with
  | dynamic value =>
    rw [walkRef]
    exact walkExpr_obeys within value care walk obeys
  | named | self | static | parent => rwa [walkRef]

theorem walkArms_obeys {marked : String → Prop} {names : List String}
    (within : ∀ name, marked name → name ∈ names) (arms : List MatchArm)
    (care : everyArm (careful law.lenient sure names) arms = true) :
    Walk.Keeps law marked sure (walkArms env arms) := by
  intro walk obeys
  cases arms with
  | nil => rwa [walkArms_nil]
  | cons arm rest =>
    obtain ⟨conditions, body⟩ := arm
    simp only [everyArm, Bool.and_eq_true] at care
    rw [walkArms]
    exact walkArms_obeys within rest care.2 _
      ((walkConditionals_obeys within conditions care.1.1 walk obeys).conditionally
        (walkExpr_obeys within body care.1.2))

theorem walkProbe_obeys {marked : String → Prop} {names : List String}
    (within : ∀ name, marked name → name ∈ names) (value : Expr)
    (care : everyExpr (careful law.lenient sure names) value = true) :
    Walk.Keeps law marked sure (walkProbe env value) := by
  obtain ⟨kind, span⟩ := value
  simp only [everyExpr, Bool.and_eq_true] at care
  obtain ⟨own, parts⟩ := care
  intro walk obeys
  rw [walkProbe.eq_def]
  have read := walkKind_obeys within span kind own parts walk obeys
  cases kind with
  | paren inner => exact walkProbe_obeys within inner parts walk obeys
  | var name => exact obeys.untrack name
  | element base index =>
    simp only [everyOperand, Bool.and_eq_true] at parts
    exact walkOptional_obeys within index parts.2 _ (walkProbe_obeys within base parts.1 walk obeys)
  | property object _ _ => exact walkProbe_obeys within object parts walk obeys
  | _ => exact read

theorem walkProbes_obeys {marked : String → Prop} {names : List String}
    (within : ∀ name, marked name → name ∈ names) (values : List Expr)
    (care : everyIn (careful law.lenient sure names) values = true) :
    Walk.Keeps law marked sure (walkProbes env values) := by
  intro walk obeys
  cases values with
  | nil => rwa [walkProbes_nil]
  | cons value rest =>
    simp only [everyIn, Bool.and_eq_true] at care
    rw [walkProbes]
    exact walkProbes_obeys within rest care.2 _ (walkProbe_obeys within value care.1 walk obeys)

/-- The walk over a target, if the types of the assigned value are lawful. -/
theorem walkAssign_obeys {marked : String → Prop} {names : List String}
    (within : ∀ name, marked name → name ∈ names) (mode : AssignMode) {types : TypeSet}
    (given : types.Every law.Holds) (target : Expr)
    (care : everyExpr (careful law.lenient sure names) target = true) :
    Walk.Keeps law marked sure (walkAssign env mode types target) := by
  obtain ⟨kind, span⟩ := target
  simp only [everyExpr, Bool.and_eq_true] at care
  obtain ⟨own, parts⟩ := care
  intro walk obeys
  rw [walkAssign.eq_def]
  have read := walkKind_obeys within span kind own parts walk obeys
  cases kind with
  | var name => exact obeys_assignVar obeys mode given name span
  | paren inner => exact walkAssign_obeys within mode given inner parts walk obeys
  | element base index =>
    simp only [everyOperand, Bool.and_eq_true] at parts
    exact walkOptional_obeys within index parts.2 _
      (walkStore_obeys within given base.span base parts.1 _ (obeys.checkArrayAccess base _))
  | list items | array items => exact walkPattern_obeys within given 0 items parts walk obeys
  | property object name nullsafe =>
    exact walkExpr_obeys within object parts _
      (obeys_assignOwnProperty obeys.impure given object name)
  | staticProperty ref name =>
    exact walkRef_obeys within ref parts _ (obeys_assignOwnStatic obeys.impure given ref name)
  | _ => exact read

theorem walkPattern_obeys {marked : String → Prop} {names : List String}
    (within : ∀ name, marked name → name ∈ names) {types : TypeSet}
    (given : types.Every law.Holds) (position : Nat) (items : List Item)
    (care : everyItem (careful law.lenient sure names) items = true) :
    Walk.Keeps law marked sure (walkPattern env types position items) := by
  intro walk obeys
  cases items with
  | nil => rwa [walkPattern_nil]
  | cons item rest =>
    cases item with
    | skip =>
      rw [walkPattern]
      exact walkPattern_obeys within given position rest care walk obeys
    | entry key value byRef unpack =>
      simp only [everyItem, Bool.and_eq_true] at care
      rw [walkPattern]
      exact walkPattern_obeys within given (position + 1) rest care.2 _
        (walkAssign_obeys within .plain (every_slotTypes given position key) value care.1.2 _
          (obeys_shareSlot (walkOptional_obeys within key care.1.1 walk obeys) byRef value))

theorem walkStore_obeys {marked : String → Prop} {names : List String}
    (within : ∀ name, marked name → name ∈ names) {types : TypeSet}
    (given : types.Every law.Holds) (outer : Span) (base : Expr)
    (care : everyExpr (careful law.lenient sure names) base = true) :
    Walk.Keeps law marked sure (walkStore env types outer base) := by
  obtain ⟨kind, span⟩ := base
  simp only [everyExpr, Bool.and_eq_true] at care
  obtain ⟨own, parts⟩ := care
  intro walk obeys
  rw [walkStore.eq_def]
  have read := walkKind_obeys within span kind own parts
  cases kind with
  | paren inner => exact walkStore_obeys within given outer inner parts walk obeys
  | var name => exact obeys_storeInVar obeys known given name outer
  | element base index =>
    simp only [everyOperand, Bool.and_eq_true] at parts
    exact walkOptional_obeys within index parts.2 _
      (walkStore_obeys within (TypeLaw.every_inArray given) base.span base parts.1 _
        (obeys.checkArrayAccess base outer))
  | property | staticProperty => exact read _ obeys.impure
  | _ => exact read walk obeys

theorem walkShared_obeys {marked : String → Prop} {names : List String}
    (within : ∀ name, marked name → name ∈ names) (value : Expr)
    (care : everyExpr (careful law.lenient sure names) value = true) :
    Walk.Keeps law marked sure (walkShared env value) := by
  obtain ⟨kind, span⟩ := value
  simp only [everyExpr, Bool.and_eq_true] at care
  obtain ⟨own, parts⟩ := care
  intro walk obeys
  rw [walkShared.eq_def]
  have read := walkKind_obeys within span kind own parts walk obeys
  cases kind with
  | paren inner => exact walkShared_obeys within inner parts walk obeys
  | var name => exact obeys_shareVar obeys name
  | _ => exact read

theorem walkArgs_obeys {marked : String → Prop} {names : List String}
    (within : ∀ name, marked name → name ∈ names) {params : Option (List ParamInfo)}
    (typed : ParamsObey law params) (position : Nat) (args : List Arg)
    (care : everyArg (careful law.lenient sure names) args = true) :
    Walk.Keeps law marked sure (walkArgs env params position args) := by
  intro walk obeys
  cases args with
  | nil => rwa [walkArgs_nil]
  | cons arg rest =>
    obtain ⟨value, unpack, label⟩ := arg
    simp only [everyArg, Bool.and_eq_true] at care
    have others := walkArgs_obeys within typed (position + 1) rest care.2
    rw [walkArgs]
    cases taken : refParam? params position with
    | some param =>
      exact others _ (walkPassed_obeys within (every_refParam? typed taken) value.span value care.1
        walk obeys)
    | none => exact others _ (walkExpr_obeys within value care.1 walk obeys)

theorem walkPassed_obeys {marked : String → Prop} {names : List String}
    (within : ∀ name, marked name → name ∈ names) {param : ParamInfo}
    (typed : param.types.Every law.Holds) (outer : Span) (value : Expr)
    (care : everyExpr (careful law.lenient sure names) value = true) :
    Walk.Keeps law marked sure (walkPassed env param outer value) := by
  obtain ⟨kind, span⟩ := value
  simp only [everyExpr, Bool.and_eq_true] at care
  obtain ⟨own, parts⟩ := care
  intro walk obeys
  rw [walkPassed.eq_def]
  have read := walkKind_obeys within span kind own parts walk obeys
  cases kind with
  | paren inner => exact walkPassed_obeys within typed outer inner parts walk obeys
  | var name => exact obeys_passVar obeys typed name
  | element base index =>
    simp only [everyOperand, Bool.and_eq_true] at parts
    exact walkOptional_obeys within index parts.2 _ (walkStore_obeys within law.every_mixed base.span
      base parts.1 _ (obeys.checkArrayAccess base outer))
  | _ => exact read

theorem walkCompactArgs_obeys {marked : String → Prop} {names : List String}
    (within : ∀ name, marked name → name ∈ names) (args : List Arg)
    (care : everyArg (careful law.lenient sure names) args = true) :
    Walk.Keeps law marked sure (walkCompactArgs env args) := by
  intro walk obeys
  cases args with
  | nil => rwa [walkCompactArgs_nil]
  | cons arg rest =>
    obtain ⟨value, unpack, label⟩ := arg
    simp only [everyArg, Bool.and_eq_true] at care
    rw [walkCompactArgs]
    exact walkCompactArgs_obeys within rest care.2 _
      (walkCompact_obeys within value.span value care.1 walk obeys)

theorem walkCompact_obeys {marked : String → Prop} {names : List String}
    (within : ∀ name, marked name → name ∈ names) (outer : Span) (value : Expr)
    (care : everyExpr (careful law.lenient sure names) value = true) :
    Walk.Keeps law marked sure (walkCompact env outer value) := by
  obtain ⟨kind, span⟩ := value
  simp only [everyExpr, Bool.and_eq_true] at care
  obtain ⟨own, parts⟩ := care
  intro walk obeys
  rw [walkCompact.eq_def]
  have read := walkKind_obeys within span kind own parts walk obeys
  cases kind with
  | paren inner => exact walkCompact_obeys within outer inner parts walk obeys
  | string text =>
    cases text with
    | none => exact read
    | some name => exact obeys.read known _ outer
  | array items => exact walkCompactItems_obeys within items parts walk obeys
  | _ => exact read

theorem walkCompactItems_obeys {marked : String → Prop} {names : List String}
    (within : ∀ name, marked name → name ∈ names) (items : List Item)
    (care : everyItem (careful law.lenient sure names) items = true) :
    Walk.Keeps law marked sure (walkCompactItems env items) := by
  intro walk obeys
  cases items with
  | nil => rwa [walkCompactItems_nil]
  | cons item rest =>
    cases item with
    | skip =>
      rw [walkCompactItems]
      exact walkCompactItems_obeys within rest care walk obeys
    | entry key value byRef unpack =>
      simp only [everyItem, Bool.and_eq_true] at care
      rw [walkCompactItems]
      exact walkCompactItems_obeys within rest care.2 _
        (walkCompact_obeys within value.span value care.1.2 walk obeys)

/-- The walk over a condition that asks for some variables and copies none of these. -/
theorem walkTest_obeys {marked : String → Prop} {names asking : List String}
    (within : ∀ name, marked name → name ∈ names) (negated inLogic : Bool) (test : Expr)
    (asks : ∀ name ∈ asked negated test, name ∈ sure ∨ name ∈ asking)
    (care : everyExpr (careful law.lenient sure (names ++ asking)) test = true) (guard : Guard)
    (obeys : guard.Obeys law marked sure asking) :
    (walkTest env negated inLogic test guard).Obeys law marked sure asking := by
  obtain ⟨kind, span⟩ := test
  simp only [everyExpr, Bool.and_eq_true] at care
  obtain ⟨own, parts⟩ := care
  have inside (markers : List String) : ∀ name, Marked marked asking markers name →
      name ∈ names ++ asking := Marked.within within
  have read := obeys.mapWalk (walkKind_obeys (inside guard.markers) span kind own parts)
  rw [walkTest.eq_def]
  cases kind with
  | paren inner => exact walkTest_obeys within negated inLogic inner asks parts guard obeys
  | binary op left right =>
    simp only [everyOperand, Bool.and_eq_true] at parts
    cases op with
    | and | or =>
      obtain ⟨ofLeft, ofRight⟩ := List.forall_mem_append.mp asks
      exact (walkTest_obeys within negated true left ofLeft parts.1 guard obeys).conditionally
        (walkTest_obeys within negated true right ofRight parts.2)
    | _ => exact read
  | unary op operand =>
    cases op with
    | not =>
      obtain ⟨ofEmpty, ofOperand⟩ := List.forall_mem_append.mp asks
      exact walkTest_obeys within (!negated) inLogic operand ofOperand parts _
        (obeys.markNotEmpty ofEmpty)
    | _ => exact read
  | isset values =>
    exact (obeys.markIsset asks).mapWalk (walkProbes_obeys (inside _) values parts)
  | instanceOf subject ref =>
    simp only [everyOperand, Bool.and_eq_true] at parts
    have walked : Walk.Keeps law (Marked marked asking guard.markers) sure
        fun walk => walkRef env ref (walkExpr env subject walk) :=
      fun walk obeys => walkRef_obeys (inside _) ref parts.2 _
        (walkExpr_obeys (inside _) subject parts.1 walk obeys)
    exact (obeys.mapWalk walked).narrowTo known.naming subject ref negated inLogic
  | _ => exact read

end

theorem walkExprs_obeys {marked : String → Prop} {names : List String}
    (within : ∀ name, marked name → name ∈ names) (values : List Expr)
    (care : values.all (everyExpr (careful law.lenient sure names)) = true) :
    Walk.Keeps law marked sure (walkExprs env values) := by
  intro walk obeys
  induction values generalizing walk with
  | nil => rwa [walkExprs_nil]
  | cons value rest inductionHypothesis =>
    simp only [List.all_cons, Bool.and_eq_true] at care
    rw [walkExprs]
    exact inductionHypothesis care.2 _ (walkExpr_obeys known within value care.1 walk obeys)

theorem walkChosen_obeys {marked : String → Prop} {names : List String}
    (within : ∀ name, marked name → name ∈ names) (value : Option Expr)
    (care : value.all (everyExpr (careful law.lenient sure names)) = true) :
    Walk.Keeps law marked sure (walkOptional env value) := by
  refine walkOptional_obeys known within value ?_
  cases value <;> exact care

theorem walkKey_obeys {marked : String → Prop} {names : List String}
    (within : ∀ name, marked name → name ∈ names) (key : Option Expr)
    (care : key.all (everyExpr (careful law.lenient sure names)) = true) :
    Walk.Keeps law marked sure (walkKey env key) := by
  intro walk obeys
  cases key with
  | none => rwa [walkKey_none]
  | some key =>
    rw [walkKey]
    exact walkAssign_obeys known within _ (every_keyTypes law) key care walk obeys

theorem walkStatics_obeys {marked : String → Prop} {names : List String}
    (within : ∀ name, marked name → name ∈ names) (bindings : List Binding)
    (care : everyBinding (everyExpr (careful law.lenient sure names)) bindings = true)
    (avoided : (law.lenient || copiesNoneStmt names (.static bindings)) = true) :
    Walk.Keeps law marked sure (walkStatics env bindings) := by
  intro walk obeys
  induction bindings generalizing walk with
  | nil => rwa [walkStatics_nil]
  | cons binding rest inductionHypothesis =>
    obtain ⟨name, value, span⟩ := binding
    simp only [everyBinding, Bool.and_eq_true] at care
    obtain ⟨ofValue, ofRest⟩ := avoids_static avoided
    have valued := walkChosen_obeys known within value care.1 walk obeys
    have given : ((value.map ((walkOptional env value walk).localType env)).getD .empty).Every
        law.Holds := by
      cases value with
      | none => exact TypeSet.every_empty
      | some value => exact valued.localType known within care.1 ofValue
    rw [walkStatics]
    exact inductionHypothesis care.2 ofRest _ (((valued.add name given true).share name).untrack name)

theorem walkConstItems_obeys {marked : String → Prop} {names : List String}
    (within : ∀ name, marked name → name ∈ names) (items : List ConstItem)
    (care : everyConst (everyExpr (careful law.lenient sure names)) items = true) :
    Walk.Keeps law marked sure (walkConstItems env items) := by
  intro walk obeys
  induction items generalizing walk with
  | nil => rwa [walkConstItems_nil]
  | cons item rest inductionHypothesis =>
    obtain ⟨name, value, span⟩ := item
    simp only [everyConst, Bool.and_eq_true] at care
    rw [walkConstItems]
    exact inductionHypothesis care.2 _ (walkExpr_obeys known within value care.1 walk obeys)

mutual

/-- The walk over careful statements. -/
theorem walkStmts_obeys {marked : String → Prop} {names : List String}
    (within : ∀ name, marked name → name ∈ names) (inLoop : Bool) (body : List Stmt)
    (care : everyStmt (everyExpr (careful law.lenient sure names))
      (carefulStmt law.lenient sure names) inLoop body = true) :
    Walk.Keeps law marked sure (walkStmts env body) := by
  intro walk obeys
  cases body with
  | nil => rwa [walkStmts_nil]
  | cons stmt rest =>
    obtain ⟨kind, span⟩ := stmt
    simp only [everyStmt, Bool.and_eq_true] at care
    rw [walkStmts, walkStmt]
    exact walkStmts_obeys within inLoop rest care.2 _
      (walkStmtKind_obeys within inLoop kind care.1.1 care.1.2 _ (obeys.checkDeadCode _))

theorem walkStmtKind_obeys {marked : String → Prop} {names : List String}
    (within : ∀ name, marked name → name ∈ names) (inLoop : Bool) (kind : StmtKind)
    (own : carefulStmt law.lenient sure names inLoop kind = true)
    (parts : everyPart (everyExpr (careful law.lenient sure names))
      (carefulStmt law.lenient sure names) inLoop kind = true) :
    Walk.Keeps law marked sure (walkStmtKind env kind) := by
  intro walk obeys
  rw [walkStmtKind.eq_def]
  cases kind with
  | expr value => exact walkExpr_obeys known within value parts walk obeys
  | echo values => exact walkExprs_obeys known within values parts _ obeys.impure
  | returns value =>
    cases value with
    | none =>
      dsimp only
      refine Walk.Obeys.leave ?_ _
      exact ⟨obeys.scope, obeys.returns, obeys.assigned⟩
    | some value =>
      have valued := walkExpr_obeys known within value parts walk obeys
      dsimp only
      refine Walk.Obeys.leave ?_ _
      exact ⟨valued.scope, valued.returns.append (valued.localType known within parts
        (copiesNoneStmt_of_careful own)),
        valued.assigned⟩
  | breaks | continues => exact obeys.leave _
  | block body => exact walkStmts_obeys within inLoop body parts walk obeys
  | branch test body span rest =>
    simp only [everyPart, Bool.and_eq_true] at parts
    obtain ⟨⟨inTest, inBody⟩, inRest⟩ := parts
    obtain ⟨confined, others⟩ := confines_chain (confinesStmt_of_careful own)
    obtain ⟨ofTest, ofBody⟩ := confines_branch confined
    have tested := walkTest_obeys known within false false test (mem_sure_or_mayMark test)
      (everyExpr_careful inTest ofTest) (.start walk [])
      (.start obeys fun _ none => absurd none List.not_mem_nil)
    obtain ⟨around, inYes, inNo⟩ := tested.split obeys.scope
    obtain ⟨ended, after⟩ := around.within inYes
      (walkStmts_obeys (Marked.within within) inLoop body (everyStmt_careful inBody ofBody))
    refine Chain.Obeys.close (walkOtherwise_obeys within inLoop obeys.scope.types rest inRest others _
      ?_) _
    exact Chain.Obeys.push ⟨after, fun _ none => absurd none List.not_mem_nil, inNo, tested.fresh⟩
      obeys.scope.types (ended.types.more fun _ => Marked.of_markers) after
  | whileLoop test body =>
    simp only [everyPart, Bool.and_eq_true] at parts
    exact obeys_loop (walkStmts_obeys within true body parts.2) _
      (walkExpr_obeys known within test parts.1 walk obeys)
  | doWhile body test =>
    simp only [everyPart, Bool.and_eq_true] at parts
    have entered : Walk.Obeys law marked sure
        (walk.mapBlock fun block => { block with insideLoop := true }) :=
      ⟨obeys.scope, obeys.returns, obeys.assigned⟩
    have tested := walkExpr_obeys known within test parts.2 _
      (walkStmts_obeys within true body parts.1 _ entered)
    exact ⟨tested.scope, tested.returns, tested.assigned⟩
  | forLoop init test step body =>
    simp only [everyPart, Bool.and_eq_true] at parts
    obtain ⟨⟨⟨inInit, inTest⟩, inStep⟩, inBody⟩ := parts
    exact obeys_loop (walkStmts_obeys within true body inBody) _
      (walkExprs_obeys known within step inStep _ (walkExprs_obeys known within test inTest _
        (walkExprs_obeys known within init inInit walk obeys)))
  | foreach subject key value byRef body =>
    simp only [everyPart, Bool.and_eq_true] at parts
    obtain ⟨⟨⟨inSubject, inKey⟩, inValue⟩, inBody⟩ := parts
    have subjected := walkExpr_obeys known within subject inSubject walk obeys
    have round {types : TypeSet} (elements : types.Every law.Holds) : Walk.Keeps law marked sure
        fun walk => walkStmts env body ((walkKey env key (walkAssign env (.iteration value.span) types
          value (shareSlot byRef value walk))).mapBlock fun block =>
            { block with insideLoop := true }) := by
      intro walk obeys
      have bound := walkKey_obeys known within key inKey _ (walkAssign_obeys known within
        (.iteration value.span) elements value inValue _ (obeys_shareSlot obeys byRef value))
      exact walkStmts_obeys within true body inBody _ ⟨bound.scope, bound.returns, bound.assigned⟩
    have elements := TypeLaw.every_element
      (subjected.localType known within inSubject (copiesNoneStmt_of_careful own))
    have started : (walkExpr env subject walk).block.child.scope.Obeys law marked sure :=
      subjected.scope
    obtain ⟨ended, after⟩ := subjected.within started (round elements)
    exact obeys_checkForeachKey (after.mergeOptional ended.types) key value
  | switch subject cases =>
    simp only [everyPart, Bool.and_eq_true] at parts
    refine Cases.Obeys.close (walkCases_obeys within cases parts.2 _ ?_)
    exact ⟨walkExpr_obeys known within subject parts.1 walk obeys,
      fun _ none => absurd none List.not_mem_nil⟩
  | tryCatch body catches final span =>
    simp only [everyPart, Bool.and_eq_true] at parts
    obtain ⟨⟨inBody, inCatches⟩, inFinal⟩ := parts
    have started : walk.block.child.scope.Obeys law marked sure := obeys.scope
    obtain ⟨triedObeys, afterObeys⟩ :=
      obeys.within started (walkStmts_obeys within inLoop body inBody)
    dsimp only
    generalize walk.within walk.block.child (walkStmts env body) = ended at *
    obtain ⟨tried, after⟩ := ended
    have thrownObeys := obeys_afterThrow afterObeys.scope triedObeys.types
    have caughtObeys := walkCatches_obeys within inLoop thrownObeys catches inCatches
      { walk := after } ⟨afterObeys, fun _ none => absurd none List.not_mem_nil⟩
    dsimp only at *
    generalize afterThrow after.block tried = thrown at *
    generalize walkCatches env thrown catches { walk := after } = caught at *
    cases final with
    | none => exact obeys_closeTry triedObeys.types caughtObeys
    | some last =>
      have entered : thrown.child.scope.Obeys law marked sure := thrownObeys
      obtain ⟨finished, lastObeys⟩ :=
        caughtObeys.walk.within entered (walkStmts_obeys within inLoop last inFinal)
      refine obeys_closeFinally finished.types (obeys_closeTry triedObeys.types ?_)
      exact ⟨obeys_checkFinally lastObeys .., caughtObeys.branches⟩
  | static bindings =>
    exact walkStatics_obeys known within bindings parts (copiesNoneStmt_of_careful own) _ obeys.impure
  | constants items => exact walkConstItems_obeys known within items parts walk obeys
  | global names =>
    refine List.foldlRecOn _ _ obeys.impure fun walk obeys name _ => ?_
    have given : (TypeSet.singleton (.global (Text.withoutDollar name))).Every law.Holds :=
      TypeSet.every_singleton (law.symbol _ rfl)
    exact ((obeys.assign name given).share name).untrack name
  | unset names =>
    have unsure := unsetsNone_of_careful own
    refine List.foldlRecOn _ _ obeys fun walk obeys name member => ?_
    exact (obeys.untrack name).mapScope (obeys.scope.erase (unsure name member))
  | namespaced | imports | function | classLike | nop => exact obeys

theorem walkOtherwise_obeys {marked : String → Prop} {names : List String}
    (within : ∀ name, marked name → name ∈ names) (inLoop : Bool) {initial : Scope}
    (before : initial.Every (law.Permits marked)) (rest : Otherwise)
    (care : everyOtherwise (everyExpr (careful law.lenient sure names))
      (carefulStmt law.lenient sure names) inLoop rest = true)
    (confined : (law.lenient || confinesOtherwise sure inLoop rest) = true) (chain : Chain)
    (obeys : chain.Obeys law marked sure) :
    (walkOtherwise env initial rest chain).Obeys law marked sure := by
  cases rest with
  | nothing =>
    rw [walkOtherwise_nothing]
    exact ⟨obeys.walk, obeys.branches, obeys.no, obeys.fresh⟩
  | orElse body =>
    rw [walkOtherwise]
    obtain ⟨ended, after⟩ := obeys.walk.within obeys.no (walkStmts_obeys within inLoop body care)
    exact obeys.push before (ended.types.more fun _ => .inl) after
  | orIf test body span rest =>
    simp only [everyOtherwise, Bool.and_eq_true] at care
    obtain ⟨⟨inTest, inBody⟩, inRest⟩ := care
    obtain ⟨confined, others⟩ := confines_chain confined
    obtain ⟨ofTest, ofBody⟩ := confines_branch confined
    let inner : Walk := { chain.walk with block := chain.no }
    let guard := walkTest env false false test (.start inner chain.markers)
    have started : inner.Obeys law marked sure := ⟨obeys.no, obeys.walk.returns, obeys.walk.assigned⟩
    have tested := walkTest_obeys known within false false test (mem_sure_or_mayMark test)
      (everyExpr_careful inTest ofTest) _ (.start started obeys.fresh)
    have more : chain.markers ⊆ guard.markers :=
      markers_subset_walkTest env false false test (.start inner chain.markers)
    obtain ⟨around, inYes, inNo⟩ := tested.split obeys.no
    have outer : Walk.Obeys law marked sure
        { (guard.split chain.no).walk with block := chain.walk.block } :=
      ⟨obeys.walk.scope, around.returns, around.assigned⟩
    obtain ⟨ended, after⟩ := outer.within inYes
      (walkStmts_obeys (Marked.within within) inLoop body (everyStmt_careful inBody ofBody))
    rw [walkOtherwise]
    exact walkOtherwise_obeys within inLoop before rest inRest others _
      ((obeys.test more tested.fresh inNo).push before
        (ended.types.more fun _ => Marked.of_markers) after)

theorem walkCases_obeys {marked : String → Prop} {names : List String}
    (within : ∀ name, marked name → name ∈ names) (cases : List Case)
    (care : everyCase (everyExpr (careful law.lenient sure names))
      (carefulStmt law.lenient sure names) cases = true)
    (walked : Cases) (obeys : walked.Obeys law marked sure) :
    (walkCases env cases walked).Obeys law marked sure := by
  cases cases with
  | nil => rwa [walkCases_nil]
  | cons case rest =>
    obtain ⟨test, body, span, announced⟩ := case
    simp only [everyCase, Bool.and_eq_true] at care
    obtain ⟨⟨inTest, inBody⟩, inRest⟩ := care
    have tested := walkChosen_obeys known within test inTest _ obeys.walk
    have entered : Walk.Keeps law marked sure fun walk =>
        let walk := checkCaseBreak env span rest (walkStmts env body walk)
        if walk.block.continues then walk.silently (walkFallThrough env rest) else walk := by
      intro walk obeys
      have ended := obeys_checkCaseBreak env (walkStmts_obeys within true body inBody walk obeys)
        span rest
      dsimp only
      split
      · exact ended.silently (walkFallThrough_obeys within rest inRest)
      · exact ended
    have started : (walkOptional env test walked.walk).block.child.scope.Obeys law marked sure :=
      tested.scope
    obtain ⟨ended, after⟩ := tested.within started entered
    let begun : Cases :=
      { walked with
        walk := walkOptional env test walked.walk
        hasDefault := walked.hasDefault || test.isNone }
    have begunObeys : begun.Obeys law marked sure := ⟨tested, obeys.branches⟩
    rw [walkCases]
    dsimp only
    split
    · exact walkCases_obeys within rest inRest begun begunObeys
    · exact walkCases_obeys within rest inRest _ (begunObeys.push ended.types after)

theorem walkFallThrough_obeys {marked : String → Prop} {names : List String}
    (within : ∀ name, marked name → name ∈ names) (cases : List Case)
    (care : everyCase (everyExpr (careful law.lenient sure names))
      (carefulStmt law.lenient sure names) cases = true) :
    Walk.Keeps law marked sure (walkFallThrough env cases) := by
  intro walk obeys
  cases cases with
  | nil => rwa [walkFallThrough_nil]
  | cons case rest =>
    obtain ⟨test, body, span, announced⟩ := case
    simp only [everyCase, Bool.and_eq_true] at care
    have ended := walkStmts_obeys within true body care.1.2 walk obeys
    rw [walkFallThrough]
    split
    · exact walkFallThrough_obeys within rest care.2 _ ended
    · exact ended

theorem walkCatches_obeys {marked : String → Prop} {names : List String}
    (within : ∀ name, marked name → name ∈ names) (inLoop : Bool) {thrown : Block}
    (started : thrown.scope.Obeys law marked sure) (catches : List Catch)
    (care : everyCatch (everyExpr (careful law.lenient sure names))
      (carefulStmt law.lenient sure names) inLoop catches = true)
    (walked : Catches) (obeys : walked.Obeys law marked sure) :
    (walkCatches env thrown catches walked).Obeys law marked sure := by
  cases catches with
  | nil => rwa [walkCatches_nil]
  | cons clause rest =>
    obtain ⟨types, name, body, span⟩ := clause
    simp only [everyCatch, Bool.and_eq_true] at care
    have bound : Walk.Keeps law marked sure
        fun walk => walkStmts env body (bindCaught env types name walk) :=
      fun walk obeys => walkStmts_obeys within inLoop body care.1 _
        (obeys_bindCaught obeys known.naming types name)
    have entered : thrown.child.scope.Obeys law marked sure := started
    obtain ⟨ended, after⟩ := obeys.walk.within entered bound
    rw [walkCatches]
    exact walkCatches_obeys within inLoop started rest care.2 _ (obeys.push ended.types after)

end

end

end PhpAudit.Flow
