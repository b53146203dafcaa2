/-
This file says which types of a variable survive its tests by `instanceof` in a condition. A condition
is walked once, and each test widens what the tests before it left of the two outcomes. So the true
outcome has the types for which some test speaks; and the false outcome has those against which the
first test speaks, or a negated one.

If a condition can come out true without the help of the tests, because of something else in it, the
types for which no test speaks are lost in the true outcome. And if it can come out false because of
something else, or of a later test that is not negated, types are lost in the false outcome.
-/

import PhpAudit.Proofs.Flow.Enduring
import PhpAudit.Proofs.Flow.Tracking

namespace PhpAudit

/-! ### Tests of a variable -/

/-- A test of a variable by `instanceof` in a condition. -/
structure InstanceTest where
  /-- No other test of the variable stands before it -/
  first : Bool
  /-- It stands under an odd number of negations -/
  negated : Bool
  tested : String

namespace InstanceTest

/-- Whether the test speaks for its condition if the variable is of the type. -/
def supports (test : InstanceTest) (value : TypeValue) : Bool :=
  value.isNamed test.tested != test.negated

/-- Whether the false outcome is given the types against which the test speaks. -/
def counts (test : InstanceTest) : Bool :=
  test.first || test.negated

/-! How a test may come out -/

/-- As the type of the variable decides. -/
def decidedBy (value : TypeValue) (test : InstanceTest) (outcome : Bool) : Bool :=
  outcome == value.isNamed test.tested

/-- Against its condition. -/
def opposing (test : InstanceTest) (outcome : Bool) : Bool :=
  outcome == test.negated

/-- In favour of its condition, if it counts for the false outcome, and else either way. -/
def overlooked (test : InstanceTest) (outcome : Bool) : Bool :=
  !test.counts || outcome != test.negated

theorem opposing_of_decidedBy {value : TypeValue} {test : InstanceTest} {outcome : Bool}
    (opposed : test.supports value = false) (decided : test.decidedBy value outcome = true) :
    test.opposing outcome = true := by
  simp only [supports, decidedBy, opposing, bne_eq_false_iff_eq, beq_iff_eq] at *
  exact decided.trans opposed

theorem overlooked_of_decidedBy {value : TypeValue} {test : InstanceTest} {outcome : Bool}
    (supported : test.counts = true → test.supports value = true)
    (decided : test.decidedBy value outcome = true) : test.overlooked outcome = true := by
  simp only [supports, decidedBy, overlooked, Bool.or_eq_true, Bool.not_eq_true', beq_iff_eq,
    bne_iff_ne] at *
  rw [decided]
  exact (Bool.eq_false_or_eq_true test.counts).symm.imp_right supported

end InstanceTest

namespace Expr

variable (naming : Naming) (name : String)

/-- The class that a test of the variable asks for. -/
def testedClass? (subject : Expr) (ref : ClassRef) : Option String :=
  if subject.variableName? = some name then ref.name? naming else none

/-- The tests of the variable in a condition, in order. -/
def tests (first negated : Bool) : Expr → List InstanceTest
  | ⟨.paren inner, _⟩ => inner.tests first negated
  | ⟨.unary .not operand, _⟩ => operand.tests first (!negated)
  | ⟨.binary .and left right, _⟩ | ⟨.binary .or left right, _⟩ =>
    left.tests first negated ++
      right.tests (first && (left.tests first negated).isEmpty) negated
  | ⟨.instanceOf subject ref, _⟩ =>
    (testedClass? naming name subject ref).toList.map fun tested => { first, negated, tested }
  | _ => []

/--
Whether a condition may come out in the given way if each test of the variable comes out in a way that
is allowed for it. Everything else in the condition may come out either way.
-/
def mayComeOut (allowed : InstanceTest → Bool → Bool) (first negated : Bool) :
    Expr → Bool → Bool
  | ⟨.paren inner, _⟩, outcome => inner.mayComeOut allowed first negated outcome
  | ⟨.unary .not operand, _⟩, outcome => operand.mayComeOut allowed first (!negated) (!outcome)
  | ⟨.binary .and left right, _⟩, outcome =>
    let one := left.mayComeOut allowed first negated outcome
    let other := right.mayComeOut allowed
      (first && (left.tests naming name first negated).isEmpty) negated outcome
    if outcome then one && other else one || other
  | ⟨.binary .or left right, _⟩, outcome =>
    let one := left.mayComeOut allowed first negated outcome
    let other := right.mayComeOut allowed
      (first && (left.tests naming name first negated).isEmpty) negated outcome
    if outcome then one || other else one && other
  | ⟨.instanceOf subject ref, _⟩, outcome =>
    (testedClass? naming name subject ref).all fun tested =>
      allowed { first, negated, tested } outcome
  | _, _ => true

variable {naming name}

/-- What may come out depends on how the tests of the variable may come out. -/
theorem mayComeOut_mono {allowed wider : InstanceTest → Bool → Bool} (first negated : Bool)
    (condition : Expr)
    (included : ∀ test ∈ condition.tests naming name first negated, ∀ outcome,
      allowed test outcome = true → wider test outcome = true)
    (outcome : Bool)
    (comesOut : condition.mayComeOut naming name allowed first negated outcome = true) :
    condition.mayComeOut naming name wider first negated outcome = true := by
  obtain ⟨kind, span⟩ := condition
  cases kind with
  | paren inner =>
    rw [tests] at included
    rw [mayComeOut] at comesOut ⊢
    exact mayComeOut_mono first negated inner included outcome comesOut
  | unary op operand =>
    cases op with
    | not =>
      rw [tests] at included
      rw [mayComeOut] at comesOut ⊢
      exact mayComeOut_mono first (!negated) operand included (!outcome) comesOut
    | _ => rfl
  | binary op left right =>
    cases op with
    | and | or =>
      rw [tests] at included
      rw [mayComeOut] at comesOut ⊢
      have one := mayComeOut_mono first negated left
        (fun test member => included test (List.mem_append_left _ member)) outcome
      have other := mayComeOut_mono _ negated right
        (fun test member => included test (List.mem_append_right _ member)) outcome
      cases outcome <;> grind
    | _ => rfl
  | instanceOf subject ref =>
    rw [tests] at included
    rw [mayComeOut] at comesOut ⊢
    cases asked : testedClass? naming name subject ref with
    | none => rfl
    | some tested =>
      rw [asked] at included comesOut
      exact included _ (.head _) outcome comesOut
  | _ => rfl

end Expr

/-! ### One test -/

namespace Scope

variable {scope : Scope} {name : String} {value : TypeValue}

theorem mem_types? :
    value ∈ ((scope.types? name).getD .empty).members ↔ scope.MayBe name value := by
  unfold types? MayBe
  cases scope.get? name <;> simp [TypeSet.empty]

/-- A variable that is known gets more types. -/
theorem mayBe_widen (known : scope.mayHave name = true) (types : TypeSet) (value : TypeValue) :
    (scope.update name fun info => { info with types := info.types.union types }).MayBe name value ↔
      scope.MayBe name value ∨ value ∈ types.members := by
  obtain ⟨info, found⟩ := Option.isSome_iff_exists.mp known
  unfold update
  rw [found]
  dsimp only
  rw [mayBe_put_self]
  simp [MayBe, found, TypeSet.mem_union]

theorem hasImplicit_widen (types : TypeSet) :
    (scope.update name fun info => { info with types := info.types.union types }).hasImplicit name =
      scope.hasImplicit name := by
  unfold update
  split
  · next info found =>
    rw [hasImplicit_put, if_pos rfl]
    simp [hasImplicit, found]
  · rfl

end Scope

namespace Guard

/--
What the tests of a variable so far leave of a type that the variable had. Each outcome has it as long
as there was no test. Afterwards the true outcome has it if some test speaks for it, and the false
outcome if some test that counts speaks against it; one of them always has it.
-/
structure Covers (name : String) (value : TypeValue) (seen : List InstanceTest) (guard : Guard) :
    Prop where
  walk : guard.walk.scope.has name = true
  otherwise : guard.otherwise.scope.has name = true
  implicit : seen ≠ [] → guard.walk.scope.hasImplicit name = true
  untested : seen = [] →
    guard.walk.scope.MayBe name value ∧ guard.otherwise.scope.MayBe name value
  yes : (∃ test ∈ seen, test.supports value = true) → guard.walk.scope.MayBe name value
  no : (∃ test ∈ seen, test.counts = true ∧ test.supports value = false) →
    guard.otherwise.scope.MayBe name value
  either : guard.walk.scope.MayBe name value ∨ guard.otherwise.scope.MayBe name value

variable {name tested : String} {value : TypeValue} {seen : List InstanceTest} {guard after : Guard}

/-- The true outcome of a test is given the types for which it speaks. -/
theorem mem_of_supports {known : TypeSet} {negated : Bool}
    (supported : (value.isNamed tested != negated) = true)
    (possible : value ∈ known.members ∨ negated = false) :
    value ∈ (if negated then known.filter fun value => !value.isNamed tested
      else TypeSet.named tested).members := by
  cases negated with
  | false => exact TypeSet.mem_named.mpr (TypeValue.isNamed_iff.mp (by simpa using supported))
  | true =>
    exact TypeSet.mem_filter.mpr ⟨possible.resolve_right (by decide), by simpa using supported⟩

/-- The false outcome of a test is given the types against which it speaks. -/
theorem mem_of_opposes {known : TypeSet} {negated : Bool}
    (opposed : (value.isNamed tested != negated) = false)
    (possible : value ∈ known.members ∨ negated = true) :
    value ∈ (if negated then TypeSet.named tested
      else known.filter fun value => !value.isNamed tested).members := by
  cases negated with
  | false =>
    exact TypeSet.mem_filter.mpr ⟨possible.resolve_right (by decide), by simpa using opposed⟩
  | true => exact TypeSet.mem_named.mpr (TypeValue.isNamed_iff.mp (by simpa using opposed))

namespace Covers

/-- Steps that spare the variable in both outcomes. -/
theorem trans (covers : Covers name value seen guard)
    (walk : Scope.Spares name True guard.walk.scope after.walk.scope)
    (otherwise : Scope.Spares name True guard.otherwise.scope after.otherwise.scope) :
    Covers name value seen after := by
  have yes : guard.walk.scope.MayBe name value → after.walk.scope.MayBe name value :=
    walk.types trivial (.inl covers.walk)
  have no : guard.otherwise.scope.MayBe name value → after.otherwise.scope.MayBe name value :=
    otherwise.types trivial (.inl covers.otherwise)
  exact
    { walk := walk.has covers.walk
      otherwise := otherwise.has covers.otherwise
      implicit := fun tested => (walk.implicit trivial covers.walk).trans (covers.implicit tested)
      untested := fun nothing => (covers.untested nothing).imp yes no
      yes := fun supported => yes (covers.yes supported)
      no := fun opposed => no (covers.no opposed)
      either := covers.either.imp yes no }

theorem mapWalk (covers : Covers name value seen guard) {steps : Walk → Walk}
    (spares : Scope.Spares name True guard.walk.scope (steps guard.walk).scope) :
    Covers name value seen (guard.mapWalk steps) :=
  covers.trans spares (.refl _)

theorem mark (covers : Covers name value seen guard) (guarded : Expr) :
    Covers name value seen (guard.mark guarded) := by
  refine covers.trans ?_ (.of_eq (by rw [otherwise_mark]))
  unfold Guard.mark
  split
  · exact .refl _
  · split
    · exact .refl _
    · exact .add ..

theorem markNotEmpty (covers : Covers name value seen guard) (negated : Bool) (operand : Expr) :
    Covers name value seen (guard.markNotEmpty negated operand) := by
  unfold Guard.markNotEmpty
  split
  · split
    · exact covers
    · exact covers.mark _
  · exact covers

theorem markIsset (covers : Covers name value seen guard) (negated : Bool) (values : List Expr) :
    Covers name value seen (guard.markIsset negated values) := by
  unfold Guard.markIsset
  split
  · exact covers
  · exact List.foldlRecOn (motive := Covers name value seen) _ _ covers
      fun _ covers guarded _ => covers.mark guarded

/-- A test of another variable. -/
theorem narrow_of_ne (covers : Covers name value seen guard) {other : String}
    (different : other ≠ name) (tested : String) (negated inLogic : Bool) :
    Covers name value seen (guard.narrow other tested negated inLogic) := by
  have updated (scope : Scope) (change : VarInfo → VarInfo) :
      Scope.Spares name True scope (scope.update other change) := by
    unfold Scope.update
    split
    · exact .of_get? (by rw [Scope.get?_put, if_neg different])
    · exact .refl _
  have narrowed (scope : Scope) (types : TypeSet) :
      Scope.Spares name True scope (scope.narrow other types) :=
    .of_get? (by rw [Scope.narrow, Scope.get?_put, if_neg different])
  unfold Guard.narrow
  dsimp only
  split
  · exact covers.trans (updated _ _) (updated _ _)
  · exact covers.trans (narrowed _ _) (narrowed _ _)

/-- Outside of logical operators, and at the first test of a condition, a variable gets new types. -/
theorem narrow_first (covers : Covers name value [] guard) (tested : String)
    (negated inLogic : Bool) (replaced : (inLogic && guard.walk.scope.hasImplicit name) = false) :
    Covers name value [⟨true, negated, tested⟩] (guard.narrow name tested negated inLogic) := by
  have known := Scope.mem_types?.mpr (covers.untested rfl).2
  have has := (guard.spares_narrow name tested negated inLogic).walk covers.walk
  have hasOtherwise := (guard.spares_narrow name tested negated inLogic).otherwise covers.otherwise
  unfold Guard.narrow at *
  dsimp only at *
  rw [replaced, if_neg Bool.false_ne_true] at *
  exact
    { walk := has
      otherwise := hasOtherwise
      implicit := fun _ => (Scope.hasImplicit_put ..).trans (if_pos rfl)
      untested := fun nothing => by cases nothing
      yes := fun ⟨test, member, supported⟩ => by
        rw [List.mem_singleton.mp member] at supported
        exact Scope.mayBe_put_self.mpr (mem_of_supports supported (.inl known))
      no := fun ⟨test, member, _, opposed⟩ => by
        rw [List.mem_singleton.mp member] at opposed
        exact Scope.mayBe_put_self.mpr (mem_of_opposes opposed (.inl known))
      either := (Bool.eq_false_or_eq_true (value.isNamed tested != negated)).imp
        (fun supported => Scope.mayBe_put_self.mpr (mem_of_supports supported (.inl known)))
        fun opposed => Scope.mayBe_put_self.mpr (mem_of_opposes opposed (.inl known)) }

/-- A test that comes after others only adds types to both outcomes. -/
theorem narrow_again (covers : Covers name value seen guard) (tested : String)
    (negated inLogic : Bool) (widened : (inLogic && guard.walk.scope.hasImplicit name) = true) :
    Covers name value (seen ++ [⟨seen.isEmpty, negated, tested⟩])
      (guard.narrow name tested negated inLogic) := by
  have has := (guard.spares_narrow name tested negated inLogic).walk covers.walk
  have hasOtherwise := (guard.spares_narrow name tested negated inLogic).otherwise covers.otherwise
  have implicit := (Bool.and_eq_true_iff.mp widened).2
  have inYes (types : TypeSet) :=
    Scope.mayBe_widen (Scope.mayHave_of_has covers.walk) types value
  have inNo (types : TypeSet) :=
    Scope.mayBe_widen (Scope.mayHave_of_has covers.otherwise) types value
  unfold Guard.narrow at *
  dsimp only at *
  rw [widened, if_pos rfl] at *
  exact
    { walk := has
      otherwise := hasOtherwise
      implicit := fun _ => (Scope.hasImplicit_widen _).trans implicit
      untested := fun nothing => by simp at nothing
      yes := fun ⟨test, member, supported⟩ => by
        refine (inYes _).mpr ?_
        rcases List.mem_append.mp member with member | member
        · exact .inl (covers.yes ⟨test, member, supported⟩)
        · rw [List.mem_singleton.mp member] at supported
          exact covers.either.imp_right fun mayBe =>
            mem_of_supports supported (.inl (Scope.mem_types?.mpr mayBe))
      no := fun ⟨test, member, counts, opposed⟩ => by
        refine (inNo _).mpr ?_
        rcases List.mem_append.mp member with member | member
        · exact .inl (covers.no ⟨test, member, counts, opposed⟩)
        · rw [List.mem_singleton.mp member] at counts opposed
          rcases Bool.or_eq_true_iff.mp counts with first | negates
          · exact .inl (covers.untested (List.isEmpty_iff.mp first)).2
          · exact .inr (mem_of_opposes opposed (.inr negates))
      either := covers.either.imp (fun mayBe => (inYes _).mpr (.inl mayBe))
        fun mayBe => (inNo _).mpr (.inl mayBe) }

/-- An `instanceof` test of any expression. -/
theorem narrowTo (covers : Covers name value seen guard) (naming : Naming) (subject : Expr)
    (ref : ClassRef) (span : Span) (negated inLogic : Bool) (alone : inLogic = false → seen = []) :
    Covers name value
      (seen ++ Expr.tests naming name seen.isEmpty negated ⟨.instanceOf subject ref, span⟩)
      (guard.narrowTo naming subject ref negated inLogic) := by
  rw [Expr.tests]
  unfold Guard.narrowTo Expr.testedClass?
  cases found : subject.variableName? with
  | none => simpa using covers
  | some other =>
    cases known : ref.name? naming with
    | none => simpa using covers
    | some tested =>
      by_cases same : other = name
      · subst same
        rw [if_pos rfl]
        cases replaced : inLogic && guard.walk.scope.hasImplicit other with
        | false =>
          have first : seen = [] := by
            rcases Bool.and_eq_false_iff.mp replaced with outside | explicit
            · exact alone outside
            · by_contra tested
              rw [covers.implicit tested] at explicit
              cases explicit
          subst first
          exact covers.narrow_first tested negated inLogic replaced
        | true => exact covers.narrow_again tested negated inLogic replaced
      · rw [if_neg fun equal => same (Option.some.inj equal)]
        simpa using covers.narrow_of_ne same tested negated inLogic

end Covers

end Guard

namespace Flow

/-! ### Conditions -/

/-- The walk over a condition that does not store into the variable. -/
theorem walkTest_covers (env : Env) {name : String} {value : TypeValue} (negated inLogic : Bool)
    (condition : Expr) (spared : everyExpr (spares name) condition = true)
    {seen : List InstanceTest} (alone : inLogic = false → seen = []) {guard : Guard}
    (covers : Guard.Covers name value seen guard) :
    Guard.Covers name value (seen ++ condition.tests env.naming name seen.isEmpty negated)
      (walkTest env negated inLogic condition guard) := by
  obtain ⟨kind, span⟩ := condition
  simp only [everyExpr, Bool.and_eq_true] at spared
  obtain ⟨own, parts⟩ := spared
  have read : Guard.Covers name value seen (guard.mapWalk (walkKind env span kind)) :=
    covers.mapWalk (walkKind_spares span kind (fun _ => own) (fun _ => parts) guard.walk)
  rw [walkTest.eq_def]
  cases kind with
  | paren inner =>
    rw [Expr.tests]
    exact walkTest_covers env negated inLogic inner parts alone covers
  | binary op left right =>
    simp only [everyOperand, Bool.and_eq_true] at parts
    cases op with
    | and | or =>
      have one := walkTest_covers env negated true left parts.1 nofun covers
      have both := walkTest_covers env negated true right parts.2 nofun one
      have emptyAppend (first second : List InstanceTest) :
          (first ++ second).isEmpty = (first.isEmpty && second.isEmpty) := by
        cases first <;> rfl
      rw [emptyAppend, List.append_assoc] at both
      rw [Expr.tests]
      exact { both with }
    | _ => simpa [Expr.tests] using read
  | unary op operand =>
    cases op with
    | not =>
      rw [Expr.tests]
      exact walkTest_covers env (!negated) inLogic operand parts alone
        (covers.markNotEmpty negated operand)
    | _ => simpa [Expr.tests] using read
  | isset values =>
    have probed : Guard.Covers name value seen
        ((guard.markIsset negated values).mapWalk (walkProbes env values)) :=
      (covers.markIsset negated values).mapWalk (walkProbes_spares values (fun _ => parts) _)
    simpa [Expr.tests] using probed
  | instanceOf subject ref =>
    simp only [everyOperand, Bool.and_eq_true] at parts
    have operands : Guard.Covers name value seen
        (guard.mapWalk fun walk => walkRef env ref (walkExpr env subject walk)) :=
      covers.mapWalk ((walkExpr_spares subject (fun _ => parts.1) guard.walk).trans
        (walkRef_spares ref (fun _ => parts.2) _))
    exact operands.narrowTo env.naming subject ref span negated inLogic alone
  | _ => simpa [Expr.tests] using read

/--
Tests by `instanceof` in a condition keep the types for which it may come out. A type that the variable
may have, and for which the condition may come out true, is kept in the true outcome, unless the
condition may come out true although all tests of the variable speak against it. A type for which it
may come out false is kept in the false outcome, unless the condition may come out false although the
first test of the variable and those under negations speak for it.
-/
theorem narrowing_keeps_types (env : Env) (condition : Expr) (markers : List String) (walk : Walk)
    (name : String) (value : TypeValue) (spared : everyExpr (spares name) condition = true)
    (defined : walk.scope.has name = true) (possible : walk.scope.MayBe name value) :
    let mayComeOut := condition.mayComeOut env.naming name
    let untested := condition.tests env.naming name true false = []
    let split := splitOn env condition markers walk
    (mayComeOut (·.decidedBy value) true false true = true →
      untested ∨ mayComeOut (·.opposing) true false true = false →
        split.yes.scope.MayBe name value) ∧
    (mayComeOut (·.decidedBy value) true false false = true →
      untested ∨ mayComeOut (·.overlooked) true false false = false →
        split.no.scope.MayBe name value) := by
  intro mayComeOut untested split
  have started : Guard.Covers name value [] (.start walk markers) :=
    { walk := defined
      otherwise := defined
      implicit := fun tested => absurd rfl tested
      untested := fun _ => ⟨possible, possible⟩
      yes := fun ⟨_, member, _⟩ => absurd member List.not_mem_nil
      no := fun ⟨_, member, _⟩ => absurd member List.not_mem_nil
      either := .inl possible }
  have covers := walkTest_covers env false false condition spared (fun _ => rfl) started
  have toSplit (kept : (walkTest env false false condition
      (.start walk markers)).otherwise.scope.MayBe name value) : split.no.scope.MayBe name value :=
    ((Guard.spares_split walk.block True).2.types trivial (.inl covers.otherwise)) kept
  constructor
  · rintro comesOut (nothing | unaided)
    · exact (covers.untested nothing).1
    · refine covers.yes ?_
      by_contra unsupported
      refine absurd (Expr.mayComeOut_mono true false condition (fun test member outcome decided => ?_)
        true comesOut) (Bool.eq_false_iff.mp unaided)
      refine InstanceTest.opposing_of_decidedBy ?_ decided
      exact Bool.eq_false_iff.mpr fun supported => unsupported ⟨test, member, supported⟩
  · rintro comesOut (nothing | unaided)
    · exact toSplit (covers.untested nothing).2
    · refine toSplit (covers.no ?_)
      by_contra unopposed
      refine absurd (Expr.mayComeOut_mono true false condition (fun test member outcome decided => ?_)
        false comesOut) (Bool.eq_false_iff.mp unaided)
      refine InstanceTest.overlooked_of_decidedBy (fun counts => ?_) decided
      exact Bool.eq_true_of_not_eq_false fun opposed => unopposed ⟨test, member, counts, opposed⟩

/-- A walk in whose scope `$x` is an object of one of three classes, and `$o` an integer. -/
def startWithObject : Walk :=
  let classes := TypeSet.ofList [.concrete "\\A", .concrete "\\B", .concrete "\\D"]
  .start ((Scope.empty.add "$x" classes true).add "$o" (.named "int") true) { enabled := true }

/-- `$x instanceof ...` -/
def instanceAt (start : Nat) (tested : String) : Expr :=
  ⟨.instanceOf ⟨.var "$x", ⟨start, start + 2⟩⟩ (.named tested), ⟨start, start + 15⟩⟩

/-- `$x instanceof A || !($x instanceof B)` -/
def eitherTest : Expr :=
  ⟨.binary .or (instanceAt 0 "A") ⟨.unary .not ⟨.paren (instanceAt 21 "B"), ⟨20, 37⟩⟩, ⟨19, 37⟩⟩,
    ⟨0, 37⟩⟩

/-- A condition that nothing but its tests decides, and whose first test is one of two alternatives. -/
theorem narrowing_keeps_types_eitherTest :
    let split := splitOn default eitherTest [] startWithObject
    everyExpr (spares "$x") eitherTest = true ∧ startWithObject.scope.has "$x" = true ∧
      startWithObject.scope.MayBe "$x" (.concrete "\\D") ∧
      startWithObject.scope.MayBe "$x" (.concrete "\\B") ∧
      split.yes.scope.MayBe "$x" (.concrete "\\D") ∧ split.no.scope.MayBe "$x" (.concrete "\\B") := by
  intro split
  have spared : everyExpr (spares "$x") eitherTest = true := by decide
  have defined : startWithObject.scope.has "$x" = true := by decide
  have neither : startWithObject.scope.MayBe "$x" (.concrete "\\D") := by decide
  have second : startWithObject.scope.MayBe "$x" (.concrete "\\B") := by decide
  exact ⟨spared, defined, neither, second,
    (narrowing_keeps_types default eitherTest [] startWithObject "$x" _ spared defined neither).1
      (by decide) (.inr (by decide)),
    (narrowing_keeps_types default eitherTest [] startWithObject "$x" _ spared defined second).2
      (by decide) (.inr (by decide))⟩

/--
`$x instanceof A || $o` may be true for an object of another class, and
`$x instanceof A && $x instanceof B` is false for one of the first class; both types are lost.
-/
theorem narrowing_loses_types :
    let either : Expr := ⟨.binary .or (instanceAt 0 "A") ⟨.var "$o", ⟨19, 21⟩⟩, ⟨0, 21⟩⟩
    let both : Expr := ⟨.binary .and (instanceAt 0 "A") (instanceAt 19 "B"), ⟨0, 34⟩⟩
    let naming := (default : Env).naming
    (startWithObject.scope.has "$x" = true ∧ startWithObject.scope.MayBe "$x" (.concrete "\\A") ∧
      startWithObject.scope.MayBe "$x" (.concrete "\\B")) ∧
    (either.mayComeOut naming "$x" (·.decidedBy (.concrete "\\B")) true false true = true ∧
      ¬ (splitOn default either [] startWithObject).yes.scope.MayBe "$x" (.concrete "\\B")) ∧
    (both.mayComeOut naming "$x" (·.decidedBy (.concrete "\\A")) true false false = true ∧
      ¬ (splitOn default both [] startWithObject).no.scope.MayBe "$x" (.concrete "\\A")) := by
  decide

end Flow

end PhpAudit
