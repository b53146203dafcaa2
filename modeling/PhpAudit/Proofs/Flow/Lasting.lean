/-
This file says which of the types that are assigned to a variable last to the end of some
statements: assignments, blocks, and branches with any tests. On each way through the statements we
look at the last thing that happens to the variable. If it is a plain assignment, the variable may
afterwards be of each type of the assigned value, however many joins are in between.

Other things may rule types out or lose them. A guard narrows the variable for what comes after it;
an assignment inside of a test is not seen where the test is false; and a branch gives back what was
known before it if the variable is still narrowed at its end: it was tested, and what was assigned to
it since was assigned in branches further inside.
-/

import PhpAudit.Proofs.Flow.Leaving
import PhpAudit.Proofs.Flow.Standing

namespace PhpAudit

/-- A test that is not one of the variable leaves it alone. -/
theorem Guard.get?_otherwise_narrowTo {naming : Naming} {name : String} {subject : Expr}
    {ref : ClassRef} (untested : Expr.testedClass? naming name subject ref = none) (guard : Guard)
    (negated inLogic : Bool) :
    (guard.narrowTo naming subject ref negated inLogic).otherwise.scope.get? name =
      guard.otherwise.scope.get? name := by
  unfold narrowTo
  split
  · next other tested found known =>
    have different : other ≠ name := by
      rintro rfl
      rw [Expr.testedClass?, if_pos found, known] at untested
      cases untested
    unfold narrow
    dsimp only
    split
    · show (guard.otherwise.scope.update other _).get? name = _
      unfold Scope.update
      split
      · rw [Scope.get?_put, if_neg different]
      · rfl
    · show (guard.otherwise.scope.narrow other _).get? name = _
      rw [Scope.narrow, Scope.get?_put, if_neg different]
  · rfl

namespace Flow

open Execution

/-! ### Ways through statements -/

/-- What happens to a variable on the way through some statements. -/
inductive Fate where
  /-- A plain assignment of a value of the given types -/
  | assigned (types : TypeSet)
  /-- Another store, in an expression -/
  | stored
  /-- Control goes on where a guard that tests the variable is false -/
  | guarded
  /-- A branch ends that gives back what was known of the variable before -/
  | restored
  /-- A branch ends that the walk takes to be left -/
  | left
deriving DecidableEq

/-- The fate of a variable in a test. -/
def fateInTest (name : String) (test : Expr) : Option Fate :=
  if everyExpr (spares name) test then none else some .stored

/-- The fate of a variable in an expression that stands as a statement. -/
def fateInExpr (env : Env) (name : String) (expr : Expr) (walk : Walk) : Option Fate :=
  match assignedValue? name expr with
  | some value => some (.assigned ((walkExpr env value walk).localType env value))
  | none => fateInTest name expr

/--
Tells whether a branch gives back what was known of a variable before it, from the scopes where it
starts and ends, and from how the variable stands there.
-/
abbrev GivesBack := Scope → Scope → Standing → Standing → Bool

/-- The walk goes by its flags. -/
def flagged (name : String) : GivesBack := fun initial ended _ _ =>
  ended.hasImplicit name && initial.mayHave name

/-- In the program, something is known of the variable before, and it is narrowed at the end. -/
def stillNarrowed : GivesBack := fun _ _ before inside => before.known && inside.narrowed

/-- The fate of a variable at the end of a branch, where it is about to be joined. -/
def fateAtEnd (givenBack : Bool) (branch : Block) (fate : Option Fate) : Option Fate :=
  if branch.continues then
    if givenBack then fate.map fun _ => .restored else fate
  else
    some .left

/-- The fate of a variable where the first test of an `if` is false. -/
def fateInFalse (env : Env) (name : String) (test : Expr) (guarding : Bool) : Option Fate :=
  if guarding && !(test.tests env.naming name true false).isEmpty then some .guarded
  else none

/-- The fates with a test before them, which has to complete. -/
def afterTest (env : Env) (name : String) (test : Expr) (fates : Set (Option Fate)) :
    Set (Option Fate) :=
  {fate | (evaluate env test).EndsIn none ∧ ∃ later ∈ fates, later.or (fateInTest name test) = fate}

/-- The fates of a variable in a branch, at its end. Outside of it the variable stands as `before`. -/
def fatesAtEnd (back : GivesBack) (env : Env) (name : String) (initial : Scope) (before : Standing)
    (body : List Stmt) (start : Walk) (inside : Standing) (fates : Set (Option Fate)) :
    Set (Option Fate) :=
  let branch := (walkStmts env body start).block
  fateAtEnd (back initial branch.scope before (standingAfter env name body start inside)) branch ''
    fates

mutual

/--
The last fates of a variable on the ways through the statements that fall through to the end. Each
expression on such a way can complete.
-/
def fates (back : GivesBack) (env : Env) (name : String) :
    List Stmt → Walk → Standing → Set (Option Fate)
  | [], _, _ => {none}
  | ⟨kind, span⟩ :: rest, walk, standing =>
    let reached := walk.checkDeadCode env ⟨kind, span⟩
    {fate | ∃ first ∈ fatesInKind back env name kind reached standing,
      ∃ later ∈ fates back env name rest (walkStmtKind env kind reached)
        (standingAfterKind env name kind reached standing), later.or first = fate}

/-- The statements are assignments and other expressions, blocks and branches. -/
def fatesInKind (back : GivesBack) (env : Env) (name : String) :
    StmtKind → Walk → Standing → Set (Option Fate)
  | .expr value, walk, _ =>
    {fate | (evaluate env value).EndsIn none ∧ fateInExpr env name value walk = fate}
  | .block body, walk, standing => fates back env name body walk standing
  | .branch test body _ rest, walk, before =>
    let split := splitOn env test [] walk
    let start : Walk := { split.walk with block := split.yes }
    let inside := before.inOutcome env name test
    let branch := (walkStmts env body start).block
    afterTest env name test
      (fatesAtEnd back env name walk.scope before body start inside
          (fates back env name body start inside) ∪
        (·.or (fateInFalse env name test (isGuard test rest branch))) ''
          fatesOtherwise back env name walk.scope before rest
            ((Chain.start split).pushBranch env walk.scope body split split.walk) inside)
  | _, _, _ => ∅

/-- The branches after the first one, where the tests so far are false. -/
def fatesOtherwise (back : GivesBack) (env : Env) (name : String) (initial : Scope)
    (before : Standing) : Otherwise → Chain → Standing → Set (Option Fate)
  | .nothing, _, _ => {none}
  | .orElse body, chain, standing =>
    let start : Walk := { chain.walk with block := chain.no }
    fatesAtEnd back env name initial before body start standing
      (fates back env name body start standing)
  | .orIf test body _ rest, chain, standing =>
    let split := splitOn env test chain.markers { chain.walk with block := chain.no }
    let start : Walk := { split.walk with block := split.yes }
    let inside := standing.inOutcome env name test
    afterTest env name test
      (fatesAtEnd back env name initial before body start inside
          (fates back env name body start inside) ∪
        fatesOtherwise back env name initial before rest (chain.pushBranch env initial body split
          { split.walk with block := chain.walk.block }) inside)

end

/-- The walk gives a variable back only where the rule says so. -/
def GivesBack.Covers (back : GivesBack) (name : String) : Prop :=
  ∀ {initial ended : Scope} {before inside : Standing},
    before.Describes name initial → inside.Describes name ended →
      ended.hasImplicit name = true → initial.mayHave name = true →
        back initial ended before inside = true

theorem covers_flagged (name : String) : (flagged name).Covers name :=
  fun _ _ implicit known => Bool.and_eq_true_iff.mpr ⟨implicit, known⟩

theorem covers_stillNarrowed (name : String) : stillNarrowed.Covers name :=
  fun outside inside implicit known =>
    Bool.and_eq_true_iff.mpr ⟨outside.known known, inside.narrowed implicit⟩

/-! ### What a fate tells -/

variable {env : Env} {name : String} {value : TypeValue}

/--
What the fate of a variable tells about a type. Where nothing happened to the variable, a type that
it may have had is still possible; and so are the types that were assigned to it last.
-/
def Upholds (name : String) (value : TypeValue) (before after : Scope) : Option Fate → Prop
  | none => before.MayBe name value → after.MayBe name value
  | some (.assigned types) => value ∈ types.members → after.MayBe name value
  | some _ => True

theorem Upholds.or {first later : Option Fate} {before between after : Scope}
    (left : Upholds name value before between first)
    (right : Upholds name value between after later) :
    Upholds name value before after (later.or first) := by
  cases later with
  | some fate =>
    rw [Option.some_or]
    cases fate <;> exact right
  | none =>
    rw [Option.none_or]
    match first with
    | none => exact fun mayBe => right (left mayBe)
    | some (.assigned types) => exact fun member => right (left member)
    | some .stored | some .guarded | some .restored | some .left => trivial

/-- Steps that spare the variable come before the others. -/
theorem Upholds.of_spares {before between after : Scope} {fate : Option Fate}
    (other : value ≠ .concrete (issetMarker name)) (spares : Scope.Spares name True before between)
    (upholds : Upholds name value between after fate) : Upholds name value before after fate := by
  have first : Upholds name value before between none := spares.types trivial (.inr other)
  simpa using first.or upholds

/-! ### Expressions and tests -/

theorem fateInTest_cases (name : String) (test : Expr) :
    everyExpr (spares name) test = true ∧ fateInTest name test = none ∨
      fateInTest name test = some .stored := by
  unfold fateInTest
  split <;> simp [*]

theorem upholds_expr (expr : Expr) (other : value ≠ .concrete (issetMarker name)) (walk : Walk) :
    Upholds name value walk.scope (walkExpr env expr walk).scope
      (fateInExpr env name expr walk) := by
  unfold fateInExpr
  cases found : assignedValue? name expr with
  | some assigned =>
    obtain ⟨targetSpan, span, rfl⟩ := assignedValue?_eq_some found
    intro member
    rw [walkExpr, walkKind.eq_def]
    dsimp only
    rw [if_neg Bool.false_ne_true, walkAssign.eq_def]
    exact mayBe_assignVar .plain targetSpan member
  | none =>
    rcases fateInTest_cases name expr with ⟨kept, untouched⟩ | stored
    · dsimp only
      rw [untouched]
      exact (walkExpr_spares expr (fun _ => kept) walk).types trivial (.inr other)
    · dsimp only
      rw [stored]
      trivial

/-- A test can do no more to a variable than store into it. -/
theorem mem_of_mem_afterTest {test : Expr} {fates : Set (Option Fate)} {fate : Fate}
    (member : some fate ∈ afterTest env name test fates) (notStored : fate ≠ .stored) :
    some fate ∈ fates := by
  obtain ⟨_, later, member, equal⟩ := member
  cases later with
  | some later => exact equal ▸ member
  | none =>
    rw [Option.none_or] at equal
    rcases fateInTest_cases name test with ⟨_, untouched⟩ | stored <;> simp_all

/-! ### Branches -/

/-- Types that were assigned in a branch last are possible where it is joined. -/
theorem mayBe_of_assigned {initial before : Scope} {branch : Block} {fate : Option Fate}
    {types : TypeSet} {givenBack : Bool} (upholds : Upholds name value before branch.scope fate)
    (covers : branch.scope.hasImplicit name = true → initial.mayHave name = true →
      givenBack = true)
    (ended : fateAtEnd givenBack branch fate = some (.assigned types))
    (member : value ∈ types.members) :
    branch.continues = true ∧ (branch.restoreImplicit initial).scope.MayBe name value := by
  unfold fateAtEnd at ended
  split at ended
  · next continues =>
    split at ended
    · cases fate <;> cases ended
    · next kept =>
      subst ended
      refine ⟨continues, (Scope.mayBe_congr ?_).mpr (upholds member)⟩
      rw [Block.get?_restoreImplicit, if_neg]
      intro flagged
      exact kept (covers (Bool.and_eq_true_iff.mp flagged).1 (Bool.and_eq_true_iff.mp flagged).2)
  · cases ended

/-- A condition without tests of the variable leaves alone what is known where it is false. -/
theorem get?_otherwise_walkTest (first negated inLogic : Bool) (test : Expr)
    (untested : test.tests env.naming name first negated = []) (guard : Guard) :
    (walkTest env negated inLogic test guard).otherwise.scope.get? name =
      guard.otherwise.scope.get? name := by
  obtain ⟨kind, span⟩ := test
  rw [walkTest.eq_def]
  cases kind with
  | paren inner =>
    rw [Expr.tests] at untested
    exact get?_otherwise_walkTest first negated inLogic inner untested guard
  | binary op left right =>
    cases op with
    | and | or =>
      rw [Expr.tests, List.append_eq_nil_iff] at untested
      exact (get?_otherwise_walkTest _ negated true right untested.2 _).trans
        (get?_otherwise_walkTest first negated true left untested.1 guard)
    | _ => rfl
  | unary op operand =>
    cases op with
    | not =>
      rw [Expr.tests] at untested
      refine (get?_otherwise_walkTest first (!negated) inLogic operand untested _).trans ?_
      rw [Guard.otherwise_markNotEmpty]
    | _ => rfl
  | isset values =>
    show (guard.markIsset negated values).otherwise.scope.get? name = _
    rw [Guard.otherwise_markIsset]
  | instanceOf subject ref =>
    rw [Expr.tests, List.map_eq_nil_iff, Option.toList_eq_nil_iff] at untested
    exact Guard.get?_otherwise_narrowTo untested _ negated inLogic
  | _ => rfl

theorem mayBe_close {chain : Chain} (guarding : Bool) (other : value ≠ .concrete (issetMarker name))
    (mayBe : (if guarding then chain.no else chain.walk.block).scope.MayBe name value ∨
      ∃ branch ∈ Block.ongoing chain.branches, branch.scope.MayBe name value) :
    (chain.close guarding).scope.MayBe name value := by
  unfold Chain.close
  refine Walk.mayBe_dropMarkers.mpr ⟨Block.mayBe_merge.mpr (mayBe.imp_left fun mayBe => ?_),
    fun _ => other⟩
  cases guarding <;> exact mayBe

/-- Where the first test of an `if` is false, and it does not test the variable. -/
theorem mayBe_walkOtherwise_nothing {test : Expr} {body : List Stmt} {walk : Walk}
    (other : value ≠ .concrete (issetMarker name))
    (untested : test.tests env.naming name true false = []) (mayBe : walk.scope.MayBe name value) :
    (walkBranches env test body .nothing walk).no.scope.MayBe name value := by
  let guard := walkTest env false false test (.start walk [])
  have inFalse : guard.otherwise.scope.MayBe name value :=
    (Scope.mayBe_congr (get?_otherwise_walkTest true false false test untested _)).mpr mayBe
  unfold walkBranches
  rw [walkOtherwise]
  exact (guard.spares_split walk.block True).2.types trivial (.inr other) inFalse

/-- What was possible before the statement still is, unless a guard tested the variable. -/
theorem mayBe_branch {test : Expr} {body : List Stmt} {rest : Otherwise} (bodySpan : Span)
    (other : value ≠ .concrete (issetMarker name)) {walk : Walk}
    (unguarded :
      let split := splitOn env test [] walk
      let branch := (walkStmts env body { split.walk with block := split.yes }).block
      fateInFalse env name test (isGuard test rest branch) = none)
    (mayBe : walk.scope.MayBe name value) :
    (walkStmtKind env (.branch test body bodySpan rest) walk).scope.MayBe name value := by
  dsimp only at unguarded
  rw [walkStmtKind_walkBranches]
  refine mayBe_close _ other (.inl ?_)
  split
  · next guarding =>
    rw [guarding] at unguarded
    cases rest with
    | nothing =>
      refine mayBe_walkOtherwise_nothing other ?_ mayBe
      simpa [fateInFalse] using unguarded
    | orElse | orIf => simp [isGuard] at guarding
  · rw [block_walkBranches]
    exact ((walkTest env false false test (.start walk [])).spares_split walk.block True).1.types
      trivial (.inr other) mayBe

section

variable {test : Expr} {body : List Stmt} {rest : Otherwise} (bodySpan : Span)
  (other : value ≠ .concrete (issetMarker name)) {walk : Walk}

include other

/-- The ways through the first branch. -/
theorem upholds_firstBranch {before : Scope} {fate : Option Fate} {givenBack : Bool} :
    let split := splitOn env test [] walk
    let branch := (walkStmts env body { split.walk with block := split.yes }).block
    (branch.scope.hasImplicit name = true → walk.scope.mayHave name = true → givenBack = true) →
      Upholds name value before branch.scope fate →
        Upholds name value walk.scope
          (walkStmtKind env (.branch test body bodySpan rest) walk).scope
          (fateAtEnd givenBack branch fate) := by
  intro split branch covers upholds
  cases ended : fateAtEnd givenBack branch fate with
  | none =>
    have continues : branch.continues = true := by
      unfold fateAtEnd at ended
      split at ended
      · assumption
      · cases ended
    have noGuard : isGuard test rest branch = false := by
      unfold isGuard
      rw [continues]
      rfl
    refine mayBe_branch bodySpan other ?_
    show fateInFalse env name test (isGuard test rest branch) = none
    rw [noGuard]
    rfl
  | some fate =>
    match fate with
    | .assigned types =>
      intro member
      obtain ⟨continues, mayBe⟩ := mayBe_of_assigned upholds covers ended member
      rw [walkStmtKind_walkBranches]
      exact mayBe_close _ other (.inr ⟨_, Block.mem_ongoing (subset_walkOtherwise env rest _ _
        (List.mem_singleton_self _)) continues, mayBe⟩)
    | .stored | .guarded | .restored | .left => trivial

/-- The ways that pass by the first branch. -/
theorem upholds_otherBranches {fate : Option Fate}
    (assigned : ∀ {types}, fate = some (.assigned types) → value ∈ types.members →
      ∃ branch ∈ Block.ongoing (walkBranches env test body rest walk).branches,
        branch.scope.MayBe name value) :
    let split := splitOn env test [] walk
    let branch := (walkStmts env body { split.walk with block := split.yes }).block
    Upholds name value walk.scope (walkStmtKind env (.branch test body bodySpan rest) walk).scope
      (fate.or (fateInFalse env name test (isGuard test rest branch))) := by
  intro split branch
  match fate with
  | some (.assigned types) =>
    intro member
    rw [walkStmtKind_walkBranches]
    exact mayBe_close _ other (.inr (assigned rfl member))
  | some .stored | some .guarded | some .restored | some .left => trivial
  | none =>
    rw [Option.none_or]
    cases unguarded : fateInFalse env name test (isGuard test rest branch) with
    | none => exact mayBe_branch bodySpan other unguarded
    | some fate =>
      unfold fateInFalse at unguarded
      split at unguarded
      · obtain rfl := Option.some.inj unguarded
        trivial
      · cases unguarded

end

/-! ### Statements -/

section

variable {back : GivesBack}

mutual

/-- On each way through the statements, the variable comes out as its fate tells. -/
theorem upholds_walkStmts (covers : back.Covers name)
    (other : value ≠ .concrete (issetMarker name)) (body : List Stmt) {walk : Walk} {standing : Standing}
    (describes : standing.Describes name walk.scope) {fate : Option Fate}
    (member : fate ∈ fates back env name body walk standing) :
    Upholds name value walk.scope (walkStmts env body walk).scope fate := by
  cases body with
  | nil =>
    rw [fates] at member
    obtain rfl := member
    rw [walkStmts_nil]
    exact id
  | cons stmt rest =>
    obtain ⟨kind, span⟩ := stmt
    rw [fates] at member
    obtain ⟨first, inFirst, later, inRest, rfl⟩ := member
    have same : (walk.checkDeadCode env ⟨kind, span⟩).scope = walk.scope :=
      (walk.idle_checkDeadCode env ⟨kind, span⟩).1
    have reached : Scope.Spares name True walk.scope (walk.checkDeadCode env ⟨kind, span⟩).scope :=
      .of_eq same
    have there := describes.of_eq same
    rw [walkStmts, walkStmt]
    exact ((upholds_walkStmtKind covers other kind there inFirst).of_spares other reached).or
      (upholds_walkStmts covers other rest (describes_walkStmtKind kind there) inRest)

theorem upholds_walkStmtKind (covers : back.Covers name)
    (other : value ≠ .concrete (issetMarker name)) (kind : StmtKind) {walk : Walk} {standing : Standing}
    (describes : standing.Describes name walk.scope) {fate : Option Fate}
    (member : fate ∈ fatesInKind back env name kind walk standing) :
    Upholds name value walk.scope (walkStmtKind env kind walk).scope fate := by
  rw [fatesInKind.eq_def] at member
  cases kind with
  | expr expr =>
    obtain ⟨_, rfl⟩ := member
    rw [walkStmtKind]
    exact upholds_expr expr other walk
  | block body =>
    rw [walkStmtKind_block]
    exact upholds_walkStmts covers other body describes member
  | branch test body bodySpan rest =>
    obtain ⟨_, later, member, rfl⟩ := member
    obtain ⟨yes, no, -⟩ := describes.splitOn env test []
    have tested : Upholds name value walk.scope walk.scope (fateInTest name test) := by
      rcases fateInTest_cases name test with ⟨_, untouched⟩ | stored
      · rw [untouched]; exact id
      · rw [stored]; trivial
    refine tested.or ?_
    rcases member with ⟨inner, inBody, rfl⟩ | ⟨inner, inRest, rfl⟩
    · exact upholds_firstBranch bodySpan other (covers describes (describes_walkStmts body yes))
        (upholds_walkStmts covers other body yes inBody)
    · refine upholds_otherBranches bodySpan other ?_
      rintro types rfl inTypes
      exact mayBe_walkOtherwise covers other rest describes no inRest inTypes
  | _ => exact absurd member (Set.notMem_empty fate)

/-- Types that were assigned in one of the branches last are possible at its end. -/
theorem mayBe_walkOtherwise (covers : back.Covers name)
    (other : value ≠ .concrete (issetMarker name)) (rest : Otherwise) {initial : Scope} {chain : Chain}
    {before standing : Standing} (outside : before.Describes name initial)
    (describes : standing.Describes name chain.no.scope) {types : TypeSet}
    (assigned : some (.assigned types) ∈
      fatesOtherwise back env name initial before rest chain standing)
    (member : value ∈ types.members) :
    ∃ branch ∈ Block.ongoing (walkOtherwise env initial rest chain).branches,
      branch.scope.MayBe name value := by
  cases rest with
  | nothing =>
    rw [fatesOtherwise] at assigned
    cases assigned
  | orElse body =>
    rw [fatesOtherwise] at assigned
    obtain ⟨inner, inBody, ended⟩ := assigned
    obtain ⟨continues, mayBe⟩ := mayBe_of_assigned (upholds_walkStmts covers other body describes inBody)
      (covers outside (describes_walkStmts body describes)) ended member
    rw [walkOtherwise]
    exact ⟨_, Block.mem_ongoing (List.mem_append_right _ (List.mem_singleton_self _)) continues,
      mayBe⟩
  | orIf test body span rest =>
    let inner : Walk := { chain.walk with block := chain.no }
    have here : standing.Describes name inner.scope := describes
    obtain ⟨yes, no, -⟩ := here.splitOn env test chain.markers
    rw [fatesOtherwise] at assigned
    rw [walkOtherwise]
    rcases mem_of_mem_afterTest assigned nofun with ⟨inner, inBody, ended⟩ | inRest
    · obtain ⟨continues, mayBe⟩ := mayBe_of_assigned (upholds_walkStmts covers other body yes inBody)
        (covers outside (describes_walkStmts body yes)) ended member
      exact ⟨_, Block.mem_ongoing (subset_walkOtherwise env rest initial _
        (List.mem_append_right _ (List.mem_singleton_self _))) continues, mayBe⟩
    · exact mayBe_walkOtherwise covers other rest outside no inRest member

end

/-! ### Branches that are not left -/

mutual

/-- Each way falls through to the end, so some run of the statements completes. -/
theorem endsIn_of_fates (body : List Stmt) {walk : Walk} {fate : Option Fate}
    {standing : Standing}
    (member : fate ∈ fates back env name body walk standing) : (execute env body).EndsIn none := by
  cases body with
  | nil =>
    rw [execute_nil]
    simp
  | cons stmt rest =>
    obtain ⟨kind, span⟩ := stmt
    rw [fates] at member
    obtain ⟨_, inFirst, _, inRest, _⟩ := member
    rw [execute, executeStmt]
    exact Runs.endsIn_seq_none.mpr ⟨endsIn_of_fatesInKind kind span inFirst,
      endsIn_of_fates rest inRest⟩

theorem endsIn_of_fatesInKind (kind : StmtKind) (span : Span) {walk : Walk} {fate : Option Fate}
    {standing : Standing} (member : fate ∈ fatesInKind back env name kind walk standing) :
    (executeKind env span kind).EndsIn none := by
  rw [fatesInKind.eq_def] at member
  cases kind with
  | expr expr =>
    rw [executeKind]
    exact Runs.endsIn_lift_none.mpr member.1
  | block body =>
    rw [executeKind_block]
    exact endsIn_of_fates body member
  | branch test body bodySpan rest =>
    obtain ⟨completes, later, inBranches, _⟩ := member
    rw [executeKind, Runs.endsIn_seq_none, Runs.endsIn_union]
    refine ⟨Runs.endsIn_lift_none.mpr completes, ?_⟩
    rcases inBranches with ⟨_, inBody, _⟩ | ⟨_, inRest, _⟩
    · exact .inl (endsIn_of_fates body inBody)
    · exact .inr (endsIn_of_fatesOtherwise rest inRest)
  | _ => exact absurd member (Set.notMem_empty fate)

theorem endsIn_of_fatesOtherwise (rest : Otherwise) {initial : Scope} {chain : Chain}
    {before standing : Standing} {fate : Option Fate}
    (member : fate ∈ fatesOtherwise back env name initial before rest chain standing) :
    (executeOtherwise env rest).EndsIn none := by
  cases rest with
  | nothing =>
    rw [executeOtherwise_nothing]
    simp
  | orElse body =>
    rw [fatesOtherwise] at member
    obtain ⟨_, inBody, _⟩ := member
    rw [executeOtherwise]
    exact endsIn_of_fates body inBody
  | orIf test body span rest =>
    rw [fatesOtherwise] at member
    obtain ⟨completes, later, inBranches, _⟩ := member
    rw [executeOtherwise, Runs.endsIn_seq_none, Runs.endsIn_union]
    refine ⟨Runs.endsIn_lift_none.mpr completes, ?_⟩
    rcases inBranches with ⟨_, inBody, _⟩ | inRest
    · exact .inl (endsIn_of_fates body inBody)
    · exact .inr (endsIn_of_fatesOtherwise rest inRest)

end

/-- A branch on a way that falls through is not taken to be left, if the walk keeps pace with it. -/
theorem left_notMem_fatesAtEnd {inLoop : Bool} {body : List Stmt} (paced : Paced env inLoop body)
    {initial : Scope} {before inside : Standing} {start : Walk}
    (inner : some .left ∉ fates back env name body start inside) (live : start.Live) :
    some .left ∉ fatesAtEnd back env name initial before body start inside
      (fates back env name body start inside) := by
  rintro ⟨fate, member, ended⟩
  have continues : (walkStmts env body start).block.continues = true :=
    (follows_body env inLoop body paced).live (endsIn_of_fates body member) live
  unfold fateAtEnd at ended
  rw [if_pos continues] at ended
  split at ended
  · cases fate <;> cases ended
  · exact inner (ended ▸ member)

mutual

theorem left_notMem_fates (inLoop : Bool) (body : List Stmt) (paced : Paced env inLoop body)
    (walk : Walk) (standing : Standing) :
    some .left ∉ fates back env name body walk standing := by
  intro member
  cases body with
  | nil =>
    rw [fates] at member
    cases member
  | cons stmt rest =>
    obtain ⟨kind, span⟩ := stmt
    simp only [Paced, everyStmt, Bool.and_eq_true] at paced
    rw [fates] at member
    obtain ⟨first, inFirst, later, inRest, equal⟩ := member
    cases later with
    | none =>
      rw [Option.none_or] at equal
      exact left_notMem_fatesInKind inLoop kind paced.1.2 _ _ (equal ▸ inFirst)
    | some later =>
      obtain rfl : later = .left := Option.some.inj equal
      exact left_notMem_fates inLoop rest paced.2 _ _ inRest

theorem left_notMem_fatesInKind (inLoop : Bool) (kind : StmtKind)
    (parts : everyPart (everyExpr (pacesExits env)) (followsJumps env) inLoop kind = true) (walk : Walk)
    (standing : Standing) : some .left ∉ fatesInKind back env name kind walk standing := by
  intro member
  rw [fatesInKind.eq_def] at member
  cases kind with
  | expr expr =>
    obtain ⟨_, equal⟩ := member
    unfold fateInExpr at equal
    split at equal
    · cases equal
    · rcases fateInTest_cases name expr with ⟨_, untouched⟩ | stored <;> simp_all
  | block body => exact left_notMem_fates inLoop body parts walk standing member
  | branch test body bodySpan rest =>
    simp only [everyPart, Bool.and_eq_true] at parts
    have completes := Runs.endsIn_lift_none.mpr member.1
    have live := continues_yes env parts.1.1 walk [] walk.block completes
    rcases mem_of_mem_afterTest member nofun with inBody | ⟨inner, inRest, equal⟩
    · exact left_notMem_fatesAtEnd parts.1.2 (left_notMem_fates inLoop body parts.1.2 _ _)
        (Walk.live_withBlock _ live) inBody
    · cases inner with
      | none =>
        simp only [Option.none_or, fateInFalse] at equal
        split at equal <;> cases equal
      | some inner =>
        obtain rfl : inner = .left := Option.some.inj equal
        refine left_notMem_fatesOtherwise inLoop rest parts.2 ?_ _ _ inRest
        exact continues_no env test walk [] walk.block
  | _ => exact absurd member (Set.notMem_empty _)

theorem left_notMem_fatesOtherwise (inLoop : Bool) (rest : Otherwise)
    (paced : everyOtherwise (everyExpr (pacesExits env)) (followsJumps env) inLoop rest = true)
    {initial : Scope} {chain : Chain} (no : chain.no.continues = true) (before standing : Standing) :
    some .left ∉ fatesOtherwise back env name initial before rest chain standing := by
  intro member
  cases rest with
  | nothing =>
    rw [fatesOtherwise] at member
    cases member
  | orElse body =>
    rw [fatesOtherwise] at member
    exact left_notMem_fatesAtEnd paced (left_notMem_fates inLoop body paced _ _) (Walk.live_withBlock _ no)
      member
  | orIf test body span rest =>
    simp only [everyOtherwise, Bool.and_eq_true] at paced
    rw [fatesOtherwise] at member
    have completes := Runs.endsIn_lift_none.mpr member.1
    have live := continues_yes env paced.1.1 { chain.walk with block := chain.no } chain.markers
      chain.no completes
    rcases mem_of_mem_afterTest member nofun with inBody | inRest
    · exact left_notMem_fatesAtEnd paced.1.2 (left_notMem_fates inLoop body paced.1.2 _ _)
        (Walk.live_withBlock _ live) inBody
    · exact left_notMem_fatesOtherwise inLoop rest paced.2
        (continues_no env test { chain.walk with block := chain.no } chain.markers chain.no) _ _
        inRest

end

end

/-! ### Assigned types -/

/--
Types that were assigned last are kept. If a plain assignment is the last thing that happens to a
variable on a way through the statements, then the variable may be of each type of the assigned
value at the end; only the marker of a test by `isset` is not a type to be kept. A branch on the way
undoes what happened in it if the variable was known before, was narrowed by a test, and was not
assigned to directly since. And no branch on such a way is taken to be left, if the walk keeps pace
with the statements.
-/
theorem assigned_types_last (env : Env) (name : String) (body : List Stmt) (walk : Walk) :
    let ways := fates stillNarrowed env name body walk (.start walk.scope name)
    (∀ types, some (.assigned types) ∈ ways → ∀ value ∈ types.members,
      value ≠ .concrete (issetMarker name) → (walkStmts env body walk).scope.MayBe name value) ∧
    ∀ inLoop, Paced env inLoop body → some .left ∉ ways := by
  intro ways
  refine ⟨fun types assigned value member other => ?_,
    fun inLoop paced => left_notMem_fates inLoop body paced walk _⟩
  have upheld : Upholds name value walk.scope (walkStmts env body walk).scope
      (some (.assigned types)) :=
    upholds_walkStmts (covers_stillNarrowed name) other body (Standing.describes_start walk.scope name)
      assigned
  exact upheld member

/-- `if ($x instanceof A) { $x = 1; if ($o) { $x = 'a'; } }` -/
def assignedInside : List Stmt :=
  let inner : Stmt := ⟨.branch ⟨.var "$o", ⟨37, 39⟩⟩ [assignAt 43 (.string (some "a"))] ⟨41, 54⟩
    .nothing, ⟨33, 54⟩⟩
  [⟨.branch (instanceAt 4 "A") [assignAt 23 .integer, inner] ⟨21, 56⟩ .nothing, ⟨0, 56⟩⟩]

/-- After the test both types are possible: the first assignment makes `$x` an ordinary variable, and
the other one may be skipped. -/
theorem assigned_types_last_assignedInside :
    let walk := startWithObject
    let after := (walkStmts default assignedInside walk).scope
    let ways := fates stillNarrowed default "$x" assignedInside walk (.start walk.scope "$x")
    (some (.assigned (.named "int")) ∈ ways ∧ after.MayBe "$x" (.concrete "int")) ∧
      (some (.assigned (.named "string")) ∈ ways ∧ after.MayBe "$x" (.concrete "string")) ∧
      Paced default false assignedInside ∧ some .left ∉ ways := by
  intro walk after ways
  have reads (name : String) (span : Span) : (evaluate default ⟨.var name, span⟩).EndsIn none := by
    simp [evaluate, evaluateKind, Execution.read]
  have tests : (evaluate default (instanceAt 4 "A")).EndsIn none := by
    simp [instanceAt, evaluate, evaluateKind, evaluateRef, Execution.read]
  have stores (value : ExprKind) (simple : ∀ span, evaluateKind default span value = .done)
      (target own span : Span) :
      (evaluate default ⟨.assign ⟨.var "$x", target⟩ ⟨value, own⟩ .assign false, span⟩).EndsIn
        none := by
    simp [evaluate, evaluateKind, place, store, simple]
  have number := stores .integer fun _ => by rw [evaluateKind]
  have text := stores (.string (some "a")) fun _ => by rw [evaluateKind]
  have passedBy : some (.assigned (.named "int")) ∈ ways :=
    ⟨_, ⟨tests, _, .inl ⟨_, ⟨_, ⟨number _ _ _, rfl⟩, _, ⟨_, ⟨reads _ _, _, .inr ⟨_, rfl, rfl⟩, rfl⟩,
      none, rfl, rfl⟩, rfl⟩, rfl⟩, rfl⟩, none, rfl, by decide⟩
  have inside (walk : Walk) (standing : Standing) : some (.assigned (.named "string")) ∈
      fates stillNarrowed default "$x" [assignAt 43 (.string (some "a"))] walk standing :=
    ⟨_, ⟨text _ _ _, rfl⟩, none, rfl, rfl⟩
  have entered : some (.assigned (.named "string")) ∈ ways :=
    ⟨_, ⟨tests, _, .inl ⟨_, ⟨_, ⟨number _ _ _, rfl⟩, _, ⟨_, ⟨reads _ _, _,
      .inl ⟨_, inside _ _, rfl⟩, rfl⟩, none, rfl, rfl⟩, rfl⟩, rfl⟩, rfl⟩, none, rfl, by decide⟩
  have paced : Paced default false assignedInside := by decide
  have kept := assigned_types_last default "$x" assignedInside walk
  exact ⟨⟨passedBy, kept.1 _ passedBy _ (TypeSet.mem_named.mpr rfl) (by decide)⟩,
    ⟨entered, kept.1 _ entered _ (TypeSet.mem_named.mpr rfl) (by decide)⟩, paced,
    kept.2 false paced⟩

/-- `if ($x instanceof A) { if ($o) { $x = 1; } }` -/
def assignedWhereTested : Stmt :=
  ⟨.branch (instanceAt 4 "A") [⟨.branch ⟨.var "$o", ⟨27, 29⟩⟩ [assignAt 33 .integer] ⟨31, 44⟩
    .nothing, ⟨23, 44⟩⟩] ⟨21, 46⟩ .nothing, ⟨0, 46⟩⟩

/-- On one run an integer is assigned last; but the outer branch gives back what was known before. -/
theorem assigned_types_given_back :
    ⟨[.read "$x" ⟨4, 6⟩, .read "$o" ⟨27, 29⟩, .write "$x" ⟨33, 35⟩], none⟩ ∈
        execute default [assignedWhereTested] ∧
      ¬ (walkStmts default [assignedWhereTested] startWithObject).scope.MayBe "$x"
        (.concrete "int") := by
  refine ⟨?_, by decide⟩
  have taken (name : String) (span : Span) :
      ⟨[.read name span], none⟩ ∈ evaluate default ⟨.var name, span⟩ := by
    rw [evaluate, evaluateKind, Execution.read]
    exact Runs.mem_seq_of_mem (Runs.mem_emit _) Runs.mem_attempt
  have tested : ⟨[.read "$x" ⟨4, 6⟩], none⟩ ∈ evaluate default (instanceAt 4 "A") := by
    rw [instanceAt, evaluate, evaluateKind, evaluateRef, Runs.done_seq]
    exact Runs.mem_seq_of_mem (taken "$x" ⟨4, 6⟩) Runs.mem_attempt
  have stored : ⟨[.write "$x" ⟨33, 35⟩], none⟩ ∈ execute default [assignAt 33 .integer] := by
    simp only [assignAt, execute, executeStmt, executeKind, evaluate, evaluateKind, place, store,
      Runs.done_seq, Runs.seq_done, Bool.false_eq_true, if_false]
    exact Runs.mem_lift (Runs.mem_emit _)
  have inner := Runs.mem_seq_of_mem (Runs.mem_lift (taken "$o" ⟨27, 29⟩))
    (Set.mem_union_left (executeOtherwise default .nothing) stored)
  have outer := Runs.mem_seq_of_mem (Runs.mem_lift tested)
    (Set.mem_union_left (executeOtherwise default .nothing) inner)
  simp only [assignedWhereTested, execute, executeStmt, executeKind, Runs.seq_done] at *
  exact outer

/-- `$x = $c ? new A : new B; if (!($x instanceof A)) { exit; }` leaves one of two types. -/
example :
    let new (start : Nat) (className : String) : Expr :=
      ⟨.new (.named className) [], ⟨start, start + 5⟩⟩
    let either := assignAt 0 (.ternary ⟨.var "$c", ⟨5, 7⟩⟩ (some (new 10 "A")) (new 18 "B"))
    let guard : Stmt := ⟨.branch ⟨.unary .not ⟨.paren (instanceAt 32 "A"), ⟨31, 48⟩⟩, ⟨30, 48⟩⟩
      [⟨.expr ⟨.exit false [], ⟨52, 56⟩⟩, ⟨52, 57⟩⟩] ⟨50, 59⟩ .nothing, ⟨26, 59⟩⟩
    let after := (walkStmts default [either, guard] (startWith ["$c"])).scope
    after.MayBe "$x" (.concrete "\\A") ∧ ¬ after.MayBe "$x" (.concrete "\\B") := by
  decide

end Flow

end PhpAudit
