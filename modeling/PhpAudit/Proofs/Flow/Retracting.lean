/-
This file says which variables are gone at the end of an `if` whose tests ask whether they are set. A
test by `isset` or `!empty` gives a variable that is not defined its marker as a type, and where the
branches are joined the marker is retracted. If no other type is left, then so is the variable: whether
it was known before the branches, or a branch stored it, is not asked.

So a variable lasts if some type of it is known; and it is lost if the values that were stored into it
have no known type.
-/

import PhpAudit.Proofs.Flow.Ignoring
import PhpAudit.Proofs.Flow.Lasting

namespace PhpAudit

/-! ### Retracting markers -/

/-- Some type of the variable is known, apart from the marker. -/
def Scope.Typed (scope : Scope) (name : String) : Prop :=
  ∃ value, value ≠ .concrete (issetMarker name) ∧ scope.MayBe name value

instance (scope : Scope) (name : String) : Decidable (scope.Typed name) :=
  decidable_of_iff ((scope.get? name).any fun info =>
      info.types.members.any fun value => decide (value ≠ .concrete (issetMarker name))) (by
    unfold Scope.Typed Scope.MayBe
    simp only [Option.any_eq_true, List.any_eq_true, decide_eq_true_eq]
    grind)

theorem VarInfo.isSome_retract {name : String} {info : VarInfo} :
    (info.retract name).isSome = true ↔
      ∃ value ∈ info.types.members, value ≠ .concrete (issetMarker name) := by
  have named (value : TypeValue) : (!value.isNamed (issetMarker name)) = true ↔
      value ≠ .concrete (issetMarker name) := by
    rw [Bool.not_eq_true', Bool.eq_false_iff, ne_eq, TypeValue.isNamed_iff]
  unfold retract TypeSet.isEmpty TypeSet.filter
  dsimp only
  split
  · next none =>
    rw [List.isEmpty_iff, List.filter_eq_nil_iff] at none
    refine iff_of_false Bool.false_ne_true ?_
    rintro ⟨value, member, other⟩
    exact none value member ((named value).mpr other)
  · next some =>
    rw [List.isEmpty_iff] at some
    obtain ⟨value, member⟩ := List.exists_mem_of_ne_nil _ some
    obtain ⟨member, other⟩ := List.mem_filter.mp member
    exact iff_of_true rfl ⟨value, member, (named value).mp other⟩

theorem VarInfo.always_of_retract {name : String} {info left : VarInfo}
    (retracted : info.retract name = some left) : left.always = info.always := by
  unfold retract at retracted
  dsimp only at retracted
  split at retracted
  · cases retracted
  · rw [← Option.some.inj retracted]

namespace Walk

variable {markers : List String} {walk : Walk} {name : String}

theorem isSome_retract_iff {info : VarInfo} (found : walk.scope.get? name = some info) :
    (info.retract name).isSome = true ↔ walk.scope.Typed name := by
  rw [VarInfo.isSome_retract]
  unfold Scope.Typed Scope.MayBe
  rw [found]
  grind

/-- A variable that was not marked, or that has another type, is as defined as before. -/
theorem definedness_dropMarkers (kept : name ∈ markers → walk.scope.Typed name) :
    (walk.dropMarkers markers).scope.definedness name = walk.scope.definedness name := by
  by_cases member : name ∈ markers
  · unfold Scope.definedness
    rw [get?_dropMarkers_of_mem member]
    cases found : walk.scope.get? name with
    | none => rfl
    | some info =>
      obtain ⟨left, retracted⟩ :=
        Option.isSome_iff_exists.mp ((isSome_retract_iff found).mpr (kept member))
      rw [Option.bind_some, retracted, Option.map_some, Option.map_some,
        VarInfo.always_of_retract retracted]
  · exact Scope.definedness_of_get? (get?_dropMarkers member walk)

/-- A variable that was marked, and that has no other type, is dropped. -/
theorem mayHave_dropMarkers (member : name ∈ markers) (untyped : ¬ walk.scope.Typed name) :
    (walk.dropMarkers markers).scope.mayHave name = false := by
  unfold Scope.mayHave
  rw [get?_dropMarkers_of_mem member]
  cases found : walk.scope.get? name with
  | none => rfl
  | some info =>
    rw [← isSome_retract_iff found, Bool.not_eq_true] at untyped
    exact untyped

/-- A variable outlasts the retraction if it was not marked or has another type. -/
theorem mayHave_dropMarkers_iff :
    (walk.dropMarkers markers).scope.mayHave name = true ↔
      walk.scope.mayHave name = true ∧ (name ∈ markers → walk.scope.Typed name) := by
  by_cases kept : name ∈ markers → walk.scope.Typed name
  · rw [Scope.mayHave_of_definedness (definedness_dropMarkers kept)]
    exact (and_iff_left kept).symm
  · obtain ⟨member, untyped⟩ := Classical.not_imp.mp kept
    rw [mayHave_dropMarkers member untyped]
    exact iff_of_false Bool.false_ne_true fun both => kept both.2

theorem has_dropMarkers_iff :
    (walk.dropMarkers markers).scope.has name = true ↔
      walk.scope.has name = true ∧ (name ∈ markers → walk.scope.Typed name) := by
  by_cases kept : name ∈ markers → walk.scope.Typed name
  · rw [Scope.has_of_definedness (definedness_dropMarkers kept)]
    exact (and_iff_left kept).symm
  · refine iff_of_false (fun has => ?_) fun both => kept both.2
    exact kept (mayHave_dropMarkers_iff.mp (Scope.mayHave_of_has has)).2

end Walk

/-- A variable has a type after a join if it had one before, or at the end of a branch that goes on. -/
theorem Block.typed_merge {block : Block} {branches : List Block} {links : Nat} {name : String} :
    (block.merge branches links).scope.Typed name ↔
      block.scope.Typed name ∨ ∃ branch ∈ ongoing branches, branch.scope.Typed name := by
  constructor
  · rintro ⟨value, other, mayBe⟩
    rcases mayBe_merge.mp mayBe with mayBe | ⟨branch, member, mayBe⟩
    · exact .inl ⟨value, other, mayBe⟩
    · exact .inr ⟨branch, member, value, other, mayBe⟩
  · rintro (⟨value, other, mayBe⟩ | ⟨branch, member, value, other, mayBe⟩)
    · exact ⟨value, other, mayBe_merge.mpr (.inl mayBe)⟩
    · exact ⟨value, other, mayBe_merge.mpr (.inr ⟨branch, member, mayBe⟩)⟩

namespace Flow

variable {env : Env} {name : String} {test : Expr} {body : List Stmt} {rest : Otherwise}

/-! ### What tests leave known -/

/-- A test by `instanceof` tells about types, and drops no variable where it is false. -/
theorem mayHave_otherwise_walkTest (negated inLogic : Bool) (test : Expr) {guard : Guard}
    (known : guard.otherwise.scope.mayHave name = true) :
    (walkTest env negated inLogic test guard).otherwise.scope.mayHave name = true := by
  obtain ⟨kind, span⟩ := test
  rw [walkTest.eq_def]
  cases kind with
  | paren inner => exact mayHave_otherwise_walkTest negated inLogic inner known
  | binary op left right =>
    cases op with
    | and | or =>
      exact mayHave_otherwise_walkTest negated true right
        (mayHave_otherwise_walkTest negated true left known)
    | _ => exact known
  | unary op operand =>
    cases op with
    | not =>
      refine mayHave_otherwise_walkTest (!negated) inLogic operand ?_
      rwa [Guard.otherwise_markNotEmpty]
    | _ => exact known
  | isset values =>
    show (guard.markIsset negated values).otherwise.scope.mayHave name = true
    rwa [Guard.otherwise_markIsset]
  | instanceOf subject ref =>
    exact (Weighs.narrowTo (guard.mapWalk _) env.naming subject ref negated inLogic span :
      Weighs env.source _ _ _).otherwise known
  | _ => exact known

theorem isNarrowing_unparen (test : Expr) : test.unparen.isNarrowing = test.isNarrowing := by
  obtain ⟨kind, span⟩ := test
  cases kind with
  | paren inner =>
    rw [Expr.unparen, Expr.isNarrowing]
    exact isNarrowing_unparen inner
  | _ => rfl

/-- A condition that is built from `instanceof` marks no variable. -/
theorem markers_walkTest_of_isNarrowing (negated inLogic : Bool) (test : Expr)
    (narrowing : test.isNarrowing = true) (guard : Guard) :
    (walkTest env negated inLogic test guard).markers = guard.markers := by
  obtain ⟨kind, span⟩ := test
  have read := guard.markers_mapWalk (walkKind env span kind)
  rw [walkTest.eq_def]
  cases kind with
  | paren inner =>
    rw [Expr.isNarrowing] at narrowing
    exact markers_walkTest_of_isNarrowing negated inLogic inner narrowing guard
  | binary op left right =>
    cases op with
    | and | or =>
      rw [Expr.isNarrowing, Bool.and_eq_true] at narrowing
      exact (markers_walkTest_of_isNarrowing negated true right narrowing.2 _).trans
        (markers_walkTest_of_isNarrowing negated true left narrowing.1 guard)
    | _ => exact read
  | unary op operand =>
    cases op with
    | not =>
      rw [Expr.isNarrowing] at narrowing
      refine (markers_walkTest_of_isNarrowing (!negated) inLogic operand narrowing _).trans ?_
      unfold Guard.markNotEmpty
      split
      · next inner kind =>
        rw [← isNarrowing_unparen] at narrowing
        generalize operand.unparen = plain at narrowing kind
        obtain ⟨plain, span⟩ := plain
        obtain rfl : plain = .isEmpty inner := kind
        cases narrowing
      · rfl
    | _ => exact read
  | isset values => cases narrowing
  | instanceOf subject ref =>
    exact (guard.mapWalk _).markers_narrowTo env.naming subject ref negated inLogic
  | _ => exact read

/-- What a test does not name, it does not mark. -/
theorem mem_markers_walkOtherwise (rest : Otherwise) {initial : Scope} {chain : Chain}
    (omitted : rest.tests.all (everyExpr (omits name)) = true)
    (member : name ∈ (walkOtherwise env initial rest chain).markers) : name ∈ chain.markers := by
  cases rest with
  | nothing | orElse body =>
    rw [walkOtherwise] at member
    exact member
  | orIf test body span rest =>
    simp only [Otherwise.tests, List.all_cons, Bool.and_eq_true] at omitted
    rw [walkOtherwise] at member
    have marked := mem_markers_walkOtherwise rest omitted.2 member
    exact (walkTest_ignores false false test omitted.1 _).markers marked

/-- A variable is marked neither if it was defined, nor if no test names it. -/
theorem notMem_markers_walkBranches {walk : Walk}
    (safe : walk.scope.has name = true ∨
      (test :: rest.tests).all (everyExpr (omits name)) = true) :
    name ∉ (walkBranches env test body rest walk).markers := by
  rcases safe with has | omitted
  · obtain ⟨_, no, unmarked⟩ := knows_test env walk test has List.not_mem_nil
    have first : ((Chain.start (splitOn env test [] walk)).pushBranch env walk.scope body
        (splitOn env test [] walk) (splitOn env test [] walk).walk).Knows name := ⟨no, unmarked⟩
    exact (knows_walkOtherwise first).unmarked
  · simp only [List.all_cons, Bool.and_eq_true] at omitted
    intro member
    have marked := mem_markers_walkOtherwise rest omitted.2 member
    exact absurd ((walkTest_ignores false false test omitted.1 (.start walk [])).markers marked)
      List.not_mem_nil

/-! ### The end of an `if` -/

/-- The block into which the branches of an `if` are joined: the one around the statement, or, after
a guard, the one in which its test is false. -/
def joinedInto (env : Env) (test : Expr) (body : List Stmt) (rest : Otherwise) (walk : Walk) :
    Block :=
  let split := splitOn env test [] walk
  let branch := (walkStmts env body { split.walk with block := split.yes }).block
  if isGuard test rest branch then (walkBranches env test body rest walk).no else split.walk.block

/-- Some type of the variable is known where the branches are joined, or at the end of one of them. -/
def TypedAtEnds (env : Env) (test : Expr) (body : List Stmt) (rest : Otherwise) (walk : Walk)
    (name : String) : Prop :=
  (joinedInto env test body rest walk).scope.Typed name ∨
    ∃ branch ∈ Block.ongoing (walkBranches env test body rest walk).branches,
      branch.scope.Typed name

instance (env : Env) (test : Expr) (body : List Stmt) (rest : Otherwise) (walk : Walk)
    (name : String) : Decidable (TypedAtEnds env test body rest walk name) :=
  inferInstanceAs (Decidable (_ ∨ _))

section

variable (env : Env) (bodySpan : Span) (walk : Walk)

theorem walkStmtKind_dropMarkers :
    ∃ joined : Walk, joined.scope = ((joinedInto env test body rest walk).merge
        (walkBranches env test body rest walk).branches
        (walkBranches env test body rest walk).links).scope ∧
      walkStmtKind env (.branch test body bodySpan rest) walk =
        joined.dropMarkers (walkBranches env test body rest walk).markers := by
  rw [walkStmtKind_walkBranches]
  refine ⟨_, ?_, rfl⟩
  unfold joinedInto
  dsimp only
  split
  · rfl
  · rw [← block_walkBranches]
    rfl

theorem mayHave_branch_iff :
    (walkStmtKind env (.branch test body bodySpan rest) walk).scope.mayHave name = true ↔
      ((joinedInto env test body rest walk).scope.mayHave name = true ∨
        ∃ branch ∈ Block.ongoing (walkBranches env test body rest walk).branches,
          branch.scope.mayHave name = true) ∧
      (name ∈ (walkBranches env test body rest walk).markers →
        TypedAtEnds env test body rest walk name) := by
  obtain ⟨joined, scope, equal⟩ := walkStmtKind_dropMarkers env bodySpan walk
  rw [equal, Walk.mayHave_dropMarkers_iff, scope, Block.mayHave_merge_iff, Block.typed_merge]
  rfl

theorem has_branch_iff (closed : rest.isClosed = true)
    (survives : Block.ongoing (walkBranches env test body rest walk).branches ≠ []) :
    (walkStmtKind env (.branch test body bodySpan rest) walk).scope.has name = true ↔
      ((joinedInto env test body rest walk).scope.has name = true ∨
        ∀ branch ∈ Block.ongoing (walkBranches env test body rest walk).branches,
          branch.scope.has name = true) ∧
      (name ∈ (walkBranches env test body rest walk).markers →
        TypedAtEnds env test body rest walk name) := by
  obtain ⟨joined, scope, equal⟩ := walkStmtKind_dropMarkers env bodySpan walk
  rw [equal, Walk.has_dropMarkers_iff, scope, links_walkBranches closed,
    Block.has_merge_ongoing survives, Block.typed_merge]
  rfl

/-- What was known before the statement is known where its branches are joined. -/
theorem mayHave_joinedInto (known : walk.scope.mayHave name = true) :
    (joinedInto env test body rest walk).scope.mayHave name = true := by
  have around : walk.block.scope.mayHave name = true := known
  unfold joinedInto
  dsimp only
  split
  · next guarding =>
    cases rest with
    | nothing =>
      have inFalse : (walkTest env false false test (.start walk [])).otherwise.scope.mayHave name =
          true :=
        mayHave_otherwise_walkTest false false test known
      unfold walkBranches
      rw [walkOtherwise_nothing]
      unfold Scope.mayHave at inFalse ⊢
      exact (congrArg Option.isSome (get?_no_of_split around)).trans inFalse
    | orElse | orIf => simp [isGuard] at guarding
  · unfold Scope.mayHave
    exact (congrArg Option.isSome (get?_split around)).trans known

/-- A type that was known before the statement is known where its branches are joined, if any
variable is marked. -/
theorem typed_joinedInto {other : String}
    (marked : other ∈ (walkBranches env test body rest walk).markers)
    (typed : walk.scope.Typed name) : (joinedInto env test body rest walk).scope.Typed name := by
  obtain ⟨value, unmarked, mayBe⟩ := typed
  have around : walk.block.scope.mayHave name = true := mayBe.mayHave
  unfold joinedInto
  dsimp only
  split
  · next guarding =>
    cases rest with
    | nothing =>
      simp only [isGuard, Bool.and_eq_true] at guarding
      unfold walkBranches at marked
      rw [walkOtherwise_nothing] at marked
      have none : other ∈ (walkTest env false false test (.start walk [])).markers := marked
      rw [markers_walkTest_of_isNarrowing false false test guarding.1.2] at none
      cases none
    | orElse | orIf => simp [isGuard] at guarding
  · exact ⟨value, unmarked, (Scope.mayBe_congr (get?_split around)).mpr mayBe⟩

end

/--
At the end of an `if` a variable is known if it was where the branches are joined, or at the end of one
that goes on; and with an `else` it is defined if it was so there, or at all these ends. But if a test
marked it, then some type of it has to be known there. So a variable stays known that was defined before
the statement, or had a type, or to which a branch assigned a value that has one. Variables are not
marked that were defined, or that no test names.
-/
theorem markers_alone_are_retracted (env : Env) (test : Expr) (body : List Stmt) (bodySpan : Span)
    (rest : Otherwise) (walk : Walk) (name : String) :
    let kind : StmtKind := .branch test body bodySpan rest
    let before := (joinedInto env test body rest walk).scope
    let chain := walkBranches env test body rest walk
    let ends := Block.ongoing chain.branches
    let after := (walkStmtKind env kind walk).scope
    (after.mayHave name = true ↔
      (before.mayHave name = true ∨ ∃ branch ∈ ends, branch.scope.mayHave name = true) ∧
        (name ∈ chain.markers → TypedAtEnds env test body rest walk name)) ∧
    (rest.isClosed = true → ends ≠ [] → (after.has name = true ↔
      (before.has name = true ∨ ∀ branch ∈ ends, branch.scope.has name = true) ∧
        (name ∈ chain.markers → TypedAtEnds env test body rest walk name))) ∧
    (walk.scope.has name = true ∨ walk.scope.Typed name → after.mayHave name = true) ∧
    (∀ types, some (.assigned types) ∈
      fatesInKind (flagged name) env name kind walk (.start walk.scope name) →
        ∀ value ∈ types.members, value ≠ .concrete (issetMarker name) → after.mayHave name = true) ∧
    (walk.scope.has name = true ∨ (test :: rest.tests).all (everyExpr (omits name)) = true →
      name ∉ chain.markers) := by
  intro kind before chain ends after
  have known : after.mayHave name = true ↔
      (before.mayHave name = true ∨ ∃ branch ∈ ends, branch.scope.mayHave name = true) ∧
        (name ∈ chain.markers → TypedAtEnds env test body rest walk name) :=
    mayHave_branch_iff env bodySpan walk
  refine ⟨known, fun closed survives => has_branch_iff env bodySpan walk closed survives, ?_, ?_,
    notMem_markers_walkBranches⟩
  · rintro (has | typed)
    · refine known.mpr ⟨.inl (mayHave_joinedInto env walk (Scope.mayHave_of_has has)), fun marked => ?_⟩
      exact absurd marked (notMem_markers_walkBranches (.inl has))
    · obtain ⟨_, _, mayBe⟩ := id typed
      exact known.mpr ⟨.inl (mayHave_joinedInto env walk mayBe.mayHave),
        fun marked => .inl (typed_joinedInto env walk marked typed)⟩
  · intro types assigned value member other
    have upheld : Upholds name value walk.scope after (some (.assigned types)) :=
      upholds_walkStmtKind (covers_flagged name) other kind
        (Standing.describes_start walk.scope name) assigned
    exact (upheld member).mayHave

/-- `if (isset($x)) { $x = 'a'; } else { $x = 'b'; }` defines the variable. -/
theorem markers_alone_are_retracted_assigned :
    let asked : Expr := ⟨.isset [⟨.var "$x", ⟨10, 12⟩⟩], ⟨4, 13⟩⟩
    let body := [assignAt 17 (.string (some "a"))]
    let rest : Otherwise := .orElse [assignAt 37 (.string (some "b"))]
    (walkStmtKind default (.branch asked body ⟨15, 29⟩ rest) (startWith [])).scope.has "$x" = true := by
  intro asked body rest
  obtain ⟨_, defined, _⟩ :=
    markers_alone_are_retracted default asked body ⟨15, 29⟩ rest (startWith []) "$x"
  exact (defined (by decide) (by decide)).mpr ⟨.inr (by decide), fun _ => by decide⟩

/-- `if (isset($x)) { }` drops a variable of unknown type that some path defined, and
`if (isset($x)) { $x = $a(); } else { $x = $a(); }` drops one that both branches define. -/
theorem untyped_variables_are_dropped :
    let asked : Expr := ⟨.isset [⟨.var "$x", ⟨10, 12⟩⟩], ⟨4, 13⟩⟩
    let called (start : Nat) : List Stmt :=
      [assignAt start (.callValue ⟨.var "$a", ⟨start + 5, start + 7⟩⟩ [])]
    let looped : Walk := (startWith ["$a"]).mapScope (·.add "$x" .empty false)
    let both : StmtKind := .branch asked (called 17) ⟨15, 29⟩ (.orElse (called 37))
    looped.scope.mayHave "$x" = true ∧
      (walkStmtKind default (.branch asked [] ⟨15, 17⟩ .nothing) looped).scope.mayHave "$x" = false ∧
      (∀ branch ∈ Block.ongoing (walkBranches default asked (called 17) (.orElse (called 37))
        (startWith ["$a"])).branches, branch.scope.has "$x" = true) ∧
      (walkStmtKind default both (startWith ["$a"])).scope.has "$x" = false := by
  decide

end Flow

end PhpAudit
