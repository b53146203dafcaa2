/-
This file says what the walk over a `switch` makes of the variables that its cases give a value. A
variable counts as defined after the `switch` if every block of a case that goes on has it. A run
that gets past the `switch` enters some case and falls through to the next ones, and the block of
that case was walked in the same way: so the run has written the variable, or the variable was held
before.

As for exits, a case without a body has no block of its own, and a jump in the middle of a body is
not seen. The tests of the cases are walked in order in the block around them. A run makes only the
first test for sure; the others may give nothing.
-/

import PhpAudit.Proofs.Flow.Binding
import PhpAudit.Proofs.Flow.Switching

namespace PhpAudit

open Execution

namespace Execution

variable {env : Env} {name : String} {otherwise : Runs Leave}

/-- Some case is compared first, whatever is entered. -/
theorem writesCase_executeCases_of_first {cases : List Case} {test : Expr}
    (first : (Flow.caseTests cases).head? = some test) (writes : (evaluate env test).Writes name) :
    (executeCases env otherwise cases).WritesCase name := by
  induction cases with
  | nil => cases first
  | cons case rest inductionHypothesis =>
    obtain ⟨own, body, span, announced⟩ := case
    cases own with
    | none =>
      rw [executeCases]
      exact inductionHypothesis first
    | some own =>
      obtain rfl : own = test := Option.some.inj first
      rw [executeCases]
      exact Runs.writesCase_seq_left
        ((Runs.contained_lift _).writesCase (Runs.writes_lift.mpr writes))

/-- The runs of a `switch` write what the runs from each case on write. -/
theorem writesCase_executeCases {cases : List Case} (missed : otherwise.WritesCase name)
    (entered : ∀ later, later <:+ cases → later ≠ [] →
      (executeFrom env later).WritesCase name) :
    (executeCases env otherwise cases).WritesCase name := by
  induction cases with
  | nil =>
    rw [executeCases_nil]
    exact missed
  | cons case rest inductionHypothesis =>
    have others := inductionHypothesis fun later isLater =>
      entered later (isLater.trans (List.suffix_cons case rest))
    have own := entered _ (List.suffix_refl _) (List.cons_ne_nil case rest)
    rw [Flow.executeFrom_cons] at own
    obtain ⟨test, body, span, announced⟩ := case
    cases test with
    | none =>
      rw [executeCases]
      exact others
    | some test =>
      rw [executeCases]
      exact Runs.writesCase_seq_right (Runs.contained_lift _)
        (Runs.writesCase_union.mpr ⟨own, others⟩)

theorem writesCase_executeDefault {cases : List Case}
    (hasDefault : cases.all (·.test.isSome) = false)
    (entered : ∀ later, later <:+ cases → later ≠ [] →
      (executeFrom env later).WritesCase name) :
    (executeDefault env cases).WritesCase name := by
  induction cases with
  | nil => cases hasDefault
  | cons case rest inductionHypothesis =>
    have own := entered _ (List.suffix_refl _) (List.cons_ne_nil case rest)
    rw [Flow.executeFrom_cons] at own
    obtain ⟨test, body, span, announced⟩ := case
    rw [executeDefault]
    cases test with
    | none => exact own
    | some test =>
      exact inductionHypothesis (by simpa using hasDefault) fun later isLater =>
        entered later (isLater.trans (List.suffix_cons _ rest))

end Execution

namespace Flow

/-! ### Counting the cases -/

namespace Cases

/-- The block of a case as it is joined: jumps end the case only. -/
def settle (branch : Block) : Block :=
  { branch with exits := caseExits branch }

/-- The blocks that go on after the `switch` are counted. -/
def Counted (cases : Cases) : Prop :=
  cases.links = (Block.ongoing (cases.branches.map settle)).length

theorem counted_push {cases : Cases} (counted : cases.Counted) (branch : Block) (walk : Walk) :
    (cases.push branch walk).Counted := by
  unfold Counted at *
  have links : (cases.push branch walk).links =
      if (settle branch).continues then cases.links + 1 else cases.links := rfl
  have branches : (cases.push branch walk).branches = cases.branches ++ [branch] := rfl
  rw [links, branches, List.map_append, Block.ongoing_append, List.length_append, counted,
    List.map_singleton, Block.length_ongoing_singleton]
  split <;> rfl

variable (env : Env)

theorem counted_walkCases {cases : List Case} {before : Cases} (counted : before.Counted) :
    (walkCases env cases before).Counted := by
  induction cases generalizing before with
  | nil => rwa [walkCases_nil]
  | cons case rest inductionHypothesis =>
    obtain ⟨test, body, span, announced⟩ := case
    rw [walkCases_cons]
    refine inductionHypothesis ?_
    unfold Cases.enter
    split
    · exact counted
    · apply counted_push
      exact counted

/--
A variable that is held after a `switch` was held before its cases are joined, or there is a default
case and every block that goes on holds it.
-/
theorem of_holds_close {cases : Cases} {name : String} (counted : cases.Counted)
    (holds : cases.close.scope.Holds true name) :
    cases.walk.scope.Holds true name ∨ cases.hasDefault = true ∧
      ∀ branch ∈ cases.branches, Rejoins branch → branch.scope.Holds true name := by
  unfold Counted at counted
  have enough : (Block.ongoing (cases.branches.map settle)).length ≤
      if cases.hasDefault then cases.links else cases.links + 1 := by
    split <;> omega
  rcases Block.forall_of_holds_merge enough holds with holds | ⟨equal, each⟩
  · exact .inl holds
  · refine .inr ⟨?_, fun branch member rejoins => ?_⟩
    · by_contra missing
      rw [if_neg missing] at equal
      omega
    · exact each (settle branch) (Block.mem_ongoing (List.mem_map_of_mem member) rejoins)

end Cases

/-! ### Writing in a case -/

section

variable {env : Env} {name : String} {cases : List Case}

/--
The walk over the body of a case makes a variable held only if every run that gets past the `switch`
through the body writes to it.
-/
def BindsCase (name : String) (runs : Runs Leave) (steps : Walk → Walk) : Prop :=
  ∀ walk : Walk, (steps walk).scope.Holds true name →
    walk.scope.Holds true name ∨ runs.WritesCase name

/-- Code that does not jump, before the end. -/
theorem BindsCase.seq {first second : Runs Leave} {before after : Walk → Walk} {free : Bool}
    (binds : Binds true name free first before) (contained : first.Contained)
    (ends : BindsCase name second after) :
    BindsCase name (first.seq second) fun walk => after (before walk) := by
  intro walk holds
  rcases ends _ holds with holds | writes
  · exact (binds walk holds).imp_right fun bound =>
      Runs.writesCase_seq_left (contained.writesCase bound.2)
  · exact .inr (Runs.writesCase_seq_right contained writes)

/-- The bodies of some cases bind what every run through them writes. -/
def BodiesBind (env : Env) (name : String) (cases : List Case) : Prop :=
  ∀ case ∈ cases, BindsCase name (execute env case.body) (walkStmts env case.body)

/-- A body, and what it runs into. -/
theorem writesCase_entered {body : List Stmt} {runs : Runs Leave}
    (own : Ends (execute env body) (walkStmts env body))
    (binds : BindsCase name (execute env body) (walkStmts env body)) {walk : Walk}
    (live : walk.Live)
    (ended : ¬ (walkStmts env body walk).Live → Rejoins (walkStmts env body walk).block →
      (walkStmts env body walk).scope.Holds true name)
    (goesOn : (walkStmts env body walk).Live →
      (walkStmts env body walk).scope.Holds true name ∨ runs.WritesCase name) :
    walk.scope.Holds true name ∨ ((execute env body).seq runs).WritesCase name := by
  have bound (holds : (walkStmts env body walk).scope.Holds true name) :
      walk.scope.Holds true name ∨ ((execute env body).seq runs).WritesCase name :=
    (binds walk holds).imp_right Runs.writesCase_seq_left
  by_cases reached : (walkStmts env body walk).Live
  · rcases goesOn reached with holds | writes
    · exact bound holds
    · have contained : (execute env body).Contained :=
        ⟨fun broke => own.jumps (.inl broke) live reached,
          fun continued => own.jumps (.inr continued) live reached⟩
      exact .inr (Runs.writesCase_seq_right contained writes)
  · by_cases passes : (execute env body).EndsCase
    · exact bound (ended reached (own.rejoins passes live))
    · exact .inr (Runs.writesCase_seq_left (Runs.writesCase_of_not_endsCase passes))

/-- Bodies that are fallen through to. -/
theorem writesCase_fallThrough (ends : BodiesEnd env cases) (binds : BodiesBind env name cases)
    {walk : Walk} (live : walk.Live)
    (joined : Rejoins (walkFallThrough env cases walk).block →
      (walkFallThrough env cases walk).scope.Holds true name) :
    walk.scope.Holds true name ∨ (executeFrom env cases).WritesCase name := by
  induction cases generalizing walk with
  | nil =>
    rw [walkFallThrough_nil] at joined
    exact .inl (joined (rejoins_of_continues live.continues))
  | cons case rest inductionHypothesis =>
    obtain ⟨own, othersEnd⟩ := List.forall_mem_cons.mp ends
    obtain ⟨ownBinds, othersBind⟩ := List.forall_mem_cons.mp binds
    rw [walkFallThrough_cons] at joined
    rw [executeFrom_cons]
    refine writesCase_entered own ownBinds live (fun left rejoins => ?_) fun reached => ?_
    · rw [Walk.continues_eq_false left, if_neg Bool.false_ne_true] at joined
      exact joined rejoins
    · rw [if_pos reached.continues] at joined
      exact inductionHypothesis othersEnd othersBind reached joined

/-- A case that is entered, with the bodies that it falls through to. -/
theorem writesCase_enterCase {body : List Stmt}
    (own : Ends (execute env body) (walkStmts env body))
    (binds : BindsCase name (execute env body) (walkStmts env body))
    (othersEnd : BodiesEnd env cases) (othersBind : BodiesBind env name cases) (span : Span)
    (walk : Walk)
    (joined : Rejoins (enterCase env body span cases walk).1 →
      (enterCase env body span cases walk).1.scope.Holds true name) :
    walk.scope.Holds true name ∨
      ((execute env body).seq (executeFrom env cases)).WritesCase name := by
  let entered : Walk := { walk with block := walk.block.child }
  have fresh : entered.Live := rfl
  obtain ⟨next, same, equal⟩ := enterCase_fst env body span cases walk
  rw [equal] at joined
  show entered.scope.Holds true name ∨ _
  refine writesCase_entered own binds fresh (fun left rejoins => ?_) fun reached => ?_
  · rw [Walk.continues_eq_false left, if_neg Bool.false_ne_true] at joined
    exact joined rejoins
  · rw [if_pos reached.continues] at joined
    rw [show (walkStmts env body entered).scope = next.scope from congrArg Block.scope same.symm]
    exact writesCase_fallThrough othersEnd othersBind
      (live_of_record (congrArg Block.record same) reached) joined

/--
If every block that goes on holds the variable, the runs from any case on write to it, or it was held
before the cases.
-/
theorem writesCase_walkCases (ends : BodiesEnd env cases) (binds : BodiesBind env name cases)
    (last : cases.getLast?.all (!·.body.isEmpty) = true)
    (keeps : ∀ test ∈ caseTests cases, ∀ walk : Walk,
      (walkExpr env test walk).scope.Holds true name → walk.scope.Holds true name)
    {before : Cases}
    (joined : ∀ branch ∈ (walkCases env cases before).branches, Rejoins branch →
      branch.scope.Holds true name)
    (unheld : ¬ before.walk.scope.Holds true name) {later : List Case} (isLater : later <:+ cases)
    (nonempty : later ≠ []) : (executeFrom env later).WritesCase name := by
  induction cases generalizing before later with
  | nil => exact absurd (List.suffix_nil.mp isLater) nonempty
  | cons case rest inductionHypothesis =>
    obtain ⟨own, othersEnd⟩ := List.forall_mem_cons.mp ends
    obtain ⟨ownBinds, othersBind⟩ := List.forall_mem_cons.mp binds
    obtain ⟨test, body, span, announced⟩ := case
    rw [walkCases_cons] at joined
    have keepsOthers : ∀ test ∈ caseTests rest, ∀ walk : Walk,
        (walkExpr env test walk).scope.Holds true name → walk.scope.Holds true name := by
      refine fun other member => keeps other ?_
      cases test with
      | none => exact member
      | some test => exact .tail _ member
    have unheldTested : ¬ (walkOptional env test before.walk).scope.Holds true name := by
      cases test with
      | none => rwa [walkOptional_none]
      | some test =>
        rw [walkOptional]
        exact fun holds => unheld (keeps test (.head _) before.walk holds)
    let tested : Cases := { before with
      walk := walkOptional env test before.walk
      hasDefault := before.hasDefault || test.isNone }
    have lastOthers : rest.getLast?.all (!·.body.isEmpty) = true := by
      cases rest with
      | nil => rfl
      | cons next rest => simpa using last
    have unheldEntered : ¬ (tested.enter env body span rest).walk.scope.Holds true name := by
      unfold Walk.scope
      rwa [block_enter]
    have others {later : List Case} (isLater : later <:+ rest) (nonempty : later ≠ []) :
        (executeFrom env later).WritesCase name :=
      inductionHypothesis othersEnd othersBind lastOthers keepsOthers joined unheldEntered isLater
        nonempty
    rcases List.suffix_cons_iff.mp isLater with rfl | isLater
    · rw [executeFrom]
      cases empty : body.isEmpty with
      | false =>
        refine (writesCase_enterCase own ownBinds othersEnd othersBind span tested.walk
          fun rejoins => ?_).resolve_left unheldTested
        exact joined _ (branches_walkCases env rest _ (mem_branches_enter env tested empty span rest))
          rejoins
      | true =>
        -- the next case with a body is entered
        obtain rfl := List.isEmpty_iff.mp empty
        rw [execute, Runs.done_seq]
        refine others (List.suffix_refl _) ?_
        rintro rfl
        simp at last
    · exact others isLater nonempty

end

/-! ### The whole statement -/

section

variable {env : Env} {name : String} {cases : List Case}

/-- The walk over the cases of a `switch` binds what every run of them writes. -/
theorem binds_cases (outermost : env.enclosing = [])
    (tested : (caseTests cases).all (everyExpr (bindsSurely env name)) = true)
    (free : (caseTests cases).tail.all (everyExpr (bindsNothing env)) = true)
    (ordered : followsCases env cases = true)
    (ends : cases.all (fun case => jumpsLast env case.body) = true → BodiesEnd env cases)
    (binds : cases.all (·.test.isSome) = false → BodiesBind env name cases) :
    Binds true name false ((executeCases env (executeDefault env cases) cases).round Runs.done)
      fun walk => (walkCases env cases { walk }).close := by
  intro walk holds
  by_contra neither
  rw [not_or, not_and] at neither
  obtain ⟨unheld, unwritten⟩ := neither
  have unwritten : ¬ (executeCases env (executeDefault env cases) cases).WritesCase name :=
    fun writes => unwritten rfl (Runs.writes_round (.inl writes))
  -- a first test that binds is made by every run
  have keeps : ∀ test ∈ caseTests cases, ∀ walk : Walk,
      (walkExpr env test walk).scope.Holds true name → walk.scope.Holds true name := by
    intro test member walk holds
    have binds := binds_expr outermost true test (List.all_eq_true.mp tested test member)
    refine (binds walk holds).resolve_right fun bound => ?_
    cases equal : caseTests cases with
    | nil => simp [equal] at member
    | cons first others =>
      rw [equal] at member free
      rcases List.mem_cons.mp member with rfl | member
      · exact unwritten (writesCase_executeCases_of_first (by rw [equal]; rfl) bound.2)
      · exact Bool.false_ne_true
          (bound.1.symm.trans (List.all_eq_true.mp free test member))
  have kept : (walkCases env cases { walk }).walk.scope.Holds true name →
      walk.scope.Holds true name :=
    block_walkCases env (fun first second : Block =>
      second.scope.Holds true name → first.scope.Holds true name) (fun _ => id)
      (fun left right => left ∘ right) keeps { walk }
  have counted : (walkCases env cases { walk }).Counted := Cases.counted_walkCases env rfl
  rcases Cases.of_holds_close counted holds with holds | ⟨hasDefault, joined⟩
  · exact unheld (kept holds)
  · rw [hasDefault_walkCases] at hasDefault
    have hasDefault : cases.all (·.test.isSome) = false := by simpa using hasDefault
    simp only [followsCases, hasDefault, Bool.false_or, Bool.and_eq_true] at ordered
    obtain ⟨_, jumps, last⟩ := ordered
    have entered (later : List Case) (isLater : later <:+ cases) (nonempty : later ≠ []) :
        (executeFrom env later).WritesCase name :=
      writesCase_walkCases (ends jumps) (binds hasDefault) last keeps joined unheld isLater nonempty
    exact unwritten
      (writesCase_executeCases (writesCase_executeDefault hasDefault entered) entered)

/-- The walk over a `switch` binds what every run writes. -/
theorem binds_switch (outermost : env.enclosing = []) {subject : Expr}
    (surely : everyExpr (bindsSurely env name) subject = true)
    (tested : (caseTests cases).all (everyExpr (bindsSurely env name)) = true)
    (free : (caseTests cases).tail.all (everyExpr (bindsNothing env)) = true)
    (ordered : followsCases env cases = true)
    (ends : cases.all (fun case => jumpsLast env case.body) = true → BodiesEnd env cases)
    (binds : cases.all (·.test.isSome) = false → BodiesBind env name cases)
    (span : Span) :
    Binds true name false (executeKind env span (.switch subject cases))
      (walkStmtKind env (.switch subject cases)) := by
  have valued := (binds_expr outermost true subject surely).lift
  rw [executeKind]
  exact ((valued.seq (binds_cases outermost tested free ordered ends binds)).mono (fun _ => rfl)
    id).congr fun walk => by rw [walkStmtKind]

end

end Flow

end PhpAudit
