/-
This file says when the walk over a `switch` follows its runs. The body of each case is walked in a
block of its own, together with the bodies that it falls through to, and `break` and `continue` are
taken off the exits of that block: they end the case and not the code around it. A run that gets past
the `switch` through some case must therefore find a block there without further exits.

Only the end of a block tells of a jump. A `break` in the middle of a body leaves no trace in the
exits that are recorded at its end, so jumps have to stand there. And a case without a body is not
walked by itself; what is entered there is the next body, so the last case has to have one.
-/

import Mathlib.Data.List.Basic
import PhpAudit.Proofs.Execution.Jumping
import PhpAudit.Proofs.Flow.Following

namespace PhpAudit

open Execution

theorem Walk.Live.continues {walk : Walk} (live : walk.Live) : walk.block.continues = true :=
  live

theorem Walk.continues_eq_false {walk : Walk} (left : ¬ walk.Live) :
    walk.block.continues = false :=
  Bool.eq_false_iff.mpr left

namespace Flow

/-! ### Jumps at the end of a body -/

/-- A jump stands in the loop or `switch` that it leaves. -/
def keepsJumps (inLoop : Bool) : StmtKind → Bool
  | .breaks | .continues => inLoop
  | _ => true

/-- No `break` or `continue` leaves the statements. -/
def staysInside (body : List Stmt) : Bool :=
  everyStmt (fun _ => true) keepsJumps false body

/-- Statements that a walk leaves by jumps only, as long as their expressions are calm. -/
def isPlain : StmtKind → Bool
  | .expr _ | .echo _ | .block _ | .branch .. | .whileLoop .. | .forLoop .. | .foreach .. | .breaks
  | .continues | .namespaced .. | .imports _ | .function _ | .classLike _ | .nop => true
  | _ => false

/-- The statements end in a jump, and nothing before it leaves but jumps. -/
def jumpsOnly (env : Env) (body : List Stmt) : Bool :=
  everyStmt (everyExpr (isCalm env)) (fun _ => isPlain) true body &&
    body.getLast?.any fun stmt => match stmt.kind with
      | .breaks | .continues => true
      | _ => false

mutual

/--
The jumps that leave the statements stand at their end, possibly in braces; or from the first
statement that may jump on there is nothing else to leave by, and a jump stands at the end.
-/
def jumpsLast (env : Env) : List Stmt → Bool
  | [] => true
  | ⟨kind, span⟩ :: rest =>
    staysInside [⟨kind, span⟩] && jumpsLast env rest || rest.isEmpty && jumpsInBraces env kind ||
      jumpsOnly env (⟨kind, span⟩ :: rest)

def jumpsInBraces (env : Env) : StmtKind → Bool
  | .block body => jumpsLast env body
  | _ => false

end

/-- The tests of some cases, in order. -/
def caseTests (cases : List Case) : List Expr :=
  cases.filterMap (·.test)

/--
The cases of a `switch` that the walk follows: only the first test may leave; and if there is a
default case, jumps stand at the ends of bodies and the last case has a body.
-/
def followsCases (env : Env) (cases : List Case) : Bool :=
  (caseTests cases).tail.all (everyExpr (isCalm env)) &&
    (cases.all (·.test.isSome) ||
      cases.all (fun case => jumpsLast env case.body) && cases.getLast?.all (!·.body.isEmpty))

/--
The statements at whose pace the walk goes, with `switch` and `do`. A `do` loop is walked in the block
around it, so its jumps too have to stand at the end. The step of a `for` loop records no exit.
-/
def followsJumps (env : Env) (inLoop : Bool) : StmtKind → Bool
  | .switch _ cases => followsCases env cases
  | .doWhile body _ => jumpsLast env body
  | .forLoop _ _ step _ => step.all (everyExpr (isCalm env))
  | kind => followsFlow inLoop kind

/-- Statements of this fragment, at any depth. Their expressions may also call methods, and skip
operands that record no exit. -/
abbrev Paced (env : Env) (inLoop : Bool) (body : List Stmt) : Prop :=
  everyStmt (everyExpr (pacesExits env)) (followsJumps env) inLoop body = true

theorem followsJumps_of_followsFlow (env : Env) (inLoop : Bool) (kind : StmtKind)
    (followed : followsFlow inLoop kind = true) : followsJumps env inLoop kind = true := by
  cases kind with
  | switch | doWhile => simp [followsFlow] at followed
  | forLoop init test step body => exact all_calm_of_quiet followed
  | _ => exact followed

theorem paced_of_followedBody (env : Env) {inLoop : Bool} {body : List Stmt}
    (followed : Followed inLoop body) : Paced env inLoop body :=
  everyStmt_mono (paced_of_followed env) (followsJumps_of_followsFlow env) inLoop body followed

/-- The block of a case goes on after the `switch`. -/
def Rejoins (branch : Block) : Prop :=
  (caseExits branch).isEmpty = true

theorem rejoins_of_continues {branch : Block} (continues : branch.continues = true) :
    Rejoins branch := by
  have none : branch.exits = .none := eq_of_beq continues
  unfold Rejoins caseExits
  rw [none]
  rfl

/-- The steps of a walk over a part of a `switch` tell how its runs end. -/
structure Ends (runs : Runs Leave) (steps : Walk → Walk) : Prop where
  /-- A run that gets past the `switch` finds a block that goes on -/
  rejoins : runs.EndsCase → ∀ {walk : Walk}, walk.Live → Rejoins (steps walk).block
  /-- After a jump the block was left -/
  jumps : runs.Jumps → ∀ {walk : Walk}, walk.Live → ¬ (steps walk).Live

namespace Ends

variable {first second runs : Runs Leave} {before after steps : Walk → Walk}

theorem of_contained (follows : Follows runs steps) (contained : runs.Contained) :
    Ends runs steps where
  rejoins ends _ live := by
    rcases Runs.endsCase_iff.mp ends with ends | jumps
    · exact rejoins_of_continues (follows.live ends live)
    · exact absurd jumps contained.not_jumps
  jumps jumps := absurd jumps contained.not_jumps

/-- Code that does not jump, before the end. -/
theorem seq (follows : Follows first before) (contained : first.Contained)
    (ends : Ends second after) : Ends (first.seq second) fun walk => after (before walk) where
  rejoins passes _ live := by
    rcases Runs.endsCase_seq.mp passes with jumps | ⟨completes, passes⟩
    · exact absurd jumps contained.not_jumps
    · exact ends.rejoins passes (follows.live completes live)
  jumps jumps _ live := by
    rcases Runs.jumps_seq.mp jumps with jumps | ⟨completes, jumps⟩
    · exact absurd jumps contained.not_jumps
    · exact ends.jumps jumps (follows.live completes live)

/-- Steps before the code that leave the record alone. -/
theorem record_then (ends : Ends runs after) (kept : ∀ walk, (before walk).record = walk.record) :
    Ends runs fun walk => after (before walk) where
  rejoins passes _ live := ends.rejoins passes (live_of_record (kept _) live)
  jumps jumps _ live := ends.jumps jumps (live_of_record (kept _) live)

theorem congr_record (ends : Ends runs before)
    (same : ∀ walk, (after walk).record = (before walk).record) : Ends runs after where
  rejoins passes walk live := by
    have equal : (after walk).block.exits = (before walk).block.exits :=
      congrArg ExitRecord.exits (same walk)
    unfold Rejoins caseExits
    rw [equal]
    exact ends.rejoins passes live
  jumps jumps walk live := by
    unfold Walk.Live
    rw [same]
    exact ends.jumps jumps live

end Ends

theorem everyCase_tests {value : Expr → Bool} {accepts : Bool → StmtKind → Bool}
    {cases : List Case} (every : everyCase value accepts cases = true) :
    (caseTests cases).all value = true := by
  induction cases with
  | nil => rfl
  | cons case rest inductionHypothesis =>
    obtain ⟨test, body, span, announced⟩ := case
    simp only [everyCase, Bool.and_eq_true] at every
    cases test with
    | none => exact inductionHypothesis every.2
    | some test =>
      exact Bool.and_eq_true_iff.mpr ⟨every.1.1, inductionHypothesis every.2⟩

/-! ### Walking the cases -/

section

variable (env : Env)

/-- The body of a case with the bodies that it falls through to, in a block of its own. -/
def enterCase (body : List Stmt) (span : Span) (rest : List Case) (walk : Walk) : Block × Walk :=
  walk.within walk.block.child fun walk =>
    let walk := checkCaseBreak env span rest (walkStmts env body walk)
    if walk.block.continues then walk.silently (walkFallThrough env rest) else walk

/-- A case without a body is passed by; the block of another one is kept. -/
def Cases.enter (cases : Cases) (body : List Stmt) (span : Span) (rest : List Case) : Cases :=
  if body.isEmpty then cases
  else cases.push (enterCase env body span rest cases.walk).1
    (enterCase env body span rest cases.walk).2

theorem walkCases_cons (test : Option Expr) (body : List Stmt) (span : Span) (announced : Bool)
    (rest : List Case) (cases : Cases) :
    walkCases env (⟨test, body, span, announced⟩ :: rest) cases =
      walkCases env rest (({ cases with
        walk := walkOptional env test cases.walk
        hasDefault := cases.hasDefault || test.isNone } : Cases).enter env body span rest) := by
  rw [walkCases]
  unfold Cases.enter
  split <;> rfl

@[simp]
theorem block_enter (cases : Cases) (body : List Stmt) (span : Span) (rest : List Case) :
    (cases.enter env body span rest).walk.block = cases.walk.block := by
  unfold Cases.enter
  split <;> rfl

@[simp]
theorem hasDefault_enter (cases : Cases) (body : List Stmt) (span : Span) (rest : List Case) :
    (cases.enter env body span rest).hasDefault = cases.hasDefault := by
  unfold Cases.enter
  split <;> rfl

theorem branches_enter (cases : Cases) (body : List Stmt) (span : Span) (rest : List Case) :
    cases.branches ⊆ (cases.enter env body span rest).branches := by
  unfold Cases.enter
  split
  · exact List.Subset.refl _
  · exact List.subset_append_left _ _

theorem mem_branches_enter (cases : Cases) {body : List Stmt} (filled : body.isEmpty = false)
    (span : Span) (rest : List Case) :
    (enterCase env body span rest cases.walk).1 ∈ (cases.enter env body span rest).branches := by
  unfold Cases.enter
  rw [if_neg (by simp [filled])]
  exact List.mem_append_right _ (List.mem_singleton_self _)

theorem block_checkCaseBreak (span : Span) (rest : List Case) (walk : Walk) :
    (checkCaseBreak env span rest walk).block = walk.block := by
  unfold checkCaseBreak
  split
  · split <;> rfl
  · rfl

/-- In the block around the cases only their tests are walked. -/
theorem block_walkCases (related : Block → Block → Prop) (refl : ∀ block, related block block)
    (trans : ∀ {first second third}, related first second → related second third →
      related first third) {cases : List Case}
    (tested : ∀ test ∈ caseTests cases, ∀ walk : Walk,
      related walk.block (walkExpr env test walk).block) (before : Cases) :
    related before.walk.block (walkCases env cases before).walk.block := by
  induction cases generalizing before with
  | nil =>
    rw [walkCases_nil]
    exact refl _
  | cons case rest inductionHypothesis =>
    obtain ⟨test, body, span, announced⟩ := case
    rw [walkCases_cons]
    cases test with
    | none =>
      refine trans ?_ (inductionHypothesis tested _)
      rw [block_enter, walkOptional_none]
      exact refl _
    | some test =>
      refine trans ?_ (inductionHypothesis (fun test member => tested test (.tail _ member)) _)
      rw [block_enter, walkOptional]
      exact tested test (.head _) _

theorem branches_walkCases (cases : List Case) (before : Cases) :
    before.branches ⊆ (walkCases env cases before).branches := by
  induction cases generalizing before with
  | nil =>
    rw [walkCases_nil]
    exact List.Subset.refl _
  | cons case rest inductionHypothesis =>
    obtain ⟨test, body, span, announced⟩ := case
    rw [walkCases_cons]
    exact fun branch member => inductionHypothesis _ (branches_enter env _ body span rest member)

theorem hasDefault_walkCases (cases : List Case) (before : Cases) :
    (walkCases env cases before).hasDefault =
      (before.hasDefault || !cases.all (·.test.isSome)) := by
  induction cases generalizing before with
  | nil => simp [walkCases]
  | cons case rest inductionHypothesis =>
    obtain ⟨test, body, span, announced⟩ := case
    rw [walkCases_cons, inductionHypothesis, hasDefault_enter]
    cases test <;> simp

/-- Calm tests leave the record alone. -/
theorem record_walkCases {cases : List Case}
    (calm : (caseTests cases).all (everyExpr (isCalm env)) = true) (before : Cases) :
    (walkCases env cases before).walk.record = before.walk.record := by
  refine block_walkCases env (fun first second => second.record = first.record)
    (fun _ => rfl) (fun left right => right.trans left) (fun test member walk => ?_) before
  have own := List.all_eq_true.mp calm test member
  exact (drift_expr env test (.inl own) walk).eq_of_not not_false

/-- Control gets past the tests of cases that some run gets past. -/
theorem live_walkCases {cases : List Case} {otherwise : Runs Leave}
    (followed : (caseTests cases).all (everyExpr (pacesExits env)) = true)
    (calm : (caseTests cases).tail.all (everyExpr (isCalm env)) = true)
    (ends : (executeCases env otherwise cases).EndsCase) {before : Cases}
    (live : before.walk.Live) : (walkCases env cases before).walk.Live := by
  induction cases generalizing before with
  | nil => rwa [walkCases_nil]
  | cons case rest inductionHypothesis =>
    obtain ⟨test, body, span, announced⟩ := case
    rw [walkCases_cons]
    cases test with
    | none =>
      rw [executeCases] at ends
      refine inductionHypothesis followed calm ends ?_
      refine live_of_record (congrArg Block.record (block_enter env _ body span rest)) ?_
      rwa [walkOptional_none]
    | some test =>
      have calmRest : (caseTests rest).all (everyExpr (isCalm env)) = true := calm
      have followedTest : everyExpr (pacesExits env) test = true :=
        List.all_eq_true.mp followed test (.head _)
      rw [executeCases] at ends
      rcases Runs.endsCase_seq.mp ends with jumps | ⟨completes, _⟩
      · exact absurd jumps (Runs.not_jumps_lift _)
      · refine live_of_record (record_walkCases env calmRest _) ?_
        refine live_of_record (congrArg Block.record (block_enter env _ body span rest)) ?_
        rw [walkOptional]
        exact live_expr env test followedTest (Runs.endsIn_lift_none.mp completes) live

theorem keeps_walkCases (cases : List Case) {before : Cases} (returned : before.walk.MayReturn) :
    (walkCases env cases before).walk.MayReturn := by
  refine block_walkCases env (fun first second => first.MayReturn → second.MayReturn)
    (fun _ => id) (fun left right => right ∘ left) (fun test _ walk => ?_) before returned
  exact Exits.returns_of_le (drift_expr env test (.inr trivial) walk).possible_le

theorem walkFallThrough_cons (case : Case) (rest : List Case) (walk : Walk) :
    walkFallThrough env (case :: rest) walk =
      if (walkStmts env case.body walk).block.continues
      then walkFallThrough env rest (walkStmts env case.body walk)
      else walkStmts env case.body walk := by
  obtain ⟨test, body, span, announced⟩ := case
  rw [walkFallThrough]

theorem executeFrom_cons (case : Case) (rest : List Case) :
    executeFrom env (case :: rest) = (execute env case.body).seq (executeFrom env rest) := by
  obtain ⟨test, body, span, announced⟩ := case
  rw [executeFrom]

/-- The block of a case is that of its body, or of the bodies that it falls through to. -/
theorem enterCase_fst (body : List Stmt) (span : Span) (rest : List Case) (walk : Walk) :
    let ended := walkStmts env body { walk with block := walk.block.child }
    ∃ next : Walk, next.block = ended.block ∧ (enterCase env body span rest walk).1 =
      if ended.block.continues then (walkFallThrough env rest next).block else ended.block := by
  intro ended
  let checked := checkCaseBreak env span rest ended
  have same : checked.block = ended.block := block_checkCaseBreak env span rest ended
  refine ⟨{ checked with report := { checked.report with enabled := false } }, same, ?_⟩
  show Walk.block (if checked.block.continues then checked.silently _ else checked) = _
  rw [← same]
  split <;> rfl

/-! ### Entering a case -/

/-- The bodies of some cases are followed. -/
def BodiesFollow (cases : List Case) : Prop :=
  ∀ case ∈ cases, Follows (execute env case.body) (walkStmts env case.body)

/-- The walk over the bodies of some cases tells how they end. -/
def BodiesEnd (cases : List Case) : Prop :=
  ∀ case ∈ cases, Ends (execute env case.body) (walkStmts env case.body)

variable {env} {cases : List Case} (follow : BodiesFollow env cases)

include follow

theorem keeps_fallThrough {walk : Walk} (returned : walk.MayReturn) :
    (walkFallThrough env cases walk).MayReturn := by
  induction cases generalizing walk with
  | nil => rwa [walkFallThrough_nil]
  | cons case rest inductionHypothesis =>
    obtain ⟨follows, others⟩ := List.forall_mem_cons.mp follow
    rw [walkFallThrough_cons]
    split
    · exact inductionHypothesis others (follows.keeps returned)
    · exact follows.keeps returned

/-- Falling through goes on until a body is left. -/
theorem ends_fallThrough (ends : BodiesEnd env cases) :
    Ends (executeFrom env cases) (walkFallThrough env cases) := by
  induction cases with
  | nil =>
    rw [executeFrom_nil]
    exact .of_contained (.of_record (fun walk => by rw [walkFallThrough_nil]) (by simp))
      Runs.contained_done
  | cons case rest inductionHypothesis =>
    obtain ⟨follows, others⟩ := List.forall_mem_cons.mp follow
    obtain ⟨own, othersEnd⟩ := List.forall_mem_cons.mp ends
    have inner := inductionHypothesis others othersEnd
    rw [executeFrom_cons]
    constructor
    · intro passes walk live
      rw [walkFallThrough_cons]
      rcases Runs.endsCase_seq.mp passes with jumps | ⟨completes, passes⟩
      · rw [Walk.continues_eq_false (own.jumps jumps live), if_neg Bool.false_ne_true]
        exact own.rejoins (Runs.endsCase_iff.mpr (.inr jumps)) live
      · have reached := follows.live completes live
        rw [if_pos reached.continues]
        exact inner.rejoins passes reached
    · intro jumps walk live
      rw [walkFallThrough_cons]
      rcases Runs.jumps_seq.mp jumps with jumps | ⟨completes, jumps⟩
      · rw [Walk.continues_eq_false (own.jumps jumps live), if_neg Bool.false_ne_true]
        exact own.jumps jumps live
      · have reached := follows.live completes live
        rw [if_pos reached.continues]
        exact inner.jumps jumps reached

/-- A run that enters a case and gets past the `switch` finds the block of the case going on. -/
theorem rejoins_enterCase {body : List Stmt}
    (follows : Follows (execute env body) (walkStmts env body))
    (own : Ends (execute env body) (walkStmts env body)) (ends : BodiesEnd env cases)
    (span : Span) (walk : Walk)
    (passes : ((execute env body).seq (executeFrom env cases)).EndsCase) :
    Rejoins (enterCase env body span cases walk).1 := by
  have fresh : ({ walk with block := walk.block.child } : Walk).Live := rfl
  obtain ⟨next, same, equal⟩ := enterCase_fst env body span cases walk
  rw [equal]
  rcases Runs.endsCase_seq.mp passes with jumps | ⟨completes, passes⟩
  · rw [Walk.continues_eq_false (own.jumps jumps fresh), if_neg Bool.false_ne_true]
    exact own.rejoins (Runs.endsCase_iff.mpr (.inr jumps)) fresh
  · have reached := follows.live completes fresh
    rw [if_pos reached.continues]
    exact (ends_fallThrough follow ends).rejoins passes
      (live_of_record (congrArg Block.record same) reached)

/-- A `return` in the body of a case is noticed. -/
theorem mayReturn_enterCase {body : List Stmt}
    (follows : Follows (execute env body) (walkStmts env body)) (span : Span) (walk : Walk)
    (returns : (execute env body).EndsIn (some .returned)) :
    (enterCase env body span cases walk).1.MayReturn := by
  have returned : (walkStmts env body { walk with block := walk.block.child }).MayReturn :=
    follows.returns returns rfl
  obtain ⟨next, same, equal⟩ := enterCase_fst env body span cases walk
  rw [equal]
  split
  · exact keeps_fallThrough follow
      (Block.mayReturn_of_record (congrArg Block.record same) returned)
  · exact returned

/-! ### Entering some case -/

/--
A run that enters the first of some cases, or falls into it, and gets past the `switch` finds the
block of one of the cases going on.
-/
theorem rejoins_from (ends : BodiesEnd env cases)
    (last : cases.getLast?.all (!·.body.isEmpty) = true) (nonempty : cases ≠ [])
    (passes : (executeFrom env cases).EndsCase) (before : Cases) :
    ∃ branch ∈ (walkCases env cases before).branches, Rejoins branch := by
  induction cases generalizing before with
  | nil => exact absurd rfl nonempty
  | cons case rest inductionHypothesis =>
    obtain ⟨test, body, span, announced⟩ := case
    obtain ⟨follows, others⟩ := List.forall_mem_cons.mp follow
    obtain ⟨own, othersEnd⟩ := List.forall_mem_cons.mp ends
    rw [walkCases_cons]
    cases empty : body.isEmpty with
    | false =>
      rw [executeFrom] at passes
      exact ⟨_, branches_walkCases env rest _ (mem_branches_enter env _ empty span rest),
        rejoins_enterCase others follows own othersEnd span _ passes⟩
    | true =>
      obtain rfl := List.isEmpty_iff.mp empty
      rw [executeFrom, execute, Runs.done_seq] at passes
      cases rest with
      | nil => simp at last
      | cons next rest =>
        exact inductionHypothesis others othersEnd (by simpa using last) (by simp) passes _

/-- A `return` in the bodies that a run falls through is noticed in the block of one of them. -/
theorem mayReturn_from (returns : (executeFrom env cases).EndsIn (some .returned))
    (before : Cases) : ∃ branch ∈ (walkCases env cases before).branches, branch.MayReturn := by
  induction cases generalizing before with
  | nil => simp [executeFrom] at returns
  | cons case rest inductionHypothesis =>
    obtain ⟨test, body, span, announced⟩ := case
    obtain ⟨follows, others⟩ := List.forall_mem_cons.mp follow
    rw [walkCases_cons]
    rw [executeFrom] at returns
    rcases Runs.endsIn_seq_some.mp returns with returns | ⟨_, returns⟩
    · cases empty : body.isEmpty with
      | false =>
        exact ⟨_, branches_walkCases env rest _ (mem_branches_enter env _ empty span rest),
          mayReturn_enterCase others follows span _ returns⟩
      | true =>
        obtain rfl := List.isEmpty_iff.mp empty
        simp [execute] at returns
    · exact inductionHypothesis others returns _

end

/-! ### Entering no case or some case -/

/-- Some run that enters one of the cases ends so. -/
def EntersWith (env : Env) (cases : List Case) (exit : Option Leave) : Prop :=
  ∃ later, later <:+ cases ∧ later ≠ [] ∧ (executeFrom env later).EndsIn exit

section

variable {env : Env} {cases : List Case} {exit : Option Leave}

theorem EntersWith.first (test : Option Expr) {body : List Stmt} (span : Span) (announced : Bool)
    (ends : ((execute env body).seq (executeFrom env cases)).EndsIn exit) :
    EntersWith env (⟨test, body, span, announced⟩ :: cases) exit := by
  refine ⟨_, List.suffix_refl _, by simp, ?_⟩
  rwa [executeFrom_cons]

theorem EntersWith.later (entered : EntersWith env cases exit) (case : Case) :
    EntersWith env (case :: cases) exit := by
  obtain ⟨later, isLater, nonempty, ends⟩ := entered
  exact ⟨later, isLater.trans (List.suffix_cons case cases), nonempty, ends⟩

/-- A default case is one of the cases. -/
theorem endsIn_executeDefault (ends : (executeDefault env cases).EndsIn exit) :
    exit = none ∧ cases.all (·.test.isSome) = true ∨ EntersWith env cases exit := by
  induction cases with
  | nil =>
    rw [executeDefault_nil, Runs.endsIn_done] at ends
    exact .inl ⟨ends, rfl⟩
  | cons case rest inductionHypothesis =>
    obtain ⟨test, body, span, announced⟩ := case
    rw [executeDefault] at ends
    cases test with
    | none => exact .inr (.first none span announced ends)
    | some test =>
      rcases inductionHypothesis ends with ⟨equal, tested⟩ | entered
      · exact .inl ⟨equal, by simpa using tested⟩
      · exact .inr (entered.later _)

/-- A run of the cases enters one of them or none, unless a test was aborted. -/
theorem endsIn_executeCases {otherwise : Runs Leave}
    (ends : (executeCases env otherwise cases).EndsIn exit)
    (running : ∀ abort, exit ≠ some (.aborted abort)) :
    otherwise.EndsIn exit ∨ EntersWith env cases exit := by
  induction cases with
  | nil =>
    rw [executeCases_nil] at ends
    exact .inl ends
  | cons case rest inductionHypothesis =>
    obtain ⟨test, body, span, announced⟩ := case
    cases test with
    | none =>
      rw [executeCases] at ends
      exact (inductionHypothesis ends).imp_right (·.later _)
    | some test =>
      rw [executeCases] at ends
      have outcome : Runs.EndsIn ((execute env body).seq (executeFrom env rest) ∪
          executeCases env otherwise rest) exit := by
        cases exit with
        | none => exact (Runs.endsIn_seq_none.mp ends).2
        | some exit =>
          rcases Runs.endsIn_seq_some.mp ends with ends | ⟨_, ends⟩
          · obtain ⟨abort, equal⟩ := Runs.endsIn_lift_some ends
            exact absurd (congrArg some equal) (running abort)
          · exact ends
      rcases Runs.endsIn_union.mp outcome with ends | ends
      · exact .inr (.first _ span announced ends)
      · exact (inductionHypothesis ends).imp_right (·.later _)

/-- The walk over some cases comes to each of them. -/
theorem walkCases_suffix (env : Env) {later : List Case} (isLater : later <:+ cases) (before : Cases) :
    ∃ between, walkCases env cases before = walkCases env later between := by
  obtain ⟨earlier, rfl⟩ := isLater
  induction earlier generalizing before with
  | nil => exact ⟨before, rfl⟩
  | cons case rest inductionHypothesis =>
    obtain ⟨test, body, span, announced⟩ := case
    rw [List.cons_append, walkCases_cons]
    exact inductionHypothesis _

end

/-! ### The whole statement -/

theorem live_closeCases {cases : Cases} (live : cases.walk.Live)
    (reached : cases.hasDefault = false ∨ ∃ branch ∈ cases.branches, Rejoins branch) :
    cases.close.Live := by
  have someStays : (cases.hasDefault && !cases.branches.isEmpty &&
      cases.branches.all fun branch => !(caseExits branch).isEmpty) = false := by
    rcases reached with none | ⟨branch, member, rejoins⟩
    · rw [none, Bool.false_and, Bool.false_and]
    · rw [Bool.and_eq_false_iff, List.all_eq_false]
      unfold Rejoins at rejoins
      exact .inr ⟨branch, member, by simp [rejoins]⟩
  show Exits.isEmpty (if _ then _ else _) = true
  rw [someStays, if_neg Bool.false_ne_true]
  exact live

theorem mayReturn_closeCases {cases : Cases}
    (returned : cases.walk.MayReturn ∨ ∃ branch ∈ cases.branches, branch.MayReturn) :
    cases.close.MayReturn :=
  (Block.returns_foldl_possible cases.branches _).mpr returned

section

variable {env : Env} {cases : List Case}

/-- A run that gets past the `switch` finds the block of a case going on, or passes all cases by. -/
theorem reached_walkCases (follow : BodiesFollow env cases) (ends : BodiesEnd env cases)
    (last : cases.getLast?.all (!·.body.isEmpty) = true)
    (passes : (executeCases env (executeDefault env cases) cases).EndsCase) (before : Cases) :
    cases.all (·.test.isSome) = true ∨
      ∃ branch ∈ (walkCases env cases before).branches, Rejoins branch := by
  obtain ⟨exit, passes, ends'⟩ := passes
  have entered : cases.all (·.test.isSome) = true ∨ EntersWith env cases exit := by
    rcases endsIn_executeCases ends' (by rintro abort rfl; cases passes) with ends' | entered
    · exact (endsIn_executeDefault ends').imp_left And.right
    · exact .inr entered
  refine entered.imp_right fun ⟨later, isLater, nonempty, ends'⟩ => ?_
  obtain ⟨between, equal⟩ := walkCases_suffix env isLater before
  rw [equal]
  refine rejoins_from (fun case member => follow case (isLater.subset member))
    (fun case member => ends case (isLater.subset member)) ?_ nonempty ⟨exit, passes, ends'⟩ between
  obtain ⟨earlier, rfl⟩ := isLater
  rwa [List.getLast?_append_of_ne_nil _ nonempty] at last

/-- A `return` in a case is noticed in the block of a case. -/
theorem mayReturn_walkCases (follow : BodiesFollow env cases)
    (returns : (executeCases env (executeDefault env cases) cases).EndsIn (some .returned))
    (before : Cases) : ∃ branch ∈ (walkCases env cases before).branches, branch.MayReturn := by
  have entered : EntersWith env cases (some .returned) := by
    rcases endsIn_executeCases returns (by simp) with returns | entered
    · exact (endsIn_executeDefault returns).resolve_left fun passed => by simp at passed
    · exact entered
  obtain ⟨later, isLater, _, returns⟩ := entered
  obtain ⟨between, equal⟩ := walkCases_suffix env isLater before
  rw [equal]
  exact mayReturn_from (fun case member => follow case (isLater.subset member)) returns between

/-- The walk over the cases of a `switch` follows their runs. -/
theorem follows_cases (tested : (caseTests cases).all (everyExpr (pacesExits env)) = true)
    (ordered : followsCases env cases = true) (follow : BodiesFollow env cases)
    (ends : cases.all (fun case => jumpsLast env case.body) = true → BodiesEnd env cases) :
    Follows ((executeCases env (executeDefault env cases) cases).round Runs.done)
      fun walk => (walkCases env cases { walk }).close where
  live completes walk live := by
    simp only [followsCases, Bool.and_eq_true, Bool.or_eq_true] at ordered
    have passes := Runs.endsIn_round_done.mp completes
    refine live_closeCases (live_walkCases env tested ordered.1 passes live) ?_
    rw [hasDefault_walkCases]
    have reached : cases.all (·.test.isSome) = true ∨
        ∃ branch ∈ (walkCases env cases { walk }).branches, Rejoins branch := by
      rcases ordered.2 with allTested | ⟨jumps, last⟩
      · exact .inl allTested
      · exact reached_walkCases follow (ends jumps) last passes _
    exact reached.imp_left fun allTested => by rw [allTested]; rfl
  returns returns walk _ :=
    mayReturn_closeCases (.inr (mayReturn_walkCases follow (Runs.returned_of_round_done returns) _))
  keeps returned := mayReturn_closeCases (.inl (keeps_walkCases env cases returned))

/-- The walk over a `switch` follows its runs. -/
theorem follows_switch {subject : Expr} (followed : everyExpr (pacesExits env) subject = true)
    (tested : (caseTests cases).all (everyExpr (pacesExits env)) = true)
    (ordered : followsCases env cases = true) (follow : BodiesFollow env cases)
    (ends : cases.all (fun case => jumpsLast env case.body) = true → BodiesEnd env cases)
    (span : Span) :
    Follows (executeKind env span (.switch subject cases))
      (walkStmtKind env (.switch subject cases)) := by
  have valued : Follows (evaluate env subject).lift (walkExpr env subject) :=
    .of_drift (drift_expr env subject (.inr trivial)) (live_expr env subject followed)
  rw [executeKind]
  exact (valued.seq (follows_cases tested ordered follow ends)).congr_record fun walk => by
    rw [walkStmtKind]

end

/-! ### Loops that test last -/

/-- A block that was left keeps its exits. -/
theorem exits_of_drift {leaves : Prop} {first second : ExitRecord}
    (drift : Drift leaves first second) (left : first.exits.isEmpty = false) :
    second.exits = first.exits := by
  induction drift with
  | refl => rfl
  | leave _ record exits =>
    rw [ExitRecord.leave, if_neg (by simp [left])]
  | trans _ _ inner outer =>
    have equal := inner left
    rw [outer (by rw [equal, left]), equal]
  | restore => rfl

/-- The end of a loop that is walked in the block around it. -/
def closeLoop (insideLoop : Bool) (walk : Walk) : Walk :=
  walk.mapBlock fun block =>
    { block with
      insideLoop
      exits := block.exits \ Exits.loopLocal }

theorem live_closeLoop {walk : Walk} (insideLoop : Bool) (rejoins : Rejoins walk.block) :
    (closeLoop insideLoop walk).Live :=
  rejoins

/-- The body of a `do` loop is walked like code before the loop. -/
theorem follows_doWhile {env : Env} {body : List Stmt} {test : Expr}
    (followed : everyExpr (pacesExits env) test = true)
    (follows : Follows (execute env body) (walkStmts env body))
    (ends : Ends (execute env body) (walkStmts env body)) (span : Span) :
    Follows (executeKind env span (.doWhile body test))
      (walkStmtKind env (.doWhile body test)) := by
  let entered (walk : Walk) := walk.mapBlock fun block => { block with insideLoop := true }
  have closed (walk : Walk) : walkStmtKind env (.doWhile body test) walk =
      closeLoop walk.block.insideLoop (walkExpr env test (walkStmts env body (entered walk))) := by
    rw [walkStmtKind]
    rfl
  have keepsTest {walk : Walk} (returned : walk.MayReturn) : (walkExpr env test walk).MayReturn :=
    Exits.returns_of_le (drift_expr env test (.inr trivial) walk).possible_le returned
  rw [executeKind]
  constructor
  · intro completes walk live
    have live : (entered walk).Live := live
    rw [closed]
    refine live_closeLoop _ ?_
    obtain ⟨middle, bodyEnds, completes⟩ := Runs.endsIn_bind.mp completes
    have jumped (jumps : (execute env body).Jumps) :
        Rejoins (walkExpr env test (walkStmts env body (entered walk))).block := by
      have left := Walk.continues_eq_false (ends.jumps jumps live)
      have kept := exits_of_drift (drift_expr env test (.inr trivial) _) left
      unfold Rejoins caseExits
      rw [show (walkExpr env test _).block.exits = _ from kept]
      exact ends.rejoins (Runs.endsCase_iff.mpr (.inr jumps)) live
    cases middle with
    | none =>
      have tested := Runs.endsIn_lift_none.mp (Runs.endsIn_loop_none completes)
      exact rejoins_of_continues
        (live_expr env test followed tested (follows.live bodyEnds live)).continues
    | some exit =>
      cases exit with
      | continued => exact jumped (.inr bodyEnds)
      | broke => exact jumped (.inl bodyEnds)
      | returned | aborted => simp at completes
  · intro returns walk live
    rw [closed]
    refine keepsTest (follows.returns ?_ live)
    rcases Runs.endsIn_round returns with returns | equal | ⟨_, _, returns, _⟩
    · rcases Runs.endsIn_loop_some returns with equal | tested | stepped | ⟨_, returns, _⟩
      · cases equal
      · exact absurd tested (Runs.not_returned_lift _)
      · simp at stepped
      · exact returns
    · cases equal
    · exact returns
  · intro walk returned
    rw [closed]
    exact keepsTest (follows.keeps returned)

end Flow

end PhpAudit
