/-
This file proves that the walk over statements makes a variable held only where every run that
completes the statements gives it a value. What is held after paths were joined is held on all of
them; a branch that is not counted was left, and no run comes out of it. Loops and exceptions give
nothing by themselves, since a body may not run, or not to its end.

The main result is about `switch`. If its walk leaves the block, no run completes the statement, and
the variables that it makes held have a value in every run that does.
-/

import PhpAudit.Proofs.Flow.Cases
import PhpAudit.Proofs.Flow.Tracking

namespace PhpAudit

open Execution

namespace Flow

/-- Plain statements whose expressions give no variable a value. -/
def bindsNowhere (env : Env) (name : String) (body : List Stmt) : Bool :=
  everyStmt (fun expr => everyExpr (bindsSurely env name) expr && everyExpr (bindsNothing env) expr)
    (fun _ => isPlain) true body

mutual

/-- From the first statement that may jump on, nothing is given a value. -/
def bindsEarly (env : Env) (name : String) : List Stmt → Bool
  | [] => true
  | ⟨kind, span⟩ :: rest =>
    staysInside [⟨kind, span⟩] && bindsEarly env name rest ||
      rest.isEmpty && bindsInBraces env name kind || bindsNowhere env name (⟨kind, span⟩ :: rest)

def bindsInBraces (env : Env) (name : String) : StmtKind → Bool
  | .block body => bindsEarly env name body
  | _ => false

end

/--
The statements in which the walk follows what becomes of a variable. What is walked as if it ran and
may not run gives nothing: code after a jump in a body, the tests of later cases, the step of a `for`
loop, and the test of a `do` loop that may be broken off.
-/
def bindsFlow (env : Env) (name : String) (inLoop : Bool) (kind : StmtKind) : Bool :=
  followsJumps env inLoop kind && match kind with
    | .switch _ cases =>
      (caseTests cases).tail.all (everyExpr (bindsNothing env)) &&
        (cases.all (·.test.isSome) || cases.all fun case => bindsEarly env name case.body)
    | .forLoop _ _ step _ => step.all (everyExpr (bindsNothing env))
    | .doWhile body test =>
      bindsEarly env name body && (staysInside body || everyExpr (bindsNothing env) test)
    | _ => true

/-- Statements of this fragment, at any depth. -/
abbrev Traced (env : Env) (name : String) (inLoop : Bool) (body : List Stmt) : Prop :=
  everyStmt (everyExpr (bindsSurely env name)) (bindsFlow env name) inLoop body = true

section

variable {env : Env} {name : String} {inLoop : Bool}

theorem followsJumps_of_bindsFlow (inLoop : Bool) (kind : StmtKind)
    (own : bindsFlow env name inLoop kind = true) : followsJumps env inLoop kind = true :=
  (Bool.and_eq_true_iff.mp own).1

theorem paced_of_traced {body : List Stmt} (traced : Traced env name inLoop body) :
    Paced env inLoop body :=
  everyStmt_mono (fun _ => paced_of_surely) followsJumps_of_bindsFlow inLoop body traced

theorem follows_of_traced {body : List Stmt} (traced : Traced env name inLoop body) :
    Follows (execute env body) (walkStmts env body) :=
  follows_body env inLoop body (paced_of_traced traced)

/-! ### Branches of an `if` -/

namespace Chain

/-- Every path goes through a branch that goes on, and all of these hold the variable. -/
def Covers (chain : Chain) (name : String) : Prop :=
  chain.links = (Block.ongoing chain.branches).length ∧
    ∀ branch ∈ Block.ongoing chain.branches, branch.scope.Holds true name

/--
Further branches, which stand for `runs`. They cover the variable only if it was held where they
start, or every run writes it.
-/
structure Binds (initial : Scope) (name : String) (runs : Runs Leave) (before after : Chain) :
    Prop where
  block : after.walk.block = before.walk.block
  counted : before.Counted → after.Counted
  covers : before.Counted → after.Covers name → before.Covers name ∧
    (initial.Holds true name ∨ before.no.scope.Holds true name ∨ runs.Writes name)

theorem counted_pushBranch {chain : Chain} (counted : chain.Counted) (initial : Scope)
    (body : List Stmt) (split : Split) (walk : Walk) :
    (chain.pushBranch env initial body split walk).Counted := by
  let ended := walk.within split.yes (walkStmts env body)
  have lengths := chain.length_ongoing_push initial ended.1 ended.2
  show (Block.ongoing (chain.push initial ended.1 ended.2).branches).length ≤
    (chain.push initial ended.1 ended.2).links
  unfold Counted at counted
  omega

/-- A branch that is left is completed by no run, and another one has to hold the variable. -/
theorem covers_pushBranch {body : List Stmt}
    (follows : Follows (execute env body) (walkStmts env body))
    (binds : PhpAudit.Binds true name false (execute env body) (walkStmts env body))
    (initial : Scope) (split : Split) (walk : Walk) (chain : Chain)
    (covers : (chain.pushBranch env initial body split walk).Covers name) :
    chain.Covers name ∧ (split.yes.continues = true → initial.Holds true name ∨
      split.yes.scope.Holds true name ∨ (execute env body).Writes name) := by
  let ended := walk.within split.yes (walkStmts env body)
  have covers : (chain.push initial ended.1 ended.2).Covers name := covers
  obtain ⟨links, held⟩ := covers
  have lengths := chain.length_ongoing_push initial ended.1 ended.2
  rw [branches_push, Block.ongoing_append] at held
  refine ⟨⟨by omega, fun branch member => held branch (List.mem_append_left _ member)⟩,
    fun live => ?_⟩
  cases continues : ended.1.continues with
  | false =>
    refine .inr (.inr (Runs.writes_of_not_endsIn fun completes => ?_))
    have reached : ended.1.continues = true :=
      follows.live completes (walk.live_withBlock live)
    exact Bool.false_ne_true (continues.symm.trans reached)
  | true =>
    have own := held (ended.1.restoreImplicit initial) (List.mem_append_right _
      (Block.mem_ongoing (List.mem_singleton_self _) continues))
    rcases Block.of_holds_restoreImplicit own with own | before
    · exact .inr ((binds _ own).imp_right And.right)
    · exact .inl before

/-- What is held after the branches are joined. -/
theorem of_holds_close {chain : Chain} (counted : chain.Counted) {continuesInFalse : Bool}
    (holds : (chain.close continuesInFalse).scope.Holds true name) :
    (if continuesInFalse then chain.no.scope else chain.walk.scope).Holds true name ∨
      chain.Covers name := by
  have joined := Walk.of_holds_dropMarkers holds
  rcases Block.forall_of_holds_merge counted joined with before | covers
  · left
    cases continuesInFalse <;> exact before
  · exact .inr covers

end Chain

/-- A condition, which is true in one outcome and false in the other. -/
theorem of_holds_condition (outermost : env.enclosing = []) {test : Expr}
    (surely : everyExpr (bindsSurely env name) test = true) (markers : List String) (walk : Walk) :
    let split := (walkTest env false false test (.start walk markers)).split walk.block
    (split.walk.scope.Holds true name →
      walk.scope.Holds true name ∨ (evaluate env test).Writes name) ∧
    (split.yes.scope.Holds true name →
      walk.scope.Holds true name ∨ (evaluate env test).Writes name) ∧
    (split.no.scope.Holds true name →
      walk.scope.Holds true name ∨ (evaluate env test).Writes name) :=
  of_holds_outcomes surely (fun always guard holds =>
    (binds_test outermost always false false test surely guard holds).imp_right And.right)
      true markers walk

section

variable (outermost : env.enclosing = []) {test : Expr} {body : List Stmt} {rest : Otherwise}

theorem binds_nothing (initial : Scope) (chain : Chain) :
    Chain.Binds initial name (executeOtherwise env .nothing) chain
      (walkOtherwise env initial .nothing chain) := by
  rw [walkOtherwise]
  refine ⟨rfl, fun counted => Nat.le_succ_of_le counted, fun counted covers => ?_⟩
  -- the path past all branches holds nothing
  have links : chain.links + 1 = (Block.ongoing chain.branches).length := covers.1
  unfold Chain.Counted at counted
  omega

theorem binds_orElse (follows : Follows (execute env body) (walkStmts env body))
    (binds : Binds true name false (execute env body) (walkStmts env body)) (initial : Scope)
    (chain : Chain) (no : chain.no.continues = true) :
    Chain.Binds initial name (executeOtherwise env (.orElse body)) chain
      (walkOtherwise env initial (.orElse body) chain) := by
  let split : Split := ⟨chain.walk, chain.no, chain.no, chain.markers⟩
  rw [executeOtherwise, walkOtherwise]
  exact ⟨rfl, fun counted => Chain.counted_pushBranch counted initial body split chain.walk,
    fun _ covers => (Chain.covers_pushBranch follows binds initial split chain.walk chain
      covers).imp_right fun own => own no⟩

include outermost

/-- A branch with its test, and the branches after it. -/
theorem covers_branch (surely : everyExpr (bindsSurely env name) test = true)
    (follows : Follows (execute env body) (walkStmts env body))
    (binds : Binds true name false (execute env body) (walkStmts env body)) (initial : Scope)
    (markers : List String) (walk : Walk) (outer : Block) (chain : Chain) {others : Runs Leave}
    {after : Chain} :
    let split := (walkTest env false false test (.start walk markers)).split walk.block
    let pushed := chain.pushBranch env initial body split { split.walk with block := outer }
    Chain.Binds initial name others pushed after → pushed.Counted → after.Covers name →
      chain.Covers name ∧ (initial.Holds true name ∨ walk.scope.Holds true name ∨
        ((evaluate env test).lift.seq (execute env body ∪ others)).Writes name) := by
  intro split pushed further counted covers
  obtain ⟨covers, afterwards⟩ := further.covers counted covers
  obtain ⟨covers, own⟩ := Chain.covers_pushBranch follows binds initial split _ chain covers
  refine ⟨covers, ?_⟩
  obtain ⟨_, whereTrue, whereFalse⟩ := of_holds_condition outermost surely markers walk
  by_cases completes : (evaluate env test).EndsIn none
  · have live : split.yes.continues = true :=
      continues_yes env (paced_of_surely surely) walk markers walk.block
        (Runs.endsIn_lift_none.mpr completes)
    have tested (writes : (evaluate env test).Writes name) :
        ((evaluate env test).lift.seq (execute env body ∪ others)).Writes name :=
      Runs.writes_seq.mpr (.inl (Runs.writes_lift.mpr writes))
    rcases own live with before | yes | writes
    · exact .inl before
    · exact .inr ((whereTrue yes).imp_right tested)
    rcases afterwards with before | no | othersWrite
    · exact .inl before
    · exact .inr ((whereFalse no).imp_right tested)
    · exact .inr (.inr (Runs.writes_seq.mpr (.inr (Runs.writes_union.mpr ⟨writes, othersWrite⟩))))
  · exact .inr (.inr (Runs.writes_of_not_endsIn fun ends =>
      completes (Runs.endsIn_lift_none.mp (Runs.endsIn_seq_none.mp ends).1)))

theorem binds_orIf (span : Span) (surely : everyExpr (bindsSurely env name) test = true)
    (follows : Follows (execute env body) (walkStmts env body))
    (binds : Binds true name false (execute env body) (walkStmts env body)) (initial : Scope)
    (others : ∀ chain : Chain, chain.no.continues = true →
      Chain.Binds initial name (executeOtherwise env rest) chain
        (walkOtherwise env initial rest chain)) (chain : Chain) :
    Chain.Binds initial name (executeOtherwise env (.orIf test body span rest)) chain
      (walkOtherwise env initial (.orIf test body span rest) chain) := by
  let inner : Walk := { chain.walk with block := chain.no }
  let split := (walkTest env false false test (.start inner chain.markers)).split chain.no
  let pushed := chain.pushBranch env initial body split
    { split.walk with block := chain.walk.block }
  have further := others pushed (continues_no env test inner chain.markers chain.no)
  have pushedCounted (counted : chain.Counted) : pushed.Counted :=
    Chain.counted_pushBranch counted initial body split _
  rw [executeOtherwise, walkOtherwise]
  exact ⟨further.block, fun counted => further.counted (pushedCounted counted),
    fun counted => covers_branch outermost surely follows binds initial chain.markers inner
      chain.walk.block chain further (pushedCounted counted)⟩

theorem binds_branch (bodySpan span : Span)
    (surely : everyExpr (bindsSurely env name) test = true)
    (follows : Follows (execute env body) (walkStmts env body))
    (binds : Binds true name false (execute env body) (walkStmts env body))
    (others : ∀ (initial : Scope) (chain : Chain), chain.no.continues = true →
      Chain.Binds initial name (executeOtherwise env rest) chain
        (walkOtherwise env initial rest chain)) :
    Binds true name false (executeKind env span (.branch test body bodySpan rest))
      (walkStmtKind env (.branch test body bodySpan rest)) := by
  intro walk holds
  obtain ⟨flag, -, single, equal⟩ := walkStmtKind_branch env test body bodySpan rest walk
  let split := (walkTest env false false test (.start walk [])).split walk.block
  let start := Chain.start split
  let pushed := start.pushBranch env walk.scope body split split.walk
  have fresh : start.Counted := Nat.le_refl 0
  have counted : pushed.Counted :=
    Chain.counted_pushBranch fresh walk.scope body split split.walk
  have further := others walk.scope pushed (continues_no env test walk [] walk.block)
  obtain ⟨around, _, whereFalse⟩ := of_holds_condition outermost surely [] walk
  rw [equal] at holds
  rw [executeKind]
  have tested (writes : (evaluate env test).Writes name) :
      ((evaluate env test).lift.seq (execute env body ∪ executeOtherwise env rest)).Writes name :=
    Runs.writes_seq.mpr (.inl (Runs.writes_lift.mpr writes))
  rcases Chain.of_holds_close (further.counted counted) holds with holds | covers
  · refine Or.imp_right (fun writes => ⟨rfl, tested writes⟩) ?_
    cases flag with
    | false =>
      have same : (walkOtherwise env walk.scope rest pushed).walk.scope = split.walk.scope :=
        congrArg Block.scope further.block
      rw [if_neg Bool.false_ne_true, same] at holds
      exact around holds
    | true =>
      have alone : rest = .nothing := by
        by_contra more
        cases single more
      subst alone
      rw [if_pos rfl, walkOtherwise] at holds
      exact whereFalse holds
  · obtain ⟨_, before | holds | writes⟩ := covers_branch outermost surely follows binds walk.scope []
      walk split.walk.block start further counted covers
    · exact .inl before
    · exact .inl holds
    · exact .inr ⟨rfl, writes⟩

end

/-! ### Exceptions -/

/-- Whatever a body gave a value before it threw may have none. -/
theorem of_holds_afterThrow {block body : Block}
    (holds : (afterThrow block body).scope.Holds true name) : block.scope.Holds true name := by
  have added (entries : List (String × VarInfo)) (after : Block)
      (holds : (entries.foldl (fun after entry =>
        after.mapScope (·.add entry.1 entry.2.types false)) after).scope.Holds true name) :
      after.scope.Holds true name := by
    induction entries generalizing after with
    | nil => exact holds
    | cons entry rest inductionHypothesis =>
      exact (Scope.of_holds_add (inductionHypothesis _ holds)).resolve_right
        fun added => by simpa using added.2.1
  exact added body.scope.entries block.child holds

theorem length_ongoing_walkCatches (env : Env) (thrown : Block) (clauses : List Catch) (before : Catches) :
    (Block.ongoing (walkCatches env thrown clauses before).branches).length + before.links =
      (Block.ongoing before.branches).length +
        (walkCatches env thrown clauses before).links := by
  induction clauses generalizing before with
  | nil => rw [walkCatches_nil]
  | cons clause rest inductionHypothesis =>
    obtain ⟨types, clauseName, body, span⟩ := clause
    rw [walkCatches]
    let ended := before.walk.within thrown.child fun walk =>
      walkStmts env body (bindCaught env types clauseName walk)
    have pushed := before.length_ongoing_push ended.1 ended.2
    have further := inductionHypothesis (before.push ended.1 ended.2)
    show (Block.ongoing (walkCatches env thrown rest (before.push ended.1 ended.2)).branches).length +
      _ = _ + (walkCatches env thrown rest (before.push ended.1 ended.2)).links
    omega

/-- Clauses hold the variable at their ends only if it was held at the start, or they write it. -/
def CatchesBind (env : Env) (name : String) (clauses : List Catch) : Prop :=
  ∀ (thrown : Block) (before : Catches),
    (∀ branch ∈ Block.ongoing (walkCatches env thrown clauses before).branches,
      branch.scope.Holds true name) →
    thrown.scope.Holds true name ∨ (executeCatches env clauses).Writes name

theorem binds_bindCaught (env : Env) (types : List String) (clauseName : Option String) (span : Span) :
    Binds true name false (bindException span clauseName) (bindCaught env types clauseName) := by
  intro walk holds
  cases clauseName with
  | none => exact .inl holds
  | some other =>
    rcases Scope.of_holds_assign holds with rfl | holds
    · exact .inr ⟨rfl, Runs.writes_write span⟩
    · exact .inl holds

theorem binds_catch {body : List Stmt} {rest : List Catch} (types : List String)
    (clauseName : Option String) (span : Span)
    (follows : Follows (execute env body) (walkStmts env body))
    (binds : Binds true name false (execute env body) (walkStmts env body))
    (extended : ∀ (thrown : Block) (catches : Catches), catches.Extends (executeCatches env rest)
      (walkCatches env thrown rest catches))
    (others : CatchesBind env name rest) :
    CatchesBind env name (⟨types, clauseName, body, span⟩ :: rest) := by
  intro thrown before held
  rw [walkCatches] at held
  rw [executeCatches, Runs.writes_union]
  have whole := (binds_bindCaught env types clauseName span).seq binds
  have wholeFollows := Follows.seq (Follows.of_record (record_bindCaught env types clauseName)
    (endsIn_bindException span clauseName _)) follows
  let started : Walk := { before.walk with block := thrown.child }
  let ended := before.walk.within thrown.child fun walk =>
    walkStmts env body (bindCaught env types clauseName walk)
  have further := extended thrown (before.push ended.1 ended.2)
  have own : thrown.scope.Holds true name ∨
      ((bindException span clauseName).seq (execute env body)).Writes name := by
    by_cases completes : ((bindException span clauseName).seq (execute env body)).EndsIn none
    · have continues : ended.1.continues = true := wholeFollows.live completes rfl
      exact (whole started (held ended.1 (Block.mem_ongoing (further.branches
        (List.mem_append_right _ (List.mem_singleton_self _))) continues))).imp_right And.right
    · exact .inr (Runs.writes_of_not_endsIn completes)
  rcases own with holds | writes
  · exact .inl holds
  · exact (others thrown _ held).imp_right fun othersWrite => ⟨writes, othersWrite⟩

theorem of_holds_closeTry {tried : Block} {catches : Catches}
    (counted : (Block.ongoing catches.branches).length = catches.links)
    (holds : (closeTry tried catches).scope.Holds true name) :
    catches.walk.scope.Holds true name ∨
      ∀ branch ∈ Block.ongoing (catches.branches ++ [tried]), branch.scope.Holds true name := by
  have lengths : (Block.ongoing (catches.branches ++ [tried])).length =
      if tried.continues then catches.links + 1 else catches.links := by
    rw [Block.ongoing_append, List.length_append, Block.length_ongoing_singleton, counted]
    split <;> rfl
  exact (Block.forall_of_holds_merge (Nat.le_of_eq lengths) holds).imp_right And.right

theorem of_holds_closeFinally {finished : Block} {walk : Walk}
    (holds : (closeFinally finished walk).scope.Holds true name) :
    walk.scope.Holds true name ∨ finished.scope.Holds true name := by
  refine Scope.of_holds_foldl _ (fun scope item member holds => ?_) holds
  obtain ⟨other, info⟩ := item
  rcases Scope.of_holds_add holds with holds | ⟨rfl, flagged, genuine⟩
  · exact .inl holds
  · refine .inr ⟨info, (Scope.mem_entries _ _).mp member, fun _ => ?_, ?_⟩
    · exact (Bool.and_eq_true_iff.mp (flagged rfl)).2
    · simp [VarInfo.genuine, genuine]

section

variable {body : List Stmt} {catches : List Catch}
  (follows : Follows (execute env body) (walkStmts env body))
  (binds : Binds true name false (execute env body) (walkStmts env body))
  (clauses : CatchesBind env name catches)

include follows binds clauses

/-- A run through a `try` comes out of its body or of one of its clauses. -/
theorem binds_rescue (walk : Walk) :
    let tried := walk.within walk.block.child (walkStmts env body)
    let caught := walkCatches env (afterThrow walk.block tried.1) catches { walk := tried.2 }
    (∀ branch ∈ Block.ongoing (caught.branches ++ [tried.1]), branch.scope.Holds true name) →
      walk.scope.Holds true name ∨
        ((execute env body).rescue (executeCatches env catches)).Writes name := by
  intro tried caught held
  rw [Block.ongoing_append] at held
  have own : walk.scope.Holds true name ∨ (execute env body).Writes name := by
    by_cases completes : (execute env body).EndsIn none
    · have continues : tried.1.continues = true :=
        follows.live completes (walk.live_withBlock rfl)
      exact (binds { walk with block := walk.block.child } (held tried.1
        (List.mem_append_right _ (Block.mem_ongoing (List.mem_singleton_self _)
          continues)))).imp_right And.right
    · exact .inr (Runs.writes_of_not_endsIn completes)
  rcases own with holds | writes
  · exact .inl holds
  · rcases clauses _ _ fun branch member => held branch (List.mem_append_left _ member) with
      holds | handled
    · exact .inl (of_holds_afterThrow holds)
    · exact .inr (Runs.writes_rescue writes handled)

variable (extended : ∀ (thrown : Block) (before : Catches),
  before.Extends (executeCatches env catches) (walkCatches env thrown catches before))

include extended

theorem binds_try (finalSpan span : Span) :
    Binds true name false (executeKind env span (.tryCatch body catches none finalSpan))
      (walkStmtKind env (.tryCatch body catches none finalSpan)) := by
  intro walk holds
  let tried := walk.within walk.block.child (walkStmts env body)
  let thrown := afterThrow walk.block tried.1
  let caught := walkCatches env thrown catches { walk := tried.2 }
  have counted : (Block.ongoing caught.branches).length = caught.links :=
    (length_ongoing_walkCatches env thrown catches { walk := tried.2 }).trans (Nat.zero_add _)
  have outer : caught.walk.block = walk.block := (extended thrown { walk := tried.2 }).block
  rw [show walkStmtKind env (.tryCatch body catches none finalSpan) walk =
    closeTry tried.1 caught by rw [walkStmtKind]; rfl] at holds
  rw [executeKind]
  rcases of_holds_closeTry counted holds with holds | held
  · unfold Walk.scope at holds
    rw [outer] at holds
    exact .inl holds
  · exact (binds_rescue follows binds clauses walk held).imp_right fun writes => ⟨rfl, writes⟩

theorem binds_tryFinally {last : List Stmt}
    (finishes : Binds true name false (execute env last) (walkStmts env last))
    (finalSpan span : Span) :
    Binds true name false (executeKind env span (.tryCatch body catches (some last) finalSpan))
      (walkStmtKind env (.tryCatch body catches (some last) finalSpan)) := by
  intro walk holds
  let tried := walk.within walk.block.child (walkStmts env body)
  let thrown := afterThrow walk.block tried.1
  let caught := walkCatches env thrown catches { walk := tried.2 }
  let finished := caught.walk.within thrown.child (walkStmts env last)
  let checked := checkFinally env body tried.1 ((catches.map (·.body)).zip caught.branches) last
    finalSpan finished.1 finished.2
  let joined : Catches := { caught with walk := checked }
  have counted : (Block.ongoing joined.branches).length = joined.links :=
    (length_ongoing_walkCatches env thrown catches { walk := tried.2 }).trans (Nat.zero_add _)
  have outer : checked.block = walk.block :=
    (block_checkFinally env ..).trans (extended thrown { walk := tried.2 }).block
  rw [show walkStmtKind env (.tryCatch body catches (some last) finalSpan) walk =
    closeFinally finished.1 (closeTry tried.1 joined) by
      rw [walkStmtKind]; rfl] at holds
  rw [executeKind]
  rcases of_holds_closeFinally holds with holds | lastHolds
  · rcases of_holds_closeTry counted holds with holds | held
    · have holds : checked.block.scope.Holds true name := holds
      rw [outer] at holds
      exact .inl holds
    · exact (binds_rescue follows binds clauses walk held).imp_right fun writes =>
        ⟨rfl, Runs.writes_ensuring (.inl writes)⟩
  · rcases finishes { caught.walk with block := thrown.child } lastHolds with holds | ⟨_, writes⟩
    · exact .inl (of_holds_afterThrow holds)
    · exact .inr ⟨rfl, Runs.writes_ensuring (.inr writes)⟩

end

/-! ### Code after a jump -/

/-- Plain statements whose expressions give no value keep what is held. -/
theorem preserved_unheld (outermost : env.enclosing = []) :
    Preserved env (fun expr => everyExpr (bindsSurely env name) expr &&
      everyExpr (bindsNothing env) expr) fun block => ¬ block.scope.Holds true name where
  same _ equal := by
    rw [equal]
    exact id
  expr {expr} accepted walk unheld holds := by
    simp only [Bool.and_eq_true] at accepted
    have binds := binds_expr outermost true expr accepted.1
    rw [accepted.2] at binds
    exact unheld (binds.keeps walk holds)
  condition {test} accepted markers walk unheld := by
    simp only [Bool.and_eq_true] at accepted
    have outcomes := of_holds_outcomes accepted.1 (fun always guard holds =>
      (binds_test outermost always false false test accepted.1 guard holds).imp_right
        fun bound => Bool.false_ne_true (bound.1.symm.trans accepted.2)) true markers walk
    simp only [or_false] at outcomes
    exact ⟨unheld ∘ outcomes.1, unheld ∘ outcomes.2.1, unheld ∘ outcomes.2.2⟩
  jump {walk exits} _ unheld := by
    rwa [show (walk.leave exits).block.scope = walk.block.scope from walk.scope_leave exits]
  optional _ unheld holds := unheld (Block.of_holds_mergeOptional holds)
  restore outer own holds := (Block.of_holds_restoreImplicit holds).elim own outer
  close {chain} flag around no branches holds := by
    rcases Block.exists_of_holds_merge (Walk.of_holds_dropMarkers holds) with
      holds | ⟨branch, member, holds⟩
    · cases flag
      · exact around holds
      · exact no holds
    · exact branches branch (List.mem_of_mem_filter member) holds

/-! ### Other statements -/

/-- Changes made one after the other, with an event for each. -/
theorem binds_events {Item : Type} {change : Walk → Item → Walk} {event : Item → Event}
    (each : ∀ item, Binds true name false (Runs.emit (event item) : Runs Leave)
      fun walk => change walk item) (items : List Item) :
    Binds true name false
      (items.foldr (fun item rest => (Runs.emit (event item)).seq rest) Runs.done : Runs Leave)
      fun walk => items.foldl change walk := by
  induction items with
  | nil => exact .of_scope fun _ => rfl
  | cons item rest inductionHypothesis => exact (each item).seq inductionHypothesis

theorem binds_global (names : List String) (span : Span) :
    Binds true name false (executeKind env span (.global names))
      (walkStmtKind env (.global names)) := by
  rw [executeKind]
  refine (binds_events (fun other walk holds => ?_) names).impure_then.congr fun walk => by
    rw [walkStmtKind]
  rcases Scope.of_holds_assign holds with rfl | holds
  · exact .inr ⟨rfl, Runs.writes_write span⟩
  · exact .inl holds

theorem binds_unset (names : List String) (span : Span) :
    Binds true name false (executeKind env span (.unset names))
      (walkStmtKind env (.unset names)) := by
  have each (other : String) : Binds true name false (Runs.emit (.unset other) : Runs Leave)
      fun walk => (walk.untrack env other).mapScope (·.erase other) :=
    fun _ holds => .inl (Scope.of_holds_erase holds)
  rw [executeKind]
  exact (binds_events each names).congr fun walk => by rw [walkStmtKind]

/-- A body that may not run gives nothing. -/
theorem binds_loop {test body step : Runs Leave} {testing : Walk → Walk}
    (tested : Binds true name false test testing) (start : Block → Block)
    (walking : Walk → Walk → Walk) :
    Binds true name false (Runs.loop test body step) fun walk =>
      let outer := testing walk
      (outer.within (start outer.block) (walking outer)).2.mapBlock
        (·.mergeOptional (outer.within (start outer.block) (walking outer)).1) :=
  fun walk holds => (tested walk (Block.of_holds_mergeOptional holds)).imp_right fun bound =>
    ⟨rfl, Runs.writes_loop bound.2⟩

/-- The body of a `do` loop runs to a jump at least. -/
theorem binds_doWhile {body : List Stmt} {test : Expr}
    (tested : Binds true name (everyExpr (bindsNothing env) test) (evaluate env test)
      (walkExpr env test))
    (binds : BindsCase name (execute env body) (walkStmts env body))
    (tame : staysInside body = true ∨ everyExpr (bindsNothing env) test = true) (span : Span) :
    Binds true name false (executeKind env span (.doWhile body test))
      (walkStmtKind env (.doWhile body test)) := by
  intro walk holds
  rw [walkStmtKind] at holds
  rw [executeKind]
  rcases tested _ holds with holds | ⟨free, writes⟩
  · exact (binds (walk.mapBlock fun block => { block with insideLoop := true }) holds).imp_right
      fun writes => ⟨rfl, Runs.writes_round (.inl writes)⟩
  · have stays := tame.resolve_right fun tested => Bool.false_ne_true (free.symm.trans tested)
    exact .inr ⟨rfl, Runs.writes_round (.inr ⟨Runs.writes_loop (Runs.writes_lift.mpr writes),
      (contained_body env body stays).1⟩)⟩

-- the hypothesis is used by the theorems of the mutual block together, not by each of them
set_option linter.unusedSectionVars false

section

variable (outermost : env.enclosing = [])

include outermost

theorem binds_exprs (values : List Expr)
    (surely : values.all (everyExpr (bindsSurely env name)) = true) :
    Binds true name (values.all (everyExpr (bindsNothing env))) (evaluateAll env values)
      (walkExprs env values) := by
  induction values with
  | nil => exact .of_scope fun walk => by rw [walkExprs_nil]
  | cons value rest inductionHypothesis =>
    simp only [List.all_cons, Bool.and_eq_true] at surely
    rw [evaluateAll, List.all_cons]
    exact ((binds_expr outermost true value surely.1).seq
      (inductionHypothesis surely.2)).congr fun walk => by rw [walkExprs]

theorem binds_statics (bindings : List Binding)
    (surely : everyBinding (everyExpr (bindsSurely env name)) bindings = true) :
    Binds true name false (executeBindings env bindings) (walkStatics env bindings) := by
  induction bindings with
  | nil => exact .of_scope fun walk => by rw [walkStatics_nil]
  | cons binding rest inductionHypothesis =>
    obtain ⟨other, value, span⟩ := binding
    simp only [everyBinding, Bool.and_eq_true] at surely
    have surelyValue : everyOptional (bindsSurely env name) value = true := by
      cases value with
      | none => rfl
      | some value => exact surely.1
    have bound (types : TypeSet) : Binds true name false
        (Runs.emit (.write other span) : Runs Abort) fun walk =>
          ((walk.mapScope (·.add other types true)).share other).untrack env other :=
      fun walk holds => of_holds_add_write holds span
    rw [executeBindings]
    exact ((((binds_optional outermost true value surelyValue).next fun middle =>
      bound ((value.map (middle.localType env)).getD .empty)).seq
        (inductionHypothesis surely.2)).mono (fun _ => rfl) id).congr fun walk => by
          rw [walkStatics]

theorem binds_constants (items : List ConstItem)
    (surely : everyConst (everyExpr (bindsSurely env name)) items = true) :
    Binds true name false (evaluateConstItems env items) (walkConstItems env items) := by
  induction items with
  | nil => exact .of_scope fun walk => by rw [walkConstItems_nil]
  | cons item rest inductionHypothesis =>
    obtain ⟨other, value, span⟩ := item
    simp only [everyConst, Bool.and_eq_true] at surely
    rw [evaluateConstItems]
    refine (((binds_expr outermost true value surely.1).seq
      (inductionHypothesis surely.2)).mono (fun _ => rfl) fun writes => ?_).congr fun walk => by
        rw [walkConstItems]
    simp only [Runs.writes_seq] at writes ⊢
    tauto

/-! ### Walking statements -/

mutual

/-- The walk over a list of statements binds what every run writes. -/
theorem binds_stmts (inLoop : Bool) (body : List Stmt) (traced : Traced env name inLoop body) :
    Binds true name false (execute env body) (walkStmts env body) := by
  cases body with
  | nil => exact .of_scope fun walk => by rw [walkStmts_nil]
  | cons stmt rest =>
    obtain ⟨kind, span⟩ := stmt
    simp only [Traced, everyStmt, Bool.and_eq_true] at traced
    have first := (binds_stmtKind inLoop kind span traced.1.1 traced.1.2).scope_then
      fun walk => (walk.idle_checkDeadCode env ⟨kind, span⟩).1
    rw [execute, executeStmt]
    exact (first.seq (binds_stmts inLoop rest traced.2)).congr fun walk => by
      rw [walkStmts, walkStmt]

theorem binds_stmtKind (inLoop : Bool) (kind : StmtKind) (span : Span)
    (own : bindsFlow env name inLoop kind = true)
    (parts : everyPart (everyExpr (bindsSurely env name)) (bindsFlow env name) inLoop kind = true) :
    Binds true name false (executeKind env span kind) (walkStmtKind env kind) := by
  obtain ⟨jumps, free⟩ := Bool.and_eq_true_iff.mp own
  cases kind with
  | expr value =>
    rw [executeKind]
    exact ((binds_expr outermost true value parts).lift.mono (fun _ => rfl) id).congr
      fun walk => by rw [walkStmtKind]
  | echo values =>
    rw [executeKind]
    refine ((binds_exprs outermost values parts).impure_then.mono (fun _ => rfl)
      fun writes => ?_).congr fun walk => by rw [walkStmtKind]
    simp [writes]
  | returns value =>
    refine fun walk _ => .inr ⟨rfl, Runs.writes_of_not_endsIn ?_⟩
    simp [executeKind]
  | breaks | continues =>
    refine fun walk _ => .inr ⟨rfl, Runs.writes_of_not_endsIn ?_⟩
    simp [executeKind]
  | block body =>
    rw [executeKind_block]
    exact (binds_stmts inLoop body parts).congr fun walk => by rw [walkStmtKind_block]
  | branch test body bodySpan rest =>
    simp only [everyPart, Bool.and_eq_true] at parts
    exact binds_branch outermost bodySpan span parts.1.1 (follows_of_traced parts.1.2)
      (binds_stmts inLoop body parts.1.2) (binds_otherwise inLoop rest parts.2)
  | whileLoop test body =>
    simp only [everyPart, Bool.and_eq_true] at parts
    have tested : Binds true name false (evaluate env test).lift (walkExpr env test) :=
      (binds_expr outermost true test parts.1).lift.mono (fun _ => rfl) id
    rw [executeKind]
    exact (binds_loop tested (fun block => { block.child with insideLoop := true })
      fun _ => walkStmts env body).congr fun walk => by
        rw [walkStmtKind]
        rfl
  | forLoop init test step body =>
    simp only [everyPart, Bool.and_eq_true] at parts
    have stepped := binds_exprs outermost step parts.1.2
    rw [show step.all (everyExpr (bindsNothing env)) = true from free] at stepped
    have tested : Binds true name false (evaluateAll env test).lift fun walk =>
        walkExprs env step (walkExprs env test walk) :=
      ((binds_exprs outermost test parts.1.1.2).lift.then_free stepped.lift).mono (fun _ => rfl) id
    rw [executeKind]
    exact (((binds_exprs outermost init parts.1.1.1).lift.seq (binds_loop tested
      (fun block => { block.child with insideLoop := true }) fun _ => walkStmts env body)).mono
        (fun _ => rfl) id).congr fun walk => by
          rw [walkStmtKind]
          rfl
  | foreach subject key target byRef body =>
    simp only [everyPart, Bool.and_eq_true] at parts
    have untested : Binds true name false Runs.attempt.lift fun walk => walk :=
      .of_scope fun _ => rfl
    let round (outer walk : Walk) : Walk :=
      let elements := (outer.localType env subject).element
      let assigned := walkKey env key (walkAssign env (.iteration target.span) elements target
        (shareSlot byRef target walk))
      walkStmts env body (assigned.mapBlock fun block => { block with insideLoop := true })
    rw [executeKind]
    exact (((binds_expr outermost true subject parts.1.1.1).lift.seq
      (binds_loop untested Block.child round)).mono (fun _ => rfl) id).congr fun walk => by
        rw [walkStmtKind]
        exact (idle_checkForeachKey env key target _).1
  | tryCatch body catches final finalSpan =>
    simp only [everyPart, Bool.and_eq_true] at parts
    have extended := extends_catches env inLoop catches (everyCatch_mono
      (fun _ => paced_of_surely) followsJumps_of_bindsFlow inLoop catches parts.1.2)
    cases final with
    | none =>
      exact binds_try (follows_of_traced parts.1.1) (binds_stmts inLoop body parts.1.1)
        (binds_catches inLoop catches parts.1.2) extended finalSpan span
    | some last =>
      exact binds_tryFinally (follows_of_traced parts.1.1) (binds_stmts inLoop body parts.1.1)
        (binds_catches inLoop catches parts.1.2) extended (binds_stmts inLoop last parts.2)
        finalSpan span
  | global names => exact binds_global names span
  | unset names => exact binds_unset names span
  | static bindings =>
    rw [executeKind]
    exact (binds_statics outermost bindings parts).lift.impure_then.congr fun walk => by
      rw [walkStmtKind]
  | constants items =>
    rw [executeKind]
    exact (binds_constants outermost items parts).lift.congr fun walk => by rw [walkStmtKind]
  | switch subject cases =>
    simp only [everyPart, Bool.and_eq_true] at parts
    obtain ⟨free, early⟩ := Bool.and_eq_true_iff.mp free
    refine binds_switch outermost parts.1 (everyCase_tests parts.2) free jumps
      (ends_bodies env cases (everyCase_mono (fun _ => paced_of_surely)
        followsJumps_of_bindsFlow cases parts.2)) (fun hasDefault => ?_) span
    rw [hasDefault, Bool.false_or] at early
    exact binds_bodies cases parts.2 early
  | doWhile body test =>
    simp only [everyPart, Bool.and_eq_true] at parts
    obtain ⟨early, tame⟩ := Bool.and_eq_true_iff.mp free
    exact binds_doWhile (binds_expr outermost true test parts.2)
      (bindsCase_body true body parts.1 early) (Bool.or_eq_true_iff.mp tame) span
  | namespaced | imports | function | classLike | nop =>
    exact .of_scope fun walk => by rw [walkStmtKind]

theorem binds_otherwise (inLoop : Bool) (rest : Otherwise)
    (parts : everyOtherwise (everyExpr (bindsSurely env name)) (bindsFlow env name) inLoop rest = true)
    (initial : Scope) (chain : Chain) (no : chain.no.continues = true) :
    Chain.Binds initial name (executeOtherwise env rest) chain
      (walkOtherwise env initial rest chain) := by
  cases rest with
  | nothing => exact binds_nothing initial chain
  | orElse body =>
    exact binds_orElse (follows_of_traced parts) (binds_stmts inLoop body parts) initial chain no
  | orIf test body span rest =>
    simp only [everyOtherwise, Bool.and_eq_true] at parts
    exact binds_orIf outermost span parts.1.1 (follows_of_traced parts.1.2)
      (binds_stmts inLoop body parts.1.2) initial (binds_otherwise inLoop rest parts.2 initial)
      chain

theorem binds_catches (inLoop : Bool) (clauses : List Catch)
    (parts : everyCatch (everyExpr (bindsSurely env name)) (bindsFlow env name) inLoop clauses = true) :
    CatchesBind env name clauses := by
  cases clauses with
  | nil =>
    refine fun _ _ _ => .inr (Runs.writes_of_not_endsIn ?_)
    simp [executeCatches]
  | cons clause rest =>
    obtain ⟨types, clauseName, body, span⟩ := clause
    simp only [everyCatch, Bool.and_eq_true] at parts
    exact binds_catch types clauseName span (follows_of_traced parts.1)
      (binds_stmts inLoop body parts.1) (extends_catches env inLoop rest (everyCatch_mono
        (fun _ => paced_of_surely) followsJumps_of_bindsFlow inLoop rest parts.2))
      (binds_catches inLoop rest parts.2)

theorem binds_bodies (cases : List Case)
    (parts : everyCase (everyExpr (bindsSurely env name)) (bindsFlow env name) cases = true)
    (early : cases.all (fun case => bindsEarly env name case.body) = true) :
    BodiesBind env name cases := by
  cases cases with
  | nil => exact List.forall_mem_nil _
  | cons case rest =>
    obtain ⟨test, body, span, announced⟩ := case
    simp only [everyCase, Bool.and_eq_true] at parts
    simp only [List.all_cons, Bool.and_eq_true] at early
    exact List.forall_mem_cons.mpr
      ⟨bindsCase_body true body parts.1.2 early.1, binds_bodies rest parts.2 early.2⟩

/-- Statements that give no value once they may have jumped bind what every run through them writes. -/
theorem bindsCase_body (inLoop : Bool) (body : List Stmt) (traced : Traced env name inLoop body)
    (early : bindsEarly env name body = true) :
    BindsCase name (execute env body) (walkStmts env body) := by
  cases body with
  | nil => exact fun walk holds => .inl (by rwa [walkStmts_nil] at holds)
  | cons stmt rest =>
    obtain ⟨kind, span⟩ := stmt
    simp only [Traced, everyStmt, Bool.and_eq_true] at traced
    obtain ⟨⟨own, parts⟩, others⟩ := traced
    simp only [bindsEarly, Bool.or_eq_true, Bool.and_eq_true] at early
    rcases early with (⟨stays, early⟩ | ⟨empty, inBraces⟩) | nowhere
    · have first := (binds_stmtKind inLoop kind span own parts).scope_then
        fun walk => (walk.idle_checkDeadCode env ⟨kind, span⟩).1
      have ends := bindsCase_body inLoop rest others early
      simp only [staysInside, everyStmt, Bool.and_eq_true] at stays
      intro walk holds
      rw [walkStmts, walkStmt] at holds
      rw [execute, executeStmt]
      exact BindsCase.seq first (contained_kind env kind span stays.1.1 stays.1.2) ends walk holds
    · obtain rfl := List.isEmpty_iff.mp empty
      cases kind with
      | block inner =>
        intro walk holds
        rw [walkStmts, walkStmt, walkStmts, walkStmtKind] at holds
        rw [execute, executeStmt, executeKind, execute, Runs.seq_done]
        refine (bindsCase_body inLoop inner parts inBraces _ holds).imp_left fun holds => ?_
        rwa [(walk.idle_checkDeadCode env _).1] at holds
      | _ => cases inBraces
    · intro walk holds
      by_contra unheld
      exact (preserved_unheld outermost).stmts _ nowhere (fun before => unheld (.inl before)) holds

end

end

end

/-! ### Switches -/

/--
The walk over a `switch` is sound. If it leaves a block that was not left, no run completes the
statement; and every variable that it newly makes held is given a value by every run that does.
-/
theorem switch_joins_soundly (env : Env) (outermost : env.enclosing = []) (subject : Expr)
    (cases : List Case) (span : Span) (walk : Walk) (fresh : walk.block.exits = .none) :
    (Paced env false [⟨.switch subject cases, span⟩] →
      (walkStmtKind env (.switch subject cases) walk).block.exits ≠ .none →
        ∀ run ∈ executeKind env span (.switch subject cases), run.exit ≠ none) ∧
    ∀ name, Traced env name false [⟨.switch subject cases, span⟩] →
      walk.scope.has name = false →
      (walkStmtKind env (.switch subject cases) walk).scope.Holds true name →
        ∀ run ∈ executeKind env span (.switch subject cases), run.exit = none →
          name ∈ written run.trace := by
  constructor
  · intro paced left run member completes
    simp only [Paced, everyStmt, Bool.and_eq_true] at paced
    have live : walk.Live := by
      unfold Walk.Live Walk.record Block.record
      rw [fresh]
      rfl
    have follows :=
      follows_statement env false (.switch subject cases) span paced.1.1 paced.1.2
    have reached : (walkStmtKind env (.switch subject cases) walk).Live :=
      follows.live ⟨run, member, completes⟩ live
    exact left (eq_of_beq reached)
  · intro name traced unknown holds
    simp only [Traced, everyStmt, Bool.and_eq_true] at traced
    have binds := binds_stmtKind outermost false (.switch subject cases) span traced.1.1 traced.1.2
    refine ((binds walk holds).resolve_left fun ⟨info, found, defined, _⟩ => ?_).2
    have known : walk.scope.has name = true := (walk.scope.has_eq_true name).mpr
      ⟨info, found, defined rfl⟩
    exact Bool.false_ne_true (unknown.symm.trans known)

/-- `switch ($a) { default: echo $a; case 1: return; }` -/
def leavingSwitch : Expr × List Case :=
  let var (name : String) : Expr := ⟨.var name, ⟨0, 1⟩⟩
  let stmt (kind : StmtKind) : Stmt := ⟨kind, ⟨0, 1⟩⟩
  (var "$a", [⟨none, [stmt (.echo [var "$a"])], ⟨0, 1⟩, false⟩,
    ⟨some ⟨.integer, ⟨0, 1⟩⟩, [stmt (.returns none)], ⟨0, 1⟩, false⟩])

/--
`switch ($a) { case 1: case 2: if ($a) { $x = 1; } else { throw $a; } break; default: $x = 2;
case $a->last(): $x = 3; if ($a) { continue; } echo $a; break; }`
-/
def assigningSwitch : Expr × List Case :=
  let var (name : String) : Expr := ⟨.var name, ⟨0, 1⟩⟩
  let number : Expr := ⟨.integer, ⟨0, 1⟩⟩
  let stmt (kind : StmtKind) : Stmt := ⟨kind, ⟨0, 1⟩⟩
  let assign : Stmt := stmt (.expr ⟨.assign (var "$x") number .assign false, ⟨0, 1⟩⟩)
  (var "$a", [⟨some number, [], ⟨0, 1⟩, false⟩,
    ⟨some number, [stmt (.branch (var "$a") [assign] ⟨0, 1⟩
      (.orElse [stmt (.expr ⟨.throw (var "$a"), ⟨0, 1⟩⟩)])), stmt .breaks], ⟨0, 1⟩, false⟩,
    ⟨none, [assign], ⟨0, 1⟩, true⟩,
    ⟨some ⟨.methodCall (var "$a") (some "last") [] false, ⟨0, 1⟩⟩,
      [assign, stmt (.branch (var "$a") [stmt .continues] ⟨0, 1⟩ .nothing),
      stmt (.echo [var "$a"]), stmt .breaks], ⟨0, 1⟩, false⟩])

/-- A `switch` that every run leaves, and one after which `$x` has a value. -/
theorem switch_joins_soundly_examples :
    (∀ run ∈ executeKind default ⟨0, 1⟩ (.switch leavingSwitch.1 leavingSwitch.2),
      run.exit ≠ none) ∧
    ∀ run ∈ executeKind default ⟨0, 1⟩ (.switch assigningSwitch.1 assigningSwitch.2),
      run.exit = none → "$x" ∈ written run.trace := by
  have leaves := switch_joins_soundly default rfl leavingSwitch.1 leavingSwitch.2 ⟨0, 1⟩
    (.start .empty { enabled := true }) rfl
  have assigns := switch_joins_soundly default rfl assigningSwitch.1 assigningSwitch.2 ⟨0, 1⟩
    (.start .empty { enabled := true }) rfl
  exact ⟨leaves.1 (by decide +kernel) (by decide +kernel),
    assigns.2 "$x" (by decide +kernel) (by decide +kernel) (by decide +kernel)⟩

/-- `switch ($a) { case 1: return; default: }` -/
def emptyDefault : Expr × List Case :=
  (⟨.var "$a", ⟨0, 1⟩⟩, [⟨some ⟨.integer, ⟨0, 1⟩⟩, [⟨.returns none, ⟨0, 1⟩⟩], ⟨0, 1⟩, false⟩,
    ⟨none, [], ⟨0, 1⟩, false⟩])

/-- A default case without a body is passed by, so the other cases seem to be all. -/
theorem emptyDefault_completes :
    (walkStmtKind default (.switch emptyDefault.1 emptyDefault.2)
      (.start .empty { enabled := true })).block.exits ≠ .none ∧
      ∃ run ∈ executeKind default ⟨0, 1⟩ (.switch emptyDefault.1 emptyDefault.2),
        run.exit = none := by
  constructor
  · decide +kernel
  · show Runs.EndsIn _ none
    rw [executeKind, Runs.endsIn_seq_none, Runs.endsIn_round_done]
    refine ⟨by simp [emptyDefault, evaluate, evaluateKind, Execution.read], none, rfl, ?_⟩
    simp [emptyDefault, execute, executeCases, executeDefault, executeFrom, evaluate, evaluateKind]

end Flow

end PhpAudit
