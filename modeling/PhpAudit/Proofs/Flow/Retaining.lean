/-
This file says which code keeps what it stores in sight of a walk, for the code that its exits lead to
and for a read at some place. A join drops the branches that control does not reach the end of, so a
branch that stores has to be one that may be completed. Loops are walked once, so a round that stores
must not come before another one around the read. A case that is fallen into from another one, and a
last clause after a clause that stores, are walked from a state that does not cover what is stored.

Of every statement it is shown that the walk takes notice of what it stores, if its parts do.
-/

import PhpAudit.Proofs.Flow.Entering

namespace PhpAudit

open Execution

namespace Flow

/-! ### Code that keeps in sight what it stores -/

/-- The walk sees that a branch may be entered and completed. -/
def Completed (env : Env) (test : Expr) (body : List Stmt) : Prop :=
  everyExpr (pacesExits env) test = true ∧ Paced env true body ∧
    ((evaluate env test).lift.seq (execute env body)).EndsIn none

/-- The walk sees that the statements may be completed. -/
def Passed (env : Env) (body : List Stmt) : Prop :=
  Paced env true body ∧ (execute env body).EndsIn none

/-- The walk sees that a `try` without a last clause may be completed. -/
def Rescued (env : Env) (body : List Stmt) (catches : List Catch) : Prop :=
  Paced env true body ∧ everyCatch (everyExpr (pacesExits env)) (followsJumps env) true catches = true ∧
    ((execute env body).rescue (executeCatches env catches)).EndsIn none

/--
The exits that matter to the body of a `try` with a last clause: all that the clause runs after do
if the place is in it.
-/
def aroundFinal (env : Env) (name : String) (place : Span) (last : List Stmt)
    (held : Leave → Prop) : Leave → Prop :=
  fun exit => aroundLast (execute env last) held exit ∨
    Among (visitsStmts env.naming last) env.source name place ∧ settled exit

mutual

/--
What the statements store is kept in sight of the code that the exits in `held` lead to, and of the
read at the place if it is among them.
-/
def Retains (env : Env) (name : String) (place : Span) (held : Leave → Prop) : List Stmt → Prop
  | [] => True
  | ⟨kind, _⟩ :: rest => RetainsKind env name place held kind ∧ Retains env name place held rest

def RetainsKind (env : Env) (name : String) (place : Span) (held : Leave → Prop) : StmtKind → Prop
  | .block body => Retains env name place held body
  | .branch test body _ rest =>
    ((execute env body).Stores held name → Completed env test body) ∧
      Retains env name place held body ∧ RetainsOtherwise env name place held rest
  | .whileLoop test body =>
    Rounds (visitsExpr env.naming test ++ visitsStmts env.naming body) env.source name place
        (evaluate env test).lift (execute env body) Runs.done ∧
      Retains env name place (aroundLoop held) body
  | .doWhile body test =>
    Rounds (visitsStmts env.naming body ++ visitsExpr env.naming test) env.source name place
        (evaluate env test).lift (execute env body) Runs.done ∧
      Retains env name place (aroundLoop held) body
  | .forLoop _ test step body =>
    Rounds ((visitsExprs env.naming test ++ visitsExprs env.naming step) ++
          visitsStmts env.naming body) env.source name place
        (evaluateAll env test).lift (execute env body) (evaluateAll env step).lift ∧
      Retains env name place (aroundLoop held) body
  | .foreach _ key value _ body =>
    Rounds (visitsAssign env.naming (.iteration value.span) value ++
          (visitsKey env.naming key ++ visitsStmts env.naming body)) env.source name place
        Runs.attempt.lift (((Execution.place env value).seq (store env value)).lift.seq
          ((executeKey env key).lift.seq (execute env body))) Runs.done ∧
      Retains env name place (aroundLoop held) body
  | .switch _ cases => RetainsCases env name place (aroundLoop held) cases
  | .tryCatch body catches final _ =>
    match final with
    | none =>
      ((execute env body).Stores (aroundTry (catches ≠ []) held) name →
          Rescued env body catches) ∧
        Retains env name place (aroundTry (catches ≠ []) held) body ∧
          RetainsCatches env name place held catches
    | some last =>
      (Among (visitsStmts env.naming last) env.source name place →
          ¬ (executeCatches env catches).Stores settled name) ∧
        Retains env name place (aroundTry (catches ≠ []) (aroundFinal env name place last held))
            body ∧
          RetainsCatches env name place (aroundLast (execute env last) held) catches ∧
            Retains env name place held last
  | _ => True

def RetainsOtherwise (env : Env) (name : String) (place : Span) (held : Leave → Prop) :
    Otherwise → Prop
  | .nothing => True
  | .orElse body =>
    ((execute env body).Stores held name → Passed env body) ∧ Retains env name place held body
  | .orIf test body _ rest =>
    -- what a later test stores is known in the branches after it, but not outside
    ((evaluate env test).lift.Stores held name ∨ (execute env body).Stores held name →
        Completed env test body) ∧
      Retains env name place held body ∧ RetainsOtherwise env name place held rest

def RetainsCatches (env : Env) (name : String) (place : Span) (held : Leave → Prop) :
    List Catch → Prop
  | [] => True
  | ⟨_, bound, body, span⟩ :: rest =>
    (((bindException span bound).seq (execute env body)).Stores held name → Passed env body) ∧
      Retains env name place held body ∧ RetainsCatches env name place held rest

def RetainsCases (env : Env) (name : String) (place : Span) (held : Leave → Prop) :
    List Case → Prop
  | [] => True
  | ⟨test, body, span, announced⟩ :: rest =>
    (((execute env body).Stores held name →
          Rejoined env (⟨test, body, span, announced⟩ :: rest)) ∧
        (Among (visitsBodies env.naming rest) env.source name place →
          ¬ (execute env body).Stores never name)) ∧
      Retains env name place held body ∧ RetainsCases env name place held rest

end

/-- The walk takes notice of what the statements do, wherever they stand. -/
def NoticesBody (env : Env) (held : Leave → Prop) (name : String) (place : Span)
    (body : List Stmt) : Prop :=
  ∀ walk, Notices env.source held name place (visitsStmts env.naming body) (execute env body) walk
    (walkStmts env body walk)

/-- The walk takes notice of what the statement does, wherever it stands. -/
def NoticesKind (env : Env) (held : Leave → Prop) (name : String) (place : Span) (span : Span)
    (kind : StmtKind) : Prop :=
  ∀ walk, Notices env.source held name place (visitsStmtKind env.naming span kind)
    (executeKind env span kind) walk (walkStmtKind env kind walk)

section

variable {env : Env} {held : Leave → Prop} {name : String} {place span : Span}

/-- Of a whole statement only what it stores and what is reported in it is left to say. -/
theorem notices_of {kind : StmtKind}
    (clear : Clear (visitsStmtKind env.naming span kind) env.source name place) (walk : Walk)
    (knows : (executeKind env span kind).Stores held name →
      (walkStmtKind env kind walk).Knows name)
    (spares : (walkStmtKind env kind walk).Raised env.source name place →
      ¬ walk.Raised env.source name place → (executeKind env span kind).Spares name place) :
    Notices env.source held name place (visitsStmtKind env.naming span kind)
      (executeKind env span kind) walk (walkStmtKind env kind walk) :=
  .of_sees (walkStmtKind_sees env span kind walk) (executeKind_orders env span kind).shown clear
    knows spares

/-! ### Statements without parts -/

theorem notices_returns {value : Option Expr}
    (clear : Clear (visitsStmtKind env.naming span (.returns value)) env.source name place) :
    NoticesKind env held name place span (.returns value) := by
  intro walk
  have noted (walk : Walk) (returnTypes : TypeSet) (bareReturn returnsValue : Bool) :
      Eases env.source walk { walk with returnTypes, bareReturn, returnsValue } :=
    .of_eq rfl rfl rfl rfl rfl
  rw [visitsStmtKind] at clear ⊢
  rw [executeKind]
  cases value with
  | none =>
    rw [visitsOptional_none, evaluateOptional_none, Runs.lift_done, Runs.done_seq, walkStmtKind]
    exact .of_eases ((noted walk _ true _).trans (.leave _ _)) (silent_leave _)
  | some value =>
    rw [visitsOptional] at clear
    rw [visitsOptional, evaluateOptional, walkStmtKind, ← List.append_nil (visitsExpr _ value)]
    rw [← List.append_nil (visitsExpr _ value)] at clear
    have evaluated : Notices env.source held name place (visitsExpr env.naming value)
        (evaluate env value).lift walk (walkExpr env value walk) :=
      .of_expr (walkExpr_gathers env value walk) (evaluate_threads env value) clear.left
    exact evaluated.seq clear (.of_eases ((noted _ _ _ true).trans (.leave _ _)) (silent_leave _))

/-- Events that are no reads. -/
theorem shuns_events {event : String → Event} (unread : ∀ other, event other ≠ .read name place)
    (names : List String) :
    Runs.Shuns name place (names.foldr (fun other rest => (Runs.emit (event other)).seq rest)
      (Runs.done : Runs Leave)) := by
  induction names with
  | nil => exact Runs.shuns_of_silent silent_done
  | cons other rest inductionHypothesis =>
    refine Runs.Shuns.seq ?_ inductionHypothesis
    rintro _ rfl reads
    exact unread other (List.mem_singleton.mp reads).symm

theorem notices_global {names : List String}
    (clear : Clear (visitsStmtKind env.naming span (.global names)) env.source name place) :
    NoticesKind env held name place span (.global names) := by
  refine fun walk => notices_of clear walk (fun stores => ?_) fun _ _ => ?_
  · obtain ⟨visit, member, named, stores⟩ :=
      (executeKind_orders env span (.global names)).shown.exists_of_mayWrite stores.mayWrite
    have gathers : Gathers env.source (visitsStmtKind env.naming span (.global names)) walk.impure
        (walkStmtKind env (.global names) walk) := by
      rw [visitsStmtKind, walkStmtKind]
      exact .globals names span walk.impure
    exact gathers.gains clear.tame.keeping
      ⟨visit, member, named, clear.tame.gains member named stores⟩
  · rw [executeKind]
    exact (shuns_events (fun _ => by simp) names).spares

theorem notices_unset {names : List String}
    (clear : Clear (visitsStmtKind env.naming span (.unset names)) env.source name place) :
    NoticesKind env held name place span (.unset names) := by
  refine fun walk => notices_of clear walk (fun stores => ?_) fun _ _ => ?_
  · obtain ⟨visit, member, _, stores⟩ :=
      (executeKind_orders env span (.unset names)).shown.exists_of_mayWrite stores.mayWrite
    rw [visitsStmtKind] at member
    obtain ⟨other, _, rfl⟩ := List.mem_map.mp member
    cases stores
  · rw [executeKind]
    exact (shuns_events (fun _ => by simp) names).spares

/-! ### Loops -/

theorem notices_target {target : Expr} {mode : AssignMode} {types : TypeSet}
    (clear : Clear (visitsAssign env.naming mode target) env.source name place) (walk : Walk) :
    Notices env.source held name place (visitsAssign env.naming mode target)
      ((Execution.place env target).seq (store env target)).lift walk
      (walkAssign env mode types target walk) :=
  .of_expr (walkAssign_gathers env mode types target walk)
    (.hastened_then (place_hastened env mode target) (store_threads env mode target)) clear

theorem notices_key {key : Option Expr}
    (clear : Clear (visitsKey env.naming key) env.source name place) (walk : Walk) :
    Notices env.source held name place (visitsKey env.naming key) (executeKey env key).lift walk
      (walkKey env key walk) := by
  cases key with
  | none =>
    rw [visitsKey_none, executeKey_none, walkKey_none, Runs.lift_done]
    exact .of_eases (.refl walk) silent_done
  | some key =>
    rw [visitsKey] at clear ⊢
    rw [executeKey, walkKey]
    exact notices_target clear walk

section

variable {body : List Stmt} (walked : NoticesBody env (aroundLoop held) name place body)

include walked

theorem notices_while {test : Expr}
    (rounds : Rounds (visitsExpr env.naming test ++ visitsStmts env.naming body) env.source name place
      (evaluate env test).lift (execute env body) Runs.done)
    (clear : Clear (visitsStmtKind env.naming span (.whileLoop test body)) env.source name place) :
    NoticesKind env held name place span (.whileLoop test body) := by
  intro walk
  rw [visitsStmtKind] at clear ⊢
  rw [executeKind, walkStmtKind]
  have clear := clear.of_maps .inHead .inBody
  rw [← List.append_nil (visitsExpr env.naming test)] at clear rounds ⊢
  have tested : Notices env.source always name place (visitsExpr env.naming test)
      (evaluate env test).lift walk (walkExpr env test walk) :=
    .of_expr (walkExpr_gathers env test walk) (evaluate_threads env test) clear.left.left
  let entered : Walk :=
    let around := walkExpr env test walk
    { around with block := { around.block.child with insideLoop := true } }
  exact (tested.loop clear (.of_eases (.refl _) silent_done) (walked entered) rfl
    rounds).looped

theorem notices_for {init test step : List Expr}
    (rounds : Rounds ((visitsExprs env.naming test ++ visitsExprs env.naming step) ++
      visitsStmts env.naming body) env.source name place (evaluateAll env test).lift
      (execute env body) (evaluateAll env step).lift)
    (clear : Clear (visitsStmtKind env.naming span (.forLoop init test step body)) env.source name
      place) :
    NoticesKind env held name place span (.forLoop init test step body) := by
  intro walk
  rw [visitsStmtKind, List.append_assoc] at clear ⊢
  rw [executeKind, walkStmtKind]
  have clearRound := clear.right.of_maps .inHead .inBody
  let first := walkExprs env init walk
  let second := walkExprs env test first
  have started : Notices env.source held name place (visitsExprs env.naming init)
      (evaluateAll env init).lift walk first :=
    .of_expr (walkExprs_gathers env init walk) (evaluateAll_threads env init) clear.left
  have tested : Notices env.source always name place (visitsExprs env.naming test)
      (evaluateAll env test).lift first second :=
    .of_expr (walkExprs_gathers env test first) (evaluateAll_threads env test) clearRound.left.left
  have stepped : Notices env.source always name place (visitsExprs env.naming step)
      (evaluateAll env step).lift second (walkExprs env step second) :=
    .of_expr (walkExprs_gathers env step second) (evaluateAll_threads env step)
      clearRound.left.right
  let entered : Walk :=
    let around := walkExprs env step second
    { around with block := { around.block.child with insideLoop := true } }
  exact started.seq clear (tested.loop clearRound stepped (walked entered) rfl rounds).looped

theorem notices_doWhile {test : Expr}
    (rounds : Rounds (visitsStmts env.naming body ++ visitsExpr env.naming test) env.source name
      place (evaluate env test).lift (execute env body) Runs.done)
    (clear : Clear (visitsStmtKind env.naming span (.doWhile body test)) env.source name place) :
    NoticesKind env held name place span (.doWhile body test) := by
  intro walk
  have shown := (executeKind_orders env span (.doWhile body test)).shown
  rw [visitsStmtKind] at clear shown ⊢
  rw [executeKind] at shown ⊢
  rw [walkStmtKind]
  have clear := clear.of_map .inBody
  let begun := walk.mapBlock fun block => { block with insideLoop := true }
  have tested : Notices env.source always name place (visitsExpr env.naming test)
      (evaluate env test).lift (walkStmts env body begun)
      (walkExpr env test (walkStmts env body begun)) :=
    .of_expr (walkExpr_gathers env test _) (evaluate_threads env test) clear.right
  have round := Notices.doWhile clear (walked begun) tested rounds
  exact (round.relabel shown Moves.inBody.among.mpr).congr ⟨rfl, rfl, rfl⟩ ⟨rfl, rfl, rfl⟩

theorem notices_foreach {subject value : Expr} {key : Option Expr} {byRef : Bool}
    (rounds : Rounds (visitsAssign env.naming (.iteration value.span) value ++
      (visitsKey env.naming key ++ visitsStmts env.naming body)) env.source name place
      Runs.attempt.lift (((Execution.place env value).seq (store env value)).lift.seq
        ((executeKey env key).lift.seq (execute env body))) Runs.done)
    (clear : Clear (visitsStmtKind env.naming span (.foreach subject key value byRef body))
      env.source name place) :
    NoticesKind env held name place span (.foreach subject key value byRef body) := by
  intro walk
  rw [visitsStmtKind] at clear ⊢
  rw [executeKind, walkStmtKind]
  have clearRound := clear.right.of_maps .inHead .inBody
  rw [List.append_assoc] at clearRound
  let around := walkExpr env subject walk
  have started : Notices env.source held name place (visitsExpr env.naming subject)
      (evaluate env subject).lift walk around :=
    .of_expr (walkExpr_gathers env subject walk) (evaluate_threads env subject) clear.left
  let entered : Walk := { around with block := around.block.child }
  let taken := walkAssign env (.iteration value.span) (around.localType env subject).element value
    (shareSlot byRef value entered)
  have target : Notices env.source (aroundLoop held) name place _ _ entered taken :=
    .eases_then (.shareSlot byRef value entered) (notices_target clearRound.left _)
  have keyed : Notices env.source (aroundLoop held) name place _ _ taken (walkKey env key taken) :=
    notices_key clearRound.right.left taken
  let begun := (walkKey env key taken).mapBlock fun block => { block with insideLoop := true }
  have inner : Notices env.source (aroundLoop held) name place (visitsStmts env.naming body)
      (execute env body) (walkKey env key taken) (walkStmts env body begun) :=
    (walked begun).congr ⟨rfl, rfl, rfl⟩ ⟨rfl, rfl, rfl⟩
  have untested : Notices env.source always name place [] Runs.attempt.lift around around :=
    .of_expr (.refl around) (.silent silent_attempt) .nil
  have untouched : Notices env.source always name place [] Runs.done around around :=
    .of_eases (.refl around) silent_done
  have round := target.seq clearRound (keyed.seq clearRound.right inner)
  have looped := untested.loop (show Clear (([] ++ []) ++ (_ ++ (_ ++ _))) _ _ _ from clearRound)
    untouched round rfl rounds
  rw [List.append_nil, List.nil_append, ← List.append_assoc] at looped
  exact (started.seq clear looped.looped).then_eases (.checkForeachKey key value _)

end

/-! ### Branches -/

/-- A branch that may be completed is seen to go on. -/
theorem Completed.continues {test : Expr} {body : List Stmt} (completed : Completed env test body)
    (walk : Walk) (markers : List String) :
    (walkStmts env body (walkTest env false false test (.start walk markers)).walk).block.continues =
      true := by
  obtain ⟨pacedTest, paced, ends⟩ := completed
  obtain ⟨tested, ends⟩ := Runs.endsIn_seq_none.mp ends
  exact (follows_body env true body paced).live ends
    (continues_yes env pacedTest walk markers walk.block tested)

theorem Passed.continues {body : List Stmt} (passed : Passed env body) {walk : Walk}
    (continues : walk.block.continues = true) : (walkStmts env body walk).block.continues = true :=
  (follows_body env true body passed.1).live passed.2 continues

/-- The variables that a test stores are known after it. -/
theorem gained_test {test : Expr}
    (clear : Clear (visitsTest env.naming false test) env.source name place)
    (stores : (evaluate env test).lift.Stores held name) :
    Gained (visitsTest env.naming false test) name := by
  obtain ⟨visit, member, named, stores⟩ := (test_threads env false test).shown.exists_of_mayWrite
    (Runs.mayWrite_of_lift stores.mayWrite)
  exact ⟨visit, member, named, clear.tame.gains member named stores⟩

/-- Walking the branches of an `if` that come after those of a chain. -/
def NoticesOtherwise (env : Env) (held : Leave → Prop) (name : String) (place : Span)
    (rest : Otherwise) : Prop :=
  ∀ initial chain, name ∉ chain.markers → chain.no.continues = true →
    Chain.Adds env.source held name place (visitsOtherwise env.naming rest)
      (executeOtherwise env rest) chain (walkOtherwise env initial rest chain)

section

variable {test : Expr} {body : List Stmt} {rest : Otherwise}
  (walked : NoticesBody env held name place body)

include walked

theorem notices_branch {bodySpan : Span} (added : NoticesOtherwise env held name place rest)
    (completed : (execute env body).Stores held name → Completed env test body)
    (clear : Clear (visitsStmtKind env.naming span (.branch test body bodySpan rest)) env.source name
      place) :
    NoticesKind env held name place span (.branch test body bodySpan rest) := by
  intro walk
  obtain ⟨flag, _, _, equal⟩ := walkStmtKind_branch env test body bodySpan rest walk
  let guard := walkTest env false false test (.start walk [])
  let split := guard.split walk.block
  have weighs : Weighs env.source (visitsTest env.naming false test) (.start walk []) guard :=
    walkTest_weighs env false false test _
  let before : Chain := ⟨walk, [], 0, [], walk.block⟩
  have adds : Chain.Adds env.source held name place
      (visitsStmtKind env.naming span (.branch test body bodySpan rest))
      (executeKind env span (.branch test body bodySpan rest)) before
      (walkOtherwise env walk.scope rest
        ((Chain.start split).pushBranch env walk.scope body split split.walk)) := by
    rw [visitsStmtKind] at clear ⊢
    rw [executeKind]
    have keeping := clear.left.left.tame.keeping
    refine Chain.adds_tested walk.scope split.walk.block weighs (test_threads env false test)
      List.not_mem_nil clear (walked guard.walk) (weighs.outer.keeps keeping) (fun stores => ?_)
      (fun stores => (completed stores).continues walk []) fun unmarked => ?_
    · have gained := gained_test clear.left.left stores
      exact .inl ⟨(weighs.outer.gains keeping gained).imp_right
        (Or.imp_left (walked guard.walk).tolerates), (weighs.no keeping List.not_mem_nil
          (.inr gained)).imp_right (Or.imp_left (walked guard.walk).tolerates)⟩
    · exact added walk.scope _ unmarked (continues_no env test walk [] walk.block)
  refine notices_of clear walk (fun stores => ?_) fun raised fresh => ?_
  · rw [equal]
    exact (adds.offers stores).close adds.unmarked flag
  · rw [equal] at raised
    exact adds.warns.spares (Chain.raised_close raised) fresh

theorem notices_orIf {bodySpan : Span} (added : NoticesOtherwise env held name place rest)
    (completed : (evaluate env test).lift.Stores held name ∨ (execute env body).Stores held name →
      Completed env test body)
    (clear : Clear (visitsOtherwise env.naming (.orIf test body bodySpan rest)) env.source name
      place) :
    NoticesOtherwise env held name place (.orIf test body bodySpan rest) := by
  intro initial chain unmarked _
  rw [visitsOtherwise] at clear ⊢
  rw [executeOtherwise, walkOtherwise]
  let inner : Walk := { chain.walk with block := chain.no }
  let guard := walkTest env false false test (.start inner chain.markers)
  have weighs : Weighs env.source (visitsTest env.naming false test)
      (.start inner chain.markers) guard :=
    walkTest_weighs env false false test _
  refine Chain.adds_tested initial chain.walk.block weighs (test_threads env false test) unmarked
    clear (walked guard.walk)
    (fun known => known.imp_right (Or.imp_left weighs.walk.tolerates)) (fun stores => ?_)
    (fun stores => (completed (.inr stores)).continues inner chain.markers) fun unmarked => ?_
  · have known := weighs.walk.gains clear.left.left.tame.keeping (gained_test clear.left.left stores)
    exact Chain.offers_push _ initial _ ((walked guard.walk).keeps known)
      ((completed (.inl stores)).continues inner chain.markers)
  · exact added initial _ unmarked (continues_no env test inner chain.markers chain.no)

theorem notices_orElse (passed : (execute env body).Stores held name → Passed env body) :
    NoticesOtherwise env held name place (.orElse body) := by
  intro initial chain unmarked continues
  rw [visitsOtherwise, executeOtherwise, walkOtherwise]
  exact Chain.adds_last unmarked (walked _) (fun stores => (passed stores).continues continues)
    initial

end

theorem notices_nothing : NoticesOtherwise env held name place .nothing := by
  intro initial chain unmarked _
  rw [visitsOtherwise, executeOtherwise, walkOtherwise]
  exact chain.adds_nothing unmarked _

/-! ### Exceptions -/

/-- Walking clauses that start with what is known in some block. -/
def NoticesCatches (env : Env) (held : Leave → Prop) (name : String) (place : Span)
    (catches : List Catch) : Prop :=
  ∀ thrown before, Catches.Adds env.source held name place (visitsCatches env.naming catches)
    (executeCatches env catches) thrown before (walkCatches env thrown catches before)

theorem notices_noCatch : NoticesCatches env held name place [] := by
  intro thrown before
  rw [visitsCatches, executeCatches, walkCatches]
  exact before.adds_nothing

theorem notices_bindCaught {types : List String} {bound : Option String} (walk : Walk)
    (clear : Clear (bound.toList.map fun name => { name, span, use := .assigned none }) env.source name
      place) :
    Notices env.source held name place
      (bound.toList.map fun name => { name, span, use := .assigned none }) (bindException span bound)
      walk (bindCaught env types bound walk) := by
  refine .of_gathers (.bindCaught types bound span walk) ?_ clear
  cases bound with
  | none => exact .silent (silent_bindException span)
  | some bound => exact .emit (.head _) ⟨rfl, rfl, rfl⟩

section

variable {body : List Stmt} {catches : List Catch}

theorem notices_catch {types : List String} {bound : Option String}
    (walked : NoticesBody env held name place body)
    (passed : ((bindException span bound).seq (execute env body)).Stores held name →
      Passed env body)
    (added : NoticesCatches env held name place catches)
    (clear : Clear (visitsCatches env.naming (⟨types, bound, body, span⟩ :: catches)) env.source name
      place) :
    NoticesCatches env held name place (⟨types, bound, body, span⟩ :: catches) := by
  intro thrown before
  rw [visitsCatches] at clear ⊢
  rw [executeCatches, walkCatches]
  let entered : Walk := { before.walk with block := thrown.child }
  have bind : Notices env.source held name place _ _ entered (bindCaught env types bound entered) :=
    notices_bindCaught entered clear.left.left
  refine Catches.adds_clause clear (bind.seq clear.left (walked _)) (fun stores => ?_) (added _ _)
  refine (passed stores).continues ?_
  exact Block.continues_of_record (record_bindCaught env types bound entered) rfl

theorem catches_ne_nil (handled : (executeCatches env catches).Nonempty) : catches ≠ [] := by
  rintro rfl
  rw [executeCatches] at handled
  exact Set.not_nonempty_empty handled

theorem not_among_noCatch : ¬ Among (visitsCatches env.naming []) env.source name place := by
  rw [visitsCatches]
  rintro ⟨_, none, _⟩
  exact absurd none List.not_mem_nil

theorem notices_try {finalSpan : Span}
    (walked : NoticesBody env (aroundTry (catches ≠ []) held) name place body)
    (added : NoticesCatches env held name place catches)
    (rescued : (execute env body).Stores (aroundTry (catches ≠ []) held) name →
      Rescued env body catches)
    (clear : Clear (visitsStmtKind env.naming span (.tryCatch body catches none finalSpan)) env.source
      name place) :
    NoticesKind env held name place span (.tryCatch body catches none finalSpan) := by
  intro walk
  let entered := walkStmts env body { walk with block := walk.block.child }
  have tried : Notices env.source (aroundTry (catches ≠ []) held) name place
    (visitsStmts env.naming body) (execute env body) { walk with block := walk.block.child } entered :=
    walked _
  let start : Catches := { walk := { entered with block := walk.block } }
  have caught := added (afterThrow walk.block entered.block) start
  refine notices_of clear walk (fun stores => ?_) fun raised fresh => ?_
  · rw [executeKind] at stores
    rw [walkStmtKind]
    refine knows_rescue tried caught catches_ne_nil (fun _ => id) (fun stores => ?_) stores
    obtain ⟨paced, pacedCatches, ends⟩ := rescued stores
    exact continues_rescue env (follows_body env true body paced)
      (extends_catches env true catches pacedCatches) walk _ _ ends
  · rw [visitsStmtKind] at clear
    rw [walkStmtKind] at raised
    rw [executeKind]
    let closed := walkCatches env (afterThrow walk.block entered.block) catches start
    have eases : Eases env.source closed.walk (closeTry entered.block closed) := .closeTry _ closed
    refine (spares_rescue tried caught clear.left (fun among => .inr ⟨?_, rfl⟩)
      (eases.raises raised) fresh).1
    rintro rfl
    exact not_among_noCatch among

theorem notices_tryFinally {last : List Stmt} {finalSpan : Span}
    (walked : NoticesBody env (aroundTry (catches ≠ []) (aroundFinal env name place last held)) name
      place body)
    (added : NoticesCatches env (aroundLast (execute env last) held) name place catches)
    (walkedLast : NoticesBody env held name place last)
    (uncaught : Among (visitsStmts env.naming last) env.source name place →
      ¬ (executeCatches env catches).Stores settled name)
    (clear : Clear (visitsStmtKind env.naming span (.tryCatch body catches (some last) finalSpan))
      env.source name place) :
    NoticesKind env held name place span (.tryCatch body catches (some last) finalSpan) := by
  intro walk
  let entered := walkStmts env body { walk with block := walk.block.child }
  let thrown := afterThrow walk.block entered.block
  let before := walkCatches env thrown catches { walk := { entered with block := walk.block } }
  let finished := walkStmts env last { before.walk with block := thrown.child }
  let checked := checkFinally env body entered.block ((catches.map (·.body)).zip before.branches) last
    finalSpan finished.block { finished with block := before.walk.block }
  have tried : Notices env.source (aroundTry (catches ≠ []) (aroundFinal env name place last held))
    name place (visitsStmts env.naming body) (execute env body)
    { walk with block := walk.block.child } entered := walked _
  have caught : Catches.Adds env.source (aroundLast (execute env last) held) name place _ _ thrown _
    before := added thrown { walk := { entered with block := walk.block } }
  have final : Notices env.source held name place (visitsStmts env.naming last) (execute env last)
    { before.walk with block := thrown.child } finished := walkedLast _
  have eases : Eases env.source { finished with block := before.walk.block } checked :=
    .checkFinally body entered.block _ last finalSpan finished.block _
  refine notices_of clear walk (fun stores => ?_) fun raised fresh => ?_
  · rw [executeKind] at stores
    rw [walkStmtKind]
    exact knows_ensuring tried caught catches_ne_nil
      (fun exit => Or.imp_left Or.inl) (fun _ => id) final
      (block_checkFinally env ..) eases.tolerates stores
  · rw [visitsStmtKind, visitsFinal] at clear
    rw [walkStmtKind] at raised
    rw [executeKind]
    have shown := (Orders.rescue (execute_orders env body) (executeCatches_orders env catches)).shown
    let closed := closeTry entered.block { before with walk := checked }
    have eases : Eases env.source { finished with block := before.walk.block }
        (closeFinally finished.block closed) :=
      (eases.trans (.closeTry entered.block { before with walk := checked })).trans
        (.closeFinally finished.block closed)
    refine spares_ensuring clear shown (fun raised fresh => ?_) final (fun among stores => ?_)
      (eases.raises raised) fresh
    · refine spares_rescue tried caught clear.left (fun among => .inr ⟨?_, rfl⟩) raised fresh
      rintro rfl
      exact not_among_noCatch among
    · rcases Runs.stores_rescue catches_ne_nil stores with stores | stores
      · have known := knows_afterThrow (tried.knows (stores.mono fun exit =>
          Or.imp_left fun settles => .inr ⟨among, settles⟩)) walk.block
        exact known.imp_right (Or.imp_left caught.tolerates)
      · exact absurd stores (uncaught among)

end

/-! ### Cases -/

/-- Walking the cases of a `switch` that come after others. -/
def NoticesCases (env : Env) (held : Leave → Prop) (name : String) (place : Span) (late : Bool)
    (cases : List Case) : Prop :=
  ∀ before, Cases.Adds env.source held name place (visitsCases env.naming late cases)
    (Way env cases) before (walkCases env cases before)

theorem notices_noCase {late : Bool} : NoticesCases env held name place late [] := by
  intro before
  rw [visitsCases, walkCases]
  exact before.adds_nil

theorem notices_case {test : Option Expr} {body : List Stmt} {announced late : Bool}
    {rest : List Case} (walked : NoticesBody env held name place body)
    (rejoined : (execute env body).Stores held name →
      Rejoined env (⟨test, body, span, announced⟩ :: rest))
    (apart : Among (visitsBodies env.naming rest) env.source name place →
      ¬ (execute env body).Stores never name)
    (added : NoticesCases env held name place (late || test.isNone) rest)
    (clear : Clear (visitsCases env.naming late (⟨test, body, span, announced⟩ :: rest)) env.source
      name place) :
    NoticesCases env held name place late (⟨test, body, span, announced⟩ :: rest) := by
  intro before
  rw [visitsCases] at clear ⊢
  rw [walkCases_cons]
  have clearLater := clear
  rw [List.append_assoc] at clearLater
  refine Cases.adds_cons clear (Cases.enters span _ clearLater.right (walked _) rejoined) apart
    (fun byDefault => ?_) (added _)
  subst byDefault
  rw [Option.isNone_none, Bool.or_true] at clear
  exact quiet_misses clear.right.tame

theorem notices_switch {subject : Expr} {cases : List Case}
    (added : NoticesCases env (aroundLoop held) name place false cases)
    (clear : Clear (visitsStmtKind env.naming span (.switch subject cases)) env.source name place) :
    NoticesKind env held name place span (.switch subject cases) := by
  intro walk
  rw [visitsStmtKind] at clear ⊢
  rw [executeKind, walkStmtKind]
  let around := walkExpr env subject walk
  have started : Notices env.source held name place (visitsExpr env.naming subject)
      (evaluate env subject).lift walk around :=
    .of_expr (walkExpr_gathers env subject walk) (evaluate_threads env subject) clear.left
  have entered := (executeCases_orders env false cases).union (executeDefault_orders env false cases)
  have chosen := entered.subset (executeCases_subset env _ cases)
  exact started.seq clear ((added { walk := around }).notices
    (walkCases_sees env false cases { walk := around }) (Orders.round_done chosen).shown clear.right)

end

end Flow

end PhpAudit
