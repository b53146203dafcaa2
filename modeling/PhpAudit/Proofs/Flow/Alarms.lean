/-
This file is about the variables that a body gives a value on no way to some read, by what the walk
reports there. A report that a variable is undefined is right about the body if the walk does not lose
sight of what is stored before the read.
-/

import PhpAudit.Proofs.Flow.Retaining

namespace PhpAudit

open Execution

namespace Flow

section

variable {env : Env} {name : String} {place : Span}

/-! ### All statements -/

mutual

/-- The walk takes notice of what the statements store, if they keep it in sight. -/
theorem walkStmts_notices (held : Leave → Prop) (body : List Stmt)
    (retains : Retains env name place held body)
    (clear : Clear (visitsStmts env.naming body) env.source name place) :
    NoticesBody env held name place body := by
  intro walk
  cases body with
  | nil =>
    rw [visitsStmts_nil, execute_nil, walkStmts_nil]
    exact .of_eases (.refl walk) silent_done
  | cons stmt rest =>
    obtain ⟨kind, span⟩ := stmt
    rw [Retains] at retains
    rw [visitsStmts, visitsStmt] at clear ⊢
    rw [execute, executeStmt, walkStmts, walkStmt]
    have first := walkKind_notices held span kind retains.1 clear.left
    have others := walkStmts_notices held rest retains.2 clear.right
    exact .seq clear (.eases_then (.checkDeadCode ⟨kind, span⟩ walk) (first _)) (others _)

theorem walkKind_notices (held : Leave → Prop) (span : Span) (kind : StmtKind)
    (retains : RetainsKind env name place held kind)
    (clear : Clear (visitsStmtKind env.naming span kind) env.source name place) :
    NoticesKind env held name place span kind := by
  cases kind with
  | expr value =>
    intro walk
    rw [visitsStmtKind] at clear ⊢
    rw [executeKind, walkStmtKind]
    exact .of_expr (walkExpr_gathers env value walk) (evaluate_threads env value) clear
  | echo values =>
    intro walk
    rw [visitsStmtKind] at clear ⊢
    rw [executeKind, walkStmtKind]
    exact .eases_then (.impure walk) (.of_expr (walkExprs_gathers env values _)
      ((evaluateAll_threads env values).then_silent silent_attempt) clear)
  | returns value => exact notices_returns clear
  | breaks | continues =>
    intro walk
    rw [visitsStmtKind, executeKind, walkStmtKind]
    exact .of_eases (.leave _ walk) (silent_leave _)
  | block body =>
    rw [RetainsKind] at retains
    rw [visitsStmtKind_block] at clear
    have walked := walkStmts_notices held body retains clear
    intro walk
    rw [visitsStmtKind_block, executeKind_block, walkStmtKind_block]
    exact walked walk
  | branch test body bodySpan rest =>
    rw [RetainsKind] at retains
    have clears := clear
    rw [visitsStmtKind] at clears
    exact notices_branch (walkStmts_notices held body retains.2.1 clears.left.right)
      (walkOtherwise_notices held rest retains.2.2 clears.right) retains.1 clear
  | whileLoop test body =>
    rw [RetainsKind] at retains
    have clears := clear
    rw [visitsStmtKind] at clears
    exact notices_while (walkStmts_notices _ body retains.2 (clears.right.of_map .inBody)) retains.1
      clear
  | doWhile body test =>
    rw [RetainsKind] at retains
    have clears := clear
    rw [visitsStmtKind] at clears
    exact notices_doWhile (walkStmts_notices _ body retains.2 (clears.of_map .inBody).left) retains.1
      clear
  | forLoop init test step body =>
    rw [RetainsKind] at retains
    have clears := clear
    rw [visitsStmtKind] at clears
    exact notices_for (walkStmts_notices _ body retains.2 (clears.right.of_map .inBody)) retains.1
      clear
  | foreach subject key value byRef body =>
    rw [RetainsKind] at retains
    have clears := clear
    rw [visitsStmtKind] at clears
    exact notices_foreach (walkStmts_notices _ body retains.2 (clears.right.right.of_map .inBody))
      retains.1 clear
  | switch subject cases =>
    rw [RetainsKind] at retains
    have clears := clear
    rw [visitsStmtKind] at clears
    exact notices_switch (walkCases_notices _ false cases retains clears.right) clear
  | tryCatch body catches final finalSpan =>
    have clears := clear
    rw [visitsStmtKind] at clears
    cases final with
    | none =>
      rw [RetainsKind] at retains
      exact notices_try (walkStmts_notices _ body retains.2.1 clears.left.left)
        (walkCatches_notices _ catches retains.2.2 clears.left.right) retains.1 clear
    | some last =>
      rw [RetainsKind] at retains
      rw [visitsFinal] at clears
      exact notices_tryFinally (walkStmts_notices _ body retains.2.1 clears.left.left)
        (walkCatches_notices _ catches retains.2.2.1 clears.left.right)
        (walkStmts_notices _ last retains.2.2.2 clears.right) retains.1 clear
  | global names => exact notices_global clear
  | static bindings =>
    intro walk
    rw [visitsStmtKind] at clear ⊢
    rw [executeKind, walkStmtKind]
    exact .eases_then (.impure walk) (.of_expr (walkStatics_gathers env bindings _)
      (executeBindings_threads env bindings) clear)
  | unset names => exact notices_unset clear
  | constants items =>
    intro walk
    rw [visitsStmtKind] at clear ⊢
    rw [executeKind, walkStmtKind]
    exact .of_expr (walkConstItems_gathers env items walk) (evaluateConstItems_threads env items)
      clear
  | namespaced | imports | function | classLike | nop =>
    intro walk
    rw [visitsStmtKind, executeKind, walkStmtKind]
    exact .of_eases (.refl walk) silent_done

theorem walkOtherwise_notices (held : Leave → Prop) (rest : Otherwise)
    (retains : RetainsOtherwise env name place held rest)
    (clear : Clear (visitsOtherwise env.naming rest) env.source name place) :
    NoticesOtherwise env held name place rest := by
  cases rest with
  | nothing => exact notices_nothing
  | orElse body =>
    rw [RetainsOtherwise] at retains
    rw [visitsOtherwise] at clear
    exact notices_orElse (walkStmts_notices held body retains.2 clear) retains.1
  | orIf test body bodySpan rest =>
    rw [RetainsOtherwise] at retains
    have clears := clear
    rw [visitsOtherwise] at clears
    exact notices_orIf (walkStmts_notices held body retains.2.1 clears.left.right)
      (walkOtherwise_notices held rest retains.2.2 clears.right) retains.1 clear

theorem walkCatches_notices (held : Leave → Prop) (catches : List Catch)
    (retains : RetainsCatches env name place held catches)
    (clear : Clear (visitsCatches env.naming catches) env.source name place) :
    NoticesCatches env held name place catches := by
  cases catches with
  | nil => exact notices_noCatch
  | cons clause rest =>
    obtain ⟨types, bound, body, span⟩ := clause
    rw [RetainsCatches] at retains
    have clears := clear
    rw [visitsCatches] at clears
    exact notices_catch (walkStmts_notices held body retains.2.1 clears.left.right) retains.1
      (walkCatches_notices held rest retains.2.2 clears.right) clear

theorem walkCases_notices (held : Leave → Prop) (late : Bool) (cases : List Case)
    (retains : RetainsCases env name place held cases)
    (clear : Clear (visitsCases env.naming late cases) env.source name place) :
    NoticesCases env held name place late cases := by
  cases cases with
  | nil => exact notices_noCase
  | cons case rest =>
    obtain ⟨test, body, span, announced⟩ := case
    rw [RetainsCases] at retains
    have clears := clear
    rw [visitsCases] at clears
    exact notices_case (walkStmts_notices held body retains.2.1 clears.left.right) retains.1.1
      retains.1.2 (walkCases_notices held _ rest retains.2.2 clears.right) clear

end

end

/--
A variable that is reported as undefined at some place is given a value on no way to it. That holds
for a body that keeps in sight what it stores, in which the variable is neither unset nor tested, is
not taken by reference into a closure, is assigned in its turn only, and stands at the place once.
-/
theorem undefined_never_assigned (env : Env) (body : List Stmt) (walk : Walk) {name : String}
    {place : Span} (reported : (walkBody env body walk).Raised env.source name place)
    (fresh : ¬ walk.Raised env.source name place)
    (clear : Clear (visitsStmts env.naming body) env.source name place)
    (retains : Retains env name place never body) :
    ∀ run ∈ execute env body, ∀ span, ¬ [.write name span, .read name place].Sublist run.trace := by
  have eases : Eases env.source (walkStmts env body walk) (walkBody env body walk) :=
    .flushUnused _
  have notices := walkStmts_notices never body retains clear walk
  intro run member span pair
  exact notices.spares (eases.raises reported) fresh run member ⟨span, pair⟩

/-- `$x = 1;` -/
def storeAt (start : Nat) : Stmt :=
  ⟨.expr ⟨.assign ⟨.var "$x", ⟨start, start + 2⟩⟩ ⟨.integer, ⟨start + 5, start + 6⟩⟩ .assign false,
    ⟨start, start + 6⟩⟩, ⟨start, start + 7⟩⟩

/-- `if ($a) { $x = 1; return; } echo $x; while ($b) { $x = 2; }` -/
def returnedStore : List Stmt :=
  [⟨.branch ⟨.var "$a", ⟨4, 6⟩⟩ [storeAt 10, ⟨.returns none, ⟨18, 25⟩⟩] ⟨8, 27⟩ .nothing, ⟨0, 27⟩⟩,
    ⟨.echo [⟨.var "$x", ⟨33, 35⟩⟩], ⟨28, 36⟩⟩,
    ⟨.whileLoop ⟨.var "$b", ⟨44, 46⟩⟩ [storeAt 50], ⟨37, 59⟩⟩]

/-- A branch that returns and a loop after the read store a variable, but on no way to the read. -/
theorem undefined_never_assigned_returnedStore :
    let env : Env :=
      { (default : Env) with
        source := .of "a.php" "if ($a) { $x = 1; return; } echo $x; while ($b) { $x = 2; }" }
    let walk := startBody .empty [] { enabled := true }
    (walkBody env returnedStore walk).Raised env.source "$x" ⟨33, 35⟩ ∧
      ¬ walk.Raised env.source "$x" ⟨33, 35⟩ ∧
      Clear (visitsStmts env.naming returnedStore) env.source "$x" ⟨33, 35⟩ ∧
      Retains env "$x" ⟨33, 35⟩ never returnedStore ∧
      ∀ run ∈ execute env returnedStore, ∀ span,
        ¬ [.write "$x" span, .read "$x" ⟨33, 35⟩].Sublist run.trace := by
  intro env walk
  have reported : (walkBody env returnedStore walk).Raised env.source "$x" ⟨33, 35⟩ := by
    unfold Walk.Raised
    decide +kernel
  have fresh : ¬ walk.Raised env.source "$x" ⟨33, 35⟩ := by
    unfold Walk.Raised
    decide
  have clear : Clear (visitsStmts env.naming returnedStore) env.source "$x" ⟨33, 35⟩ := by
    decide
  have returns : ¬ (execute env [storeAt 10, ⟨.returns none, ⟨18, 25⟩⟩]).Stores never "$x" := by
    intro stores
    have ends := stores.endsIn
    simp [execute, executeStmt, executeKind, evaluateOptional] at ends
  have elsewhere : ¬ Among (visitsExpr env.naming ⟨.var "$b", ⟨44, 46⟩⟩ ++
      visitsStmts env.naming [storeAt 50]) env.source "$x" ⟨33, 35⟩ := by
    decide
  have retains : Retains env "$x" ⟨33, 35⟩ never returnedStore := by
    simp only [returnedStore, storeAt, Retains, RetainsKind, RetainsOtherwise]
    exact ⟨⟨fun stores => absurd stores returns, ⟨trivial, trivial, trivial⟩, trivial⟩, trivial,
      ⟨fun among => absurd among elsewhere, trivial, trivial⟩, trivial⟩
  exact ⟨reported, fresh, clear, retains,
    undefined_never_assigned env returnedStore walk reported fresh clear retains⟩

/-- `while ($c) { if ($d) { $x = 1; break; } } echo $x;` -/
def brokenStore : List Stmt :=
  let branch : Stmt :=
    ⟨.branch ⟨.var "$d", ⟨17, 19⟩⟩ [storeAt 23, ⟨.breaks, ⟨31, 37⟩⟩] ⟨21, 39⟩ .nothing, ⟨13, 39⟩⟩
  [⟨.whileLoop ⟨.var "$c", ⟨7, 9⟩⟩ [branch], ⟨0, 41⟩⟩,
    ⟨.echo [⟨.var "$x", ⟨47, 49⟩⟩], ⟨42, 50⟩⟩]

/-- A branch of a loop that assigns a variable and leaves the loop comes before a read after it. -/
theorem undefined_assigned_brokenStore :
    let env : Env :=
      { (default : Env) with
        source := .of "a.php" "while ($c) { if ($d) { $x = 1; break; } } echo $x;" }
    let walk := startBody .empty [] { enabled := true }
    (walkBody env brokenStore walk).Raised env.source "$x" ⟨47, 49⟩ ∧
      ∃ run ∈ execute env brokenStore, run.trace = [.read "$c" ⟨7, 9⟩, .read "$d" ⟨17, 19⟩,
        .write "$x" ⟨23, 25⟩, .read "$x" ⟨47, 49⟩] := by
  intro env walk
  refine ⟨by unfold Walk.Raised; decide +kernel, ?_⟩
  have taken (name : String) (span : Span) :
      ⟨[.read name span], none⟩ ∈ evaluate env ⟨.var name, span⟩ := by
    rw [evaluate, evaluateKind, Execution.read]
    exact Runs.mem_seq_of_mem (Runs.mem_emit _) Runs.mem_attempt
  have stored : ⟨[.write "$x" ⟨23, 25⟩], none⟩ ∈ executeStmt env (storeAt 23) := by
    simp only [storeAt, executeStmt, executeKind, evaluate, evaluateKind, place, store, Runs.done_seq,
      Bool.false_eq_true, if_false]
    exact Runs.mem_lift (Runs.mem_emit _)
  have broken : ⟨[], some .broke⟩ ∈ execute env [⟨.breaks, ⟨31, 37⟩⟩] := by
    rw [execute, executeStmt, executeKind, execute, Runs.seq_done]
    exact ⟨rfl, List.mem_singleton_self _⟩
  have entered := Runs.mem_seq_of_mem (Runs.mem_lift (taken "$d" ⟨17, 19⟩))
    (Set.mem_union_left (executeOtherwise env .nothing) (Runs.mem_seq_of_mem stored broken))
  have ended : ⟨[], none⟩ ∈ execute env [] := by
    rw [execute]
    exact Runs.mem_done
  have echoed := Runs.mem_lift (Runs.mem_seq_of_mem (Runs.mem_seq_of_mem (taken "$x" ⟨47, 49⟩)
    Runs.mem_done) Runs.mem_attempt)
  refine ⟨⟨[.read "$c" ⟨7, 9⟩, .read "$d" ⟨17, 19⟩, .write "$x" ⟨23, 25⟩, .read "$x" ⟨47, 49⟩],
    none⟩, ?_, rfl⟩
  simp only [brokenStore, execute, executeStmt, executeKind, evaluateAll, Runs.seq_done] at *
  exact Runs.mem_seq_of_mem (Runs.mem_loop_of_break (Runs.mem_lift (taken "$c" ⟨7, 9⟩)) entered) echoed

end Flow

end PhpAudit
