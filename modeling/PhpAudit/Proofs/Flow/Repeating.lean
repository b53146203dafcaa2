/-
This file is about `do` loops. Their body is walked in the block around the loop, as code that comes
before it, and a jump is seen only if the body ends in it. So the walk is right about all runs but
those that a jump takes out of the middle of the body: if it leaves the block, the loop is completed
through `break`, or through `continue` and the test, if at all; and a variable that it makes held has
a value after the loop if the runs that jump give it one.
-/

import PhpAudit.Proofs.Flow.Assigning

namespace PhpAudit

open Execution

/-! ### Runs of a loop that tests last -/

namespace Execution.Runs

variable {name : String} {body : Runs Leave} {test : Runs Leave}

/-- Every run that ends so gives the variable a value. -/
def WritesBefore (name : String) (exit : Option Leave) (runs : Runs Leave) : Prop :=
  ∀ run ∈ runs, run.exit = exit → name ∈ written run.trace

/-- A loop that tests last is completed by `break`, or by its test after a round. -/
theorem endsIn_doWhile :
    (body.round (loop test body done)).EndsIn none ↔
      body.EndsIn (some .broke) ∨
        (body.EndsIn none ∨ body.EndsIn (some .continued)) ∧ test.EndsIn none := by
  constructor
  · intro ends
    obtain ⟨middle, bodyEnds, ends⟩ := endsIn_bind.mp ends
    match middle, bodyEnds, ends with
    | none, bodyEnds, ends => exact .inr ⟨.inl bodyEnds, endsIn_loop_none ends⟩
    | some .continued, bodyEnds, ends => exact .inr ⟨.inr bodyEnds, endsIn_loop_none ends⟩
    | some .broke, bodyEnds, _ => exact .inl bodyEnds
    | some .returned, _, ends => simp at ends
    | some (.aborted _), _, ends => simp at ends
  · rintro (broke | ⟨round, run, member, exit⟩)
    · exact endsIn_bind.mpr ⟨_, broke, endsIn_done.mpr rfl⟩
    · obtain ⟨trace, _⟩ := run
      obtain rfl := exit
      have tested : (loop test body done).EndsIn none := ⟨_, mem_loop_of_test member, rfl⟩
      rcases round with ends | ends
      · exact endsIn_bind.mpr ⟨_, ends, tested⟩
      · exact endsIn_bind.mpr ⟨_, ends, tested⟩

/-- The parts that give a value in every run that completes a loop that tests last. -/
theorem writes_doWhile :
    (body.round (loop test body done)).Writes name ↔
      body.WritesBefore name (some .broke) ∧
        (body.WritesBefore name none ∧ body.WritesBefore name (some .continued) ∨
          test.Writes name) := by
  constructor
  · intro writes
    refine ⟨fun run member broke => ?_, ?_⟩
    · have unchanged := writes ⟨run.trace ++ [], none⟩
        ⟨run, member, ⟨[], none⟩, by rw [broke]; exact mem_done, rfl⟩ rfl
      rwa [List.append_nil] at unchanged
    · refine or_iff_not_imp_right.mpr fun untested => ?_
      simp only [Writes, not_forall] at untested
      obtain ⟨⟨trace, _⟩, tested, rfl, unwritten⟩ := untested
      -- a round that ends the body, with the run of the test that leaves the variable alone
      have round {exit : Option Leave} (goesOn : exit = none ∨ exit = some .continued) :
          body.WritesBefore name exit := by
        rintro ⟨shown, _⟩ member rfl
        have both := writes _ (mem_round member goesOn (mem_loop_of_test tested)) rfl
        rw [written_append] at both
        exact both.resolve_right unwritten
      exact ⟨round (.inl rfl), round (.inr rfl)⟩
  · rintro ⟨broken, rounds⟩ _ ⟨⟨shown, exit⟩, member, after, follows, rfl⟩ completes
    rw [written_append]
    cases exit with
    | none =>
      exact rounds.imp (fun writes => writes.1 _ member rfl) (writes_loop · after follows completes)
    | some exit =>
      cases exit with
      | continued =>
        exact rounds.imp (fun writes => writes.2 _ member rfl) (writes_loop · after follows completes)
      | broke => exact .inl (broken _ member rfl)
      | returned | aborted =>
        rw [List.mem_singleton.mp follows.2] at completes
        cases completes

end Execution.Runs

/-! ### Walks over loops that test last -/

namespace Flow

/-- If the walk leaves the block, a jump in the body is the only way to complete the loop. -/
theorem endsIn_doWhile_of_left {env : Env} {body : List Stmt} {test : Expr}
    (paced : Paced env true body) (pacedTest : everyExpr (pacesExits env) test = true) (span : Span)
    {walk : Walk} (live : walk.Live)
    (left : (walkStmtKind env (.doWhile body test) walk).block.exits ≠ .none) :
    (executeKind env span (.doWhile body test)).EndsIn none ↔
      (execute env body).EndsIn (some .broke) ∨
        (execute env body).EndsIn (some .continued) ∧ (evaluate env test).EndsIn none := by
  rw [executeKind, Runs.endsIn_doWhile, Runs.endsIn_lift_none, or_and_right]
  refine or_congr_right (or_iff_right fun ⟨completes, tested⟩ => left ?_)
  rw [walkStmtKind]
  have ended : (walkExpr env test (walkStmts env body
      (walk.mapBlock fun block => { block with insideLoop := true }))).Live :=
    live_expr env test pacedTest tested ((follows_body env true body paced).live completes live)
  exact congrArg (· \ Exits.loopLocal) (eq_of_beq ended)

/-- What the walk makes held has a value after the loop if the runs that jump give it one. -/
theorem writes_doWhile_of_holds {env : Env} (outermost : env.enclosing = []) {name : String}
    {body : List Stmt} {test : Expr} (traced : Traced env name true body)
    (surely : everyExpr (bindsSurely env name) test = true) (span : Span) {walk : Walk}
    (unknown : ¬ walk.scope.Holds true name)
    (holds : (walkStmtKind env (.doWhile body test) walk).scope.Holds true name) :
    (executeKind env span (.doWhile body test)).Writes name ↔
      (execute env body).WritesBefore name (some .broke) ∧
        ((execute env body).WritesBefore name (some .continued) ∨
          (evaluate env test).Writes name) := by
  rw [executeKind, Runs.writes_doWhile, Runs.writes_lift]
  refine and_congr_right fun _ => ⟨.imp_left And.right, fun jumps => ?_⟩
  rw [walkStmtKind] at holds
  rcases binds_expr outermost true test surely _ holds with holds | ⟨_, tested⟩
  · have body := (binds_stmts outermost true body traced _ holds).resolve_left unknown
    exact jumps.imp_left fun continued => ⟨body.2, continued⟩
  · exact .inr tested

/--
The walk over a `do` loop is sound but for jumps. If it leaves a block that was not left, the loop can
be completed only by a `break` in its body, or by a `continue` and its test; and if it newly makes a
variable held, the loop gives it a value unless a run does not that breaks off the body, or one that
goes on to a test which does not either. Where the jumps stand at the end of the body, and what comes
after one gives the variable no value, the walk is sound.
-/
theorem do_loops_sound_but_for_jumps (env : Env) (outermost : env.enclosing = []) (body : List Stmt)
    (test : Expr) (span : Span) (walk : Walk) (fresh : walk.block.exits = .none) :
    let walked := walkStmtKind env (.doWhile body test) walk
    let runs := executeKind env span (.doWhile body test)
    (Paced env true body → everyExpr (pacesExits env) test = true → walked.block.exits ≠ .none →
      (runs.EndsIn none ↔ (execute env body).EndsIn (some .broke) ∨
        (execute env body).EndsIn (some .continued) ∧ (evaluate env test).EndsIn none) ∧
      (jumpsLast env body = true → ¬ runs.EndsIn none)) ∧
    ∀ name, Traced env name true body → everyExpr (bindsSurely env name) test = true →
      walk.scope.has name = false → walked.scope.Holds true name →
      (runs.Writes name ↔ (execute env body).WritesBefore name (some .broke) ∧
        ((execute env body).WritesBefore name (some .continued) ∨
          (evaluate env test).Writes name)) ∧
      (bindsEarly env name body = true →
        staysInside body = true ∨ everyExpr (bindsNothing env) test = true → runs.Writes name) := by
  have live : walk.Live := by
    unfold Walk.Live Walk.record Block.record
    rw [fresh]
    rfl
  constructor
  · intro paced pacedTest left
    refine ⟨endsIn_doWhile_of_left paced pacedTest span live left, fun last completes => ?_⟩
    have follows := follows_doWhile pacedTest (follows_body env true body paced)
      (ends_body env true body paced last) span
    exact left (eq_of_beq (follows.live completes live))
  · intro name traced surely unknown holds
    have unheld : ¬ walk.scope.Holds true name := by
      rintro ⟨info, found, defined, _⟩
      have known := (walk.scope.has_eq_true name).mpr ⟨info, found, defined rfl⟩
      exact Bool.false_ne_true (unknown.symm.trans known)
    refine ⟨writes_doWhile_of_holds outermost traced surely span unheld holds, fun early tame => ?_⟩
    have binds := binds_doWhile (binds_expr outermost true test surely)
      (bindsCase_body outermost true body traced early) tame span
    exact ((binds walk holds).resolve_left unheld).2

/-- `do { if ($a) { throw $e; } return; } while ($a);` -/
def leavingLoop : List Stmt × Expr :=
  let var (name : String) : Expr := ⟨.var name, ⟨0, 1⟩⟩
  let stmt (kind : StmtKind) : Stmt := ⟨kind, ⟨0, 1⟩⟩
  ([stmt (.branch (var "$a") [stmt (.expr ⟨.throw (var "$e"), ⟨0, 1⟩⟩)] ⟨0, 1⟩ .nothing),
    stmt (.returns none)], var "$a")

/-- `do { $x = 1; if ($a) { continue; } } while ($a);` -/
def assigningLoop : List Stmt × Expr :=
  let var (name : String) : Expr := ⟨.var name, ⟨0, 1⟩⟩
  let stmt (kind : StmtKind) : Stmt := ⟨kind, ⟨0, 1⟩⟩
  ([stmt (.expr ⟨.assign (var "$x") ⟨.integer, ⟨0, 1⟩⟩ .assign false, ⟨0, 1⟩⟩),
    stmt (.branch (var "$a") [stmt .continues] ⟨0, 1⟩ .nothing)], var "$a")

/-- A loop that no run completes, and one after which `$x` has a value. -/
theorem do_loops_sound_but_for_jumps_examples :
    ¬ (executeKind default ⟨0, 1⟩ (.doWhile leavingLoop.1 leavingLoop.2)).EndsIn none ∧
      (executeKind default ⟨0, 1⟩ (.doWhile assigningLoop.1 assigningLoop.2)).Writes "$x" := by
  have leaves := do_loops_sound_but_for_jumps default rfl leavingLoop.1 leavingLoop.2 ⟨0, 1⟩
    (.start .empty { enabled := true }) rfl
  have assigns := do_loops_sound_but_for_jumps default rfl assigningLoop.1 assigningLoop.2 ⟨0, 1⟩
    (.start .empty { enabled := true }) rfl
  exact ⟨(leaves.1 (by decide) (by decide) (by decide)).2 (by decide),
    (assigns.2 "$x" (by decide) (by decide) (by decide)
      (by decide)).2 (by decide) (.inr (by decide))⟩

/-- `do { if ($a) { break; } $x = 1; return; } while ($a);` -/
def brokenLoop : List Stmt × Expr :=
  let var (name : String) : Expr := ⟨.var name, ⟨0, 1⟩⟩
  let stmt (kind : StmtKind) : Stmt := ⟨kind, ⟨0, 1⟩⟩
  ([stmt (.branch (var "$a") [stmt .breaks] ⟨0, 1⟩ .nothing),
    stmt (.expr ⟨.assign (var "$x") ⟨.integer, ⟨0, 1⟩⟩ .assign false, ⟨0, 1⟩⟩),
    stmt (.returns none)], var "$a")

/-- A `break` in the middle of the body completes the loop, and nothing after it was run. -/
theorem brokenLoop_completes :
    let walked := walkStmtKind default (.doWhile brokenLoop.1 brokenLoop.2)
      (.start .empty { enabled := true })
    walked.block.exits ≠ .none ∧ walked.scope.Holds true "$x" ∧
      ∃ run ∈ executeKind default ⟨0, 1⟩ (.doWhile brokenLoop.1 brokenLoop.2),
        run.exit = none ∧ "$x" ∉ written run.trace := by
  refine ⟨by decide, by decide, ⟨[.read "$a" ⟨0, 1⟩], none⟩, ?_, rfl, by simp⟩
  have tested : ⟨[.read "$a" ⟨0, 1⟩], none⟩ ∈ evaluate default brokenLoop.2 := by
    rw [brokenLoop, evaluate, evaluateKind, Execution.read]
    exact Runs.mem_seq_of_mem (Runs.mem_emit _) Runs.mem_attempt
  have broken : ⟨[], some .broke⟩ ∈ execute default [⟨.breaks, ⟨0, 1⟩⟩] := by
    rw [execute, executeStmt, executeKind, execute, Runs.seq_done]
    exact ⟨rfl, List.mem_singleton_self _⟩
  have taken := Runs.mem_seq_of_mem (Runs.mem_lift tested)
    (Set.mem_union_left (executeOtherwise default .nothing) broken)
  have leaves : ⟨[.read "$a" ⟨0, 1⟩], some .broke⟩ ∈ execute default brokenLoop.1 := by
    rw [brokenLoop, execute]
    exact Runs.mem_seq.mpr (.inl ⟨taken, by simp⟩)
  rw [executeKind]
  exact ⟨_, leaves, ⟨[], none⟩, Runs.mem_done, rfl⟩

end Flow

end PhpAudit
