/-
This file proves when a write that is reported as unused is really never read. The walk tracks writes
in the order in which it visits them, so this holds where the code runs in that order: if the
assignment does not stand in the head of a loop, and none of the variable is evaluated before code that
is walked earlier.

In the head of a `for` loop it fails. Tracking stops inside of loops, but the walk takes only the body
to be inside, while the step of the loop writes what its test reads in the next round.
-/

import PhpAudit.Proofs.Execution.Course
import PhpAudit.Proofs.Flow.Visiting

namespace PhpAudit

/-! ### Reports of unused variables -/

/-- The report of a write that is never read. -/
def Source.unusedAt (source : Source) (name : String) (span : Span) : Issue :=
  source.issueAt span .warning "unused"
    s!"Variable {name} is unused (use $_ to ignore this inspection)"

/-- The variable that a report is about. -/
theorem Source.name_eq_of_unusedAt_eq {source : Source} {name other : String} {span place : Span}
    (equal : source.unusedAt name span = source.unusedAt other place) : name = other := by
  have messages : "Variable " ++ name ++ " is unused (use $_ to ignore this inspection)" =
      "Variable " ++ other ++ " is unused (use $_ to ignore this inspection)" :=
    congrArg Issue.message equal
  have texts := congrArg String.toList messages
  simp only [String.toList_append] at texts
  exact String.toList_inj.mp (List.append_cancel_left (List.append_cancel_right texts))

namespace Walk

variable {env : Env}

/-- One write per place is kept, and none is added. -/
theorem mem_of_mem_onePerPlace {write : Span × String} {writes : List (Span × String)}
    (member : write ∈ writes.foldr (fun write kept =>
      match kept with
      | next :: rest => if write.1 = next.1 then write :: rest else write :: kept
      | [] => [write]) []) : write ∈ writes := by
  induction writes with
  | nil => exact member
  | cons first rest inductionHypothesis =>
    rw [List.foldr_cons] at member
    generalize rest.foldr _ [] = kept at member inductionHypothesis
    cases kept with
    | nil => exact List.mem_cons.mpr (.inl (List.mem_singleton.mp member))
    | cons next others =>
      dsimp only at member
      split at member
      · exact List.mem_cons.mpr ((List.mem_cons.mp member).imp_right fun member =>
          inductionHypothesis (.tail _ member))
      · exact List.mem_cons.mpr ((List.mem_cons.mp member).imp_right inductionHypothesis)

/-- What is reported was not read. -/
theorem mem_pending_of_mem_pendingWrites {walk : Walk} {span : Span} {name : String}
    (member : (span, name) ∈ walk.pendingWrites env) : span ∈ walk.pending name := by
  have sorted := List.mem_mergeSort.mp (mem_of_mem_onePerPlace member)
  obtain ⟨⟨other, spans⟩, tracked, write⟩ := List.mem_flatMap.mp sorted
  obtain ⟨place, found, equal⟩ := List.mem_map.mp write
  obtain ⟨rfl, rfl⟩ := Prod.mk.inj equal
  have stored := Std.TreeMap.mem_toList_iff_getElem?_eq_some.mp (List.mem_filter.mp tracked).1
  unfold pending
  rw [Std.TreeMap.getD_eq_getD_getElem?, stored]
  exact found

/-- The end of a body reports the unread writes, and nothing else. -/
theorem of_mem_flushUnused {walk : Walk} {issue : Issue}
    (reported : issue ∈ (walk.flushUnused env).report.issues) :
    issue ∈ walk.report.issues ∨
      ∃ write ∈ walk.pendingWrites env, issue = env.source.unusedAt write.2 write.1 := by
  have reports (writes : List (Span × String)) (walk : Walk)
      (reported : issue ∈ (writes.foldl (fun walk write =>
        walk.issue env write.1 .warning "unused"
          s!"Variable {write.2} is unused (use $_ to ignore this inspection)") walk).report.issues) :
      issue ∈ walk.report.issues ∨
        ∃ write ∈ writes, issue = env.source.unusedAt write.2 write.1 := by
    induction writes generalizing walk with
    | nil => exact .inl reported
    | cons write rest inductionHypothesis =>
      rcases inductionHypothesis _ reported with reported | ⟨other, member, equal⟩
      · unfold Walk.issue Report.add at reported
        dsimp only at reported
        split at reported
        · exact (List.mem_append.mp reported).imp_right fun last =>
            ⟨write, .head _, List.mem_singleton.mp last⟩
        · exact .inl reported
      · exact .inr ⟨other, .tail _ member, equal⟩
  unfold flushUnused at reported
  dsimp only at reported
  split at reported
  · exact .inl reported
  · exact reports _ walk reported

/-- A body starts without writes, outside of loops. -/
theorem pending_startBody (scope : Scope) (params : List ParamInfo) (report : Report)
    (name : String) : (Flow.startBody scope params report).pending name = [] := by
  have shared (params : List ParamInfo) (walk : Walk) :
      (params.foldl (fun walk param => walk.share param.name) walk).pending name =
        walk.pending name := by
    induction params generalizing walk with
    | nil => rfl
    | cons param rest inductionHypothesis => exact inductionHypothesis _
  unfold Flow.startBody
  rw [shared]
  rfl

end Walk

/-! ### Places of reports -/

/-- The visit gives the variable a value that should be read. -/
def Visit.assigns (visit : Visit) : Bool :=
  match visit.use with
  | .assigned _ => true
  | .used | .probed | .captured _ | .unset | .tested | .nested => false

/-- The place at which the value would be reported as unused. -/
def Visit.noted? (visit : Visit) : Option Span :=
  match visit.use with
  | .assigned noted => noted
  | .used | .probed | .captured _ | .unset | .tested | .nested => none

/-- The visit stands where the variable is reported as unused, or notes a write that would be. -/
def Visit.Reports (source : Source) (name : String) (span : Span) (visit : Visit) : Prop :=
  visit.name = name ∧ ∃ place ∈ visit.span :: visit.noted?.toList,
    source.unusedAt name place = source.unusedAt name span

instance (source : Source) (name : String) (span : Span) (visit : Visit) :
    Decidable (visit.Reports source name span) :=
  inferInstanceAs (Decidable (_ ∧ ∃ place ∈ _, _))

/-- At most one visit stands at the place of a report. -/
def Unique (visits : List Visit) (source : Source) (name : String) (span : Span) : Prop :=
  visits.Pairwise fun first second =>
    ¬ (first.Reports source name span ∧ second.Reports source name span)

instance (visits : List Visit) (source : Source) (name : String) (span : Span) :
    Decidable (Unique visits source name span) :=
  inferInstanceAs (Decidable (List.Pairwise _ _))

/-- No assignment of the variable is early, and one that is reported is not in the head of a loop. -/
def InTurn (visits : List Visit) (source : Source) (name : String) (span : Span) : Prop :=
  ∀ visit ∈ visits, visit.name = name → visit.assigns = true →
    visit.early = false ∧ (visit.Reports source name span → visit.turn ≠ .head)

instance (visits : List Visit) (source : Source) (name : String) (span : Span) :
    Decidable (InTurn visits source name span) :=
  inferInstanceAs (Decidable (∀ visit ∈ _, _))

/-- A visit that stores and does not count what was noted before as read is an assignment. -/
theorem Visit.assigns_of_stores {visit : Visit} (stores : visit.stores = true)
    (unclear : visit.clears = false) : visit.assigns = true := by
  unfold Visit.stores at stores
  unfold Visit.clears at unclear
  unfold Visit.assigns
  split at stores <;> simp_all

/-- Of two visits at one place, each is the other. -/
theorem Unique.not_mem {before after : List Visit} {visit other : Visit} {source : Source}
    {name : String} {span : Span} (unique : Unique (before ++ visit :: after) source name span)
    (reports : visit.Reports source name span) (reportsOther : other.Reports source name span) :
    other ∉ before ∧ other ∉ after := by
  obtain ⟨_, last, across⟩ := List.pairwise_append.mp unique
  refine ⟨fun member => ?_, fun member => ?_⟩
  · exact across other member visit (.head _) ⟨reportsOther, reports⟩
  · exact (List.pairwise_cons.mp last).1 other member ⟨reports, reportsOther⟩

/-- What a visit after the only one at the place of a report stands in order with it. -/
theorem Unique.mem_after {before after : List Visit} {visit taker : Visit} {source : Source}
    {name : String} {span : Span} (unique : Unique (before ++ visit :: after) source name span)
    (reports : visit.Reports source name span)
    (inOrder : [visit, taker].Sublist (before ++ visit :: after)) : taker ∈ after := by
  obtain ⟨notBefore, notAfter⟩ := unique.not_mem reports reports
  rcases Execution.pair_sublist_append inOrder with pair | pair | ⟨member, _⟩
  · exact absurd (pair.subset (.head _)) notBefore
  · rcases List.sublist_cons_iff.mp pair with pair | ⟨rest, equal, pair⟩
    · exact absurd (pair.subset (.head _)) notAfter
    · obtain ⟨-, rfl⟩ := List.cons.inj equal
      exact List.singleton_sublist.mp pair
  · exact absurd member notBefore

/-! ### Writes that are never read -/

namespace Flow

open Execution

/--
A write that is reported as unused is never read. If the end of a body reports a variable at some place,
no other visit of the variable stands there, its assignments are evaluated in their turn, and the
reported one is outside the heads of loops, then no run takes the value of the variable after it was
written in that place.
-/
theorem unused_never_taken (env : Env) (body : List Stmt) (scope : Scope) (params : List ParamInfo)
    (report : Report) {name : String} {span : Span}
    (reported : env.source.unusedAt name span ∈
      (walkBody env body (startBody scope params report)).report.issues)
    (atEnd : env.source.unusedAt name span ∉
      (walkStmts env body (startBody scope params report)).report.issues)
    (unique : Unique (visitsStmts env.naming body) env.source name span)
    (inTurn : InTurn (visitsStmts env.naming body) env.source name span) :
    ∀ run ∈ execute env body, ∀ taken, taken.Takes name →
      ¬ [.write name span, taken].Sublist run.trace := by
  intro run member taken takes pair
  have sees := walkStmts_sees env body (startBody scope params report)
  obtain ⟨⟨place, other⟩, pendingWrite, equal⟩ :=
    (Walk.of_mem_flushUnused reported).resolve_left atEnd
  obtain rfl := Source.name_eq_of_unusedAt_eq equal
  have pending := Walk.mem_pending_of_mem_pendingWrites pendingWrite
  obtain ⟨before, visit, after, visits, ⟨named, use, turn⟩, unread⟩ : Noted _ name place := by
    rcases sees.pending pending with ⟨started, _⟩ | ⟨_, noted⟩
    · rw [Walk.pending_startBody] at started
      exact absurd started List.not_mem_nil
    · exact noted
  obtain ⟨writer, foundWriter, taker, foundTaker, shows, showsTaken, placed⟩ :=
    (execute_orders env body).ordered run member takes pair
  rw [visits] at unique inTurn foundWriter foundTaker placed
  have noted : place ∈ visit.noted?.toList := by simp [Visit.noted?, use]
  have assigns : visit.assigns = true := by rw [Visit.assigns, use]
  have notes : visit.Reports env.source name span := ⟨named, place, .tail _ noted, equal.symm⟩
  have writes : writer.Reports env.source name span :=
    ⟨shows.1, writer.span, .head _, by rw [shows.2.1]⟩
  -- the visit that the run writes at is the one whose write is reported
  obtain rfl : writer = visit := by
    obtain ⟨notBefore, notAfter⟩ := unique.not_mem notes writes
    rcases List.mem_append.mp foundWriter with inBefore | inRest
    · exact absurd inBefore notBefore
    · exact (List.mem_cons.mp inRest).resolve_right notAfter
  have inOrder : [writer, taker].Sublist (before ++ writer :: after) := by
    refine placed.resolve_left fun loose => ?_
    obtain ⟨onTime, notHead⟩ := inTurn writer foundWriter named assigns
    unfold Visit.loose at loose
    rw [onTime, Bool.false_or, bne_iff_ne] at loose
    cases exact : writer.turn with
    | once => exact loose exact
    | head => exact notHead writes exact
    | body => exact turn exact
  have later := unique.mem_after notes inOrder
  have taken : taker.name = name ∧
      (taker.clears = true ∨ taker.early = true ∧ taker.stores = true) := by
    cases taken with
    | read other _ | probe other _ => exact ⟨showsTaken.1.trans takes, showsTaken.2.2⟩
    | write | unset => exact takes.elim
  have unclear := unread taker later taken.1
  rcases taken.2 with clears | ⟨early, stores⟩
  · exact absurd (unclear.symm.trans clears) Bool.false_ne_true
  · have assigned := Visit.assigns_of_stores stores unclear
    exact absurd ((inTurn taker foundTaker taken.1 assigned).1.symm.trans early)
      Bool.false_ne_true

/-- `$a = 1; while ($a) { $a = 2; } $a = 3;` -/
def finalWrite : List Stmt :=
  let var (start : Nat) : Expr := ⟨.var "$a", ⟨start, start + 2⟩⟩
  let assign (start : Nat) : Stmt :=
    ⟨.expr ⟨.assign (var start) ⟨.integer, ⟨start + 5, start + 6⟩⟩ .assign false,
      ⟨start, start + 6⟩⟩, ⟨start, start + 7⟩⟩
  [assign 0, ⟨.whileLoop (var 15) [assign 21], ⟨8, 30⟩⟩, assign 31]

/-- A write after a loop, whose earlier values are read in the loop. -/
theorem unused_never_taken_finalWrite :
    let env : Env :=
      { (default : Env) with source := .of "a.php" "$a = 1; while ($a) { $a = 2; } $a = 3;" }
    env.source.unusedAt "$a" ⟨31, 33⟩ ∈
        (walkBody env finalWrite (startBody .empty [] { enabled := true })).report.issues ∧
      env.source.unusedAt "$a" ⟨31, 33⟩ ∉
        (walkStmts env finalWrite (startBody .empty [] { enabled := true })).report.issues ∧
      Unique (visitsStmts env.naming finalWrite) env.source "$a" ⟨31, 33⟩ ∧
      InTurn (visitsStmts env.naming finalWrite) env.source "$a" ⟨31, 33⟩ ∧
      ∀ run ∈ execute env finalWrite, ∀ taken, taken.Takes "$a" →
        ¬ [.write "$a" ⟨31, 33⟩, taken].Sublist run.trace := by
  intro env
  have reported : env.source.unusedAt "$a" ⟨31, 33⟩ ∈
      (walkBody env finalWrite (startBody .empty [] { enabled := true })).report.issues := by
    decide +kernel
  have atEnd : env.source.unusedAt "$a" ⟨31, 33⟩ ∉
      (walkStmts env finalWrite (startBody .empty [] { enabled := true })).report.issues := by
    decide
  have unique : Unique (visitsStmts env.naming finalWrite) env.source "$a" ⟨31, 33⟩ := by
    decide
  have inTurn : InTurn (visitsStmts env.naming finalWrite) env.source "$a" ⟨31, 33⟩ := by
    decide
  exact ⟨reported, atEnd, unique, inTurn,
    unused_never_taken env finalWrite .empty [] { enabled := true } reported atEnd unique inTurn⟩

/-- `$i` -/
def counter (start : Nat) : Expr :=
  ⟨.var "$i", ⟨start, start + 2⟩⟩

/-- `$i < 3` -/
def counterTest : Expr :=
  ⟨.binary .less (counter 13) ⟨.integer, ⟨18, 19⟩⟩, ⟨13, 19⟩⟩

/-- `$i = $i + 1` -/
def counterStep : Expr :=
  ⟨.assign (counter 21) ⟨.binary .add (counter 26) ⟨.integer, ⟨31, 32⟩⟩, ⟨26, 32⟩⟩ .assign false,
    ⟨21, 32⟩⟩

/-- `for ($i = 0; $i < 3; $i = $i + 1) { echo 1; }` -/
def countedLoop : List Stmt :=
  [⟨.forLoop [⟨.assign (counter 5) ⟨.integer, ⟨10, 11⟩⟩ .assign false, ⟨5, 11⟩⟩]
    [counterTest] [counterStep] [⟨.echo [⟨.integer, ⟨41, 42⟩⟩], ⟨36, 43⟩⟩], ⟨0, 45⟩⟩]

/--
The step of a `for` loop is reported as an unused write, and read by the test of the next round before
the variable is written again.
-/
theorem unused_taken_countedLoop :
    let env : Env :=
      { (default : Env) with
        source := .of "a.php" "for ($i = 0; $i < 3; $i = $i + 1) { echo 1; }" }
    env.source.unusedAt "$i" ⟨21, 23⟩ ∈
        (walkBody env countedLoop (startBody .empty [] { enabled := true })).report.issues ∧
      ∃ run ∈ execute env countedLoop, run.trace = [.write "$i" ⟨5, 7⟩, .read "$i" ⟨13, 15⟩,
        .read "$i" ⟨26, 28⟩, .write "$i" ⟨21, 23⟩, .read "$i" ⟨13, 15⟩] := by
  intro env
  refine ⟨by decide +kernel, ?_⟩
  have taken (span : Span) : ⟨[.read "$i" span], none⟩ ∈ Execution.read "$i" span :=
    Runs.mem_seq_of_mem (Runs.mem_emit _) Runs.mem_attempt
  have started : ⟨[.write "$i" ⟨5, 7⟩], none⟩ ∈ (evaluateAll env
      [⟨.assign (counter 5) ⟨.integer, ⟨10, 11⟩⟩ .assign false, ⟨5, 11⟩⟩]).lift := by
    simp only [evaluateAll, evaluate, evaluateKind, counter, place, store, Runs.done_seq,
      Runs.seq_done]
    exact Runs.mem_lift (Runs.mem_emit _)
  have tested : ⟨[.read "$i" ⟨13, 15⟩], none⟩ ∈ (evaluateAll env [counterTest]).lift := by
    simp only [counterTest, counter, evaluateAll, evaluate, evaluateKind, Runs.done_seq,
      Runs.seq_done]
    exact Runs.mem_lift (Runs.mem_seq_of_mem (taken _) Runs.mem_attempt)
  have echoed : ⟨[], none⟩ ∈ execute env [⟨.echo [⟨.integer, ⟨41, 42⟩⟩], ⟨36, 43⟩⟩] := by
    simp only [execute, executeStmt, executeKind, evaluateAll, evaluate, evaluateKind,
      Runs.done_seq, Runs.seq_done]
    exact Runs.mem_lift Runs.mem_attempt
  have stepped : ⟨[.read "$i" ⟨26, 28⟩, .write "$i" ⟨21, 23⟩], none⟩ ∈
      (evaluateAll env [counterStep]).lift := by
    simp only [counterStep, counter, evaluateAll, evaluate, evaluateKind, place, store,
      Runs.done_seq, Runs.seq_done, Bool.false_eq_true, if_false]
    exact Runs.mem_lift (Runs.mem_seq_of_mem (Runs.mem_seq_of_mem (taken _) Runs.mem_attempt)
      (Runs.mem_emit _))
  have rounds : ⟨[.read "$i" ⟨13, 15⟩, .read "$i" ⟨26, 28⟩, .write "$i" ⟨21, 23⟩,
      .read "$i" ⟨13, 15⟩], none⟩ ∈ Runs.loop (evaluateAll env [counterTest]).lift
        (execute env [⟨.echo [⟨.integer, ⟨41, 42⟩⟩], ⟨36, 43⟩⟩]) (evaluateAll env [counterStep]).lift :=
    Runs.mem_loop_of_round tested echoed stepped (Runs.mem_loop_of_test tested)
  have ended : ⟨[], none⟩ ∈ execute env [] := by
    rw [execute]
    exact Runs.mem_done
  have whole := Runs.mem_seq_of_mem (Runs.mem_seq_of_mem started rounds) ended
  rw [countedLoop, execute, executeStmt, executeKind]
  exact ⟨_, whole, rfl⟩

end Flow

end PhpAudit
