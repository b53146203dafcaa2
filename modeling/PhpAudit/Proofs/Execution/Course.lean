/-
This file carries the order of expressions over to statements: apart from early visits and loops, the
runs of a function body follow the walk over it. The default case of a `switch`, like that of a
`match`, comes after all tests. For loops only the set of visits matters.
-/

import PhpAudit.Proofs.Execution.Sequencing

namespace PhpAudit.Execution

open Runs Visits

/-! ### Loops and exceptions -/

namespace Shown

variable {visits : List Visit}

theorem inBody {Exit : Type} {runs : Runs Exit} (shown : Shown visits runs) :
    Shown (visits.map Visit.inBody) runs :=
  fun run member event present =>
    have ⟨visit, found, shows⟩ := shown run member event present
    ⟨visit.inBody, List.mem_map_of_mem found, by cases event <;> exact shows⟩

theorem inHead {Exit : Type} {runs : Runs Exit} (shown : Shown visits runs) :
    Shown (visits.map Visit.inHead) runs :=
  shown.relabel .inHead fun _ => id

theorem append_left {Exit : Type} {runs : Runs Exit} (shown : Shown visits runs)
    (others : List Visit) : Shown (visits ++ others) runs :=
  shown.mono fun _ => List.mem_append_left _

theorem append_right {Exit : Type} {runs : Runs Exit} (shown : Shown visits runs)
    (others : List Visit) : Shown (others ++ visits) runs :=
  shown.mono fun _ => List.mem_append_right _

theorem lift {runs : Runs Abort} (shown : Shown visits runs) : Shown visits runs.lift :=
  shown.bind fun
    | none => .silent silent_done
    | some abort => .silent (silent_leave (Leave.aborted abort))

theorem round {body next : Runs Leave} (shown : Shown visits body) (after : Shown visits next) :
    Shown visits (body.round next) :=
  shown.bind fun
    | none | some .continued => after
    | some .broke => .silent silent_done
    | some .returned | some (.aborted _) => .silent (silent_leave _)

theorem loop {test body step : Runs Leave} (tested : Shown visits test) (shown : Shown visits body)
    (stepped : Shown visits step) : Shown visits (loop test body step) := by
  have rounds (count : Nat) : Shown visits (rounds test body step count) := by
    induction count with
    | zero => exact .silent (silent_leave _)
    | succ count inductionHypothesis =>
      exact tested.seq (shown.round (stepped.seq inductionHypothesis)).optional
  intro run member
  obtain ⟨count, member⟩ := Set.mem_iUnion.mp member
  exact rounds count run member

end Shown

theorem Hastened.lift {visits : List Visit} {runs : Runs Abort} (hastened : Hastened visits runs) :
    Hastened visits runs.lift :=
  hastened.bind fun
    | none => .silent silent_done
    | some abort => .silent (silent_leave (Leave.aborted abort))

theorem loose_inHead {visits : List Visit} : ∀ visit ∈ visits.map Visit.inHead, visit.loose = true := by
  intro visit member
  obtain ⟨old, _, rfl⟩ := List.mem_map.mp member
  exact Bool.or_true _

theorem loose_inBody {visits : List Visit} : ∀ visit ∈ visits.map Visit.inBody, visit.loose = true := by
  intro visit member
  obtain ⟨old, _, rfl⟩ := List.mem_map.mp member
  exact Bool.or_true _

namespace Orders

variable {visits others : List Visit}

theorem left {runs : Runs Leave} (orders : Orders visits runs) (others : List Visit) :
    Orders (visits ++ others) runs :=
  orders.sublist (List.sublist_append_left _ _)

theorem right {runs : Runs Leave} (orders : Orders others runs) (visits : List Visit) :
    Orders (visits ++ others) runs :=
  orders.sublist (List.sublist_append_right _ _)

/-- Visits of a loop, in its head and in its body. -/
theorem looped {runs : Runs Leave} (shown : Shown (visits.map Visit.inHead ++
    others.map Visit.inBody) runs) : Orders (visits.map Visit.inHead ++ others.map Visit.inBody) runs :=
  .of_loose shown fun visit member =>
    (List.mem_append.mp member).elim (loose_inHead visit) (loose_inBody visit)

/-- Code at early visits may come before. -/
theorem hastened_then {first second : Runs Leave} (hastened : Hastened visits first)
    (orders : Orders visits second) : Orders visits (first.seq second) :=
  .then_follows hastened.shown (fun run member event present writes =>
    (hastened run member event present).imp fun visit ⟨found, shows, early⟩ =>
      ⟨found, shows, fun _ => .inl (by rw [Visit.loose, early writes, Bool.true_or])⟩) orders

/-- Where every jump ends, nothing more happens. -/
theorem round_done {body : Runs Leave} (orders : Orders visits body) :
    Orders visits (body.round done) := by
  have both : Orders (visits ++ []) (body.round done) := orders.bind fun
    | none | some .continued | some .broke => .silent silent_done
    | some .returned | some (.aborted _) => .silent (silent_leave _)
  rwa [List.append_nil] at both

theorem rescue {body handlers : Runs Leave} (tried : Orders visits body)
    (handled : Orders others handlers) : Orders (visits ++ others) (body.rescue handlers) :=
  tried.bind fun
    | some (.aborted .thrown) => .union (.silent (silent_leave _)) handled
    | none => .silent silent_done
    | some .returned | some .broke | some .continued | some (.aborted .died)
    | some (.aborted .running) => .silent (silent_leave _)

theorem ensuring {body last : Runs Leave} (tried : Orders visits body)
    (finished : Orders others last) : Orders (visits ++ others) (body.ensuring last) := by
  refine tried.bind fun pending => ?_
  split
  · rw [← List.append_nil others]
    refine finished.bind ?_
    rintro (_ | exit)
    · exact .silent (silent_ending _)
    · exact .silent (silent_leave exit)
  · exact .silent (silent_ending _)

end Orders

/-! ### Declarations of variables -/

theorem silent_bindException (span : Span) : ∀ run ∈ bindException span none, run.trace = [] :=
  silent_done

theorem bindException_orders (span : Span) (name : Option String) :
    Orders (name.toList.map fun name => { name, span, use := .assigned none })
      (bindException span name) := by
  cases name with
  | none => exact .silent (silent_bindException span)
  | some name => exact .emit (.head _) ⟨rfl, rfl, rfl⟩

theorem executeNames_orders (visit : String → Visit) (event : String → Event)
    (shows : ∀ name, (visit name).Shows (event name)) (names : List String) :
    Orders (names.map visit)
      (names.foldr (fun name rest => (emit (event name)).seq rest) done : Runs Leave) := by
  induction names with
  | nil => exact .silent silent_done
  | cons name rest inductionHypothesis =>
    have first : Orders [visit name] (emit (event name) : Runs Leave) :=
      .emit (.head _) (shows name)
    exact first.seq inductionHypothesis

theorem executeBindings_threads (env : Env) (bindings : List Binding) :
    Threads (visitsBindings env.naming bindings) (executeBindings env bindings) := by
  induction bindings with
  | nil =>
    rw [executeBindings_nil]
    exact .silent silent_done
  | cons binding rest inductionHypothesis =>
    obtain ⟨name, value, span⟩ := binding
    rw [visitsBindings, executeBindings]
    have bound : Threads [{ name, span, use := .used }] (emit (.write name span) : Runs Abort) :=
      .emit (.head _) ⟨rfl, rfl, rfl⟩
    exact ((evaluateOptional_threads env value).seq bound).seq inductionHypothesis

theorem evaluateConstItems_threads (env : Env) (items : List ConstItem) :
    Threads (visitsConstItems env.naming items) (evaluateConstItems env items) := by
  induction items with
  | nil =>
    rw [evaluateConstItems_nil]
    exact .silent silent_done
  | cons item rest inductionHypothesis =>
    obtain ⟨name, value, span⟩ := item
    rw [visitsConstItems, evaluateConstItems]
    have item := (evaluate_threads env value).then_silent silent_attempt
    exact Threads.seq item inductionHypothesis

theorem executeKey_shown (env : Env) (key : Option Expr) :
    Shown (visitsKey env.naming key) (executeKey env key) := by
  cases key with
  | none =>
    rw [executeKey_none]
    exact .silent silent_done
  | some key =>
    rw [visitsKey, executeKey]
    exact (place_hastened env _ key).shown.seq (store_threads env _ key).shown

/-! ### Cases -/

/-- The runs of the tests of a `switch`, where all of them are missed. -/
def executeMisses (env : Env) : List Case → Runs Leave
  | [] => done
  | ⟨test, _, _, _⟩ :: rest => (evaluateOptional env test).lift.seq (executeMisses env rest)

/-- A `switch` enters at some case, or at its default after all tests. -/
theorem executeCases_subset (env : Env) (otherwise : Runs Leave) (cases : List Case) :
    executeCases env otherwise cases ⊆
      executeCases env ∅ cases ∪ (executeMisses env cases).seq otherwise := by
  induction cases with
  | nil =>
    rw [executeCases_nil, executeMisses, done_seq]
    exact Set.subset_union_right
  | cons first rest inductionHypothesis =>
    obtain ⟨test, body, exit, span⟩ := first
    cases test with
    | none =>
      rw [executeCases, executeCases, executeMisses, evaluateOptional_none, lift_done, done_seq]
      exact inductionHypothesis
    | some test =>
      rw [executeCases, executeCases, executeMisses, evaluateOptional, Runs.seq_assoc, ← seq_union,
        Set.union_assoc]
      exact seq_mono _ (Set.union_subset_union_right _ inductionHypothesis)

/-- The tests after the default case are evaluated before it. -/
theorem executeMisses_hastened (env : Env) (cases : List Case) :
    Hastened (visitsCases env.naming true cases) (executeMisses env cases) := by
  induction cases with
  | nil =>
    rw [executeMisses]
    exact .silent silent_done
  | cons first rest inductionHypothesis =>
    obtain ⟨test, body, exit, span⟩ := first
    rw [visitsCases, executeMisses]
    have tested := (Hastened.of_shown (evaluateOptional_threads env test).shown).lift
    exact (tested.mono fun _ member => List.mem_append_left _ (List.mem_append_left _ member)).seq
      (inductionHypothesis.mono fun _ => List.mem_append_right _)

/-! ### Statements -/

mutual

/-- Statements run in the order of their visits. -/
theorem execute_orders (env : Env) (body : List Stmt) :
    Orders (visitsStmts env.naming body) (execute env body) := by
  cases body with
  | nil =>
    rw [execute_nil]
    exact .silent silent_done
  | cons stmt rest =>
    obtain ⟨kind, span⟩ := stmt
    rw [visitsStmts, visitsStmt, execute, executeStmt]
    exact (executeKind_orders env span kind).seq (execute_orders env rest)

theorem executeKind_orders (env : Env) (span : Span) (kind : StmtKind) :
    Orders (visitsStmtKind env.naming span kind) (executeKind env span kind) := by
  cases kind with
  | expr value =>
    rw [visitsStmtKind, executeKind]
    exact (Orders.of_threads (evaluate_threads env value)).lift
  | echo values =>
    rw [visitsStmtKind, executeKind]
    have evaluated := (evaluateAll_threads env values).then_silent silent_attempt
    exact (Orders.of_threads evaluated).lift
  | returns value =>
    rw [visitsStmtKind, executeKind]
    exact (Orders.of_threads (evaluateOptional_threads env value)).lift.then_silent (silent_leave _)
  | breaks | continues =>
    rw [executeKind]
    exact .silent (silent_leave _)
  | namespaced | imports | function | classLike | nop =>
    rw [executeKind]
    exact .silent silent_done
  | block body =>
    rw [visitsStmtKind_block, executeKind_block]
    exact execute_orders env body
  | branch test body exit rest =>
    rw [visitsStmtKind, executeKind, List.append_assoc]
    exact (Orders.of_threads (test_threads env false test)).lift.seq
      (((execute_orders env body).left _).union ((executeOtherwise_orders env rest).right _))
  | whileLoop test body =>
    rw [visitsStmtKind, executeKind]
    have tested := (evaluate_threads env test).shown.lift.inHead
    have shown := (execute_orders env body).shown.inBody
    exact .looped (.loop (tested.append_left _) (shown.append_right _) (.silent silent_done))
  | doWhile body test =>
    rw [visitsStmtKind, executeKind]
    have tested := ((evaluate_threads env test).shown.lift.append_right (visitsStmts env.naming body))
    have shown := (execute_orders env body).shown.append_left (visitsExpr env.naming test)
    exact .of_loose (shown.round (.loop tested shown (.silent silent_done))).inBody loose_inBody
  | forLoop init test step body =>
    rw [visitsStmtKind, executeKind, List.append_assoc]
    have tested := ((evaluateAll_threads env test).shown.lift.append_left
      (visitsExprs env.naming step)).inHead
    have stepped := ((evaluateAll_threads env step).shown.lift.append_right
      (visitsExprs env.naming test)).inHead
    have shown := (execute_orders env body).shown.inBody
    exact (Orders.of_threads (evaluateAll_threads env init)).lift.seq (.looped
      (.loop (tested.append_left _) (shown.append_right _) (stepped.append_left _)))
  | foreach subject key value byRef body =>
    rw [visitsStmtKind, executeKind]
    have stored := ((place_hastened env (.iteration value.span) value).shown.seq
      (store_threads env _ value).shown).lift
    have bound := (stored.append_left (visitsKey env.naming key)).inHead
    have keyed := ((executeKey_shown env key).lift.append_right
      (visitsAssign env.naming (.iteration value.span) value)).inHead
    have shown := (execute_orders env body).shown.inBody
    exact (Orders.of_threads (evaluate_threads env subject)).lift.seq (.looped
      (.loop (Shown.silent silent_attempt).lift
        ((bound.append_left _).seq ((keyed.append_left _).seq (shown.append_right _)))
        (.silent silent_done)))
  | switch subject cases =>
    rw [visitsStmtKind, executeKind]
    have entered := (executeCases_orders env false cases).union (executeDefault_orders env false cases)
    have chosen := entered.subset (executeCases_subset env _ cases)
    exact (Orders.of_threads (evaluate_threads env subject)).lift.seq (.round_done chosen)
  | tryCatch body catches final exit =>
    have rescued := Orders.rescue (execute_orders env body) (executeCatches_orders env catches)
    cases final with
    | none =>
      rw [visitsStmtKind, executeKind]
      exact .left rescued _
    | some last =>
      rw [visitsStmtKind, executeKind]
      exact .ensuring rescued (execute_orders env last)
  | global names =>
    rw [visitsStmtKind, executeKind]
    exact executeNames_orders _ (.write · span) (fun _ => ⟨rfl, rfl, rfl⟩) names
  | unset names =>
    rw [visitsStmtKind, executeKind]
    exact executeNames_orders _ .unset (fun _ => ⟨rfl, rfl⟩) names
  | static bindings =>
    rw [visitsStmtKind, executeKind]
    exact (Orders.of_threads (executeBindings_threads env bindings)).lift
  | constants items =>
    rw [visitsStmtKind, executeKind]
    exact (Orders.of_threads (evaluateConstItems_threads env items)).lift

theorem executeOtherwise_orders (env : Env) (rest : Otherwise) :
    Orders (visitsOtherwise env.naming rest) (executeOtherwise env rest) := by
  cases rest with
  | nothing =>
    rw [executeOtherwise_nothing]
    exact .silent silent_done
  | orElse body =>
    rw [visitsOtherwise, executeOtherwise]
    exact execute_orders env body
  | orIf test body exit rest =>
    rw [visitsOtherwise, executeOtherwise, List.append_assoc]
    exact (Orders.of_threads (test_threads env false test)).lift.seq
      (((execute_orders env body).left _).union ((executeOtherwise_orders env rest).right _))

/-- The cases from some case on. -/
theorem executeFrom_orders (env : Env) (late : Bool) (cases : List Case) :
    Orders (visitsCases env.naming late cases) (executeFrom env cases) := by
  cases cases with
  | nil =>
    rw [executeFrom_nil]
    exact .silent silent_done
  | cons first rest =>
    obtain ⟨test, body, exit, span⟩ := first
    rw [visitsCases, executeFrom]
    exact ((execute_orders env body).right _).seq (executeFrom_orders env _ rest)

/-- The cases of a `switch` whose tests hold. -/
theorem executeCases_orders (env : Env) (late : Bool) (cases : List Case) :
    Orders (visitsCases env.naming late cases) (executeCases env ∅ cases) := by
  cases cases with
  | nil =>
    rw [executeCases_nil]
    exact .silent fun _ none => none.elim
  | cons first rest =>
    obtain ⟨test, body, exit, span⟩ := first
    cases test with
    | none =>
      rw [visitsCases, executeCases]
      exact (executeCases_orders env _ rest).right _
    | some test =>
      rw [visitsCases, visitsOptional, executeCases, List.append_assoc]
      have entered := (execute_orders env body).seq
        (executeFrom_orders env (late || (some test).isNone) rest)
      exact (Orders.of_threads ((evaluate_threads env test).hastenIf late)).lift.seq
        (entered.union ((executeCases_orders env _ rest).right _))

/-- The tests of all cases and the default case, which may be visited before some of them. -/
theorem executeDefault_orders (env : Env) (late : Bool) (cases : List Case) :
    Orders (visitsCases env.naming late cases)
      ((executeMisses env cases).seq (executeDefault env cases)) := by
  cases cases with
  | nil =>
    rw [executeMisses, executeDefault_nil, done_seq]
    exact .silent silent_done
  | cons first rest =>
    obtain ⟨test, body, exit, span⟩ := first
    cases test with
    | none =>
      rw [visitsCases, executeMisses, executeDefault, evaluateOptional, lift_done, done_seq,
        Option.isNone_none, Bool.or_true]
      have entered := ((execute_orders env body).right
        (hastenIf late (visitsOptional env.naming none))).seq (executeFrom_orders env true rest)
      exact .hastened_then ((executeMisses_hastened env rest).mono fun _ =>
        List.mem_append_right _) entered
    | some test =>
      rw [visitsCases, visitsOptional, executeMisses, executeDefault, evaluateOptional,
        Option.isNone_some, Bool.or_false, Runs.seq_assoc, List.append_assoc]
      exact (Orders.of_threads ((evaluate_threads env test).hastenIf late)).lift.seq
        ((executeDefault_orders env late rest).right _)

theorem executeCatches_orders (env : Env) (catches : List Catch) :
    Orders (visitsCatches env.naming catches) (executeCatches env catches) := by
  cases catches with
  | nil =>
    rw [executeCatches_nil]
    exact .silent fun _ none => none.elim
  | cons first rest =>
    obtain ⟨hint, name, body, span⟩ := first
    rw [visitsCatches, executeCatches]
    exact (((bindException_orders span name).seq (execute_orders env body)).left _).union
      ((executeCatches_orders env rest).right _)

end

end PhpAudit.Execution
