/-
This file proves that code runs in the order in which a walk visits it, apart from visits that are
marked as early and from loops. An assignment evaluates the operands of its target before the value; a
`match` or `switch` comes to its default last, wherever it stands; and an array literal that is stored
into is evaluated once more.
-/

import PhpAudit.Proofs.Execution.Ordering

namespace PhpAudit.Execution

open Runs Visits

/-! ### Variables -/

theorem hastened_read {visits : List Visit} {visit : Visit} {name : String} {span : Span}
    (member : visit ∈ visits) (shows : visit.Shows (.read name span)) :
    Hastened visits (read name span) :=
  .seq (.emit member shows id) (.silent silent_attempt)

theorem hastened_readAll (span : Span) (names : List String) :
    Hastened (ofReads span names) (readAll span names) := by
  have reads (rest : List String) (included : rest ⊆ names) :
      Hastened (ofReads span names) (readAll span rest) := by
    induction rest with
    | nil => exact .silent silent_done
    | cons name rest inductionHypothesis =>
      refine .seq ?_ (inductionHypothesis fun _ member => included (.tail _ member))
      exact hastened_read (List.mem_map_of_mem (List.mem_dedup.mpr (included (.head _))))
        ⟨rfl, rfl, .inl rfl⟩
  exact reads names fun _ => id

/-- The variables that a closure takes with it. -/
theorem threads_captures (captured : List Capture) :
    Threads (captured.map ofCapture) (captures captured) := by
  induction captured with
  | nil => exact .silent silent_done
  | cons first rest inductionHypothesis =>
    have idle : ∀ visit ∈ [ofCapture first], visit.gains = false := by
      intro visit member
      rw [List.mem_singleton.mp member]
      rfl
    have taken : Threads [ofCapture first] (if first.byRef then
        emit (.write first.name first.span) else read first.name first.span) := by
      cases byRef : first.byRef with
      | true => exact .emit (.head _) ⟨rfl, rfl, by simp [Visit.stores, ofCapture, byRef]⟩
      | false => exact .of_hastened (hastened_read (.head _) ⟨rfl, rfl, .inl rfl⟩)
    rw [List.map_cons, ← List.singleton_append, ← chain_of_idle idle]
    exact taken.seq inductionHypothesis

/-! ### Operands that may be cut off -/

theorem Shown.unlessCutOff {visits : List Visit} {runs : Runs Abort} (shown : Shown visits runs)
    (cuts : Bool) : Shown visits (unlessCutOff cuts runs) := by
  cases cuts with
  | true => exact shown.optional
  | false => exact shown

theorem Hastened.unlessCutOff {visits : List Visit} {runs : Runs Abort}
    (hastened : Hastened visits runs) (cuts : Bool) :
    Hastened visits (unlessCutOff cuts runs) := by
  cases cuts with
  | true => exact hastened.optional
  | false => exact hastened

theorem Follows.unlessCutOff {link : List Visit → Visit → Visit → Prop} {visits : List Visit}
    {runs : Runs Abort} (follows : Follows link visits runs) (cuts : Bool) :
    Follows link visits (unlessCutOff cuts runs) := by
  cases cuts with
  | true => exact follows.optional
  | false => exact follows

/-- Storing takes no value, unless an array literal is stored into. -/
theorem not_takes_of_store (env : Env) (expr : Expr) (plain : expr.isLiteral = false)
    {run : Run Abort} (member : run ∈ store env expr) {event : Event} (present : event ∈ run.trace)
    (name : String) : ¬ event.Takes name := by
  obtain ⟨kind, span⟩ := expr
  cases kind with
  | var other =>
    rw [store] at member
    rw [member, List.mem_singleton] at present
    rw [present]
    exact id
  | paren inner =>
    rw [store_paren] at member
    exact not_takes_of_store env inner plain member present name
  | element base index =>
    rw [store] at member
    obtain ⟨before, attempted, later, equal, follows⟩ := exists_of_mem_seq member
    rw [equal, silent_attempt before attempted, List.nil_append] at present
    rcases follows with rfl | ⟨after, follows, rfl⟩
    · exact absurd present List.not_mem_nil
    · exact not_takes_of_store env base plain follows present name
  | list | array => exact absurd plain (by simp [Expr.isLiteral])
  | _ =>
    rw [store.eq_def] at member
    rw [silent_attempt run member] at present
    exact absurd present List.not_mem_nil

/-- The runs of the conditions of a `match`, where all of them are missed. -/
def evaluateMisses (env : Env) : List MatchArm → Runs Abort
  | [] => done
  | ⟨conditions, _⟩ :: rest => (evaluateAll env conditions).seq (evaluateMisses env rest)

/-- Comparing with the conditions of an arm leads to its body, or past all of them. -/
theorem evaluateConditions_subset (env : Env) (hit : Runs Abort) {miss inner past after : Runs Abort}
    (split : miss ⊆ inner ∪ past.seq after) (conditions : List Expr) :
    evaluateConditions env hit miss conditions ⊆ evaluateConditions env hit inner conditions ∪
      ((evaluateAll env conditions).seq past).seq after := by
  induction conditions with
  | nil =>
    rw [evaluateConditions_nil, evaluateConditions_nil, evaluateAll_nil, done_seq]
    exact split
  | cons condition rest inductionHypothesis =>
    rw [evaluateConditions, evaluateConditions, evaluateAll, seq_assoc, seq_assoc, ← seq_union,
      Set.union_assoc, ← seq_assoc (evaluateAll env rest)]
    exact seq_mono _ (Set.union_subset_union_right hit inductionHypothesis)

/-- A `match` runs the body of some arm, or its default after all conditions. -/
theorem evaluateArms_subset (env : Env) (otherwise : Runs Abort) (arms : List MatchArm) :
    evaluateArms env otherwise arms ⊆
      evaluateArms env ∅ arms ∪ (evaluateMisses env arms).seq otherwise := by
  induction arms with
  | nil =>
    rw [evaluateArms_nil, evaluateMisses, done_seq]
    exact Set.subset_union_right
  | cons arm rest inductionHypothesis =>
    obtain ⟨conditions, body⟩ := arm
    rw [evaluateArms, evaluateArms, evaluateMisses]
    exact evaluateConditions_subset env _ inductionHypothesis conditions

/-! ### Expressions -/

mutual

/-- An expression is evaluated in the order of its visits. -/
theorem evaluate_threads (env : Env) (expr : Expr) :
    Threads (visitsExpr env.naming expr) (evaluate env expr) := by
  obtain ⟨kind, span⟩ := expr
  rw [visitsExpr, evaluate]
  exact evaluateKind_threads env span kind

theorem evaluateKind_threads (env : Env) (span : Span) (kind : ExprKind) :
    Threads (visitsKind env.naming span kind) (evaluateKind env span kind) := by
  cases kind with
  | var name =>
    rw [visitsKind, evaluateKind]
    exact .of_hastened (hastened_read (.head _) ⟨rfl, rfl, .inl rfl⟩)
  | dynamicVar reads | interpolated reads | unmodeled reads | print reads =>
    rw [visitsKind, evaluateKind]
    exact (Threads.of_hastened (hastened_readAll span reads)).then_silent silent_attempt
  | exit die reads =>
    rw [visitsKind, evaluateKind]
    exact (Threads.of_hastened (hastened_readAll span reads)).then_silent (silent_callee false)
  | integer | float | string | boolean | null | magic =>
    rw [evaluateKind]
    exact .silent silent_done
  | constant =>
    rw [evaluateKind]
    exact .silent silent_attempt
  | paren inner =>
    rw [visitsKind_paren, evaluateKind_paren]
    exact evaluate_threads env inner
  | clone inner | includeFile inner | yieldFrom inner | property inner _ _ =>
    rw [visitsKind, evaluateKind]
    exact (evaluate_threads env inner).then_silent silent_attempt
  | throw inner =>
    rw [visitsKind, evaluateKind]
    exact (evaluate_threads env inner).then_silent (silent_leave Abort.thrown)
  | unary op operand =>
    rw [visitsKind, evaluateKind]
    have evaluated := (evaluate_threads env operand).then_silent silent_attempt
    have stored := store_shown env operand
    cases steps op with
    | false => exact evaluated.then_silent silent_done
    | true =>
      cases literal : operand.isLiteral with
      | true => exact .of_hastened (.of_shown (evaluated.shown.seq stored))
      | false =>
        exact evaluated.then_writes stored fun run member event present =>
          not_takes_of_store env operand literal member present
  | array items | list items =>
    rw [visitsKind, evaluateKind]
    exact evaluateItems_threads env items
  | element base index =>
    rw [visitsKind, evaluateKind]
    exact (evaluate_threads env base).seq
      (((evaluateOptional_threads env index).then_silent silent_attempt).unlessCutOff _)
  | assign target value op byRef =>
    rw [visitsKind, evaluateKind.eq_def]
    dsimp only
    have placed (mode : Flow.AssignMode) := place_hastened env mode target
    have stored (mode : Flow.AssignMode) := store_threads env mode target
    cases byRef with
    | true => exact .assign (placed _) (bindReference_threads env value) (stored _)
    | false =>
      have taken := evaluate_threads env value
      have fetched := fetch_hastened env target.span target
      cases op with
      | assign => exact .assign (placed _) taken (stored _)
      | concat | arithmetic | bitwise =>
        exact .assign (placed _) taken
          (.hastened_then fetched (.silent_then silent_attempt (stored _)))
      | coalesce =>
        have probed : Hastened (hastenIf target.isLiteral
            (visitsAssign env.naming (.compound target.span) target)) (probe env target) := by
          cases literal : target.isLiteral with
          | true => exact .of_hasten (probe_target_shown env _ target)
          | false => exact probe_hastened env target.span target literal
        have assigned := Threads.assign ((placed (.compound target.span)).hastenIf _) taken
          ((stored _).hastenIf target.isLiteral)
        exact .hastened_then (probed.right _) assigned.optional
  | binary op left right =>
    rw [visitsKind.eq_def, evaluateKind.eq_def]
    cases op with
    | coalesce => exact (probe_threads env left).seq (evaluate_threads env right).optional
    | and | or | lowOr => exact (evaluate_threads env left).seq (evaluate_threads env right).optional
    | other =>
      exact (evaluate_threads env left).seq
        ((evaluate_threads env right).then_silent silent_attempt).optional
    | _ =>
      exact (evaluate_threads env left).seq
        ((evaluate_threads env right).then_silent silent_attempt)
  | instanceOf subject ref =>
    rw [visitsKind, evaluateKind]
    exact (evaluate_threads env subject).seq
      ((evaluateRef_threads env ref).then_silent silent_attempt)
  | ternary test yes no =>
    cases yes with
    | none =>
      rw [visitsKind, evaluateKind]
      exact (evaluate_threads env test).seq (evaluate_threads env no).optional
    | some yes =>
      rw [visitsKind, evaluateKind]
      exact (test_threads env false test).seq
        (((evaluate_threads env yes).sublist (List.sublist_append_left _ _)).union
          ((evaluate_threads env no).sublist (List.sublist_append_right _ _)))
  | call name args =>
    rw [visitsKind, evaluateKind]
    have isCompact : env.naming.isCompact name = (Flow.globalName env name == "\\compact") := rfl
    rw [isCompact]
    split
    · exact (evaluateCompactArgs_threads env args).then_silent silent_attempt
    · exact (evaluateArgs_threads env _ 0 args).then_silent (silent_callee _)
  | callValue function args =>
    rw [visitsKind, evaluateKind]
    exact (evaluate_threads env function).seq
      ((evaluateArgs_threads env none 0 args).then_silent silent_attempt)
  | methodCall object method args nullsafe =>
    rw [visitsKind, evaluateKind]
    exact (evaluate_threads env object).seq
      (((evaluateArgs_threads env none 0 args).then_silent silent_attempt).unlessCutOff _)
  | staticCall ref method args =>
    rw [visitsKind, evaluateKind]
    exact (evaluateRef_threads env ref).seq
      ((evaluateArgs_threads env _ 0 args).then_silent (silent_callee _))
  | staticProperty ref name | classConstant ref name =>
    rw [visitsKind, evaluateKind]
    exact (evaluateRef_threads env ref).then_silent silent_attempt
  | new ref args =>
    rw [visitsKind, evaluateKind]
    exact (evaluateRef_threads env ref).seq
      ((evaluateArgs_threads env _ 0 args).then_silent silent_attempt)
  | isset values =>
    rw [visitsKind, evaluateKind]
    exact probeAll_threads env values
  | isEmpty value =>
    rw [visitsKind, evaluateKind]
    exact probe_threads env value
  | closure params captured hint isStatic body =>
    rw [visitsKind, evaluateKind]
    exact (threads_captures captured).left _
  | arrow params hint isStatic body =>
    rw [evaluateKind]
    exact .silent silent_done
  | matchOn subject arms =>
    rw [visitsKind, evaluateKind]
    have chosen := (arms_threads env false arms).union (default_threads env false arms)
    exact (evaluate_threads env subject).seq (chosen.subset (evaluateArms_subset env _ arms))
  | yield key value =>
    rw [visitsKind, evaluateKind]
    exact (evaluateOptional_threads env key).seq
      ((evaluateOptional_threads env value).then_silent silent_attempt)

theorem evaluateAll_threads (env : Env) (values : List Expr) :
    Threads (visitsExprs env.naming values) (evaluateAll env values) := by
  cases values with
  | nil =>
    rw [evaluateAll_nil]
    exact .silent silent_done
  | cons value rest =>
    rw [visitsExprs, evaluateAll]
    exact (evaluate_threads env value).seq (evaluateAll_threads env rest)

theorem evaluateOptional_threads (env : Env) (value : Option Expr) :
    Threads (visitsOptional env.naming value) (evaluateOptional env value) := by
  cases value with
  | none =>
    rw [evaluateOptional_none]
    exact .silent silent_done
  | some value =>
    rw [visitsOptional, evaluateOptional]
    exact evaluate_threads env value

theorem evaluateItems_threads (env : Env) (items : List Item) :
    Threads (visitsItems env.naming items) (evaluateItems env items) := by
  cases items with
  | nil =>
    rw [evaluateItems_nil]
    exact .silent silent_done
  | cons item rest =>
    cases item with
    | skip =>
      rw [visitsItems, evaluateItems]
      exact evaluateItems_threads env rest
    | entry key value byRef unpack =>
      rw [visitsItems, evaluateItems]
      exact ((evaluateOptional_threads env key).seq (evaluate_threads env value)).seq
        (evaluateItems_threads env rest)

theorem evaluateRef_threads (env : Env) (ref : ClassRef) :
    Threads (visitsRef env.naming ref) (evaluateRef env ref) := by
  cases ref with
  | dynamic value =>
    rw [visitsRef, evaluateRef]
    exact evaluate_threads env value
  | named | self | static | parent =>
    rw [evaluateRef]
    exact .silent silent_done

theorem evaluateArgs_threads (env : Env) (params : Option (List ParamInfo)) (position : Nat)
    (args : List Arg) :
    Threads (visitsArgs env.naming args) (evaluateArgs env params position args) := by
  cases args with
  | nil =>
    rw [evaluateArgs_nil]
    exact .silent silent_done
  | cons arg rest =>
    obtain ⟨value, unpack, label⟩ := arg
    rw [visitsArgs, evaluateArgs]
    cases Flow.refParam? params position with
    | some param =>
      exact (pass_threads env value).seq (evaluateArgs_threads env params (position + 1) rest)
    | none =>
      exact ((evaluate_threads env value).hastenIf _).seq
        (evaluateArgs_threads env params (position + 1) rest)

theorem pass_threads (env : Env) (value : Expr) :
    Threads (hastenIf value.isLiteralElement (visitsExpr env.naming value)) (pass env value) := by
  obtain ⟨kind, span⟩ := value
  rw [visitsExpr, pass.eq_def]
  have other := evaluateKind_threads env span kind
  cases kind with
  | paren inner =>
    rw [visitsKind_paren]
    exact pass_threads env inner
  | var name =>
    rw [visitsKind]
    exact .emit (.head _) ⟨rfl, rfl, rfl⟩
  | element base index =>
    rw [visitsKind]
    have operands := (container_threads env base).seq (evaluateOptional_threads env index)
    have stored := store_shown env base
    dsimp only
    cases literal : base.isLiteral with
    | true =>
      have isLiteral : Expr.isLiteralElement ⟨.element base index, span⟩ = true := literal
      rw [isLiteral]
      exact .of_hastened (.of_shown (operands.shown.seq
        (.seq (.silent silent_attempt) (stored.left _))))
    | false =>
      have isLiteral : Expr.isLiteralElement ⟨.element base index, span⟩ = false := literal
      rw [isLiteral, hastenIf_false, ← seq_assoc]
      exact (operands.then_silent silent_attempt).then_writes (stored.left _)
        fun run member event present => not_takes_of_store env base literal member present
  | _ => exact other.hastenIf _

theorem evaluateCompactArgs_threads (env : Env) (args : List Arg) :
    Threads (visitsCompactArgs env.naming args) (evaluateCompactArgs env args) := by
  cases args with
  | nil =>
    rw [evaluateCompactArgs_nil]
    exact .silent silent_done
  | cons arg rest =>
    obtain ⟨value, unpack, label⟩ := arg
    rw [visitsCompactArgs, evaluateCompactArgs]
    exact (evaluateCompact_threads env value.span value).seq
      (evaluateCompactArgs_threads env rest)

theorem evaluateCompact_threads (env : Env) (outer : Span) (value : Expr) :
    Threads (visitsCompact env.naming outer value) (evaluateCompact env value) := by
  obtain ⟨kind, span⟩ := value
  rw [visitsCompact.eq_def, evaluateCompact.eq_def]
  have other := evaluateKind_threads env span kind
  cases kind with
  | paren inner => exact evaluateCompact_threads env outer inner
  | string text =>
    cases text with
    | none => exact other
    | some name =>
      have member : span ∈ [outer, span].dedup := List.mem_dedup.mpr (.tail _ (.head _))
      exact .of_hastened (hastened_read (List.mem_map_of_mem member) ⟨rfl, rfl, .inl rfl⟩)
  | array items => exact evaluateCompactItems_threads env items
  | _ => exact other

theorem evaluateCompactItems_threads (env : Env) (items : List Item) :
    Threads (visitsCompactItems env.naming items) (evaluateCompactItems env items) := by
  cases items with
  | nil =>
    rw [evaluateCompactItems_nil]
    exact .silent silent_done
  | cons item rest =>
    cases item with
    | skip =>
      rw [visitsCompactItems, evaluateCompactItems]
      exact evaluateCompactItems_threads env rest
    | entry key value byRef unpack =>
      rw [visitsCompactItems, evaluateCompactItems]
      exact (evaluateCompact_threads env value.span value).seq
        (evaluateCompactItems_threads env rest)

theorem probe_threads (env : Env) (value : Expr) :
    Threads (visitsProbe env.naming value) (probe env value) := by
  obtain ⟨kind, span⟩ := value
  rw [visitsProbe.eq_def, probe.eq_def]
  have other := evaluateKind_threads env span kind
  cases kind with
  | paren inner => exact probe_threads env inner
  | var name => exact .emit (.head _) ⟨rfl, rfl, .inl rfl⟩
  | element base index =>
    exact (probe_threads env base).seq
      (((evaluateOptional_threads env index).then_silent silent_attempt).unlessCutOff _)
  | property object name nullsafe => exact (probe_threads env object).then_silent silent_attempt
  | _ => exact other

theorem probeAll_threads (env : Env) (values : List Expr) :
    Threads (visitsProbes env.naming values) (probeAll env values) := by
  cases values with
  | nil =>
    rw [probeAll_nil]
    exact .silent silent_done
  | cons value rest =>
    rw [visitsProbes, probeAll]
    exact (probe_threads env value).seq (probeAll_threads env rest).optional

/-- An operand that is looked at is visited as if it were read. -/
theorem probe_shown (env : Env) (value : Expr) :
    Shown (visitsExpr env.naming value) (probe env value) := by
  obtain ⟨kind, span⟩ := value
  rw [visitsExpr, probe.eq_def]
  have other := (evaluateKind_threads env span kind).shown
  cases kind with
  | paren inner =>
    rw [visitsKind_paren]
    exact probe_shown env inner
  | var name =>
    rw [visitsKind]
    exact .emit (.head _) ⟨rfl, rfl, .inl rfl⟩
  | element base index =>
    rw [visitsKind]
    have index := ((evaluateOptional_threads env index).then_silent silent_attempt).shown
    exact ((probe_shown env base).left _).seq ((index.right _).unlessCutOff _)
  | property object name nullsafe =>
    rw [visitsKind]
    exact (probe_shown env object).seq (.silent silent_attempt)
  | _ => exact other

theorem test_threads (env : Env) (negated : Bool) (test : Expr) :
    Threads (visitsTest env.naming negated test) (evaluate env test) := by
  obtain ⟨kind, span⟩ := test
  rw [visitsTest.eq_def, evaluate]
  have other := evaluateKind_threads env span kind
  cases kind with
  | paren inner =>
    rw [evaluateKind_paren]
    exact test_threads env negated inner
  | binary op left right =>
    cases op with
    | and | or =>
      rw [evaluateKind]
      exact (test_threads env negated left).seq (test_threads env negated right).optional
    | _ => exact other
  | unary op operand =>
    cases op with
    | not =>
      rw [evaluateKind]
      have evaluated := (test_threads env (!negated) operand).then_silent silent_attempt
      exact Threads.right (evaluated.then_silent silent_done) _
    | _ => exact other
  | isset values =>
    rw [evaluateKind]
    exact (probeAll_threads env values).right _
  | instanceOf subject ref =>
    exact other.left _
  | _ => exact other

/-- The container of an element is visited like any expression. -/
theorem container_threads (env : Env) (base : Expr) :
    Threads (visitsExpr env.naming base) (container env base) := by
  obtain ⟨kind, span⟩ := base
  rw [visitsExpr, container.eq_def]
  have other := evaluateKind_threads env span kind
  cases kind with
  | var name => exact .silent silent_done
  | paren inner =>
    rw [visitsKind_paren]
    exact container_threads env inner
  | element base index =>
    rw [visitsKind]
    exact (container_threads env base).seq (evaluateOptional_threads env index)
  | _ => exact other

/-- What is evaluated to store into an expression is visited where it is read. -/
theorem place_shown (env : Env) (target : Expr) :
    Shown (visitsExpr env.naming target) (place env target) := by
  obtain ⟨kind, span⟩ := target
  rw [visitsExpr, place.eq_def]
  have other := (evaluateKind_threads env span kind).shown
  cases kind with
  | var | list | array => exact .silent silent_done
  | paren inner =>
    rw [visitsKind_paren]
    exact place_shown env inner
  | element base index =>
    rw [visitsKind]
    exact ((container_threads env base).seq (evaluateOptional_threads env index)).shown
  | property object name nullsafe =>
    rw [visitsKind]
    exact (evaluate_threads env object).shown
  | staticProperty ref name =>
    rw [visitsKind]
    exact (evaluateRef_threads env ref).shown
  | _ => exact other

theorem store_shown (env : Env) (target : Expr) :
    Shown (visitsExpr env.naming target) (store env target) := by
  obtain ⟨kind, span⟩ := target
  rw [visitsExpr, store.eq_def]
  cases kind with
  | var name =>
    rw [visitsKind]
    exact .emit (.head _) ⟨rfl, rfl, rfl⟩
  | paren inner =>
    rw [visitsKind_paren]
    exact store_shown env inner
  | element base index =>
    rw [visitsKind]
    exact .seq (.silent silent_attempt) ((store_shown env base).left _)
  | list items | array items =>
    rw [visitsKind]
    exact storeItems_shown env items
  | _ => exact .silent silent_attempt

theorem storeItems_shown (env : Env) (items : List Item) :
    Shown (visitsItems env.naming items) (storeItems env items) := by
  cases items with
  | nil =>
    rw [storeItems_nil]
    exact .silent silent_done
  | cons item rest =>
    cases item with
    | skip =>
      rw [visitsItems, storeItems]
      exact storeItems_shown env rest
    | entry key value byRef unpack =>
      rw [visitsItems, storeItems]
      have value := (place_shown env value).seq
        (.seq (.silent silent_attempt) (store_shown env value))
      have slot := (((evaluateOptional_threads env key).shown.left _).seq (value.right _))
      exact (slot.left _).seq ((storeItems_shown env rest).right _)

theorem bindReference_threads (env : Env) (value : Expr) :
    Threads (visitsExpr env.naming value) (bindReference env value) := by
  obtain ⟨kind, span⟩ := value
  rw [visitsExpr, bindReference.eq_def]
  have other := evaluateKind_threads env span kind
  cases kind with
  | paren inner =>
    rw [visitsKind_paren]
    exact bindReference_threads env inner
  | var name =>
    rw [visitsKind]
    exact .emit (.head _) ⟨rfl, rfl, rfl⟩
  | _ => exact other

theorem conditions_threads (env : Env) (late : Bool) {visits others : List Visit}
    {hit miss : Runs Abort} (chosen : Threads visits hit) (passed : Threads others miss)
    (conditions : List Expr) :
    Threads (chain (hastenIf late (visitsExprs env.naming conditions)) (chain visits others))
      (evaluateConditions env hit miss conditions) := by
  cases conditions with
  | nil =>
    rw [evaluateConditions_nil]
    exact (passed.right visits).right _
  | cons condition rest =>
    rw [visitsExprs, evaluateConditions, hastenIf_chain, chain_assoc]
    exact ((evaluate_threads env condition).hastenIf late).seq
      (((chosen.left others).right _).union (conditions_threads env late chosen passed rest))

/-- The arms of a `match` that accept the value. -/
theorem arms_threads (env : Env) (late : Bool) (arms : List MatchArm) :
    Threads (visitsArms env.naming late arms) (evaluateArms env ∅ arms) := by
  cases arms with
  | nil =>
    rw [evaluateArms_nil]
    exact .silent fun _ none => none.elim
  | cons arm rest =>
    obtain ⟨conditions, body⟩ := arm
    rw [visitsArms, evaluateArms, chain_assoc]
    exact conditions_threads env late (evaluate_threads env body) (arms_threads env _ rest) conditions

/-- The conditions of all arms and the default arm, which may be visited before some of them. -/
theorem default_threads (env : Env) (late : Bool) (arms : List MatchArm) :
    Threads (visitsArms env.naming late arms)
      ((evaluateMisses env arms).seq (evaluateDefault env arms)) := by
  cases arms with
  | nil =>
    rw [evaluateMisses, evaluateDefault_nil]
    exact .silent_then silent_done (.silent (silent_leave _))
  | cons arm rest =>
    obtain ⟨conditions, body⟩ := arm
    rw [visitsArms, evaluateMisses, evaluateDefault, chain_assoc, Runs.seq_assoc]
    have asked := (evaluateAll_threads env conditions).hastenIf late
    cases empty : conditions.isEmpty with
    | true =>
      have misses := (misses_hastened env rest).right (visitsExpr env.naming body)
      rw [Bool.or_true]
      exact asked.seq (.hastened_then misses ((evaluate_threads env body).left _))
    | false =>
      rw [Bool.or_false]
      exact asked.seq ((default_threads env late rest).right _)

/-- The conditions after the default arm are evaluated before it. -/
theorem misses_hastened (env : Env) (arms : List MatchArm) :
    Hastened (visitsArms env.naming true arms) (evaluateMisses env arms) := by
  cases arms with
  | nil =>
    rw [evaluateMisses]
    exact .silent silent_done
  | cons arm rest =>
    obtain ⟨conditions, body⟩ := arm
    rw [visitsArms, evaluateMisses]
    exact (((Hastened.of_shown (evaluateAll_threads env conditions).shown).left _).left _).seq
      ((misses_hastened env rest).right _)

/-- The operands in the target of an assignment are evaluated before the value. -/
theorem place_hastened (env : Env) (mode : Flow.AssignMode) (target : Expr) :
    Hastened (visitsAssign env.naming mode target) (place env target) := by
  obtain ⟨kind, span⟩ := target
  rw [visitsAssign.eq_def, place.eq_def]
  have other := Hastened.of_shown (evaluateKind_threads env span kind).shown
  cases kind with
  | var | list | array => exact .silent silent_done
  | paren inner => exact place_hastened env mode inner
  | element base index =>
    have index := Hastened.of_shown (evaluateOptional_threads env index).shown
    exact ((container_hastened env base).left _).seq (index.right _)
  | property object name nullsafe => exact .of_shown (evaluate_threads env object).shown
  | staticProperty ref name => exact .of_shown (evaluateRef_threads env ref).shown
  | _ => exact other

theorem container_hastened (env : Env) (base : Expr) :
    Hastened (visitsContainer env.naming true base) (container env base) := by
  obtain ⟨kind, span⟩ := base
  rw [visitsContainer.eq_def, container.eq_def]
  have other := Hastened.of_shown (evaluateKind_threads env span kind).shown
  cases kind with
  | var name => exact .silent silent_done
  | paren inner => exact container_hastened env inner
  | element base index =>
    have index := Hastened.of_shown (evaluateOptional_threads env index).shown
    exact ((container_hastened env base).left _).seq (index.right _)
  | _ => exact other

/-- Storing comes last. -/
theorem store_threads (env : Env) (mode : Flow.AssignMode) (target : Expr) :
    Threads (visitsAssign env.naming mode target) (store env target) := by
  obtain ⟨kind, span⟩ := target
  rw [visitsAssign.eq_def, store.eq_def]
  cases kind with
  | var name => exact .emit (.head _) ⟨rfl, rfl, by cases mode <;> rfl⟩
  | paren inner => exact store_threads env mode inner
  | element base index =>
    exact .silent_then silent_attempt ((storeContainer_threads env base).left _)
  | list items | array items => exact storeItems_threads env items
  | _ => exact .silent silent_attempt

theorem storeContainer_threads (env : Env) (base : Expr) :
    Threads (visitsContainer env.naming true base) (store env base) := by
  obtain ⟨kind, span⟩ := base
  rw [visitsContainer.eq_def, store.eq_def]
  cases kind with
  | var name => exact .emit (.head _) ⟨rfl, rfl, rfl⟩
  | paren inner => exact storeContainer_threads env inner
  | element base index =>
    exact .silent_then silent_attempt ((storeContainer_threads env base).left _)
  | list items | array items =>
    dsimp only
    rw [visitsKind]
    exact .of_hastened (.of_shown (storeItems_shown env items))
  | _ => exact .silent silent_attempt

theorem storeItems_threads (env : Env) (items : List Item) :
    Threads (visitsPattern env.naming items) (storeItems env items) := by
  cases items with
  | nil =>
    rw [storeItems_nil]
    exact .silent silent_done
  | cons item rest =>
    cases item with
    | skip =>
      rw [visitsPattern, storeItems]
      exact storeItems_threads env rest
    | entry key value byRef unpack =>
      rw [visitsPattern, storeItems]
      have slot := Threads.hastened_then (place_hastened env .plain value)
        (.silent_then silent_attempt (store_threads env .plain value))
      exact ((evaluateOptional_threads env key).seq slot).seq (storeItems_threads env rest)

/-- A compound assignment takes the old value of its target before it stores the new one. -/
theorem fetch_hastened (env : Env) (outer : Span) (target : Expr) :
    Hastened (visitsAssign env.naming (.compound outer) target) (fetch env target) := by
  obtain ⟨kind, span⟩ := target
  rw [visitsAssign.eq_def, fetch.eq_def]
  cases kind with
  | var name => exact hastened_read (.head _) ⟨rfl, rfl, .inl rfl⟩
  | paren inner => exact fetch_hastened env outer inner
  | element base index => exact ((fetchContainer_hastened env base).left _).seq (.silent silent_attempt)
  | _ => exact .silent silent_attempt

theorem fetchContainer_hastened (env : Env) (base : Expr) :
    Hastened (visitsContainer env.naming true base) (fetch env base) := by
  obtain ⟨kind, span⟩ := base
  rw [visitsContainer.eq_def, fetch.eq_def]
  cases kind with
  | var name => exact hastened_read (.head _) ⟨rfl, rfl, .inl rfl⟩
  | paren inner => exact fetchContainer_hastened env inner
  | element base index => exact ((fetchContainer_hastened env base).left _).seq (.silent silent_attempt)
  | _ => exact .silent silent_attempt

/-- The target of `??=` is looked at before anything else. -/
theorem probe_hastened (env : Env) (outer : Span) (target : Expr)
    (plain : target.isLiteral = false) :
    Hastened (visitsAssign env.naming (.compound outer) target) (probe env target) := by
  obtain ⟨kind, span⟩ := target
  rw [visitsAssign.eq_def, probe.eq_def]
  have other := Hastened.of_shown (evaluateKind_threads env span kind).shown
  cases kind with
  | var name => exact .emit (.head _) ⟨rfl, rfl, .inl rfl⟩ id
  | paren inner => exact probe_hastened env outer inner plain
  | element base index =>
    have index := Hastened.of_shown
      ((evaluateOptional_threads env index).then_silent silent_attempt).shown
    exact ((probeContainer_hastened env base).left _).seq ((index.right _).unlessCutOff _)
  | property object name nullsafe =>
    exact .of_shown ((probe_shown env object).seq (.silent silent_attempt))
  | staticProperty ref name =>
    rw [visitsKind.eq_def] at other
    exact other
  | list | array => exact absurd plain (by simp [Expr.isLiteral])
  | _ => exact other

theorem probeContainer_hastened (env : Env) (base : Expr) :
    Hastened (visitsContainer env.naming true base) (probe env base) := by
  obtain ⟨kind, span⟩ := base
  rw [visitsContainer.eq_def, probe.eq_def]
  have other := Hastened.of_shown (evaluateKind_threads env span kind).shown
  cases kind with
  | var name => exact .emit (.head _) ⟨rfl, rfl, .inl rfl⟩ id
  | paren inner => exact probeContainer_hastened env inner
  | element base index =>
    have index := Hastened.of_shown
      ((evaluateOptional_threads env index).then_silent silent_attempt).shown
    exact ((probeContainer_hastened env base).left _).seq ((index.right _).unlessCutOff _)
  | property object name nullsafe =>
    dsimp only
    rw [visitsKind]
    exact .of_shown ((probe_shown env object).seq (.silent silent_attempt))
  | _ => exact other

/-- The container of an element is visited like any expression, if early. -/
theorem container_shown (env : Env) (base : Expr) :
    Shown (visitsContainer env.naming true base) (evaluate env base) := by
  obtain ⟨kind, span⟩ := base
  rw [visitsContainer.eq_def, evaluate]
  have other := (evaluateKind_threads env span kind).shown.hasten
  cases kind with
  | var name =>
    rw [evaluateKind]
    exact (hastened_read (.head _) ⟨rfl, rfl, .inl rfl⟩).shown
  | paren inner =>
    rw [evaluateKind_paren]
    exact container_shown env inner
  | element base index =>
    rw [evaluateKind]
    have index := ((evaluateOptional_threads env index).then_silent silent_attempt).shown.hasten
    exact ((container_shown env base).left _).seq ((index.right _).unlessCutOff _)
  | _ => exact other

/-- An array literal that is the target of `??=` is evaluated like any array. -/
theorem target_shown (env : Env) (mode : Flow.AssignMode) (target : Expr) :
    Shown ((visitsAssign env.naming mode target).map Visit.hasten) (evaluate env target) := by
  obtain ⟨kind, span⟩ := target
  rw [visitsAssign.eq_def, evaluate]
  have other := (evaluateKind_threads env span kind).shown.hasten.hasten
  cases kind with
  | var name =>
    rw [evaluateKind]
    exact (hastened_read (.head _) ⟨rfl, rfl, .inr ⟨rfl, by cases mode <;> rfl⟩⟩).shown
  | paren inner =>
    rw [evaluateKind_paren]
    exact target_shown env mode inner
  | element base index =>
    rw [evaluateKind]
    have index := ((evaluateOptional_threads env index).then_silent silent_attempt).shown.hasten
    exact (((container_shown env base).left _).seq ((index.right _).unlessCutOff _)).hasten
  | list items | array items =>
    rw [evaluateKind]
    exact pattern_shown env items
  | property object name nullsafe =>
    rw [evaluateKind]
    exact ((evaluate_threads env object).then_silent silent_attempt).shown.hasten.hasten
  | staticProperty ref name =>
    rw [evaluateKind]
    exact ((evaluateRef_threads env ref).then_silent silent_attempt).shown.hasten.hasten
  | _ => exact other

theorem pattern_shown (env : Env) (items : List Item) :
    Shown ((visitsPattern env.naming items).map Visit.hasten) (evaluateItems env items) := by
  cases items with
  | nil =>
    rw [evaluateItems_nil]
    exact .silent silent_done
  | cons item rest =>
    cases item with
    | skip =>
      rw [visitsPattern, evaluateItems]
      exact pattern_shown env rest
    | entry key value byRef unpack =>
      rw [visitsPattern, evaluateItems]
      have keyed := (evaluateOptional_threads env key).shown.hasten
      have slot := (keyed.left _).seq ((target_shown env .plain value).right _)
      have both := (slot.left _).seq ((pattern_shown env rest).right _)
      change Shown (hastenIf true (chain (chain _ _) _)) _
      rw [hastenIf_chain, hastenIf_chain]
      exact both

theorem probe_target_shown (env : Env) (mode : Flow.AssignMode) (target : Expr) :
    Shown ((visitsAssign env.naming mode target).map Visit.hasten) (probe env target) := by
  obtain ⟨kind, span⟩ := target
  rw [visitsAssign.eq_def, probe.eq_def]
  have other := (evaluateKind_threads env span kind).shown.hasten.hasten
  cases kind with
  | paren inner => exact probe_target_shown env mode inner
  | var name => exact .emit (.head _) ⟨rfl, rfl, .inr ⟨rfl, by cases mode <;> rfl⟩⟩
  | element base index =>
    have index := ((evaluateOptional_threads env index).then_silent silent_attempt).shown.hasten
    have container := (probeContainer_hastened env base).shown
    exact ((container.left _).seq ((index.right _).unlessCutOff _)).hasten
  | list items | array items =>
    dsimp only
    rw [evaluateKind]
    exact pattern_shown env items
  | property object name nullsafe =>
    exact ((probe_shown env object).seq (.silent silent_attempt)).hasten.hasten
  | staticProperty ref name =>
    rw [visitsKind.eq_def] at other
    exact other
  | _ => exact other

end

end PhpAudit.Execution
