/-
This file proves that the walk over an expression records an exit only if no run of the expression
completes. The proof goes the other way round: if some run completes and control reached the
expression, then the walk still counts the block as going on. Operands that a run may skip are
either walked without effect on the exits or, in the fragment treated here, record none.
-/

import PhpAudit.Proofs.Execution.Semantics
import PhpAudit.Proofs.Flow.Drift

namespace PhpAudit

open Execution

/-- Control reaches the point of the walk. -/
def Walk.Live (walk : Walk) : Prop :=
  walk.record.exits.isEmpty = true

/--
The expressions whose exits the walk follows. Left out are `??=`, null-safe fetches, calls of methods
on objects, whose callees depend on types, and `yield`. An operand that may be skipped although it
is not walked as such must be quiet: the operands of `isset` and `empty`, the left one of `??`, and
the right one of an operator that could not be read.
-/
def followsExits : ExprKind → Bool
  | .assign _ _ op _ => op != .coalesce
  | .binary op left right =>
    (op != .coalesce || everyExpr isQuiet left) && (op != .other || everyExpr isQuiet right)
  | .isset values => everyIn isQuiet values
  | .isEmpty value => everyExpr isQuiet value
  | .property _ _ nullsafe => !nullsafe
  | .methodCall .. | .yield .. | .yieldFrom _ => false
  | _ => true

/--
The expressions at whose pace the walk goes. An operand that a run may skip although the walk takes it
to be evaluated must record no exit: the value of `??=`, the right operand of an operator that could
not be read, the operands of `isset` after the first, and what a null object may cut off. The methods
of the name that is called must all return, since the walk asks one receiver only.
-/
def pacesExits (env : Env) : ExprKind → Bool
  | .assign _ value op _ => op != .coalesce || everyExpr (isCalm env) value
  | .binary op _ right => op != .other || everyExpr (isCalm env) right
  | .isset values => everyIn (isCalm env) values.tail
  | .element base index => !mayCutOff base || everyOptional (isCalm env) index
  | .methodCall object method args nullsafe =>
    method.all (methodsReturn env.index) &&
      (!(nullsafe || mayCutOff object) || everyArg (isCalm env) args)
  | _ => true

namespace Flow

variable (env : Env)

/-! ### Operands without exits -/

theorem live_of_record {before after : Walk} (same : after.record = before.record)
    (live : before.Live) : after.Live := by
  unfold Walk.Live at *
  rwa [same]

theorem live_of_calm {before after : Walk} (drift : Drift False before.record after.record)
    (live : before.Live) : after.Live :=
  live_of_record (drift.eq_of_not not_false) live

theorem live_conditionally {walk : Walk} (operand : Walk → Walk) (live : walk.Live) :
    (walk.conditionally operand).Live :=
  live

theorem live_conditionals (values : List Expr) {walk : Walk} (live : walk.Live) :
    (walkConditionals env values walk).Live := by
  induction values generalizing walk with
  | nil => rwa [walkConditionals_nil]
  | cons value rest inductionHypothesis =>
    rw [walkConditionals]
    exact inductionHypothesis (live_conditionally _ live)

theorem live_arms (arms : List MatchArm) {walk : Walk} (live : walk.Live) :
    (walkArms env arms walk).Live := by
  induction arms generalizing walk with
  | nil => rwa [walkArms_nil]
  | cons arm rest inductionHypothesis =>
    obtain ⟨conditions, body⟩ := arm
    rw [walkArms]
    exact inductionHypothesis (live_conditionally _ (live_conditionals env conditions live))

/-! ### Callees -/

theorem live_leaveByFound {found : Option FoundMethod} (returns : methodMayReturn found = true)
    {walk : Walk} (live : walk.Live) : (walk.leaveByFound env found).Live :=
  live_of_calm (drift_leaveByFound env (.inl returns) walk) live

/-! ### Chains of fetches -/

/-- Without null-safe fetches nothing cuts a chain off. -/
theorem mayCutOff_eq_false (expr : Expr) (followed : everyExpr followsExits expr = true) :
    mayCutOff expr = false := by
  obtain ⟨kind, span⟩ := expr
  simp only [everyExpr, Bool.and_eq_true] at followed
  obtain ⟨own, followed⟩ := followed
  cases kind with
  | paren inner =>
    rw [mayCutOff]
    exact mayCutOff_eq_false inner followed
  | property object name nullsafe =>
    simp only [followsExits, Bool.not_eq_true'] at own
    rw [mayCutOff, own, mayCutOff_eq_false object followed]
    rfl
  | methodCall => simp [followsExits] at own
  | element base index =>
    simp only [everyOperand, Bool.and_eq_true] at followed
    rw [mayCutOff]
    exact mayCutOff_eq_false base followed.1
  | _ => rfl

theorem endsIn_unlessCutOff {cuts : Bool} {operands : Runs Abort}
    (completes : (unlessCutOff cuts operands).EndsIn none) :
    cuts = true ∨ operands.EndsIn none := by
  cases cuts with
  | true => exact .inl rfl
  | false => exact .inr completes

/-- The expressions whose exits are followed are among those the walk keeps pace with. -/
theorem paced_of_followed (expr : Expr) (followed : everyExpr followsExits expr = true) :
    everyExpr (pacesExits env) expr = true := by
  refine everyExpr_widen (fun kind own operands => ?_) expr followed
  cases kind with
  | assign target value op byRef =>
    simp only [followsExits] at own
    simp [pacesExits, own]
  | binary op left right =>
    simp only [followsExits, Bool.and_eq_true, Bool.or_eq_true] at own
    simp only [pacesExits, Bool.or_eq_true]
    exact own.2.imp_right calm_of_quiet
  | isset values =>
    cases values with
    | nil => rfl
    | cons value rest =>
      simp only [followsExits, everyIn, Bool.and_eq_true] at own
      exact everyIn_widen (fun kind quiet _ => isCalm_of_isQuiet env kind quiet) rest own.2
  | element base index =>
    simp only [everyOperand, Bool.and_eq_true] at operands
    simp [pacesExits, mayCutOff_eq_false base operands.1]
  | methodCall => simp [followsExits] at own
  | _ => rfl

/-- What can be probed can be evaluated. -/
theorem endsIn_evaluate_of_probe (value : Expr) (completes : (probe env value).EndsIn none) :
    (evaluate env value).EndsIn none := by
  obtain ⟨kind, span⟩ := value
  rw [evaluate]
  cases kind with
  | paren inner =>
    rw [probe_paren] at completes
    rw [evaluateKind_paren]
    exact endsIn_evaluate_of_probe inner completes
  | var name => simp [evaluateKind, Execution.read]
  | element base index =>
    simp only [probe, Runs.endsIn_seq_none] at completes
    simp only [evaluateKind, Runs.endsIn_seq_none]
    exact ⟨endsIn_evaluate_of_probe base completes.1, completes.2⟩
  | property object name nullsafe =>
    simp only [probe, Runs.endsIn_seq_none] at completes
    simp only [evaluateKind, Runs.endsIn_seq_none]
    exact ⟨endsIn_evaluate_of_probe object completes.1, completes.2⟩
  | _ => simpa only [probe] using completes

/-- The index of an element, which is evaluated unless the base is cut off. -/
theorem live_index {base : Expr} {index : Option Expr}
    (own : pacesExits env (.element base index) = true)
    (completes : (unlessCutOff (mayCutOff base)
      ((evaluateOptional env index).seq Runs.attempt)).EndsIn none) {walk : Walk} (live : walk.Live)
    (evaluated : (evaluateOptional env index).EndsIn none → (walkOptional env index walk).Live) :
    (walkOptional env index walk).Live := by
  rcases endsIn_unlessCutOff completes with cuts | complete
  · have calm : everyOptional (isCalm env) index = true := by simpa [pacesExits, cuts] using own
    exact live_of_calm (drift_optional env index (.inl calm) walk) live
  · exact evaluated (Runs.endsIn_seq_none.mp complete).1

/-! ### Walking expressions -/

-- A part leaves the walk alive only if some run completes it, so the runs of a node are taken apart along
-- with its walk. Parts in which nothing can leave need no run: there `Steps` does.
mutual

/-- Control goes on after an expression that some run completes. -/
theorem live_expr (expr : Expr) (paced : everyExpr (pacesExits env) expr = true)
    (completes : (evaluate env expr).EndsIn none) {walk : Walk} (live : walk.Live) :
    (walkExpr env expr walk).Live := by
  obtain ⟨kind, span⟩ := expr
  simp only [everyExpr, Bool.and_eq_true] at paced
  rw [evaluate] at completes
  rw [walkExpr]
  exact live_kind kind span paced.1 paced.2 completes live

theorem live_kind (kind : ExprKind) (span : Span) (own : pacesExits env kind = true)
    (paced : everyOperand (pacesExits env) kind = true)
    (completes : (evaluateKind env span kind).EndsIn none) {walk : Walk} (live : walk.Live) :
    (walkKind env span kind walk).Live := by
  cases kind with
  | paren inner =>
    rw [evaluateKind_paren] at completes
    rw [walkKind_paren]
    exact live_expr inner paced completes live
  | clone inner | property inner _ _ =>
    simp only [evaluateKind, Runs.endsIn_seq_none] at completes
    rw [walkKind]
    exact live_expr inner paced completes.1 live
  | unary op inner =>
    simp only [evaluateKind, Runs.endsIn_seq_none] at completes
    rw [walkKind]
    exact live_expr inner paced completes.1.1 live
  | includeFile inner | yieldFrom inner =>
    simp only [evaluateKind, Runs.endsIn_seq_none] at completes
    rw [walkKind]
    exact live_expr inner paced completes.1 (show walk.impure.Live from live)
  | array items | list items =>
    rw [evaluateKind] at completes
    rw [walkKind]
    exact live_items items paced completes live
  | element base index =>
    simp only [everyOperand, Bool.and_eq_true] at paced
    simp only [evaluateKind, Runs.endsIn_seq_none] at completes
    rw [walkKind]
    have checked := live_of_record (Walk.record_checkArrayAccess env walk base span) live
    have based := live_expr base paced.1 completes.1 checked
    exact live_index env own completes.2 based fun complete =>
      live_optional index paced.2 complete based
  | assign target value op byRef =>
    simp only [everyOperand, Bool.and_eq_true] at paced
    cases byRef with
    | true =>
      simp only [evaluateKind, if_true, Runs.endsIn_seq_none] at completes
      simp only [walkKind, if_true]
      exact live_assign .reference _ target paced.1 (.inl ⟨completes.1.1, completes.2⟩)
        (live_shared value paced.2 completes.1.2 live)
    | false =>
      cases op with
      | coalesce =>
        simp only [evaluateKind, Bool.false_eq_true, if_false, Runs.endsIn_seq_none] at completes
        simp only [walkKind, Bool.false_eq_true, if_false]
        exact live_assign (.compound target.span) _ target paced.1
          (.inr (endsIn_evaluate_of_probe env target completes.1))
          (live_of_calm (drift_expr env value (.inl (by simpa [pacesExits] using own)) walk) live)
      | assign =>
        simp only [evaluateKind, Bool.false_eq_true, if_false, Runs.endsIn_seq_none] at completes
        simp only [walkKind, Bool.false_eq_true, if_false]
        exact live_assign .plain _ target paced.1 (.inl ⟨completes.1.1, completes.2⟩)
          (live_expr value paced.2 completes.1.2 live)
      | _ =>
        simp only [evaluateKind, Bool.false_eq_true, if_false, Runs.endsIn_seq_none] at completes
        simp only [walkKind, Bool.false_eq_true, if_false]
        exact live_assign (.compound target.span) _ target paced.1
          (.inl ⟨completes.1.1, completes.2.2.2⟩) (live_expr value paced.2 completes.1.2 live)
  | binary op left right =>
    simp only [everyOperand, Bool.and_eq_true] at paced
    cases op with
    | coalesce =>
      simp only [evaluateKind, Runs.endsIn_seq_none] at completes
      rw [walkKind]
      exact live_conditionally _ (live_probe left paced.1 completes.1 live)
    | and | or | lowOr =>
      simp only [evaluateKind, Runs.endsIn_seq_none] at completes
      rw [walkKind]
      exact live_conditionally _ (live_expr left paced.1 completes.1 live)
    | other =>
      simp only [evaluateKind, Runs.endsIn_seq_none] at completes
      simp only [walkKind]
      exact live_of_calm (drift_expr env right (.inl (by simpa [pacesExits] using own)) _)
        (live_expr left paced.1 completes.1 live)
    | _ =>
      simp only [evaluateKind, Runs.endsIn_seq_none] at completes
      simp only [walkKind]
      exact live_expr right paced.2 completes.2.1 (live_expr left paced.1 completes.1 live)
  | instanceOf subject ref =>
    simp only [everyOperand, Bool.and_eq_true] at paced
    simp only [evaluateKind, Runs.endsIn_seq_none] at completes
    rw [walkKind]
    exact live_ref ref paced.2 completes.2.1 (live_expr subject paced.1 completes.1 live)
  | ternary test yes no =>
    simp only [everyOperand, Bool.and_eq_true] at paced
    cases yes with
    | none =>
      simp only [evaluateKind, Runs.endsIn_seq_none] at completes
      rw [walkKind]
      exact live_conditionally _ (live_expr test paced.1.1 completes.1 live)
    | some yes =>
      rw [walkKind]
      exact live_of_record (record_closeTernary ..) live
  | call name args =>
    simp only [everyOperand] at paced
    rw [evaluateKind] at completes
    rw [walkKind]
    split
    · next compact =>
      simp only [compact, if_true, Runs.endsIn_seq_none] at completes
      exact live_compactArgs args paced completes.1 live
    · next other =>
      have other := (Bool.not_eq_true _).mp other
      simp only [other, Bool.false_eq_true, if_false, Runs.endsIn_seq_none,
        Runs.endsIn_callee_none] at completes
      have calm : isCalm env (.call name args) = true := by rw [isCalm, completes.2, Bool.or_true]
      refine live_of_calm ((steps_drift env).afterCall (fun _ => calm) other _)
        (live_args _ _ 0 args paced (.inl rfl) completes.1 ?_)
      refine live_of_record ?_ live
      split <;> simp
  | callValue function args =>
    simp only [everyOperand, Bool.and_eq_true] at paced
    simp only [evaluateKind, Runs.endsIn_seq_none] at completes
    rw [walkKind]
    exact live_args none none 0 args paced.2 (.inl rfl) completes.2.1
      (live_expr function paced.1 completes.1 (show walk.impure.Live from live))
  | methodCall object method args nullsafe =>
    simp only [everyOperand, Bool.and_eq_true] at paced
    simp only [pacesExits, Bool.and_eq_true, Bool.or_eq_true, Bool.not_eq_true'] at own
    simp only [evaluateKind, Runs.endsIn_seq_none] at completes
    rw [walkKind]
    refine live_leaveByFound env (methodMayReturn_lookup own.1 _ object) ?_
    have evaluated : (walkExpr env object walk.impure).Live :=
      live_expr object paced.1 completes.1 (show walk.impure.Live from live)
    rcases endsIn_unlessCutOff completes.2 with cuts | complete
    · have calm := own.2.resolve_left (by simp [cuts])
      exact live_of_calm (drift_args env _ 0 args (.inl calm) _) evaluated
    · exact live_args _ none 0 args paced.2 (.inr rfl) (Runs.endsIn_seq_none.mp complete).1 evaluated
  | staticCall ref method args =>
    simp only [everyOperand, Bool.and_eq_true] at paced
    simp only [evaluateKind, Runs.endsIn_seq_none, Runs.endsIn_callee_none] at completes
    rw [walkKind]
    exact live_leaveByFound env completes.2.2 (live_args _ _ 0 args paced.2 (.inl rfl) completes.2.1
      (live_ref ref paced.1 completes.1 (show walk.impure.Live from live)))
  | staticProperty ref _ | classConstant ref _ =>
    simp only [everyOperand] at paced
    simp only [evaluateKind, Runs.endsIn_seq_none] at completes
    rw [walkKind]
    exact live_ref ref paced completes.1 live
  | new ref args =>
    simp only [everyOperand, Bool.and_eq_true] at paced
    simp only [evaluateKind, Runs.endsIn_seq_none] at completes
    rw [walkKind]
    exact live_args _ _ 0 args paced.2 (.inl rfl) completes.2.1
      (live_ref ref paced.1 completes.1 (show walk.impure.Live from live))
  | isset values =>
    rw [evaluateKind] at completes
    rw [walkKind]
    exact live_probes values own paced completes live
  | isEmpty value =>
    rw [evaluateKind] at completes
    rw [walkKind]
    exact live_probe value paced completes live
  | exit die reads => simp [evaluateKind] at completes
  | throw exception => simp [evaluateKind] at completes
  | closure params captures hint isStatic body =>
    rw [walkKind]
    exact live_of_record (record_captures env captures (walk, _)) live
  | arrow params hint isStatic body =>
    rw [walkKind]
    exact live_of_record (record_untrackAll env _ _) live
  | matchOn subject arms =>
    simp only [everyOperand, Bool.and_eq_true] at paced
    simp only [evaluateKind, Runs.endsIn_seq_none] at completes
    rw [walkKind]
    exact live_arms env arms (live_expr subject paced.1 completes.1 live)
  | yield key value =>
    simp only [everyOperand, Bool.and_eq_true] at paced
    simp only [evaluateKind, Runs.endsIn_seq_none] at completes
    rw [walkKind]
    exact live_optional value paced.2 completes.2.1
      (live_optional key paced.1 completes.1 (show walk.impure.Live from live))
  | var | dynamicVar | interpolated | unmodeled | print =>
    rw [walkKind]
    exact live_of_record (by simp) live
  | integer | float | string | boolean | null | magic | constant =>
    rwa [walkKind]

theorem live_optional (value : Option Expr) (paced : everyOptional (pacesExits env) value = true)
    (completes : (evaluateOptional env value).EndsIn none) {walk : Walk} (live : walk.Live) :
    (walkOptional env value walk).Live := by
  cases value with
  | none => rwa [walkOptional_none]
  | some value =>
    rw [evaluateOptional] at completes
    rw [walkOptional]
    exact live_expr value paced completes live

theorem live_probe (value : Expr) (paced : everyExpr (pacesExits env) value = true)
    (completes : (probe env value).EndsIn none) {walk : Walk} (live : walk.Live) :
    (walkProbe env value walk).Live := by
  obtain ⟨kind, span⟩ := value
  simp only [everyExpr, Bool.and_eq_true] at paced
  have read (completes : (evaluateKind env span kind).EndsIn none) :=
    live_kind kind span paced.1 paced.2 completes live
  cases kind with
  | paren inner =>
    rw [probe_paren] at completes
    rw [walkProbe_paren]
    exact live_probe inner paced.2 completes live
  | var name =>
    rwa [walkProbe]
  | element base index =>
    simp only [everyOperand, Bool.and_eq_true] at paced
    simp only [probe, Runs.endsIn_seq_none] at completes
    rw [walkProbe]
    have based := live_probe base paced.2.1 completes.1 live
    exact live_index env paced.1 completes.2 based fun complete =>
      live_optional index paced.2.2 complete based
  | property object name nullsafe =>
    simp only [probe, Runs.endsIn_seq_none] at completes
    rw [walkProbe]
    exact live_probe object paced.2 completes.1 live
  | _ =>
    simp only [probe] at completes
    simpa only [walkProbe] using read completes

/-- The first operand of `isset` is evaluated, the others are if all before them are set. -/
theorem live_probes (values : List Expr) (calm : everyIn (isCalm env) values.tail = true)
    (paced : everyIn (pacesExits env) values = true)
    (completes : (probeAll env values).EndsIn none) {walk : Walk} (live : walk.Live) :
    (walkProbes env values walk).Live := by
  cases values with
  | nil => rwa [walkProbes_nil]
  | cons value rest =>
    simp only [everyIn, Bool.and_eq_true] at paced
    simp only [probeAll, Runs.endsIn_seq_none] at completes
    rw [walkProbes]
    exact live_of_calm (drift_probes env rest (.inl calm) _)
      (live_probe value paced.1 completes.1 live)

theorem live_items (items : List Item) (paced : everyItem (pacesExits env) items = true)
    (completes : (evaluateItems env items).EndsIn none) {walk : Walk} (live : walk.Live) :
    (walkItems env items walk).Live := by
  cases items with
  | nil => rwa [walkItems_nil]
  | cons item rest =>
    cases item with
    | skip =>
      rw [evaluateItems] at completes
      rw [walkItems]
      exact live_items rest paced completes live
    | entry key value byRef unpack =>
      simp only [everyItem, Bool.and_eq_true] at paced
      simp only [evaluateItems, Runs.endsIn_seq_none] at completes
      rw [walkItems]
      exact live_items rest paced.2 completes.2 (live_expr value paced.1.2 completes.1.2
        (live_optional key paced.1.1 completes.1.1 live))

theorem live_ref (ref : ClassRef) (paced : everyRef (pacesExits env) ref = true)
    (completes : (evaluateRef env ref).EndsIn none) {walk : Walk} (live : walk.Live) :
    (walkRef env ref walk).Live := by
  cases ref with
  | dynamic value =>
    rw [evaluateRef] at completes
    rw [walkRef]
    exact live_expr value paced completes live
  | _ => rwa [walkRef]

/-- A target that is assigned to is either evaluated as one, or was read before. -/
theorem live_assign (mode : AssignMode) (types : TypeSet) (target : Expr)
    (paced : everyExpr (pacesExits env) target = true)
    (completes : ((place env target).EndsIn none ∧ (store env target).EndsIn none) ∨
      (evaluate env target).EndsIn none)
    {walk : Walk} (live : walk.Live) : (walkAssign env mode types target walk).Live := by
  obtain ⟨kind, span⟩ := target
  simp only [everyExpr, Bool.and_eq_true] at paced
  rw [evaluate] at completes
  have read (completes : (evaluateKind env span kind).EndsIn none) :=
    live_kind kind span paced.1 paced.2 completes live
  cases kind with
  | var name =>
    rw [walkAssign]
    exact live_of_record (record_assignVar ..) live
  | paren inner =>
    rw [place_paren, store_paren, evaluateKind_paren] at completes
    rw [walkAssign_paren]
    exact live_assign mode types inner paced.2 completes live
  | element base index =>
    simp only [everyOperand, Bool.and_eq_true] at paced
    simp only [place, evaluateKind, Runs.endsIn_seq_none] at completes
    rw [walkAssign]
    have checked := live_of_record
      (Walk.record_checkArrayAccess env walk base (mode.elementSpan span)) live
    rcases completes with ⟨⟨contained, indexed⟩, -⟩ | ⟨evaluated, indexed⟩
    · exact live_optional index paced.2.2 indexed
        (live_store types base.span base paced.2.1 (.inl contained) checked)
    · have based := live_store types base.span base paced.2.1 (.inr evaluated) checked
      exact live_index env paced.1 indexed based fun complete =>
        live_optional index paced.2.2 complete based
  | list items | array items =>
    rw [store, evaluateKind] at completes
    rw [walkAssign]
    exact live_pattern types 0 items paced.2 (completes.imp_left And.right) live
  | property object name nullsafe =>
    simp only [place, evaluateKind, Runs.endsIn_seq_none] at completes
    rw [walkAssign]
    exact live_expr object paced.2 (completes.elim And.left And.left)
      (live_of_record (record_assignOwnProperty env walk.impure types object name) live)
  | staticProperty ref name =>
    simp only [place, evaluateKind, Runs.endsIn_seq_none] at completes
    rw [walkAssign]
    exact live_ref ref paced.2 (completes.elim And.left And.left)
      (live_of_record (record_assignOwnStatic env walk.impure types ref name) live)
  | _ =>
    simp only [place] at completes
    simpa only [walkAssign] using read (completes.elim And.left id)

theorem live_pattern (types : TypeSet) (position : Nat) (items : List Item)
    (paced : everyItem (pacesExits env) items = true)
    (completes : (storeItems env items).EndsIn none ∨ (evaluateItems env items).EndsIn none)
    {walk : Walk} (live : walk.Live) : (walkPattern env types position items walk).Live := by
  cases items with
  | nil => rwa [walkPattern_nil]
  | cons item rest =>
    cases item with
    | skip =>
      rw [storeItems, evaluateItems] at completes
      rw [walkPattern]
      exact live_pattern types position rest paced completes live
    | entry key value byRef unpack =>
      simp only [everyItem, Bool.and_eq_true] at paced
      simp only [storeItems, evaluateItems, Runs.endsIn_seq_none] at completes
      have keyed : (evaluateOptional env key).EndsIn none :=
        completes.elim (·.1.1) (·.1.1)
      rw [walkPattern]
      have bound := live_of_record (record_shareSlot (walkOptional env key walk) byRef value)
        (live_optional key paced.1.1 keyed live)
      exact live_pattern types (position + 1) rest paced.2 (completes.imp And.right And.right)
        (live_assign .plain _ value paced.1.2
          (completes.imp (fun stored => ⟨stored.1.2.1, stored.1.2.2.2⟩) (·.1.2)) bound)

theorem live_store (types : TypeSet) (outer : Span) (base : Expr)
    (paced : everyExpr (pacesExits env) base = true)
    (completes : (container env base).EndsIn none ∨ (evaluate env base).EndsIn none)
    {walk : Walk} (live : walk.Live) : (walkStore env types outer base walk).Live := by
  obtain ⟨kind, span⟩ := base
  simp only [everyExpr, Bool.and_eq_true] at paced
  rw [evaluate] at completes
  have read (completes : (evaluateKind env span kind).EndsIn none) {walk : Walk}
      (live : walk.Live) : (walkKind env span kind walk).Live :=
    live_kind kind span paced.1 paced.2 completes live
  cases kind with
  | paren inner =>
    rw [container_paren, evaluateKind_paren] at completes
    rw [walkStore_paren]
    exact live_store types outer inner paced.2 completes live
  | var name =>
    rw [walkStore]
    exact live_of_record (record_storeInVar ..) live
  | element base index =>
    simp only [everyOperand, Bool.and_eq_true] at paced
    simp only [container, evaluateKind, Runs.endsIn_seq_none] at completes
    rw [walkStore]
    have checked := live_of_record (Walk.record_checkArrayAccess env walk base outer) live
    rcases completes with ⟨contained, indexed⟩ | ⟨evaluated, indexed⟩
    · exact live_optional index paced.2.2 indexed
        (live_store types.inArray base.span base paced.2.1 (.inl contained) checked)
    · have based := live_store types.inArray base.span base paced.2.1 (.inr evaluated) checked
      exact live_index env paced.1 indexed based fun complete =>
        live_optional index paced.2.2 complete based
  | property | staticProperty =>
    simp only [container, or_self] at completes
    simpa only [walkStore] using read completes (show walk.impure.Live from live)
  | _ =>
    simp only [container, or_self] at completes
    simpa only [walkStore] using read completes live

theorem live_shared (value : Expr) (paced : everyExpr (pacesExits env) value = true)
    (completes : (bindReference env value).EndsIn none) {walk : Walk} (live : walk.Live) :
    (walkShared env value walk).Live := by
  obtain ⟨kind, span⟩ := value
  simp only [everyExpr, Bool.and_eq_true] at paced
  have read (completes : (evaluateKind env span kind).EndsIn none) :=
    live_kind kind span paced.1 paced.2 completes live
  cases kind with
  | paren inner =>
    rw [bindReference_paren] at completes
    rw [walkShared_paren]
    exact live_shared inner paced.2 completes live
  | var name =>
    rw [walkShared]
    exact live_of_record (record_shareVar ..) live
  | _ =>
    simp only [bindReference] at completes
    simpa only [walkShared] using read completes

/-- The walk may know parameters that the runs do not. -/
theorem live_args (params passed : Option (List ParamInfo)) (position : Nat) (args : List Arg)
    (paced : everyArg (pacesExits env) args = true) (known : passed = params ∨ passed = none)
    (completes : (evaluateArgs env passed position args).EndsIn none) {walk : Walk}
    (live : walk.Live) : (walkArgs env params position args walk).Live := by
  cases args with
  | nil => rwa [walkArgs_nil]
  | cons arg rest =>
    obtain ⟨value, unpack, label⟩ := arg
    simp only [everyArg, Bool.and_eq_true] at paced
    simp only [evaluateArgs, Runs.endsIn_seq_none] at completes
    rw [walkArgs]
    refine live_args params passed (position + 1) rest paced.2 known completes.2 ?_
    split
    · next param byRef =>
      refine live_passed param value.span value paced.1 ?_ live
      rcases known with rfl | rfl
      · rw [byRef] at completes
        exact .inl completes.1
      · exact .inr completes.1
    · next byValue =>
      refine live_expr value paced.1 ?_ live
      rcases known with rfl | rfl
      · rw [byValue] at completes
        exact completes.1
      · exact completes.1

theorem live_passed (param : ParamInfo) (outer : Span) (value : Expr)
    (paced : everyExpr (pacesExits env) value = true)
    (completes : (Execution.pass env value).EndsIn none ∨ (evaluate env value).EndsIn none)
    {walk : Walk} (live : walk.Live) : (walkPassed env param outer value walk).Live := by
  obtain ⟨kind, span⟩ := value
  simp only [everyExpr, Bool.and_eq_true] at paced
  rw [evaluate] at completes
  have read (completes : (evaluateKind env span kind).EndsIn none) :=
    live_kind kind span paced.1 paced.2 completes live
  cases kind with
  | paren inner =>
    rw [Execution.pass_paren, evaluateKind_paren] at completes
    rw [walkPassed_paren]
    exact live_passed param outer inner paced.2 completes live
  | var name =>
    rw [walkPassed]
    exact live_of_record (record_passVar ..) live
  | element base index =>
    simp only [everyOperand, Bool.and_eq_true] at paced
    simp only [Execution.pass, evaluateKind, Runs.endsIn_seq_none] at completes
    rw [walkPassed]
    have checked := live_of_record (Walk.record_checkArrayAccess env walk base outer) live
    rcases completes with ⟨⟨contained, indexed⟩, -⟩ | ⟨evaluated, indexed⟩
    · exact live_optional index paced.2.2 indexed
        (live_store .mixed base.span base paced.2.1 (.inl contained) checked)
    · have based := live_store .mixed base.span base paced.2.1 (.inr evaluated) checked
      exact live_index env paced.1 indexed based fun complete =>
        live_optional index paced.2.2 complete based
  | _ =>
    simp only [Execution.pass, or_self] at completes
    simpa only [walkPassed] using read completes

theorem live_compactArgs (args : List Arg) (paced : everyArg (pacesExits env) args = true)
    (completes : (evaluateCompactArgs env args).EndsIn none) {walk : Walk} (live : walk.Live) :
    (walkCompactArgs env args walk).Live := by
  cases args with
  | nil => rwa [walkCompactArgs_nil]
  | cons arg rest =>
    obtain ⟨value, unpack, label⟩ := arg
    simp only [everyArg, Bool.and_eq_true] at paced
    simp only [evaluateCompactArgs, Runs.endsIn_seq_none] at completes
    rw [walkCompactArgs]
    exact live_compactArgs rest paced.2 completes.2
      (live_compact value.span value paced.1 completes.1 live)

theorem live_compact (outer : Span) (value : Expr)
    (paced : everyExpr (pacesExits env) value = true)
    (completes : (evaluateCompact env value).EndsIn none) {walk : Walk} (live : walk.Live) :
    (walkCompact env outer value walk).Live := by
  obtain ⟨kind, span⟩ := value
  simp only [everyExpr, Bool.and_eq_true] at paced
  have read (completes : (evaluateKind env span kind).EndsIn none) :=
    live_kind kind span paced.1 paced.2 completes live
  cases kind with
  | paren inner =>
    rw [evaluateCompact_paren] at completes
    rw [walkCompact_paren]
    exact live_compact outer inner paced.2 completes live
  | string value =>
    cases value with
    | none =>
      simp only [evaluateCompact] at completes
      simpa only [walkCompact] using read completes
    | some name =>
      rw [walkCompact]
      exact live_of_record (by simp) live
  | array items =>
    rw [evaluateCompact] at completes
    rw [walkCompact]
    exact live_compactItems items paced.2 completes live
  | _ =>
    simp only [evaluateCompact] at completes
    simpa only [walkCompact] using read completes

theorem live_compactItems (items : List Item) (paced : everyItem (pacesExits env) items = true)
    (completes : (evaluateCompactItems env items).EndsIn none) {walk : Walk} (live : walk.Live) :
    (walkCompactItems env items walk).Live := by
  cases items with
  | nil => rwa [walkCompactItems_nil]
  | cons item rest =>
    cases item with
    | skip =>
      rw [evaluateCompactItems] at completes
      rw [walkCompactItems]
      exact live_compactItems rest paced completes live
    | entry key value byRef unpack =>
      simp only [everyItem, Bool.and_eq_true] at paced
      simp only [evaluateCompactItems, Runs.endsIn_seq_none] at completes
      rw [walkCompactItems]
      exact live_compactItems rest paced.2 completes.2
        (live_compact value.span value paced.1.2 completes.1 live)

end

theorem live_exprs (values : List Expr) (paced : values.all (everyExpr (pacesExits env)) = true)
    (completes : (evaluateAll env values).EndsIn none) {walk : Walk} (live : walk.Live) :
    (walkExprs env values walk).Live := by
  induction values generalizing walk with
  | nil => rwa [walkExprs_nil]
  | cons value rest inductionHypothesis =>
    simp only [List.all_cons, Bool.and_eq_true] at paced
    simp only [evaluateAll, Runs.endsIn_seq_none] at completes
    rw [walkExprs]
    exact inductionHypothesis paced.2 completes.2
      (live_expr env value paced.1 completes.1 live)

/-! ### Conditions -/

/-- Control reaches the true outcome of a condition that some run completes. -/
theorem live_test (negated inLogic : Bool) (test : Expr)
    (paced : everyExpr (pacesExits env) test = true) (completes : (evaluate env test).EndsIn none)
    (guard : Guard) (live : guard.walk.Live) :
    (walkTest env negated inLogic test guard).walk.Live := by
  obtain ⟨kind, span⟩ := test
  simp only [everyExpr, Bool.and_eq_true] at paced
  rw [evaluate] at completes
  have read := live_kind env kind span paced.1 paced.2 completes live
  cases kind with
  | paren inner =>
    rw [evaluateKind_paren] at completes
    rw [walkTest_paren]
    exact live_test negated inLogic inner paced.2 completes guard live
  | binary op left right =>
    cases op with
    | and | or =>
      simp only [everyOperand, Bool.and_eq_true] at paced
      simp only [evaluateKind, Runs.endsIn_seq_none] at completes
      rw [walkTest]
      exact live_test negated true left paced.2.1 completes.1 guard live
    | _ => simpa only [walkTest, Guard.mapWalk] using read
  | unary op operand =>
    cases op with
    | not =>
      simp only [evaluateKind, Runs.endsIn_seq_none] at completes
      rw [walkTest]
      exact live_test _ inLogic operand paced.2 completes.1.1 _
        (live_of_record (guard.record_markNotEmpty negated operand) live)
    | _ => simpa only [walkTest, Guard.mapWalk] using read
  | isset values =>
    rw [walkTest]
    rw [evaluateKind] at completes
    exact live_probes env values paced.1 paced.2 completes
      (live_of_record (guard.record_markIsset negated values) live)
  | instanceOf subject ref =>
    rw [walkKind] at read
    rw [walkTest]
    exact live_of_record (Guard.record_narrowTo ..) read
  | _ => simpa only [walkTest, Guard.mapWalk] using read

/-! ### Expressions that end the block -/

/--
An expression ends the block only if it cannot complete. If the walk of an expression starts in a block
that was not left and ends in one that was, no run of the expression completes.
-/
theorem expressions_end_blocks (expr : Expr)
    (paced : everyExpr (pacesExits env) expr = true) (walk : Walk)
    (fresh : walk.block.exits = .none) (left : (walkExpr env expr walk).block.exits ≠ .none) :
    ∀ run ∈ evaluate env expr, run.exit ≠ none := by
  intro run member completes
  have live : walk.Live := by
    unfold Walk.Live Walk.record Block.record
    rw [fresh]
    rfl
  exact left (eq_of_beq (live_expr env expr paced ⟨run, member, completes⟩ live))

/-- `$a?->m($b)[isset($a)] = ($a ? $b : exit) . (throw $e)`, of which `throw` is sure. -/
def thrownOperand : Expr :=
  let node (kind : ExprKind) : Expr := ⟨kind, ⟨0, 1⟩⟩
  let var (name : String) : Expr := node (.var name)
  let called : Expr := node (.methodCall (var "$a") (some "m") [⟨var "$b", false, none⟩] true)
  node (.assign (node (.element called (some (node (.isset [var "$a"])))))
    (node (.binary .concat (node (.ternary (var "$a") (some (var "$b")) (node (.exit false []))))
      (node (.throw (var "$e"))))) .assign false)

/-- An operand that may be skipped is not, and the last one throws. -/
theorem expressions_end_blocks_thrownOperand :
    let env : Env := { (default : Env) with index := { complete := true } }
    (walkExpr env thrownOperand (.start .empty { enabled := true })).block.exits ≠ .none ∧
      ∀ run ∈ evaluate env thrownOperand, run.exit ≠ none := by
  intro env
  have left : (walkExpr env thrownOperand (.start .empty { enabled := true })).block.exits ≠
      .none := by
    decide
  exact ⟨left, expressions_end_blocks env thrownOperand (by decide)
    (.start .empty { enabled := true }) rfl left⟩

/-- `$a ??= exit`, `$a?->m(exit)` and `isset($a, $b[exit])` -/
def skippedExits : List Expr :=
  let node (kind : ExprKind) : Expr := ⟨kind, ⟨0, 1⟩⟩
  let exit : Expr := node (.exit false [])
  [node (.assign (node (.var "$a")) exit .coalesce false),
    node (.methodCall (node (.var "$a")) (some "m") [⟨exit, false, none⟩] true),
    node (.isset [node (.var "$a"), node (.element (node (.var "$b")) (some exit))])]

/-- An operand that is skipped leaves the block if it is walked as if it were evaluated. -/
theorem skippedExits_complete :
    (∀ expr ∈ skippedExits,
      (walkExpr default expr (.start .empty { enabled := true })).block.exits ≠ .none) ∧
    ∀ expr ∈ skippedExits, ∃ run ∈ evaluate default expr, run.exit = none := by
  refine ⟨by decide, fun expr member => ?_⟩
  show Runs.EndsIn _ none
  simp only [skippedExits, List.mem_cons, List.not_mem_nil, or_false] at member
  rcases member with rfl | rfl | rfl <;>
    simp [evaluate, evaluateKind, Execution.read, probe, probeAll, unlessCutOff, mayCutOff]

end Flow

end PhpAudit
