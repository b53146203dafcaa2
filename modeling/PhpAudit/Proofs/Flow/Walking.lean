/-
This file states once how the walk over an expression is put together from single steps, as an
induction principle. A relation between the states before and after that holds of every single step,
composes, and allows for operands that may be skipped holds of the walk over a whole expression.

Some steps depend on the code: reads and writes on the variables in it, exits on what is called. So
the principle is about code whose nodes are accepted, and a relation has to hold of a step only where
an accepted node takes it. What a condition does to the blocks of its outcomes is a relation of its own.
-/

import PhpAudit.Flow.Body
import PhpAudit.Proofs.Syntax.Every

namespace PhpAudit

/-! ### Steps that leave the block alone -/

section

variable (env : Env) (walk : Walk)

theorem Walk.block_checkArrayAccess (base : Expr) (span : Span) :
    (walk.checkArrayAccess env base span).block = walk.block := by
  unfold checkArrayAccess
  dsimp only
  split
  · split <;> rfl
  · rfl

namespace Flow

theorem block_shareSlot (byRef : Bool) (value : Expr) :
    (shareSlot byRef value walk).block = walk.block := by
  unfold shareSlot
  split <;> rfl

theorem block_assignOwnProperty (types : TypeSet) (object : Expr) (name : Option String) :
    (assignOwnProperty env types object name walk).block = walk.block := by
  unfold assignOwnProperty
  split
  · split <;> rfl
  · rfl

theorem block_assignOwnStatic (types : TypeSet) (ref : ClassRef) (name : Option String) :
    (assignOwnStatic env types ref name walk).block = walk.block := by
  unfold assignOwnStatic
  split
  · split <;> rfl
  · rfl

theorem block_tolerate (function : String) : (tolerate function walk).block = walk.block := by
  unfold tolerate
  split <;> rfl

theorem block_beforeCall (function : String) (callee : Option FunctionInfo) :
    (let after := tolerate function walk
    if callee.any (·.isPure) then after else after.impure).block = walk.block := by
  dsimp only
  split <;> exact block_tolerate walk function

theorem block_captures (captures : List Capture) (state : Walk × Scope) :
    (captures.foldl (capture env) state).1.block = state.1.block := by
  induction captures generalizing state with
  | nil => rfl
  | cons captured rest inductionHypothesis =>
    rw [List.foldl_cons, inductionHypothesis]
    unfold capture
    dsimp only
    split <;> split <;> rfl

theorem block_untrackAll (names : List String) :
    (names.foldl (fun walk name => walk.untrack env name) walk).block = walk.block := by
  induction names generalizing walk with
  | nil => rfl
  | cons name rest inductionHypothesis => rw [List.foldl_cons, inductionHypothesis]; rfl

end Flow

end

/-! ### Variables of a node -/

/-- The variables that the node of an expression reads. The texts in a call of `compact` are names. -/
def ExprKind.reads : ExprKind → List String
  | .var name => [name]
  | .dynamicVar reads | .interpolated reads | .unmodeled reads | .print reads | .exit _ reads => reads
  | .string (some text) => ["$" ++ text]
  | _ => []

/-- The arguments of a call. -/
def ExprKind.args : ExprKind → List Arg
  | .call _ args | .callValue _ args | .methodCall _ _ args _ | .staticCall _ _ args
  | .new _ args => args
  | _ => []

namespace Flow

/-- Whether a value put into the container may be stored into the variable. -/
def storesInto (name : String) : Expr → Bool
  | ⟨.paren inner, _⟩ => storesInto name inner
  | ⟨.var other, _⟩ => other == name
  | ⟨.element base _, _⟩ => storesInto name base
  | _ => false

mutual

/-- Whether an assignment to the target stores into the variable. -/
def storesTo (name : String) : Expr → Bool
  | ⟨kind, _⟩ =>
    match kind with
    | .var other => other == name
    | .paren inner => storesTo name inner
    | .element base _ => storesInto name base
    | .list items | .array items => storesToSlot name items
    | _ => false

def storesToSlot (name : String) : List Item → Bool
  | [] => false
  | .skip :: rest => storesToSlot name rest
  | .entry _ value _ _ :: rest => storesTo name value || storesToSlot name rest

end

/-- Whether the argument is an element of the variable: by reference, the element is created. -/
def storesElement (name : String) (arg : Arg) : Bool :=
  match arg.value.unparen.kind with
  | .element base _ => storesInto name base
  | _ => false

/-! ### Single steps -/

/--
The relation `holds` of every step that the walk over accepted nodes takes, and `tested` of the steps
of conditions. Nodes need to be accepted only if something is `given`; `stores` are the variables that
assignments and elements passed by reference store into.
-/
structure Steps (env : Env) (given : Prop) (accepts : ExprKind → Bool) (stores : String → Prop)
    (holds : Walk → Walk → Prop) (tested : Guard → Guard → Prop) : Prop where
  /-- Notes, reports and captures leave the block alone. -/
  still {first second : Walk} : second.block = first.block → holds first second
  trans {first second third : Walk} : holds first second → holds second third → holds first third
  skip {walk : Walk} {operand : Walk → Walk} :
    holds walk (operand walk) → holds walk (walk.conditionally operand)
  read {kind : ExprKind} (own : given → accepts kind = true) {name : String}
    (member : name ∈ kind.reads) (span : Span) (walk : Walk) : holds walk (walk.read env name span)
  assign {name : String} (own : given → accepts (.var name) = true) (stored : stores name)
    (mode : AssignMode) (types : TypeSet) (span : Span) (walk : Walk) :
    holds walk (assignVar env mode types name span walk)
  store {name : String} (own : given → accepts (.var name) = true) (stored : stores name)
    (types : TypeSet) (span : Span) (walk : Walk) :
    holds walk (storeInVar env types name span walk)
  pass {name : String} (own : given → accepts (.var name) = true) (param : ParamInfo)
    (walk : Walk) : holds walk (passVar env param name walk)
  share {name : String} (own : given → accepts (.var name) = true) (walk : Walk) :
    holds walk (shareVar env name walk)
  target {target value : Expr} {op : AssignOp} {byRef : Bool}
    (own : given → accepts (.assign target value op byRef) = true) {name : String} :
    storesTo name target = true → stores name
  element {kind : ExprKind} (own : given → accepts kind = true) {arg : Arg}
    (member : arg ∈ kind.args) {name : String} : storesElement name arg = true → stores name
  exit {die : Bool} {reads : List String} (own : given → accepts (.exit die reads) = true)
    (walk : Walk) : holds walk (walk.leave .byDie)
  throw {exception : Expr} (own : given → accepts (.throw exception) = true) (walk : Walk) :
    holds walk (walk.leave .byThrow)
  callee {name : String} {args : List Arg} (own : given → accepts (.call name args) = true)
    (other : (globalName env name == "\\compact") = false) {info : FunctionInfo}
    (found : callee? env name = some info) (walk : Walk) :
    holds walk (walk.leaveByCallee env info.exits)
  fatal {name : String} {args : List Arg} (own : given → accepts (.call name args) = true)
    (other : (globalName env name == "\\compact") = false)
    (raised : (isFatalError (globalName env name) args && !env.options.ignoreTriggerError) = true)
    (walk : Walk) : holds walk (walk.leave .byDie)
  method {object : Expr} {method : Option String} {args : List Arg} {nullsafe : Bool}
    (own : given → accepts (.methodCall object method args nullsafe) = true) (before walk : Walk) :
    holds walk (walk.leaveByFound env (method.bind (before.lookupMethodOf? env object)))
  static {ref : ClassRef} {method : Option String} {args : List Arg}
    (own : given → accepts (.staticCall ref method args) = true) (walk : Walk) :
    holds walk (walk.leaveByFound env (staticCallee? env ref method))
  /-- The branches of a conditional expression are walked in blocks of their own, and joined. -/
  ternary {walk : Walk} {guard : Guard} {yes no : Walk → Walk}
    (test : tested (.start walk []) guard) (inYes : ∀ walk, holds walk (yes walk))
    (inNo : ∀ walk, holds walk (no walk)) :
    holds walk (
      let split := guard.split walk.block
      let (yesBlock, afterYes) := split.walk.within split.yes yes
      let (noBlock, afterNo) := afterYes.within split.no no
      closeTernary walk.scope yesBlock noBlock split.markers afterNo)
  testTrans {first second third : Guard} :
    tested first second → tested second third → tested first third
  testSkip {guard : Guard} {operand : Guard → Guard} :
    tested guard (operand guard) → tested guard (guard.conditionally operand)
  testWalk {guard : Guard} {steps : Walk → Walk} :
    holds guard.walk (steps guard.walk) → tested guard (guard.mapWalk steps)
  notEmpty {operand : Expr} (every : given → everyExpr accepts operand = true) (negated : Bool)
    (guard : Guard) : tested guard (guard.markNotEmpty negated operand)
  isset {values : List Expr} (every : given → everyIn accepts values = true) (negated : Bool)
    (guard : Guard) : tested guard (guard.markIsset negated values)
  narrow {subject : Expr} (every : given → everyExpr accepts subject = true) (ref : ClassRef)
    (negated inLogic : Bool) (guard : Guard) :
    tested guard (guard.narrowTo env.naming subject ref negated inLogic)

/-! ### Whole expressions -/

-- the hypothesis is used by the theorems of a mutual block together, not by each of them
set_option linter.unusedSectionVars false

namespace Steps

variable {env : Env} {given : Prop} {accepts : ExprKind → Bool} {stores : String → Prop}
  {holds : Walk → Walk → Prop} {tested : Guard → Guard → Prop}
  (steps : Steps env given accepts stores holds tested)

include steps

theorem refl (walk : Walk) : holds walk walk :=
  steps.still rfl

theorem of_impure {walk after : Walk} (next : holds walk.impure after) : holds walk after := by
  have quiet : holds walk walk.impure := steps.still rfl
  exact steps.trans quiet next

theorem readAll {kind : ExprKind} (own : given → accepts kind = true) {names : List String}
    (members : names ⊆ kind.reads) (span : Span) (walk : Walk) :
    holds walk (walk.readAll env names span) := by
  unfold Walk.readAll
  induction names generalizing walk with
  | nil => exact steps.refl walk
  | cons name rest inductionHypothesis =>
    obtain ⟨member, others⟩ := List.cons_subset.mp members
    exact steps.trans (steps.read own member span walk) (inductionHypothesis others _)

/-- The end of a call by name: the callee and a fatal error may leave the block. -/
theorem afterCall {name : String} {args : List Arg}
    (own : given → accepts (.call name args) = true)
    (other : (globalName env name == "\\compact") = false) (walk : Walk) :
    holds walk (
      let after := match callee? env name with
        | some info => walk.leaveByCallee env info.exits
        | none => walk
      if isFatalError (globalName env name) args && !env.options.ignoreTriggerError then
        after.leave .byDie
      else after) := by
  have left : holds walk (match callee? env name with
      | some info => walk.leaveByCallee env info.exits
      | none => walk) := by
    split
    · next info found => exact steps.callee own other found walk
    · exact steps.refl walk
  dsimp only
  split
  · next raised => exact steps.trans left (steps.fatal own other raised _)
  · exact left

mutual

theorem holds_expr (value : Expr) (every : given → everyExpr accepts value = true) (walk : Walk) :
    holds walk (walkExpr env value walk) := by
  obtain ⟨kind, span⟩ := value
  simp only [everyExpr, Bool.and_eq_true, forall_and] at every
  rw [walkExpr]
  exact holds_kind span kind every.1 every.2 walk

theorem holds_kind (span : Span) (kind : ExprKind) (own : given → accepts kind = true)
    (parts : given → everyOperand accepts kind = true) (walk : Walk) :
    holds walk (walkKind env span kind walk) := by
  rw [walkKind.eq_def]
  cases kind with
  | var name => exact steps.read own (List.mem_singleton_self name) span walk
  | dynamicVar reads | interpolated reads | unmodeled reads =>
    exact steps.readAll own (List.Subset.refl reads) span walk
  | print reads =>
    exact steps.of_impure (steps.readAll own (List.Subset.refl reads) span walk.impure)
  | exit die reads =>
    exact steps.of_impure (steps.trans
      (steps.readAll own (List.Subset.refl reads) span walk.impure) (steps.exit own _))
  | paren inner | clone inner | unary _ inner | property inner _ _ =>
    exact holds_expr inner parts walk
  | includeFile inner | yieldFrom inner =>
    exact steps.of_impure (holds_expr inner parts walk.impure)
  | throw inner => exact steps.trans (holds_expr inner parts walk) (steps.throw own _)
  | isEmpty inner => exact holds_probe inner parts walk
  | isset values => exact holds_probes values parts walk
  | array items | list items => exact holds_items items parts walk
  | element base index =>
    simp only [everyOperand, Bool.and_eq_true, forall_and] at parts
    exact steps.trans (steps.still (walk.block_checkArrayAccess env base span))
      (steps.trans (holds_expr base parts.1 _) (holds_optional index parts.2 _))
  | assign target value op byRef =>
    simp only [everyOperand, Bool.and_eq_true, forall_and] at parts
    have stored (name : String) (found : storesTo name target = true) : stores name :=
      steps.target own found
    cases byRef with
    | true =>
      exact steps.trans (holds_shared value parts.2 walk)
        (holds_assign _ _ target stored parts.1 _)
    | false =>
      have valued := holds_expr value parts.2 walk
      cases op <;> exact steps.trans valued (holds_assign _ _ target stored parts.1 _)
  | binary op left right =>
    simp only [everyOperand, Bool.and_eq_true, forall_and] at parts
    have rightWalked (walk : Walk) := holds_expr right parts.2 walk
    cases op with
    | coalesce => exact steps.trans (holds_probe left parts.1 walk) (steps.skip (rightWalked _))
    | and | or | lowOr =>
      exact steps.trans (holds_expr left parts.1 walk) (steps.skip (rightWalked _))
    | _ => exact steps.trans (holds_expr left parts.1 walk) (rightWalked _)
  | instanceOf subject ref =>
    simp only [everyOperand, Bool.and_eq_true, forall_and] at parts
    exact steps.trans (holds_expr subject parts.1 walk) (holds_ref ref parts.2 _)
  | ternary test yes no =>
    simp only [everyOperand, Bool.and_eq_true, forall_and] at parts
    cases yes with
    | none =>
      exact steps.trans (holds_expr test parts.1.1 walk) (steps.skip (holds_expr no parts.2 _))
    | some yes =>
      exact steps.ternary (tested_test false false test parts.1.1 _)
        (fun walk => holds_expr yes parts.1.2 walk) (fun walk => holds_expr no parts.2 walk)
  | call name args =>
    simp only [everyOperand] at parts
    dsimp only
    split
    · exact holds_compactArgs args parts walk
    · next other =>
      have other := Bool.not_eq_true _ ▸ other
      exact steps.trans (steps.still (block_beforeCall walk (globalName env name)
        (callee? env name))) (steps.trans
          (holds_args _ 0 args (fun arg member name => steps.element own member) parts _)
          (steps.afterCall own other _))
  | callValue function args =>
    simp only [everyOperand, Bool.and_eq_true, forall_and] at parts
    exact steps.of_impure (steps.trans (holds_expr function parts.1 walk.impure)
      (holds_args none 0 args (fun arg member name => steps.element own member) parts.2 _))
  | methodCall object method args nullsafe =>
    simp only [everyOperand, Bool.and_eq_true, forall_and] at parts
    exact steps.of_impure (steps.trans (holds_expr object parts.1 walk.impure)
      (steps.trans (holds_args _ 0 args (fun arg member name => steps.element own member) parts.2 _)
        (steps.method own _ _)))
  | staticCall ref method args =>
    simp only [everyOperand, Bool.and_eq_true, forall_and] at parts
    exact steps.of_impure (steps.trans (holds_ref ref parts.1 walk.impure)
      (steps.trans (holds_args _ 0 args (fun arg member name => steps.element own member) parts.2 _)
        (steps.static own _)))
  | new ref args =>
    simp only [everyOperand, Bool.and_eq_true, forall_and] at parts
    exact steps.of_impure (steps.trans (holds_ref ref parts.1 walk.impure)
      (holds_args _ 0 args (fun arg member name => steps.element own member) parts.2 _))
  | staticProperty ref name | classConstant ref name => exact holds_ref ref parts walk
  | closure params captures hint isStatic body =>
    exact steps.still (block_captures env captures (walk, _))
  | arrow params hint isStatic body => exact steps.still (block_untrackAll env _ _)
  | matchOn subject arms =>
    simp only [everyOperand, Bool.and_eq_true, forall_and] at parts
    exact steps.trans (holds_expr subject parts.1 walk) (holds_arms arms parts.2 _)
  | yield key value =>
    simp only [everyOperand, Bool.and_eq_true, forall_and] at parts
    exact steps.of_impure (steps.trans (holds_optional key parts.1 walk.impure)
      (holds_optional value parts.2 _))
  | integer | float | string | boolean | null | magic | constant => exact steps.refl walk

theorem holds_optional (value : Option Expr) (every : given → everyOptional accepts value = true)
    (walk : Walk) : holds walk (walkOptional env value walk) := by
  cases value with
  | none => rw [walkOptional_none]; exact steps.refl walk
  | some value =>
    rw [walkOptional]
    exact holds_expr value every walk

theorem holds_conditionals (values : List Expr) (every : given → everyIn accepts values = true)
    (walk : Walk) : holds walk (walkConditionals env values walk) := by
  cases values with
  | nil => rw [walkConditionals_nil]; exact steps.refl walk
  | cons value rest =>
    simp only [everyIn, Bool.and_eq_true, forall_and] at every
    rw [walkConditionals]
    exact steps.trans (steps.skip (holds_expr value every.1 walk))
      (holds_conditionals rest every.2 _)

theorem holds_items (items : List Item) (every : given → everyItem accepts items = true) (walk : Walk) :
    holds walk (walkItems env items walk) := by
  cases items with
  | nil => rw [walkItems_nil]; exact steps.refl walk
  | cons item rest =>
    cases item with
    | skip =>
      rw [walkItems]
      exact holds_items rest every walk
    | entry key value byRef unpack =>
      simp only [everyItem, Bool.and_eq_true, forall_and] at every
      rw [walkItems]
      exact steps.trans (steps.trans (holds_optional key every.1.1 walk)
        (holds_expr value every.1.2 _)) (holds_items rest every.2 _)

theorem holds_ref (ref : ClassRef) (every : given → everyRef accepts ref = true) (walk : Walk) :
    holds walk (walkRef env ref walk) := by
  cases ref with
  | dynamic value =>
    rw [walkRef]
    exact holds_expr value every walk
  | named | self | static | parent => rw [walkRef]; exact steps.refl walk

theorem holds_arms (arms : List MatchArm) (every : given → everyArm accepts arms = true) (walk : Walk) :
    holds walk (walkArms env arms walk) := by
  cases arms with
  | nil => rw [walkArms_nil]; exact steps.refl walk
  | cons arm rest =>
    obtain ⟨conditions, body⟩ := arm
    simp only [everyArm, Bool.and_eq_true, forall_and] at every
    rw [walkArms]
    exact steps.trans (steps.trans (holds_conditionals conditions every.1.1 walk)
      (steps.skip (holds_expr body every.1.2 _))) (holds_arms rest every.2 _)

theorem holds_probe (value : Expr) (every : given → everyExpr accepts value = true) (walk : Walk) :
    holds walk (walkProbe env value walk) := by
  obtain ⟨kind, span⟩ := value
  simp only [everyExpr, Bool.and_eq_true, forall_and] at every
  obtain ⟨own, parts⟩ := every
  have read := holds_kind span kind own parts walk
  rw [walkProbe.eq_def]
  cases kind with
  | paren inner => exact holds_probe inner parts walk
  | var name => exact steps.still rfl
  | element base index =>
    simp only [everyOperand, Bool.and_eq_true, forall_and] at parts
    exact steps.trans (holds_probe base parts.1 walk) (holds_optional index parts.2 _)
  | property object _ _ => exact holds_probe object parts walk
  | _ => exact read

theorem holds_probes (values : List Expr) (every : given → everyIn accepts values = true)
    (walk : Walk) : holds walk (walkProbes env values walk) := by
  cases values with
  | nil => rw [walkProbes_nil]; exact steps.refl walk
  | cons value rest =>
    simp only [everyIn, Bool.and_eq_true, forall_and] at every
    rw [walkProbes]
    exact steps.trans (holds_probe value every.1 walk) (holds_probes rest every.2 _)

theorem holds_assign (mode : AssignMode) (types : TypeSet) (target : Expr)
    (stored : ∀ name, storesTo name target = true → stores name)
    (every : given → everyExpr accepts target = true) (walk : Walk) :
    holds walk (walkAssign env mode types target walk) := by
  obtain ⟨kind, span⟩ := target
  simp only [everyExpr, Bool.and_eq_true, forall_and] at every
  obtain ⟨own, parts⟩ := every
  have read := holds_kind span kind own parts walk
  rw [walkAssign.eq_def]
  cases kind with
  | var name => exact steps.assign own (stored name (by simp [storesTo])) mode types span walk
  | paren inner =>
    simp only [storesTo] at stored
    exact holds_assign mode types inner stored parts walk
  | element base index =>
    simp only [storesTo] at stored
    simp only [everyOperand, Bool.and_eq_true, forall_and] at parts
    exact steps.trans (steps.still (walk.block_checkArrayAccess env base _)) (steps.trans
      (holds_store types base.span base stored parts.1 _) (holds_optional index parts.2 _))
  | list items | array items =>
    simp only [storesTo] at stored
    exact holds_pattern types 0 items stored parts walk
  | property object field nullsafe =>
    exact steps.trans (steps.still (block_assignOwnProperty env walk.impure types object field))
      (holds_expr object parts _)
  | staticProperty ref field =>
    exact steps.trans (steps.still (block_assignOwnStatic env walk.impure types ref field))
      (holds_ref ref parts _)
  | _ => exact read

theorem holds_pattern (types : TypeSet) (position : Nat) (items : List Item)
    (stored : ∀ name, storesToSlot name items = true → stores name)
    (every : given → everyItem accepts items = true) (walk : Walk) :
    holds walk (walkPattern env types position items walk) := by
  cases items with
  | nil => rw [walkPattern_nil]; exact steps.refl walk
  | cons item rest =>
    cases item with
    | skip =>
      rw [walkPattern]
      exact holds_pattern types position rest stored every walk
    | entry key value byRef unpack =>
      simp only [everyItem, Bool.and_eq_true, forall_and] at every
      simp only [storesToSlot, Bool.or_eq_true] at stored
      rw [walkPattern]
      exact steps.trans (steps.trans (steps.trans (holds_optional key every.1.1 walk)
        (steps.still (block_shareSlot _ byRef value)))
          (holds_assign .plain _ value (fun name found => stored name (.inl found)) every.1.2 _))
            (holds_pattern types (position + 1) rest (fun name found => stored name (.inr found))
              every.2 _)

theorem holds_store (types : TypeSet) (outer : Span) (base : Expr)
    (stored : ∀ name, storesInto name base = true → stores name)
    (every : given → everyExpr accepts base = true) (walk : Walk) :
    holds walk (walkStore env types outer base walk) := by
  obtain ⟨kind, span⟩ := base
  simp only [everyExpr, Bool.and_eq_true, forall_and] at every
  obtain ⟨own, parts⟩ := every
  have read (walk : Walk) := holds_kind span kind own parts walk
  rw [walkStore.eq_def]
  cases kind with
  | paren inner =>
    simp only [storesInto] at stored
    exact holds_store types outer inner stored parts walk
  | var name => exact steps.store own (stored name (by simp [storesInto])) types outer walk
  | element base index =>
    simp only [storesInto] at stored
    simp only [everyOperand, Bool.and_eq_true, forall_and] at parts
    exact steps.trans (steps.still (walk.block_checkArrayAccess env base outer)) (steps.trans
      (holds_store types.inArray base.span base stored parts.1 _) (holds_optional index parts.2 _))
  | property | staticProperty => exact steps.of_impure (read walk.impure)
  | _ => exact read walk

theorem holds_shared (value : Expr) (every : given → everyExpr accepts value = true) (walk : Walk) :
    holds walk (walkShared env value walk) := by
  obtain ⟨kind, span⟩ := value
  simp only [everyExpr, Bool.and_eq_true, forall_and] at every
  obtain ⟨own, parts⟩ := every
  have read := holds_kind span kind own parts walk
  rw [walkShared.eq_def]
  cases kind with
  | paren inner => exact holds_shared inner parts walk
  | var name => exact steps.share own walk
  | _ => exact read

theorem holds_args (params : Option (List ParamInfo)) (position : Nat) (args : List Arg)
    (stored : ∀ arg ∈ args, ∀ name, storesElement name arg = true → stores name)
    (every : given → everyArg accepts args = true) (walk : Walk) :
    holds walk (walkArgs env params position args walk) := by
  cases args with
  | nil => rw [walkArgs_nil]; exact steps.refl walk
  | cons arg rest =>
    obtain ⟨value, unpack, label⟩ := arg
    simp only [everyArg, Bool.and_eq_true, forall_and] at every
    have others := holds_args params (position + 1) rest
      (fun arg member => stored arg (List.mem_cons_of_mem _ member)) every.2
    rw [walkArgs]
    cases refParam? params position with
    | some param =>
      exact steps.trans (holds_passed param value.span value (stored _ List.mem_cons_self) every.1
        walk) (others _)
    | none => exact steps.trans (holds_expr value every.1 walk) (others _)

theorem holds_passed (param : ParamInfo) (outer : Span) (value : Expr)
    (stored : ∀ name, (match value.unparen.kind with
      | .element base _ => storesInto name base
      | _ => false) = true → stores name)
    (every : given → everyExpr accepts value = true) (walk : Walk) :
    holds walk (walkPassed env param outer value walk) := by
  obtain ⟨kind, span⟩ := value
  simp only [everyExpr, Bool.and_eq_true, forall_and] at every
  obtain ⟨own, parts⟩ := every
  have read := holds_kind span kind own parts walk
  rw [walkPassed.eq_def]
  cases kind with
  | paren inner =>
    simp only [Expr.unparen] at stored
    exact holds_passed param outer inner stored parts walk
  | var name => exact steps.pass own param walk
  | element base index =>
    simp only [Expr.unparen] at stored
    simp only [everyOperand, Bool.and_eq_true, forall_and] at parts
    exact steps.trans (steps.still (walk.block_checkArrayAccess env base outer)) (steps.trans
      (holds_store .mixed base.span base stored parts.1 _) (holds_optional index parts.2 _))
  | _ => exact read

theorem holds_compactArgs (args : List Arg) (every : given → everyArg accepts args = true)
    (walk : Walk) : holds walk (walkCompactArgs env args walk) := by
  cases args with
  | nil => rw [walkCompactArgs_nil]; exact steps.refl walk
  | cons arg rest =>
    obtain ⟨value, unpack, label⟩ := arg
    simp only [everyArg, Bool.and_eq_true, forall_and] at every
    rw [walkCompactArgs]
    exact steps.trans (holds_compact value.span value every.1 walk)
      (holds_compactArgs rest every.2 _)

theorem holds_compact (outer : Span) (value : Expr) (every : given → everyExpr accepts value = true)
    (walk : Walk) : holds walk (walkCompact env outer value walk) := by
  obtain ⟨kind, span⟩ := value
  simp only [everyExpr, Bool.and_eq_true, forall_and] at every
  obtain ⟨own, parts⟩ := every
  have read := holds_kind span kind own parts walk
  rw [walkCompact.eq_def]
  cases kind with
  | paren inner => exact holds_compact outer inner parts walk
  | string text =>
    cases text with
    | none => exact read
    | some text => exact steps.read own (List.mem_singleton_self _) outer walk
  | array items => exact holds_compactItems items parts walk
  | _ => exact read

theorem holds_compactItems (items : List Item) (every : given → everyItem accepts items = true)
    (walk : Walk) : holds walk (walkCompactItems env items walk) := by
  cases items with
  | nil => rw [walkCompactItems_nil]; exact steps.refl walk
  | cons item rest =>
    cases item with
    | skip =>
      rw [walkCompactItems]
      exact holds_compactItems rest every walk
    | entry key value byRef unpack =>
      simp only [everyItem, Bool.and_eq_true, forall_and] at every
      rw [walkCompactItems]
      exact steps.trans (holds_compact value.span value every.1.2 walk)
        (holds_compactItems rest every.2 _)

theorem tested_test (negated inLogic : Bool) (test : Expr)
    (every : given → everyExpr accepts test = true) (guard : Guard) :
    tested guard (walkTest env negated inLogic test guard) := by
  obtain ⟨kind, span⟩ := test
  simp only [everyExpr, Bool.and_eq_true, forall_and] at every
  obtain ⟨own, parts⟩ := every
  have read : tested guard (guard.mapWalk (walkKind env span kind)) :=
    steps.testWalk (holds_kind span kind own parts guard.walk)
  rw [walkTest.eq_def]
  cases kind with
  | paren inner => exact tested_test negated inLogic inner parts guard
  | binary op left right =>
    simp only [everyOperand, Bool.and_eq_true, forall_and] at parts
    cases op with
    | and | or =>
      exact steps.testTrans (tested_test negated true left parts.1 guard)
        (steps.testSkip (tested_test negated true right parts.2 _))
    | _ => exact read
  | unary op operand =>
    cases op with
    | not =>
      exact steps.testTrans (steps.notEmpty parts negated guard)
        (tested_test (!negated) inLogic operand parts _)
    | _ => exact read
  | isset values =>
    exact steps.testTrans (steps.isset parts negated guard)
      (steps.testWalk (holds_probes values parts _))
  | instanceOf subject ref =>
    simp only [everyOperand, Bool.and_eq_true, forall_and] at parts
    have operands : tested guard
        (guard.mapWalk fun walk => walkRef env ref (walkExpr env subject walk)) :=
      steps.testWalk (steps.trans (holds_expr subject parts.1 guard.walk)
        (holds_ref ref parts.2 _))
    exact steps.testTrans operands (steps.narrow parts.1 ref negated inLogic _)
  | _ => exact read

end

theorem holds_exprs (values : List Expr) (every : given → values.all (everyExpr accepts) = true)
    (walk : Walk) : holds walk (walkExprs env values walk) := by
  induction values generalizing walk with
  | nil => rw [walkExprs_nil]; exact steps.refl walk
  | cons value rest inductionHypothesis =>
    simp only [List.all_cons, Bool.and_eq_true, forall_and] at every
    rw [walkExprs]
    exact steps.trans (steps.holds_expr value every.1 walk) (inductionHypothesis every.2 _)

end Steps

end Flow

end PhpAudit
