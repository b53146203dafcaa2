/-
This file says once what an expression can do to the exits recorded for the block around it. The
walk over an expression may record an exit, and around an operand that can be skipped it may forget
one again; it does nothing else to the record. Everything about the exits of expressions follows
from this: an expression without `throw`, `exit` and callees that never return leaves the record
alone, and the exits that were possible before stay possible.
-/

import PhpAudit.Proofs.Execution.Semantics
import PhpAudit.Proofs.Flow.Receivers
import PhpAudit.Proofs.Flow.Walking

namespace PhpAudit

/-! ### Sets of exits -/

namespace Exits

instance : LE Exits := ⟨fun first second => first ∪ second = second⟩

theorem le_iff {first second : Exits} :
    first ≤ second ↔ (first.returns → second.returns) ∧ (first.breaks → second.breaks) ∧
      (first.continues → second.continues) ∧ (first.throws → second.throws) ∧
      (first.dies → second.dies) := by
  obtain ⟨_, _, _, _, _⟩ := first
  obtain ⟨_, _, _, _, _⟩ := second
  show union _ _ = _ ↔ _
  simp [union]

theorem le_refl (exits : Exits) : exits ≤ exits := by
  simp [le_iff]

theorem le_trans {first second third : Exits} (left : first ≤ second) (right : second ≤ third) :
    first ≤ third := by
  rw [le_iff] at *
  grind

theorem le_union_left (first second : Exits) : first ≤ first ∪ second := by
  simp only [le_iff]
  show _ ∧ _
  simp +contextual [Union.union, union]

end Exits

/-! ### The record of a block -/

/-- What a block records about its exits. -/
structure ExitRecord where
  exits : Exits
  possible : Exits

namespace ExitRecord

def leave (record : ExitRecord) (exits : Exits) : ExitRecord :=
  if record.exits.isEmpty then ⟨exits, record.possible ∪ exits⟩ else record

end ExitRecord

def Block.record (block : Block) : ExitRecord :=
  ⟨block.exits, block.possible⟩

def Walk.record (walk : Walk) : ExitRecord :=
  walk.block.record

/-- What the walk over an expression does to the record; exits are recorded only if it `leaves`. -/
inductive Drift (leaves : Prop) : ExitRecord → ExitRecord → Prop where
  | refl (record : ExitRecord) : Drift leaves record record
  | leave (allowed : leaves) (record : ExitRecord) (exits : Exits) :
    Drift leaves record (record.leave exits)
  | trans {first second third : ExitRecord} :
    Drift leaves first second → Drift leaves second third → Drift leaves first third
  /-- An operand that may be skipped -/
  | restore {first second : ExitRecord} :
    Drift leaves first second → Drift leaves first ⟨first.exits, second.possible⟩

namespace Drift

variable {leaves : Prop} {first second : ExitRecord}

theorem of_eq (equal : second = first) : Drift leaves first second := by
  rw [equal]
  exact refl first

/-- Without leaving nothing changes. -/
theorem eq_of_not (drift : Drift leaves first second) (stays : ¬ leaves) : second = first := by
  induction drift with
  | refl => rfl
  | leave allowed => exact absurd allowed stays
  | trans _ _ left right => exact right.trans left
  | restore _ inner => rw [inner]

/-- Possible exits stay possible. -/
theorem possible_le (drift : Drift leaves first second) : first.possible ≤ second.possible := by
  induction drift with
  | refl => exact Exits.le_refl _
  | leave _ record exits =>
    unfold ExitRecord.leave
    split
    · exact Exits.le_union_left _ _
    · exact Exits.le_refl _
  | trans _ _ left right => exact Exits.le_trans left right
  | restore _ inner => exact inner

end Drift

/-! ### Steps that keep the record -/

namespace Walk

variable (env : Env) (walk : Walk)

/-- Steps taken in turn keep the record if each of them does. -/
theorem record_foldl {Item : Type} {step : Walk → Item → Walk}
    (kept : ∀ walk item, (step walk item).record = walk.record) (items : List Item) :
    (items.foldl step walk).record = walk.record := by
  induction items generalizing walk with
  | nil => rfl
  | cons item rest inductionHypothesis => rw [List.foldl_cons, inductionHypothesis, kept]

@[simp]
theorem record_mapScope (change : Scope → Scope) :
    (walk.mapScope change).record = walk.record := rfl

@[simp]
theorem record_leave (exits : Exits) : (walk.leave exits).record = walk.record.leave exits := by
  unfold leave mapBlock Block.leave record ExitRecord.leave Block.record
  dsimp only
  split <;> rfl

@[simp]
theorem record_issue (span : Span) (severity : Severity) (check message : String) :
    (walk.issue env span severity check message).record = walk.record := rfl

@[simp]
theorem record_impure : walk.impure.record = walk.record := rfl

@[simp]
theorem record_untrack (name : String) : (walk.untrack env name).record = walk.record := rfl

@[simp]
theorem record_share (name : String) : (walk.share name).record = walk.record := rfl

@[simp]
theorem record_track (name : String) (span : Span) :
    (walk.track env name span).record = walk.record := by
  unfold track
  split
  · rfl
  · split <;> rfl

@[simp]
theorem record_checkDiscard (name : String) (span : Span) :
    (walk.checkDiscard env name span).record = walk.record := by
  unfold checkDiscard
  split <;> rfl

@[simp]
theorem record_readMissing (name : String) (span : Span) :
    (walk.readMissing env name span).record = walk.record := by
  simp only [readMissing, record_mapScope]
  split <;> rfl

@[simp]
theorem record_read (name : String) (span : Span) :
    (walk.read env name span).record = walk.record := by
  unfold read
  dsimp only
  split
  · simp
  · split <;> simp

@[simp]
theorem record_readAll (names : List String) (span : Span) :
    (walk.readAll env names span).record = walk.record :=
  record_foldl walk (fun walk name => record_read env walk name span) names

@[simp]
theorem record_checkArrayAccess (base : Expr) (span : Span) :
    (walk.checkArrayAccess env base span).record = walk.record :=
  congrArg Block.record (block_checkArrayAccess env walk base span)

@[simp]
theorem record_dropMarkers (markers : List String) :
    (walk.dropMarkers markers).record = walk.record := by
  refine record_foldl walk (fun walk name => ?_) markers
  split <;> rfl

@[simp]
theorem record_conditionally (operand : Walk → Walk) :
    (walk.conditionally operand).record = ⟨walk.record.exits, (operand walk).record.possible⟩ := rfl

end Walk

/-- An operand that may be skipped, walked after `walk`. -/
theorem Drift.conditionally {leaves : Prop} {walk : Walk} {operand : Walk → Walk}
    (drift : Drift leaves walk.record (operand walk).record) :
    Drift leaves walk.record (walk.conditionally operand).record := by
  rw [Walk.record_conditionally]
  exact .restore drift

/-- The expressions that never record an exit themselves. -/
def isQuiet : ExprKind → Bool
  | .exit .. | .throw _ | .call .. | .staticCall .. | .methodCall .. => false
  | _ => true

/-- The expressions that record no exit themselves because their callees may return, if they call. -/
def isCalm (env : Env) : ExprKind → Bool
  | .exit .. | .throw _ => false
  | .call name args =>
    Flow.globalName env name == "\\compact" || Execution.mayReturn env name args
  | .staticCall ref method _ => Execution.methodMayReturn (Flow.staticCallee? env ref method)
  | .methodCall _ method _ _ => method.all (methodsReturn env.index)
  | _ => true

theorem isCalm_of_isQuiet (env : Env) (kind : ExprKind) (quiet : isQuiet kind = true) :
    isCalm env kind = true := by
  cases kind with
  | exit | throw | call | staticCall | methodCall => cases quiet
  | _ => rfl

theorem calm_of_quiet {env : Env} {expr : Expr} (quiet : everyExpr isQuiet expr = true) :
    everyExpr (isCalm env) expr = true :=
  everyExpr_mono (isCalm_of_isQuiet env) expr quiet

theorem all_calm_of_quiet {env : Env} {values : List Expr}
    (quiet : values.all (everyExpr isQuiet) = true) :
    values.all (everyExpr (isCalm env)) = true :=
  all_mono (fun _ => calm_of_quiet) quiet

namespace Flow

variable (env : Env) (walk : Walk)

@[simp]
theorem record_assignVar (mode : AssignMode) (types : TypeSet) (name : String) (span : Span) :
    (assignVar env mode types name span walk).record = walk.record := by
  unfold assignVar
  cases mode <;> simp

@[simp]
theorem record_storeInVar (types : TypeSet) (name : String) (span : Span) :
    (storeInVar env types name span walk).record = walk.record := by
  unfold storeInVar
  split <;> simp

@[simp]
theorem record_passVar (param : ParamInfo) (name : String) :
    (passVar env param name walk).record = walk.record := rfl

@[simp]
theorem record_shareVar (name : String) : (shareVar env name walk).record = walk.record := by
  unfold shareVar
  dsimp only
  split <;> rfl

@[simp]
theorem record_shareSlot (byRef : Bool) (value : Expr) :
    (shareSlot byRef value walk).record = walk.record :=
  congrArg Block.record (block_shareSlot walk byRef value)

@[simp]
theorem record_assignOwnProperty (types : TypeSet) (object : Expr) (name : Option String) :
    (assignOwnProperty env types object name walk).record = walk.record :=
  congrArg Block.record (block_assignOwnProperty env walk types object name)

@[simp]
theorem record_assignOwnStatic (types : TypeSet) (ref : ClassRef) (name : Option String) :
    (assignOwnStatic env types ref name walk).record = walk.record :=
  congrArg Block.record (block_assignOwnStatic env walk types ref name)

@[simp]
theorem record_tolerate (function : String) : (tolerate function walk).record = walk.record :=
  congrArg Block.record (block_tolerate walk function)

@[simp]
theorem record_captures (captures : List Capture) (state : Walk × Scope) :
    (captures.foldl (capture env) state).1.record = state.1.record :=
  congrArg Block.record (block_captures env captures state)

@[simp]
theorem record_untrackAll (names : List String) :
    (names.foldl (fun walk name => walk.untrack env name) walk).record = walk.record :=
  congrArg Block.record (block_untrackAll env walk names)

@[simp]
theorem record_closeTernary (initial : Scope) (yes no : Block) (markers : List String) :
    (closeTernary initial yes no markers walk).record = walk.record := by
  simp only [closeTernary, Walk.record_dropMarkers]
  rfl

end Flow

/-! ### Conditions -/

namespace Guard

variable (guard : Guard)

@[simp]
theorem record_mark (guarded : Expr) : (guard.mark guarded).walk.record = guard.walk.record := by
  unfold mark
  split
  · rfl
  · split <;> rfl

@[simp]
theorem otherwise_mark (guarded : Expr) : (guard.mark guarded).otherwise = guard.otherwise := by
  unfold mark
  split
  · rfl
  · split <;> rfl

@[simp]
theorem record_markNotEmpty (negated : Bool) (operand : Expr) :
    (guard.markNotEmpty negated operand).walk.record = guard.walk.record := by
  unfold markNotEmpty
  split
  · split <;> simp
  · rfl

@[simp]
theorem otherwise_markNotEmpty (negated : Bool) (operand : Expr) :
    (guard.markNotEmpty negated operand).otherwise = guard.otherwise := by
  unfold markNotEmpty
  split
  · split <;> simp
  · rfl

@[simp]
theorem record_markIsset (negated : Bool) (values : List Expr) :
    (guard.markIsset negated values).walk.record = guard.walk.record := by
  unfold markIsset
  split
  · rfl
  · induction values generalizing guard with
    | nil => rfl
    | cons value rest inductionHypothesis => rw [List.foldl_cons, inductionHypothesis, record_mark]

@[simp]
theorem otherwise_markIsset (negated : Bool) (values : List Expr) :
    (guard.markIsset negated values).otherwise = guard.otherwise := by
  unfold markIsset
  split
  · rfl
  · induction values generalizing guard with
    | nil => rfl
    | cons value rest inductionHypothesis =>
      rw [List.foldl_cons, inductionHypothesis, otherwise_mark]

@[simp]
theorem record_narrowTo (naming : Naming) (subject : Expr) (ref : ClassRef)
    (negated inLogic : Bool) :
    (guard.narrowTo naming subject ref negated inLogic).walk.record = guard.walk.record := by
  unfold narrowTo narrow
  split
  · dsimp only
    split <;> rfl
  · rfl

@[simp]
theorem record_otherwise_narrowTo (naming : Naming) (subject : Expr) (ref : ClassRef)
    (negated inLogic : Bool) :
    (guard.narrowTo naming subject ref negated inLogic).otherwise.record =
      guard.otherwise.record := by
  unfold narrowTo narrow
  split
  · dsimp only
    split <;> rfl
  · rfl

end Guard

/-! ### Walking expressions -/

namespace Flow

open Execution

variable {leaves : Prop} (env : Env)

/-- A callee that may return records nothing. -/
theorem record_leaveByCallee {info : FunctionInfo} (returns : info.neverReturns = false)
    (walk : Walk) : (walk.leaveByCallee env info.exits).record = walk.record := by
  unfold FunctionInfo.neverReturns at returns
  unfold Walk.leaveByCallee
  rw [returns, Bool.false_and, if_neg Bool.false_ne_true]

theorem drift_leaveByCallee {info : FunctionInfo} (own : info.neverReturns = false ∨ leaves)
    (walk : Walk) : Drift leaves walk.record (walk.leaveByCallee env info.exits).record := by
  rcases own with returns | allowed
  · exact .of_eq (record_leaveByCallee env returns walk)
  · unfold Walk.leaveByCallee
    split
    · rw [Walk.record_leave]
      exact .leave allowed _ _
    · exact .refl _

theorem drift_leaveByFound {found : Option FoundMethod}
    (own : methodMayReturn found = true ∨ leaves) (walk : Walk) :
    Drift leaves walk.record (walk.leaveByFound env found).record := by
  unfold Walk.leaveByFound
  split
  · exact drift_leaveByCallee env (own.imp_left fun returns => by
      simpa [methodMayReturn] using returns) walk
  · exact .refl _

theorem methodMayReturn_lookup {env : Env} {method : Option String}
    (returns : method.all (methodsReturn env.index) = true) (walk : Walk) (object : Expr) :
    methodMayReturn (method.bind (walk.lookupMethodOf? env object)) = true := by
  cases found : method.bind (walk.lookupMethodOf? env object) with
  | none => rfl
  | some found =>
    obtain ⟨name, rfl, known⟩ := Option.bind_eq_some_iff.mp ‹_›
    simp [methodMayReturn, Walk.returns_of_lookupMethodOf? returns known]

theorem allowed_of_own {kind : ExprKind} (own : ¬ leaves → isCalm env kind = true)
    (left : isCalm env kind = false) : leaves := by
  by_contra stays
  rw [own stays] at left
  cases left

/-- What an expression and a condition can do to the record, step by step. -/
theorem steps_drift : Steps env (¬ leaves) (isCalm env) (fun _ => True)
    (fun before after => Drift leaves before.record after.record)
    (fun before after => Drift leaves before.walk.record after.walk.record ∧
      after.otherwise.record = before.otherwise.record) where
  still same := .of_eq (congrArg Block.record same)
  trans := .trans
  skip := .conditionally
  read _ _ _ _ _ := .of_eq (Walk.record_read ..)
  assign _ _ _ _ _ _ := .of_eq (record_assignVar ..)
  store _ _ _ _ _ := .of_eq (record_storeInVar ..)
  pass _ _ _ := .of_eq (record_passVar ..)
  share _ _ := .of_eq (record_shareVar ..)
  target _ _ _ := trivial
  element _ _ _ _ _ := trivial
  exit own walk := by
    rw [Walk.record_leave]
    exact .leave (allowed_of_own env own rfl) _ _
  throw own walk := by
    rw [Walk.record_leave]
    exact .leave (allowed_of_own env own rfl) _ _
  callee {name args} own other info found walk := by
    refine drift_leaveByCallee env (or_iff_not_imp_right.mpr fun stays => ?_) walk
    have returns := own stays
    simp only [isCalm, other, mayReturn, found, Bool.false_or, Bool.and_eq_true] at returns
    simpa using returns.1
  fatal {name args} own other raised walk := by
    rw [Walk.record_leave]
    refine .leave (allowed_of_own env own ?_) _ _
    simp [isCalm, other, mayReturn, raised]
  method own before walk := drift_leaveByFound env (or_iff_not_imp_right.mpr fun stays =>
    methodMayReturn_lookup (own stays) before _) walk
  static own walk := drift_leaveByFound env (or_iff_not_imp_right.mpr own) walk
  -- the branches are walked in blocks of their own, and only their scopes are joined
  ternary _ _ _ := .of_eq (record_closeTernary ..)
  testTrans left right := ⟨left.1.trans right.1, right.2.trans left.2⟩
  testSkip tested := ⟨.restore tested.1, tested.2⟩
  testWalk walked := ⟨walked, rfl⟩
  notEmpty _ negated guard :=
    ⟨.of_eq (guard.record_markNotEmpty negated _), by rw [guard.otherwise_markNotEmpty]⟩
  isset _ negated guard :=
    ⟨.of_eq (guard.record_markIsset negated _), by rw [guard.otherwise_markIsset]⟩
  narrow _ ref negated inLogic guard :=
    ⟨.of_eq (guard.record_narrowTo ..), guard.record_otherwise_narrowTo ..⟩

theorem drift_expr (expr : Expr) (permitted : everyExpr (isCalm env) expr = true ∨ leaves)
    (walk : Walk) : Drift leaves walk.record (walkExpr env expr walk).record :=
  (steps_drift env).holds_expr expr permitted.resolve_right walk

theorem drift_optional (value : Option Expr)
    (permitted : everyOptional (isCalm env) value = true ∨ leaves) (walk : Walk) :
    Drift leaves walk.record (walkOptional env value walk).record :=
  (steps_drift env).holds_optional value permitted.resolve_right walk

theorem drift_probes (values : List Expr) (permitted : everyIn (isCalm env) values = true ∨ leaves)
    (walk : Walk) : Drift leaves walk.record (walkProbes env values walk).record :=
  (steps_drift env).holds_probes values permitted.resolve_right walk

theorem drift_assign (mode : AssignMode) (types : TypeSet) (target : Expr)
    (permitted : everyExpr (isCalm env) target = true ∨ leaves) (walk : Walk) :
    Drift leaves walk.record (walkAssign env mode types target walk).record :=
  (steps_drift env).holds_assign mode types target (fun _ _ => trivial) permitted.resolve_right walk

theorem drift_args (params : Option (List ParamInfo)) (position : Nat) (args : List Arg)
    (permitted : everyArg (isCalm env) args = true ∨ leaves) (walk : Walk) :
    Drift leaves walk.record (walkArgs env params position args walk).record :=
  (steps_drift env).holds_args params position args (fun _ _ _ _ => trivial)
    permitted.resolve_right walk

/-- A calm condition leaves nothing. -/
theorem exits_test (negated inLogic : Bool) (test : Expr) (calm : everyExpr (isCalm env) test = true)
    (guard : Guard) :
    (walkTest env negated inLogic test guard).walk.block.exits = guard.walk.block.exits := by
  have drift := ((steps_drift env).tested_test negated inLogic test (fun _ : ¬ False => calm) guard).1
  exact congrArg ExitRecord.exits (drift.eq_of_not not_false)

/-- A condition records nothing for its false outcome. -/
theorem record_otherwise_test (negated inLogic : Bool) (test : Expr) (guard : Guard) :
    (walkTest env negated inLogic test guard).otherwise.record = guard.otherwise.record :=
  ((steps_drift env).tested_test negated inLogic test (fun stays => absurd trivial stays) guard).2

end Flow

end PhpAudit
