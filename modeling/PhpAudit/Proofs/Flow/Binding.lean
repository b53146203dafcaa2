/-
This file says which expressions give a variable a value, as far as the walk is concerned. Where the
walk over an expression makes a variable held that was not, every run that completes the expression
writes to it. Operands that a run may skip are walked like others, so in the fragment treated here
they have no assignment; and the variable is not asked for by `isset`, `empty` or `instanceof`, which
count it as defined where they succeed.
-/

import PhpAudit.Proofs.Execution.Writing
import PhpAudit.Proofs.Flow.Gains
import PhpAudit.Proofs.Flow.Holding
import PhpAudit.Proofs.Flow.Liveness

namespace PhpAudit

open Execution

namespace Flow

/-! ### Expressions that assign -/

/-- The parameters of a callee take values, as far as it is known. -/
def byValue (params : Option (List ParamInfo)) : Bool :=
  params.all (·.all (!·.byRef))

/-- The expressions that give no variable a value themselves. -/
def bindsNothing (env : Env) : ExprKind → Bool
  | .assign .. => false
  | .call name _ => byValue ((callee? env name).map (·.params))
  | .staticCall ref method _ => byValue (methodParams (staticCallee? env ref method))
  | .new ref _ => byValue (methodParams (constructor? env ref))
  | _ => true

/--
The expressions in which the walk follows what becomes of a variable: operands that may be skipped
assign nothing, no test asks for the variable, and it is not passed to methods that are called on
objects, which may or may not take it by reference.
-/
def bindsSurely (env : Env) (name : String) (kind : ExprKind) : Bool :=
  pacesExits env kind && match kind with
    | .assign _ _ op _ => op != .coalesce
    | .element base index => !mayCutOff base || everyOptional (bindsNothing env) index
    | .methodCall object _ args nullsafe =>
      args.all (·.value.rootName? != some name) &&
        (!(nullsafe || mayCutOff object) || everyArg (bindsNothing env) args)
    | .binary op _ right =>
      match op with
      | .coalesce | .and | .or | .lowOr | .other => everyExpr (bindsNothing env) right
      | _ => true
    | .ternary _ yes no =>
      everyOptional (bindsNothing env) yes && everyExpr (bindsNothing env) no
    | .matchOn _ arms => everyArm (bindsNothing env) arms
    | .isset values =>
      everyIn (bindsNothing env) values && values.all (·.rootName? != some name)
    | .isEmpty value => value.rootName? != some name
    | .instanceOf subject _ => subject.variableName? != some name
    | _ => true

theorem refParam?_of_byValue {params : Option (List ParamInfo)} (values : byValue params = true)
    (position : Nat) : refParam? params position = none := by
  unfold refParam?
  cases params with
  | none => rfl
  | some params =>
    have values : params.all (!·.byRef) = true := values
    rw [List.all_eq_true] at values
    simp only [Option.bind_some, Option.filter_eq_none_iff]
    intro param chosen
    have member : param ∈ params := by
      rw [Option.orElse_eq_orElse, Option.orElse_eq_or, Option.or_eq_some_iff] at chosen
      rcases chosen with chosen | ⟨_, chosen⟩
      · exact List.mem_of_getElem? chosen
      · exact List.mem_of_getLast? (Option.filter_eq_some_iff.mp chosen).1
    simpa using values param member

end Flow

/-! ### Steps that bind -/

/--
The steps of a walk make the variable held only if the code is not `free` of assignments and every
run that completes it writes to the variable.
-/
def Binds {Exit : Type} (always : Bool) (name : String) (free : Bool) (runs : Runs Exit)
    (steps : Walk → Walk) : Prop :=
  ∀ walk : Walk, (steps walk).scope.Holds always name →
    walk.scope.Holds always name ∨ free = false ∧ runs.Writes name

namespace Binds

variable {Exit Other : Type} {always free other : Bool} {name : String} {runs first second : Runs Exit}
  {steps before after : Walk → Walk}

/-- Code without assignments keeps what is held. -/
theorem keeps (binds : Binds always name true runs steps) (walk : Walk)
    (holds : (steps walk).scope.Holds always name) : walk.scope.Holds always name :=
  (binds walk holds).resolve_right fun bound => Bool.false_ne_true bound.1.symm

theorem of_scope (same : ∀ walk, (steps walk).scope = walk.scope) :
    Binds always name free runs steps :=
  fun walk holds => .inl (same walk ▸ holds)

/-- The second steps may depend on the state in which they start. -/
theorem next {after : Walk → Walk → Walk} (left : Binds always name free first before)
    (right : ∀ middle, Binds always name other second (after middle)) :
    Binds always name (free && other) (first.seq second)
      fun walk => after (before walk) (before walk) := by
  intro walk holds
  simp only [Bool.and_eq_false_iff, Runs.writes_seq]
  rcases right _ _ holds with holds | bound
  · rcases left walk holds with holds | bound
    · exact .inl holds
    · exact .inr ⟨.inl bound.1, .inl bound.2⟩
  · exact .inr ⟨.inr bound.1, .inr bound.2⟩

theorem seq (left : Binds always name free first before)
    (right : Binds always name other second after) :
    Binds always name (free && other) (first.seq second) fun walk => after (before walk) :=
  left.next fun _ => right

theorem mono {runs : Runs Other} {wider : Runs Exit} (binds : Binds always name free runs steps)
    (freer : free = false → other = false) (writes : runs.Writes name → wider.Writes name) :
    Binds always name other wider steps :=
  fun walk holds => (binds walk holds).imp_right fun bound => ⟨freer bound.1, writes bound.2⟩

theorem congr (binds : Binds always name free runs before)
    (same : ∀ walk, (after walk).scope = (before walk).scope) :
    Binds always name free runs after :=
  fun walk holds => binds walk (same walk ▸ holds)

/-- Steps before the code that leave the scope alone. -/
theorem scope_then (binds : Binds always name free runs after)
    (same : ∀ walk, (before walk).scope = walk.scope) :
    Binds always name free runs fun walk => after (before walk) := by
  intro walk holds
  rcases binds _ holds with holds | bound
  · rw [same] at holds
    exact .inl holds
  · exact .inr bound

theorem impure_then (binds : Binds always name free runs steps) :
    Binds always name free runs fun walk => steps walk.impure :=
  fun walk holds => binds walk.impure holds

/-- An operand that may be skipped is walked like another one. -/
theorem conditionally (binds : Binds always name free runs steps) :
    Binds always name free runs fun walk => walk.conditionally steps :=
  binds

theorem lift {runs : Runs Abort} (binds : Binds always name free runs steps) :
    Binds always name free runs.lift steps :=
  binds.mono id Runs.writes_lift.mpr

/-- Code without assignments may be skipped. -/
theorem skipped (binds : Binds always name true runs steps) {other : Runs Exit} :
    Binds always name true other steps :=
  fun _ holds => .inl (binds.keeps _ holds)

/-- The second operands may be cut off if they are free of assignments. -/
theorem cutOff {left : Runs Abort} {right : Runs Abort} {cuts : Bool} {after : Walk → Walk → Walk}
    (binds : Binds always name free left before)
    (others : ∀ middle, Binds always name other right (after middle))
    (kept : cuts = false ∨ other = true) :
    Binds always name (free && other) (left.seq (unlessCutOff cuts (right.seq Runs.attempt)))
      fun walk => after (before walk) (before walk) := by
  rcases kept with rfl | rfl
  · exact (binds.next others).mono id fun writes => by simpa [unlessCutOff] using writes
  · rw [Bool.and_true]
    exact fun walk holds => (binds walk ((others _).keeps _ holds)).imp_right fun bound =>
      ⟨bound.1, Runs.writes_seq.mpr (.inl bound.2)⟩

/-- Code without assignments after the code. -/
theorem then_free (left : Binds always name free first before)
    (right : Binds always name true second after) :
    Binds always name free first fun walk => after (before walk) :=
  fun walk holds => left walk (right.keeps _ holds)

end Binds

/-! ### Steps that leave the scope alone -/

namespace Walk

variable (env : Env) (walk : Walk)

theorem scope_leave (exits : Exits) : (walk.leave exits).scope = walk.scope :=
  (idle_leave exits walk).1

theorem scope_leaveByCallee (exits : Exits) : (walk.leaveByCallee env exits).scope = walk.scope :=
  (idle_leaveByCallee env exits walk).1

theorem scope_leaveByFound (found : Option FoundMethod) :
    (walk.leaveByFound env found).scope = walk.scope := by
  unfold leaveByFound
  split
  · exact scope_leaveByCallee env walk _
  · rfl

theorem scope_checkArrayAccess (base : Expr) (span : Span) :
    (walk.checkArrayAccess env base span).scope = walk.scope :=
  congrArg Block.scope (block_checkArrayAccess env walk base span)

end Walk

namespace Flow

section

variable (env : Env) (walk : Walk)

theorem scope_shareSlot (byRef : Bool) (value : Expr) :
    (shareSlot byRef value walk).scope = walk.scope :=
  congrArg Block.scope (block_shareSlot walk byRef value)

theorem scope_assignOwnProperty (types : TypeSet) (object : Expr) (name : Option String) :
    (assignOwnProperty env types object name walk).scope = walk.scope :=
  congrArg Block.scope (block_assignOwnProperty env walk types object name)

theorem scope_assignOwnStatic (types : TypeSet) (ref : ClassRef) (name : Option String) :
    (assignOwnStatic env types ref name walk).scope = walk.scope :=
  congrArg Block.scope (block_assignOwnStatic env walk types ref name)

theorem scope_captures (captures : List Capture) (state : Walk × Scope) :
    (captures.foldl (capture env) state).1.scope = state.1.scope :=
  congrArg Block.scope (block_captures env captures state)

theorem scope_untrackAll (names : List String) :
    (names.foldl (fun walk name => walk.untrack env name) walk).scope = walk.scope :=
  congrArg Block.scope (block_untrackAll env walk names)

theorem scope_beforeCall (function : String) (callee : Option FunctionInfo) :
    (let after := tolerate function walk
    if callee.any (·.isPure) then after else after.impure).scope = walk.scope :=
  congrArg Block.scope (block_beforeCall walk function callee)

theorem scope_afterCall (callee : Option FunctionInfo) (fatal : Bool) :
    (let after := match callee with
      | some info => walk.leaveByCallee env info.exits
      | none => walk
    if fatal then after.leave .byDie else after).scope = walk.scope := by
  cases callee with
  | none =>
    dsimp only
    split
    · exact walk.scope_leave _
    · rfl
  | some info =>
    dsimp only
    split
    · exact (Walk.scope_leave _ _).trans (walk.scope_leaveByCallee env _)
    · exact walk.scope_leaveByCallee env _

end

/-! ### Variables -/

section

variable {env : Env} {always : Bool} {name : String}

/-- A variable that is read where it is undefined is reported. -/
theorem binds_read {Exit : Type} (outermost : env.enclosing = []) (other : String) (span : Span)
    {free : Bool} {runs : Runs Exit} :
    Binds always name free runs (Walk.read env other span) := by
  intro walk holds
  have noted := (idle_noteRead env other span walk).1
  rw [read_eq outermost] at holds
  dsimp only at holds noted
  split at holds
  · rw [noted] at holds
    exact .inl holds
  · left
    have added : (((walk.checkDiscard env other span).untrack env other).scope.add other
        (.named TypeName.undefined) true).Holds always name := by
      unfold Walk.readMissing at holds
      dsimp only at holds
      split at holds <;> exact holds
    rw [noted] at added
    refine (Scope.of_holds_add added).resolve_right fun ⟨_, _, genuine⟩ => ?_
    exact absurd genuine (by decide)

theorem binds_readAll {Exit : Type} (outermost : env.enclosing = []) (names : List String)
    (span : Span) {free : Bool} {runs : Runs Exit} :
    Binds always name free runs (Walk.readAll env names span) := by
  intro walk holds
  unfold Walk.readAll at holds
  induction names generalizing walk with
  | nil => exact .inl holds
  | cons other rest inductionHypothesis =>
    rcases inductionHypothesis _ holds with holds | bound
    · exact binds_read outermost other span walk holds
    · exact .inr bound

theorem binds_assignVar (mode : AssignMode) (types : TypeSet) (other : String) (span place : Span) :
    Binds always name false (Runs.emit (.write other place) : Runs Abort)
      (assignVar env mode types other span) := by
  intro walk holds
  have assigned : (walk.scope.assign other types true).Holds always name := by
    have tracked (assigned : Walk) (span : Span) :
        (assigned.track env other span).scope = assigned.scope :=
      (assigned.idle_track env other span).1
    unfold assignVar at holds
    cases mode with
    | plain =>
      rw [tracked] at holds
      exact holds
    | iteration outer =>
      rw [tracked] at holds
      exact holds
    | compound | reference => exact holds
  rcases Scope.of_holds_assign assigned with rfl | holds
  · exact .inr ⟨rfl, Runs.writes_write place⟩
  · exact .inl holds

theorem of_holds_add_write {scope : Scope} {other : String} {types : TypeSet} {flag : Bool}
    (holds : (scope.add other types flag).Holds always name) (place : Span) :
    scope.Holds always name ∨ false = false ∧
      (Runs.emit (.write other place) : Runs Abort).Writes name := by
  refine (Scope.of_holds_add holds).imp_right fun ⟨equal, _⟩ => ?_
  subst equal
  exact ⟨rfl, Runs.writes_write place⟩

/-- A store makes no other variable held. -/
theorem of_holds_storeInVar (outermost : env.enclosing = []) {types : TypeSet} {other : String}
    {span : Span} {walk : Walk} (holds : (storeInVar env types other span walk).scope.Holds always name) :
    other = name ∨ walk.scope.Holds always name := by
  unfold storeInVar at holds
  split at holds
  · exact Scope.of_holds_assign holds
  · have reads : Binds always name true (Runs.done : Runs Abort) (Walk.read env other span) :=
      binds_read outermost other span
    exact (Scope.of_holds_add (reads.keeps _ holds)).symm.imp_left And.left

theorem binds_storeInVar (outermost : env.enclosing = []) (types : TypeSet) (other : String)
    (span place : Span) :
    Binds always name false (Runs.emit (.write other place) : Runs Abort)
      (storeInVar env types other span) := by
  intro walk holds
  rcases of_holds_storeInVar outermost holds with rfl | holds
  · exact .inr ⟨rfl, Runs.writes_write place⟩
  · exact .inl holds

theorem binds_passVar (param : ParamInfo) (other : String) (place : Span) :
    Binds always name false (Runs.emit (.write other place) : Runs Abort)
      (passVar env param other) :=
  fun _ holds => of_holds_add_write holds place

theorem binds_shareVar (other : String) (place : Span) :
    Binds always name false (Runs.emit (.write other place) : Runs Abort)
      (shareVar env other) := by
  intro walk holds
  unfold shareVar at holds
  dsimp only at holds
  split at holds
  · exact .inl holds
  · exact of_holds_add_write holds place

end

/-! ### Tests -/

section

variable {env : Env} {name : String}

theorem everyExpr_unparen {accepts : ExprKind → Bool} (expr : Expr)
    (every : everyExpr accepts expr = true) : accepts expr.unparen.kind = true := by
  obtain ⟨kind, span⟩ := expr
  simp only [everyExpr, Bool.and_eq_true] at every
  cases kind with
  | paren inner =>
    rw [Expr.unparen]
    exact everyExpr_unparen inner every.2
  | _ => exact every.1

theorem of_holds_markNotEmpty {always : Bool} {guard : Guard} {negated : Bool} {operand : Expr}
    (surely : everyExpr (bindsSurely env name) operand = true)
    (holds : (guard.markNotEmpty negated operand).walk.scope.Holds always name) :
    guard.walk.scope.Holds always name := by
  have own := everyExpr_unparen operand surely
  unfold Guard.markNotEmpty at holds
  split at holds
  · next inner equal =>
    rw [equal] at own
    simp only [bindsSurely, Bool.and_eq_true, bne_iff_ne] at own
    split at holds
    · exact holds
    · exact Guard.of_holds_mark own.2 holds
  · exact holds

theorem of_holds_markIsset {always : Bool} {guard : Guard} {negated : Bool} {values : List Expr}
    (others : values.all (·.rootName? != some name) = true)
    (holds : (guard.markIsset negated values).walk.scope.Holds always name) :
    guard.walk.scope.Holds always name := by
  unfold Guard.markIsset at holds
  split at holds
  · exact holds
  · induction values generalizing guard with
    | nil => exact holds
    | cons value rest inductionHypothesis =>
      simp only [List.all_cons, Bool.and_eq_true, bne_iff_ne] at others
      exact Guard.of_holds_mark others.1 (inductionHypothesis others.2 holds)

theorem of_holds_narrowTo {always : Bool} (guard : Guard) {naming : Naming} {subject : Expr}
    {ref : ClassRef} {negated inLogic : Bool} (other : subject.variableName? ≠ some name) :
    ((guard.narrowTo naming subject ref negated inLogic).walk.scope.Holds always name →
      guard.walk.scope.Holds always name) ∧
    ((guard.narrowTo naming subject ref negated inLogic).otherwise.scope.Holds always name →
      guard.otherwise.scope.Holds always name) := by
  unfold Guard.narrowTo
  split
  · next tested found _ =>
    rw [found] at other
    exact Guard.of_holds_narrow fun equal => other (congrArg some equal)
  · exact ⟨id, id⟩

/-- The false outcome of a test starts with what is held before it. -/
theorem of_holds_otherwise {always : Bool} (negated inLogic : Bool) (test : Expr)
    (surely : everyExpr (bindsSurely env name) test = true) (guard : Guard)
    (holds : (walkTest env negated inLogic test guard).otherwise.scope.Holds always name) :
    guard.otherwise.scope.Holds always name := by
  obtain ⟨kind, span⟩ := test
  simp only [everyExpr, Bool.and_eq_true] at surely
  cases kind with
  | paren inner =>
    rw [walkTest_paren] at holds
    exact of_holds_otherwise negated inLogic inner surely.2 guard holds
  | binary op left right =>
    cases op with
    | and | or =>
      simp only [everyOperand, Bool.and_eq_true] at surely
      rw [walkTest] at holds
      exact of_holds_otherwise negated true left surely.2.1 guard
        (of_holds_otherwise negated true right surely.2.2 _ holds)
    | _ => simpa only [walkTest, Guard.mapWalk] using holds
  | unary op operand =>
    cases op with
    | not =>
      rw [walkTest] at holds
      have marked := of_holds_otherwise _ inLogic operand surely.2 _ holds
      rwa [Guard.otherwise_markNotEmpty] at marked
    | _ => simpa only [walkTest, Guard.mapWalk] using holds
  | isset values =>
    rw [walkTest, Guard.mapWalk, Guard.otherwise_markIsset] at holds
    exact holds
  | instanceOf subject ref =>
    have other := (Bool.and_eq_true_iff.mp surely.1).2
    rw [bne_iff_ne] at other
    rw [walkTest] at holds
    exact (of_holds_narrowTo (guard.mapWalk _) other).2 holds
  | _ => simpa only [walkTest, Guard.mapWalk] using holds

end

/-- The outcomes of a test, and the block around it, hold what was held or what the test gives. -/
theorem of_holds_outcomes {env : Env} {name : String} {test : Expr} {cause : Prop}
    (surely : everyExpr (bindsSurely env name) test = true)
    (tested : ∀ always guard, (walkTest env false false test guard).walk.scope.Holds always name →
      guard.walk.scope.Holds always name ∨ cause) (always : Bool) (markers : List String)
    (walk : Walk) :
    let split := (walkTest env false false test (.start walk markers)).split walk.block
    (split.walk.scope.Holds always name → walk.scope.Holds always name ∨ cause) ∧
      (split.yes.scope.Holds always name → walk.scope.Holds always name ∨ cause) ∧
      (split.no.scope.Holds always name → walk.scope.Holds always name ∨ cause) := by
  intro split
  let guard := walkTest env false false test (.start walk markers)
  have added (fresh : guard.walk.scope.Holds false name ∧ walk.block.scope.mayHave name = false) :
      cause := by
    refine (tested false _ fresh.1).resolve_left fun holds => ?_
    have known : walk.block.scope.mayHave name = true := holds.mayHave
    exact Bool.false_ne_true (fresh.2.symm.trans known)
  refine ⟨fun holds => ?_, tested always _, fun holds => ?_⟩
  · exact (Guard.of_holds_split.1 holds).imp_right added
  · refine (Guard.of_holds_split.2 holds).imp (fun holds => ?_) added
    exact of_holds_otherwise false false test surely (.start walk markers) holds

/-- The branches of a conditional expression that assigns in neither of them. -/
theorem binds_ternary {env : Env} {name : String} {test yes no : Expr} {cause : Prop}
    {always : Bool} (surely : everyExpr (bindsSurely env name) test = true)
    (tested : ∀ always guard, (walkTest env false false test guard).walk.scope.Holds always name →
      guard.walk.scope.Holds always name ∨ cause)
    (left : Binds always name true (evaluate env yes) (walkExpr env yes))
    (right : Binds always name true (evaluate env no) (walkExpr env no)) (span : Span) (walk : Walk)
    (holds : (walkKind env span (.ternary test (some yes) no) walk).scope.Holds always name) :
    walk.scope.Holds always name ∨ cause := by
  obtain ⟨around, whereTrue, whereFalse⟩ := of_holds_outcomes surely tested always [] walk
  let split := (walkTest env false false test (.start walk [])).split walk.block
  let yesEnd := split.walk.within split.yes (walkExpr env yes)
  let noEnd := yesEnd.2.within split.no (walkExpr env no)
  rw [walkKind] at holds
  have merged := Walk.of_holds_dropMarkers holds
  rcases Block.exists_of_holds_merge merged with holds | ⟨branch, member, holds⟩
  · exact around holds
  · have isBranch := List.mem_of_mem_filter member
    simp only [List.mem_cons, List.not_mem_nil, or_false] at isBranch
    rcases isBranch with rfl | rfl
    · rcases Block.of_holds_restoreImplicit holds with holds | holds
      · exact whereTrue (left.keeps { split.walk with block := split.yes } holds)
      · exact .inl holds
    · rcases Block.of_holds_restoreImplicit holds with holds | holds
      · exact whereFalse (right.keeps { yesEnd.2 with block := split.no } holds)
      · exact .inl holds

theorem paced_of_surely {env : Env} {name : String} {expr : Expr}
    (surely : everyExpr (bindsSurely env name) expr = true) :
    everyExpr (pacesExits env) expr = true :=
  everyExpr_mono (fun _ own => (Bool.and_eq_true_iff.mp own).1) expr surely

/-- Where a null object may cut off the index of an element, the index is free of assignments. -/
theorem kept_index {env : Env} {name : String} {base : Expr} {index : Option Expr}
    (own : bindsSurely env name (.element base index) = true) :
    mayCutOff base = false ∨ everyOptional (bindsNothing env) index = true := by
  have kept := (Bool.and_eq_true_iff.mp own).2
  rwa [Bool.or_eq_true, Bool.not_eq_true'] at kept

/-! ### Walking expressions -/

-- the hypothesis is used by the theorems of the mutual block together, not by each of them
set_option linter.unusedSectionVars false

section

variable {env : Env} {name : String} (outermost : env.enclosing = [])

include outermost

-- The runs of a node are taken apart along with its walk, for it binds no more than every run writes.
mutual

/-- The walk over an expression binds what every run writes. -/
theorem binds_expr (always : Bool) (expr : Expr)
    (surely : everyExpr (bindsSurely env name) expr = true) :
    Binds always name (everyExpr (bindsNothing env) expr) (evaluate env expr)
      (walkExpr env expr) := by
  obtain ⟨kind, span⟩ := expr
  simp only [everyExpr, Bool.and_eq_true] at surely
  rw [evaluate, everyExpr]
  exact (binds_kind always kind span surely.1 surely.2).congr fun walk => by rw [walkExpr]

theorem binds_kind (always : Bool) (kind : ExprKind) (span : Span)
    (own : bindsSurely env name kind = true)
    (parts : everyOperand (bindsSurely env name) kind = true) :
    Binds always name (bindsNothing env kind && everyOperand (bindsNothing env) kind)
      (evaluateKind env span kind) (walkKind env span kind) := by
  cases kind with
  | paren inner | clone inner | unary op inner | property inner field nullsafe =>
    refine ((binds_expr always inner parts).mono id fun writes => ?_).congr fun walk => by
      rw [walkKind]
    simp [evaluateKind, writes]
  | includeFile inner | yieldFrom inner =>
    refine ((binds_expr always inner parts).impure_then.mono id fun writes => ?_).congr
      fun walk => by rw [walkKind]
    simp [evaluateKind, writes]
  | array items | list items =>
    rw [evaluateKind]
    exact (binds_items always items parts).congr fun walk => by rw [walkKind]
  | element base index =>
    simp only [everyOperand, Bool.and_eq_true] at parts
    rw [evaluateKind]
    exact (((binds_expr always base parts.1).cutOff (fun _ => binds_optional always index parts.2)
      (kept_index own)).scope_then fun walk => walk.scope_checkArrayAccess env base span).congr
        fun walk => by rw [walkKind]
  | assign target value op byRef =>
    simp only [everyOperand, Bool.and_eq_true] at parts
    cases byRef with
    | true =>
      refine (((binds_shared always value parts.2).next fun middle =>
        binds_assign always .reference (middle.localType env value) target parts.1).mono
          (fun _ => rfl) fun writes => ?_).congr fun walk => by simp only [walkKind, if_true]
      simp only [evaluateKind, if_true, Runs.writes_seq] at writes ⊢
      tauto
    | false =>
      have valued := binds_expr always value parts.2
      cases op with
      | coalesce => simp [bindsSurely] at own
      | assign =>
        refine ((valued.next fun middle =>
          binds_assign always .plain (middle.localType env value) target parts.1).mono
            (fun _ => rfl) fun writes => ?_).congr fun walk => by
              simp only [walkKind, Bool.false_eq_true, if_false]
        simp only [evaluateKind, Bool.false_eq_true, if_false, Runs.writes_seq] at writes ⊢
        tauto
      | _ =>
        intro walk holds
        simp only [walkKind, Bool.false_eq_true, if_false] at holds
        simp only [evaluateKind, Bool.false_eq_true, if_false, Runs.writes_seq]
        rcases binds_assign always _ _ target parts.1 _ holds with holds | ⟨_, writes⟩
        · exact (valued walk holds).imp_right fun bound => ⟨rfl, .inl (.inr bound.2)⟩
        · rw [Runs.writes_seq] at writes
          exact .inr ⟨rfl, by tauto⟩
  | binary op left right =>
    simp only [everyOperand, Bool.and_eq_true] at parts
    have leftBinds := binds_expr always left parts.1
    have rightBinds := binds_expr always right parts.2
    cases op with
    | coalesce =>
      have free := (Bool.and_eq_true_iff.mp own).2
      dsimp only at free
      rw [free] at rightBinds
      refine (((binds_probe always left parts.1).then_free rightBinds.conditionally).mono ?_
        fun writes => ?_).congr fun walk => by rw [walkKind]
      · simp [bindsNothing, everyOperand, free]
      · simp [evaluateKind, writes]
    | and | or | lowOr =>
      have free := (Bool.and_eq_true_iff.mp own).2
      dsimp only at free
      rw [free] at rightBinds
      refine ((leftBinds.then_free rightBinds.conditionally).mono ?_ fun writes => ?_).congr
        fun walk => by rw [walkKind]
      · simp [bindsNothing, everyOperand, free]
      · simp [evaluateKind, writes]
    | other =>
      have free := (Bool.and_eq_true_iff.mp own).2
      dsimp only at free
      rw [free] at rightBinds
      refine ((leftBinds.then_free rightBinds).mono ?_ fun writes => ?_).congr fun walk => by
        simp only [walkKind]
      · simp [bindsNothing, everyOperand, free]
      · simp [evaluateKind, writes]
    | _ =>
      refine ((leftBinds.seq rightBinds).mono id fun writes => ?_).congr fun walk => by
        simp only [walkKind]
      simpa [evaluateKind] using writes
  | instanceOf subject ref =>
    simp only [everyOperand, Bool.and_eq_true] at parts
    refine (((binds_expr always subject parts.1).seq (binds_ref always ref parts.2)).mono id
      fun writes => ?_).congr fun walk => by rw [walkKind]
    simpa [evaluateKind] using writes
  | ternary test yes no =>
    simp only [everyOperand, Bool.and_eq_true] at parts
    have free := (Bool.and_eq_true_iff.mp own).2
    simp only [Bool.and_eq_true] at free
    have noBinds := binds_expr always no parts.2
    rw [free.2] at noBinds
    cases yes with
    | none =>
      refine (((binds_expr always test parts.1.1).then_free noBinds.conditionally).mono ?_
        fun writes => ?_).congr fun walk => by rw [walkKind]
      · simp +contextual [bindsNothing, everyOperand]
      · simp [evaluateKind, writes]
    | some yes =>
      have yesBinds := binds_expr always yes parts.1.2
      rw [show everyExpr (bindsNothing env) yes = true from free.1] at yesBinds
      intro walk holds
      refine (binds_ternary parts.1.1 (fun always guard => binds_test always false false test
        parts.1.1 guard) yesBinds noBinds span walk holds).imp_right fun bound => ?_
      simp only [evaluateKind, Runs.writes_seq, everyOperand, bound.1, bound.2]
      simp
  | call called args =>
    simp only [everyOperand] at parts
    cases compact : globalName env called == "\\compact" with
    | true =>
      refine ((binds_compactArgs always args parts).mono ?_ fun writes => ?_).congr fun walk => by
        rw [walkKind, if_pos compact]
      · simp +contextual [everyOperand]
      · simp [evaluateKind, compact, writes]
    | false =>
      refine (((binds_args always _ 0 args parts).scope_then fun walk =>
        scope_beforeCall walk (globalName env called) (callee? env called)).mono id
          fun writes => ?_).congr fun walk => ?_
      · simp [evaluateKind, compact, writes]
      · rw [walkKind, if_neg (by simp [compact])]
        exact scope_afterCall env _ _ _
  | callValue function args =>
    simp only [everyOperand, Bool.and_eq_true] at parts
    refine (((binds_expr always function parts.1).seq
      (binds_args always none 0 args parts.2)).impure_then.mono ?_ fun writes => ?_).congr
        fun walk => by rw [walkKind]
    · simp [bindsNothing, everyOperand, byValue]
    · simpa [evaluateKind] using writes
  | methodCall object method args nullsafe =>
    simp only [everyOperand, Bool.and_eq_true] at parts
    obtain ⟨others, kept⟩ := Bool.and_eq_true_iff.mp (Bool.and_eq_true_iff.mp own).2
    rw [Bool.or_eq_true, Bool.not_eq_true'] at kept
    rw [evaluateKind]
    refine (((binds_expr always object parts.1).cutOff (fun middle => binds_otherArgs always
      (methodParams (method.bind (middle.lookupMethodOf? env object))) 0 args parts.2 others)
        kept).impure_then.mono (fun free => ?_) id).congr fun walk => by
          rw [walkKind, Walk.scope_leaveByFound]
    simpa [bindsNothing, everyOperand] using free
  | yield key value =>
    simp only [everyOperand, Bool.and_eq_true] at parts
    refine (((binds_optional always key parts.1).seq
      (binds_optional always value parts.2)).impure_then.mono id fun writes => ?_).congr
        fun walk => by rw [walkKind]
    simpa [evaluateKind] using writes
  | staticCall ref method args =>
    simp only [everyOperand, Bool.and_eq_true] at parts
    refine (((binds_ref always ref parts.1).seq
      (binds_args always _ 0 args parts.2)).impure_then.mono ?_ fun writes => ?_).congr
        fun walk => by rw [walkKind, Walk.scope_leaveByFound]
    · simp only [bindsNothing, everyOperand, Bool.and_eq_false_iff]
      tauto
    · simp only [evaluateKind, Runs.writes_seq] at writes ⊢
      tauto
  | new ref args =>
    simp only [everyOperand, Bool.and_eq_true] at parts
    refine (((binds_ref always ref parts.1).seq
      (binds_args always _ 0 args parts.2)).impure_then.mono ?_ fun writes => ?_).congr
        fun walk => by rw [walkKind]
    · simp only [bindsNothing, everyOperand, Bool.and_eq_false_iff]
      tauto
    · simp only [evaluateKind, Runs.writes_seq] at writes ⊢
      tauto
  | staticProperty ref field | classConstant ref field =>
    refine ((binds_ref always ref parts).mono id fun writes => ?_).congr fun walk => by
      rw [walkKind]
    simp [evaluateKind, writes]
  | isset values =>
    have free := (Bool.and_eq_true_iff.mp own).2
    dsimp only at free
    simp only [Bool.and_eq_true] at free
    have probes := binds_probes always values parts
    rw [free.1] at probes
    intro walk holds
    rw [walkKind] at holds
    exact .inl (probes.keeps _ holds)
  | isEmpty value =>
    rw [evaluateKind]
    exact (binds_probe always value parts).congr fun walk => by rw [walkKind]
  | exit die reads =>
    exact (binds_readAll outermost reads span).impure_then.congr fun walk => by
      rw [walkKind, Walk.scope_leave]
  | throw exception =>
    refine ((binds_expr always exception parts).mono id fun writes => ?_).congr fun walk => by
      rw [walkKind, Walk.scope_leave]
    simp [evaluateKind, writes]
  | closure params captures hint isStatic body =>
    refine .of_scope fun walk => ?_
    rw [walkKind]
    exact scope_captures env captures (walk, _)
  | arrow params hint isStatic body =>
    refine .of_scope fun walk => ?_
    rw [walkKind]
    exact scope_untrackAll env _ _
  | matchOn subject arms =>
    simp only [everyOperand, Bool.and_eq_true] at parts
    have free := (Bool.and_eq_true_iff.mp own).2
    dsimp only at free
    refine (((binds_expr always subject parts.1).then_free
      (binds_arms always arms parts.2 free)).mono ?_ fun writes => ?_).congr fun walk => by
        rw [walkKind]
    · simp +contextual [bindsNothing, everyOperand]
    · simp [evaluateKind, writes]
  | var other =>
    exact (binds_read outermost other span).congr fun walk => by rw [walkKind]
  | dynamicVar reads | interpolated reads | unmodeled reads =>
    exact (binds_readAll outermost reads span).congr fun walk => by rw [walkKind]
  | print reads =>
    exact (binds_readAll outermost reads span).impure_then.congr fun walk => by rw [walkKind]
  | integer | float | string | boolean | null | magic | constant =>
    exact .of_scope fun walk => by rw [walkKind]

theorem binds_optional (always : Bool) (value : Option Expr)
    (surely : everyOptional (bindsSurely env name) value = true) :
    Binds always name (everyOptional (bindsNothing env) value) (evaluateOptional env value)
      (walkOptional env value) := by
  cases value with
  | none => exact .of_scope fun walk => by rw [walkOptional_none]
  | some value =>
    rw [evaluateOptional]
    exact (binds_expr always value surely).congr fun walk => by rw [walkOptional]

theorem binds_items (always : Bool) (items : List Item)
    (surely : everyItem (bindsSurely env name) items = true) :
    Binds always name (everyItem (bindsNothing env) items) (evaluateItems env items)
      (walkItems env items) := by
  cases items with
  | nil => exact .of_scope fun walk => by rw [walkItems_nil]
  | cons item rest =>
    cases item with
    | skip =>
      rw [evaluateItems]
      exact (binds_items always rest surely).congr fun walk => by rw [walkItems]
    | entry key value byRef unpack =>
      simp only [everyItem, Bool.and_eq_true] at surely
      rw [evaluateItems]
      exact (((binds_optional always key surely.1.1).seq (binds_expr always value surely.1.2)).seq
        (binds_items always rest surely.2)).congr fun walk => by rw [walkItems]

theorem binds_ref (always : Bool) (ref : ClassRef)
    (surely : everyRef (bindsSurely env name) ref = true) :
    Binds always name (everyRef (bindsNothing env) ref) (evaluateRef env ref)
      (walkRef env ref) := by
  cases ref with
  | dynamic value =>
    rw [evaluateRef]
    exact (binds_expr always value surely).congr fun walk => by rw [walkRef]
  | named | self | static | parent => exact .of_scope fun walk => by rw [walkRef]

theorem binds_conditionals (always : Bool) (values : List Expr)
    (surely : everyIn (bindsSurely env name) values = true)
    (free : everyIn (bindsNothing env) values = true) :
    Binds always name true (Runs.done : Runs Abort) (walkConditionals env values) := by
  cases values with
  | nil => exact .of_scope fun walk => by rw [walkConditionals_nil]
  | cons value rest =>
    simp only [everyIn, Bool.and_eq_true] at surely free
    have first := binds_expr always value surely.1
    rw [free.1] at first
    exact (first.conditionally.skipped.then_free
      (binds_conditionals always rest surely.2 free.2)).congr fun walk => by
        rw [walkConditionals]

theorem binds_arms (always : Bool) (arms : List MatchArm)
    (surely : everyArm (bindsSurely env name) arms = true)
    (free : everyArm (bindsNothing env) arms = true) :
    Binds always name true (Runs.done : Runs Abort) (walkArms env arms) := by
  cases arms with
  | nil => exact .of_scope fun walk => by rw [walkArms_nil]
  | cons arm rest =>
    obtain ⟨conditions, body⟩ := arm
    simp only [everyArm, Bool.and_eq_true] at surely free
    have own := binds_expr always body surely.1.2
    rw [free.1.2] at own
    exact (((binds_conditionals always conditions surely.1.1 free.1.1).then_free
      own.conditionally).then_free (binds_arms always rest surely.2 free.2)).congr fun walk => by
        rw [walkArms]

theorem binds_probe (always : Bool) (value : Expr)
    (surely : everyExpr (bindsSurely env name) value = true) :
    Binds always name (everyExpr (bindsNothing env) value) (probe env value)
      (walkProbe env value) := by
  obtain ⟨kind, span⟩ := value
  simp only [everyExpr, Bool.and_eq_true] at surely
  have read := binds_kind always kind span surely.1 surely.2
  cases kind with
  | paren inner =>
    rw [probe_paren]
    exact (binds_probe always inner surely.2).congr fun walk => by rw [walkProbe_paren]
  | var other => exact .of_scope fun walk => by rw [walkProbe]; rfl
  | element base index =>
    simp only [everyOperand, Bool.and_eq_true] at surely
    rw [probe]
    exact ((binds_probe always base surely.2.1).cutOff
      (fun _ => binds_optional always index surely.2.2) (kept_index surely.1)).congr fun walk => by
        rw [walkProbe]
  | property object field nullsafe =>
    refine ((binds_probe always object surely.2).mono id fun writes => ?_).congr fun walk => by
      rw [walkProbe]
    simp [probe, writes]
  | _ =>
    rw [probe.eq_def]
    exact read.congr fun walk => by rw [walkProbe.eq_def]

theorem binds_probes (always : Bool) (values : List Expr)
    (surely : everyIn (bindsSurely env name) values = true) :
    Binds always name (everyIn (bindsNothing env) values) (Runs.leave .thrown : Runs Abort)
      (walkProbes env values) := by
  cases values with
  | nil => exact .of_scope fun walk => by rw [walkProbes_nil]
  | cons value rest =>
    simp only [everyIn, Bool.and_eq_true] at surely
    exact (((binds_probe always value surely.1).seq (binds_probes always rest surely.2)).mono id
      fun _ => Runs.writes_leave _).congr fun walk => by rw [walkProbes]

theorem binds_assign (always : Bool) (mode : AssignMode) (types : TypeSet) (target : Expr)
    (surely : everyExpr (bindsSurely env name) target = true) :
    Binds always name false ((place env target).seq (store env target))
      (walkAssign env mode types target) := by
  obtain ⟨kind, span⟩ := target
  simp only [everyExpr, Bool.and_eq_true] at surely
  have read := binds_kind always kind span surely.1 surely.2
  cases kind with
  | var other =>
    rw [place, store, Runs.done_seq]
    exact (binds_assignVar mode types other span span).congr fun walk => by rw [walkAssign]
  | paren inner =>
    rw [place_paren, store_paren]
    exact (binds_assign always mode types inner surely.2).congr fun walk => by rw [walkAssign_paren]
  | element base index =>
    simp only [everyOperand, Bool.and_eq_true] at surely
    refine ((((binds_store always types base.span base surely.2.1).seq
      (binds_optional always index surely.2.2)).scope_then fun walk =>
        walk.scope_checkArrayAccess env base (mode.elementSpan span)).mono (fun _ => rfl)
          fun writes => ?_).congr fun walk => by rw [walkAssign]
    simp only [place, store, Runs.writes_seq] at writes ⊢
    tauto
  | list items | array items =>
    rw [place, store, Runs.done_seq]
    exact (binds_pattern always types 0 items surely.2).congr fun walk => by rw [walkAssign]
  | property object field nullsafe =>
    refine (((binds_expr always object surely.2).scope_then fun walk => ?_).mono (fun _ => rfl)
      fun writes => ?_).congr fun walk => by rw [walkAssign]
    · exact scope_assignOwnProperty env walk.impure types object field
    · simp [place, writes]
  | staticProperty ref field =>
    refine (((binds_ref always ref surely.2).scope_then fun walk => ?_).mono (fun _ => rfl)
      fun writes => ?_).congr fun walk => by rw [walkAssign]
    · exact scope_assignOwnStatic env walk.impure types ref field
    · simp [place, writes]
  | _ =>
    refine (read.mono (fun _ => rfl) fun writes => ?_).congr fun walk => by rw [walkAssign.eq_def]
    rw [place.eq_def, Runs.writes_seq]
    exact .inl writes

theorem binds_pattern (always : Bool) (types : TypeSet) (position : Nat) (items : List Item)
    (surely : everyItem (bindsSurely env name) items = true) :
    Binds always name false (storeItems env items) (walkPattern env types position items) := by
  cases items with
  | nil => exact .of_scope fun walk => by rw [walkPattern_nil]
  | cons item rest =>
    cases item with
    | skip =>
      rw [storeItems]
      exact (binds_pattern always types position rest surely).congr fun walk => by
        rw [walkPattern]
    | entry key value byRef unpack =>
      simp only [everyItem, Bool.and_eq_true] at surely
      have slot := (binds_assign always .plain (slotTypes types position key) value
        surely.1.2).scope_then fun walk => scope_shareSlot walk byRef value
      refine ((((binds_optional always key surely.1.1).seq slot).seq
        (binds_pattern always types (position + 1) rest surely.2)).mono (fun _ => rfl)
          fun writes => ?_).congr fun walk => by rw [walkPattern]
      simp only [storeItems, Runs.writes_seq] at writes ⊢
      tauto

theorem binds_store (always : Bool) (types : TypeSet) (outer : Span) (base : Expr)
    (surely : everyExpr (bindsSurely env name) base = true) :
    Binds always name false ((container env base).seq (store env base))
      (walkStore env types outer base) := by
  obtain ⟨kind, span⟩ := base
  simp only [everyExpr, Bool.and_eq_true] at surely
  have read := binds_kind always kind span surely.1 surely.2
  cases kind with
  | var other =>
    rw [container, store, Runs.done_seq]
    exact (binds_storeInVar outermost types other outer span).congr fun walk => by rw [walkStore]
  | paren inner =>
    rw [container_paren, store_paren]
    exact (binds_store always types outer inner surely.2).congr fun walk => by rw [walkStore_paren]
  | element base index =>
    simp only [everyOperand, Bool.and_eq_true] at surely
    refine ((((binds_store always types.inArray base.span base surely.2.1).seq
      (binds_optional always index surely.2.2)).scope_then fun walk =>
        walk.scope_checkArrayAccess env base outer).mono (fun _ => rfl)
          fun writes => ?_).congr fun walk => by rw [walkStore]
    simp only [container, store, Runs.writes_seq] at writes ⊢
    tauto
  | property | staticProperty =>
    refine (read.impure_then.mono (fun _ => rfl) fun writes => ?_).congr fun walk => by
      rw [walkStore]
    simp [container, writes]
  | _ =>
    refine (read.mono (fun _ => rfl) fun writes => ?_).congr fun walk => by rw [walkStore.eq_def]
    rw [container.eq_def, Runs.writes_seq]
    exact .inl writes

theorem binds_shared (always : Bool) (value : Expr)
    (surely : everyExpr (bindsSurely env name) value = true) :
    Binds always name false (bindReference env value) (walkShared env value) := by
  obtain ⟨kind, span⟩ := value
  simp only [everyExpr, Bool.and_eq_true] at surely
  have read := binds_kind always kind span surely.1 surely.2
  cases kind with
  | paren inner =>
    rw [bindReference_paren]
    exact (binds_shared always inner surely.2).congr fun walk => by rw [walkShared_paren]
  | var other =>
    rw [bindReference]
    exact (binds_shareVar other span).congr fun walk => by rw [walkShared]
  | _ =>
    rw [bindReference.eq_def]
    exact (read.mono (fun _ => rfl) id).congr fun walk => by rw [walkShared.eq_def]

theorem binds_args (always : Bool) (params : Option (List ParamInfo)) (position : Nat)
    (args : List Arg) (surely : everyArg (bindsSurely env name) args = true) :
    Binds always name (byValue params && everyArg (bindsNothing env) args)
      (evaluateArgs env params position args) (walkArgs env params position args) := by
  cases args with
  | nil => exact .of_scope fun walk => by rw [walkArgs_nil]
  | cons arg rest =>
    obtain ⟨value, unpack, label⟩ := arg
    simp only [everyArg, Bool.and_eq_true] at surely
    have others := binds_args always params (position + 1) rest surely.2
    rw [evaluateArgs]
    cases found : refParam? params position with
    | none =>
      refine (((binds_expr always value surely.1).seq others).mono ?_ id).congr fun walk => by
        rw [walkArgs, found]
      simp only [everyArg, Bool.and_eq_false_iff]
      tauto
    | some param =>
      have taken : byValue params = false := by
        refine Bool.eq_false_iff.mpr fun values => ?_
        rw [refParam?_of_byValue values] at found
        cases found
      refine (((binds_passed always param value.span value surely.1).seq others).mono ?_ id).congr
        fun walk => by rw [walkArgs, found]
      simp [taken]

theorem binds_passed (always : Bool) (param : ParamInfo) (outer : Span) (value : Expr)
    (surely : everyExpr (bindsSurely env name) value = true) :
    Binds always name false (Execution.pass env value) (walkPassed env param outer value) := by
  obtain ⟨kind, span⟩ := value
  simp only [everyExpr, Bool.and_eq_true] at surely
  have read := binds_kind always kind span surely.1 surely.2
  cases kind with
  | paren inner =>
    rw [Execution.pass_paren]
    exact (binds_passed always param outer inner surely.2).congr fun walk => by rw [walkPassed_paren]
  | var other =>
    rw [Execution.pass]
    exact (binds_passVar param other span).congr fun walk => by rw [walkPassed]
  | element base index =>
    simp only [everyOperand, Bool.and_eq_true] at surely
    refine ((((binds_store always .mixed base.span base surely.2.1).seq
      (binds_optional always index surely.2.2)).scope_then fun walk =>
        walk.scope_checkArrayAccess env base outer).mono (fun _ => rfl)
          fun writes => ?_).congr fun walk => by rw [walkPassed]
    simp only [Execution.pass, Runs.writes_seq] at writes ⊢
    tauto
  | _ =>
    rw [Execution.pass.eq_def]
    exact (read.mono (fun _ => rfl) id).congr fun walk => by rw [walkPassed.eq_def]

/-- An argument that is not the variable, whether or not it is passed by reference. -/
theorem binds_otherArgs (always : Bool) (params : Option (List ParamInfo)) (position : Nat)
    (args : List Arg) (surely : everyArg (bindsSurely env name) args = true)
    (others : args.all (·.value.rootName? != some name) = true) :
    Binds always name (everyArg (bindsNothing env) args)
      (evaluateArgs env none position args) (walkArgs env params position args) := by
  cases args with
  | nil => exact .of_scope fun walk => by rw [walkArgs_nil]
  | cons arg rest =>
    obtain ⟨value, unpack, label⟩ := arg
    simp only [everyArg, Bool.and_eq_true] at surely
    simp only [List.all_cons, Bool.and_eq_true, bne_iff_ne] at others
    have rest := binds_otherArgs always params (position + 1) rest surely.2 others.2
    rw [evaluateArgs]
    cases found : refParam? params position with
    | none =>
      exact ((binds_expr always value surely.1).seq rest).congr fun walk => by
        rw [walkArgs, found]
    | some param =>
      exact ((binds_otherPassed always param value.span value surely.1 others.1).seq rest).congr
        fun walk => by rw [walkArgs, found]

theorem binds_otherPassed (always : Bool) (param : ParamInfo) (outer : Span) (value : Expr)
    (surely : everyExpr (bindsSurely env name) value = true)
    (other : value.rootName? ≠ some name) :
    Binds always name (everyExpr (bindsNothing env) value) (evaluate env value)
      (walkPassed env param outer value) := by
  obtain ⟨kind, span⟩ := value
  simp only [everyExpr, Bool.and_eq_true] at surely
  have read := binds_kind always kind span surely.1 surely.2
  rw [evaluate]
  cases kind with
  | paren inner =>
    rw [evaluateKind_paren]
    exact (binds_otherPassed always param outer inner surely.2 other).congr fun walk => by
      rw [walkPassed_paren]
  | var passed =>
    intro walk holds
    rw [walkPassed] at holds
    refine .inl ((Scope.of_holds_add holds).resolve_right fun ⟨equal, _⟩ => other ?_)
    rw [Expr.rootName?, equal]
  | element base index =>
    simp only [everyOperand, Bool.and_eq_true] at surely
    rw [evaluateKind]
    exact (((binds_otherStore always .mixed base.span base surely.2.1 other).cutOff
      (fun _ => binds_optional always index surely.2.2) (kept_index surely.1)).scope_then
        fun walk => walk.scope_checkArrayAccess env base outer).congr fun walk => by rw [walkPassed]
  | _ => exact read.congr fun walk => by rw [walkPassed.eq_def]

theorem binds_otherStore (always : Bool) (types : TypeSet) (outer : Span) (base : Expr)
    (surely : everyExpr (bindsSurely env name) base = true) (other : base.rootName? ≠ some name) :
    Binds always name (everyExpr (bindsNothing env) base) (evaluate env base)
      (walkStore env types outer base) := by
  obtain ⟨kind, span⟩ := base
  simp only [everyExpr, Bool.and_eq_true] at surely
  have read := binds_kind always kind span surely.1 surely.2
  rw [evaluate]
  cases kind with
  | paren inner =>
    rw [evaluateKind_paren]
    exact (binds_otherStore always types outer inner surely.2 other).congr fun walk => by
      rw [walkStore_paren]
  | var stored =>
    intro walk holds
    rw [walkStore] at holds
    refine .inl ((of_holds_storeInVar outermost holds).resolve_left fun equal => other ?_)
    rw [Expr.rootName?, equal]
  | element base index =>
    simp only [everyOperand, Bool.and_eq_true] at surely
    rw [evaluateKind]
    exact (((binds_otherStore always types.inArray base.span base surely.2.1 other).cutOff
      (fun _ => binds_optional always index surely.2.2) (kept_index surely.1)).scope_then
        fun walk => walk.scope_checkArrayAccess env base outer).congr fun walk => by rw [walkStore]
  | property | staticProperty => exact read.impure_then.congr fun walk => by rw [walkStore]
  | _ => exact read.congr fun walk => by rw [walkStore.eq_def]

theorem binds_compactArgs (always : Bool) (args : List Arg)
    (surely : everyArg (bindsSurely env name) args = true) :
    Binds always name (everyArg (bindsNothing env) args) (evaluateCompactArgs env args)
      (walkCompactArgs env args) := by
  cases args with
  | nil => exact .of_scope fun walk => by rw [walkCompactArgs_nil]
  | cons arg rest =>
    obtain ⟨value, unpack, label⟩ := arg
    simp only [everyArg, Bool.and_eq_true] at surely
    rw [evaluateCompactArgs]
    exact ((binds_compact always value.span value surely.1).seq
      (binds_compactArgs always rest surely.2)).congr fun walk => by rw [walkCompactArgs]

theorem binds_compact (always : Bool) (outer : Span) (value : Expr)
    (surely : everyExpr (bindsSurely env name) value = true) :
    Binds always name (everyExpr (bindsNothing env) value) (evaluateCompact env value)
      (walkCompact env outer value) := by
  obtain ⟨kind, span⟩ := value
  simp only [everyExpr, Bool.and_eq_true] at surely
  have read := binds_kind always kind span surely.1 surely.2
  cases kind with
  | paren inner =>
    rw [evaluateCompact_paren]
    exact (binds_compact always outer inner surely.2).congr fun walk => by rw [walkCompact_paren]
  | string text =>
    cases text with
    | none =>
      rw [evaluateCompact.eq_def]
      exact read.congr fun walk => by rw [walkCompact.eq_def]
    | some text =>
      exact (binds_read outermost ("$" ++ text) outer).congr fun walk => by rw [walkCompact]
  | array items =>
    rw [evaluateCompact]
    exact (binds_compactItems always items surely.2).congr fun walk => by rw [walkCompact]
  | _ =>
    rw [evaluateCompact.eq_def]
    exact read.congr fun walk => by rw [walkCompact.eq_def]

theorem binds_compactItems (always : Bool) (items : List Item)
    (surely : everyItem (bindsSurely env name) items = true) :
    Binds always name (everyItem (bindsNothing env) items) (evaluateCompactItems env items)
      (walkCompactItems env items) := by
  cases items with
  | nil => exact .of_scope fun walk => by rw [walkCompactItems_nil]
  | cons item rest =>
    cases item with
    | skip =>
      rw [evaluateCompactItems]
      exact (binds_compactItems always rest surely).congr fun walk => by rw [walkCompactItems]
    | entry key value byRef unpack =>
      simp only [everyItem, Bool.and_eq_true] at surely
      rw [evaluateCompactItems]
      refine (((binds_compact always value.span value surely.1.2).seq
        (binds_compactItems always rest surely.2)).mono ?_ id).congr fun walk => by
          rw [walkCompactItems]
      simp only [everyItem, Bool.and_eq_false_iff]
      tauto

/-- A test gives in its true outcome what every run of it writes. -/
theorem binds_test (always negated inLogic : Bool) (test : Expr)
    (surely : everyExpr (bindsSurely env name) test = true) (guard : Guard)
    (holds : (walkTest env negated inLogic test guard).walk.scope.Holds always name) :
    guard.walk.scope.Holds always name ∨
      everyExpr (bindsNothing env) test = false ∧ (evaluate env test).Writes name := by
  obtain ⟨kind, span⟩ := test
  have whole := surely
  simp only [everyExpr, Bool.and_eq_true] at surely
  have read := binds_kind always kind span surely.1 surely.2 guard.walk
  rw [evaluate, everyExpr]
  cases kind with
  | paren inner =>
    rw [walkTest_paren] at holds
    rw [evaluateKind_paren]
    exact binds_test always negated inLogic inner surely.2 guard holds
  | binary op left right =>
    cases op with
    | and | or =>
      simp only [everyOperand, Bool.and_eq_true] at surely
      have free := (Bool.and_eq_true_iff.mp surely.1).2
      dsimp only at free
      rw [walkTest] at holds
      have left := (binds_test always negated true right surely.2.2 _ holds).resolve_right
        fun bound => Bool.false_ne_true (bound.1.symm.trans free)
      refine (binds_test always negated true _ surely.2.1 guard left).imp_right fun bound => ?_
      simp [evaluateKind, everyOperand, bound.1, bound.2]
    | _ => exact read (by simpa only [walkTest, Guard.mapWalk] using holds)
  | unary op operand =>
    cases op with
    | not =>
      rw [walkTest] at holds
      rcases binds_test always (!negated) inLogic operand surely.2 _ holds with holds | bound
      · exact .inl (of_holds_markNotEmpty surely.2 holds)
      · exact .inr ⟨by simp [everyOperand, bound.1], by simp [evaluateKind, bound.2]⟩
    | _ => exact read (by simpa only [walkTest, Guard.mapWalk] using holds)
  | isset values =>
    have own := (Bool.and_eq_true_iff.mp surely.1).2
    dsimp only at own
    simp only [Bool.and_eq_true] at own
    rw [walkTest] at holds
    have probes := binds_probes always values surely.2
    rw [own.1] at probes
    exact .inl (of_holds_markIsset own.2 (probes.keeps _ holds))
  | instanceOf subject ref =>
    have other := (Bool.and_eq_true_iff.mp surely.1).2
    rw [bne_iff_ne] at other
    rw [walkTest] at holds
    rw [walkKind] at read
    exact read ((of_holds_narrowTo (guard.mapWalk _) other).1 holds)
  | _ => exact read (by simpa only [walkTest, Guard.mapWalk] using holds)

end

end

end Flow

end PhpAudit
