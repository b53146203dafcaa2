/-
This file proves that a walk remembers every value that it sees assigned to a property of `$this`: at
its end, the types that the value had where it was assigned are among the remembered assignments. The
list of these only grows. Each step that is not an assignment to a property leaves it alone, and so do
closures and arrow functions, however much is assigned in them.
-/

import PhpAudit.Proofs.Flow.Deafness
import PhpAudit.Proofs.Flow.Filling

namespace PhpAudit

open PhpAudit.Flow

/-! ### Steps that remember nothing -/

namespace Walk

variable (env : Env) (walk : Walk)

theorem assignments_foldl {Item : Type} {step : Walk → Item → Walk}
    (same : ∀ walk item, (step walk item).assignments = walk.assignments) (items : List Item) :
    (items.foldl step walk).assignments = walk.assignments := by
  induction items generalizing walk with
  | nil => rfl
  | cons item rest inductionHypothesis => exact (inductionHypothesis _).trans (same walk item)

theorem assignments_track (name : String) (span : Span) :
    (walk.track env name span).assignments = walk.assignments := by
  unfold track
  split
  · rfl
  split <;> rfl

theorem assignments_read (name : String) (span : Span) :
    (walk.read env name span).assignments = walk.assignments := by
  have checked : (walk.checkDiscard env name span).assignments = walk.assignments := by
    unfold checkDiscard
    split <;> rfl
  have missing (walk : Walk) : (walk.readMissing env name span).assignments = walk.assignments := by
    unfold readMissing
    dsimp only
    split <;> rfl
  unfold read
  dsimp only
  split
  · exact checked
  split
  · exact checked
  · exact (missing _).trans checked

theorem assignments_readAll (names : List String) (span : Span) :
    (walk.readAll env names span).assignments = walk.assignments :=
  assignments_foldl walk (fun walk name => assignments_read env walk name span) names

theorem assignments_leaveByCallee (exits : Exits) :
    (walk.leaveByCallee env exits).assignments = walk.assignments := by
  unfold leaveByCallee
  split <;> rfl

theorem assignments_leaveByFound (found : Option FoundMethod) :
    (walk.leaveByFound env found).assignments = walk.assignments := by
  cases found with
  | none => rfl
  | some found => exact assignments_leaveByCallee env walk found.info.exits

theorem assignments_checkArrayAccess (base : Expr) (span : Span) :
    (walk.checkArrayAccess env base span).assignments = walk.assignments := by
  unfold checkArrayAccess
  split
  · dsimp only
    split <;> rfl
  · rfl

theorem assignments_checkDeadCode (stmt : Stmt) :
    (walk.checkDeadCode env stmt).assignments = walk.assignments := by
  unfold checkDeadCode
  extract_lets exempt
  split <;> rfl

theorem assignments_dropMarkers (markers : List String) :
    (walk.dropMarkers markers).assignments = walk.assignments := by
  refine assignments_foldl walk (fun walk name => ?_) markers
  split <;> rfl

theorem assignments_flushUnused : (walk.flushUnused env).assignments = walk.assignments := by
  unfold flushUnused
  dsimp only
  split
  · rfl
  · refine assignments_foldl walk (fun walk write => ?_) _
    rfl

end Walk

namespace Guard

variable (guard : Guard)

theorem assignments_mark (guarded : Expr) :
    (guard.mark guarded).walk.assignments = guard.walk.assignments := by
  unfold mark
  split
  · rfl
  split <;> rfl

theorem assignments_markNotEmpty (negated : Bool) (operand : Expr) :
    (guard.markNotEmpty negated operand).walk.assignments = guard.walk.assignments := by
  unfold markNotEmpty
  split
  · split
    · rfl
    · exact assignments_mark guard _
  · rfl

theorem assignments_markIsset (negated : Bool) (values : List Expr) :
    (guard.markIsset negated values).walk.assignments = guard.walk.assignments := by
  unfold markIsset
  split
  · rfl
  induction values generalizing guard with
  | nil => rfl
  | cons value rest inductionHypothesis =>
    exact (inductionHypothesis (guard.mark value)).trans (assignments_mark guard value)

theorem assignments_narrowTo (naming : Naming) (subject : Expr) (ref : ClassRef)
    (negated inLogic : Bool) : (guard.narrowTo naming subject ref negated inLogic).walk.assignments =
      guard.walk.assignments := by
  unfold narrowTo
  split
  · unfold narrow
    dsimp only
    split <;> rfl
  · rfl

end Guard

namespace Flow

variable (env : Env) (walk : Walk)

theorem assignments_assignVar (mode : AssignMode) (types : TypeSet) (name : String) (span : Span) :
    (assignVar env mode types name span walk).assignments = walk.assignments := by
  cases mode with
  | plain => exact Walk.assignments_track env _ name span
  | iteration outer => exact Walk.assignments_track env _ name outer
  | compound | reference => rfl

theorem assignments_storeInVar (types : TypeSet) (name : String) (span : Span) :
    (storeInVar env types name span walk).assignments = walk.assignments := by
  unfold storeInVar
  split
  · rfl
  · exact Walk.assignments_read env _ name span

theorem assignments_shareVar (name : String) :
    (shareVar env name walk).assignments = walk.assignments := by
  unfold shareVar
  dsimp only
  split <;> rfl

theorem assignments_shareSlot (byRef : Bool) (value : Expr) :
    (shareSlot byRef value walk).assignments = walk.assignments := by
  unfold shareSlot
  split <;> rfl

/-- What was remembered stays, whether or not the property is one of `$this`. -/
theorem subset_assignOwnProperty (types : TypeSet) (object : Expr) (name : Option String) :
    walk.assignments ⊆ (assignOwnProperty env types object name walk).assignments := by
  unfold assignOwnProperty
  split
  · split
    · exact List.subset_append_left _ _
    · exact List.Subset.refl _
  · exact List.Subset.refl _

theorem subset_assignOwnStatic (types : TypeSet) (ref : ClassRef) (name : Option String) :
    walk.assignments ⊆ (assignOwnStatic env types ref name walk).assignments := by
  unfold assignOwnStatic
  split
  · split
    · exact List.subset_append_left _ _
    · exact List.Subset.refl _
  · exact List.Subset.refl _

theorem assignments_tolerate (function : String) :
    (tolerate function walk).assignments = walk.assignments := by
  unfold tolerate
  split <;> rfl

theorem assignments_captures (captures : List Capture) (inner : Scope) :
    (captures.foldl (capture env) (walk, inner)).1.assignments = walk.assignments := by
  induction captures generalizing walk inner with
  | nil => rfl
  | cons captured rest inductionHypothesis =>
    refine (inductionHypothesis _ _).trans ?_
    show (if captured.byRef then _ else _ : Walk).assignments = walk.assignments
    split <;> split <;> rfl

/-- What is assigned in a closure is forgotten. -/
theorem assignments_closure (span : Span) (params : List Param) (captures : List Capture)
    (hint : Option String) (isStatic : Bool) (body : List Stmt) :
    (walkKind env span (.closure params captures hint isStatic body) walk).assignments =
      walk.assignments := by
  rw [walkKind]
  exact assignments_captures env walk captures _

/-- What is assigned in an arrow function is forgotten. -/
theorem assignments_arrow (span : Span) (params : List Param) (hint : Option String)
    (isStatic : Bool) (body : Expr) :
    (walkKind env span (.arrow params hint isStatic body) walk).assignments = walk.assignments := by
  rw [walkKind]
  refine Walk.assignments_foldl _ (fun walk name => ?_) _
  rfl

theorem assignments_checkCaseBreak (span : Span) (rest : List Case) :
    (checkCaseBreak env span rest walk).assignments = walk.assignments := by
  unfold checkCaseBreak
  split
  · split <;> rfl
  · rfl

theorem assignments_bindCaught (types : List String) (name : Option String) :
    (bindCaught env types name walk).assignments = walk.assignments := by
  cases name <;> rfl

theorem assignments_checkFinally (body : List Stmt) (tried : Block)
    (catches : List (List Stmt × Block)) (final : List Stmt) (finalSpan : Span) (finished : Block) :
    (checkFinally env body tried catches final finalSpan finished walk).assignments =
      walk.assignments := by
  unfold checkFinally
  split
  · rfl
  split
  · split
    · refine Walk.assignments_foldl walk (fun walk point => ?_) _
      rfl
    · rfl
  · rfl

theorem assignments_checkForeachKey (key : Option Expr) (value : Expr) :
    (checkForeachKey env key value walk).assignments = walk.assignments := by
  unfold checkForeachKey
  split
  · rfl
  split
  · split <;> rfl
  · rfl

theorem Chain.assignments_close (chain : Chain) (continuesInFalse : Bool) :
    (chain.close continuesInFalse).assignments = chain.walk.assignments := by
  unfold Chain.close
  dsimp only
  rw [Walk.assignments_dropMarkers]
  split <;> rfl

end Flow

/-! ### Remembering -/

/-- The assignment that a walk should remember. -/
def Flow.Filling.note (env : Env) (filling : Filling) : PropertyAssignment :=
  { name := filling.name, isStatic := false, types := filling.types env }

/-- Steps from `before` to `after` keep what was remembered, and remember some values. -/
structure Walk.Remembers (env : Env) (before after : Walk) (fillings : List Filling) : Prop where
  kept : before.assignments ⊆ after.assignments
  noted : ∀ filling ∈ fillings, filling.note env ∈ after.assignments

namespace Walk.Remembers

variable {env : Env} {before between after : Walk} {first second : List Filling}

/-- Steps that remember nothing. -/
theorem of_eq (same : after.assignments = before.assignments) : Remembers env before after [] :=
  ⟨same ▸ List.Subset.refl _, fun _ none => absurd none List.not_mem_nil⟩

theorem trans (left : Remembers env before between first) (right : Remembers env between after second) :
    Remembers env before after (first ++ second) where
  kept := List.Subset.trans left.kept right.kept
  noted filling member := by
    rcases List.mem_append.mp member with inFirst | inSecond
    · exact right.kept (left.noted filling inFirst)
    · exact right.noted filling inSecond

/-- Between two parts of a walk values are assigned that are remembered at its end. -/
theorem insert (left : Remembers env before between first)
    (right : Remembers env between after second) {assigned : List Filling}
    (noted : ∀ filling ∈ assigned, filling.note env ∈ after.assignments) :
    Remembers env before after (first ++ assigned ++ second) where
  kept := List.Subset.trans left.kept right.kept
  noted filling member := by
    rcases List.mem_append.mp member with earlier | inSecond
    · rcases List.mem_append.mp earlier with inFirst | own
      · exact right.kept (left.noted filling inFirst)
      · exact noted filling own
    · exact right.noted filling inSecond

/-- Before some steps others may be taken that remember nothing. -/
theorem from_eq (remembers : Remembers env between after first)
    (same : between.assignments = before.assignments) : Remembers env before after first :=
  ⟨same ▸ remembers.kept, remembers.noted⟩

/-- After some steps others may be taken that remember nothing. -/
theorem to_eq (remembers : Remembers env before between first)
    (same : after.assignments = between.assignments) : Remembers env before after first :=
  ⟨same ▸ remembers.kept, same ▸ remembers.noted⟩

theorem conditionally {steps : Walk → Walk} (remembers : Remembers env before (steps before) first) :
    Remembers env before (before.conditionally steps) first :=
  ⟨remembers.kept, remembers.noted⟩

theorem within {steps : Walk → Walk} {block : Block}
    (remembers : Remembers env { before with block } (steps { before with block }) first) :
    Remembers env before (before.within block steps).2 first :=
  ⟨remembers.kept, remembers.noted⟩

theorem silently {steps : Walk → Walk}
    (remembers : Remembers env { before with report := { before.report with enabled := false } }
      (steps { before with report := { before.report with enabled := false } }) first) :
    Remembers env before (before.silently steps) first :=
  ⟨remembers.kept, remembers.noted⟩

/-- A condition is walked in a block of its own. -/
theorem split {guard : Guard} {block : Block} (remembers : Remembers env between guard.walk first)
    (same : between.assignments = before.assignments) :
    Remembers env before (guard.split block).walk first :=
  ⟨same ▸ remembers.kept, remembers.noted⟩

end Walk.Remembers

namespace Flow

/-! ### Composite expressions -/

theorem walkKind_assign (env : Env) (span : Span) (target value : Expr) (op : AssignOp) (walk : Walk) :
    walkKind env span (.assign target value op false) walk =
      let after := walkExpr env value walk
      let (mode, types) := assignedAs env span target value op after
      walkAssign env mode types target after := by
  cases op <;> rw [walkKind] <;> rfl

section

variable {env : Env} {walk : Walk} (span : Span)

theorem remembers_assign {target value : Expr} (op : AssignOp) (byRef : Bool)
    (valued : walk.Remembers env (walkExpr env value walk) (fillingsExpr env value walk))
    (shared : walk.Remembers env (walkShared env value walk) (fillingsShared env value walk))
    (assigned : ∀ mode types (walk : Walk), walk.Remembers env (walkAssign env mode types target walk)
      (fillingsAssign env mode types target walk))
    (notes : ∀ types (walk : Walk) name, ownProperty? target .assign false = some name →
      { name, isStatic := false, types } ∈ (walkAssign env .plain types target walk).assignments) :
    walk.Remembers env (walkKind env span (.assign target value op byRef) walk)
      (fillingsKind env span (.assign target value op byRef) walk) := by
  cases byRef with
  | true =>
    rw [walkKind, if_pos rfl]
    exact shared.trans (assigned _ _ _)
  | false =>
    rw [walkKind_assign]
    let after := walkExpr env value walk
    have own (name : String) (named : ownProperty? target op false = some name) :
        op = .assign ∧ assignedAs env span target value op after =
          (.plain, after.localType env value) := by
      cases op <;> first | exact ⟨rfl, rfl⟩ | cases named
    refine valued.insert (assigned _ _ after) fun filling member => ?_
    obtain ⟨name, named, rfl⟩ := List.mem_map.mp member
    obtain ⟨rfl, same⟩ := own name (Option.mem_toList.mp named)
    exact notes _ after name (Option.mem_toList.mp named)

theorem remembers_binary (op : BinaryOp) {left right : Expr}
    (first : walk.Remembers env (walkExpr env left walk) (fillingsExpr env left walk))
    (probed : walk.Remembers env (walkProbe env left walk) (fillingsProbe env left walk))
    (second : ∀ walk : Walk, walk.Remembers env (walkExpr env right walk) (fillingsExpr env right walk)) :
    walk.Remembers env (walkKind env span (.binary op left right) walk)
      (fillingsKind env span (.binary op left right) walk) := by
  rw [walkKind.eq_def]
  cases op with
  | coalesce => exact probed.trans (second _).conditionally
  | and | or | lowOr => exact first.trans (second _).conditionally
  | _ => exact first.trans (second _)

theorem remembers_ternary {test yes no : Expr}
    (tested : (Guard.start walk []).walk.Remembers env
      (walkTest env false false test (.start walk [])).walk
      (fillingsTest env false false test (.start walk [])))
    (inYes : ∀ walk : Walk, walk.Remembers env (walkExpr env yes walk) (fillingsExpr env yes walk))
    (inNo : ∀ walk : Walk, walk.Remembers env (walkExpr env no walk) (fillingsExpr env no walk)) :
    walk.Remembers env (walkKind env span (.ternary test (some yes) no) walk)
      (fillingsKind env span (.ternary test (some yes) no) walk) := by
  rw [walkKind]
  let split := (walkTest env false false test (.start walk [])).split walk.block
  let between := (split.walk.within split.yes (walkExpr env yes)).2
  have first : walk.Remembers env split.walk _ := tested.split rfl
  have second : split.walk.Remembers env between _ :=
    (inYes { split.walk with block := split.yes }).within
  have third : between.Remembers env (between.within split.no (walkExpr env no)).2 _ :=
    (inNo { between with block := split.no }).within
  exact ((first.trans second).trans third).to_eq (Walk.assignments_dropMarkers _ _)

theorem remembers_call (name : String) {args : List Arg}
    (compacted : walk.Remembers env (walkCompactArgs env args walk) (fillingsCompactArgs env args walk))
    (passed : ∀ params (walk : Walk), walk.Remembers env (walkArgs env params 0 args walk)
      (fillingsArgs env params 0 args walk)) :
    walk.Remembers env (walkKind env span (.call name args) walk)
      (fillingsKind env span (.call name args) walk) := by
  rw [walkKind, fillingsKind_call]
  dsimp only
  split
  · exact compacted
  have tolerated := assignments_tolerate walk (globalName env name)
  generalize tolerate (globalName env name) walk = started at tolerated
  have entered (isPure : Bool) :
      (if isPure then started else started.impure).assignments = walk.assignments := by
    cases isPure <;> exact tolerated
  refine ((passed ((callee? env name).map (·.params)) _).from_eq
    (entered ((callee? env name).any (·.isPure)))).to_eq ?_
  generalize walkArgs env _ 0 args _ = after
  cases callee? env name with
  | none => dsimp only; split <;> rfl
  | some info =>
    have left := after.assignments_leaveByCallee env info.exits
    dsimp only
    split <;> exact left

end

/-! ### The walk over expressions -/

section

variable {env : Env} (owned : env.naming.owner.isEmpty = false)

include owned

theorem mem_assignOwnProperty (walk : Walk) (types : TypeSet) {object : Expr}
    {written : Option String} {nullsafe : Bool} {span : Span} {name : String}
    (own : ownProperty? ⟨.property object written nullsafe, span⟩ .assign false = some name) :
    { name, isStatic := false, types } ∈
      (assignOwnProperty env types object written walk).assignments := by
  cases written with
  | none => cases own
  | some written =>
    unfold ownProperty? at own
    simp only [Expr.unparen] at own
    split at own
    · next ofThis =>
      obtain rfl := Option.some.inj own
      unfold assignOwnProperty
      rw [ofThis, owned]
      exact List.mem_append_right _ List.mem_cons_self
    · cases own

-- the hypothesis is used by the theorems of a mutual block together, not by each of them
set_option linter.unusedSectionVars false

-- Every function of the walk is unfolded once, and the list of what it sees unfolds by computation; what
-- remains are the parts, put together in the order in which they are walked. The list is another for
-- each part, so this is not one relation that could be an instance of `Steps`.

mutual

/-- The walk over an expression remembers what it sees assigned to properties of `$this`. -/
theorem walkExpr_remembers (value : Expr) (walk : Walk) :
    walk.Remembers env (walkExpr env value walk) (fillingsExpr env value walk) := by
  obtain ⟨kind, span⟩ := value
  rw [walkExpr]
  exact walkKind_remembers span kind walk

theorem walkKind_remembers (span : Span) (kind : ExprKind) (walk : Walk) :
    walk.Remembers env (walkKind env span kind walk) (fillingsKind env span kind walk) := by
  cases kind
  case assign target value op byRef =>
    exact remembers_assign span op byRef (walkExpr_remembers value walk) (walkShared_remembers value walk)
      (fun mode types => walkAssign_remembers mode types target)
      fun types walk name => walkAssign_notes .plain types target walk name
  case binary op left right =>
    exact remembers_binary span op (walkExpr_remembers left walk) (walkProbe_remembers left walk)
      (walkExpr_remembers right)
  case ternary test yes no =>
    cases yes with
    | none =>
      rw [walkKind]
      exact (walkExpr_remembers test walk).trans (walkExpr_remembers no _).conditionally
    | some yes =>
      exact remembers_ternary span (walkTest_remembers false false test _) (walkExpr_remembers yes)
        (walkExpr_remembers no)
  case call name args =>
    exact remembers_call span name (walkCompactArgs_remembers args walk)
      fun params => walkArgs_remembers params 0 args
  case closure params captures hint isStatic body =>
    exact .of_eq (assignments_closure env walk span params captures hint isStatic body)
  case arrow params hint isStatic body =>
    exact .of_eq (assignments_arrow env walk span params hint isStatic body)
  all_goals rw [walkKind]
  case var name => exact .of_eq (walk.assignments_read env name span)
  case dynamicVar reads | interpolated reads | unmodeled reads =>
    exact .of_eq (walk.assignments_readAll env reads span)
  case print reads | exit die reads => exact .of_eq (Walk.assignments_readAll env _ reads span)
  case paren inner | clone inner | unary _ inner | property inner _ _ =>
    exact walkExpr_remembers inner walk
  case includeFile inner | yieldFrom inner => exact (walkExpr_remembers inner walk.impure).from_eq rfl
  case throw inner => exact (walkExpr_remembers inner walk).to_eq rfl
  case isEmpty inner => exact walkProbe_remembers inner walk
  case isset values => exact walkProbes_remembers values walk
  case array items | list items => exact walkItems_remembers items walk
  case element base index =>
    exact ((walkExpr_remembers base _).trans (walkOptional_remembers index _)).from_eq
      (walk.assignments_checkArrayAccess env base span)
  case instanceOf subject ref => exact (walkExpr_remembers subject walk).trans (walkRef_remembers ref _)
  case callValue function args =>
    exact ((walkExpr_remembers function walk.impure).trans (walkArgs_remembers none 0 args _)).from_eq rfl
  case methodCall object method args nullsafe =>
    exact (((walkExpr_remembers object walk.impure).trans (walkArgs_remembers _ 0 args _)).to_eq
      (Walk.assignments_leaveByFound env _ _)).from_eq rfl
  case staticCall ref method args =>
    exact (((walkRef_remembers ref walk.impure).trans (walkArgs_remembers _ 0 args _)).to_eq
      (Walk.assignments_leaveByFound env _ _)).from_eq rfl
  case new ref args =>
    exact ((walkRef_remembers ref walk.impure).trans (walkArgs_remembers _ 0 args _)).from_eq rfl
  case staticProperty ref name | classConstant ref name => exact walkRef_remembers ref walk
  case matchOn subject arms => exact (walkExpr_remembers subject walk).trans (walkArms_remembers arms _)
  case yield key value =>
    exact ((walkOptional_remembers key walk.impure).trans (walkOptional_remembers value _)).from_eq rfl
  case integer | float | string | boolean | null | magic | constant => exact .of_eq rfl

theorem walkExprs_remembers (values : List Expr) (walk : Walk) :
    walk.Remembers env (walkExprs env values walk) (fillingsExprs env values walk) := by
  cases values with
  | nil => exact .of_eq rfl
  | cons value rest =>
    rw [walkExprs]
    exact (walkExpr_remembers value walk).trans (walkExprs_remembers rest _)

theorem walkOptional_remembers (value : Option Expr) (walk : Walk) :
    walk.Remembers env (walkOptional env value walk) (fillingsOptional env value walk) := by
  cases value with
  | none => exact .of_eq rfl
  | some value =>
    rw [walkOptional]
    exact walkExpr_remembers value walk

theorem walkConditionals_remembers (values : List Expr) (walk : Walk) :
    walk.Remembers env (walkConditionals env values walk) (fillingsConditionals env values walk) := by
  cases values with
  | nil => exact .of_eq rfl
  | cons value rest =>
    rw [walkConditionals]
    exact (walkExpr_remembers value walk).conditionally.trans (walkConditionals_remembers rest _)

theorem walkItems_remembers (items : List Item) (walk : Walk) :
    walk.Remembers env (walkItems env items walk) (fillingsItems env items walk) := by
  cases items with
  | nil => exact .of_eq rfl
  | cons item rest =>
    cases item with
    | skip =>
      rw [walkItems]
      exact walkItems_remembers rest walk
    | entry key value byRef unpack =>
      rw [walkItems]
      exact ((walkOptional_remembers key walk).trans (walkExpr_remembers value _)).trans
        (walkItems_remembers rest _)

theorem walkRef_remembers (ref : ClassRef) (walk : Walk) :
    walk.Remembers env (walkRef env ref walk) (fillingsRef env ref walk) := by
  cases ref with
  | dynamic value =>
    rw [walkRef]
    exact walkExpr_remembers value walk
  | named | self | static | parent => exact .of_eq rfl

theorem walkArms_remembers (arms : List MatchArm) (walk : Walk) :
    walk.Remembers env (walkArms env arms walk) (fillingsArms env arms walk) := by
  cases arms with
  | nil => exact .of_eq rfl
  | cons arm rest =>
    obtain ⟨conditions, body⟩ := arm
    rw [walkArms]
    exact ((walkConditionals_remembers conditions walk).trans
      (walkExpr_remembers body _).conditionally).trans (walkArms_remembers rest _)

theorem walkProbe_remembers (value : Expr) (walk : Walk) :
    walk.Remembers env (walkProbe env value walk) (fillingsProbe env value walk) := by
  obtain ⟨kind, span⟩ := value
  rw [walkProbe.eq_def]
  have read := walkKind_remembers span kind walk
  cases kind with
  | paren inner => exact walkProbe_remembers inner walk
  | var name => exact .of_eq rfl
  | element base index => exact (walkProbe_remembers base walk).trans (walkOptional_remembers index _)
  | property object _ _ => exact walkProbe_remembers object walk
  | _ => exact read

theorem walkProbes_remembers (values : List Expr) (walk : Walk) :
    walk.Remembers env (walkProbes env values walk) (fillingsProbes env values walk) := by
  cases values with
  | nil => exact .of_eq rfl
  | cons value rest =>
    rw [walkProbes]
    exact (walkProbe_remembers value walk).trans (walkProbes_remembers rest _)

theorem walkAssign_remembers (mode : AssignMode) (types : TypeSet) (target : Expr) (walk : Walk) :
    walk.Remembers env (walkAssign env mode types target walk)
      (fillingsAssign env mode types target walk) := by
  obtain ⟨kind, span⟩ := target
  rw [walkAssign.eq_def]
  have read := walkKind_remembers span kind walk
  cases kind with
  | var name => exact .of_eq (assignments_assignVar env walk mode types name span)
  | paren inner => exact walkAssign_remembers mode types inner walk
  | element base index =>
    exact ((walkStore_remembers types base.span base _).trans (walkOptional_remembers index _)).from_eq
      (walk.assignments_checkArrayAccess env base _)
  | list items | array items => exact walkPattern_remembers types 0 items walk
  | property object name nullsafe =>
    have inner := walkExpr_remembers object (assignOwnProperty env types object name walk.impure)
    exact ⟨List.Subset.trans (subset_assignOwnProperty env walk.impure types object name) inner.kept,
      inner.noted⟩
  | staticProperty ref name =>
    have inner := walkRef_remembers ref (assignOwnStatic env types ref name walk.impure)
    exact ⟨List.Subset.trans (subset_assignOwnStatic env walk.impure types ref name) inner.kept,
      inner.noted⟩
  | _ => exact read

/-- The walk over a property of `$this` as a target remembers the types of the value. -/
theorem walkAssign_notes (mode : AssignMode) (types : TypeSet) (target : Expr) (walk : Walk)
    (name : String) (own : ownProperty? target .assign false = some name) :
    { name, isStatic := false, types } ∈ (walkAssign env mode types target walk).assignments := by
  obtain ⟨kind, span⟩ := target
  rw [walkAssign.eq_def]
  cases kind with
  | paren inner => exact walkAssign_notes mode types inner walk name own
  | property object written nullsafe =>
    have inner := walkExpr_remembers object (assignOwnProperty env types object written walk.impure)
    exact inner.kept (mem_assignOwnProperty owned walk.impure types own)
  | _ => cases own

theorem walkPattern_remembers (types : TypeSet) (position : Nat) (items : List Item) (walk : Walk) :
    walk.Remembers env (walkPattern env types position items walk)
      (fillingsPattern env types position items walk) := by
  cases items with
  | nil => exact .of_eq rfl
  | cons item rest =>
    cases item with
    | skip =>
      rw [walkPattern]
      exact walkPattern_remembers types position rest walk
    | entry key value byRef unpack =>
      rw [walkPattern]
      have keyed := (walkOptional_remembers key walk).to_eq
        (assignments_shareSlot (walkOptional env key walk) byRef value)
      exact (keyed.trans (walkAssign_remembers _ _ value _)).trans
        (walkPattern_remembers types (position + 1) rest _)

theorem walkStore_remembers (types : TypeSet) (outer : Span) (base : Expr) (walk : Walk) :
    walk.Remembers env (walkStore env types outer base walk)
      (fillingsStore env types outer base walk) := by
  obtain ⟨kind, span⟩ := base
  rw [walkStore.eq_def]
  have read := walkKind_remembers span kind
  cases kind with
  | paren inner => exact walkStore_remembers types outer inner walk
  | var name => exact .of_eq (assignments_storeInVar env walk types name outer)
  | element base index =>
    exact ((walkStore_remembers types.inArray base.span base _).trans
      (walkOptional_remembers index _)).from_eq (walk.assignments_checkArrayAccess env base outer)
  | property | staticProperty => exact (read walk.impure).from_eq rfl
  | _ => exact read walk

theorem walkShared_remembers (value : Expr) (walk : Walk) :
    walk.Remembers env (walkShared env value walk) (fillingsShared env value walk) := by
  obtain ⟨kind, span⟩ := value
  rw [walkShared.eq_def]
  have read := walkKind_remembers span kind walk
  cases kind with
  | paren inner => exact walkShared_remembers inner walk
  | var name => exact .of_eq (assignments_shareVar env walk name)
  | _ => exact read

theorem walkArgs_remembers (params : Option (List ParamInfo)) (position : Nat) (args : List Arg)
    (walk : Walk) : walk.Remembers env (walkArgs env params position args walk)
      (fillingsArgs env params position args walk) := by
  cases args with
  | nil => exact .of_eq rfl
  | cons arg rest =>
    obtain ⟨value, unpack, label⟩ := arg
    rw [walkArgs, fillingsArgs_cons]
    cases refParam? params position with
    | some param =>
      exact (walkPassed_remembers param value.span value walk).trans
        (walkArgs_remembers params (position + 1) rest _)
    | none => exact (walkExpr_remembers value walk).trans (walkArgs_remembers params (position + 1) rest _)

theorem walkPassed_remembers (param : ParamInfo) (outer : Span) (value : Expr) (walk : Walk) :
    walk.Remembers env (walkPassed env param outer value walk)
      (fillingsPassed env param outer value walk) := by
  obtain ⟨kind, span⟩ := value
  rw [walkPassed.eq_def]
  have read := walkKind_remembers span kind walk
  cases kind with
  | paren inner => exact walkPassed_remembers param outer inner walk
  | var name => exact .of_eq rfl
  | element base index =>
    exact ((walkStore_remembers .mixed base.span base _).trans (walkOptional_remembers index _)).from_eq
      (walk.assignments_checkArrayAccess env base outer)
  | _ => exact read

theorem walkCompactArgs_remembers (args : List Arg) (walk : Walk) :
    walk.Remembers env (walkCompactArgs env args walk) (fillingsCompactArgs env args walk) := by
  cases args with
  | nil => exact .of_eq rfl
  | cons arg rest =>
    obtain ⟨value, unpack, label⟩ := arg
    rw [walkCompactArgs]
    exact (walkCompact_remembers value.span value walk).trans (walkCompactArgs_remembers rest _)

theorem walkCompact_remembers (outer : Span) (value : Expr) (walk : Walk) :
    walk.Remembers env (walkCompact env outer value walk) (fillingsCompact env outer value walk) := by
  obtain ⟨kind, span⟩ := value
  rw [walkCompact.eq_def]
  have read := walkKind_remembers span kind walk
  cases kind with
  | paren inner => exact walkCompact_remembers outer inner walk
  | string text =>
    cases text with
    | none => exact read
    | some name => exact .of_eq (walk.assignments_read env ("$" ++ name) outer)
  | array items => exact walkCompactItems_remembers items walk
  | _ => exact read

theorem walkCompactItems_remembers (items : List Item) (walk : Walk) :
    walk.Remembers env (walkCompactItems env items walk) (fillingsCompactItems env items walk) := by
  cases items with
  | nil => exact .of_eq rfl
  | cons item rest =>
    cases item with
    | skip =>
      rw [walkCompactItems]
      exact walkCompactItems_remembers rest walk
    | entry key value byRef unpack =>
      rw [walkCompactItems]
      exact (walkCompact_remembers value.span value walk).trans (walkCompactItems_remembers rest _)

theorem walkTest_remembers (negated inLogic : Bool) (test : Expr) (guard : Guard) :
    guard.walk.Remembers env (walkTest env negated inLogic test guard).walk
      (fillingsTest env negated inLogic test guard) := by
  obtain ⟨kind, span⟩ := test
  rw [walkTest.eq_def, fillingsTest.eq_def]
  dsimp only
  have read := walkKind_remembers span kind guard.walk
  generalize walkKind env span kind = steps, fillingsKind env span kind = seen at read ⊢
  cases kind with
  | paren inner => exact walkTest_remembers negated inLogic inner guard
  | binary op left right =>
    cases op with
    | and | or =>
      exact (walkTest_remembers negated true left guard).trans
        ((walkTest_remembers negated true right _).to_eq rfl)
    | _ => exact read
  | unary op operand =>
    cases op with
    | not =>
      exact (walkTest_remembers (!negated) inLogic operand _).from_eq
        (guard.assignments_markNotEmpty negated operand)
    | _ => exact read
  | isset values =>
    exact (walkProbes_remembers values _).from_eq (guard.assignments_markIsset negated values)
  | instanceOf subject ref =>
    exact ((walkExpr_remembers subject guard.walk).trans (walkRef_remembers ref _)).to_eq
      (Guard.assignments_narrowTo _ env.naming subject ref negated inLogic)
  | _ => exact read

end

end

end Flow

end PhpAudit
