/-
This file says which variables an expression has nothing to do with. An expression that does not name
a variable neither makes the variable known or defined, nor less so: reads, writes and tests are of
other variables, and a conditional expression joins two branches that leave the variable as it is. A
call of `compact` names variables by texts, so texts count as names here.
-/

import PhpAudit.Proofs.Flow.Sparing

namespace PhpAudit

/-! ### Definedness -/

namespace Scope

/-- Whether every path defines the variable, if some path does. -/
def definedness (scope : Scope) (name : String) : Option Bool :=
  (scope.get? name).map (·.always)

section

variable {first second : Scope} {name : String}

theorem definedness_of_get? (same : second.get? name = first.get? name) :
    second.definedness name = first.definedness name := by
  unfold definedness
  rw [same]

theorem has_of_definedness (same : second.definedness name = first.definedness name) :
    second.has name = first.has name := by
  have read (scope : Scope) : scope.has name = (scope.definedness name).getD false := by
    unfold has definedness
    cases scope.get? name <;> rfl
  rw [read, read, same]

theorem mayHave_of_definedness (same : second.definedness name = first.definedness name) :
    second.mayHave name = first.mayHave name := by
  have read (scope : Scope) : scope.mayHave name = (scope.definedness name).isSome := by
    unfold mayHave definedness
    cases scope.get? name <;> rfl
  rw [read, read, same]

theorem definedness_of_mayHave (known : second.mayHave name = first.mayHave name)
    (defined : second.has name = first.has name) :
    second.definedness name = first.definedness name := by
  unfold mayHave has definedness at *
  cases before : first.get? name <;> cases after : second.get? name <;> simp_all

end

section

variable {Item : Type} (types : Item → TypeSet) (always : Item → Bool)
  (entries : List (String × Item)) (scope : Scope) {name : String}

/-- A variable is known after some were added if it was, or if there is an entry for it. -/
theorem mayHave_foldl_add :
    (entries.foldl (fun scope entry => scope.add entry.1 (types entry.2) (always entry.2))
        scope).mayHave name = true ↔
      scope.mayHave name = true ∨ ∃ item, (name, item) ∈ entries := by
  induction entries generalizing scope with
  | nil => simp
  | cons entry rest inductionHypothesis =>
    obtain ⟨other, item⟩ := entry
    rw [List.foldl_cons, inductionHypothesis, mayHave_add]
    simp only [List.mem_cons, Prod.mk.injEq, Bool.or_eq_true, beq_iff_eq]
    grind

end

end Scope

namespace Block

variable {branches : List Block} {name : String}

/-- A variable is known after a join if it was before, or at the end of a branch that goes on. -/
theorem mayHave_merge_iff {block : Block} {links : Nat} :
    (block.merge branches links).scope.mayHave name = true ↔
      block.scope.mayHave name = true ∨
        ∃ branch ∈ ongoing branches, branch.scope.mayHave name = true := by
  refine (Scope.mayHave_foldl_add Joined.types
    (fun joined => 0 < links && joined.defined == links) (joinBranches branches).toList
    block.scope).trans (or_congr_right ⟨?_, ?_⟩)
  · rintro ⟨joined, member⟩
    exact of_mem_joinBranches (mem_toList_joinBranches.mp member).1
  · rintro ⟨branch, member, known⟩
    exact ⟨_, mem_toList_joinBranches.mpr ⟨mem_joinBranches_of_ongoing member known, rfl⟩⟩

/-- Branches that leave a variable as it is in the block are joined into it without effect. -/
theorem definedness_merge {block : Block} {links : Nat}
    (same : ∀ branch ∈ branches, branch.scope.definedness name = block.scope.definedness name) :
    (block.merge branches links).scope.definedness name = block.scope.definedness name := by
  refine Scope.definedness_of_mayHave (Bool.eq_iff_iff.mpr ?_) (Bool.eq_iff_iff.mpr ?_)
  · refine mayHave_merge_iff.trans (or_iff_left_of_imp ?_)
    rintro ⟨branch, member, known⟩
    rwa [← Scope.mayHave_of_definedness (same branch (List.mem_filter.mp member).1)]
  · refine has_merge.trans (or_iff_left_of_imp ?_)
    rintro ⟨positive, counted⟩
    obtain ⟨branch, member, has⟩ := List.countP_pos_iff.mp (counted ▸ positive)
    rwa [← Scope.has_of_definedness (same branch (List.mem_filter.mp member).1)]

end Block

namespace Flow

/-! ### Code that does not name a variable -/

/-- Whether the node of an expression does not name the variable. -/
def omits (name : String) : ExprKind → Bool
  | .var other => other != name
  | .dynamicVar reads | .interpolated reads | .unmodeled reads | .print reads | .exit _ reads =>
    !reads.contains name
  | .string (some text) => "$" ++ text != name
  | _ => true

theorem ne_of_omits {name other : String} {kind : ExprKind} (omitted : omits name kind = true)
    (member : other ∈ kind.reads) : other ≠ name := by
  rintro rfl
  cases kind with
  | string text => cases text <;> simp_all [omits, ExprKind.reads]
  | _ => simp_all [omits, ExprKind.reads]

theorem everyOperand_unparen {accepts : ExprKind → Bool} (expr : Expr)
    (every : everyExpr accepts expr = true) : everyOperand accepts expr.unparen.kind = true := by
  obtain ⟨kind, span⟩ := expr
  simp only [everyExpr, Bool.and_eq_true] at every
  cases kind with
  | paren inner =>
    rw [Expr.unparen]
    exact everyOperand_unparen inner every.2
  | _ => exact every.2

theorem rootName?_ne {name : String} (expr : Expr) (omitted : everyExpr (omits name) expr = true) :
    expr.rootName? ≠ some name := by
  obtain ⟨kind, span⟩ := expr
  simp only [everyExpr, Bool.and_eq_true] at omitted
  obtain ⟨own, parts⟩ := omitted
  cases kind with
  | paren inner =>
    rw [Expr.rootName?]
    exact rootName?_ne inner parts
  | element base index =>
    simp only [everyOperand, Bool.and_eq_true] at parts
    rw [Expr.rootName?]
    exact rootName?_ne base parts.1
  | property object field nullsafe =>
    rw [Expr.rootName?]
    exact rootName?_ne object parts
  | var other =>
    rw [Expr.rootName?]
    simpa [omits] using own
  | _ => simp [Expr.rootName?]

theorem variableName?_ne {name : String} {expr : Expr}
    (omitted : everyExpr (omits name) expr = true) : expr.variableName? ≠ some name := by
  have own := everyExpr_unparen expr omitted
  unfold Expr.variableName?
  split
  · next other kind =>
    rw [kind] at own
    simpa [omits] using own
  · simp

end Flow

/-! ### Tests -/

/-- What a test does to a variable that it does not name: it is known and defined as before in the
blocks of both outcomes, and it is not marked. -/
structure Guard.Ignores (name : String) (before after : Guard) : Prop where
  walk : after.walk.scope.definedness name = before.walk.scope.definedness name
  otherwise : after.otherwise.scope.definedness name = before.otherwise.scope.definedness name
  markers : name ∈ after.markers → name ∈ before.markers

namespace Guard

variable {name : String} {guard : Guard}

namespace Ignores

variable {first second third : Guard}

theorem refl (guard : Guard) : Ignores name guard guard :=
  ⟨rfl, rfl, id⟩

theorem trans (left : Ignores name first second) (right : Ignores name second third) :
    Ignores name first third where
  walk := right.walk.trans left.walk
  otherwise := right.otherwise.trans left.otherwise
  markers member := left.markers (right.markers member)

theorem mapWalk {steps : Walk → Walk}
    (same : (steps guard.walk).scope.definedness name = guard.walk.scope.definedness name) :
    Ignores name guard (guard.mapWalk steps) :=
  ⟨same, rfl, id⟩

end Ignores

theorem ignores_mark {guarded : Expr} (other : guarded.rootName? ≠ some name) :
    Ignores name guard (guard.mark guarded) := by
  unfold mark
  split
  · exact .refl guard
  · next marked root =>
    have different : marked ≠ name := fun equal => other (equal ▸ root)
    split
    · exact .refl guard
    · refine ⟨Scope.definedness_of_get? (Scope.get?_add_of_ne different), rfl, fun member => ?_⟩
      dsimp only at member
      split at member
      · exact member
      · exact (List.mem_append.mp member).resolve_right (by simpa using different.symm)

theorem ignores_markNotEmpty (negated : Bool) {operand : Expr}
    (omitted : everyExpr (Flow.omits name) operand = true) :
    Ignores name guard (guard.markNotEmpty negated operand) := by
  have parts : everyOperand (Flow.omits name) operand.unparen.kind = true :=
    Flow.everyOperand_unparen operand omitted
  unfold markNotEmpty
  split
  · next inner kind =>
    rw [kind] at parts
    split
    · exact .refl guard
    · exact ignores_mark (Flow.rootName?_ne inner parts)
  · exact .refl guard

theorem ignores_markIsset (negated : Bool) (values : List Expr)
    (omitted : everyIn (Flow.omits name) values = true) :
    Ignores name guard (guard.markIsset negated values) := by
  unfold markIsset
  split
  · exact .refl guard
  · induction values generalizing guard with
    | nil => exact .refl guard
    | cons value rest inductionHypothesis =>
      simp only [everyIn, Bool.and_eq_true] at omitted
      exact (ignores_mark (Flow.rootName?_ne value omitted.1)).trans
        (inductionHypothesis omitted.2)

theorem ignores_narrowTo (naming : Naming) {subject : Expr} (ref : ClassRef)
    (negated inLogic : Bool) (other : subject.variableName? ≠ some name) :
    Ignores name guard (guard.narrowTo naming subject ref negated inLogic) := by
  unfold narrowTo
  split
  · next narrowed tested subjected _ =>
    have different : narrowed ≠ name := fun equal => other (equal ▸ subjected)
    have put (scope : Scope) (info : VarInfo) :
        (scope.put narrowed info).definedness name = scope.definedness name :=
      Scope.definedness_of_get? (by rw [Scope.get?_put, if_neg different])
    have updated (scope : Scope) (change : VarInfo → VarInfo) :
        (scope.update narrowed change).definedness name = scope.definedness name := by
      unfold Scope.update
      split
      · exact put scope _
      · rfl
    unfold narrow
    dsimp only
    split
    · exact ⟨updated _ _, updated _ _, id⟩
    · exact ⟨put _ _, put _ _, id⟩
  · exact .refl guard

/-- Where a test ends, a variable that it does not name is as before in the block around it, and in
the block of the false outcome. -/
theorem Ignores.split {walk : Walk} {markers : List String}
    (ignores : Ignores name (.start walk markers) guard) :
    (guard.split walk.block).walk.scope.definedness name = walk.scope.definedness name ∧
      (guard.split walk.block).no.scope.definedness name = walk.scope.definedness name := by
  let fresh := guard.walk.block.scope.entries.filter fun entry =>
    !(entry.2.implicit || guard.markers.contains entry.1 || walk.block.scope.mayHave entry.1)
  have others : ∀ entry ∈ fresh, entry.1 ≠ name := by
    intro entry member equal
    obtain ⟨member, unknown⟩ := List.mem_filter.mp member
    have known : guard.walk.scope.mayHave name = true := by
      unfold Scope.mayHave Walk.scope
      rw [← equal, (guard.walk.block.scope.mem_entries entry.1).mp member]
      rfl
    rw [Scope.mayHave_of_definedness ignores.walk] at known
    have before : walk.block.scope.mayHave entry.1 = true := equal ▸ known
    simp [before] at unknown
  have added (scope : Scope) :
      (fresh.foldl (fun scope entry => scope.add entry.1 entry.2.types true) scope).definedness
        name = scope.definedness name :=
    Scope.definedness_of_get? (Scope.get?_foldl_add VarInfo.types (fun _ => true) others scope)
  exact ⟨added walk.block.scope, (added guard.otherwise.scope).trans ignores.otherwise⟩

end Guard

namespace Flow

/-! ### Single steps -/

section

variable {env : Env} {name other : String} (walk : Walk)

theorem definedness_read (span : Span) (different : other ≠ name) :
    (walk.read env other span).scope.definedness name = walk.scope.definedness name := by
  have noted : ((walk.checkDiscard env other span).untrack env other).scope = walk.scope :=
    (idle_noteRead env other span walk).1
  have added {before : Walk} (same : before.scope = walk.scope) (types : TypeSet) :
      (before.mapScope (·.add other types true)).scope.definedness name =
        walk.scope.definedness name := by
    show (before.scope.add other types true).definedness name = _
    rw [same]
    exact Scope.definedness_of_get? (Scope.get?_add_of_ne different)
  unfold Walk.read
  dsimp only
  split
  · rw [noted]
  · split
    · exact added noted _
    · unfold Walk.readMissing
      dsimp only
      split <;> exact added noted _

theorem definedness_assignVar (mode : AssignMode) (types : TypeSet) (span : Span)
    (different : other ≠ name) :
    (assignVar env mode types other span walk).scope.definedness name =
      walk.scope.definedness name := by
  have assigned : (walk.mapScope (·.assign other types true)).scope.definedness name =
      walk.scope.definedness name :=
    Scope.definedness_of_get? (Scope.get?_assign_of_ne different)
  have tracked (assigned : Walk) (span : Span) :
      (assigned.track env other span).scope = assigned.scope :=
    (assigned.idle_track env other span).1
  unfold assignVar
  cases mode with
  | plain | iteration => exact (congrArg (Scope.definedness · name) (tracked _ _)).trans assigned
  | compound | reference => exact assigned

theorem definedness_storeInVar (types : TypeSet) (span : Span) (different : other ≠ name) :
    (storeInVar env types other span walk).scope.definedness name =
      walk.scope.definedness name := by
  unfold storeInVar
  split
  · exact Scope.definedness_of_get? (Scope.get?_assign_of_ne different)
  · have added : (walk.mapScope (·.add other types.inArray true)).scope.definedness name =
        walk.scope.definedness name :=
      Scope.definedness_of_get? (Scope.get?_add_of_ne different)
    exact (definedness_read _ span different).trans added

theorem definedness_shareVar (different : other ≠ name) :
    (shareVar env other walk).scope.definedness name = walk.scope.definedness name := by
  unfold shareVar
  dsimp only
  split
  · rfl
  · exact Scope.definedness_of_get? (Scope.get?_add_of_ne different)

/-- A conditional expression whose parts leave a variable as it is. -/
theorem definedness_ternary {guard : Guard} (tested : Guard.Ignores name (.start walk []) guard)
    {yes no : Block} (inYes : yes.scope.definedness name = guard.walk.scope.definedness name)
    (inNo : no.scope.definedness name = (guard.split walk.block).no.scope.definedness name)
    {around : Walk} (same : around.block = (guard.split walk.block).walk.block) :
    (closeTernary walk.scope yes no guard.markers around).scope.definedness name =
      walk.scope.definedness name := by
  obtain ⟨outer, inner⟩ := tested.split
  have unmarked : name ∉ guard.markers := fun member =>
    absurd (tested.markers member) List.not_mem_nil
  have before : around.scope.definedness name = walk.scope.definedness name := by
    unfold Walk.scope at outer ⊢
    rw [same, outer]
  have settled (branch : Block)
      (ended : branch.scope.definedness name = walk.scope.definedness name) :
      (branch.restoreImplicit walk.scope).scope.definedness name =
        around.scope.definedness name := by
    have restored := Block.get?_restoreImplicit walk.scope branch name
    split at restored
    · exact (Scope.definedness_of_get? restored).trans before.symm
    · exact ((Scope.definedness_of_get? restored).trans ended).trans before.symm
  unfold closeTernary
  refine (Scope.definedness_of_get? (Walk.get?_dropMarkers unmarked _)).trans ?_
  refine (Block.definedness_merge fun branch member => ?_).trans before
  rcases List.mem_cons.mp member with equal | member
  · rw [equal]
    exact settled yes (inYes.trans tested.walk)
  · rw [List.mem_singleton.mp member]
    exact settled no (inNo.trans inner)

end

/-! ### Expressions -/

section

variable {env : Env} {name : String}

/-- Every step leaves a variable alone that its node does not name. -/
theorem steps_ignore : Steps env True (omits name) (fun _ => True)
    (fun before after => after.scope.definedness name = before.scope.definedness name)
    (Guard.Ignores name) where
  still same := congrArg (fun block : Block => block.scope.definedness name) same
  trans left right := right.trans left
  skip same := same
  read own _ member span walk := definedness_read walk span (ne_of_omits (own trivial) member)
  assign own _ mode types span walk :=
    definedness_assignVar walk mode types span (ne_of_omits (own trivial) (.head _))
  store own _ types span walk :=
    definedness_storeInVar walk types span (ne_of_omits (own trivial) (.head _))
  pass own _ _ :=
    Scope.definedness_of_get? (Scope.get?_add_of_ne (ne_of_omits (own trivial) (.head _)))
  share own walk := definedness_shareVar walk (ne_of_omits (own trivial) (.head _))
  target _ _ _ := trivial
  element _ _ _ _ _ := trivial
  exit _ walk := congrArg (Scope.definedness · name) (walk.scope_leave _)
  throw _ walk := congrArg (Scope.definedness · name) (walk.scope_leave _)
  callee _ _ _ _ walk := congrArg (Scope.definedness · name) (walk.scope_leaveByCallee env _)
  fatal _ _ _ walk := congrArg (Scope.definedness · name) (walk.scope_leave _)
  method _ _ walk := congrArg (Scope.definedness · name) (walk.scope_leaveByFound env _)
  static _ walk := congrArg (Scope.definedness · name) (walk.scope_leaveByFound env _)
  ternary test inYes inNo := definedness_ternary _ test (inYes _) (inNo _) rfl
  testTrans := .trans
  testSkip tested := ⟨tested.walk, tested.otherwise, tested.markers⟩
  testWalk := .mapWalk
  notEmpty every negated guard := guard.ignores_markNotEmpty negated (every trivial)
  isset every negated guard := guard.ignores_markIsset negated _ (every trivial)
  narrow every ref negated inLogic guard :=
    guard.ignores_narrowTo env.naming ref negated inLogic (variableName?_ne (every trivial))

/-- An expression that does not name a variable. -/
theorem walkExpr_ignores (expr : Expr) (omitted : everyExpr (omits name) expr = true)
    (walk : Walk) :
    (walkExpr env expr walk).scope.definedness name = walk.scope.definedness name :=
  steps_ignore.holds_expr expr (fun _ => omitted) walk

/-- A test that does not name a variable. -/
theorem walkTest_ignores (negated inLogic : Bool) (test : Expr)
    (omitted : everyExpr (omits name) test = true) (guard : Guard) :
    Guard.Ignores name guard (walkTest env negated inLogic test guard) :=
  steps_ignore.tested_test negated inLogic test (fun _ => omitted) guard

theorem walkExprs_ignores (values : List Expr) (omitted : values.all (everyExpr (omits name)) = true)
    (walk : Walk) :
    (walkExprs env values walk).scope.definedness name = walk.scope.definedness name :=
  steps_ignore.holds_exprs values (fun _ => omitted) walk

end

end Flow

end PhpAudit
