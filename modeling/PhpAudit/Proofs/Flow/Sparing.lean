/-
This file says which code spares what is known of a variable. No expression makes a variable less
defined. If it does not store into the variable either, the types that the variable may have stay
possible, and whether a test told about the variable stays as it is: reading, passing by reference and
joining branches only add types. Of the statements, `unset` alone makes a variable undefined, in the
block in which it stands.
-/

import PhpAudit.Proofs.Flow.Binding
import PhpAudit.Proofs.Flow.Uniting

namespace PhpAudit

/-! ### Scopes -/

namespace Scope

variable {scope : Scope} {name other : String} {types : TypeSet} {always : Bool}

theorem hasImplicit_add :
    (scope.add other types always).hasImplicit name = scope.hasImplicit name := by
  unfold add
  split
  · next info found =>
    rw [hasImplicit_put]
    split
    · next equal => simp [← equal, hasImplicit, found]
    · rfl
  · next missing =>
    rw [hasImplicit_put]
    split
    · next equal => simp [← equal, hasImplicit, missing]
    · rfl

/-- A test told of the variable, and no assignment ends that: a pinned variable is only widened. -/
def isHeld (scope : Scope) (name : String) : Bool :=
  (scope.get? name).any fun info => info.implicit && info.pinned

theorem isHeld_put {info : VarInfo} :
    (scope.put other info).isHeld name =
      if other = name then info.implicit && info.pinned else scope.isHeld name := by
  unfold isHeld
  rw [get?_put]
  split <;> rfl

theorem isHeld_add : (scope.add other types always).isHeld name = scope.isHeld name := by
  unfold add
  split
  · next info found =>
    rw [isHeld_put]
    split
    · next equal => simp [← equal, isHeld, found]
    · rfl
  · next missing =>
    rw [isHeld_put]
    split
    · next equal => simp [← equal, isHeld, missing]
    · rfl

/-- An assignment ends the narrowing of a variable, unless it is held. -/
theorem hasImplicit_assign_self :
    (scope.assign name types always).hasImplicit name = scope.isHeld name := by
  unfold assign
  split
  · next info found =>
    split <;> rw [hasImplicit_put, if_pos rfl] <;> simp_all [isHeld]
  · next missing =>
    rw [hasImplicit_put, if_pos rfl]
    simp [isHeld, missing]

theorem isHeld_assign_self :
    (scope.assign name types always).isHeld name = scope.isHeld name := by
  unfold assign
  split
  · next info found =>
    split <;> rw [isHeld_put, if_pos rfl] <;> simp_all [isHeld]
  · next missing =>
    rw [isHeld_put, if_pos rfl]
    simp [isHeld, missing]

theorem hasImplicit_of_isHeld (held : scope.isHeld name = true) :
    scope.hasImplicit name = true := by
  unfold isHeld at held
  unfold hasImplicit
  cases found : scope.get? name with
  | none => rw [found] at held; cases held
  | some info =>
    rw [found, Option.any_some, Bool.and_eq_true] at held
    exact held.1

theorem get?_assign_of_ne (different : other ≠ name) :
    (scope.assign other types always).get? name = scope.get? name := by
  unfold assign
  split
  · split <;> rw [get?_put, if_neg different]
  · rw [get?_put, if_neg different]

theorem has_assign_of_has (has : scope.has name = true) :
    (scope.assign other types true).has name = true := by
  by_cases equal : other = name
  · subst equal
    unfold assign
    split
    · next info found =>
      split
      · rw [has_put, if_pos rfl]
        unfold Scope.has at has
        rwa [found] at has
      · rw [has_put, if_pos rfl]
    · rw [has_put, if_pos rfl]
  · unfold Scope.has at *
    rwa [get?_assign_of_ne equal]

/-- An assigned variable may be of the assigned types; if it is pinned, of its earlier ones too. -/
theorem mayBe_assign {value : TypeValue} (member : value ∈ types.members) :
    (scope.assign name types always).MayBe name value := by
  unfold assign
  split
  · split <;> rw [mayBe_put_self]
    · exact TypeSet.mem_union.mpr (.inr member)
    · exact member
  · rwa [mayBe_put_self]

theorem get?_add_of_ne (different : other ≠ name) :
    (scope.add other types always).get? name = scope.get? name := by
  unfold add
  split <;> rw [get?_put, if_neg different]

/-- Adding other variables leaves a variable alone. -/
theorem get?_foldl_add {Item : Type} (types : Item → TypeSet) (always : Item → Bool)
    {entries : List (String × Item)} (others : ∀ entry ∈ entries, entry.1 ≠ name) (scope : Scope) :
    (entries.foldl (fun scope entry => scope.add entry.1 (types entry.2) (always entry.2))
      scope).get? name = scope.get? name := by
  induction entries generalizing scope with
  | nil => rfl
  | cons entry rest inductionHypothesis =>
    rw [List.foldl_cons, inductionHypothesis fun entry member => others entry (.tail _ member)]
    exact get?_add_of_ne (others entry (.head _))

theorem has_add_of_has (has : scope.has name = true) :
    (scope.add other types always).has name = true := by
  rw [has_add, has, Bool.true_or]

theorem has_erase_of_ne (different : other ≠ name) (has : scope.has name = true) :
    (scope.erase other).has name = true := by
  unfold Scope.has Scope.get? erase at *
  rwa [Std.TreeMap.getElem?_erase, if_neg (by simpa using different)]

/--
What is known of a variable is spared. If it was always defined it still is; and if the code is
`sparing`, then the types it may have had are still possible. The exception is the marker of a
variable that was not defined, which is retracted.
-/
structure Spares (name : String) (sparing : Prop) (before after : Scope) : Prop where
  has : before.has name = true → after.has name = true
  types : sparing → ∀ {value : TypeValue},
    before.has name = true ∨ value ≠ .concrete (issetMarker name) →
      before.MayBe name value → after.MayBe name value
  implicit : sparing → before.has name = true → after.hasImplicit name = before.hasImplicit name
  /-- Only the outcomes of a test are told of the variable. -/
  untold : after.hasImplicit name = true → before.hasImplicit name = true
  loose : after.isHeld name = true → before.isHeld name = true

namespace Spares

variable {sparing : Prop} {first second third : Scope}

theorem of_get? (same : second.get? name = first.get? name) : Spares name sparing first second where
  has := by
    unfold Scope.has
    rw [same]
    exact id
  types _ _ _ := (mayBe_congr same).mpr
  implicit _ _ := by
    unfold hasImplicit
    rw [same]
  untold := by
    unfold hasImplicit
    rw [same]
    exact id
  loose := by
    unfold isHeld
    rw [same]
    exact id

theorem refl (scope : Scope) : Spares name sparing scope scope :=
  .of_get? rfl

theorem of_eq (same : second = first) : Spares name sparing first second :=
  .of_get? (by rw [same])

theorem trans (left : Spares name sparing first second) (right : Spares name sparing second third) :
    Spares name sparing first third where
  has has := right.has (left.has has)
  types spared _ kept mayBe :=
    right.types spared (kept.imp_left left.has) (left.types spared kept mayBe)
  implicit spared has := (right.implicit spared (left.has has)).trans (left.implicit spared has)
  untold told := left.untold (right.untold told)
  loose held := left.loose (right.loose held)

theorem add (scope : Scope) (other : String) (types : TypeSet) (always : Bool) :
    Spares name sparing scope (scope.add other types always) where
  has := has_add_of_has
  types _ _ _ mayBe := mayBe_add.mpr (.inl mayBe)
  implicit _ _ := hasImplicit_add
  untold told := hasImplicit_add.symm.trans told
  loose held := isHeld_add.symm.trans held

/-- An assignment to the variable replaces its types. -/
theorem assign (scope : Scope) (types : TypeSet) (different : sparing → other ≠ name) :
    Spares name sparing scope (scope.assign other types true) where
  has := has_assign_of_has
  types spared _ _ := (mayBe_congr (get?_assign_of_ne (different spared))).mpr
  implicit spared _ := by
    unfold hasImplicit
    rw [get?_assign_of_ne (different spared)]
  untold told := by
    by_cases equal : other = name
    · subst equal
      exact hasImplicit_of_isHeld (hasImplicit_assign_self.symm.trans told)
    · unfold hasImplicit at *
      rwa [get?_assign_of_ne equal] at told
  loose held := by
    by_cases equal : other = name
    · subst equal
      exact isHeld_assign_self.symm.trans held
    · unfold isHeld at *
      rwa [get?_assign_of_ne equal] at held

theorem foldl {Item : Type} {change : Scope → Item → Scope}
    (spares : ∀ scope item, Spares name sparing scope (change scope item)) (items : List Item)
    (scope : Scope) : Spares name sparing scope (items.foldl change scope) := by
  induction items generalizing scope with
  | nil => exact .refl scope
  | cons item rest inductionHypothesis =>
    exact (spares scope item).trans (inductionHypothesis (change scope item))

theorem merge (block : Block) (branches : List Block) (links : Nat) :
    Spares name sparing block.scope (block.merge branches links).scope :=
  .foldl (fun scope _ => .add scope ..) _ _

theorem mergeOptional (block branch : Block) :
    Spares name sparing block.scope (block.mergeOptional branch).scope :=
  .foldl (fun scope _ => .add scope ..) _ _

end Spares

end Scope

/-! ### Markers -/

namespace Walk

variable {markers : List String} {walk : Walk} {name : String}

theorem has_dropMarkers (unmarked : name ∉ markers) (has : walk.scope.has name = true) :
    (walk.dropMarkers markers).scope.has name = true := by
  unfold Scope.has at *
  rwa [walk.get?_dropMarkers unmarked]

/-- Retracting markers takes types away, and tells nothing else of a variable. -/
theorem any_of_dropMarkers {told : VarInfo → Bool}
    (typeless : ∀ info types, told { info with types } = told info)
    (after : ((walk.dropMarkers markers).scope.get? name).any told = true) :
    (walk.scope.get? name).any told = true := by
  by_cases member : name ∈ markers
  · rw [get?_dropMarkers_of_mem member] at after
    cases found : walk.scope.get? name with
    | none => rw [found] at after; cases after
    | some info =>
      rw [found, Option.bind_some] at after
      unfold VarInfo.retract at after
      dsimp only at after
      split at after
      · cases after
      · rwa [Option.any_some, typeless] at after
  · rwa [get?_dropMarkers member] at after

theorem mayHave_of_dropMarkers (known : (walk.dropMarkers markers).scope.mayHave name = true) :
    walk.scope.mayHave name = true := by
  have any (scope : Scope) : scope.mayHave name = (scope.get? name).any fun _ => true := by
    unfold Scope.mayHave
    cases scope.get? name <;> rfl
  rw [any] at known ⊢
  exact any_of_dropMarkers (fun _ _ => rfl) known

/-- Retracting markers spares a variable that was not marked, since it was defined. -/
theorem spares_dropMarkers {sparing : Prop} {before : Scope}
    (spares : Scope.Spares name sparing before walk.scope)
    (unmarked : before.has name = true → name ∉ markers) :
    Scope.Spares name sparing before (walk.dropMarkers markers).scope where
  has has := has_dropMarkers (unmarked has) (spares.has has)
  types spared _ kept mayBe := by
    have still := spares.types spared kept mayBe
    rcases kept with has | other
    · exact (Scope.mayBe_congr (walk.get?_dropMarkers (unmarked has))).mpr still
    · exact mayBe_dropMarkers.mpr ⟨still, fun _ => other⟩
  implicit spared has := by
    have kept := spares.implicit spared has
    unfold Scope.hasImplicit at kept ⊢
    rwa [walk.get?_dropMarkers (unmarked has)]
  untold told := spares.untold (any_of_dropMarkers (fun _ _ => rfl) told)
  loose held := spares.loose (any_of_dropMarkers (fun _ _ => rfl) held)

end Walk

/-! ### Tests -/

/--
What a test does to a variable that is defined: it stays so in the blocks of both outcomes, and is
not marked.
-/
structure Guard.Spares (name : String) (before after : Guard) : Prop where
  walk : before.walk.scope.has name = true → after.walk.scope.has name = true
  otherwise : before.otherwise.scope.has name = true → after.otherwise.scope.has name = true
  markers : before.walk.scope.has name = true → name ∈ after.markers → name ∈ before.markers

namespace Guard

variable {name : String} {guard : Guard}

namespace Spares

variable {first second third : Guard}

theorem refl (guard : Guard) : Spares name guard guard :=
  ⟨id, id, fun _ => id⟩

theorem trans (left : Spares name first second) (right : Spares name second third) :
    Spares name first third where
  walk has := right.walk (left.walk has)
  otherwise has := right.otherwise (left.otherwise has)
  markers has member := left.markers has (right.markers (left.walk has) member)

theorem mapWalk {sparing : Prop} {steps : Walk → Walk}
    (spares : Scope.Spares name sparing guard.walk.scope (steps guard.walk).scope) :
    Spares name guard (guard.mapWalk steps) :=
  ⟨spares.has, id, fun _ => id⟩

end Spares

theorem spares_mark (guarded : Expr) : Spares name guard (guard.mark guarded) := by
  unfold mark
  split
  · exact .refl guard
  · next other _ =>
    split
    · exact .refl guard
    · next missing =>
      refine ⟨Scope.has_add_of_has, id, fun has member => ?_⟩
      have different : name ≠ other := fun equal => missing (equal ▸ has)
      dsimp only at member
      split at member
      · exact member
      · exact (List.mem_append.mp member).resolve_right (by simpa using different)

theorem spares_markNotEmpty (negated : Bool) (operand : Expr) :
    Spares name guard (guard.markNotEmpty negated operand) := by
  unfold markNotEmpty
  split
  · split
    · exact .refl guard
    · exact spares_mark _
  · exact .refl guard

theorem spares_markIsset (negated : Bool) (values : List Expr) :
    Spares name guard (guard.markIsset negated values) := by
  unfold markIsset
  split
  · exact .refl guard
  · induction values generalizing guard with
    | nil => exact .refl guard
    | cons value rest inductionHypothesis => exact (spares_mark value).trans inductionHypothesis

/-- A narrowed variable is defined. -/
theorem spares_narrow (other tested : String) (negated inLogic : Bool) :
    Spares name guard (guard.narrow other tested negated inLogic) := by
  have updated (scope : Scope) (types : TypeSet) (has : scope.has name = true) :
      (scope.update other fun info =>
        { info with types := info.types.union types }).has name = true := by
    unfold Scope.update
    split
    · next info found =>
      rw [Scope.has_put]
      split
      · next equal => simpa [Scope.has, ← equal, found] using has
      · exact has
    · exact has
  have narrowed (scope : Scope) (types : TypeSet) (has : scope.has name = true) :
      (scope.narrow other types).has name = true := by
    unfold Scope.narrow
    rw [Scope.has_put]
    split
    · rfl
    · exact has
  unfold narrow
  dsimp only
  split
  · exact ⟨updated _ _, updated _ _, fun _ => id⟩
  · exact ⟨narrowed _ _, narrowed _ _, fun _ => id⟩

theorem spares_narrowTo (naming : Naming) (subject : Expr) (ref : ClassRef)
    (negated inLogic : Bool) :
    Spares name guard (guard.narrowTo naming subject ref negated inLogic) := by
  unfold narrowTo
  split
  · exact spares_narrow ..
  · exact .refl guard

/-- The variables that the end of a test defines in a block are those that it introduced. -/
theorem spares_split (block : Block) (sparing : Prop) :
    Scope.Spares name sparing block.scope (guard.split block).walk.scope ∧
      Scope.Spares name sparing guard.otherwise.scope (guard.split block).no.scope :=
  ⟨.foldl (fun scope _ => .add scope ..) _ _, .foldl (fun scope _ => .add scope ..) _ _⟩

end Guard

/-- A variable that is defined before a test is so in the blocks of both outcomes. -/
theorem Guard.Spares.outcomes {name : String} {walk : Walk} {markers : List String} {guard : Guard}
    (spares : Guard.Spares name (.start walk markers) guard) (has : walk.scope.has name = true) :
    (guard.split walk.block).yes.scope.has name = true ∧
      (guard.split walk.block).no.scope.has name = true :=
  ⟨spares.walk has, (guard.spares_split walk.block True).2.has (spares.otherwise has)⟩

namespace Flow

/-! ### Code that does not store into a variable -/

/-- Whether the node of an expression does not store into the variable. -/
def spares (name : String) : ExprKind → Bool
  | .assign target _ _ _ => !storesTo name target
  | .call _ args | .callValue _ args | .methodCall _ _ args _ | .staticCall _ _ args | .new _ args =>
    args.all fun arg => !storesElement name arg
  | _ => true

/-! ### Single steps -/

section

variable {env : Env} {name : String} {sparing : Prop} (walk : Walk)

theorem spares_read (other : String) (span : Span) :
    Scope.Spares name sparing walk.scope (walk.read env other span).scope := by
  have noted : ((walk.checkDiscard env other span).untrack env other).scope = walk.scope :=
    (idle_noteRead env other span walk).1
  unfold Walk.read
  dsimp only
  split
  · exact .of_eq noted
  · split
    · exact noted ▸ .add ..
    · unfold Walk.readMissing
      dsimp only
      split <;> exact noted ▸ .add ..

theorem spares_assignVar (mode : AssignMode) (types : TypeSet) {other : String} (span : Span)
    (different : sparing → other ≠ name) :
    Scope.Spares name sparing walk.scope (assignVar env mode types other span walk).scope := by
  have assigned : Scope.Spares name sparing walk.scope
      (walk.mapScope (·.assign other types true)).scope :=
    .assign _ _ different
  have tracked (assigned : Walk) (span : Span) :
      (assigned.track env other span).scope = assigned.scope :=
    (assigned.idle_track env other span).1
  unfold assignVar
  cases mode with
  | plain | iteration => exact assigned.trans (.of_eq (tracked _ _))
  | compound | reference => exact assigned

theorem mayBe_assignVar {walk : Walk} {value : TypeValue} {types : TypeSet} (mode : AssignMode)
    (span : Span) (member : value ∈ types.members) :
    (assignVar env mode types name span walk).scope.MayBe name value := by
  have assigned : (walk.mapScope (·.assign name types true)).scope.MayBe name value :=
    Scope.mayBe_assign member
  have tracked (assigned : Walk) (span : Span) :
      (assigned.track env name span).scope = assigned.scope :=
    (assigned.idle_track env name span).1
  unfold assignVar
  cases mode with
  | plain | iteration => exact (tracked _ _).symm ▸ assigned
  | compound | reference => exact assigned

theorem spares_storeInVar (types : TypeSet) {other : String} (span : Span)
    (different : sparing → other ≠ name) :
    Scope.Spares name sparing walk.scope (storeInVar env types other span walk).scope := by
  unfold storeInVar
  split
  · exact .assign _ _ different
  · have added : Scope.Spares name sparing walk.scope
        (walk.mapScope (·.add other types.inArray true)).scope :=
      .add ..
    exact added.trans (spares_read _ other span)

theorem spares_passVar (param : ParamInfo) (other : String) :
    Scope.Spares name sparing walk.scope (passVar env param other walk).scope :=
  .add ..

theorem spares_shareVar (other : String) :
    Scope.Spares name sparing walk.scope (shareVar env other walk).scope := by
  unfold shareVar
  dsimp only
  split
  · exact .refl _
  · exact .add ..

/-- A conditional expression: what its branches do to a variable is joined into the block. -/
theorem spares_ternary {guard : Guard} (tested : Guard.Spares name (.start walk []) guard)
    (initial : Scope) (yes no : Block) {around : Walk}
    (same : around.block = (guard.split walk.block).walk.block) :
    Scope.Spares name sparing walk.scope
      (closeTernary initial yes no guard.markers around).scope := by
  have split : Scope.Spares name sparing walk.scope around.scope := by
    unfold Walk.scope
    rw [same]
    exact (guard.spares_split walk.block sparing).1
  refine Walk.spares_dropMarkers (split.trans (.merge around.block _ 2)) fun has member => ?_
  exact absurd (tested.markers has member) List.not_mem_nil

end

/-! ### Expressions -/

section

variable {env : Env} {name : String} {sparing : Prop}

/-- Every step spares every variable, and its types if the step does not store into it. -/
theorem steps_spare : Steps env sparing (spares name) (fun other => sparing → other ≠ name)
    (fun before after => Scope.Spares name sparing before.scope after.scope)
    (Guard.Spares name) where
  still same := .of_eq (congrArg Block.scope same)
  trans := .trans
  skip spared := spared
  read _ other _ span walk := spares_read walk other span
  assign _ different mode types span walk := spares_assignVar walk mode types span different
  store _ different types span walk := spares_storeInVar walk types span different
  pass _ param walk := spares_passVar walk param _
  share _ walk := spares_shareVar walk _
  target own other stored given equal := by
    have elsewhere := own given
    rw [equal] at stored
    simp [spares, stored] at elsewhere
  element {kind} own arg member other stored given equal := by
    have elsewhere : (kind.args.all fun arg => !storesElement name arg) = true := by
      have own := own given
      cases kind <;> first | exact own | cases member
    have none := List.all_eq_true.mp elsewhere arg member
    simp [← equal, stored] at none
  exit _ walk := .of_eq (walk.scope_leave _)
  throw _ walk := .of_eq (walk.scope_leave _)
  callee _ _ _ _ walk := .of_eq (walk.scope_leaveByCallee env _)
  fatal _ _ _ walk := .of_eq (walk.scope_leave _)
  method _ _ walk := .of_eq (walk.scope_leaveByFound env _)
  static _ walk := .of_eq (walk.scope_leaveByFound env _)
  ternary test _ _ := spares_ternary _ test _ _ _ rfl
  testTrans := .trans
  testSkip tested := ⟨tested.walk, tested.otherwise, tested.markers⟩
  testWalk := .mapWalk
  notEmpty _ negated guard := guard.spares_markNotEmpty negated _
  isset _ negated guard := guard.spares_markIsset negated _
  narrow _ ref negated inLogic guard := guard.spares_narrowTo env.naming _ ref negated inLogic

/-- An expression spares every variable, and the types of those that it does not store into. -/
theorem walkExpr_spares (expr : Expr) (spared : sparing → everyExpr (spares name) expr = true)
    (walk : Walk) : Scope.Spares name sparing walk.scope (walkExpr env expr walk).scope :=
  steps_spare.holds_expr expr spared walk

theorem walkKind_spares (span : Span) (kind : ExprKind) (own : sparing → spares name kind = true)
    (parts : sparing → everyOperand (spares name) kind = true) (walk : Walk) :
    Scope.Spares name sparing walk.scope (walkKind env span kind walk).scope :=
  steps_spare.holds_kind span kind own parts walk

theorem walkOptional_spares (value : Option Expr)
    (spared : sparing → everyOptional (spares name) value = true) (walk : Walk) :
    Scope.Spares name sparing walk.scope (walkOptional env value walk).scope :=
  steps_spare.holds_optional value spared walk

theorem walkRef_spares (ref : ClassRef) (spared : sparing → everyRef (spares name) ref = true)
    (walk : Walk) : Scope.Spares name sparing walk.scope (walkRef env ref walk).scope :=
  steps_spare.holds_ref ref spared walk

theorem walkProbes_spares (values : List Expr)
    (spared : sparing → everyIn (spares name) values = true) (walk : Walk) :
    Scope.Spares name sparing walk.scope (walkProbes env values walk).scope :=
  steps_spare.holds_probes values spared walk

theorem walkTest_spares (negated inLogic : Bool) (test : Expr)
    (spared : sparing → everyExpr (spares name) test = true) (guard : Guard) :
    Guard.Spares name guard (walkTest env negated inLogic test guard) :=
  steps_spare.tested_test negated inLogic test spared guard

end

end Flow

end PhpAudit
