/-
This file follows the type values that a walk takes over: into the scope, the types of the body's
results, and the types of the properties that it assigns. Each step of a walk respects the laws of type
values, since it stores local types of expressions, types built from these by the rules for arrays and
elements, names of types, or types of parameters that the index knows. A test gives a marker to a
variable, and the end of the branches takes it back.
-/

import PhpAudit.Flow.Body
import PhpAudit.Proofs.Resolution.Walks
import PhpAudit.Proofs.Types.Copying

namespace PhpAudit

/-! ### Lawful states -/

/-- The law is kept by every type that the walk has stored, but for markers of marked variables. -/
structure Walk.Obeys (law : TypeLaw) (marked : String → Prop) (sure : List String)
    (walk : Walk) : Prop where
  scope : walk.scope.Obeys law marked sure
  returns : walk.returnTypes.Every law.Holds
  assigned : ∀ assignment ∈ walk.assignments, assignment.types.Every law.Holds

/-- The types of all parameters are lawful; a walk takes over no other types from the index. -/
structure Index.Obeys (law : TypeLaw) (index : Index) : Prop where
  functions : ∀ info ∈ index.functions.values, ParamInfo.AllObey law info.params
  methods : ∀ declarer ∈ Hierarchy.declarers index, ∀ info ∈ declarer.methods.values,
    ParamInfo.AllObey law info.params

/-- The index, the names of classes and the scopes around an arrow function are lawful. -/
structure Env.Obeys (law : TypeLaw) (env : Env) : Prop where
  index : env.index.Obeys law
  naming : env.naming.Obeys law
  enclosing : ∀ scope ∈ env.enclosing, scope.Every fun _ => law.Holds

/-- Steps that respect the law. -/
def Walk.Keeps (law : TypeLaw) (marked : String → Prop) (sure : List String)
    (steps : Walk → Walk) : Prop :=
  ∀ walk : Walk, walk.Obeys law marked sure → (steps walk).Obeys law marked sure

/-- The variables that are marked after a test: those marked before, and some of those asked for. -/
def Marked (marked : String → Prop) (names markers : List String) (name : String) : Prop :=
  marked name ∨ name ∈ names ∧ name ∈ markers

/-- In the true outcome of a test that asks for some variables these may be marked, unless they are
sure to be defined. -/
structure Guard.Obeys (law : TypeLaw) (marked : String → Prop) (sure names : List String)
    (guard : Guard) : Prop where
  walk : guard.walk.Obeys law (Marked marked names guard.markers) sure
  otherwise : guard.otherwise.scope.Obeys law marked sure
  fresh : ∀ name ∈ guard.markers, name ∉ sure

variable {law : TypeLaw} {marked others : String → Prop} {sure names : List String}

/-! ### Steps of a walk -/

namespace Walk

variable {env : Env} {walk : Walk}

theorem Obeys.mapBlock (obeys : walk.Obeys law marked sure) {change : Block → Block}
    (changed : (change walk.block).scope.Obeys law marked sure) :
    (walk.mapBlock change).Obeys law marked sure :=
  ⟨changed, obeys.returns, obeys.assigned⟩

theorem Obeys.mapScope (obeys : walk.Obeys law marked sure) {change : Scope → Scope}
    (changed : (change walk.scope).Obeys law marked sure) :
    (walk.mapScope change).Obeys law marked sure :=
  obeys.mapBlock changed

theorem Obeys.add (obeys : walk.Obeys law marked sure) (name : String) {types : TypeSet}
    (given : types.Every law.Holds) (always : Bool) :
    (walk.mapScope (·.add name types always)).Obeys law marked sure :=
  obeys.mapScope (obeys.scope.add name given always)

theorem Obeys.assign (obeys : walk.Obeys law marked sure) (name : String) {types : TypeSet}
    (given : types.Every law.Holds) :
    (walk.mapScope (·.assign name types true)).Obeys law marked sure :=
  obeys.mapScope (obeys.scope.assign name given)

theorem Obeys.mergeOptional (obeys : walk.Obeys law marked sure) {branch : Block}
    (walked : branch.scope.Every (law.Permits marked)) :
    (walk.mapBlock (·.mergeOptional branch)).Obeys law marked sure :=
  obeys.mapBlock (Block.obeys_mergeOptional obeys.scope walked)

theorem Obeys.start {scope : Scope} (obeys : scope.Obeys law marked sure) (report : Report) :
    (Walk.start scope report).Obeys law marked sure :=
  ⟨obeys, TypeSet.every_empty, fun _ member => absurd member List.not_mem_nil⟩

theorem Obeys.issue (obeys : walk.Obeys law marked sure) (span : Span) (severity : Severity)
    (check message : String) : (walk.issue env span severity check message).Obeys law marked sure :=
  ⟨obeys.scope, obeys.returns, obeys.assigned⟩

theorem Obeys.impure (obeys : walk.Obeys law marked sure) : walk.impure.Obeys law marked sure :=
  ⟨obeys.scope, obeys.returns, obeys.assigned⟩

theorem Obeys.untrack (obeys : walk.Obeys law marked sure) (name : String) :
    (walk.untrack env name).Obeys law marked sure :=
  ⟨obeys.scope, obeys.returns, obeys.assigned⟩

theorem Obeys.share (obeys : walk.Obeys law marked sure) (name : String) :
    (walk.share name).Obeys law marked sure :=
  ⟨obeys.scope, obeys.returns, obeys.assigned⟩

theorem Obeys.track (obeys : walk.Obeys law marked sure) (name : String) (span : Span) :
    (walk.track env name span).Obeys law marked sure := by
  unfold Walk.track
  split
  · exact obeys.untrack name
  split
  · exact obeys
  · exact ⟨obeys.scope, obeys.returns, obeys.assigned⟩

theorem Obeys.leave (obeys : walk.Obeys law marked sure) (exits : Exits) :
    (walk.leave exits).Obeys law marked sure := by
  refine obeys.mapBlock ?_
  unfold Block.leave
  split <;> exact obeys.scope

theorem Obeys.leaveByCallee (obeys : walk.Obeys law marked sure) (exits : Exits) :
    (walk.leaveByCallee env exits).Obeys law marked sure := by
  unfold Walk.leaveByCallee
  split
  · exact obeys.leave exits
  · exact obeys

theorem Obeys.leaveByFound (obeys : walk.Obeys law marked sure) (found : Option FoundMethod) :
    (walk.leaveByFound env found).Obeys law marked sure := by
  unfold Walk.leaveByFound
  split
  · exact obeys.leaveByCallee _
  · exact obeys

theorem Obeys.checkArrayAccess (obeys : walk.Obeys law marked sure) (base : Expr) (span : Span) :
    (walk.checkArrayAccess env base span).Obeys law marked sure := by
  unfold Walk.checkArrayAccess
  split
  · dsimp only
    split
    · exact obeys
    · exact obeys.issue ..
  · exact obeys

theorem Obeys.checkDeadCode (obeys : walk.Obeys law marked sure) (stmt : Stmt) :
    (walk.checkDeadCode env stmt).Obeys law marked sure := by
  unfold Walk.checkDeadCode
  dsimp only
  split_ifs
  · exact obeys
  · exact ⟨obeys.scope, obeys.returns, obeys.assigned⟩

theorem Obeys.read (obeys : walk.Obeys law marked sure) (known : env.Obeys law) (name : String)
    (span : Span) : (walk.read env name span).Obeys law marked sure := by
  have checked : ((walk.checkDiscard env name span).untrack env name).Obeys law marked sure := by
    unfold Walk.checkDiscard
    split <;> exact ⟨obeys.scope, obeys.returns, obeys.assigned⟩
  unfold Walk.read
  dsimp only
  generalize (walk.checkDiscard env name span).untrack env name = walk at checked
  split
  · exact checked
  split
  · next types found =>
    obtain ⟨scope, has, found⟩ := Option.bind_eq_some_iff.mp found
    have given := (known.enclosing scope (List.mem_of_find?_eq_some has)).types? found
    exact checked.add name given true
  · unfold Walk.readMissing
    dsimp only
    have reported := checked.scope.add name (law.every_plain rfl : (TypeSet.named
      TypeName.undefined).Every law.Holds) true
    split <;> exact ⟨reported, checked.returns, checked.assigned⟩

theorem Obeys.readAll (obeys : walk.Obeys law marked sure) (known : env.Obeys law)
    (names : List String) (span : Span) : (walk.readAll env names span).Obeys law marked sure :=
  List.foldlRecOn _ _ obeys fun _ obeys name _ => obeys.read known name span

/-- The local type of an expression that takes over no type of a variable that may be marked. -/
theorem Obeys.localType (obeys : walk.Obeys law marked sure) (known : env.Obeys law)
    (within : ∀ name, marked name → name ∈ names) {expr : Expr}
    (care : everyExpr (careful law.lenient sure names) expr = true)
    (avoided : (law.lenient || avoids names (told expr)) = true) :
    (walk.localType env expr).Every law.Holds := by
  rcases Bool.or_eq_true_iff.mp avoided with lenient | avoided
  · have unmarked : walk.scope.Every (law.Permits fun _ => False) :=
      obeys.scope.types.of_lenient lenient
    exact Typing.every_localType unmarked known.naming expr care fun _ _ => id
  · refine Typing.every_localType obeys.scope.types known.naming expr care
      fun name member isMarked => ?_
    have other := List.all_eq_true.mp avoided name member
    simp [within name isMarked] at other

theorem Obeys.noteAssignment (obeys : walk.Obeys law marked sure) (name : String) (isStatic : Bool)
    {types : TypeSet} (given : types.Every law.Holds) :
    (walk.noteAssignment name isStatic types).Obeys law marked sure := by
  refine ⟨obeys.scope, obeys.returns, fun assignment member => ?_⟩
  rcases List.mem_append.mp member with member | member
  · exact obeys.assigned assignment member
  · rwa [List.mem_singleton.mp member]

/-- Steps in another block, where other variables may be marked, and the block that they come to. -/
theorem Obeys.within (obeys : walk.Obeys law marked sure) {block : Block}
    (started : block.scope.Obeys law others sure) {steps : Walk → Walk}
    (keeps : Keeps law others sure steps) :
    (walk.within block steps).1.scope.Obeys law others sure ∧
      (walk.within block steps).2.Obeys law marked sure := by
  have after := keeps { walk with block } ⟨started, obeys.returns, obeys.assigned⟩
  exact ⟨after.scope, obeys.scope, after.returns, after.assigned⟩

theorem Obeys.conditionally (obeys : walk.Obeys law marked sure) {steps : Walk → Walk}
    (keeps : Keeps law marked sure steps) : (walk.conditionally steps).Obeys law marked sure := by
  have after := keeps walk obeys
  exact ⟨after.scope, after.returns, after.assigned⟩

theorem Obeys.silently (obeys : walk.Obeys law marked sure) {steps : Walk → Walk}
    (keeps : Keeps law marked sure steps) : (walk.silently steps).Obeys law marked sure := by
  have after := keeps { walk with report := { walk.report with enabled := false } }
    ⟨obeys.scope, obeys.returns, obeys.assigned⟩
  exact ⟨after.scope, after.returns, after.assigned⟩

/-- Retracted markers are gone, whatever became of the variables in between. -/
theorem Obeys.dropMarkers {markers : List String} (fresh : ∀ name ∈ markers, name ∉ sure)
    (obeys : walk.Obeys law (fun name => marked name ∨ name ∈ markers) sure) :
    (walk.dropMarkers markers).Obeys law marked sure := by
  obtain ⟨scope, left⟩ := dropMarkers_eq markers walk
  refine ⟨⟨Scope.every_iff_mayBe.mpr fun name value mayBe => ?_, fun name member =>
    has_dropMarkers (fun isMarker => fresh name isMarker member)
      (obeys.scope.defined name member)⟩, ?_, ?_⟩
  · obtain ⟨mayBe, other⟩ := mayBe_dropMarkers.mp mayBe
    rcases Scope.every_iff_mayBe.mp obeys.scope.types name value mayBe with
      lawful | ⟨isMarked, marker⟩
    · exact .inl lawful
    · rcases isMarked with isMarked | member
      · exact .inr ⟨isMarked, marker⟩
      · exact absurd marker (other member)
  · rw [left]
    exact obeys.returns
  · rw [left]
    exact obeys.assigned

theorem Obeys.flushUnused (obeys : walk.Obeys law marked sure) :
    (walk.flushUnused env).Obeys law marked sure := by
  have reported : (if walk.toleratesUnused then walk else
      (walk.pendingWrites env).foldl (fun walk write =>
        walk.issue env write.1 .warning "unused"
          s!"Variable {write.2} is unused (use $_ to ignore this inspection)") walk).Obeys law
            marked sure := by
    split
    · exact obeys
    · exact List.foldlRecOn _ _ obeys fun _ obeys _ _ => obeys.issue ..
  exact ⟨reported.scope, reported.returns, reported.assigned⟩

end Walk

/-! ### Outcomes of tests -/

theorem Marked.mono {markers more : List String} (more_markers : markers ⊆ more) {name : String}
    (isMarked : Marked marked names markers name) : Marked marked names more name :=
  isMarked.imp_right fun both => ⟨both.1, more_markers both.2⟩

theorem Marked.within {outer : List String} (within : ∀ name, marked name → name ∈ outer)
    {markers : List String} (name : String) (isMarked : Marked marked names markers name) :
    name ∈ outer ++ names :=
  List.mem_append.mpr (isMarked.imp (within name) And.left)

theorem Marked.of_markers {markers : List String} {name : String}
    (isMarked : Marked marked names markers name) : marked name ∨ name ∈ markers :=
  isMarked.imp_right And.right

namespace Guard

variable {guard : Guard}

theorem Obeys.start {walk : Walk} (obeys : walk.Obeys law marked sure) {markers : List String}
    (fresh : ∀ name ∈ markers, name ∉ sure) :
    (Guard.start walk markers).Obeys law marked sure names :=
  ⟨⟨obeys.scope.more fun _ => .inl, obeys.returns, obeys.assigned⟩, obeys.scope, fresh⟩

theorem Obeys.mapWalk (obeys : guard.Obeys law marked sure names) {steps : Walk → Walk}
    (keeps : Walk.Keeps law (Marked marked names guard.markers) sure steps) :
    (guard.mapWalk steps).Obeys law marked sure names :=
  ⟨keeps guard.walk obeys.walk, obeys.otherwise, obeys.fresh⟩

theorem Obeys.conditionally (obeys : guard.Obeys law marked sure names) {steps : Guard → Guard}
    (keeps : ∀ guard : Guard, guard.Obeys law marked sure names →
      (steps guard).Obeys law marked sure names) :
    (guard.conditionally steps).Obeys law marked sure names := by
  obtain ⟨walk, otherwise, fresh⟩ := keeps guard obeys
  exact ⟨⟨walk.scope, walk.returns, walk.assigned⟩, otherwise, fresh⟩

/-- A variable that is sure to be defined is not marked. -/
theorem Obeys.mark (obeys : guard.Obeys law marked sure names) {guarded : Expr}
    (asks : ∀ name, guarded.rootName? = some name → name ∈ sure ∨ name ∈ names) :
    (guard.mark guarded).Obeys law marked sure names := by
  unfold Guard.mark
  split
  · exact obeys
  · next name root =>
    split
    · exact obeys
    · next missing =>
      have unsure : name ∉ sure := fun isSure => missing (obeys.walk.scope.defined name isSure)
      let markers :=
        if guard.markers.contains name then guard.markers else guard.markers ++ [name]
      have kept : guard.markers ⊆ markers := by grind
      have member : name ∈ markers := by grind
      have given : (TypeSet.named (issetMarker name)).Every
          (law.Permits (Marked marked names markers) name) :=
        TypeSet.every_singleton
          (.inr ⟨.inr ⟨(asks name root).resolve_left unsure, member⟩, rfl⟩)
      have before := obeys.walk.scope.more fun _ => Marked.mono kept
      refine ⟨⟨before.join name given true, obeys.walk.returns, obeys.walk.assigned⟩,
        obeys.otherwise, fun other isMarker => ?_⟩
      have fresh := obeys.fresh other
      grind

theorem Obeys.markNotEmpty (obeys : guard.Obeys law marked sure names) {negated : Bool}
    {operand : Expr} (asks : ∀ name ∈ askedNotEmpty negated operand, name ∈ sure ∨ name ∈ names) :
    (guard.markNotEmpty negated operand).Obeys law marked sure names := by
  unfold Guard.markNotEmpty
  split
  · next inner kind =>
    rw [askedNotEmpty, kind] at asks
    cases negated with
    | true => exact obeys
    | false => exact obeys.mark fun name root => asks name (by simp [root])
  · exact obeys

theorem Obeys.markIsset (obeys : guard.Obeys law marked sure names) {negated : Bool}
    {values : List Expr}
    (asks : ∀ name ∈ if negated then [] else values.filterMap Expr.rootName?,
      name ∈ sure ∨ name ∈ names) : (guard.markIsset negated values).Obeys law marked sure names := by
  unfold Guard.markIsset
  cases negated with
  | true => exact obeys
  | false =>
    refine List.foldlRecOn _ _ obeys fun _ obeys value member => obeys.mark fun name root => ?_
    exact asks name (List.mem_filterMap.mpr ⟨value, member, root⟩)

theorem Obeys.narrow (obeys : guard.Obeys law marked sure names) (name : String) {tested : String}
    (allowed : law.allows tested = true) (negated inLogic : Bool) :
    (guard.narrow name tested negated inLogic).Obeys law marked sure names := by
  have is : (TypeSet.named tested).Every (law.Permits marked name) :=
    (law.every_named allowed).mono fun _ => .inl
  have isNot : (((guard.otherwise.scope.types? name).getD .empty).filter
      fun value => !value.isNamed tested).Every (law.Permits marked name) :=
    (TypeSet.Every.getD TypeSet.every_empty fun _ => obeys.otherwise.types.types?).filter _
  have yes : (if negated then _ else TypeSet.named tested).Every (law.Permits marked name) :=
    .ite isNot is
  have no : (if negated then TypeSet.named tested else _).Every (law.Permits marked name) :=
    .ite is isNot
  have inside := yes.mono fun value permitted =>
    permitted.imp_right fun (marker : _ ∧ value = .concrete (issetMarker name)) =>
      (⟨.inl marker.1, marker.2⟩ : Marked marked names guard.markers name ∧ _)
  unfold Guard.narrow
  dsimp only
  split
  · exact ⟨obeys.walk.mapScope (obeys.walk.scope.widen name inside),
      obeys.otherwise.widen name no, obeys.fresh⟩
  · exact ⟨obeys.walk.mapScope (obeys.walk.scope.put name inside rfl),
      obeys.otherwise.put name no rfl, obeys.fresh⟩

theorem Obeys.narrowTo (obeys : guard.Obeys law marked sure names) {naming : Naming}
    (named : naming.Obeys law) (subject : Expr) (ref : ClassRef) (negated inLogic : Bool) :
    (guard.narrowTo naming subject ref negated inLogic).Obeys law marked sure names := by
  unfold Guard.narrowTo
  split
  · next name tested _ found => exact obeys.narrow name (named ref tested found) negated inLogic
  · exact obeys

/-- After a test the block around it and that of the false outcome have no more markers than before. -/
theorem Obeys.split (obeys : guard.Obeys law marked sure names) {block : Block}
    (before : block.scope.Obeys law marked sure) :
    (guard.split block).walk.Obeys law marked sure ∧
      (guard.split block).yes.scope.Obeys law (Marked marked names guard.markers) sure ∧
      (guard.split block).no.scope.Obeys law marked sure := by
  let fresh := guard.walk.block.scope.entries.filter fun entry =>
    !(entry.2.implicit || guard.markers.contains entry.1 || block.scope.mayHave entry.1)
  have unmarked : ∀ entry ∈ fresh, entry.2.types.Every (law.Permits marked entry.1) := by
    intro entry member
    obtain ⟨member, isFresh⟩ := List.mem_filter.mp member
    refine (obeys.walk.scope.types.of_mem_entries member).mono fun value permitted =>
      permitted.imp_right fun marker => ⟨marker.1.resolve_right fun both => ?_, marker.2⟩
    simp [both.2] at isFresh
  have define {scope : Scope} (obeys : scope.Obeys law marked sure) :
      Scope.Obeys law marked sure
        (fresh.foldl (fun scope entry => scope.add entry.1 entry.2.types true) scope) :=
    List.foldlRecOn _ _ obeys fun _ obeys entry member =>
      obeys.join entry.1 (unmarked entry member) true
  exact ⟨⟨define before, obeys.walk.returns, obeys.walk.assigned⟩, obeys.walk.scope,
    define obeys.otherwise⟩

/-! A test takes no marker back. -/

theorem subset_mark (guard : Guard) (guarded : Expr) :
    guard.markers ⊆ (guard.mark guarded).markers := by
  unfold mark
  split
  · exact List.Subset.refl _
  split
  · exact List.Subset.refl _
  · dsimp only
    split
    · exact List.Subset.refl _
    · exact List.subset_append_left ..

theorem subset_markNotEmpty (guard : Guard) (negated : Bool) (operand : Expr) :
    guard.markers ⊆ (guard.markNotEmpty negated operand).markers := by
  unfold markNotEmpty
  split
  · split
    · exact List.Subset.refl _
    · exact guard.subset_mark _
  · exact List.Subset.refl _

theorem subset_markIsset (guard : Guard) (negated : Bool) (values : List Expr) :
    guard.markers ⊆ (guard.markIsset negated values).markers := by
  unfold markIsset
  split
  · exact List.Subset.refl _
  · induction values generalizing guard with
    | nil => exact List.Subset.refl _
    | cons value rest inductionHypothesis =>
      exact List.Subset.trans (guard.subset_mark value) (inductionHypothesis (guard.mark value))

end Guard

/-! ### Steps of the flow -/

namespace Flow

variable {env : Env} {walk : Walk} {types : TypeSet}

theorem obeys_assignVar (obeys : walk.Obeys law marked sure) (mode : AssignMode)
    (given : types.Every law.Holds) (name : String) (span : Span) :
    (assignVar env mode types name span walk).Obeys law marked sure := by
  have assigned := obeys.assign name given
  cases mode with
  | plain => exact assigned.track name span
  | compound => exact assigned.untrack name
  | reference => exact (assigned.share name).untrack name
  | iteration outer => exact assigned.track name outer

theorem obeys_storeInVar (obeys : walk.Obeys law marked sure) (known : env.Obeys law)
    (given : types.Every law.Holds) (name : String) (span : Span) :
    (storeInVar env types name span walk).Obeys law marked sure := by
  unfold storeInVar
  split
  · exact (obeys.assign name (TypeLaw.every_inArray given)).untrack name
  · exact (obeys.add name (TypeLaw.every_inArray given) true).read known name span

theorem obeys_passVar (obeys : walk.Obeys law marked sure) {param : ParamInfo}
    (typed : param.types.Every law.Holds) (name : String) :
    (passVar env param name walk).Obeys law marked sure := by
  have given : (if param.types.isEmpty then .mixed else param.types).Every law.Holds :=
    .ite law.every_mixed typed
  exact ((obeys.add name given true).share name).untrack name

theorem obeys_shareVar (obeys : walk.Obeys law marked sure) (name : String) :
    (shareVar env name walk).Obeys law marked sure := by
  unfold shareVar
  dsimp only
  split
  · exact (obeys.share name).untrack name
  · exact ((obeys.add name (law.every_plain rfl) true).share name).untrack name

theorem obeys_shareSlot (obeys : walk.Obeys law marked sure) (byRef : Bool) (value : Expr) :
    (shareSlot byRef value walk).Obeys law marked sure := by
  unfold shareSlot
  split
  · exact obeys.share _
  · exact obeys

theorem obeys_assignOwnProperty (obeys : walk.Obeys law marked sure) (given : types.Every law.Holds)
    (object : Expr) (name : Option String) :
    (assignOwnProperty env types object name walk).Obeys law marked sure := by
  unfold assignOwnProperty
  split
  · split
    · exact obeys.noteAssignment _ _ given
    · exact obeys
  · exact obeys

theorem obeys_assignOwnStatic (obeys : walk.Obeys law marked sure) (given : types.Every law.Holds)
    (ref : ClassRef) (name : Option String) :
    (assignOwnStatic env types ref name walk).Obeys law marked sure := by
  unfold assignOwnStatic
  split
  · split
    · exact obeys.noteAssignment _ _ given
    · exact obeys
  · exact obeys

theorem every_slotTypes (given : types.Every law.Holds) (position : Nat) (key : Option Expr) :
    (slotTypes types position key).Every law.Holds := by
  cases key with
  | none => exact TypeLaw.every_elements given _
  | some key => exact TypeLaw.every_elements given _

theorem obeys_tolerate (obeys : walk.Obeys law marked sure) (function : String) :
    (tolerate function walk).Obeys law marked sure := by
  unfold tolerate
  split
  · exact ⟨obeys.scope, obeys.returns, obeys.assigned⟩
  · exact ⟨obeys.scope, obeys.returns, obeys.assigned⟩
  · exact obeys

/-! ### Callees -/

/-- The types of the parameters of a callee, if it is known, are lawful. -/
def ParamsObey (law : TypeLaw) (params : Option (List ParamInfo)) : Prop :=
  ∀ known, params = some known → ParamInfo.AllObey law known

theorem obey_callee? (known : env.Obeys law) (name : String) :
    ParamsObey law ((callee? env name).map (·.params)) := by
  intro params equal
  obtain ⟨info, found, rfl⟩ := Option.map_eq_some_iff.mp equal
  have indexed {name : String} (found : env.index.function? name = some info) :
      ParamInfo.AllObey law info.params :=
    known.index.functions info (Merged.mem_values.mpr ⟨_, found⟩)
  unfold callee? at found
  dsimp only at found
  rw [Option.orElse_eq_orElse, Option.orElse_eq_or, Option.or_eq_some_iff] at found
  rcases found with found | ⟨-, found⟩
  · exact indexed found
  · obtain ⟨fallback, _, found⟩ := Option.bind_eq_some_iff.mp found
    exact indexed found

theorem obey_methodParams (known : env.Obeys law) {found : Option FoundMethod}
    (looked : ∀ method, found = some method → ∃ owner name,
      Walk.lookupMethod? env owner name = some method) : ParamsObey law (methodParams found) := by
  intro params equal
  obtain ⟨method, found, rfl⟩ := Option.map_eq_some_iff.mp equal
  obtain ⟨owner, name, found⟩ := looked method found
  unfold Walk.lookupMethod? at found
  split at found
  · obtain ⟨declarer, declares, member⟩ := (Hierarchy.findMethod?_some found).2
    exact known.index.methods declarer declares method.info member
  · cases found

theorem obey_constructor? (known : env.Obeys law) (ref : ClassRef) :
    ParamsObey law (methodParams (constructor? env ref)) :=
  obey_methodParams known fun method found => by
    obtain ⟨owner, _, found⟩ := Option.bind_eq_some_iff.mp found
    exact ⟨owner, _, found⟩

theorem obey_staticCallee? (known : env.Obeys law) (ref : ClassRef) (method : Option String) :
    ParamsObey law (methodParams (staticCallee? env ref method)) :=
  obey_methodParams known fun method found => by
    unfold staticCallee? at found
    split at found
    · exact ⟨_, _, found⟩
    · cases found

theorem obey_lookupMethodOf? (known : env.Obeys law) (object : Expr) (method : Option String) :
    ParamsObey law (methodParams (method.bind (walk.lookupMethodOf? env object))) :=
  obey_methodParams known fun method found => by
    obtain ⟨name, _, found⟩ := Option.bind_eq_some_iff.mp found
    unfold Walk.lookupMethodOf? at found
    split at found
    · obtain ⟨owner, _, found⟩ := List.exists_of_findSome?_eq_some found
      exact ⟨owner, name, found⟩
    · cases found

theorem every_refParam? {params : Option (List ParamInfo)} (typed : ParamsObey law params)
    {position : Nat} {param : ParamInfo} (taken : refParam? params position = some param) :
    param.types.Every law.Holds := by
  obtain ⟨known, rfl, found⟩ := Option.bind_eq_some_iff.mp taken
  have found := (Option.filter_eq_some_iff.mp found).1
  rw [Option.orElse_eq_orElse, Option.orElse_eq_or, Option.or_eq_some_iff] at found
  rcases found with found | ⟨-, found⟩
  · exact typed known rfl param (List.mem_of_getElem? found)
  · exact typed known rfl param (List.mem_of_getLast? (Option.filter_eq_some_iff.mp found).1)

/-! ### Closures -/

theorem obeys_capture {state : Walk × Scope} (obeys : state.1.Obeys law marked sure)
    (captured : Capture) : (capture env state captured).1.Obeys law marked sure := by
  obtain ⟨walk, inner⟩ := state
  dsimp only at obeys
  have checked : (if captured.byRef || walk.scope.has captured.name then walk else
      walk.issue env captured.span .error "undefined"
        s!"Cannot find referenced variable {captured.name}").Obeys law marked sure := by
    split
    · exact obeys
    · exact obeys.issue ..
  unfold capture
  dsimp only
  split
  · exact (checked.share captured.name).untrack captured.name
  · exact checked.untrack captured.name

/-- The walk around a closure. The one inside it only reports: its types are taken over by nothing. -/
theorem obeys_captures (env : Env) (captures : List Capture) (inner : Scope)
    (obeys : walk.Obeys law marked sure) :
    (captures.foldl (capture env) (walk, inner)).1.Obeys law marked sure :=
  List.foldlRecOn captures (capture env)
    (motive := fun state : Walk × Scope => state.1.Obeys law marked sure) obeys
    fun _ obeys captured _ => obeys_capture obeys captured

/-! ### Branching statements -/

/-- The branches of an `if` may end with markers that were given in the chain; the block around it and
the one in which every test is false have none of these. -/
structure Chain.Obeys (law : TypeLaw) (marked : String → Prop) (sure : List String)
    (chain : Chain) : Prop where
  walk : chain.walk.Obeys law marked sure
  branches : ∀ branch ∈ chain.branches,
    branch.scope.Every (law.Permits fun name => marked name ∨ name ∈ chain.markers)
  no : chain.no.scope.Obeys law marked sure
  fresh : ∀ name ∈ chain.markers, name ∉ sure

structure Cases.Obeys (law : TypeLaw) (marked : String → Prop) (sure : List String)
    (cases : Cases) : Prop where
  walk : cases.walk.Obeys law marked sure
  branches : ∀ branch ∈ cases.branches, branch.scope.Every (law.Permits marked)

structure Catches.Obeys (law : TypeLaw) (marked : String → Prop) (sure : List String)
    (catches : Catches) : Prop where
  walk : catches.walk.Obeys law marked sure
  branches : ∀ branch ∈ catches.branches, branch.scope.Every (law.Permits marked)

/-- One more branch. -/
theorem every_branches {branches : List Block} {branch : Block}
    (every : ∀ branch ∈ branches, branch.scope.Every (law.Permits marked))
    (ended : branch.scope.Every (law.Permits marked)) :
    ∀ other ∈ branches ++ [branch], other.scope.Every (law.Permits marked) := by
  intro other member
  rcases List.mem_append.mp member with member | member
  · exact every other member
  · rwa [List.mem_singleton.mp member]

/-- The chain after one more test, which may have given more markers. -/
theorem Chain.Obeys.test {chain : Chain} (obeys : chain.Obeys law marked sure)
    {markers : List String} (more : chain.markers ⊆ markers)
    (fresh : ∀ name ∈ markers, name ∉ sure) {no : Block} (inNo : no.scope.Obeys law marked sure) :
    ({ chain with markers, no } : Chain).Obeys law marked sure :=
  ⟨obeys.walk, fun branch member => (obeys.branches branch member).more fun _ =>
    .imp_right fun given => more given, inNo, fresh⟩

theorem Chain.Obeys.push {chain : Chain} (obeys : chain.Obeys law marked sure) {initial : Scope}
    (before : initial.Every (law.Permits marked)) {branch : Block}
    (ended : branch.scope.Every (law.Permits fun name => marked name ∨ name ∈ chain.markers))
    (around : walk.Obeys law marked sure) : (chain.push initial branch walk).Obeys law marked sure :=
  ⟨around, every_branches obeys.branches
    (Block.every_restoreImplicit ended (before.more fun _ => .inl)), obeys.no, obeys.fresh⟩

theorem Chain.Obeys.close {chain : Chain} (obeys : chain.Obeys law marked sure)
    (continuesInFalse : Bool) : (chain.close continuesInFalse).Obeys law marked sure := by
  have goesOn : (if continuesInFalse then chain.continueInFalse else chain.walk).Obeys law marked
      sure := by
    split
    · exact ⟨obeys.no, obeys.walk.returns, obeys.walk.assigned⟩
    · exact obeys.walk
  refine Walk.Obeys.dropMarkers obeys.fresh ⟨?_, goesOn.returns, goesOn.assigned⟩
  exact Block.obeys_merge (goesOn.scope.more fun _ => .inl) obeys.branches _

theorem obeys_closeTernary {initial : Scope} (before : initial.Every (law.Permits marked))
    {markers : List String} (fresh : ∀ name ∈ markers, name ∉ sure) {yes no : Block}
    (walkedYes : yes.scope.Every (law.Permits (Marked marked names markers)))
    (walkedNo : no.scope.Every (law.Permits marked)) (obeys : walk.Obeys law marked sure) :
    (closeTernary initial yes no markers walk).Obeys law marked sure := by
  have started : initial.Every (law.Permits fun name => marked name ∨ name ∈ markers) :=
    before.more fun _ => .inl
  refine Walk.Obeys.dropMarkers fresh ⟨Block.obeys_merge (obeys.scope.more fun _ => .inl) ?_ 2,
    obeys.returns, obeys.assigned⟩
  intro branch member
  rcases List.mem_cons.mp member with rfl | member
  · exact Block.every_restoreImplicit (walkedYes.more fun _ => Marked.of_markers) started
  · rw [List.mem_singleton.mp member]
    exact Block.every_restoreImplicit (walkedNo.more fun _ => .inl) started

theorem Cases.Obeys.push {cases : Cases} (obeys : cases.Obeys law marked sure) {branch : Block}
    (ended : branch.scope.Every (law.Permits marked)) (around : walk.Obeys law marked sure) :
    (cases.push branch walk).Obeys law marked sure :=
  ⟨around, every_branches obeys.branches ended⟩

theorem Cases.Obeys.close {cases : Cases} (obeys : cases.Obeys law marked sure) :
    cases.close.Obeys law marked sure := by
  unfold Cases.close
  refine obeys.walk.mapBlock ?_
  refine Block.obeys_merge obeys.walk.scope (fun branch member => ?_) _
  obtain ⟨old, present, rfl⟩ := List.mem_map.mp member
  exact obeys.branches old present

theorem obeys_checkCaseBreak (env : Env) (obeys : walk.Obeys law marked sure) (span : Span)
    (rest : List Case) : (checkCaseBreak env span rest walk).Obeys law marked sure := by
  unfold checkCaseBreak
  split
  · split
    · exact obeys.issue ..
    · exact obeys
  · exact obeys

theorem obeys_afterThrow {block body : Block} (obeys : block.scope.Obeys law marked sure)
    (tried : body.scope.Every (law.Permits marked)) :
    (afterThrow block body).scope.Obeys law marked sure := by
  refine List.foldlRecOn (motive := fun after : Block => after.scope.Obeys law marked sure) _ _ obeys
    fun after obeys entry member => ?_
  exact obeys.join entry.1 (tried.of_mem_entries member) false

theorem Catches.Obeys.push {catches : Catches} (obeys : catches.Obeys law marked sure)
    {branch : Block} (ended : branch.scope.Every (law.Permits marked))
    (around : walk.Obeys law marked sure) : (catches.push branch walk).Obeys law marked sure :=
  ⟨around, every_branches obeys.branches ended⟩

theorem obeys_bindCaught (obeys : walk.Obeys law marked sure) (named : env.naming.Obeys law)
    (types : List String) (name : Option String) :
    (bindCaught env types name walk).Obeys law marked sure := by
  have caught : (TypeSet.ofList (types.map fun written =>
      TypeValue.concrete (env.naming.className written))).Every law.Holds := by
    refine TypeSet.every_ofList fun value member => ?_
    obtain ⟨written, _, rfl⟩ := List.mem_map.mp member
    exact law.concrete _ (named.className written)
  unfold bindCaught
  split
  · exact obeys.assign _ caught
  · exact obeys

theorem obeys_checkFinally (obeys : walk.Obeys law marked sure) (body : List Stmt) (tried : Block)
    (catches : List (List Stmt × Block)) (final : List Stmt) (finalSpan : Span) (finished : Block) :
    (checkFinally env body tried catches final finalSpan finished walk).Obeys law marked sure := by
  unfold checkFinally
  split
  · exact obeys.issue ..
  split
  · split
    · exact List.foldlRecOn _ _ obeys fun _ obeys _ _ => obeys.issue ..
    · exact obeys
  · exact obeys

theorem obeys_closeTry {tried : Block} (walked : tried.scope.Every (law.Permits marked))
    {catches : Catches} (obeys : catches.Obeys law marked sure) :
    (closeTry tried catches).Obeys law marked sure := by
  unfold closeTry
  refine obeys.walk.mapBlock ?_
  exact Block.obeys_merge obeys.walk.scope (every_branches obeys.branches walked) _

theorem obeys_closeFinally {finished : Block} (walked : finished.scope.Every (law.Permits marked))
    (obeys : walk.Obeys law marked sure) : (closeFinally finished walk).Obeys law marked sure :=
  obeys.mapBlock (obeys.scope.joinAll walked fun info => finished.continues && info.always)

/-! ### Loops -/

theorem obeys_loop {body : Walk → Walk} (keeps : Walk.Keeps law marked sure body) :
    Walk.Keeps law marked sure (loop body) := by
  intro walk obeys
  have started : ({ walk.block.child with insideLoop := true } : Block).scope.Obeys law marked sure :=
    obeys.scope
  obtain ⟨ended, after⟩ := obeys.within started keeps
  exact after.mergeOptional ended.types

theorem every_keyTypes (law : TypeLaw) : keyTypes.Every law.Holds := by
  refine TypeSet.every_ofList fun value member => ?_
  rcases List.mem_cons.mp member with rfl | member
  · exact law.concrete "int" (law.allows_plain rfl)
  · rw [List.mem_singleton.mp member]
    exact law.concrete "string" (law.allows_plain rfl)

theorem obeys_checkForeachKey (obeys : walk.Obeys law marked sure) (key : Option Expr)
    (value : Expr) : (checkForeachKey env key value walk).Obeys law marked sure := by
  unfold checkForeachKey
  split
  · exact obeys
  · split
    · split
      · exact obeys
      · exact (obeys.untrack _).issue ..
    · exact obeys

end Flow

end PhpAudit
