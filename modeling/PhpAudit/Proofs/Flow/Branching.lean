/-
This file says what the walk over a condition and the joins of branches do to what is known about
variables. A join never drops a variable, and it takes over those of the branches that go on. A test
may drop what it tells about the variables in it again; other variables that have a value in the
condition have one whatever the outcome.
-/

import PhpAudit.Proofs.Flow.Touching

namespace PhpAudit

/-! ### Joins -/

namespace Scope

/-- Changes that each give the variable of an entry a value, and drop nothing. -/
theorem mayHave_foldl {Value : Type} {change : Scope → String × Value → Scope}
    (widens : ∀ scope entry, Widens scope (change scope entry))
    (gains : ∀ scope entry, (change scope entry).mayHave entry.1 = true)
    {entries : List (String × Value)} {name : String} {value : Value}
    (member : (name, value) ∈ entries) (scope : Scope) :
    (entries.foldl change scope).mayHave name = true := by
  induction entries generalizing scope with
  | nil => exact absurd member List.not_mem_nil
  | cons entry rest inductionHypothesis =>
    rcases List.mem_cons.mp member with rfl | member
    · exact (Widens.foldl widens rest _).mayHave (gains scope (name, value))
    · exact inductionHypothesis member (change scope entry)

theorem mayHave_add_self (scope : Scope) (name : String) (types : TypeSet) (always : Bool) :
    (scope.add name types always).mayHave name = true := by
  rw [mayHave_add, beq_self_eq_true, Bool.true_or]

/-- A variable that the scope may have is among its entries. -/
theorem exists_mem_entries {scope : Scope} {name : String} (has : scope.mayHave name = true) :
    ∃ info, (name, info) ∈ scope.entries := by
  obtain ⟨info, found⟩ := Option.isSome_iff_exists.mp has
  exact ⟨info, (scope.mem_entries name).mpr found⟩

end Scope

namespace Block

theorem mem_joinVar {joined : Std.TreeMap String Joined} {name other : String} {info : VarInfo} :
    other ∈ joinVar joined name info ↔ name = other ∨ other ∈ joined := by
  unfold joinVar
  rw [Std.TreeMap.mem_insert]
  simp

theorem mem_foldl_joinVar {entries : List (String × VarInfo)} {name : String}
    {joined : Std.TreeMap String Joined} :
    name ∈ entries.foldl (fun joined (name, info) => joinVar joined name info) joined ↔
      name ∈ joined ∨ ∃ info, (name, info) ∈ entries := by
  induction entries generalizing joined with
  | nil => simp
  | cons entry rest inductionHypothesis =>
    obtain ⟨other, info⟩ := entry
    rw [List.foldl_cons, inductionHypothesis, mem_joinVar]
    simp only [List.mem_cons, Prod.mk.injEq]
    grind

/-- A join takes over the variables of each branch that goes on. -/
theorem mem_joinBranches {branches : List Block} {branch : Block} {name : String}
    (member : branch ∈ branches) (continues : branch.continues = true)
    (has : branch.scope.mayHave name = true) : name ∈ joinBranches branches := by
  have collected (ongoing : List Block) (joined : Std.TreeMap String Joined)
      (cause : name ∈ joined ∨ branch ∈ ongoing) :
      name ∈ ongoing.foldl (fun joined branch => branch.scope.entries.foldl
        (fun joined (name, info) => joinVar joined name info) joined) joined := by
    induction ongoing generalizing joined with
    | nil => exact cause.resolve_right List.not_mem_nil
    | cons head rest inductionHypothesis =>
      rw [List.foldl_cons]
      refine inductionHypothesis _ ?_
      rw [mem_foldl_joinVar]
      rcases cause with joined | present
      · exact .inl (.inl joined)
      · rcases List.mem_cons.mp present with rfl | present
        · exact .inl (.inr (Scope.exists_mem_entries has))
        · exact .inr present
  exact collected _ _ (.inr (List.mem_filter.mpr ⟨member, continues⟩))

theorem mayHave_merge {block : Block} {branches : List Block} {branch : Block} {name : String}
    (member : branch ∈ branches) (continues : branch.continues = true)
    (has : branch.scope.mayHave name = true) (links : Nat) :
    (block.merge branches links).scope.mayHave name = true := by
  have joined := mem_joinBranches member continues has
  obtain ⟨value, found⟩ := Option.isSome_iff_exists.mp
    ((Std.TreeMap.isSome_getElem?_iff_mem).mpr joined)
  have member : (name, value) ∈ (joinBranches branches).toList :=
    Std.TreeMap.mem_toList_iff_getElem?_eq_some.mpr found
  exact Scope.mayHave_foldl (fun scope _ => .add scope ..)
    (fun scope _ => scope.mayHave_add_self ..) member _

theorem mayHave_mergeOptional {block branch : Block} {name : String}
    (has : branch.scope.mayHave name = true) :
    (block.mergeOptional branch).scope.mayHave name = true := by
  obtain ⟨info, member⟩ := Scope.exists_mem_entries has
  exact Scope.mayHave_foldl (fun scope _ => .add scope ..)
    (fun scope _ => scope.mayHave_add_self ..) member _

theorem widens_afterThrow (block body : Block) :
    block.scope.Widens (Flow.afterThrow block body).scope := by
  unfold Flow.afterThrow
  generalize body.scope.entries = entries
  have grown (start : Block) : start.scope.Widens (entries.foldl (fun after (name, info) =>
      after.mapScope (·.add name info.types false)) start).scope := by
    induction entries generalizing start with
    | nil => exact .refl _
    | cons entry rest inductionHypothesis =>
      have added : start.scope.Widens (start.mapScope (·.add entry.1 entry.2.types false)).scope :=
        .add start.scope ..
      exact added.trans (inductionHypothesis _)
  exact grown block.child

theorem insideLoop_afterThrow (block body : Block) :
    (Flow.afterThrow block body).insideLoop = block.insideLoop := by
  unfold Flow.afterThrow
  generalize body.scope.entries = entries
  have kept (start : Block) : (entries.foldl (fun after (name, info) =>
      after.mapScope (·.add name info.types false)) start).insideLoop = start.insideLoop := by
    induction entries generalizing start with
    | nil => rfl
    | cons entry rest inductionHypothesis => exact inductionHypothesis _
  exact kept block.child

/-- Variables get back what was known of them before, and none is dropped. -/
theorem mayHave_restoreImplicit {initial : Scope} {block : Block} {name : String}
    (has : block.scope.mayHave name = true) :
    (block.restoreImplicit initial).scope.mayHave name = true := by
  unfold restoreImplicit mapScope
  dsimp only
  generalize block.scope = scope at has
  generalize scope.entries = entries
  induction entries generalizing scope with
  | nil => exact has
  | cons entry rest inductionHypothesis =>
    rw [List.foldl_cons]
    refine inductionHypothesis _ ?_
    split
    · split
      · rw [Scope.mayHave_put, has, Bool.or_true]
      · exact has
    · exact has

end Block

namespace Walk

/-- Only markers are retracted. -/
theorem get?_dropMarkers {markers : List String} {name : String} (other : name ∉ markers)
    (walk : Walk) : (walk.dropMarkers markers).scope.get? name = walk.scope.get? name := by
  unfold dropMarkers
  induction markers generalizing walk with
  | nil => rfl
  | cons marker rest inductionHypothesis =>
    rw [List.mem_cons, not_or] at other
    rw [List.foldl_cons, inductionHypothesis other.2]
    split
    · rfl
    · dsimp only [mapScope, mapBlock, scope, Block.mapScope]
      split
      · unfold Scope.get? Scope.erase
        rw [Std.TreeMap.getElem?_erase, if_neg (by simpa using fun equal => other.1 equal.symm)]
      · rw [Scope.get?_put, if_neg fun equal => other.1 equal.symm]

/-- What retracting markers leaves alone. -/
theorem dropMarkers_eq (markers : List String) (walk : Walk) :
    ∃ scope, walk.dropMarkers markers = walk.mapScope fun _ => scope := by
  unfold dropMarkers
  induction markers generalizing walk with
  | nil => exact ⟨walk.scope, rfl⟩
  | cons marker rest inductionHypothesis =>
    rw [List.foldl_cons]
    split
    · exact inductionHypothesis walk
    · obtain ⟨scope, equal⟩ := inductionHypothesis _
      exact ⟨scope, equal⟩

end Walk

/-! ### Conditions -/

/-- A test that tells something about one variable. -/
theorem Gathers.tested {source : Source} {name : String} (span : Span) {walk : Walk}
    {change : Scope → Scope}
    (keeps : ∀ {other}, walk.scope.mayHave other = true →
      (change walk.scope).mayHave other = true)
    (implicit : ∀ {other}, name ≠ other → (change walk.scope).hasImplicit other = true →
      walk.scope.hasImplicit other = true) :
    Gathers source [{ name, span, use := .tested }] walk (walk.mapScope change) where
  inLoop := rfl
  tolerates := id
  quiet _ := rfl
  pending member := .inl ⟨member, by simp [Unread, Visit.clears]⟩
  implicit {other} keeping found := by
    refine implicit (fun equal => ?_) found
    exact absurd (keeping _ (.head _) equal) (by simp [Visit.forgets])
  keeps _ known := known.imp_right (Or.imp_right keeps)
  raises raised := .inl raised
  gains _ gained := by simp [Gained, Visit.gains] at gained
  first raised := .inl raised

/-- What the walk over a condition does in the blocks of both outcomes. -/
structure Weighs (source : Source) (visits : List Visit) (before after : Guard) : Prop where
  walk : Gathers source visits before.walk after.walk
  inLoop : after.otherwise.insideLoop = before.otherwise.insideLoop
  otherwise : ∀ {name}, before.otherwise.scope.mayHave name = true →
    after.otherwise.scope.mayHave name = true
  implicit : ∀ {name}, Keeping visits name → after.otherwise.scope.hasImplicit name = true →
    before.otherwise.scope.hasImplicit name = true
  markers : ∀ {name}, Keeping visits name → name ∈ after.markers → name ∈ before.markers

namespace Weighs

variable {source : Source} {visits others : List Visit} {first second third : Guard}

/-- Operands of a condition that are walked like those of any expression. -/
theorem of_gathers {guard : Guard} {steps : Walk → Walk}
    (gathers : Gathers source visits guard.walk (steps guard.walk)) :
    Weighs source visits guard (guard.mapWalk steps) :=
  ⟨gathers, rfl, id, fun _ => id, fun _ => id⟩

theorem refl (guard : Guard) : Weighs source [] guard guard :=
  ⟨.refl guard.walk, rfl, id, fun _ => id, fun _ => id⟩

/-- A test that tells nothing new. -/
theorem unchanged (guard : Guard) (name : String) (span : Span) :
    Weighs source [{ name, span, use := .tested }] guard guard := by
  have tested : Gathers source [{ name, span, use := .tested }] guard.walk
    (guard.walk.mapScope id) := .tested span id fun _ => id
  exact ⟨tested, rfl, id, fun _ => id, fun _ => id⟩

theorem chain (left : Weighs source visits first second)
    (right : Weighs source others second third) :
    Weighs source (Visits.chain visits others) first third where
  walk := left.walk.chain right.walk
  inLoop := right.inLoop.trans left.inLoop
  otherwise has := right.otherwise (left.otherwise has)
  implicit keeping found := left.implicit keeping.left
    (right.implicit ((Relabels.after visits).keeping keeping.right) found)
  markers keeping member := left.markers keeping.left
    (right.markers ((Relabels.after visits).keeping keeping.right) member)

/-- The exits of a condition are not about variables. -/
theorem setExits (weighs : Weighs source visits first second) (exits : Exits) :
    Weighs source visits first
      (second.mapWalk (·.mapBlock fun block => { block with exits })) where
  walk := weighs.walk.then_eases (.setExits _ exits)
  inLoop := weighs.inLoop
  otherwise := weighs.otherwise
  implicit := weighs.implicit
  markers := weighs.markers

theorem mark (guard : Guard) (guarded : Expr) (span : Span) :
    Weighs source (Visits.ofTested span guarded.rootName?) guard (guard.mark guarded) := by
  unfold Guard.mark
  split
  · next none =>
    rw [none]
    exact .refl guard
  · next name found =>
    rw [found]
    split
    · exact .unchanged guard name span
    · refine ⟨.tested span ?_ fun _ => (Scope.Widens.add ..).implicit, rfl, id, fun _ => id, ?_⟩
      · exact (Scope.Widens.add ..).mayHave
      · intro other keeping member
        have different : other ≠ name := fun equal =>
          absurd (keeping _ (.head _) equal.symm) (by simp [Visit.forgets])
        dsimp only at member
        split at member
        · exact member
        · exact (List.mem_append.mp member).resolve_right (by simpa using different)

theorem markNotEmpty (guard : Guard) (negated : Bool) (operand : Expr) (span : Span) :
    Weighs source (Visits.ofNotEmpty span negated operand) guard
      (guard.markNotEmpty negated operand) := by
  unfold Guard.markNotEmpty Visits.ofNotEmpty
  cases operand.unparen.kind with
  | isEmpty inner =>
    cases negated with
    | true => exact .refl guard
    | false => exact .mark guard inner span
  | _ => exact .refl guard

theorem markIsset (guard : Guard) (negated : Bool) (values : List Expr) (span : Span) :
    Weighs source (Visits.ofIsset span negated values) guard (guard.markIsset negated values) := by
  unfold Guard.markIsset Visits.ofIsset
  split
  · exact .refl guard
  · induction values generalizing guard with
    | nil => exact .refl guard
    | cons value rest inductionHypothesis =>
      have idle : ∀ visit ∈ Visits.ofTested span value.rootName?, visit.gains = false := by
        intro visit member
        obtain ⟨name, _, rfl⟩ := List.mem_map.mp member
        rfl
      rw [List.flatMap_cons, ← Visits.chain_of_idle idle, List.foldl_cons]
      exact (Weighs.mark guard value span).chain (inductionHypothesis (guard.mark value))

/-- An `instanceof` test narrows its variable in both outcomes. -/
theorem narrow (guard : Guard) (name tested : String) (negated inLogic : Bool) (span : Span) :
    Weighs source [{ name, span, use := .tested }] guard
      (guard.narrow name tested negated inLogic) := by
  have different {other : String}
      (keeping : Keeping [{ name, span, use := .tested }] other) : name ≠ other := fun equal =>
    absurd (keeping _ (.head _) equal) (by simp [Visit.forgets])
  have updated (scope : Scope) (change : VarInfo → VarInfo) {other : String}
      (has : scope.mayHave other = true) : (scope.update name change).mayHave other = true := by
    unfold Scope.update
    split
    · rw [Scope.mayHave_put, has, Bool.or_true]
    · exact has
  have updatedImplicit (scope : Scope) (change : VarInfo → VarInfo) {other : String}
      (different : name ≠ other) (found : (scope.update name change).hasImplicit other = true) :
      scope.hasImplicit other = true := by
    unfold Scope.update at found
    split at found
    · rwa [Scope.hasImplicit_put, if_neg different] at found
    · exact found
  have narrowed (scope : Scope) (types : TypeSet) {other : String}
      (has : scope.mayHave other = true) : (scope.narrow name types).mayHave other = true := by
    rw [Scope.narrow, Scope.mayHave_put, has, Bool.or_true]
  have narrowedImplicit (scope : Scope) (types : TypeSet) {other : String}
      (different : name ≠ other) (found : (scope.narrow name types).hasImplicit other = true) :
      scope.hasImplicit other = true := by
    rwa [Scope.narrow, Scope.hasImplicit_put, if_neg different] at found
  unfold Guard.narrow
  dsimp only
  split
  · exact ⟨.tested span (updated _ _) (updatedImplicit _ _), rfl, updated _ _,
      fun keeping => updatedImplicit _ _ (different keeping), fun _ => id⟩
  · exact ⟨.tested span (narrowed _ _) (narrowedImplicit _ _), rfl, narrowed _ _,
      fun keeping => narrowedImplicit _ _ (different keeping), fun _ => id⟩

theorem narrowTo (guard : Guard) (naming : Naming) (subject : Expr) (ref : ClassRef)
    (negated inLogic : Bool) (span : Span) :
    Weighs source (Visits.ofTested span subject.variableName?) guard
      (guard.narrowTo naming subject ref negated inLogic) := by
  unfold Guard.narrowTo
  split
  · next name tested found _ =>
    rw [found]
    exact .narrow guard name tested negated inLogic span
  · next other =>
    cases subject.variableName? with
    | none => exact .refl guard
    | some name => exact .unchanged guard name span

/-! ### Outcomes -/

section Outcomes

variable {walk : Walk} {guard : Guard} {markers : List String} {name : String}

/-- What has a value in a condition has one in the true outcome. -/
theorem yes (weighs : Weighs source visits (.start walk markers) guard)
    (keeping : Keeping visits name) (known : walk.Knows name ∨ Gained visits name) :
    guard.walk.Knows name :=
  known.elim (weighs.walk.keeps keeping) (weighs.walk.gains keeping)

/-- The variables that the end of a condition defines in a block. -/
theorem mayHave_split (weighs : Weighs source visits (.start walk markers) guard)
    (keeping : Keeping visits name) (unmarked : name ∉ markers)
    (has : guard.walk.scope.mayHave name = true) :
    (guard.split walk.block).walk.scope.mayHave name = true ∧
      (guard.split walk.block).no.scope.mayHave name = true := by
  have widens (fresh : List (String × VarInfo)) (scope : Scope) : scope.Widens
      (fresh.foldl (fun scope (name, info) => scope.add name info.types true) scope) :=
    .foldl (fun scope _ => .add scope ..) fresh scope
  by_cases before : walk.scope.mayHave name = true
  · exact ⟨(widens _ _).mayHave before, (widens _ _).mayHave (weighs.otherwise before)⟩
  · obtain ⟨info, member⟩ := Scope.exists_mem_entries has
    have found := (Scope.mem_entries _ _).mp member
    have explicit : info.implicit = false := by
      rw [Bool.eq_false_iff]
      intro implicit
      have introduced : guard.walk.scope.hasImplicit name = true := by
        unfold Scope.hasImplicit
        rw [found]
        exact implicit
      exact before (Scope.mayHave_of_hasImplicit (weighs.walk.implicit keeping introduced))
    have unmarkedAfter : guard.markers.contains name = false := by
      rw [Bool.eq_false_iff]
      intro marked
      exact unmarked (weighs.markers keeping (List.contains_iff_mem.mp marked))
    have fresh : (name, info) ∈ guard.walk.block.scope.entries.filter fun (name, info) =>
        !(info.implicit || guard.markers.contains name || walk.block.scope.mayHave name) := by
      refine List.mem_filter.mpr ⟨member, ?_⟩
      have missing : walk.block.scope.mayHave name = false := Bool.eq_false_of_not_eq_true before
      simp only [explicit, unmarkedAfter, missing, Bool.or_false, Bool.not_false]
    exact ⟨Scope.mayHave_foldl (fun scope _ => .add scope ..)
        (fun scope _ => scope.mayHave_add_self ..) fresh _,
      Scope.mayHave_foldl (fun scope _ => .add scope ..)
        (fun scope _ => scope.mayHave_add_self ..) fresh _⟩

/-- What has a value in a condition has one in the false outcome. -/
theorem no (weighs : Weighs source visits (.start walk markers) guard)
    (keeping : Keeping visits name) (unmarked : name ∉ markers)
    (known : walk.Knows name ∨ Gained visits name) :
    Walk.Knows { guard.walk with block := (guard.split walk.block).no } name :=
  (weighs.yes keeping known).imp_right
    (Or.imp_right fun has => (weighs.mayHave_split keeping unmarked has).2)

theorem implicit_no (weighs : Weighs source visits (.start walk markers) guard)
    (keeping : Keeping visits name)
    (implicit : (guard.split walk.block).no.scope.hasImplicit name = true) :
    walk.scope.hasImplicit name = true :=
  weighs.implicit keeping
    ((Scope.Widens.foldl (fun scope _ => .add scope ..) _ _).implicit implicit)

/-- The walk over a condition, seen from the block around it. -/
theorem outer (weighs : Weighs source visits (.start walk []) guard) :
    Gathers source visits walk (guard.split walk.block).walk where
  inLoop := rfl
  tolerates := weighs.walk.tolerates
  quiet := weighs.walk.quiet
  pending := weighs.walk.pending
  implicit _ implicit :=
    (Scope.Widens.foldl (fun scope _ => .add scope ..) _ _).implicit implicit
  keeps keeping known := (weighs.walk.keeps keeping known).imp_right
    (Or.imp_right fun has => (weighs.mayHave_split keeping List.not_mem_nil has).1)
  raises := weighs.walk.raises
  gains keeping gained := (weighs.walk.gains keeping gained).imp_right
    (Or.imp_right fun has => (weighs.mayHave_split keeping List.not_mem_nil has).1)
  first := weighs.walk.first

end Outcomes

end Weighs

/-! ### Joining the branches of a walk -/

namespace Eases

variable {source : Source}

theorem mapBlock {walk : Walk} {change : Block → Block}
    (widens : walk.scope.Widens (change walk.block).scope)
    (inLoop : (change walk.block).insideLoop = walk.block.insideLoop) :
    Eases source walk (walk.mapBlock change) where
  scope := widens
  inLoop := inLoop
  pending _ := List.Subset.refl _
  tolerates := id
  quiet _ := rfl
  raises := id

theorem closeCases (cases : Flow.Cases) : Eases source cases.walk cases.close := by
  unfold Flow.Cases.close
  exact .mapBlock (Block.widens_merge _ _ _) rfl

theorem closeTry (tried : Block) (catches : Flow.Catches) :
    Eases source catches.walk (Flow.closeTry tried catches) := by
  unfold Flow.closeTry
  exact .mapBlock (Block.widens_merge _ _ _) rfl

theorem closeFinally (finished : Block) (walk : Walk) :
    Eases source walk (Flow.closeFinally finished walk) := by
  unfold Flow.closeFinally
  exact .mapBlock (.foldl (fun scope _ => .add scope ..) _ _) rfl

theorem mergeOptional (walk : Walk) (branch : Block) :
    Eases source walk (walk.mapBlock (·.mergeOptional branch)) :=
  .mapBlock (Block.widens_mergeOptional ..) rfl

end Eases

namespace Sees

variable {source : Source} {visits : List Visit} {first second : Walk}

/-- The markers of tests are retracted. -/
theorem dropMarkers (sees : Sees source visits first second) {markers : List String}
    (marked : ∀ {name}, Keeping visits name → name ∉ markers) :
    Sees source visits first (second.dropMarkers markers) := by
  have found {name : String} (keeping : Keeping visits name) :=
    second.get?_dropMarkers (marked keeping)
  obtain ⟨scope, equal⟩ := second.dropMarkers_eq markers
  have implicit {name : String} (keeping : Keeping visits name)
      (implicit : (second.dropMarkers markers).scope.hasImplicit name = true) :
      second.scope.hasImplicit name = true := by
    unfold Scope.hasImplicit at *
    rwa [found keeping] at implicit
  have keeps {name : String} (keeping : Keeping visits name)
      (has : second.scope.mayHave name = true) :
      (second.dropMarkers markers).scope.mayHave name = true := by
    unfold Scope.mayHave at *
    rwa [found keeping]
  rw [equal] at implicit keeps ⊢
  exact
    { inLoop := sees.inLoop
      tolerates := sees.tolerates
      quiet := sees.quiet
      pending := sees.pending
      implicit := fun keeping found => sees.implicit keeping (implicit keeping found)
      keeps := fun keeping known =>
        (sees.keeps keeping known).imp_right (Or.imp_right (keeps keeping))
      raises := sees.raises }

end Sees

/-- The two branches of a conditional expression; neither follows the other. -/
theorem Gathers.ternary {source : Source} {test yes no : List Visit} {walk yesAfter noAfter : Walk}
    {guard : Guard} (weighs : Weighs source test (.start walk []) guard)
    (walkedYes : Gathers source yes guard.walk yesAfter)
    (walkedNo : Gathers source no
      { yesAfter with block := (guard.split walk.block).no } noAfter) :
    Gathers source (Visits.chain test (yes ++ no)) walk
      (Flow.closeTernary walk.scope yesAfter.block noAfter.block guard.markers
        { noAfter with block := (guard.split walk.block).walk.block }) := by
  let split := guard.split walk.block
  let around : Walk := { noAfter with block := split.walk.block }
  let settle (branch : Block) : Block :=
    { branch.restoreImplicit walk.scope with exits := .none }
  let joined := around.mapBlock (·.merge [settle yesAfter.block, settle noAfter.block] 2)
  have relabels := Relabels.after test
  have entered : Sees source test walk split.walk := weighs.outer.toSees
  have afterYes : Sees source (test ++ yes.map (Visit.after test)) walk
      { yesAfter with block := split.walk.block } :=
    entered.branch (walkedYes.toSees.relabel relabels) (weighs.walk.inLoop ▸ ·)
      fun keeping known => weighs.yes keeping (.inl known)
  have knownInNo {name : String} (keeping : Keeping test name)
      (known : walk.Knows name ∨ Gained test name) :
      Walk.Knows { yesAfter with block := split.no } name :=
    (weighs.no keeping List.not_mem_nil known).imp_right (Or.imp_left walkedYes.tolerates)
  have afterNo : Sees source (test ++ yes.map (Visit.after test) ++ no.map (Visit.after test)) walk
      around :=
    afterYes.branch (walkedNo.toSees.relabel relabels) (weighs.inLoop ▸ ·)
      fun keeping known => knownInNo keeping.left (.inl known)
  have visits : Visits.chain test (yes ++ no) =
      test ++ yes.map (Visit.after test) ++ no.map (Visit.after test) := by
    simp [Visits.chain]
  have merged : Sees source (Visits.chain test (yes ++ no)) walk joined := by
    rw [visits]
    exact afterNo.then_eases (.mapBlock (Block.widens_merge ..) rfl)
  have unmarked {name : String} (keeping : Keeping (Visits.chain test (yes ++ no)) name) :
      name ∉ guard.markers := fun marked =>
    absurd (weighs.markers keeping.left marked) List.not_mem_nil
  have keepingYes {name : String} (keeping : Keeping (Visits.chain test (yes ++ no)) name) :
      Keeping yes name := (relabels.keeping keeping.right).left
  have keepingNo {name : String} (keeping : Keeping (Visits.chain test (yes ++ no)) name) :
      Keeping no name := (relabels.keeping keeping.right).right
  -- what is known in the end of a branch is known after the join
  have joins {name : String} {branch : Block} (member : settle branch ∈
      [settle yesAfter.block, settle noAfter.block]) (has : branch.scope.mayHave name = true) :
      joined.scope.mayHave name = true :=
    Block.mayHave_merge member rfl (Block.mayHave_restoreImplicit has) 2
  have settled {name : String} (keeping : Keeping (Visits.chain test (yes ++ no)) name)
      (known : joined.Knows name) : (joined.dropMarkers guard.markers).Knows name := by
    have found := joined.get?_dropMarkers (unmarked keeping)
    obtain ⟨scope, equal⟩ := joined.dropMarkers_eq guard.markers
    refine known.imp_right (Or.imp (fun tolerates => ?_) fun has => ?_)
    · rw [equal]
      exact tolerates
    · unfold Scope.mayHave at *
      rwa [found]
  have raised {name : String} {span : Span}
      (raised : (joined.dropMarkers guard.markers).Raised source name span) :
      noAfter.Raised source name span := by
    obtain ⟨scope, equal⟩ := joined.dropMarkers_eq guard.markers
    rw [equal] at raised
    exact raised
  refine { toSees := merged.dropMarkers unmarked, gains := ?_, first := ?_ }
  · intro name keeping gained
    refine settled keeping ?_
    obtain ⟨visit, member, rfl, gains⟩ := gained
    rcases List.mem_append.mp member with member | member
    · have known := weighs.outer.gains keeping.left ⟨visit, member, rfl, gains⟩
      exact known.imp_right (Or.imp (fun tolerates => walkedNo.tolerates (walkedYes.tolerates
        tolerates)) (Block.widens_merge ..).mayHave)
    · obtain ⟨old, present, rfl⟩ := List.mem_map.mp member
      rcases List.mem_append.mp present with member | member
      · have known := walkedYes.gains (keepingYes keeping) ⟨old, member, rfl, gains⟩
        exact known.imp_right (Or.imp walkedNo.tolerates (joins (by simp)))
      · have known := walkedNo.gains (keepingNo keeping) ⟨old, member, rfl, gains⟩
        exact known.imp_right (Or.imp_right (joins (by simp)))
  · intro name span found
    -- a report in a branch: what the test gained was known there
    have inBranch {branch : List Visit} {start : Walk} {visit : Visit}
        (included : ∀ visit ∈ branch, visit ∈ yes ++ no)
        (known : Keeping test name → walk.Knows name ∨ Gained test name → start.Knows name)
        (member : visit ∈ branch) (place : visit.At source name span)
        (cause : visit.use = .nested ∨ visit.use = .used ∧
          (Keeping branch name → ¬ start.Knows name ∧ name ∉ visit.known)) :
        ∃ visit ∈ Visits.chain test (yes ++ no), visit.At source name span ∧
          (visit.use = .nested ∨ visit.use = .used ∧
            (Keeping (Visits.chain test (yes ++ no)) name →
              ¬ walk.Knows name ∧ name ∉ visit.known)) := by
      refine ⟨visit.after test, List.mem_append_right _
        (List.mem_map_of_mem (included visit member)), place, cause.imp_right ?_⟩
      rintro ⟨used, unknown⟩
      refine ⟨used, fun keeping => ?_⟩
      have kept := relabels.keeping keeping.right
      obtain ⟨unknownNext, missing⟩ :=
        unknown fun visit member => kept visit (included visit member)
      refine ⟨fun before => unknownNext (known keeping.left (.inl before)), fun gained => ?_⟩
      rcases List.mem_append.mp gained with gained | gained
      · obtain ⟨other, member, named⟩ := List.mem_map.mp gained
        obtain ⟨member, gains⟩ := List.mem_filter.mp member
        exact unknownNext (known keeping.left (.inr ⟨other, member, named, gains⟩))
      · exact missing gained
    rcases walkedNo.first (raised found) with found | ⟨visit, member, place, cause⟩
    · rcases walkedYes.first found with found | ⟨visit, member, place, cause⟩
      · rcases weighs.outer.first found with found | ⟨visit, member, place, cause⟩
        · exact .inl found
        · exact .inr ⟨visit, List.mem_append_left _ member, place, cause.imp_right
            (And.imp_right fun unknown keeping => unknown keeping.left)⟩
      · exact .inr (inBranch (fun _ => List.mem_append_left _)
          (fun keeping => weighs.yes keeping) member place cause)
    · exact .inr (inBranch (fun _ => List.mem_append_right _) knownInNo member place cause)

/-! ### The branches of an `if` -/

/-- The walk over the branches so far of a statement that began with `start`. -/
structure Chained (source : Source) (visits : List Visit) (start : Walk) (chain : Flow.Chain) :
    Prop where
  walk : Sees source visits start chain.walk
  /-- What was known before the statement is known where all tests so far are false. -/
  no : ∀ {name}, Keeping visits name → start.Knows name →
    Walk.Knows { chain.walk with block := chain.no } name
  implicit : ∀ {name}, Keeping visits name → chain.no.scope.hasImplicit name = true →
    start.scope.hasImplicit name = true
  inLoop : chain.no.insideLoop = start.block.insideLoop
  markers : ∀ {name}, Keeping visits name → name ∉ chain.markers

namespace Chained

variable {source : Source} {visits others : List Visit} {start : Walk} {chain : Flow.Chain}

/-- The first test of the statement. -/
theorem first {guard : Guard} (weighs : Weighs source visits (.start start []) guard)
    (branches : List Block) (links : Nat) :
    Chained source visits start
      { walk := (guard.split start.block).walk, branches, links, markers := guard.markers
        no := (guard.split start.block).no } where
  walk := weighs.outer.toSees
  no keeping known := weighs.no keeping List.not_mem_nil (.inl known)
  implicit keeping implicit := weighs.implicit_no keeping implicit
  inLoop := weighs.inLoop
  markers keeping marked := absurd (weighs.markers keeping marked) List.not_mem_nil

/-- A further test, where all tests so far are false. -/
theorem next (chained : Chained source visits start chain) {guard : Guard}
    (weighs : Weighs source others
      (.start { chain.walk with block := chain.no } chain.markers) guard)
    (branches : List Block) (links : Nat) :
    Chained source (visits ++ others) start
      { walk := { guard.walk with block := chain.walk.block }, branches, links
        markers := guard.markers, no := (guard.split chain.no).no } where
  walk := chained.walk.branch weighs.walk.toSees
    (fun outside => chained.walk.inLoop.trans (chained.inLoop.symm.trans outside))
    fun keeping known => chained.no keeping known
  no keeping known := weighs.no keeping.right (chained.markers keeping.left)
    (.inl (chained.no keeping.left known))
  implicit keeping implicit :=
    chained.implicit keeping.left (weighs.implicit_no keeping.right implicit)
  inLoop := weighs.inLoop.trans chained.inLoop
  markers keeping marked :=
    chained.markers keeping.left (weighs.markers keeping.right marked)

/-- A branch that is walked to its end. -/
theorem push (chained : Chained source visits start chain) {block : Block} {inner : Walk}
    (entered : Sees source others { chain.walk with block } inner)
    (inLoop : block.insideLoop = start.block.insideLoop)
    (covers : ∀ {name}, Keeping visits name → start.Knows name →
      Walk.Knows { chain.walk with block } name) (initial : Scope) :
    Chained source (visits ++ others) start
      (chain.push initial inner.block { inner with block := chain.walk.block }) where
  walk := chained.walk.branch entered
    (fun outside => chained.walk.inLoop.trans (inLoop.symm.trans outside)) covers
  no keeping known := (chained.no keeping.left known).imp_right (Or.imp_left entered.tolerates)
  implicit keeping := chained.implicit keeping.left
  inLoop := chained.inLoop
  markers keeping := chained.markers keeping.left

theorem close (chained : Chained source visits start chain) (continuesInFalse : Bool) :
    Sees source visits start (chain.close continuesInFalse) := by
  unfold Flow.Chain.close
  dsimp only
  refine Sees.dropMarkers (.then_eases ?_ (.mapBlock ?_ rfl)) chained.markers
  · split
    · exact
        { inLoop := chained.inLoop
          tolerates := chained.walk.tolerates
          quiet := chained.walk.quiet
          pending := chained.walk.pending
          implicit := chained.implicit
          keeps := chained.no
          raises := chained.walk.raises }
    · exact chained.walk
  · exact Block.widens_merge (Block.propagate _ _ _) _ _

end Chained

/-! ### Loops -/

/-- The body of a loop, which may not run at all. -/
theorem Sees.loop {source : Source} {visits others : List Visit} {first second : Walk}
    {body : Walk → Walk} (left : Sees source visits first second)
    (entered : Sees source others
      { second with block := { second.block.child with insideLoop := true } }
      (body { second with block := { second.block.child with insideLoop := true } })) :
    Sees source (visits ++ others.map Visit.inBody) first (Flow.loop body second) := by
  have walked := left.branch (entered.inBody rfl) (fun outside => absurd outside.symm (by simp))
    fun keeping known => left.keeps keeping known
  exact walked.then_eases (.mergeOptional _ _)

end PhpAudit
