/-
This file says exactly what a join of branches makes of a variable. Afterwards it is always defined if
it was before, or if it is in each branch that is counted; and it may be of the types that it had
before, and of those that it has at the ends of the branches that go on. A branch gives back what a
test told about a variable before it is joined, if the variable was known before the branches.
-/

import PhpAudit.Proofs.Flow.Branching
import PhpAudit.Proofs.Types.Members

namespace PhpAudit

/-! ### The types of a variable -/

namespace Scope

/-- The variable may be of the type, as far as the scope tells. -/
def MayBe (scope : Scope) (name : String) (value : TypeValue) : Prop :=
  ∃ info, scope.get? name = some info ∧ value ∈ info.types.members

instance (scope : Scope) (name : String) (value : TypeValue) : Decidable (scope.MayBe name value) :=
  decidable_of_iff ((scope.get? name).any fun info => decide (value ∈ info.types.members)) (by
    unfold MayBe
    simp [Option.any_eq_true])

variable {scope : Scope} {name other : String} {value : TypeValue}

theorem mayBe_congr {after : Scope} (same : after.get? name = scope.get? name) :
    after.MayBe name value ↔ scope.MayBe name value := by
  unfold MayBe
  rw [same]

theorem mayBe_put_self {info : VarInfo} :
    (scope.put name info).MayBe name value ↔ value ∈ info.types.members := by
  unfold MayBe
  rw [get?_put, if_pos rfl]
  simp

theorem mayBe_put_of_ne {info : VarInfo} (different : name ≠ other) :
    (scope.put name info).MayBe other value ↔ scope.MayBe other value :=
  mayBe_congr (by rw [get?_put, if_neg different])

theorem MayBe.mayHave (mayBe : scope.MayBe name value) : scope.mayHave name = true := by
  obtain ⟨info, found, _⟩ := mayBe
  unfold Scope.mayHave
  rw [found]
  rfl

theorem mayBe_add {types : TypeSet} {always : Bool} :
    (scope.add name types always).MayBe other value ↔
      scope.MayBe other value ∨ name = other ∧ value ∈ types.members := by
  by_cases equal : name = other
  · subst equal
    unfold add
    split
    · next info found =>
      rw [mayBe_put_self]
      simp [MayBe, found, TypeSet.mem_union]
    · next missing =>
      rw [mayBe_put_self]
      simp [MayBe, missing]
  · unfold add
    split <;> simp [mayBe_put_of_ne equal, equal]

section

variable {Item : Type} (types : Item → TypeSet) (always : Item → Bool)
  (entries : List (String × Item)) (scope : Scope)

/-- The types that a variable may have after some were added. -/
theorem mayBe_foldl_add :
    (entries.foldl (fun scope entry => scope.add entry.1 (types entry.2) (always entry.2))
        scope).MayBe name value ↔
      scope.MayBe name value ∨ ∃ item, (name, item) ∈ entries ∧ value ∈ (types item).members := by
  induction entries generalizing scope with
  | nil => simp
  | cons entry rest inductionHypothesis =>
    obtain ⟨other, item⟩ := entry
    rw [List.foldl_cons, inductionHypothesis, mayBe_add]
    simp only [List.mem_cons, Prod.mk.injEq]
    grind

/-- A variable is defined after some were added if it was, or if one entry defines it. -/
theorem has_foldl_add :
    (entries.foldl (fun scope entry => scope.add entry.1 (types entry.2) (always entry.2))
        scope).has name = true ↔
      scope.has name = true ∨ ∃ item, (name, item) ∈ entries ∧ always item = true := by
  induction entries generalizing scope with
  | nil => simp
  | cons entry rest inductionHypothesis =>
    obtain ⟨other, item⟩ := entry
    rw [List.foldl_cons, inductionHypothesis, has_add]
    simp only [List.mem_cons, Prod.mk.injEq, Bool.or_eq_true, Bool.and_eq_true, beq_iff_eq]
    grind

end

end Scope

/-! ### Joins -/

namespace Block

variable {branches : List Block} {name : String} {value : TypeValue}

theorem mem_types_joinVar {joined : Std.TreeMap String Joined} {other : String} {info : VarInfo} :
    value ∈ ((joinVar joined other info).getD name {}).types.members ↔
      value ∈ (joined.getD name {}).types.members ∨ other = name ∧ value ∈ info.types.members := by
  unfold joinVar
  rw [Std.TreeMap.getD_insert]
  by_cases equal : other = name
  · subst equal
    simp [TypeSet.mem_append]
  · simp [equal]

theorem mem_types_foldl_joinVar {entries : List (String × VarInfo)}
    {joined : Std.TreeMap String Joined} :
    value ∈ ((entries.foldl (fun joined (name, info) => joinVar joined name info) joined).getD
        name {}).types.members ↔
      value ∈ (joined.getD name {}).types.members ∨
        ∃ info, (name, info) ∈ entries ∧ value ∈ info.types.members := by
  induction entries generalizing joined with
  | nil => simp
  | cons entry rest inductionHypothesis =>
    obtain ⟨other, info⟩ := entry
    rw [List.foldl_cons, inductionHypothesis, mem_types_joinVar]
    simp only [List.mem_cons, Prod.mk.injEq]
    grind

/-- The types collected for a variable are those at the ends of the branches that go on. -/
theorem mem_types_joinBranches :
    value ∈ ((joinBranches branches).getD name {}).types.members ↔
      ∃ branch ∈ ongoing branches, branch.scope.MayBe name value := by
  have collected (branches : List Block) (joined : Std.TreeMap String Joined) :
      value ∈ ((branches.foldl (fun joined branch => branch.scope.entries.foldl
          (fun joined (name, info) => joinVar joined name info) joined) joined).getD
          name {}).types.members ↔
        value ∈ (joined.getD name {}).types.members ∨
          ∃ branch ∈ branches, branch.scope.MayBe name value := by
    induction branches generalizing joined with
    | nil => simp
    | cons branch rest inductionHypothesis =>
      rw [List.foldl_cons, inductionHypothesis, mem_types_foldl_joinVar]
      simp only [List.exists_mem_cons_iff, Scope.MayBe, Scope.mem_entries, or_assoc]
  unfold joinBranches
  rw [← ongoing, collected]
  simp [TypeSet.empty]

/-- What is collected for a variable. -/
theorem mem_toList_joinBranches {joined : Joined} :
    (name, joined) ∈ (joinBranches branches).toList ↔
      name ∈ joinBranches branches ∧ (joinBranches branches).getD name {} = joined := by
  rw [Std.TreeMap.mem_toList_iff_getElem?_eq_some, Std.TreeMap.getD_eq_getD_getElem?,
    ← Std.TreeMap.isSome_getElem?_iff_mem]
  cases (joinBranches branches)[name]? <;> simp

theorem mem_joinBranches_of_ongoing {branch : Block} (member : branch ∈ ongoing branches)
    (has : branch.scope.mayHave name = true) : name ∈ joinBranches branches := by
  obtain ⟨member, continues⟩ := List.mem_filter.mp member
  exact mem_joinBranches member continues has

/-- The types after a join are those before it, and those at the ends of the branches that go on. -/
theorem mayBe_merge {block : Block} {links : Nat} :
    (block.merge branches links).scope.MayBe name value ↔
      block.scope.MayBe name value ∨ ∃ branch ∈ ongoing branches, branch.scope.MayBe name value := by
  refine (Scope.mayBe_foldl_add Joined.types
    (fun joined => 0 < links && joined.defined == links) (joinBranches branches).toList
    block.scope).trans (or_congr_right ⟨?_, fun mayBe => ?_⟩)
  · rintro ⟨joined, member, listed⟩
    obtain ⟨_, rfl⟩ := mem_toList_joinBranches.mp member
    exact mem_types_joinBranches.mp listed
  · have listed := mem_types_joinBranches.mpr mayBe
    obtain ⟨branch, member, mayBe⟩ := mayBe
    exact ⟨_, mem_toList_joinBranches.mpr
      ⟨mem_joinBranches_of_ongoing member mayBe.mayHave, rfl⟩, listed⟩

/-- A variable is defined after a join if it was before, or if every path is a branch with it. -/
theorem has_merge {block : Block} {links : Nat} :
    (block.merge branches links).scope.has name = true ↔
      block.scope.has name = true ∨
        0 < links ∧ (ongoing branches).countP (·.scope.has name) = links := by
  refine ⟨of_has_merge, fun defined => (Scope.has_foldl_add Joined.types
    (fun joined => 0 < links && joined.defined == links) (joinBranches branches).toList
    block.scope).mpr (defined.imp_right ?_)⟩
  rintro ⟨positive, counted⟩
  obtain ⟨branch, member, has⟩ := List.countP_pos_iff.mp (counted ▸ positive)
  refine ⟨_, mem_toList_joinBranches.mpr
    ⟨mem_joinBranches_of_ongoing member (Scope.mayHave_of_has has), rfl⟩, ?_⟩
  rw [defined_joinBranches, counted, beq_self_eq_true, Bool.and_true]
  exact decide_eq_true positive

/-- The join of branches of which at least one goes on, and no other path does. -/
theorem has_merge_ongoing {block : Block} (survives : ongoing branches ≠ []) :
    (block.merge branches (ongoing branches).length).scope.has name = true ↔
      block.scope.has name = true ∨ ∀ branch ∈ ongoing branches, branch.scope.has name = true := by
  rw [has_merge, List.countP_eq_length]
  exact or_congr_right (and_iff_right (List.length_pos_iff.mpr survives))

/-! ### Variables that a test told about -/

/-- A variable that the branch only narrowed, and that was known before, is as it was before. Other
variables are as at the end of the branch. -/
theorem get?_restoreImplicit (initial : Scope) (block : Block) (name : String) :
    (block.restoreImplicit initial).scope.get? name =
      if block.scope.hasImplicit name && initial.mayHave name then initial.get? name
      else block.scope.get? name := by
  have restoredOne (scope : Scope) (other : String) (info : VarInfo) :
      (if info.implicit then (initial.get? other).elim scope (scope.put other)
        else scope).get? name =
        if (other == name && info.implicit) && initial.mayHave name then initial.get? name
        else scope.get? name := by
    unfold Scope.mayHave
    by_cases equal : other = name
    · subst equal
      rw [beq_self_eq_true, Bool.true_and]
      cases info.implicit <;> cases before : initial.get? other <;> simp [Scope.get?_put]
    · rw [beq_eq_false_iff_ne.mpr equal]
      cases info.implicit <;> cases initial.get? other <;> simp [Scope.get?_put, equal]
  have restored (entries : List (String × VarInfo)) (scope : Scope) :
      (entries.foldl (fun restored entry =>
          if entry.2.implicit then (initial.get? entry.1).elim restored (restored.put entry.1)
          else restored) scope).get? name =
        if entries.any (fun entry => entry.1 == name && entry.2.implicit) && initial.mayHave name
        then initial.get? name else scope.get? name := by
    induction entries generalizing scope with
    | nil => simp
    | cons entry rest inductionHypothesis =>
      rw [List.foldl_cons, inductionHypothesis, restoredOne, List.any_cons]
      generalize rest.any (fun entry => entry.1 == name && entry.2.implicit) = others
      cases entry.1 == name && entry.2.implicit <;> cases initial.mayHave name <;> cases others <;>
        rfl
  have implicit : block.scope.entries.any (fun entry => entry.1 == name && entry.2.implicit) =
      block.scope.hasImplicit name := by
    rw [Bool.eq_iff_iff, List.any_eq_true]
    unfold Scope.hasImplicit
    rw [Option.any_eq_true]
    constructor
    · rintro ⟨⟨other, info⟩, member, found⟩
      rw [Bool.and_eq_true, beq_iff_eq] at found
      obtain ⟨rfl, introduced⟩ := found
      exact ⟨info, (block.scope.mem_entries _).mp member, introduced⟩
    · rintro ⟨info, found, introduced⟩
      exact ⟨(name, info), (block.scope.mem_entries name).mpr found, by simp [introduced]⟩
  have stepwise : (block.restoreImplicit initial).scope =
      block.scope.entries.foldl (fun restored entry =>
        if entry.2.implicit then (initial.get? entry.1).elim restored (restored.put entry.1)
        else restored) block.scope := by
    unfold restoreImplicit mapScope
    dsimp only
    congr 1
    funext restored entry
    cases initial.get? entry.1 <;> rfl
  rw [← implicit, stepwise]
  exact restored block.scope.entries block.scope

end Block

/-! ### Markers of tests -/

theorem Guard.markers_mapWalk (guard : Guard) (steps : Walk → Walk) :
    (guard.mapWalk steps).markers = guard.markers := rfl

theorem Guard.otherwise_mapWalk (guard : Guard) (steps : Walk → Walk) :
    (guard.mapWalk steps).otherwise = guard.otherwise := rfl

theorem Guard.markers_narrowTo (guard : Guard) (naming : Naming) (subject : Expr) (ref : ClassRef)
    (negated inLogic : Bool) :
    (guard.narrowTo naming subject ref negated inLogic).markers = guard.markers := by
  unfold narrowTo
  split
  · unfold narrow
    dsimp only
    split <;> rfl
  · rfl

/-- What is left of a variable without the marker, if some other type is. -/
def VarInfo.retract (name : String) (info : VarInfo) : Option VarInfo :=
  let kept := info.types.filter fun value => !value.isNamed (issetMarker name)
  if kept.isEmpty then none else some { info with types := kept }

/-- A marker that is retracted twice is gone the first time. -/
theorem VarInfo.retract_retract (name : String) (info : VarInfo) :
    (info.retract name).bind (retract name) = info.retract name := by
  have filtered (set : TypeSet) (keep : TypeValue → Bool) :
      (set.filter keep).filter keep = set.filter keep := by
    simp [TypeSet.filter]
  cases retracted : info.retract name with
  | none => rfl
  | some left =>
    unfold retract at retracted
    dsimp only at retracted
    split at retracted
    · cases retracted
    · next some =>
      obtain rfl := Option.some.inj retracted
      rw [Option.bind_some]
      unfold retract
      dsimp only
      rw [filtered, if_neg some]

/-- The marker is the one type that is retracted. -/
theorem VarInfo.mem_retract {name : String} {info : VarInfo} {value : TypeValue} :
    (∃ left, info.retract name = some left ∧ value ∈ left.types.members) ↔
      value ∈ info.types.members ∧ value ≠ .concrete (issetMarker name) := by
  have kept : value ∈ (info.types.filter fun value => !value.isNamed (issetMarker name)).members ↔
      value ∈ info.types.members ∧ value ≠ .concrete (issetMarker name) := by
    rw [TypeSet.mem_filter, Bool.not_eq_true', Bool.eq_false_iff, ne_eq, TypeValue.isNamed_iff]
  rw [← kept]
  unfold retract
  dsimp only
  split
  · next none =>
    refine iff_of_false (by simp) fun member => ?_
    rw [TypeSet.isEmpty_eq_false member] at none
    cases none
  · simp

namespace Walk

variable {markers : List String} {name : String}

theorem get?_dropMarkers_of_mem (member : name ∈ markers) (walk : Walk) :
    (walk.dropMarkers markers).scope.get? name =
      (walk.scope.get? name).bind (VarInfo.retract name) := by
  have droppedOne (walk : Walk) : (walk.dropMarkers [name]).scope.get? name =
      (walk.scope.get? name).bind (VarInfo.retract name) := by
    unfold dropMarkers VarInfo.retract
    rw [List.foldl_cons, List.foldl_nil]
    cases found : walk.scope.get? name with
    | none => exact found
    | some info =>
      dsimp only [mapScope, mapBlock, scope, Block.mapScope, Option.bind_some]
      split
      · exact Std.TreeMap.getElem?_erase_self
      · rw [Scope.get?_put, if_pos rfl]
  induction markers generalizing walk with
  | nil => cases member
  | cons marker rest inductionHypothesis =>
    show ((walk.dropMarkers [marker]).dropMarkers rest).scope.get? name = _
    by_cases later : name ∈ rest
    · rw [inductionHypothesis later]
      by_cases equal : marker = name
      · rw [equal, droppedOne, Option.bind_assoc]
        congr 1
        exact funext (VarInfo.retract_retract name)
      · rw [get?_dropMarkers (by simpa using Ne.symm equal)]
    · obtain rfl := (List.mem_cons.mp member).resolve_right later
      rw [get?_dropMarkers later, droppedOne]

/-- The types that a variable may have after markers were retracted. -/
theorem mayBe_dropMarkers {walk : Walk} {value : TypeValue} :
    (walk.dropMarkers markers).scope.MayBe name value ↔
      walk.scope.MayBe name value ∧ (name ∈ markers → value ≠ .concrete (issetMarker name)) := by
  by_cases member : name ∈ markers
  · unfold Scope.MayBe
    rw [get?_dropMarkers_of_mem member]
    cases walk.scope.get? name with
    | none => simp
    | some info => simpa [member] using VarInfo.mem_retract
  · rw [Scope.mayBe_congr (walk.get?_dropMarkers member)]
    exact (and_iff_left fun listed => absurd listed member).symm

end Walk

end PhpAudit
