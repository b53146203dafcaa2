/-
This file follows what a scope knows of one variable. A variable that is read where no path defines
it is reported, and from then on counts as defined so that it is reported once; its type tells that
this was the reason. A scope holds a variable if it has it for another reason. The changes of a scope
are looked at backwards: where the variable is held afterwards, it was held before, or the change
gave it.
-/

import PhpAudit.Proofs.Flow.Joining

namespace PhpAudit

/-! ### Reported variables -/

namespace TypeSet

variable {set other : TypeSet} {name : String}

theorem containsName_iff : set.containsName name = true ↔ .concrete name ∈ set.members := by
  unfold containsName
  rw [List.any_eq_true]
  constructor
  · rintro ⟨value, member, named⟩
    cases value <;> simp_all [TypeValue.isNamed, TypeValue.name?]
  · intro member
    exact ⟨_, member, by simp [TypeValue.isNamed, TypeValue.name?]⟩

theorem containsName_append :
    (set.append other).containsName name = (set.containsName name || other.containsName name) := by
  rw [Bool.eq_iff_iff, Bool.or_eq_true]
  simp only [containsName_iff]
  unfold append
  split
  · next empty => simp [List.isEmpty_iff.mp empty]
  · split
    · next empty => simp [List.isEmpty_iff.mp empty]
    · exact TypeValue.mem_insertAll

theorem containsName_union :
    (set.union other).containsName name = (set.containsName name || other.containsName name) :=
  containsName_append

theorem containsName_of_filter {keep : TypeValue → Bool} (kept : keep (.concrete name) = true)
    (found : set.containsName name = true) : (set.filter keep).containsName name = true := by
  rw [containsName_iff] at *
  exact List.mem_filter.mpr ⟨found, kept⟩

end TypeSet

/-- What is known of the variable does not stem from a report that it is undefined. -/
def VarInfo.genuine (info : VarInfo) : Bool :=
  !info.types.containsName TypeName.undefined

namespace Scope

/-- The scope has the variable, on every path or on some, and not because it was reported. -/
def Holds (always : Bool) (scope : Scope) (name : String) : Prop :=
  ∃ info, scope.get? name = some info ∧ (always = true → info.always = true) ∧ info.genuine = true

variable {scope : Scope} {name other : String} {always : Bool}

instance : Decidable (scope.Holds always name) :=
  decidable_of_iff
    ((scope.get? name).any fun info => (!always || info.always) && info.genuine) (by
      cases always <;> simp [Holds, Option.any_eq_true])

theorem Holds.mayHave (holds : scope.Holds always name) : scope.mayHave name = true := by
  obtain ⟨info, found, _⟩ := holds
  simp [Scope.mayHave, found]

/-! ### Changes of a scope -/

theorem of_holds_put_of_ne {info : VarInfo} (different : other ≠ name)
    (holds : (scope.put other info).Holds always name) : scope.Holds always name := by
  obtain ⟨found, equal, reasons⟩ := holds
  rw [get?_put, if_neg different] at equal
  exact ⟨found, equal, reasons⟩

theorem of_holds_put {info : VarInfo} (holds : (scope.put name info).Holds always name) :
    (always = true → info.always = true) ∧ info.genuine = true := by
  obtain ⟨found, equal, reasons⟩ := holds
  rw [get?_put, if_pos rfl, Option.some.injEq] at equal
  rwa [equal]

/-- A variable is added with types that tell of no report. -/
theorem of_holds_add {types : TypeSet} {flag : Bool}
    (holds : (scope.add other types flag).Holds always name) :
    scope.Holds always name ∨ other = name ∧ (always = true → flag = true) ∧
      types.containsName TypeName.undefined = false := by
  by_cases equal : other = name
  · subst equal
    unfold add at holds
    split at holds
    · next info found =>
      obtain ⟨kept, genuine⟩ := of_holds_put holds
      unfold VarInfo.genuine at genuine
      rw [TypeSet.containsName_union] at genuine
      simp only [Bool.not_or, Bool.and_eq_true, Bool.not_eq_true', Bool.or_eq_true] at genuine kept
      by_cases before : always = true → info.always = true
      · exact .inl ⟨info, found, before, by simp [VarInfo.genuine, genuine.1]⟩
      · rw [Classical.not_imp] at before
        exact .inr ⟨rfl, fun _ => (kept before.1).resolve_left before.2, genuine.2⟩
    · obtain ⟨kept, genuine⟩ := of_holds_put holds
      exact .inr ⟨rfl, kept, by simpa [VarInfo.genuine] using genuine⟩
  · left
    unfold add at holds
    split at holds <;> exact of_holds_put_of_ne equal holds

theorem of_holds_assign {types : TypeSet} {flag : Bool}
    (holds : (scope.assign other types flag).Holds always name) :
    other = name ∨ scope.Holds always name := by
  by_cases equal : other = name
  · exact .inl equal
  · right
    unfold assign at holds
    split at holds
    · split at holds <;> exact of_holds_put_of_ne equal holds
    · exact of_holds_put_of_ne equal holds

theorem of_holds_erase (holds : (scope.erase other).Holds always name) :
    scope.Holds always name := by
  obtain ⟨info, found, reasons⟩ := holds
  unfold get? erase at found
  rw [Std.TreeMap.getElem?_erase] at found
  split at found
  · cases found
  · exact ⟨info, found, reasons⟩

theorem of_holds_update {change : VarInfo → VarInfo} (different : other ≠ name)
    (holds : (scope.update other change).Holds always name) : scope.Holds always name := by
  unfold update at holds
  split at holds
  · exact of_holds_put_of_ne different holds
  · exact holds

/-- Changes made one after the other give only what one of them gives. -/
theorem of_holds_foldl {Item : Type} {change : Scope → Item → Scope} {items : List Item}
    {scope : Scope} (cause : Prop)
    (step : ∀ (scope : Scope), ∀ item ∈ items,
      (change scope item).Holds always name → scope.Holds always name ∨ cause)
    (holds : (items.foldl change scope).Holds always name) :
    scope.Holds always name ∨ cause := by
  induction items generalizing scope with
  | nil => exact .inl holds
  | cons item rest inductionHypothesis =>
    rcases inductionHypothesis (fun scope item member => step scope item (.tail _ member))
      holds with holds | caused
    · exact step scope item (.head _) holds
    · exact .inr caused

end Scope

/-! ### Joining branches -/

namespace Block

variable {name : String} {always : Bool}

theorem of_mem_foldl_joinVar {entries : List (String × VarInfo)}
    {joined : Std.TreeMap String Joined}
    (found : name ∈ entries.foldl (fun joined (name, info) => joinVar joined name info) joined) :
    name ∈ joined ∨ ∃ info, (name, info) ∈ entries := by
  induction entries generalizing joined with
  | nil => exact .inl found
  | cons entry rest inductionHypothesis =>
    obtain ⟨other, info⟩ := entry
    rcases inductionHypothesis found with found | ⟨info, member⟩
    · unfold joinVar at found
      rw [Std.TreeMap.mem_insert] at found
      refine found.symm.imp_right fun equal => ⟨info, ?_⟩
      obtain rfl : other = name := by simpa using equal
      exact .head _
    · exact .inr ⟨info, .tail _ member⟩

/-- A variable that a join counts is known to some branch that goes on. -/
theorem of_mem_joinBranches {branches : List Block} (found : name ∈ joinBranches branches) :
    ∃ branch ∈ ongoing branches, branch.scope.mayHave name = true := by
  have collected (branches : List Block) (joined : Std.TreeMap String Joined)
      (found : name ∈ branches.foldl (fun joined branch => branch.scope.entries.foldl
        (fun joined (name, info) => joinVar joined name info) joined) joined) :
      name ∈ joined ∨ ∃ branch ∈ branches, branch.scope.mayHave name = true := by
    induction branches generalizing joined with
    | nil => exact .inl found
    | cons branch rest inductionHypothesis =>
      rcases inductionHypothesis _ found with found | ⟨other, member, known⟩
      · refine (of_mem_foldl_joinVar found).imp_right fun known => ⟨branch, .head _, ?_⟩
        obtain ⟨info, member⟩ := known
        simp [Scope.mayHave, (branch.scope.mem_entries name).mp member]
      · exact .inr ⟨other, .tail _ member, known⟩
  exact (collected _ _ found).resolve_left Std.TreeMap.not_mem_emptyc

theorem reported_joinVar (joined : Std.TreeMap String Joined) (name other : String)
    (info : VarInfo) :
    ((joinVar joined name info).getD other {}).types.containsName TypeName.undefined =
      ((joined.getD other {}).types.containsName TypeName.undefined ||
        name == other && !info.genuine) := by
  unfold joinVar VarInfo.genuine
  rw [Std.TreeMap.getD_insert]
  by_cases equal : name = other
  · subst equal
    simp [TypeSet.containsName_append]
  · simp [equal]

theorem reported_foldl_joinVar (entries : List (String × VarInfo))
    (joined : Std.TreeMap String Joined) (name : String) :
    ((entries.foldl (fun joined (name, info) => joinVar joined name info) joined).getD
        name {}).types.containsName TypeName.undefined =
      ((joined.getD name {}).types.containsName TypeName.undefined ||
        entries.any fun entry => entry.1 == name && !entry.2.genuine) := by
  induction entries generalizing joined with
  | nil => simp
  | cons entry rest inductionHypothesis =>
    rw [List.foldl_cons, inductionHypothesis, reported_joinVar, List.any_cons, Bool.or_assoc]

/-- A variable that was reported in a branch that goes on is joined as a reported one. -/
theorem genuine_of_joinBranches {branches : List Block}
    (genuine : ((joinBranches branches).getD name {}).types.containsName TypeName.undefined = false)
    {branch : Block} (member : branch ∈ ongoing branches) {info : VarInfo}
    (found : branch.scope.get? name = some info) : info.genuine = true := by
  have collected (branches : List Block) (joined : Std.TreeMap String Joined) :
      ((branches.foldl (fun joined branch => branch.scope.entries.foldl
          (fun joined (name, info) => joinVar joined name info) joined) joined).getD
          name {}).types.containsName TypeName.undefined =
        ((joined.getD name {}).types.containsName TypeName.undefined ||
          branches.any fun branch => branch.scope.entries.any fun entry =>
            entry.1 == name && !entry.2.genuine) := by
    induction branches generalizing joined with
    | nil => simp
    | cons branch rest inductionHypothesis =>
      rw [List.foldl_cons, inductionHypothesis, reported_foldl_joinVar, List.any_cons,
        Bool.or_assoc]
  unfold joinBranches at genuine
  rw [← ongoing, collected, Bool.or_eq_false_iff, List.any_eq_false] at genuine
  have clean := genuine.2 branch member
  rw [Bool.not_eq_true, List.any_eq_false] at clean
  have own := clean (name, info) ((branch.scope.mem_entries name).mpr found)
  simpa using own

/-- What a join gives is known to branches that go on, and they hold it. -/
theorem of_holds_merge {block : Block} {branches : List Block} {links : Nat}
    (holds : (block.merge branches links).scope.Holds always name) :
    block.scope.Holds always name ∨
      (∃ branch ∈ ongoing branches, branch.scope.mayHave name = true) ∧
      (always = true → 0 < links ∧ (ongoing branches).countP (·.scope.has name) = links) ∧
      ∀ branch ∈ ongoing branches, ∀ info, branch.scope.get? name = some info →
        info.genuine = true := by
  refine Scope.of_holds_foldl _ (fun scope item member holds => ?_) holds
  obtain ⟨other, joined⟩ := item
  rcases Scope.of_holds_add holds with holds | ⟨rfl, flagged, genuine⟩
  · exact .inl holds
  · right
    have found := Std.TreeMap.mem_toList_iff_getElem?_eq_some.mp member
    have equal : (joinBranches branches).getD other {} = joined := by
      rw [Std.TreeMap.getD_eq_getD_getElem?, found]
      rfl
    rw [← equal] at genuine flagged
    refine ⟨of_mem_joinBranches (Std.TreeMap.mem_iff_isSome_getElem?.mpr (by rw [found]; rfl)),
      fun all => ?_, fun branch member info known => genuine_of_joinBranches genuine member known⟩
    have all := flagged all
    simp only [Bool.and_eq_true, decide_eq_true_eq, beq_iff_eq, defined_joinBranches] at all
    exact all

/-- A variable that a join gives is held by some branch that goes on. -/
theorem exists_of_holds_merge {block : Block} {branches : List Block} {links : Nat}
    (holds : (block.merge branches links).scope.Holds always name) :
    block.scope.Holds always name ∨
      ∃ branch ∈ ongoing branches, branch.scope.Holds always name := by
  rcases of_holds_merge holds with holds | ⟨⟨branch, member, known⟩, counted, genuine⟩
  · exact .inl holds
  · right
    cases always with
    | false =>
      obtain ⟨info, found⟩ := Option.isSome_iff_exists.mp known
      exact ⟨branch, member, info, found, by simp, genuine branch member info found⟩
    | true =>
      obtain ⟨positive, count⟩ := counted rfl
      obtain ⟨branch, member, defined⟩ := List.countP_pos_iff.mp
        (show 0 < (ongoing branches).countP (·.scope.has name) by omega)
      obtain ⟨info, found, always⟩ := (branch.scope.has_eq_true name).mp defined
      exact ⟨branch, member, info, found, fun _ => always, genuine branch member info found⟩

/--
If there are at least as many paths as branches that go on, and a join gives a variable on every
path, then each path is such a branch, and each of them holds it.
-/
theorem forall_of_holds_merge {block : Block} {branches : List Block} {links : Nat}
    (enough : (ongoing branches).length ≤ links)
    (holds : (block.merge branches links).scope.Holds true name) :
    block.scope.Holds true name ∨ links = (ongoing branches).length ∧
      ∀ branch ∈ ongoing branches, branch.scope.Holds true name := by
  rcases of_holds_merge holds with holds | ⟨_, counted, genuine⟩
  · exact .inl holds
  · right
    obtain ⟨_, count⟩ := counted rfl
    have atMost : (ongoing branches).countP (·.scope.has name) ≤ (ongoing branches).length :=
      List.countP_le_length
    have each := List.countP_eq_length.mp
      (show (ongoing branches).countP (·.scope.has name) = (ongoing branches).length by omega)
    refine ⟨by omega, fun branch member => ?_⟩
    obtain ⟨info, found, always⟩ := (branch.scope.has_eq_true name).mp (each branch member)
    exact ⟨info, found, fun _ => always, genuine branch member info found⟩

/-- A branch that may not run gives nothing. -/
theorem of_holds_mergeOptional {block branch : Block}
    (holds : (block.mergeOptional branch).scope.Holds true name) : block.scope.Holds true name :=
  (Scope.of_holds_foldl False (fun scope item _ holds =>
    (Scope.of_holds_add holds).imp_right fun added => by simpa using added.2.1) holds).resolve_right
      not_false

theorem of_holds_restoreImplicit {initial : Scope} {block : Block}
    (holds : (block.restoreImplicit initial).scope.Holds always name) :
    block.scope.Holds always name ∨ initial.Holds always name := by
  refine Scope.of_holds_foldl _ (fun scope item _ holds => ?_) holds
  obtain ⟨other, info⟩ := item
  dsimp only at holds
  split at holds
  · split at holds
    · next before found =>
      by_cases equal : other = name
      · subst equal
        exact .inr ⟨before, found, Scope.of_holds_put holds⟩
      · exact .inl (Scope.of_holds_put_of_ne equal holds)
    · exact .inl holds
  · exact .inl holds

end Block

/-! ### Tests -/

/-- Retracting markers gives nothing. -/
theorem Walk.of_holds_dropMarkers {markers : List String} {walk : Walk} {name : String}
    {always : Bool} (holds : (walk.dropMarkers markers).scope.Holds always name) :
    walk.scope.Holds always name := by
  unfold dropMarkers at holds
  induction markers generalizing walk with
  | nil => exact holds
  | cons marker rest inductionHypothesis =>
    have kept := inductionHypothesis holds
    dsimp only at kept
    split at kept
    · exact kept
    · next info found =>
      dsimp only [mapScope, mapBlock, scope, Block.mapScope] at kept
      split at kept
      · exact Scope.of_holds_erase kept
      · by_cases equal : marker = name
        · subst equal
          obtain ⟨defined, genuine⟩ := Scope.of_holds_put kept
          refine ⟨info, found, defined, ?_⟩
          unfold VarInfo.genuine at *
          rw [Bool.not_eq_true'] at *
          refine Bool.eq_false_iff.mpr fun reported => ?_
          rw [TypeSet.containsName_of_filter ?_ reported] at genuine
          · cases genuine
          · have different : issetMarker marker ≠ TypeName.undefined := by
              intro equal
              have first := congrArg (fun text => text.toList.head?) equal
              simp [issetMarker, TypeName.undefined] at first
            simpa [TypeValue.isNamed, TypeValue.name?] using different.symm
        · exact Scope.of_holds_put_of_ne equal kept

namespace Guard

variable {guard : Guard} {name : String} {always : Bool}

/-- A test of other variables gives nothing. -/
theorem of_holds_mark {guarded : Expr} (other : guarded.rootName? ≠ some name)
    (holds : (guard.mark guarded).walk.scope.Holds always name) :
    guard.walk.scope.Holds always name := by
  unfold mark at holds
  split at holds
  · exact holds
  · next marked root =>
    rw [root] at other
    split at holds
    · exact holds
    · exact (Scope.of_holds_add holds).resolve_right fun added => other (congrArg some added.1)

theorem of_holds_narrow {tested : String} {negated inLogic : Bool} {subject : String}
    (other : subject ≠ name) :
    ((guard.narrow subject tested negated inLogic).walk.scope.Holds always name →
      guard.walk.scope.Holds always name) ∧
    ((guard.narrow subject tested negated inLogic).otherwise.scope.Holds always name →
      guard.otherwise.scope.Holds always name) := by
  unfold narrow
  dsimp only
  split
  · exact ⟨Scope.of_holds_update other, Scope.of_holds_update other⟩
  · exact ⟨Scope.of_holds_put_of_ne other, Scope.of_holds_put_of_ne other⟩

/-- What the end of a test adds around it is new to the block and held where the test is true. -/
theorem of_holds_split {block : Block} :
    ((guard.split block).walk.scope.Holds always name → block.scope.Holds always name ∨
      guard.walk.scope.Holds false name ∧ block.scope.mayHave name = false) ∧
    ((guard.split block).no.scope.Holds always name → guard.otherwise.scope.Holds always name ∨
      guard.walk.scope.Holds false name ∧ block.scope.mayHave name = false) := by
  have fresh {scope : Scope} (holds : Scope.Holds always ((guard.walk.block.scope.entries.filter
      fun (name, info) => !(info.implicit || guard.markers.contains name ||
        block.scope.mayHave name)).foldl
          (fun scope (name, info) => scope.add name info.types true) scope) name) :
      scope.Holds always name ∨
        guard.walk.scope.Holds false name ∧ block.scope.mayHave name = false := by
    refine Scope.of_holds_foldl _ (fun scope item member holds => ?_) holds
    obtain ⟨other, info⟩ := item
    refine (Scope.of_holds_add holds).imp_right fun ⟨equal, _, genuine⟩ => ?_
    obtain ⟨member, kept⟩ := List.mem_filter.mp member
    dsimp only at equal kept genuine
    subst equal
    simp only [Bool.not_eq_true', Bool.or_eq_false_iff] at kept
    exact ⟨⟨info, (Scope.mem_entries _ _).mp member, by simp, by simp [VarInfo.genuine, genuine]⟩,
      kept.2⟩
  exact ⟨fresh, fresh⟩

end Guard

end PhpAudit
