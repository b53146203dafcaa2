/-
This file is about values that stand for the types of one declaration, as the call of a function stands
for what the function returns. Such a value resolves to what these types resolve to.

The types may lead back to the value, and while the value is expanded it gives nothing. So the types are
resolved with a memo in which the value has the empty set. Where they do not lead back to anything, that
entry is not read, and they are resolved as they are.
-/

import PhpAudit.Proofs.Resolution.LateStatic

namespace PhpAudit.Resolution

/-! ### Single sources -/

theorem join_empty (names : Names) : join names {} = names := by
  rfl

theorem toList_namesOf_singleton (name : String) : (namesOf [name]).toList = [name] := by
  rfl

/-- There is nothing to join to the names of a single source. -/
theorem gather_singleton {Computing : Type → Type} [Monad Computing] [LawfulMonad Computing]
    {Source : Type} (step : Source → Computing Names) (source : Source) :
    gather step [source] = step source := by
  simp only [gather, pure_bind, join_empty, bind_pure]

/-! ### Values that stand for declared types -/

/-- Expanding the value is resolving the types for the class `place`, whatever the resolver is that
does it, if that leaves a name alone. -/
def StandsFor (index : Index) (owner : String) (deferred : TypeValue) (place : String)
    (types : TypeSet) : Prop :=
  ∀ ⦃Computing : Type → Type⦄ [Monad Computing] [LawfulMonad Computing]
    (resolve : String → TypeValue → Computing Names),
    (∀ name, name ≠ TypeName.lateStatic →
      resolve owner (.concrete name) = pure (namesOf [name])) →
    expand index resolve owner deferred = ofSet resolve place types

/-- The value resolves to what the types resolve to for the class `place`. -/
structure ResolvesTo (index : Index) (owner : String) (deferred : TypeValue) (place : String)
    (types : TypeSet) : Prop where
  /-- The types are resolved while the value is expanded. -/
  guarded : resolve index owner (.singleton deferred) =
    (resolveWith index place types [((deferred, owner), {})]).1
  /-- If their calls form a finite tree, they are resolved like any other types. -/
  plainly : (∃ fuel names, plainSet? index fuel place types = some names) →
    resolve index owner (.singleton deferred) = resolve index place types

section

variable {index : Index} {owner place : String} {deferred : TypeValue} {types : TypeSet}

theorem bindStatic_namesOf {name : String} (unmarked : name ≠ TypeName.lateStatic) :
    bindStatic owner (namesOf [name]) = namesOf [name] := by
  have missing : (namesOf [name]).contains TypeName.lateStatic ≠ true := fun contained =>
    unmarked (List.mem_singleton.mp
      (mem_namesOf.mp (Std.TreeSet.contains_iff_mem.mp contained))).symm
  rw [bindStatic, if_neg missing]

theorem value_concrete {name : String} (steps : Nat) (unmarked : name ≠ TypeName.lateStatic) :
    value index (steps + 1) owner (.concrete name) = pure (namesOf [name]) := by
  show bindStatic owner <$> (pure (namesOf [name]) : Resolving Names) = _
  rw [map_pure, bindStatic_namesOf unmarked]

theorem plain_concrete {name : String} (fuel : Nat) (unmarked : name ≠ TypeName.lateStatic) :
    plain index (fuel + 1) owner (.concrete name) = pure (namesOf [name]) := by
  show bindStatic owner <$> (pure (namesOf [name]) : Option Names) = _
  rw [map_pure, bindStatic_namesOf unmarked]

/-- To settle and to bind once more changes nothing in the names of a set that was resolved. -/
theorem toSet_resolved {fuel : Nat} {memo next : Memo} {names : Names}
    (bound : place = TypeName.lateStatic → place = owner)
    (runs : run? index fuel place types memo = some (names, next)) :
    toSet (settleEmptyArray (bindStatic owner names)) = toSet names := by
  rw [run?, ofSet, StateT.run_map] at runs
  obtain ⟨⟨joined, last⟩, gathered, same⟩ := Option.map_eq_some_iff.mp runs
  cases same
  have isOwner (listed : TypeName.lateStatic ∈ settleEmptyArray joined) :
      owner = TypeName.lateStatic := by
    have isPlace : place = TypeName.lateStatic :=
      not_ne_iff.mp fun other => lateStatic_notMem_of_run_gather other gathered listed
    exact (bound isPlace).symm.trans isPlace
  have settled : TypeName.emptyArray ∉ bindStatic owner (settleEmptyArray joined) := fun listed =>
    (mem_settleEmptyArray.mp ((mem_bindStatic isOwner).mp listed)).1 rfl
  rw [settleEmptyArray_eq settled]
  exact toSet_congr fun name => mem_bindStatic isOwner

/-- A value that stands for some types resolves to them. -/
theorem StandsFor.resolvesTo (stands : StandsFor index owner deferred place types)
    (isDeferred : deferred.isDeferred = true)
    (bound : place = TypeName.lateStatic → place = owner) :
    ResolvesTo index owner deferred place types where
  guarded := by
    obtain ⟨names, next, ends⟩ := exists_run? index place types [((deferred, owner), {})]
    have expands : (expand index (value index (stepBound index types + 1)) owner deferred).run
        [((deferred, owner), {})] = some (names, next) := by
      rw [stands _ fun name => value_concrete _]
      exact ends _ (Nat.le_succ _)
    have gives : Gives index owner deferred (bindStatic owner names) := by
      refine ⟨stepBound index types + 2, ((deferred, owner), names) :: next, ?_⟩
      rw [run_value, run_remembered_unknown index isDeferred rfl, expands]
      rfl
    rw [gives.resolve_eq, toSet_resolved bound (ends _ le_rfl), resolveWith, ends _ le_rfl]
  plainly := by
    rintro ⟨fuel, names, plainly⟩
    have nothingKnown : AllExact index [] := fun _ _ found => by cases found
    obtain ⟨next, runs, -⟩ := run?_of_plain plainly nothingKnown
    have given : plainSet? index (fuel + 2) owner (.singleton deferred) =
        some (settleEmptyArray (bindStatic owner names)) := by
      have later : ofSet (plain index (fuel + 1)) place types = some names :=
        sequential_refines.ofSet (plain_succ index fuel) place types names plainly
      rw [← stands _ fun name => plain_concrete _] at later
      show settleEmptyArray <$> gather (plain index (fuel + 2) owner) [deferred] = _
      rw [gather_singleton, plain, later]
      rfl
    obtain ⟨last, runsToo, -⟩ := run?_of_plain given nothingKnown
    rw [resolve, resolveWith, runsToo, resolve, resolveWith, runs]
    exact toSet_resolved bound runs

end

/-! ### Calls and elements -/

/-- The types that a function returns, and none if there is no function. -/
def returned (found : Option FunctionInfo) : TypeSet :=
  (found.map (·.types)).getD .empty

/-- The types of the elements of an instance: what the method returns that yields them. -/
def yielded (index : Index) (name : String) : TypeSet :=
  if TypeName.isClass name then
    returned (((accessor? index name).bind (Hierarchy.findMethod? index name)).map (·.info))
  else
    .empty

section

variable {Computing : Type → Type} [Monad Computing] [LawfulMonad Computing] (index : Index)
  (resolve : String → TypeValue → Computing Names)

theorem ofSet_empty (place : String) : ofSet resolve place .empty = pure {} := by
  show settleEmptyArray <$> pure {} = _
  rw [map_pure]
  rfl

/-- Qualified names that are no arrays have the elements of instances. -/
theorem ofElement_of_rooted {name : String} (rooted : Text.startsWith name "\\" = true)
    (isArray : TypeName.isArray name = false) :
    ofElement index resolve name = ofSet resolve name (yielded index name) := by
  have isOther : (name == "mixed" || name == "string") = false := by
    rw [Bool.or_eq_false_iff]
    constructor <;> exact beq_false_of_ne fun same => by
      rw [same] at rooted
      revert rooted
      decide
  rw [ofElement, isArray, if_neg Bool.false_ne_true, isOther, if_neg Bool.false_ne_true, yielded]
  split
  · cases (accessor? index name).bind (Hierarchy.findMethod? index name) with
    | none => exact (ofSet_empty resolve name).symm
    | some found => rfl
  · exact (ofSet_empty resolve name).symm

end

variable {index : Index} {owner : String}

/-- A call stands for the types of the function that is found for it. -/
theorem standsFor_functionCall (called : String) :
    StandsFor index owner (.functionCall called) owner
      (returned (functionOrGlobal? index called)) := by
  intro Computing _ _ resolve _
  simp only [expand]
  cases functionOrGlobal? index called with
  | none => exact (ofSet_empty resolve owner).symm
  | some info => rfl

section

variable {name : String} (rooted : Text.startsWith name "\\" = true)
  (isArray : TypeName.isArray name = false)

include rooted

theorem ne_lateStatic_of_rooted : name ≠ TypeName.lateStatic := by
  rintro rfl
  revert rooted
  decide

include isArray

theorem standsFor_elementOf :
    StandsFor index owner (.elementOf (.concrete name)) name (yielded index name) := by
  intro Computing _ _ resolve leaves
  rw [expand, leaves name (ne_lateStatic_of_rooted rooted), pure_bind, toList_namesOf_singleton,
    gather_singleton, ofElement_of_rooted index resolve rooted isArray]

/-- Only shapes tell the elements under their keys apart. -/
theorem standsFor_elementAt (isShape : TypeName.isShape name = false) (key : String) :
    StandsFor index owner (.elementAt (.concrete name) key) name (yielded index name) := by
  intro Computing _ _ resolve leaves
  rw [expand, leaves name (ne_lateStatic_of_rooted rooted), pure_bind, toList_namesOf_singleton,
    gather_singleton, ofElementAt, isShape, if_neg Bool.false_ne_true,
    ofElement_of_rooted index resolve rooted isArray]

end

end PhpAudit.Resolution
