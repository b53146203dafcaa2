/-
This file is about methods that return `static`, the class they are called on, or arrays of it. A
static call binds the name to the class it is made on, but only where it stands alone: `static[]` goes
through the call as a name like any other. When its elements are taken later, `static` comes out and is
bound to the class for which they are resolved, whatever the call was made on.

Values may lead to each other in cycles, so the runs here start from any memo that does not have the
call and the values around it.
-/

import PhpAudit.Proofs.Resolution.Wrapping

namespace PhpAudit.Resolution

/-- The name of the arrays of arrays of `name`, with `depth` pairs of brackets. -/
def arrays : Nat → String → String
  | 0, name => name
  | depth + 1, name => TypeName.arrayOf (arrays depth name)

/-- The elements of the elements of a value, taken `depth` times. -/
def elements : Nat → TypeValue → TypeValue
  | 0, value => value
  | depth + 1, value => .elementOf (elements depth value)

/-! ### Runs that are read back -/

section

variable {index : Index} {owner called method : String} {found : FoundMethod} {steps depth : Nat}
  {memo next : Memo} {names : Names}

/-- Joining the names of some sources finds the names of each, and no others. -/
theorem mem_of_run_gather {Source : Type} {step : Source → Resolving Names} {sources : List Source}
    (runs : (gather step sources).run memo = some (names, next)) :
    (∀ source ∈ sources, ∃ before part after, (step source).run before = some (part, after) ∧
      ∀ name ∈ part, name ∈ names) ∧
    ∀ name ∈ names, ∃ source ∈ sources, ∃ before part after,
      (step source).run before = some (part, after) ∧ name ∈ part := by
  induction sources generalizing memo names with
  | nil =>
    cases runs
    simp
  | cons source rest inductionHypothesis =>
    obtain ⟨first, middle, firstRuns, runs⟩ := run_bind_eq_some.mp runs
    obtain ⟨others, last, restRuns, runs⟩ := run_bind_eq_some.mp runs
    cases runs
    obtain ⟨each, only⟩ := inductionHypothesis restRuns
    constructor
    · intro other listed
      rcases List.mem_cons.mp listed with rfl | listed
      · exact ⟨memo, first, middle, firstRuns, fun name given => mem_join.mpr (.inl given)⟩
      · obtain ⟨before, part, after, step, within⟩ := each other listed
        exact ⟨before, part, after, step, fun name given => mem_join.mpr (.inr (within name given))⟩
    · intro name joined
      rcases mem_join.mp joined with given | given
      · exact ⟨source, List.mem_cons_self, memo, first, middle, firstRuns, given⟩
      · obtain ⟨other, listed, step⟩ := only name given
        exact ⟨other, List.mem_cons_of_mem _ listed, step⟩

/-- A static call of a method that is not a trait's resolves the types of the method for the class it
is made on. -/
theorem exists_run_staticCall (declares : Hierarchy.findMethod? index called method = some found)
    (direct : found.viaTrait = none)
    (unknown : memo.lookup (.staticCall called method, owner) = none)
    (runs : (value index steps owner (.staticCall called method)).run memo = some (names, next)) :
    ∃ fewer before joined after,
      (gather (value index fewer called) found.info.types.members).run before =
        some (joined, after) ∧ names = bindStatic owner (settleEmptyArray joined) := by
  obtain ⟨fewer, entry, after, expands, rfl⟩ := exists_run_expand rfl unknown runs
  simp only [expand, declares, direct] at expands
  obtain ⟨settled, last, ofTypes, same⟩ := run_bind_eq_some.mp expands
  cases same
  rw [ofSet, StateT.run_map] at ofTypes
  obtain ⟨⟨joined, ends⟩, gathered, same⟩ := Option.map_eq_some_iff.mp ofTypes
  cases same
  exact ⟨fewer, _, joined, ends, gathered, rfl⟩

/-- The elements of a value are those of the arrays it gives, and there are no others if it gives only
arrays. -/
theorem exists_run_elementOf {inner : TypeValue}
    (unknown : memo.lookup (.elementOf inner, owner) = none)
    (runs : (value index steps owner (.elementOf inner)).run memo = some (names, next)) :
    ∃ fewer given after joined, (value index fewer owner inner).run
        (((.elementOf inner, owner), {}) :: memo) = some (given, after) ∧
      names = bindStatic owner joined ∧ (∀ name, TypeName.arrayOf name ∈ given → name ∈ joined) ∧
      ((∀ name ∈ given, TypeName.isArray name = true) →
        ∀ name ∈ joined, TypeName.arrayOf name ∈ given) := by
  obtain ⟨fewer, joined, after, expands, rfl⟩ := exists_run_expand rfl unknown runs
  obtain ⟨given, middle, innerRuns, gathered⟩ := run_bind_eq_some.mp expands
  obtain ⟨each, only⟩ := mem_of_run_gather gathered
  refine ⟨fewer, given, middle, joined, innerRuns, rfl, fun name listed => ?_,
    fun arrays name listed => ?_⟩
  · obtain ⟨before, part, last, step, within⟩ := each _ (Std.TreeSet.mem_toList.mpr listed)
    rw [ofElement, if_pos (isArray_arrayOf name), element_arrayOf] at step
    cases step
    exact within name (mem_namesOf.mpr (List.mem_singleton.mpr rfl))
  · obtain ⟨array, listed, before, part, last, step, mem⟩ := only name listed
    have among := Std.TreeSet.mem_toList.mp listed
    rw [ofElement, if_pos (arrays array among)] at step
    cases step
    rwa [List.mem_singleton.mp (mem_namesOf.mp mem), arrayOf_element (arrays array among)]

/-! ### Declared names -/

/-- The memo has no entry for the value or its elements, taken up to `depth` times. -/
def Fresh (memo : Memo) (owner : String) (deferred : TypeValue) (depth : Nat) : Prop :=
  ∀ layer ≤ depth, memo.lookup (elements layer deferred, owner) = none

theorem weight_elements (depth : Nat) (deferred : TypeValue) :
    weight (elements depth deferred) = weight deferred + depth := by
  induction depth with
  | zero => rfl
  | succ depth inductionHypothesis => rw [elements, weight, inductionHypothesis, Nat.add_assoc]

theorem Fresh.enter {deferred : TypeValue} (fresh : Fresh memo owner deferred (depth + 1)) :
    Fresh (((elements (depth + 1) deferred, owner), {}) :: memo) owner deferred depth := by
  intro layer within
  rw [List.lookup_cons, beq_false_of_ne]
  · exact fresh layer (Nat.le_succ_of_le within)
  · intro same
    have weights := congrArg weight (Prod.mk.inj same).1
    rw [weight_elements, weight_elements] at weights
    omega

theorem eq_of_run_concrete {declared : String}
    (runs : (value index steps owner (.concrete declared)).run memo = some (names, next)) :
    names = bindStatic owner (namesOf [declared]) := by
  cases steps with
  | zero => cases runs
  | succ steps =>
    cases runs
    rfl

theorem mem_names {types : TypeSet} {name : String} :
    name ∈ types.names ↔ .concrete name ∈ types.members := by
  rw [TypeSet.names, List.mem_filterMap]
  refine ⟨fun ⟨part, listed, same⟩ => ?_, fun listed => ⟨_, listed, rfl⟩⟩
  cases part with
  | concrete other =>
    cases same
    exact listed
  | _ => cases same

/-- Types that are all concrete give their names, `static` among them bound. -/
theorem mem_of_run_gather_concrete {types : TypeSet} {name : String}
    (concrete : ∀ part ∈ types.members, ∃ declared, part = .concrete declared)
    (runs : (gather (value index steps owner) types.members).run memo = some (names, next)) :
    name ∈ names ↔ name ∈ bindStatic owner (namesOf types.names) := by
  obtain ⟨each, only⟩ := mem_of_run_gather runs
  simp only [mem_bindStatic_iff, mem_namesOf, mem_names]
  constructor
  · intro given
    obtain ⟨part, among, before, found, after, step, mem⟩ := only name given
    obtain ⟨declared, rfl⟩ := concrete part among
    rw [eq_of_run_concrete step, mem_bindStatic_iff] at mem
    simp only [mem_namesOf, List.mem_singleton] at mem
    rcases mem with ⟨rfl, unmarked⟩ | ⟨same, named, rfl⟩
    · exact .inl ⟨among, unmarked⟩
    · exact .inr ⟨same, named, among⟩
  · have given (declared : String) (among : .concrete declared ∈ types.members)
        (bound : name ∈ bindStatic owner (namesOf [declared])) : name ∈ names := by
      obtain ⟨before, found, after, step, within⟩ := each _ among
      rw [eq_of_run_concrete step] at within
      exact within name bound
    rintro (⟨among, unmarked⟩ | ⟨same, named, among⟩)
    · exact given name among (mem_bindStatic_iff.mpr (.inl ⟨by simp [mem_namesOf], unmarked⟩))
    · exact given _ among (mem_bindStatic_iff.mpr (.inr ⟨same, named, by simp [mem_namesOf]⟩))

theorem lateStatic_notMem_settleEmptyArray (missing : TypeName.lateStatic ∉ names) :
    TypeName.lateStatic ∉ settleEmptyArray names := by
  intro listed
  rcases (mem_settleEmptyArray.mp listed).2 with given | ⟨isMixed, -⟩
  · exact missing given
  · revert isMixed
    decide

/-- No part of a set leaves `static` alone. -/
theorem lateStatic_notMem_of_run_gather {parts : List TypeValue} (bound : owner ≠ TypeName.lateStatic)
    (runs : (gather (value index steps owner) parts).run memo = some (names, next)) :
    TypeName.lateStatic ∉ settleEmptyArray names := by
  refine lateStatic_notMem_settleEmptyArray fun given => ?_
  obtain ⟨part, -, before, found, after, step, mem⟩ := (mem_of_run_gather runs).2 _ given
  exact bound (eq_of_lateStatic_mem_run step mem)

theorem eq_of_bindStatic {rest : Nat}
    (only : ∀ name ∈ names, name = arrays (rest + 1) TypeName.lateStatic) :
    ∀ name ∈ bindStatic owner names, name = arrays (rest + 1) TypeName.lateStatic := by
  intro name listed
  rw [mem_bindStatic fun isStatic => absurd (only _ isStatic).symm (arrayOf_ne rfl)] at listed
  exact only name listed

section

variable (declares : Hierarchy.findMethod? index called method = some found)
  (direct : found.viaTrait = none)

include declares direct

/-- A declared name reaches the caller, `static` as the class that the method is called on. -/
theorem mem_of_run_staticCall {declared name : String}
    (listed : .concrete declared ∈ found.info.types.members)
    (bound : name ∈ bindStatic called (namesOf [declared])) (settled : name ≠ TypeName.emptyArray)
    (unmarked : name ≠ TypeName.lateStatic)
    (unknown : memo.lookup (.staticCall called method, owner) = none)
    (runs : (value index steps owner (.staticCall called method)).run memo = some (names, next)) :
    name ∈ names := by
  obtain ⟨fewer, before, joined, after, gathered, rfl⟩ :=
    exists_run_staticCall declares direct unknown runs
  obtain ⟨start, part, stop, step, within⟩ := (mem_of_run_gather gathered).1 _ listed
  rw [eq_of_run_concrete step] at within
  exact mem_bindStatic_iff.mpr
    (.inl ⟨mem_settleEmptyArray.mpr ⟨settled, .inl (within name bound)⟩, unmarked⟩)

/-- Arrays of `static` lose one pair of brackets for each time that elements are taken. -/
theorem mem_of_run_elements {rest : Nat}
    (listed : .concrete (arrays (rest + 1 + depth) TypeName.lateStatic) ∈ found.info.types.members)
    (fresh : Fresh memo owner (.staticCall called method) depth)
    (runs : (value index steps owner (elements depth (.staticCall called method))).run memo =
      some (names, next)) : arrays (rest + 1) TypeName.lateStatic ∈ names := by
  induction depth generalizing rest steps memo names next with
  | zero =>
    refine mem_of_run_staticCall declares direct listed ?_ (arrayOf_ne rfl) (arrayOf_ne rfl)
      (fresh 0 le_rfl) runs
    exact mem_bindStatic_iff.mpr
      (.inl ⟨mem_namesOf.mpr (List.mem_singleton.mpr rfl), arrayOf_ne rfl⟩)
  | succ depth inductionHypothesis =>
    obtain ⟨fewer, given, after, joined, innerRuns, rfl, elementsOf, -⟩ :=
      exists_run_elementOf (fresh _ le_rfl) runs
    have inner : arrays (rest + 1 + 1) TypeName.lateStatic ∈ given :=
      inductionHypothesis (by rwa [Nat.add_right_comm _ 1, Nat.add_assoc _ depth]) fresh.enter
        innerRuns
    exact mem_bindStatic_iff.mpr (.inl ⟨elementsOf _ inner, arrayOf_ne rfl⟩)

/-- If the method returns nothing but such arrays, nothing else comes out of them. -/
theorem eq_of_run_elements {rest : Nat}
    (only : ∀ part ∈ found.info.types.members,
      part = .concrete (arrays (rest + 1 + depth) TypeName.lateStatic))
    (fresh : Fresh memo owner (.staticCall called method) depth)
    (runs : (value index steps owner (elements depth (.staticCall called method))).run memo =
      some (names, next)) : ∀ name ∈ names, name = arrays (rest + 1) TypeName.lateStatic := by
  induction depth generalizing rest steps memo names next with
  | zero =>
    obtain ⟨fewer, before, joined, after, gathered, rfl⟩ :=
      exists_run_staticCall declares direct (fresh 0 le_rfl) runs
    have declared (name : String) (listed : name ∈ found.info.types.names) :
        name = arrays (rest + 1) TypeName.lateStatic :=
      TypeValue.concrete.inj (only _ (mem_names.mp listed))
    have given (name : String) (listed : name ∈ joined) :
        name = arrays (rest + 1) TypeName.lateStatic := by
      rw [mem_of_run_gather_concrete (fun part among => ⟨_, only part among⟩) gathered,
        mem_bindStatic fun isStatic => absurd (declared _ (mem_namesOf.mp isStatic)).symm
          (arrayOf_ne rfl)] at listed
      exact declared name (mem_namesOf.mp listed)
    rw [settleEmptyArray_eq fun isEmpty => arrayOf_ne rfl (given _ isEmpty).symm]
    exact eq_of_bindStatic given
  | succ depth inductionHypothesis =>
    obtain ⟨fewer, given, after, joined, innerRuns, rfl, -, elementsOf⟩ :=
      exists_run_elementOf (fresh _ le_rfl) runs
    have inner : ∀ name ∈ given, name = arrays (rest + 1 + 1) TypeName.lateStatic :=
      inductionHypothesis (by rwa [Nat.add_right_comm _ 1, Nat.add_assoc _ depth]) fresh.enter
        innerRuns
    refine eq_of_bindStatic fun name listed => arrayOf_inj.mp (inner _ (elementsOf ?_ name listed))
    exact fun name listed => inner name listed ▸ isArray_arrayOf _

/-! ### Calls and their elements -/

/-- `static` alone is bound. -/
theorem lateStatic_notMem_resolve (bound : called ≠ TypeName.lateStatic) :
    .concrete TypeName.lateStatic ∉
      (resolve index owner (.singleton (.staticCall called method))).members := by
  obtain ⟨names, gives⟩ := exists_gives index owner (.staticCall called method)
  rw [gives.resolve_eq, mem_toSet_concrete]
  obtain ⟨steps, next, runs⟩ := gives
  obtain ⟨fewer, before, joined, after, gathered, rfl⟩ :=
    exists_run_staticCall declares direct rfl runs
  have missing := lateStatic_notMem_of_run_gather bound gathered
  refine lateStatic_notMem_settleEmptyArray fun listed => ?_
  rcases mem_bindStatic_iff.mp listed with ⟨-, unmarked⟩ | ⟨-, -, given⟩
  · exact unmarked rfl
  · exact missing given

/-- Concrete types of a method are the types of the call, `static` as the class it is made on. -/
theorem resolve_staticCall_of_concrete (bound : called ≠ TypeName.lateStatic)
    (concrete : ∀ part ∈ found.info.types.members, ∃ declared, part = .concrete declared) :
    resolve index owner (.singleton (.staticCall called method)) =
      toSet (settleEmptyArray (bindStatic called (namesOf found.info.types.names))) := by
  obtain ⟨names, gives⟩ := exists_gives index owner (.staticCall called method)
  rw [gives.resolve_eq]
  obtain ⟨steps, next, runs⟩ := gives
  obtain ⟨fewer, before, joined, after, gathered, rfl⟩ :=
    exists_run_staticCall declares direct rfl runs
  have unchanged (name : String) : name ∈ bindStatic owner (settleEmptyArray joined) ↔
      name ∈ settleEmptyArray joined :=
    mem_bindStatic fun listed => absurd listed (lateStatic_notMem_of_run_gather bound gathered)
  have settled : TypeName.emptyArray ∉ bindStatic owner (settleEmptyArray joined) := fun listed =>
    (mem_settleEmptyArray.mp ((unchanged _).mp listed)).1 rfl
  rw [settleEmptyArray_eq settled]
  refine toSet_congr fun name => ?_
  simp only [unchanged, mem_settleEmptyArray, mem_of_run_gather_concrete concrete gathered]

/-- The elements of arrays of `static` are the class for which they are resolved. -/
theorem mem_resolve_elements (named : owner ≠ "") (settled : owner ≠ TypeName.emptyArray)
    (listed : .concrete (arrays (depth + 1) TypeName.lateStatic) ∈ found.info.types.members) :
    .concrete owner ∈ (resolve index owner
      (.singleton (elements (depth + 1) (.staticCall called method)))).members := by
  obtain ⟨names, gives⟩ := exists_gives index owner (elements (depth + 1) (.staticCall called method))
  rw [gives.resolve_eq, mem_toSet_concrete, mem_settleEmptyArray]
  refine ⟨settled, .inl ?_⟩
  obtain ⟨steps, next, runs⟩ := gives
  have fresh : Fresh [] owner (.staticCall called method) (depth + 1) := fun _ _ => rfl
  obtain ⟨fewer, given, after, joined, innerRuns, rfl, elementsOf, -⟩ := exists_run_elementOf rfl runs
  have last : arrays 1 TypeName.lateStatic ∈ given :=
    mem_of_run_elements declares direct (by rwa [Nat.zero_add, Nat.add_comm]) fresh.enter innerRuns
  exact mem_bindStatic_iff.mpr (.inr ⟨rfl, named, elementsOf _ last⟩)

/-- If the method returns nothing but such arrays, their elements are that class only. -/
theorem resolve_elements_of_only
    (listed : .concrete (arrays (depth + 1) TypeName.lateStatic) ∈ found.info.types.members)
    (only : ∀ part ∈ found.info.types.members,
      part = .concrete (arrays (depth + 1) TypeName.lateStatic)) :
    resolve index owner (.singleton (elements (depth + 1) (.staticCall called method))) =
      toSet (settleEmptyArray (bindStatic owner (namesOf [TypeName.lateStatic]))) := by
  obtain ⟨names, gives⟩ := exists_gives index owner (elements (depth + 1) (.staticCall called method))
  rw [gives.resolve_eq]
  obtain ⟨steps, next, runs⟩ := gives
  have fresh : Fresh [] owner (.staticCall called method) (depth + 1) := fun _ _ => rfl
  obtain ⟨fewer, given, after, joined, innerRuns, rfl, elementsOf, arraysOf⟩ :=
    exists_run_elementOf rfl runs
  rw [← Nat.zero_add (depth + 1), ← Nat.add_assoc, Nat.add_right_comm] at listed only
  have last := mem_of_run_elements declares direct listed fresh.enter innerRuns
  have alone := eq_of_run_elements declares direct only fresh.enter innerRuns
  have same (name : String) : name ∈ joined ↔ name ∈ namesOf [TypeName.lateStatic] := by
    rw [mem_namesOf, List.mem_singleton]
    constructor
    · intro listed
      exact arrayOf_inj.mp (alone _ (arraysOf (fun array given => alone array given ▸
        isArray_arrayOf _) name listed))
    · rintro rfl
      exact elementsOf _ last
  refine toSet_congr fun name => ?_
  simp only [mem_settleEmptyArray, mem_bindStatic_iff, same]

end

end

/-- A static call binds `static`, but no array of it: the arrays that a method declares come through
under their own name, and their elements are bound to the class for which they are taken. -/
theorem resolve_lateStatic_arrays (index : Index) (owner called method : String)
    (found : FoundMethod) (depth : Nat) (declares : Hierarchy.findMethod? index called method = some found)
    (direct : found.viaTrait = none) (named : called ≠ "") (bound : called ≠ TypeName.lateStatic)
    (settled : called ≠ TypeName.emptyArray)
    (listed : .concrete (arrays depth TypeName.lateStatic) ∈ found.info.types.members) :
    .concrete TypeName.lateStatic ∉
        (resolve index owner (.singleton (.staticCall called method))).members ∧
      (depth = 0 → .concrete called ∈
        (resolve index owner (.singleton (.staticCall called method))).members) ∧
      (0 < depth → .concrete (arrays depth TypeName.lateStatic) ∈
        (resolve index owner (.singleton (.staticCall called method))).members) ∧
      (0 < depth → owner ≠ "" → owner ≠ TypeName.emptyArray → .concrete owner ∈
        (resolve index owner (.singleton (elements depth (.staticCall called method)))).members) ∧
      ((∀ part ∈ found.info.types.members, ∃ declared, part = .concrete declared) →
        resolve index owner (.singleton (.staticCall called method)) =
          toSet (settleEmptyArray (bindStatic called (namesOf found.info.types.names)))) ∧
      (0 < depth → (∀ part ∈ found.info.types.members,
          part = .concrete (arrays depth TypeName.lateStatic)) →
        resolve index owner (.singleton (elements depth (.staticCall called method))) =
          toSet (settleEmptyArray (bindStatic owner (namesOf [TypeName.lateStatic])))) := by
  have reaches (name : String) (ordinary : name ≠ TypeName.emptyArray)
      (unmarked : name ≠ TypeName.lateStatic)
      (given : name ∈ bindStatic called (namesOf [arrays depth TypeName.lateStatic])) :
      .concrete name ∈ (resolve index owner (.singleton (.staticCall called method))).members := by
    obtain ⟨names, gives⟩ := exists_gives index owner (.staticCall called method)
    rw [gives.resolve_eq, mem_toSet_concrete, mem_settleEmptyArray]
    obtain ⟨steps, next, runs⟩ := gives
    exact ⟨ordinary, .inl
      (mem_of_run_staticCall declares direct listed given ordinary unmarked rfl runs)⟩
  refine ⟨lateStatic_notMem_resolve declares direct bound, ?_, ?_, ?_,
    resolve_staticCall_of_concrete declares direct bound, ?_⟩
  · rintro rfl
    exact reaches called settled bound
      (mem_bindStatic_iff.mpr (.inr ⟨rfl, named, by simp [mem_namesOf, arrays]⟩))
  all_goals
    intro positive
    obtain ⟨depth, rfl⟩ := Nat.exists_eq_succ_of_ne_zero positive.ne'
  · exact reaches _ (arrayOf_ne rfl) (arrayOf_ne rfl)
      (mem_bindStatic_iff.mpr (.inl ⟨by simp [mem_namesOf], arrayOf_ne rfl⟩))
  · exact fun named settled => mem_resolve_elements declares direct named settled listed
  · exact resolve_elements_of_only declares direct listed

/-- The method that gives the cases of an enumeration, as their interface declares it. -/
def casesMethod : FunctionInfo :=
  { returning "cases" [.concrete "static[]"] with isStatic := true, isAbstract := true }

/-- The enumeration `\Suit` has its method from the interface. -/
def suitIndex : Index :=
  Index.empty.insertFile "sample"
    ((FileSymbols.addClass {} (ClassInfo.addMethod
      { name := "\\UnitEnum", position := ⟨"sample", 1, 0, 1⟩, kind := .interface }
      casesMethod)).addClass
      { name := "\\Suit", position := ⟨"sample", 1, 0, 1⟩, kind := .enum,
        interfaces := .ofList ["\\UnitEnum"] })

/-- The method as it is found for `\Suit`. -/
def suitCases : FoundMethod where
  info := casesMethod
  owner := "\\UnitEnum"
  viaTrait := none
  implemented := false

theorem findMethod?_suitIndex :
    Hierarchy.findMethod? suitIndex "\\Suit" "cases" = some suitCases := by
  rfl

theorem resolve_lateStatic_arrays_suitIndex :
    suitCases.info.types.members = [.concrete (arrays 1 TypeName.lateStatic)] ∧
      (resolve suitIndex "\\K" (.singleton (.staticCall "\\Suit" "cases"))).names = ["static[]"] ∧
      (resolve suitIndex "\\K" (.singleton (.elementOf (.staticCall "\\Suit" "cases")))).names =
        ["\\K"] := by
  have declared : suitCases.info.types.members = [.concrete (arrays 1 TypeName.lateStatic)] := by
    decide
  have only (part : TypeValue) (listed : part ∈ suitCases.info.types.members) :
      part = .concrete (arrays 1 TypeName.lateStatic) := by
    rwa [declared, List.mem_singleton] at listed
  obtain ⟨-, -, -, -, call, cases⟩ := resolve_lateStatic_arrays suitIndex "\\K" "\\Suit" "cases"
    suitCases 1 findMethod?_suitIndex rfl (by decide) (by decide) (by decide)
    (declared ▸ List.mem_singleton.mpr rfl)
  have called := congrArg TypeSet.names (call fun part listed => ⟨_, only part listed⟩)
  have taken := congrArg TypeSet.names (cases Nat.zero_lt_one only)
  exact ⟨declared, called.trans (by decide), taken.trans (by decide)⟩

/-- Where they are resolved for `\K`, neither the cases of `\Suit` nor their elements are bound to it. -/
theorem lateStatic_arrays_unbound :
    ¬ ∀ (index : Index) (owner called method : String) (found : FoundMethod) (depth : Nat),
      Hierarchy.findMethod? index called method = some found → found.viaTrait = none → called ≠ "" →
      .concrete (arrays depth TypeName.lateStatic) ∈ found.info.types.members →
      .concrete (arrays depth called) ∈
          (resolve index owner (.singleton (.staticCall called method))).members ∧
        (∀ more, .concrete (arrays more TypeName.lateStatic) ∉
          (resolve index owner (.singleton (.staticCall called method))).members) ∧
        .concrete called ∈
          (resolve index owner (.singleton (elements depth (.staticCall called method)))).members := by
  intro binds
  have claimed := (binds suitIndex "\\K" "\\Suit" "cases" suitCases 1 findMethod?_suitIndex rfl
    (by decide) (by decide)).2.2
  revert claimed
  decide

end PhpAudit.Resolution
