/-
This file is about values that are wrapped twice, once by each of the rules for arrays and elements.
The elements of arrays of a value resolve to what the value resolves to, whatever cycles the index has.
The arrays of its elements do so if and only if the value gives names of arrays alone, so the rule that
takes them for the value when types are built is right for these values and for no others.

While a wrapped value is resolved, the memo holds the empty set for the two values around it as well.
That makes no difference: a value that is met while it is expanded gives nothing, and neither do the
arrays or the elements of nothing.
-/

import PhpAudit.Proofs.Resolution.Union
import PhpAudit.Proofs.Types.Normal

namespace PhpAudit.Resolution

/-! ### Rules on names -/

theorem mem_insert {names : Names} {name new : String} :
    name ∈ names.insert new ↔ name = new ∨ name ∈ names := by
  rw [Std.TreeSet.mem_insert, Std.LawfulEqCmp.compare_eq_iff_eq, eq_comm]

theorem mem_erase {names : Names} {name old : String} :
    name ∈ names.erase old ↔ name ∈ names ∧ name ≠ old := by
  rw [Std.TreeSet.mem_erase, ne_eq, Std.LawfulEqCmp.compare_eq_iff_eq, eq_comm, and_comm]

theorem mem_bindStatic_iff {owner name : String} {names : Names} :
    name ∈ bindStatic owner names ↔
      name ∈ names ∧ name ≠ TypeName.lateStatic ∨
        name = owner ∧ owner ≠ "" ∧ TypeName.lateStatic ∈ names := by
  unfold bindStatic
  by_cases found : TypeName.lateStatic ∈ names
  · rw [if_pos (Std.TreeSet.contains_iff_mem.mpr found)]
    dsimp only
    split
    · next outside =>
      rw [mem_erase]
      simp [String.isEmpty_iff.mp outside]
    · next inside =>
      rw [mem_insert, mem_erase, or_comm]
      simp [mt String.isEmpty_iff.mpr inside, found]
  · rw [if_neg fun contained => found (Std.TreeSet.contains_iff_mem.mp contained)]
    simp only [found, and_false, or_false]
    exact ⟨fun listed => ⟨listed, fun same => found (same ▸ listed)⟩, And.left⟩

theorem mem_settleEmptyArray {name : String} {names : Names} :
    name ∈ settleEmptyArray names ↔
      name ≠ TypeName.emptyArray ∧ (name ∈ names ∨ name = "mixed[]" ∧
        TypeName.emptyArray ∈ names ∧ ∀ other ∈ names, TypeName.isArray other = false) := by
  by_cases found : TypeName.emptyArray ∈ names
  · have accompanied : ((names.erase TypeName.emptyArray).toList.any TypeName.isArray = true) ↔
        ∃ other ∈ names, TypeName.isArray other = true := by
      simp only [List.any_eq_true, Std.TreeSet.mem_toList, mem_erase]
      constructor
      · rintro ⟨other, ⟨listed, -⟩, isArray⟩
        exact ⟨other, listed, isArray⟩
      · rintro ⟨other, listed, isArray⟩
        refine ⟨other, ⟨listed, ?_⟩, isArray⟩
        rintro rfl
        cases isArray
    unfold settleEmptyArray
    rw [if_pos (Std.TreeSet.contains_iff_mem.mpr found)]
    dsimp only
    split
    · next some =>
      obtain ⟨other, listed, isArray⟩ := accompanied.mp some
      have alone : ¬ ∀ other ∈ names, TypeName.isArray other = false := fun none =>
        Bool.false_ne_true ((none other listed).symm.trans isArray)
      rw [mem_erase, and_comm]
      simp only [alone, and_false, or_false]
    · next none =>
      have alone : ∀ other ∈ names, TypeName.isArray other = false := fun other listed =>
        Bool.eq_false_of_not_eq_true fun isArray => none (accompanied.mpr ⟨other, listed, isArray⟩)
      rw [mem_insert, mem_erase]
      constructor
      · rintro (rfl | ⟨listed, other⟩)
        · exact ⟨by decide, .inr ⟨rfl, found, alone⟩⟩
        · exact ⟨other, .inl listed⟩
      · rintro ⟨other, listed | ⟨rfl, -⟩⟩
        · exact .inr ⟨listed, other⟩
        · exact .inl rfl
  · rw [settleEmptyArray_eq found]
    simp only [found, false_and, and_false, or_false]
    exact ⟨fun listed => ⟨fun same => found (same ▸ listed), listed⟩, And.right⟩

theorem toSet_congr {first second : Names} (same : ∀ name, name ∈ first ↔ name ∈ second) :
    toSet first = toSet second := by
  refine ext_members ?_ rfl rfl
  refine (ordered_toSet first).eq (ordered_toSet second) (TypeSet.distinct _) (TypeSet.distinct _)
    fun value => ?_
  simp only [mem_toSet, same]

theorem mem_toSet_concrete {names : Names} {name : String} :
    .concrete name ∈ (toSet names).members ↔ name ∈ names := by
  simp [mem_toSet]

theorem toSet_eq_iff {first second : Names} :
    toSet first = toSet second ↔ ∀ name, name ∈ first ↔ name ∈ second := by
  refine ⟨fun same name => ?_, toSet_congr⟩
  rw [← mem_toSet_concrete, same, mem_toSet_concrete]

/-! ### What a value gives by itself -/

section

variable {index : Index} {owner : String} {deferred : TypeValue} {names others : Names}

/-- With nothing known before, the value resolves to `names` for the class `owner`; the type of an
empty array among them is not settled yet. -/
def Gives (index : Index) (owner : String) (deferred : TypeValue) (names : Names) : Prop :=
  ∃ steps next, (value index steps owner deferred).run [] = some (names, next)

/-- `static` is bound in every run. -/
theorem eq_of_lateStatic_mem_run {steps : Nat} {memo next : Memo}
    (runs : (value index steps owner deferred).run memo = some (names, next))
    (listed : TypeName.lateStatic ∈ names) : owner = TypeName.lateStatic := by
  cases steps with
  | zero => cases runs
  | succ steps =>
    rw [run_value] at runs
    obtain ⟨⟨entry, last⟩, -, same⟩ := Option.map_eq_some_iff.mp runs
    cases same
    exact eq_of_lateStatic_mem listed

/-- A value that the memo does not have is expanded. -/
theorem exists_run_expand {steps : Nat} {memo next : Memo} (isDeferred : deferred.isDeferred = true)
    (unknown : memo.lookup (deferred, owner) = none)
    (runs : (value index steps owner deferred).run memo = some (names, next)) :
    ∃ fewer entry after, (expand index (value index fewer) owner deferred).run
      (((deferred, owner), {}) :: memo) = some (entry, after) ∧ names = bindStatic owner entry := by
  cases steps with
  | zero => cases runs
  | succ steps =>
    rw [run_value, run_remembered_unknown index isDeferred unknown] at runs
    obtain ⟨⟨known, last⟩, entered, same⟩ := Option.map_eq_some_iff.mp runs
    cases same
    obtain ⟨⟨entry, after⟩, expands, same⟩ := Option.map_eq_some_iff.mp entered
    cases same
    exact ⟨steps, entry, after, expands, rfl⟩

theorem run_ofSet_singleton {steps : Nat} {memo next : Memo}
    (runs : (value index steps owner deferred).run memo = some (names, next)) :
    (ofSet (value index steps) owner (.singleton deferred)).run memo =
      some (settleEmptyArray (join names {}), next) := by
  show (settleEmptyArray <$> gather (value index steps owner) [deferred]).run memo = _
  rw [StateT.run_map, gather, StateT.run_bind, runs]
  rfl

theorem exists_gives (index : Index) (owner : String) (deferred : TypeValue) :
    ∃ names, Gives index owner deferred names := by
  obtain ⟨settled, next, runs⟩ := exists_run? index owner (.singleton deferred) []
  have ends := runs _ le_rfl
  rw [run?, ofSet, StateT.run_map] at ends
  obtain ⟨⟨joined, last⟩, gathered, -⟩ := Option.map_eq_some_iff.mp ends
  obtain ⟨names, middle, single, -⟩ := run_bind_eq_some.mp gathered
  exact ⟨names, _, _, single⟩

/-- A set of one value resolves to what the value gives, the type of an empty array settled. -/
theorem Gives.resolve_eq (gives : Gives index owner deferred names) :
    resolve index owner (.singleton deferred) = toSet (settleEmptyArray names) := by
  obtain ⟨steps, next, runs⟩ := gives
  obtain ⟨settled, last, ends⟩ := exists_run? index owner (.singleton deferred) []
  have later := value_outlasts (Nat.le_max_left steps (stepBound index (.singleton deferred)))
    owner deferred _ _ runs
  have same := (ends _ (Nat.le_max_right _ _)).symm.trans (run_ofSet_singleton later)
  rw [resolve, resolveWith, ends _ le_rfl]
  cases same
  refine toSet_congr fun name => ?_
  simp [mem_settleEmptyArray, mem_join]

end

/-! ### Wrapped values -/

/-- The second value is the array or the element type of the first. -/
inductive Wraps (inner : TypeValue) : TypeValue → Prop
  | arrayOf : Wraps inner (.arrayOf inner)
  | elementOf : Wraps inner (.elementOf inner)

/-- What is done to the names inside the value. -/
def layer {Computing : Type → Type} [Monad Computing] (index : Index)
    (resolve : String → TypeValue → Computing Names) (outer : TypeValue) (names : Names) :
    Computing Names :=
  match outer with
  | .arrayOf _ => pure (namesOf (names.toList.map TypeName.arrayOf))
  | .elementOf _ => gather (ofElement index resolve) names.toList
  | _ => pure {}

namespace Wraps

variable {inner outer : TypeValue}

theorem isDeferred (wraps : Wraps inner outer) : outer.isDeferred = true := by
  cases wraps <;> rfl

theorem weight_eq (wraps : Wraps inner outer) : weight outer = weight inner + 1 := by
  cases wraps <;> rfl

theorem expand_eq {Computing : Type → Type} [Monad Computing] (wraps : Wraps inner outer)
    (index : Index) (resolve : String → TypeValue → Computing Names) (owner : String) :
    expand index resolve owner outer = resolve owner inner >>= layer index resolve outer := by
  cases wraps <;> rfl

/-- Arrays and elements of nothing are nothing. -/
theorem layer_empty {Computing : Type → Type} [Monad Computing] (wraps : Wraps inner outer)
    (index : Index) (resolve : String → TypeValue → Computing Names) :
    layer index resolve outer {} = pure {} := by
  cases wraps <;> rfl

end Wraps

/-! ### Memos that differ in wrapped values -/

section

variable {index : Index} {core near far : TypeValue} {owner : String}

/-- `core` is being expanded for `owner`. The second memo has empty sets for the values `near` and
`far` around it; the first one has no others for them, and both agree on all other values. -/
structure Muted (core near far : TypeValue) (owner : String) (first second : Memo) : Prop where
  entered : first.lookup (core, owner) = some {}
  silent : ∀ outer, outer = near ∨ outer = far → second.lookup (outer, owner) = some {}
  unheard : ∀ outer, outer = near ∨ outer = far →
    ∀ names, first.lookup (outer, owner) = some names → names = {}
  same : ∀ key, ¬ ((key.1 = near ∨ key.1 = far) ∧ key.2 = owner) →
    first.lookup key = second.lookup key

/-- From related memos, the second computation finishes like the first, in related memos. -/
def Mimics (related : Memo → Memo → Prop) (Answer : Type) (first second : Resolving Answer) :
    Prop :=
  ∀ memo other, related memo other → ∀ answer next, first.run memo = some (answer, next) →
    ∃ last, second.run other = some (answer, last) ∧ related next last

theorem sequential_mimics (related : Memo → Memo → Prop) : Sequential (Mimics related) where
  pure _ := by
    rintro memo other both _ _ ⟨⟩
    exact ⟨other, rfl, both⟩
  bind first rest := by
    intro memo other both answer next runs
    obtain ⟨between, middle, runs, restRuns⟩ := run_bind_eq_some.mp runs
    obtain ⟨middleToo, runsToo, both⟩ := first memo other both between middle runs
    obtain ⟨last, restRunsToo, both⟩ := rest between middle middleToo both answer next restRuns
    exact ⟨last, run_bind_eq_some.mpr ⟨between, middleToo, runsToo, restRunsToo⟩, both⟩

namespace Muted

/-- Nothing but `core` is known to the first computation, and nothing else around it to the second. -/
theorem entering (apart : ∀ outer, outer = near ∨ outer = far → outer ≠ core) :
    Muted core near far owner [((core, owner), {})]
      [((core, owner), {}), ((near, owner), {}), ((far, owner), {})] := by
  have unentered (outer : TypeValue) (isQuiet : outer = near ∨ outer = far) :
      ((outer, owner) == (core, owner)) = false :=
    beq_false_of_ne fun same => apart outer isQuiet (Prod.mk.inj same).1
  refine ⟨by simp, fun outer isQuiet => ?_, fun outer isQuiet names found => ?_, fun key free => ?_⟩
  · rw [List.lookup_cons, unentered outer isQuiet]
    rcases isQuiet with rfl | rfl
    · simp
    · cases same : (outer, owner) == (near, owner) <;> simp [List.lookup_cons, same]
  · rw [List.lookup_cons, unentered outer isQuiet] at found
    cases found
  · have unquiet (outer : TypeValue) (isQuiet : outer = near ∨ outer = far) :
        (key == (outer, owner)) = false :=
      beq_false_of_ne fun same => free (by rw [same]; exact ⟨isQuiet, rfl⟩)
    simp only [List.lookup_cons, unquiet near (.inl rfl), unquiet far (.inr rfl)]

variable {memo other : Memo} (muted : Muted core near far owner memo other)

include muted

theorem cons {key : Key} {names : Names} (unquiet : ¬ ((key.1 = near ∨ key.1 = far) ∧ key.2 = owner))
    (apart : key ≠ (core, owner)) :
    Muted core near far owner ((key, names) :: memo) ((key, names) :: other) := by
  have unchanged (outer : TypeValue) (isQuiet : outer = near ∨ outer = far) (memo : Memo) :
      List.lookup (outer, owner) ((key, names) :: memo) = memo.lookup (outer, owner) := by
    rw [List.lookup_cons, beq_false_of_ne]
    rintro rfl
    exact unquiet ⟨isQuiet, rfl⟩
  constructor
  · rw [List.lookup_cons, beq_false_of_ne apart.symm]
    exact muted.entered
  · intro outer isQuiet
    rw [unchanged outer isQuiet]
    exact muted.silent outer isQuiet
  · intro outer isQuiet
    rw [unchanged outer isQuiet]
    exact muted.unheard outer isQuiet
  · intro asked free
    rw [List.lookup_cons, List.lookup_cons, muted.same asked free]

/-- One of the values around it gives nothing. -/
theorem cons_silent {outer : TypeValue} (isQuiet : outer = near ∨ outer = far) (apart : outer ≠ core) :
    Muted core near far owner (((outer, owner), {}) :: memo) other := by
  refine ⟨?_, muted.silent, fun asked isQuietToo names found => ?_, fun asked free => ?_⟩
  · rw [List.lookup_cons, beq_false_of_ne fun same => apart (Prod.mk.inj same).1.symm]
    exact muted.entered
  · rw [List.lookup_cons] at found
    split at found
    · exact (Option.some.inj found).symm
    · exact muted.unheard asked isQuietToo names found
  · rw [List.lookup_cons, beq_false_of_ne]
    · exact muted.same asked free
    · rintro rfl
      exact free ⟨isQuiet, rfl⟩

end Muted

/-- Whenever `core` is being expanded, the value gives nothing and disturbs nothing. -/
def Silent (index : Index) (core near far : TypeValue) (owner : String) (deferred : TypeValue) :
    Prop :=
  ∀ memo other, Muted core near far owner memo other → ∀ steps names next,
    (value index steps owner deferred).run memo = some (names, next) →
      names = {} ∧ Muted core near far owner next other

theorem silent_core (isDeferred : core.isDeferred = true) :
    Silent index core near far owner core := by
  intro memo other muted steps names next runs
  cases steps with
  | zero => cases runs
  | succ steps =>
    rw [run_value, run_remembered_known index isDeferred muted.entered] at runs
    cases runs
    exact ⟨rfl, muted⟩

/-- What wraps a silent value is silent. -/
theorem silent_of_wraps {inner outer : TypeValue} (wraps : Wraps inner outer)
    (isQuiet : outer = near ∨ outer = far) (apart : outer ≠ core)
    (silent : Silent index core near far owner inner) :
    Silent index core near far owner outer := by
  intro memo other muted steps names next runs
  cases steps with
  | zero => cases runs
  | succ steps =>
    rw [run_value] at runs
    obtain ⟨⟨entry, last⟩, entered, same⟩ := Option.map_eq_some_iff.mp runs
    cases same
    cases known : memo.lookup (outer, owner) with
    | some found =>
      rw [run_remembered_known index wraps.isDeferred known] at entered
      cases entered
      rw [muted.unheard outer isQuiet entry known]
      exact ⟨rfl, muted⟩
    | none =>
      rw [run_remembered_unknown index wraps.isDeferred known, wraps.expand_eq] at entered
      obtain ⟨⟨expanded, after⟩, ran, same⟩ := Option.map_eq_some_iff.mp entered
      obtain ⟨found, middle, innerRuns, restRuns⟩ := run_bind_eq_some.mp ran
      obtain ⟨rfl, muted⟩ := silent _ other (muted.cons_silent isQuiet apart) steps _ _ innerRuns
      rw [wraps.layer_empty] at restRuns
      cases restRuns
      cases same
      exact ⟨rfl, muted.cons_silent isQuiet apart⟩

variable (wrapsCore : Wraps core near) (wrapsNear : Wraps near far)

include wrapsCore wrapsNear

theorem ne_core_of_isQuiet (outer : TypeValue) (isQuiet : outer = near ∨ outer = far) :
    outer ≠ core := by
  have nearer := wrapsCore.weight_eq
  have farther := wrapsNear.weight_eq
  rintro rfl
  rcases isQuiet with rfl | rfl <;> omega

theorem silent_of_isQuiet (isDeferred : core.isDeferred = true) {outer : TypeValue}
    (isQuiet : outer = near ∨ outer = far) : Silent index core near far owner outer := by
  have apart := ne_core_of_isQuiet wrapsCore wrapsNear
  have nearby : Silent index core near far owner near :=
    silent_of_wraps wrapsCore (.inl rfl) (apart near (.inl rfl)) (silent_core isDeferred)
  rcases isQuiet with rfl | rfl
  · exact nearby
  · exact silent_of_wraps wrapsNear (.inr rfl) (apart _ (.inr rfl)) nearby

/-- While `core` is expanded, resolution does not notice the empty sets for the values around it. -/
theorem value_mimics (isDeferred : core.isDeferred = true) (steps : Nat) (name : String)
    (deferred : TypeValue) :
    Mimics (Muted core near far owner) Names (value index steps name deferred)
      (value index steps name deferred) := by
  induction steps generalizing name deferred with
  | zero => exact fun _ _ _ _ _ runs => by cases runs
  | succ steps inductionHypothesis =>
    intro memo other muted names next runs
    by_cases quiet : (deferred = near ∨ deferred = far) ∧ name = owner
    · obtain ⟨isQuiet, rfl⟩ := quiet
      obtain ⟨rfl, mutedAfter⟩ := silent_of_isQuiet wrapsCore wrapsNear isDeferred isQuiet memo
        other muted _ _ _ runs
      have kind : deferred.isDeferred = true := by
        rcases isQuiet with rfl | rfl
        · exact wrapsCore.isDeferred
        · exact wrapsNear.isDeferred
      refine ⟨other, ?_, mutedAfter⟩
      rw [run_value, run_remembered_known index kind (muted.silent deferred isQuiet)]
      rfl
    · rw [run_value] at runs ⊢
      obtain ⟨⟨entry, last⟩, entered, same⟩ := Option.map_eq_some_iff.mp runs
      cases same
      have lookups := muted.same (deferred, name) quiet
      cases kind : deferred.isDeferred with
      | false =>
        cases deferred with
        | concrete only =>
          cases entered
          exact ⟨other, rfl, muted⟩
        | _ => cases kind
      | true =>
        cases known : memo.lookup (deferred, name) with
        | some found =>
          rw [run_remembered_known index kind known] at entered
          cases entered
          rw [run_remembered_known index kind (lookups.symm.trans known)]
          exact ⟨other, rfl, muted⟩
        | none =>
          have apart : (deferred, name) ≠ (core, owner) := by
            rintro same
            rw [same, muted.entered] at known
            cases known
          rw [run_remembered_unknown index kind known] at entered
          obtain ⟨⟨expanded, after⟩, ran, same⟩ := Option.map_eq_some_iff.mp entered
          cases same
          obtain ⟨last, ranToo, mutedAfter⟩ := (sequential_mimics _).expand inductionHypothesis name
            deferred _ _ (muted.cons quiet apart) _ _ ran
          rw [run_remembered_unknown index kind (lookups.symm.trans known), ranToo]
          exact ⟨_, rfl, mutedAfter.cons quiet apart⟩

/-- A value gives the same when the two values around it are being expanded. -/
theorem exists_run_wrapped {steps : Nat} {names : Names} {next : Memo}
    (runs : (value index steps owner core).run [] = some (names, next)) :
    ∃ last, (value index steps owner core).run [((near, owner), {}), ((far, owner), {})] =
      some (names, last) := by
  have apart {outer : TypeValue} (isQuiet : outer = near ∨ outer = far) :
      (core, owner) ≠ (outer, owner) := fun same =>
    ne_core_of_isQuiet wrapsCore wrapsNear outer isQuiet (Prod.mk.inj same).1.symm
  cases steps with
  | zero => cases runs
  | succ steps =>
    rw [run_value] at runs ⊢
    cases kind : core.isDeferred with
    | false =>
      cases core with
      | concrete only =>
        cases runs
        exact ⟨_, rfl⟩
      | _ => cases kind
    | true =>
      have unknown : List.lookup (core, owner) [((near, owner), {}), ((far, owner), ({} : Names))] =
          none := by
        rw [List.lookup_cons, beq_false_of_ne (apart (.inl rfl)), List.lookup_cons,
          beq_false_of_ne (apart (.inr rfl)), List.lookup_nil]
      obtain ⟨⟨entry, after⟩, entered, same⟩ := Option.map_eq_some_iff.mp runs
      cases same
      rw [run_remembered_unknown index kind rfl] at entered
      obtain ⟨⟨expanded, last⟩, ran, same⟩ := Option.map_eq_some_iff.mp entered
      cases same
      have muted : Muted core near far owner _ _ :=
        .entering (ne_core_of_isQuiet wrapsCore wrapsNear)
      obtain ⟨ends, ranToo, -⟩ := (sequential_mimics _).expand
        (value_mimics wrapsCore wrapsNear kind steps) owner core _ _ muted _ _ ran
      rw [run_remembered_unknown index kind unknown, ranToo]
      exact ⟨_, rfl⟩

end

/-! ### Values inside two others -/

section

variable {index : Index} {core near far : TypeValue} {owner : String} {names between found : Names}

theorem exists_run_of_layer {inner outer : TypeValue} (wraps : Wraps inner outer) {steps : Nat}
    {memo next : Memo} (unknown : memo.lookup (outer, owner) = none)
    (runs : (value index steps owner inner).run (((outer, owner), {}) :: memo) = some (names, next))
    (layered : layer index (value index steps) outer names = pure found) :
    ∃ last, (value index (steps + 1) owner outer).run memo = some (bindStatic owner found, last) := by
  rw [run_value, run_remembered_unknown index wraps.isDeferred unknown, wraps.expand_eq,
    run_bind_eq_some.mpr ⟨names, next, runs, congrFun (congrArg StateT.run layered) next⟩]
  exact ⟨_, rfl⟩

/-- A value inside two others gives them what it gives by itself, and they add their layers. -/
theorem Gives.layered (wrapsCore : Wraps core near) (wrapsNear : Wraps near far)
    (gives : Gives index owner core names)
    (inner : ∀ resolve : String → TypeValue → Resolving Names,
      layer index resolve near names = pure between)
    (outer : ∀ resolve : String → TypeValue → Resolving Names,
      layer index resolve far (bindStatic owner between) = pure found) :
    Gives index owner far (bindStatic owner found) := by
  obtain ⟨steps, next, runs⟩ := gives
  obtain ⟨last, coreRuns⟩ := exists_run_wrapped wrapsCore wrapsNear runs
  have apart : near ≠ far := by
    have heavier := wrapsNear.weight_eq
    rintro rfl
    omega
  have unknown : List.lookup (near, owner) [((far, owner), ({} : Names))] = none := by
    rw [List.lookup_cons, beq_false_of_ne fun same => apart (Prod.mk.inj same).1, List.lookup_nil]
  obtain ⟨middle, nearRuns⟩ := exists_run_of_layer wrapsCore unknown coreRuns (inner _)
  obtain ⟨ends, farRuns⟩ := exists_run_of_layer wrapsNear rfl nearRuns (outer _)
  exact ⟨_, ends, farRuns⟩

theorem isArray_arrayOf (name : String) : TypeName.isArray (TypeName.arrayOf name) = true := by
  rw [TypeName.isArray_eq_isSome, TypeName.beforeEnd?_arrayOf]
  rfl

theorem element_arrayOf (name : String) : TypeName.element (TypeName.arrayOf name) = name := by
  rw [TypeName.element, TypeName.beforeEnd?_arrayOf]
  rfl

theorem arrayOf_element {name : String} (isArray : TypeName.isArray name = true) :
    TypeName.arrayOf (TypeName.element name) = name := by
  rw [TypeName.isArray_eq_isSome] at isArray
  obtain ⟨inner, before⟩ := Option.isSome_iff_exists.mp isArray
  rw [TypeName.element, before]
  exact TypeName.arrayOf_of_beforeEnd? before

theorem arrayOf_ne {name other : String} (unmarked : TypeName.isArray other = false) :
    TypeName.arrayOf name ≠ other := by
  rintro rfl
  cases (isArray_arrayOf name).symm.trans unmarked

theorem arrayOf_inj {first second : String} :
    TypeName.arrayOf first = TypeName.arrayOf second ↔ first = second := by
  rw [TypeName.arrayOf, TypeName.arrayOf, String.append_left_inj]

theorem mem_arrays {name : String} :
    name ∈ namesOf (names.toList.map TypeName.arrayOf) ↔
      ∃ element ∈ names, TypeName.arrayOf element = name := by
  simp [mem_namesOf]

/-- `static` is bound in the elements of arrays, not in the arrays. -/
theorem mem_bindStatic_arrays {name : String} :
    name ∈ bindStatic owner (namesOf (names.toList.map TypeName.arrayOf)) ↔
      ∃ element ∈ names, TypeName.arrayOf element = name := by
  rw [mem_bindStatic_iff, mem_arrays]
  constructor
  · rintro (⟨listed, -⟩ | ⟨-, -, listed⟩)
    · exact listed
    · obtain ⟨element, -, same⟩ := mem_arrays.mp listed
      exact absurd same (arrayOf_ne rfl)
  · rintro ⟨element, listed, rfl⟩
    exact .inl ⟨⟨element, listed, rfl⟩, arrayOf_ne rfl⟩

/-- The elements of arrays need no resolution. -/
theorem exists_gather_ofElement (index : Index) (sources : List String)
    (arrays : ∀ name ∈ sources, name = TypeName.emptyArray ∨ TypeName.isArray name = true) :
    ∃ elements : Names,
      (∀ resolve : String → TypeValue → Resolving Names,
        gather (ofElement index resolve) sources = pure elements) ∧
      ∀ name, name ∈ elements ↔ TypeName.arrayOf name ∈ sources := by
  induction sources with
  | nil => exact ⟨{}, fun _ => rfl, by simp⟩
  | cons source rest inductionHypothesis =>
    obtain ⟨others, gathered, mem⟩ := inductionHypothesis fun name listed =>
      arrays name (List.mem_cons_of_mem _ listed)
    rcases arrays source List.mem_cons_self with rfl | isArray
    · refine ⟨join {} others, fun resolve => ?_, fun name => ?_⟩
      · rw [gather, gathered]
        rfl
      · have different : TypeName.arrayOf name ≠ TypeName.emptyArray := arrayOf_ne rfl
        simp [mem_join, mem, different]
    · refine ⟨join (namesOf [TypeName.element source]) others, fun resolve => ?_, fun name => ?_⟩
      · rw [gather, gathered, ofElement, if_pos isArray]
        rfl
      · rw [mem_join, mem_namesOf, List.mem_singleton, mem, List.mem_cons]
        refine or_congr_left ⟨?_, ?_⟩
        · rintro rfl
          exact arrayOf_element isArray
        · rintro rfl
          exact (element_arrayOf name).symm

end

/-! ### Elements of arrays -/

section

variable {index : Index} {owner : String} {names others : Names} {deferred : TypeValue}

/-- The elements of the arrays of a value are what the value resolves to. -/
theorem resolve_elementOf_arrayOf (index : Index) (owner : String) (deferred : TypeValue) :
    resolve index owner (.singleton (.elementOf (.arrayOf deferred))) =
      resolve index owner (.singleton deferred) := by
  obtain ⟨names, gives⟩ := exists_gives index owner deferred
  have isBound : TypeName.lateStatic ∈ names → owner = TypeName.lateStatic := by
    obtain ⟨steps, next, runs⟩ := gives
    exact eq_of_lateStatic_mem_run runs
  obtain ⟨elements, gathered, mem⟩ := exists_gather_ofElement index
    (bindStatic owner (namesOf (names.toList.map TypeName.arrayOf))).toList
    fun name listed => by
      obtain ⟨element, -, rfl⟩ := mem_bindStatic_arrays.mp (Std.TreeSet.mem_toList.mp listed)
      exact .inr (isArray_arrayOf element)
  have same (name : String) : name ∈ elements ↔ name ∈ names := by
    rw [mem, Std.TreeSet.mem_toList, mem_bindStatic_arrays]
    simp only [arrayOf_inj, exists_eq_right]
  have wrapped := gives.layered .arrayOf .elementOf (fun _ => rfl) gathered
  rw [wrapped.resolve_eq, gives.resolve_eq]
  refine toSet_congr fun name => ?_
  have bound (name : String) : name ∈ bindStatic owner elements ↔ name ∈ names := by
    rw [mem_bindStatic fun listed => isBound ((same _).mp listed), same]
  simp only [mem_settleEmptyArray, bound]

/-! ### Arrays of elements -/

/-- The names are those of arrays, maybe with the type of an empty array beside another one, and
`static[]` is not among them unless `owner` has that name. -/
structure Arrayed (owner : String) (names : Names) : Prop where
  arrays : ∀ name ∈ names, name = TypeName.emptyArray ∨ TypeName.isArray name = true
  accompanied : TypeName.emptyArray ∈ names → ∃ name ∈ names, TypeName.isArray name = true
  bound : TypeName.arrayOf TypeName.lateStatic ∈ names → owner = TypeName.lateStatic

/-- The arrays of a value are named as arrays. -/
theorem Gives.exists_arrayOf {name : String} (gives : Gives index owner (.arrayOf deferred) names)
    (listed : name ∈ names) : ∃ element, TypeName.arrayOf element = name := by
  obtain ⟨steps, next, runs⟩ := gives
  obtain ⟨fewer, entry, after, expands, rfl⟩ := exists_run_expand rfl rfl runs
  obtain ⟨inner, middle, -, layered⟩ := run_bind_eq_some.mp expands
  cases layered
  obtain ⟨element, -, same⟩ := mem_bindStatic_arrays.mp listed
  exact ⟨element, same⟩

/-- What the arrays of the elements are called for a value that gives names of arrays. -/
theorem Gives.exists_arrayOf_elementOf (gives : Gives index owner deferred names)
    (arrays : ∀ name ∈ names, name = TypeName.emptyArray ∨ TypeName.isArray name = true) :
    ∃ elements arrays : Names, (∀ name, name ∈ elements ↔ TypeName.arrayOf name ∈ names) ∧
      Gives index owner (.arrayOf (.elementOf deferred)) arrays ∧ ∀ name, name ∈ arrays ↔
        ∃ element ∈ bindStatic owner elements, TypeName.arrayOf element = name := by
  obtain ⟨elements, gathered, mem⟩ := exists_gather_ofElement index names.toList
    fun name listed => arrays name (Std.TreeSet.mem_toList.mp listed)
  exact ⟨elements, _, fun name => by rw [mem, Std.TreeSet.mem_toList],
    gives.layered .elementOf .arrayOf gathered fun _ => rfl, fun name => mem_bindStatic_arrays⟩

theorem Gives.resolve_arrayOf_eq_iff {inner : TypeValue}
    (arrays : Gives index owner (.arrayOf inner) others) (gives : Gives index owner deferred names) :
    resolve index owner (.singleton (.arrayOf inner)) = resolve index owner (.singleton deferred) ↔
      ∀ name, name ∈ others ↔ name ∈ settleEmptyArray names := by
  have settled : settleEmptyArray others = others := settleEmptyArray_eq fun listed => by
    obtain ⟨element, same⟩ := arrays.exists_arrayOf listed
    exact arrayOf_ne rfl same
  rw [gives.resolve_eq, arrays.resolve_eq, settled, toSet_eq_iff]

/-- If a value gives names of arrays, the arrays of its elements are the same names. -/
theorem Gives.resolve_arrayOf_elementOf (gives : Gives index owner deferred names)
    (arrayed : Arrayed owner names) :
    resolve index owner (.singleton (.arrayOf (.elementOf deferred))) =
      resolve index owner (.singleton deferred) := by
  obtain ⟨elements, others, memElements, givesOthers, memOthers⟩ :=
    gives.exists_arrayOf_elementOf arrayed.arrays
  have bound (name : String) : name ∈ bindStatic owner elements ↔ TypeName.arrayOf name ∈ names := by
    rw [mem_bindStatic fun listed => arrayed.bound ((memElements _).mp listed), memElements]
  refine (givesOthers.resolve_arrayOf_eq_iff gives).mpr fun name => ?_
  rw [memOthers, mem_settleEmptyArray]
  constructor
  · rintro ⟨element, listed, rfl⟩
    exact ⟨arrayOf_ne rfl, .inl ((bound element).mp listed)⟩
  · rintro ⟨different, listed | ⟨-, listed, none⟩⟩
    · have same := arrayOf_element ((arrayed.arrays name listed).resolve_left different)
      exact ⟨_, (bound _).mpr (same.symm ▸ listed), same⟩
    · obtain ⟨other, listedToo, isArray⟩ := arrayed.accompanied listed
      cases (none other listedToo).symm.trans isArray

/-- If the arrays of the elements of a value are what the value resolves to, then it gives names of
arrays. -/
theorem Gives.arrayed (gives : Gives index owner deferred names)
    (same : resolve index owner (.singleton (.arrayOf (.elementOf deferred))) =
      resolve index owner (.singleton deferred)) : Arrayed owner names := by
  have arrays (name : String) (listed : name ∈ settleEmptyArray names) :
      ∃ element, TypeName.arrayOf element = name := by
    obtain ⟨others, givesOthers⟩ := exists_gives index owner (.arrayOf (.elementOf deferred))
    have sameNames := (givesOthers.resolve_arrayOf_eq_iff gives).mp same
    exact givesOthers.exists_arrayOf ((sameNames name).mpr listed)
  have arraysOrEmpty (name : String) (listed : name ∈ names) :
      name = TypeName.emptyArray ∨ TypeName.isArray name = true := by
    refine or_iff_not_imp_left.mpr fun different => ?_
    obtain ⟨element, rfl⟩ := arrays name (mem_settleEmptyArray.mpr ⟨different, .inl listed⟩)
    exact isArray_arrayOf element
  obtain ⟨elements, others, memElements, givesOthers, memOthers⟩ :=
    gives.exists_arrayOf_elementOf arraysOrEmpty
  have sameNames := (givesOthers.resolve_arrayOf_eq_iff gives).mp same
  refine ⟨arraysOrEmpty, fun listed => ?_, fun listed => ?_⟩
  · by_contra none
    have elementless (name : String) : name ∉ elements := fun found =>
      none ⟨_, (memElements name).mp found, isArray_arrayOf name⟩
    have found := (sameNames "mixed[]").mpr (mem_settleEmptyArray.mpr ⟨by decide, .inr ⟨rfl, listed,
      fun other found => eq_false_of_ne_true fun isArray => none ⟨other, found, isArray⟩⟩⟩)
    obtain ⟨element, bound, -⟩ := (memOthers _).mp found
    rcases mem_bindStatic_iff.mp bound with ⟨found, -⟩ | ⟨-, -, found⟩ <;> exact elementless _ found
  · have found := (sameNames _).mpr (mem_settleEmptyArray.mpr ⟨by decide, .inl listed⟩)
    obtain ⟨element, bound, isStatic⟩ := (memOthers _).mp found
    rw [arrayOf_inj.mp isStatic] at bound
    exact Resolution.eq_of_lateStatic_mem bound

/-- The arrays of the elements of a value resolve to the value if and only if what it gives is named
as arrays. -/
theorem resolve_arrayOf_elementOf_eq_iff (index : Index) (owner : String) (deferred : TypeValue) :
    ∃ names, Gives index owner deferred names ∧
      (resolve index owner (.singleton (.arrayOf (.elementOf deferred))) =
          resolve index owner (.singleton (TypeValue.elementOf deferred).inArray) ↔
        Arrayed owner names) := by
  obtain ⟨names, gives⟩ := exists_gives index owner deferred
  exact ⟨names, gives, gives.arrayed, gives.resolve_arrayOf_elementOf⟩

/-- The elements of a number are nothing, so nothing is left in the arrays of them. -/
theorem resolve_arrayOf_elementOf_ne :
    ¬ ∀ (index : Index) (owner : String) (deferred : TypeValue),
      resolve index owner (.singleton (.arrayOf (.elementOf deferred))) =
        resolve index owner (.singleton (TypeValue.elementOf deferred).inArray) := by
  intro same
  have lost := congrArg TypeSet.names (same Index.empty "" (.concrete "int"))
  revert lost
  decide

end

end PhpAudit.Resolution
