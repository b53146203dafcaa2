/-
This file proves that resolution ends, whatever cycles the index has among results, properties,
parents, interfaces, traits and mixins. A step may go on with another class, and with values of the
index instead of parts of its own value, so nothing about its argument shrinks. But it expands only
pairs of a value and a class that are not in the memo yet, and only finitely many pairs can occur:
the classes are the first one and those for which a lookup succeeds, which are named in the index,
and the values are parts of the set and of the index.
-/

import Mathlib.Data.List.ProdSigma
import PhpAudit.Proofs.Resolution.Universe

namespace PhpAudit.Resolution

open Hierarchy

/-! ### What lookups give -/

section

variable {index : Index}

theorem drawn_of_class {info : ClassInfo} (declares : info ∈ declarers index) {types : TypeSet}
    (listed : types ∈ classSets info) : DrawnFrom index types := by
  refine .of_mem ?_
  simp only [indexSets, List.mem_append, List.mem_flatMap]
  rcases List.mem_append.mp declares with declares | declares
  · exact Or.inl (Or.inl (Or.inl (Or.inl ⟨info, declares, listed⟩)))
  · exact Or.inl (Or.inl (Or.inl (Or.inr ⟨info, declares, listed⟩)))

theorem drawn_of_method {info : FunctionInfo} (declares : DeclaresMethod index info)
    {types : TypeSet} (listed : types ∈ functionSets info) : DrawnFrom index types := by
  obtain ⟨declarer, indexed, declared⟩ := declares
  refine drawn_of_class indexed ?_
  simp only [classSets, List.mem_append, List.mem_flatMap]
  exact Or.inl (Or.inl ⟨info, declared, listed⟩)

theorem drawn_of_property {info : PropertyInfo} (declares : DeclaresProperty index info) :
    DrawnFrom index info.types := by
  obtain ⟨declarer, indexed, declared⟩ := declares
  refine drawn_of_class indexed ?_
  simp only [classSets, List.mem_append]
  exact Or.inl (Or.inr (List.mem_map_of_mem declared))

theorem drawn_of_constant {info : ConstInfo} (declares : DeclaresConstant index info) :
    DrawnFrom index info.types := by
  obtain ⟨declarer, indexed, declared⟩ := declares
  refine drawn_of_class indexed ?_
  simp only [classSets, List.mem_append]
  exact Or.inr (List.mem_map_of_mem declared)

/-- What a method that is found returns. -/
theorem drawn_of_findMethod? {name method : String} {found : FoundMethod}
    (known : findMethod? index name method = some found) : DrawnFrom index found.info.types :=
  drawn_of_method (findMethod?_some known).2 List.mem_cons_self

theorem known_of_rootFallback? {Info : Type} {lookup : String → Option Info} {name : String}
    {info : Info} (known : (lookup name <|> (rootFallback? name).bind lookup) = some info) :
    ∃ name, lookup name = some info := by
  rw [Option.orElse_eq_orElse, Option.orElse_eq_or, Option.or_eq_some_iff] at known
  rcases known with known | ⟨-, known⟩
  · exact ⟨name, known⟩
  · obtain ⟨root, -, known⟩ := Option.bind_eq_some_iff.mp known
    exact ⟨root, known⟩

theorem drawn_of_functionOrGlobal? {name : String} {info : FunctionInfo}
    (known : functionOrGlobal? index name = some info) : DrawnFrom index info.types := by
  obtain ⟨_, known⟩ := known_of_rootFallback? known
  refine .of_mem ?_
  simp only [indexSets, List.mem_append, List.mem_flatMap]
  exact Or.inl (Or.inl (Or.inr ⟨info, Merged.mem_values.mpr ⟨_, known⟩, List.mem_cons_self⟩))

theorem drawn_of_constantOrGlobal? {name : String} {info : ConstInfo}
    (known : constantOrGlobal? index name = some info) : DrawnFrom index info.types := by
  obtain ⟨_, known⟩ := known_of_rootFallback? known
  refine .of_mem ?_
  simp only [indexSets, List.mem_append]
  exact Or.inl (Or.inr (List.mem_map_of_mem (Merged.mem_values.mpr ⟨_, known⟩)))

theorem mem_append {set other : TypeSet} {value : TypeValue}
    (member : value ∈ (set.append other).members) :
    value ∈ set.members ∨ value ∈ other.members := by
  unfold TypeSet.append at member
  split at member
  · exact Or.inl member
  · split at member
    · exact Or.inr member
    · exact TypeValue.mem_insertAll.mp member

theorem mem_foldl_append {sets : List TypeSet} {start : TypeSet} {value : TypeValue}
    (member : value ∈ (sets.foldl TypeSet.append start).members) :
    value ∈ start.members ∨ ∃ set ∈ sets, value ∈ set.members := by
  induction sets generalizing start with
  | nil => exact Or.inl member
  | cons set rest inductionHypothesis =>
    rcases inductionHypothesis member with member | ⟨other, listed, member⟩
    · rcases mem_append member with member | member
      · exact Or.inl member
      · exact Or.inr ⟨set, List.mem_cons_self, member⟩
    · exact Or.inr ⟨other, List.mem_cons_of_mem _ listed, member⟩

theorem drawn_of_global? {name : String} {types : TypeSet}
    (known : index.global? name = some types) : DrawnFrom index types := by
  unfold Index.global? at known
  split at known
  · cases known
  · cases known
    intro value member
    rcases mem_foldl_append member with member | ⟨set, listed, member⟩
    · cases member
    · obtain ⟨symbols, indexed, declared⟩ := List.mem_filterMap.mp listed
      refine ⟨set, ?_, member⟩
      simp only [indexSets, List.mem_append, List.mem_flatMap]
      exact Or.inr ⟨symbols, indexed, Merged.mem_values.mpr ⟨_, declared⟩⟩

theorem drawn_of_baseParam? {position : Nat} {owner method : String} {types : TypeSet}
    (known : baseParam? index position owner method = some types) : DrawnFrom index types := by
  obtain ⟨info, -, known⟩ := Option.bind_eq_some_iff.mp known
  obtain ⟨interface, -, known⟩ := List.exists_of_findSome?_eq_some known
  obtain ⟨declared, known, param⟩ := Option.bind_eq_some_iff.mp known
  obtain ⟨declarer, indexed, declares⟩ := Option.bind_eq_some_iff.mp known
  obtain ⟨param, found, rfl⟩ := Option.map_eq_some_iff.mp param
  refine drawn_of_method
    ⟨declarer, (class?_some indexed).2, Merged.mem_values.mpr ⟨_, declares⟩⟩ ?_
  exact List.mem_cons_of_mem _ (List.mem_map_of_mem (List.mem_of_getElem? found))

/-- What is under a key of a shape. -/
theorem drawn_of_shape {name key : String} {info : PropertyInfo}
    (known : (index.class? name).bind (·.property? key) = some info) :
    DrawnFrom index info.types := by
  obtain ⟨declarer, indexed, declares⟩ := Option.bind_eq_some_iff.mp known
  exact drawn_of_property
    ⟨declarer, (class?_some indexed).2, Merged.mem_values.mpr ⟨_, declares⟩⟩

end

/-! ### Expansions that settle -/

/-- The memo has an entry for the pair. -/
def isKnown (memo : Memo) (key : Key) : Bool :=
  (memo.lookup key).isSome

theorem grows_cons (memo : Memo) (key : Key) (names : Names) :
    Grows isKnown memo ((key, names) :: memo) := by
  intro other known
  unfold isKnown at known ⊢
  rw [List.lookup_cons]
  split
  · rfl
  · exact known

/-- Both computations settle from the memo. -/
abbrev Alike (first second : Resolving Names) (memo : Memo) : Prop :=
  Settles isKnown first second memo fun _ => True

section

variable (index : Index) (types : TypeSet) (root : String)

/-- Both resolvers settle on what can occur, from every memo that knows what `memo` knows. -/
def ResolveAlike (first second : String → TypeValue → Resolving Names) (memo : Memo) : Prop :=
  ∀ later, Grows isKnown memo later → ∀ owner ∈ owners index root,
    ∀ value ∈ values index types, Alike (first owner value) (second owner value) later

variable {index types root} {first second : String → TypeValue → Resolving Names} {memo : Memo}

theorem ResolveAlike.grow (resolves : ResolveAlike index types root first second memo)
    {next : Memo} (grows : Grows isKnown memo next) :
    ResolveAlike index types root first second next :=
  fun later growsOn => resolves later (grows.trans growsOn)

theorem alike_gather {Source : Type} {step other : Source → Resolving Names}
    (sources : List Source)
    (steps : ∀ later, Grows isKnown memo later → ∀ source ∈ sources,
      Alike (step source) (other source) later) :
    Alike (gather step sources) (gather other sources) memo := by
  induction sources generalizing memo with
  | nil => exact .pure trivial
  | cons source rest inductionHypothesis =>
    unfold gather
    refine (steps memo (.refl memo) source List.mem_cons_self).bind fun names next grows _ => ?_
    refine Settles.bind (inductionHypothesis fun later growsOn source listed => ?_)
      fun names next _ _ => .pure trivial
    exact steps later (grows.trans growsOn) source (List.mem_cons_of_mem _ listed)

namespace ResolveAlike

variable (resolves : ResolveAlike index types root first second memo)
include resolves

theorem ofSet {owner : String} (named : owner ∈ owners index root) {set : TypeSet}
    (occur : ∀ value ∈ set.members, value ∈ values index types) :
    Alike (ofSet first owner set) (ofSet second owner set) memo :=
  .map settleEmptyArray (alike_gather set.members fun later grows value member =>
    resolves later grows owner named value (occur value member)) fun _ _ => trivial

theorem ofDrawn {owner : String} (named : owner ∈ owners index root) {set : TypeSet}
    (drawn : DrawnFrom index set) :
    Alike (Resolution.ofSet first owner set) (Resolution.ofSet second owner set) memo :=
  resolves.ofSet named fun _ => drawn.mem_values

/-- What a method returns, for the class in which it was looked up. -/
theorem ofFound {name method : String} {found : FoundMethod}
    (known : findMethod? index name method = some found) :
    Alike (Resolution.ofSet first name found.info.types)
      (Resolution.ofSet second name found.info.types) memo :=
  resolves.ofDrawn (mem_owners root (findMethod?_some known).1) (drawn_of_findMethod? known)

theorem ofMethod (instances : List String) (method : String) :
    Alike (ofMethod index first instances method) (ofMethod index second instances method)
      memo := by
  refine alike_gather instances fun later grows name _ => ?_
  split
  · exact .pure trivial
  · next found known =>
    exact ((resolves.grow grows).ofFound known).bind fun _ _ _ _ => .pure trivial

theorem ofElement (name : String) :
    Alike (ofElement index first name) (ofElement index second name) memo := by
  unfold Resolution.ofElement
  split
  · exact .pure trivial
  split
  · exact .pure trivial
  split
  · split
    · next found known =>
      obtain ⟨accessor, -, known⟩ := Option.bind_eq_some_iff.mp known
      exact resolves.ofFound known
    · exact .pure trivial
  · exact .pure trivial

theorem ofElementAt {owner : String} (named : owner ∈ owners index root) (key name : String) :
    Alike (ofElementAt index first owner key name) (ofElementAt index second owner key name)
      memo := by
  unfold Resolution.ofElementAt
  split
  · split
    · next found known => exact resolves.ofDrawn named (drawn_of_shape known)
    · exact .pure trivial
  · exact resolves.ofElement name

theorem ofProperty {owner : String} (named : owner ∈ owners index root)
    (property name : String) :
    Alike (ofProperty index first owner property name)
      (ofProperty index second owner property name) memo := by
  unfold Resolution.ofProperty
  split
  · next found known =>
    exact resolves.ofDrawn named (drawn_of_property (findProperty?_some known).2)
  · split
    · next getter known => exact resolves.ofFound known
    · exact .pure trivial

theorem expand {owner : String} (named : owner ∈ owners index root) {value : TypeValue}
    (occurs : value ∈ values index types) :
    Alike (expand index first owner value) (expand index second owner value) memo := by
  have inner {part : TypeValue} (isPart : part ∈ parts value) :
      Alike (first owner part) (second owner part) memo :=
    resolves memo (.refl memo) owner named part (parts_subset_values occurs isPart)
  cases value with
  | concrete name => exact .pure trivial
  | global name =>
    simp only [Resolution.expand]
    split
    · next known => exact resolves.ofDrawn named (drawn_of_global? known)
    · exact .pure trivial
  | constant name =>
    simp only [Resolution.expand]
    split
    · next known => exact resolves.ofDrawn named (drawn_of_constantOrGlobal? known)
    · exact .pure trivial
  | functionCall name =>
    simp only [Resolution.expand]
    split
    · next known => exact resolves.ofDrawn named (drawn_of_functionOrGlobal? known)
    · exact .pure trivial
  | arrayOf element =>
    refine (inner ?_).bind fun _ _ _ _ => .pure trivial
    simp [parts, mem_parts]
  | elementOf array =>
    refine (inner ?_).bind fun names next grows _ => alike_gather _ fun later growsOn name _ => ?_
    · simp [parts, mem_parts]
    · exact (resolves.grow (grows.trans growsOn)).ofElement name
  | elementAt array key =>
    refine (inner ?_).bind fun names next grows _ => alike_gather _ fun later growsOn name _ => ?_
    · simp [parts, mem_parts]
    · exact (resolves.grow (grows.trans growsOn)).ofElementAt named key name
  | methodCall object method =>
    refine (inner ?_).bind fun instances next grows _ => ?_
    · simp [parts, mem_parts]
    have later := resolves.grow grows
    refine (later.ofMethod instances.toList method).bind fun names next growsOn _ => ?_
    split
    · exact (later.grow growsOn).ofMethod instances.toList "__call"
    · exact .pure trivial
  | property object property =>
    refine (inner ?_).bind fun names next grows _ => alike_gather _ fun later growsOn name _ => ?_
    · simp [parts, mem_parts]
    · exact (resolves.grow (grows.trans growsOn)).ofProperty named property name
  | staticCall called method =>
    simp only [Resolution.expand]
    split
    · next found known => exact (resolves.ofFound known).bind fun _ _ _ _ => .pure trivial
    · split
      · next magic known => exact resolves.ofFound known
      · exact .pure trivial
  | staticProperty called property =>
    simp only [Resolution.expand]
    split
    · next found known =>
      obtain ⟨indexed, declares⟩ := findProperty?_some known
      exact (resolves.ofDrawn (mem_owners root indexed) (drawn_of_property declares)).bind
        fun _ _ _ _ => .pure trivial
    · exact .pure trivial
  | classConstant called constant =>
    simp only [Resolution.expand]
    split
    · next found known =>
      exact resolves.ofDrawn named (drawn_of_constant (findConstant?_some known))
    · exact .pure trivial
  | baseParam position called method =>
    simp only [Resolution.expand]
    split
    · next known => exact resolves.ofDrawn named (drawn_of_baseParam? known)
    · exact .pure trivial

end ResolveAlike

/-- The pairs that can occur. -/
def pairs (index : Index) (types : TypeSet) (root : String) : List Key :=
  values index types ×ˢ owners index root

theorem length_pairs (index : Index) (types : TypeSet) (root : String) :
    (pairs index types root).length + 2 = stepBound index types := by
  rw [pairs, List.length_product, length_values, length_owners, stepBound]

/-- A step expands a pair only while the memo has no entry for it, and enters it before. -/
theorem alike_remembered {owner : String} (named : owner ∈ owners index root) {value : TypeValue}
    (occurs : value ∈ values index types)
    (below : ∀ later, remaining isKnown (pairs index types root) later <
      remaining isKnown (pairs index types root) memo → ∀ owner ∈ owners index root,
        ∀ value ∈ values index types, Alike (first owner value) (second owner value) later) :
    Alike (remembered index first owner value) (remembered index second owner value) memo := by
  unfold remembered
  split
  · exact .pure trivial
  refine .get_bind ?_
  split
  · exact .pure trivial
  · next unknown =>
    refine .modify_bind (grows_cons memo (value, owner) {}) ?_
    have resolves : ResolveAlike index types root first second (((value, owner), {}) :: memo) := by
      intro later grows
      refine below later (((grows_cons memo _ _).trans grows).remaining_lt
        (List.mem_product.mpr ⟨occurs, named⟩) ?_ (grows _ ?_))
      · simp [isKnown, unknown]
      · simp [isKnown]
    refine (resolves.expand named occurs).bind fun names next _ _ => ?_
    exact .modify_bind (grows_cons next _ _) (.pure trivial)

end

/-! ### Resolution -/

/-- Two bounds on the nesting that exceed the number of pairs without an entry settle. -/
theorem alike_value (index : Index) (types : TypeSet) (root : String) {memo : Memo}
    {fuel more : Nat} (enough : remaining isKnown (pairs index types root) memo < fuel)
    (enoughToo : remaining isKnown (pairs index types root) memo < more) {owner : String}
    (named : owner ∈ owners index root) {deferred : TypeValue}
    (occurs : deferred ∈ values index types) :
    Alike (value index fuel owner deferred) (value index more owner deferred) memo :=
  settles_nested
    (fun resolve (owner, deferred) => bindStatic owner <$>
      remembered index (fun owner value => resolve (owner, value)) owner deferred)
    (fun fuel (owner, deferred) => value index fuel owner deferred)
    (fun (owner, deferred) => owner ∈ owners index root ∧ deferred ∈ values index types)
    (fun _ _ => rfl)
    (fun _ _ _ (_, _) allowed below =>
      .map _ (alike_remembered allowed.1 allowed.2 fun later fewer owner named value occurs =>
        below later fewer (owner, value) ⟨named, occurs⟩) fun _ _ => trivial)
    (owner, deferred) ⟨named, occurs⟩ enough enoughToo

/-- Resolving a set in `stepBound` nested steps or more finishes, always alike. -/
theorem exists_run? (index : Index) (owner : String) (types : TypeSet) (memo : Memo) :
    ∃ names next, ∀ fuel, stepBound index types ≤ fuel →
      run? index fuel owner types memo = some (names, next) := by
  have below (later : Memo) :
      remaining isKnown (pairs index types owner) later < stepBound index types := by
    have atMost : remaining isKnown (pairs index types owner) later ≤ _ := remaining_le later
    rw [← length_pairs index types owner]
    omega
  have settles (fuel : Nat) (enough : stepBound index types ≤ fuel) :
      Alike (ofSet (value index (stepBound index types)) owner types)
        (ofSet (value index fuel) owner types) memo := by
    have resolves : ResolveAlike index types owner (value index (stepBound index types))
        (value index fuel) memo := fun later _ name named deferred occurs =>
      alike_value index types owner (below later) ((below later).trans_le enough) named occurs
    refine resolves.ofSet List.mem_cons_self fun deferred member => ?_
    exact mem_values.mpr ⟨deferred, mem_parts deferred, Or.inr member⟩
  obtain ⟨names, next, -, runs⟩ := exists_of_settles
    (fun fuel => ofSet (value index fuel) owner types) settles
  exact ⟨names, next, runs⟩

/-- Resolution ends for every index, class, set and memo: with the bound that it uses it does not
run out of steps, and more steps change nothing. The walks that it calls end as well, from whatever
classes were visited before. -/
theorem resolution_ends (index : Index) (owner : String) (types : TypeSet) (memo : Memo) :
    (∃ names next, resolveWith index owner types memo = (toSet names, next) ∧
      ∀ fuel, stepBound index types ≤ fuel →
        run? index fuel owner types memo = some (names, next)) ∧
    (∀ name method, Finishes index (fun fuel => methodWalk index method fuel none name)
      (FindsMethod index)) ∧
    (∀ name property, Finishes index (fun fuel => propertyWalk index property fuel name)
      (FindsProperty index)) ∧
    (∀ name constant, Finishes index (fun fuel => constantWalk index constant fuel name)
      (FindsConstant index)) ∧
    ∀ name target, Finishes index (fun fuel => interfaceWalk index target fuel name)
      fun _ => True := by
  obtain ⟨names, next, runs⟩ := exists_run? index owner types memo
  refine ⟨⟨names, next, ?_, runs⟩,
    fun name method => finishes_methodWalk index method (.none _) name,
    fun name property => finishes_propertyWalk index property name,
    fun name constant => finishes_constantWalk index constant name,
    fun name target => finishes_interfaceWalk index target name⟩
  rw [resolveWith, runs _ le_rfl]

end PhpAudit.Resolution
