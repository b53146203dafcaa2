/-
This file proves that the walks through class hierarchies end, cyclic hierarchies included. A walk
marks the keys of the classes it passes through and goes on only from a class that is indexed and
was not marked, so the indexed classes that are not marked bound its depth. What a walk finds is
declared by an indexed class or trait.
-/

import PhpAudit.Hierarchy
import PhpAudit.Proofs.Resolution.Settling
import PhpAudit.Proofs.Symbol.Merged

namespace PhpAudit.Hierarchy

/-! ### Marks of a walk -/

/-- The keys that a walk can go on from. -/
def indexedKeys (index : Index) : List String :=
  index.classes.keys ++ index.traits.keys

def visits (visited : Visited) (key : String) : Bool :=
  visited.contains key

/-- The classes and traits of an index. -/
def declarers (index : Index) : List ClassInfo :=
  index.classes.values ++ index.traits.values

theorem length_indexedKeys (index : Index) : (indexedKeys index).length + 1 = depth index := by
  simp [indexedKeys, depth]

theorem grows_insert (visited : Visited) (key : String) :
    Grows visits visited (visited.insert key) := by
  intro mark set
  unfold visits at set ⊢
  rw [Std.TreeSet.contains_insert, set, Bool.or_true]

theorem mem_keys_values {table : Std.TreeMap String ClassInfo} {key : String} {info : ClassInfo}
    (found : table[key]? = some info) : key ∈ table.keys ∧ info ∈ table.values := by
  rw [Std.TreeMap.mem_keys, Std.TreeMap.mem_iff_isSome_getElem?, found]
  exact ⟨rfl, Merged.mem_values.mpr ⟨key, found⟩⟩

theorem class?_some {index : Index} {name : String} {info : ClassInfo}
    (found : index.class? name = some info) :
    symbolKey name ∈ indexedKeys index ∧ info ∈ declarers index := by
  obtain ⟨key, value⟩ := mem_keys_values found
  exact ⟨List.mem_append_left _ key, List.mem_append_left _ value⟩

theorem classOrTrait?_some {index : Index} {name : String} {info : ClassInfo}
    (found : index.classOrTrait? name = some info) :
    symbolKey name ∈ indexedKeys index ∧ info ∈ declarers index := by
  rw [Index.classOrTrait?, Option.orElse_eq_orElse, Option.orElse_eq_or, Option.or_eq_some_iff]
    at found
  rcases found with found | ⟨-, found⟩
  · exact class?_some found
  · obtain ⟨key, value⟩ := mem_keys_values found
    exact ⟨List.mem_append_right _ key, List.mem_append_right _ value⟩

/-! ### Parts of a walk -/

section

variable {Answer Found : Type} {index : Index} {visited : Visited}

/-- What is found satisfies `holds`. -/
def Finds (holds : Found → Prop) (answer : Option Found) : Prop :=
  ∀ found, answer = some found → holds found

/-- A walk goes on only from an indexed class that it had not visited. -/
theorem settles_entering {lookup : String → Option ClassInfo} {name : String} {missed : Answer}
    {first second : ClassInfo → Walking Answer} {post : Answer → Prop}
    (known : ∀ info, lookup name = some info →
      symbolKey name ∈ indexedKeys index ∧ info ∈ declarers index)
    (holds : post missed)
    (entered : ∀ info start, info ∈ declarers index →
      (∀ later, Grows visits start later →
        remaining visits (indexedKeys index) later < remaining visits (indexedKeys index) visited) →
      Settles visits (first info) (second info) start post) :
    Settles visits (entering lookup name missed first) (entering lookup name missed second) visited
      post := by
  unfold entering
  refine .get_bind ?_
  split
  · exact .pure holds
  · next unvisited =>
    refine .modify_bind (grows_insert visited _) ?_
    split
    · exact .pure holds
    · next info found =>
      obtain ⟨indexed, declares⟩ := known info found
      refine entered info _ declares fun later grows => ?_
      refine ((grows_insert visited _).trans grows).remaining_lt indexed ?_ (grows _ ?_)
      · exact Bool.eq_false_of_not_eq_true unvisited
      · exact Std.TreeSet.contains_insert_self

/-- Both computations settle on every name, from every state that has the marks of `start`. -/
def SettlesFrom (start : Visited) (first second : String → Walking Answer)
    (post : Answer → Prop) : Prop :=
  ∀ later, Grows visits start later → ∀ name, Settles visits (first name) (second name) later post

theorem SettlesFrom.grow {start : Visited} {first second : String → Walking Answer}
    {post : Answer → Prop} (walks : SettlesFrom start first second post)
    (grows : Grows visits start visited) : SettlesFrom visited first second post :=
  fun later growsOn name => walks later (grows.trans growsOn) name

theorem settles_firstHit {holds : Found → Prop} {first second : String → Walking (Option Found)}
    (walks : SettlesFrom visited first second (Finds holds)) (names : List String) :
    Settles visits (firstHit first names) (firstHit second names) visited
      (Finds fun hit => holds hit.2) := by
  induction names generalizing visited with
  | nil => exact .pure fun _ equal => by cases equal
  | cons name rest inductionHypothesis =>
    unfold firstHit
    refine (walks visited (.refl visited) name).bind fun answer next grows finds => ?_
    cases answer with
    | none => exact inductionHypothesis (walks.grow grows)
    | some found =>
      refine .pure fun hit equal => ?_
      cases equal
      exact finds found rfl

theorem prefer_or (current : Option FoundMethod) (candidate : FoundMethod) :
    current = some (prefer current candidate) ∨ prefer current candidate = candidate := by
  unfold prefer
  split
  · split
    · exact Or.inl rfl
    · exact Or.inr rfl
  · exact Or.inr rfl

theorem Finds.prefer {holds : FoundMethod → Prop} {current : Option FoundMethod}
    (finds : Finds holds current) (candidate : FoundMethod) (candidateHolds : holds candidate) :
    Finds holds (some (prefer current candidate)) := by
  intro found equal
  cases equal
  rcases prefer_or current candidate with same | same
  · exact finds _ same
  · rwa [same]

theorem settles_fromTraits {declared : FunctionInfo → Prop}
    {first second : String → Walking (Option FoundMethod)}
    (walks : SettlesFrom visited first second (Finds fun found => declared found.info))
    (owner : String) (names : List String) {result : Option FoundMethod}
    (finds : Finds (fun found => declared found.info) result) :
    Settles visits (fromTraits first owner names result) (fromTraits second owner names result)
      visited (Finds fun found => declared found.info) := by
  induction names generalizing visited result with
  | nil => exact .pure finds
  | cons name rest inductionHypothesis =>
    unfold fromTraits
    refine (walks visited (.refl visited) name).bind fun answer next grows hits => ?_
    cases answer with
    | none => exact inductionHypothesis (walks.grow grows) finds
    | some found =>
      have picked := finds.prefer ⟨found.info, owner, some name, !found.info.isAbstract⟩
        (hits found rfl)
      dsimp only
      split
      · exact .pure picked
      · exact inductionHypothesis (walks.grow grows) picked

theorem settles_leadsTo {first second : String → Walking Bool}
    (walks : SettlesFrom visited first second fun _ => True) (target : String)
    (names : List String) :
    Settles visits (leadsTo target first names) (leadsTo target second names) visited
      fun _ => True := by
  induction names generalizing visited with
  | nil => exact .pure trivial
  | cons name rest inductionHypothesis =>
    unfold leadsTo
    split
    · exact .pure trivial
    · refine (walks visited (.refl visited) name).bind fun answer next grows _ => ?_
      cases answer with
      | true => exact .pure trivial
      | false => exact inductionHypothesis (walks.grow grows)

end

/-! ### Steps of the walks -/

section

variable {Answer : Type} {index : Index} {visited : Visited}

/-- Both computations settle on every name from every state in which fewer indexed classes remain
than in `visited`. -/
def SettlesBelow (index : Index) (visited : Visited) (first second : String → Walking Answer)
    (post : Answer → Prop) : Prop :=
  ∀ later, remaining visits (indexedKeys index) later <
    remaining visits (indexedKeys index) visited →
      ∀ name, Settles visits (first name) (second name) later post

def DeclaresMethod (index : Index) (info : FunctionInfo) : Prop :=
  ∃ declarer ∈ declarers index, info ∈ declarer.methods.values

def DeclaresProperty (index : Index) (info : PropertyInfo) : Prop :=
  ∃ declarer ∈ declarers index, info ∈ declarer.properties.values

def DeclaresConstant (index : Index) (info : ConstInfo) : Prop :=
  ∃ declarer ∈ declarers index, info ∈ declarer.constants.values

/-- The method is declared by a class or trait of the index. -/
abbrev FindsMethod (index : Index) : Option FoundMethod → Prop :=
  Finds fun found => DeclaresMethod index found.info

abbrev FindsProperty (index : Index) : Option FoundProperty → Prop :=
  Finds fun found => DeclaresProperty index found.info

abbrev FindsConstant (index : Index) : Option FoundConstant → Prop :=
  Finds fun found => DeclaresConstant index found.info

theorem Finds.none {Found : Type} (holds : Found → Prop) : Finds holds none :=
  fun _ equal => by cases equal

theorem Finds.some {Found : Type} {holds : Found → Prop} {found : Found} (holdsOf : holds found) :
    Finds holds (some found) :=
  fun _ equal => by cases equal; exact holdsOf

theorem settles_methodStep (method : String)
    {first second : Option FoundMethod → String → Walking (Option FoundMethod)}
    (walks : ∀ result, FindsMethod index result →
      SettlesBelow index visited (first result) (second result) (FindsMethod index))
    {result : Option FoundMethod} (finds : FindsMethod index result) (name : String) :
    Settles visits (methodStep index method first result name)
      (methodStep index method second result name) visited (FindsMethod index) := by
  unfold methodStep
  refine settles_entering (fun _ => classOrTrait?_some) finds fun info start declares fewer => ?_
  have from_start {result : Option FoundMethod} (finds : FindsMethod index result) :
      SettlesFrom start (first result) (second result) (FindsMethod index) :=
    fun later grows => walks result finds later (fewer later grows)
  have fresh := from_start (.none _)
  have ownFinds : FindsMethod index (preferOwn method name info result) := by
    unfold preferOwn
    split
    · next own found => exact finds.prefer _ ⟨info, declares, Merged.mem_values.mpr ⟨_, found⟩⟩
    · exact finds
  dsimp only
  split
  · exact .pure ownFinds
  -- its traits
  refine (settles_fromTraits fresh name _ ownFinds).bind fun best visited grows bestFinds => ?_
  split
  · exact .pure bestFinds
  have fresh := fresh.grow grows
  -- the interfaces that it extends
  refine (settles_firstHit fresh _).bind fun hit visited growsOn hits => ?_
  have fresh := fresh.grow growsOn
  split
  · next found => exact .pure (.some (hits _ rfl))
  -- its mixins
  refine (settles_firstHit fresh _).bind fun hit visited growsMore hits => ?_
  have fresh := fresh.grow growsMore
  split
  · next found => exact .pure (.some (hits _ rfl))
  -- the interfaces that it implements, and its parent
  refine (settles_firstHit fresh _).bind fun hit visited growsLast hits => ?_
  have lastFinds : FindsMethod index (preferDeclared best hit) := by
    unfold preferDeclared
    split
    · next found => exact bestFinds.prefer _ (hits _ rfl)
    · exact bestFinds
  split
  · next parent _ =>
    exact from_start lastFinds visited
      (((grows.trans growsOn).trans growsMore).trans growsLast) parent
  · exact .pure lastFinds

theorem settles_propertyStep (property : String)
    {first second : String → Walking (Option FoundProperty)}
    (walks : SettlesBelow index visited first second (FindsProperty index)) (name : String) :
    Settles visits (propertyStep index property first name)
      (propertyStep index property second name) visited (FindsProperty index) := by
  unfold propertyStep
  refine settles_entering (fun _ => classOrTrait?_some) (.none _)
    fun info start declares fewer => ?_
  have fresh : SettlesFrom start first second (FindsProperty index) :=
    fun later grows => walks later (fewer later grows)
  split
  · exact .pure (.none _)
  split
  · next own found =>
    exact .pure (.some ⟨info, declares, Merged.mem_values.mpr ⟨_, found⟩⟩)
  refine (settles_firstHit fresh _).bind fun hit visited grows hits => ?_
  have fresh := fresh.grow grows
  split
  · exact .pure (.some (hits _ rfl))
  refine (settles_firstHit fresh _).bind fun hit visited grows hits => ?_
  have fresh := fresh.grow grows
  split
  · exact .pure (.some (hits _ rfl))
  split
  · next parent _ => exact fresh visited (.refl visited) parent
  · exact .pure (.none _)

theorem constantOfTrait?_finds (index : Index) (constant : String) (traits : List String) :
    FindsConstant index (constantOfTrait? index constant traits) := by
  intro found equal
  obtain ⟨owner, -, declared⟩ := List.exists_of_findSome?_eq_some equal
  obtain ⟨info, known, rfl⟩ := Option.map_eq_some_iff.mp declared
  obtain ⟨declarer, indexed, declares⟩ := Option.bind_eq_some_iff.mp known
  exact ⟨declarer, List.mem_append_right _ (mem_keys_values indexed).2,
    Merged.mem_values.mpr ⟨_, declares⟩⟩

theorem settles_constantStep (constant : String)
    {first second : String → Walking (Option FoundConstant)}
    (walks : SettlesBelow index visited first second (FindsConstant index)) (name : String) :
    Settles visits (constantStep index constant first name)
      (constantStep index constant second name) visited (FindsConstant index) := by
  unfold constantStep
  refine settles_entering (fun _ => class?_some) (.none _) fun info start declares fewer => ?_
  have fresh : SettlesFrom start first second (FindsConstant index) :=
    fun later grows => walks later (fewer later grows)
  refine (settles_firstHit fresh _).bind fun hit visited grows hits => ?_
  have fresh := fresh.grow grows
  split
  · exact .pure (.some (hits _ rfl))
  split
  · next own found =>
    exact .pure (.some ⟨info, declares, Merged.mem_values.mpr ⟨_, found⟩⟩)
  refine (settles_firstHit fresh _).bind fun hit visited grows hits => ?_
  have fresh := fresh.grow grows
  split
  · exact .pure (.some (hits _ rfl))
  split
  · next found => exact .pure (.some (constantOfTrait?_finds _ _ _ _ found))
  split
  · next parent _ => exact fresh visited (.refl visited) parent
  · exact .pure (.none _)

theorem settles_interfaceStep (target : String) {first second : String → Walking Bool}
    (walks : SettlesBelow index visited first second fun _ => True) (name : String) :
    Settles visits (interfaceStep index target first name) (interfaceStep index target second name)
      visited fun _ => True := by
  unfold interfaceStep
  refine settles_entering (fun _ => class?_some) trivial fun info start declares fewer => ?_
  have fresh : SettlesFrom start first second fun _ => True :=
    fun later grows => walks later (fewer later grows)
  refine (settles_leadsTo fresh target _).bind fun leads visited grows _ => ?_
  split
  · exact .pure trivial
  split
  · next parent _ => exact fresh visited grows parent
  · exact .pure trivial

theorem settles_parentStep (target : String) {first second : String → Walking Bool}
    (walks : SettlesBelow index visited first second fun _ => True) (name : String) :
    Settles visits (parentStep index target first name) (parentStep index target second name)
      visited fun _ => True := by
  unfold parentStep
  refine settles_entering (fun _ => class?_some) trivial fun info start declares fewer => ?_
  split
  · next parent _ =>
    split
    · exact .pure trivial
    · exact walks start (fewer start (.refl start)) parent
  · exact .pure trivial

end

/-! ### Walks -/

section

variable {Input Answer : Type} (index : Index)

/-- A walk finishes, and gives the same for every number of steps from `depth` on. -/
def Finishes (walk : Nat → Walking Answer) (post : Answer → Prop) : Prop :=
  ∀ visited, ∃ answer next, post answer ∧
    ∀ fuel, depth index ≤ fuel → (walk fuel).run visited = some (answer, next)

/-- A recursion finishes if one step of it settles whenever the walks nested in it do. -/
theorem finishes_of_step (step : (Input → Walking Answer) → Input → Walking Answer)
    (walk : Nat → Input → Walking Answer) (pre : Input → Prop) {post : Answer → Prop}
    (unfolds : ∀ fuel input, walk (fuel + 1) input = step (walk fuel) input)
    (stepped : ∀ first second visited input, pre input →
      (∀ later, remaining visits (indexedKeys index) later <
        remaining visits (indexedKeys index) visited → ∀ input, pre input →
          Settles visits (first input) (second input) later post) →
      Settles visits (step first input) (step second input) visited post)
    (input : Input) (allowed : pre input) :
    Finishes index (fun fuel => walk fuel input) post := by
  intro visited
  have bounded : remaining visits (indexedKeys index) visited < depth index := by
    rw [← length_indexedKeys]
    exact Nat.lt_succ_of_le (remaining_le visited)
  exact exists_of_settles (fun fuel => walk fuel input) fun fuel enough =>
    settles_nested step walk pre unfolds stepped input allowed bounded (bounded.trans_le enough)

theorem finishes_of_named_step (step : (String → Walking Answer) → String → Walking Answer)
    (walk : Nat → String → Walking Answer) {post : Answer → Prop}
    (unfolds : ∀ fuel name, walk (fuel + 1) name = step (walk fuel) name)
    (stepped : ∀ first second visited name, SettlesBelow index visited first second post →
      Settles visits (step first name) (step second name) visited post) (name : String) :
    Finishes index (fun fuel => walk fuel name) post :=
  finishes_of_step index step walk (fun _ => True) unfolds
    (fun first second visited name _ walks =>
      stepped first second visited name fun later fewer name => walks later fewer name trivial)
    name trivial

theorem finishes_methodWalk (method : String) {result : Option FoundMethod}
    (finds : FindsMethod index result) (name : String) :
    Finishes index (fun fuel => methodWalk index method fuel result name) (FindsMethod index) :=
  finishes_of_step index
    (fun walk (result, name) => methodStep index method (fun result name => walk (result, name))
      result name)
    (fun fuel (result, name) => methodWalk index method fuel result name)
    (fun (result, _) => FindsMethod index result) (fun _ _ => rfl)
    (fun _ _ _ (_, name) finds walks => settles_methodStep method
      (fun result finds later fewer name => walks later fewer (result, name) finds) finds name)
    (result, name) finds

theorem finishes_propertyWalk (property name : String) :
    Finishes index (fun fuel => propertyWalk index property fuel name) (FindsProperty index) :=
  finishes_of_named_step index (propertyStep index property) (propertyWalk index property)
    (fun _ _ => rfl) (fun _ _ _ name walks => settles_propertyStep property walks name) name

theorem finishes_constantWalk (constant name : String) :
    Finishes index (fun fuel => constantWalk index constant fuel name) (FindsConstant index) :=
  finishes_of_named_step index (constantStep index constant) (constantWalk index constant)
    (fun _ _ => rfl) (fun _ _ _ name walks => settles_constantStep constant walks name) name

theorem finishes_interfaceWalk (target name : String) :
    Finishes index (fun fuel => interfaceWalk index target fuel name) fun _ => True :=
  finishes_of_named_step index (interfaceStep index target) (interfaceWalk index target)
    (fun _ _ => rfl) (fun _ _ _ name walks => settles_interfaceStep target walks name) name

theorem finishes_parentWalk (target name : String) :
    Finishes index (fun fuel => parentWalk index target fuel name) fun _ => True :=
  finishes_of_named_step index (parentStep index target) (parentWalk index target)
    (fun _ _ => rfl) (fun _ _ _ name walks => settles_parentStep target walks name) name

end

/-! ### Lookups -/

section

variable {Found : Type} {index : Index}

/-- A walk that is asked for nothing it has not found gives what it finds. -/
theorem finds_of_outcome? {walk : Nat → Walking (Option Found)} {post : Option Found → Prop}
    (finishes : Finishes index walk post) {found : Found}
    (outcome : (outcome? (walk (depth index))).join = some found) : post (some found) := by
  obtain ⟨answer, next, holds, runs⟩ := finishes {}
  rw [outcome?, runs (depth index) le_rfl, Option.map_some, Option.join_some] at outcome
  rwa [← outcome]

theorem known_of_outcome? {lookup : String → Option ClassInfo} {name : String}
    {walk : ClassInfo → Walking (Option Found)} {found : Found}
    (outcome : (outcome? (entering lookup name none walk)).join = some found) :
    ∃ info, lookup name = some info := by
  cases known : lookup name with
  | some info => exact ⟨info, rfl⟩
  | none =>
    have missed : (entering lookup name none walk).run {} =
        some (none, Std.TreeSet.insert {} (symbolKey name)) := by
      unfold entering
      rw [known]
      rfl
    rw [outcome?, missed] at outcome
    cases outcome

/-- A method is found only for a name of the index, and some class or trait declares it. -/
theorem findMethod?_some {name method : String} {found : FoundMethod}
    (known : findMethod? index name method = some found) :
    symbolKey name ∈ indexedKeys index ∧ DeclaresMethod index found.info := by
  constructor
  · obtain ⟨info, indexed⟩ := known_of_outcome? known
    exact (classOrTrait?_some indexed).1
  · exact finds_of_outcome? (finishes_methodWalk index method (.none _) name) known found rfl

theorem findProperty?_some {name property : String} {found : FoundProperty}
    (known : findProperty? index name property = some found) :
    symbolKey name ∈ indexedKeys index ∧ DeclaresProperty index found.info := by
  constructor
  · obtain ⟨info, indexed⟩ := known_of_outcome? known
    exact (classOrTrait?_some indexed).1
  · exact finds_of_outcome? (finishes_propertyWalk index property name) known found rfl

theorem findConstant?_some {name constant : String} {found : FoundConstant}
    (known : findConstant? index name constant = some found) :
    DeclaresConstant index found.info :=
  finds_of_outcome? (finishes_constantWalk index constant name) known found rfl

end

end PhpAudit.Hierarchy
