/-
This file proves that a method with a body outranks every declaration without one. In a hierarchy of
the shape that the language allows, a lookup goes through the parents of a class, and stops at the
first one that has a body for the method, of its own or from a trait that it uses. Abstract methods
and interfaces that are met before are only kept for the case that there is no such parent.

All parts of a lookup share the names that were visited. They do not disturb each other: an interface
leads to interfaces only and a trait to traits only, so neither hides a class from the way up. A trait
that was visited before is passed over where another class uses it, but then it was left without a
body for the method, and so were all traits that it leads to.
-/

import PhpAudit.Proofs.Hierarchy.Members

namespace PhpAudit.Hierarchy

/-! ### Hierarchies of classes, interfaces and traits -/

section

variable (index : Index) (name : String)

/-- What is indexed under the name, if anything, is a trait. -/
def IsTrait : Prop :=
  index.class? name = none

/-- What is indexed under the name, if anything, is an interface. -/
def IsInterface : Prop :=
  index.trait? name = none ∧ ∀ info ∈ index.class? name, info.kind = .interface

/-- What is indexed under the name, if anything, is a class. -/
def IsClass : Prop :=
  index.trait? name = none ∧ ∀ info ∈ index.class? name, info.kind ≠ .interface

instance : Decidable (IsTrait index name) :=
  inferInstanceAs (Decidable (_ = none))

instance : Decidable (IsInterface index name) :=
  inferInstanceAs (Decidable (_ ∧ _))

instance : Decidable (IsClass index name) :=
  inferInstanceAs (Decidable (_ ∧ _))

end

/-- The links of an index are between class-likes of the right kinds, and there are no mixins. Links to
names that are not indexed are allowed, and so are cycles. Nothing is asked of the methods: what an
interface has for a body never counts. -/
structure Shaped (index : Index) : Prop where
  unmixed : ∀ info ∈ declarers index, info.mixins = []
  apart : ∀ key ∈ index.classes.keys, key ∉ index.traits.keys
  declared : ∀ info ∈ declarers index, ∀ name ∈ info.interfaces.toList ++ info.parentInterfaces,
    IsInterface index name
  used : ∀ info ∈ declarers index, ∀ name ∈ info.traits.toList, IsTrait index name
  traits : ∀ info ∈ index.traits.values,
    info.parent = none ∧ info.interfaces.toList = [] ∧ info.parentInterfaces = []
  interfaces : ∀ info ∈ index.classes.values, info.kind = .interface →
    info.parent = none ∧ info.interfaces.toList = [] ∧ info.traits.toList = []
  classes : ∀ info ∈ index.classes.values, info.kind ≠ .interface →
    info.parentInterfaces = [] ∧ ∀ parent ∈ info.parent, IsClass index parent

/-! ### Bodies of methods -/

def traitLinks (info : ClassInfo) : List String :=
  info.traits.toList

/-- The method of a class-like, if it has a body. -/
def body? (method : String) (info : ClassInfo) : Option FunctionInfo :=
  (info.method? method).filter fun own => !own.isAbstract

/-- A class uses a trait with the body, directly or through other traits. -/
def Uses (index : Index) (method : String) (info : ClassInfo) (body : FunctionInfo) : Prop :=
  ∃ used ∈ traitLinks info, Offers index.trait? traitLinks (body? method) used body

/-- The class has the body itself, or has none itself and uses a trait with it. -/
def Supplies (index : Index) (method name : String) (body : FunctionInfo) : Prop :=
  ∃ info, index.class? name = some info ∧
    (body? method info = some body ∨ body? method info = none ∧ Uses index method info body)

/-- The class `name` and its parents, up to the first that is not indexed or was passed before. -/
def lineage (index : Index) (passed : Visited) (name : String) : List String :=
  if _ : visits passed (symbolKey name) = true then
    []
  else
    match _ : index.class? name with
    | none => []
    | some info =>
      match info.parent with
      | none => [name]
      | some parent => name :: lineage index (passed.insert (symbolKey name)) parent
termination_by remaining visits (indexedKeys index) passed
decreasing_by
  exact (grows_insert passed _).remaining_lt (class?_some ‹index.class? name = some _›).1
    (Bool.eq_false_of_not_eq_true ‹_›) Std.TreeSet.contains_insert_self

section

variable {index : Index} {method name : String} {info : ClassInfo} {passed : Visited}

theorem lineage_visited (seen : visits passed (symbolKey name) = true) :
    lineage index passed name = [] := by
  rw [lineage, dif_pos seen]

theorem lineage_unknown (unknown : index.class? name = none) : lineage index passed name = [] := by
  rw [lineage]
  split
  · rfl
  · split
    · rfl
    · next found => cases unknown.symm.trans found

theorem lineage_known (unseen : visits passed (symbolKey name) = false)
    (found : index.class? name = some info) : lineage index passed name =
      name :: (info.parent.elim [] (lineage index (passed.insert (symbolKey name)))) := by
  rw [lineage, dif_neg (by rw [unseen]; exact Bool.false_ne_true)]
  split
  · next unknown => cases unknown.symm.trans found
  · next other known =>
    cases known.symm.trans found
    split
    · next orphan => rw [orphan]; rfl
    · next parent extended => rw [extended]; rfl

/-! ### Names of one kind -/

theorem classOrTrait?_eq_of_isTrait (isTrait : IsTrait index name) :
    index.classOrTrait? name = index.trait? name := by
  rw [Index.classOrTrait?, isTrait]
  rfl

theorem classOrTrait?_eq (apart : index.trait? name = none) :
    index.classOrTrait? name = index.class? name := by
  rw [Index.classOrTrait?, apart]
  cases index.class? name <;> rfl

theorem Shaped.trait?_eq_none (shaped : Shaped index) (found : index.class? name = some info) :
    index.trait? name = none := by
  have unlisted := shaped.apart _ (mem_keys_values found).1
  rw [Std.TreeMap.mem_keys] at unlisted
  exact Std.TreeMap.getElem?_eq_none unlisted

/-- Links of a trait lead to traits. -/
theorem Shaped.isTrait_of_link (shaped : Shaped index) (isTrait : IsTrait index name)
    (found : index.classOrTrait? name = some info) {next : String} (link : next ∈ methodLinks info) :
    IsTrait index next := by
  have declares := (classOrTrait?_some found).2
  rw [classOrTrait?_eq_of_isTrait isTrait] at found
  obtain ⟨orphan, bare, flat⟩ := shaped.traits info (mem_keys_values found).2
  simp only [methodLinks, orphan, bare, flat, shaped.unmixed info declares, Option.toList_none,
    List.append_nil] at link
  exact shaped.used info declares next link

/-- Links of an interface lead to interfaces. -/
theorem Shaped.isInterface_of_link (shaped : Shaped index) (isInterface : IsInterface index name)
    (found : index.classOrTrait? name = some info) {next : String} (link : next ∈ methodLinks info) :
    IsInterface index next := by
  have declares := (classOrTrait?_some found).2
  rw [classOrTrait?_eq isInterface.1] at found
  obtain ⟨orphan, bare, traitless⟩ :=
    shaped.interfaces info (mem_keys_values found).2 (isInterface.2 info found)
  simp only [methodLinks, orphan, bare, traitless, shaped.unmixed info declares, Option.toList_none,
    List.append_nil, List.nil_append] at link
  exact shaped.declared info declares next (List.mem_append_right _ link)

end

/-! ### Names that a walk comes to -/

/-- A walk went on to names that satisfy `among` only. -/
structure Within (among : String → Prop) (before after : Visited) : Prop where
  grows : Grows visits before after
  only : ∀ key, visits after key = true → visits before key = true ∨
    ∃ name, among name ∧ symbolKey name = key

section

variable {among : String → Prop} {first second third visited : Visited} {names : List String}

theorem Within.refl (visited : Visited) : Within among visited visited :=
  ⟨.refl visited, fun _ => .inl⟩

theorem Within.trans (left : Within among first second) (right : Within among second third) :
    Within among first third where
  grows := left.grows.trans right.grows
  only key visited := (right.only key visited).elim (left.only key) .inr

theorem Within.insert {name : String} (isAmong : among name) :
    Within among first (first.insert (symbolKey name)) where
  grows := grows_insert first _
  only _ visited := (Passed.visits_insert visited).elim (fun same => .inr ⟨name, isAmong, same⟩) .inl

theorem Within.visits_eq {key : String} (within : Within among first second)
    (apart : ∀ name, among name → symbolKey name ≠ key) : visits second key = visits first key := by
  cases before : visits first key with
  | true => exact within.grows key before
  | false =>
    refine Bool.eq_false_of_not_eq_true fun after => ?_
    rcases within.only key after with visited | ⟨name, isAmong, same⟩
    · cases before.symm.trans visited
    · exact apart name isAmong same

theorem within_firstHit {Found : Type} {walk : String → Walking (Option Found)}
    (walks : ∀ visited, ∀ name ∈ names,
      Ensures (walk name) visited fun _ after => Within among visited after) (visited : Visited) :
    Ensures (firstHit walk names) visited fun _ after => Within among visited after := by
  induction names generalizing visited with
  | nil => exact .pure (.refl visited)
  | cons name rest inductionHypothesis =>
    unfold firstHit
    refine (walks visited name (.head _)).bind ?_
    rintro (_ | found) middle within
    · intro answer after run
      exact within.trans (inductionHypothesis
        (fun visited name member => walks visited name (.tail _ member)) middle answer after run)
    · exact .pure within

theorem within_fromTraits {walk : String → Walking (Option FoundMethod)}
    (walks : ∀ visited, ∀ name ∈ names,
      Ensures (walk name) visited fun _ after => Within among visited after) (owner : String)
    (visited : Visited) (result : Option FoundMethod) :
    Ensures (fromTraits walk owner names result) visited
      fun _ after => Within among visited after := by
  induction names generalizing visited result with
  | nil => exact .pure (.refl visited)
  | cons name rest inductionHypothesis =>
    have later (middle : Visited) (within : Within among visited middle) (result) :
        Ensures (fromTraits walk owner rest result) middle fun _ after =>
          Within among visited after :=
      fun answer after run => within.trans (inductionHypothesis
        (fun visited name member => walks visited name (.tail _ member)) middle result answer after
        run)
    unfold fromTraits
    refine (walks visited name (.head _)).bind ?_
    rintro (_ | found) middle within
    · exact later middle within _
    · dsimp only
      split
      · exact .pure within
      · exact later middle within _

end

section

variable {index : Index} {method : String} {among : String → Prop}
  (closed : ∀ {name info next}, among name → index.classOrTrait? name = some info →
    next ∈ methodLinks info → among next)

include closed

theorem within_methodStep {walk : Option FoundMethod → String → Walking (Option FoundMethod)}
    (walks : ∀ visited best name, among name →
      Ensures (walk best name) visited fun _ after => Within among visited after)
    (visited : Visited) (best : Option FoundMethod) (name : String) (isAmong : among name) :
    Ensures (methodStep index method walk best name) visited
      fun _ after => Within among visited after := by
  unfold methodStep
  refine .entering (fun _ => .refl visited) (fun _ => .insert isAmong) fun info found => ?_
  have asked (names : List String) (links : names ⊆ methodLinks info) (visited : Visited) :
      ∀ name ∈ names, Ensures (walk none name) visited fun _ after => Within among visited after :=
    fun name member => walks visited none name (closed isAmong found (links member))
  have entered : Within among visited (visited.insert (symbolKey name)) := .insert isAmong
  dsimp only
  split
  · exact .pure entered
  refine (within_fromTraits (asked info.traits.toList (by intro; simp +contextual [methodLinks]))
    name _ _).bind fun best visitedTraits traits => ?_
  have entered := entered.trans traits
  split
  · exact .pure entered
  refine (within_firstHit (asked info.parentInterfaces (by intro; simp +contextual [methodLinks]))
    _).bind fun hit visitedParents parents => ?_
  have entered := entered.trans parents
  split
  · exact .pure entered
  refine (within_firstHit (asked (info.mixins.filter _) (by intro; simp +contextual [methodLinks]))
    _).bind fun hit visitedMixins mixins => ?_
  have entered := entered.trans mixins
  split
  · exact .pure entered
  refine (within_firstHit (asked info.interfaces.toList (by intro; simp +contextual [methodLinks]))
    _).bind fun hit visitedInterfaces interfaces => ?_
  have entered := entered.trans interfaces
  split
  · next parent extended =>
    intro answer after run
    exact entered.trans (walks _ _ parent
      (closed isAmong found (by simp [methodLinks, extended])) answer after run)
  · exact .pure entered

/-- If names of a kind lead to names of that kind only, so does a walk. -/
theorem within_methodWalk (fuel : Nat) (visited : Visited) (best : Option FoundMethod) (name : String)
    (isAmong : among name) : Ensures (methodWalk index method fuel best name) visited
      fun _ after => Within among visited after := by
  induction fuel generalizing visited best name with
  | zero => exact .failure
  | succ fuel inductionHypothesis =>
    exact within_methodStep closed inductionHypothesis visited best name isAmong

end

/-! ### Candidates -/

/-- The method has a body exactly if its declaration is not abstract. -/
def Honest (found : FoundMethod) : Prop :=
  found.implemented = !found.info.isAbstract

section

variable {method name : String} {info : ClassInfo} {best : Option FoundMethod}

theorem prefer_eq (lacking : isImplemented best = false) (candidate : FoundMethod) :
    prefer best candidate = candidate := by
  cases best with
  | none => rfl
  | some found =>
    have unimplemented : found.implemented = false := lacking
    simp [prefer, unimplemented]

theorem preferOwn_of_body {body : FunctionInfo} (lacking : isImplemented best = false)
    (has : body? method info = some body) : preferOwn method name info best =
      some { info := body, owner := name, viaTrait := none, implemented := true } := by
  obtain ⟨declares, concrete⟩ := Option.filter_eq_some_iff.mp has
  simp only [preferOwn, declares, prefer_eq lacking, concrete]

theorem isImplemented_preferOwn (lacking : isImplemented best = false)
    (lacks : body? method info = none) : isImplemented (preferOwn method name info best) = false := by
  unfold preferOwn
  cases declares : info.method? method with
  | none => exact lacking
  | some own =>
    rw [body?, declares] at lacks
    simpa [isImplemented, prefer_eq lacking, Option.filter] using lacks

theorem honest_preferOwn : Finds Honest (preferOwn method name info none) := by
  unfold preferOwn
  split
  · exact .some rfl
  · exact .none _

theorem isImplemented_preferDeclared (lacking : isImplemented best = false)
    (hit : Option (String × FoundMethod)) : isImplemented (preferDeclared best hit) = false := by
  cases hit with
  | none => exact lacking
  | some found => simp [preferDeclared, isImplemented, prefer_eq lacking]

end

/-! ### Bodies from traits -/

/-- What a part of a lookup tells about the traits of the given names: it finds a body that one of them
leads to, or has missed none on the way. -/
structure Surveys (index : Index) (method : String) (before : Visited) (names : List String)
    (answer : Option FoundMethod) (after : Visited) : Prop where
  sound : isImplemented answer = true → ∃ found, answer = some found ∧
    ∃ used ∈ names, Offers index.trait? traitLinks (body? method) used found.info
  complete : isImplemented answer = false →
    Passed index.trait? traitLinks (fun info => (body? method info).isSome = true) before after names

section

variable {index : Index} {method : String} {names : List String}

theorem byKey_trait? (index : Index) : ByKey index.trait? := by
  intro name other same
  rw [Index.trait?, same]
  rfl

/-- The traits are asked in turn up to the first with a body. -/
theorem surveys_fromTraits {walk : String → Walking (Option FoundMethod)}
    (walks : ∀ visited, ∀ name ∈ names, Ensures (walk name) visited fun answer after =>
      Surveys index method visited [name] answer after ∧ Finds Honest answer)
    (owner : String) (visited : Visited) {best : Option FoundMethod}
    (lacking : isImplemented best = false) :
    Ensures (fromTraits walk owner names best) visited fun answer after =>
      Surveys index method visited names answer after ∧
      (isImplemented answer = true → Finds (fun found => found.owner = owner) answer) ∧
      (Finds Honest best → Finds Honest answer) := by
  induction names generalizing visited best with
  | nil =>
    refine .pure ⟨⟨fun implemented => ?_, fun _ => .refl visited⟩, fun implemented => ?_, id⟩ <;>
      cases lacking.symm.trans implemented
  | cons name rest inductionHypothesis =>
    have later {best : Option FoundMethod} (lacking : isImplemented best = false) (middle : Visited) :=
      inductionHypothesis (fun visited name member => walks visited name (.tail _ member)) middle
        lacking
    unfold fromTraits
    refine (walks visited name (.head _)).bind ?_
    rintro (_ | found) middle ⟨⟨sound, complete⟩, honest⟩
    · intro answer after run
      obtain ⟨⟨soundRest, completeRest⟩, owned, honestRest⟩ := later lacking middle answer after run
      refine ⟨⟨fun implemented => ?_, fun missed => (complete rfl).append (completeRest missed)⟩,
        owned, honestRest⟩
      obtain ⟨found, same, used, listed, offers⟩ := soundRest implemented
      exact ⟨found, same, used, .tail _ listed, offers⟩
    · dsimp only
      rw [prefer_eq lacking]
      have isHonest : found.implemented = !found.info.isAbstract := honest found rfl
      split
      · next implemented =>
        obtain ⟨_, ⟨⟩, used, listed, offers⟩ := sound (isHonest.trans implemented)
        exact .pure ⟨⟨fun _ => ⟨_, rfl, used, List.mem_cons.mpr (.inl (List.mem_singleton.mp listed)),
          offers⟩, fun missed => absurd implemented (by simpa [isImplemented] using missed)⟩,
          fun _ => .some rfl, fun _ => .some rfl⟩
      · next unimplemented =>
        have stillLacking : isImplemented
            (some ⟨found.info, owner, some name, !found.info.isAbstract⟩) = false :=
          eq_false_of_ne_true unimplemented
        intro answer after run
        obtain ⟨⟨soundRest, completeRest⟩, owned, honestRest⟩ :=
          later stillLacking middle answer after run
        refine ⟨⟨fun implemented => ?_, fun missed => (complete ?_).append (completeRest missed)⟩,
          owned, fun _ => honestRest (.some rfl)⟩
        · obtain ⟨found, same, used, listed, offers⟩ := soundRest implemented
          exact ⟨found, same, used, .tail _ listed, offers⟩
        · exact isHonest.trans stillLacking

theorem surveys_methodStep (shaped : Shaped index)
    {walk : Option FoundMethod → String → Walking (Option FoundMethod)}
    (walks : ∀ visited name, IsTrait index name → Ensures (walk none name) visited
      fun answer after => Surveys index method visited [name] answer after ∧ Finds Honest answer)
    (visited : Visited) (name : String) (isTrait : IsTrait index name) :
    Ensures (methodStep index method walk none name) visited fun answer after =>
      Surveys index method visited [name] answer after ∧ Finds Honest answer := by
  unfold methodStep
  have nothing (implemented : isImplemented none = true) {P : Prop} : P := by cases implemented
  refine .entering (fun again => ⟨⟨(nothing ·), fun _ => .of_visited again⟩, .none _⟩)
    (fun unknown => ⟨⟨(nothing ·), fun _ => .of_unknown (byKey_trait? index) ?_⟩, .none _⟩)
    fun info found => ?_
  · rwa [← classOrTrait?_eq_of_isTrait isTrait]
  have declares := (classOrTrait?_some found).2
  rw [classOrTrait?_eq_of_isTrait isTrait] at found
  obtain ⟨orphan, bare, flat⟩ := shaped.traits info (mem_keys_values found).2
  rw [orphan, bare, flat, shaped.unmixed info declares]
  dsimp only
  cases has : body? method info with
  | some body =>
    rw [preferOwn_of_body rfl has]
    refine .pure ⟨⟨fun _ => ⟨_, rfl, name, .head _, name, info, .refl, found, has⟩,
      fun missed => ?_⟩, ?_⟩
    · cases missed
    · exact .some (Option.filter_eq_some_iff.mp has).2.symm
  | none =>
    rw [if_neg (by rw [isImplemented_preferOwn rfl has]; exact Bool.false_ne_true)]
    refine (surveys_fromTraits (fun visited used listed => walks visited used
      (shaped.used info declares used listed)) name _ (isImplemented_preferOwn rfl has)).bind ?_
    rintro best middle ⟨⟨sound, complete⟩, -, honest⟩
    have surveys : Surveys index method visited [name] best middle := by
      refine ⟨fun implemented => ?_, fun missed => ?_⟩
      · obtain ⟨hit, same, used, listed, other, otherInfo, reaches, offers⟩ := sound implemented
        exact ⟨hit, same, name, .head _, other, otherInfo, reaches.head ⟨info, found, listed⟩, offers⟩
      · exact .enter (byKey_trait? index) found (by simp [has]) (complete missed)
          fun next link _ => link
    have outcome := And.intro surveys (honest honest_preferOwn)
    split
    · exact .pure outcome
    · exact .pure outcome

/-- The walk of a trait finds a body in the traits that it leads to, or misses none. -/
theorem surveys_methodWalk (shaped : Shaped index) (fuel : Nat) (visited : Visited) (name : String)
    (isTrait : IsTrait index name) : Ensures (methodWalk index method fuel none name) visited
      fun answer after => Surveys index method visited [name] answer after ∧ Finds Honest answer := by
  induction fuel generalizing visited name with
  | zero => exact .failure
  | succ fuel inductionHypothesis =>
    exact surveys_methodStep shaped inductionHypothesis visited name isTrait

end

/-! ### The way up -/

/-- What a walk tells about the parents on its way: it finds a body that the first of them supplies
which has one, or none of them has. -/
structure Elects (index : Index) (method : String) (ancestors : List String)
    (answer : Option FoundMethod) : Prop where
  sound : isImplemented answer = true → ∃ found, answer = some found ∧
    Supplies index method found.owner found.info ∧ ∃ before after,
      ancestors = before ++ found.owner :: after ∧
        ∀ earlier ∈ before, ∀ body, ¬ Supplies index method earlier body
  complete : isImplemented answer = false →
    ∀ ancestor ∈ ancestors, ∀ body, ¬ Supplies index method ancestor body

/-- What was visited when a walk comes from the passed classes: no other classes, and traits without a
body for the method. -/
structure Descended (index : Index) (method : String) (passed visited : Visited) : Prop where
  classes : ∀ {name info}, index.class? name = some info → info.kind ≠ .interface →
    visits visited (symbolKey name) = visits passed (symbolKey name)
  traits : ∃ names, Passed index.trait? traitLinks (fun info => (body? method info).isSome = true) {}
    visited names

section

variable {index : Index} {method name : String} {ancestors : List String} {info : ClassInfo}
  {answer : Option FoundMethod} {passed visited : Visited}

theorem Elects.nil (lacking : isImplemented answer = false) : Elects index method [] answer where
  sound implemented := by cases lacking.symm.trans implemented
  complete _ _ listed := absurd listed List.not_mem_nil

theorem Elects.first {found : FoundMethod} (implemented : found.implemented = true)
    (owned : found.owner = name) (supplies : Supplies index method name found.info) :
    Elects index method (name :: ancestors) (some found) where
  sound _ := ⟨found, rfl, owned.symm ▸ supplies, [], ancestors, by rw [owned]; rfl,
    fun _ listed => absurd listed List.not_mem_nil⟩
  complete missed := by cases implemented.symm.trans missed

theorem Elects.cons (lacks : ∀ body, ¬ Supplies index method name body)
    (elects : Elects index method ancestors answer) :
    Elects index method (name :: ancestors) answer where
  sound implemented := by
    obtain ⟨found, same, supplies, before, after, rfl, earlier⟩ := elects.sound implemented
    refine ⟨found, same, supplies, name :: before, after, rfl, fun other listed => ?_⟩
    rcases List.mem_cons.mp listed with rfl | listed
    · exact lacks
    · exact earlier other listed
  complete missed ancestor listed := by
    rcases List.mem_cons.mp listed with rfl | listed
    · exact lacks
    · exact elects.complete missed ancestor listed

theorem Descended.start : Descended index method {} {} :=
  ⟨fun _ _ => rfl, [], .refl {}⟩

/-- A walk through interfaces passes through no trait. -/
theorem passed_of_within {links : ClassInfo → List String} {hit : ClassInfo → Prop} {after : Visited}
    (within : Within (IsInterface index) visited after) :
    Passed index.trait? links hit visited after [] where
  grows := within.grows
  reached _ listed := absurd listed List.not_mem_nil
  settled {other otherInfo} found unvisited visitedAfter := by
    rw [within.visits_eq fun interface isInterface same => ?_, unvisited] at visitedAfter
    · cases visitedAfter
    · rw [← byKey_trait? index same, isInterface.1] at found
      cases found

/-- A class without a body for the method is left behind. -/
theorem Descended.step (shaped : Shaped index) (descended : Descended index method passed visited)
    (found : index.class? name = some info) {middle after : Visited}
    (traits : Within (IsTrait index) (visited.insert (symbolKey name)) middle)
    (traitsPassed : Passed index.trait? traitLinks (fun info => (body? method info).isSome = true)
      (visited.insert (symbolKey name)) middle (traitLinks info))
    (interfaces : Within (IsInterface index) middle after) :
    Descended index method (passed.insert (symbolKey name)) after ∧
      ∀ body, ¬ Uses index method info body := by
  obtain ⟨names, passedBefore⟩ := descended.traits
  have passedTraits := (passedBefore.append
    (.of_unknown (byKey_trait? index) (shaped.trait?_eq_none found))).append traitsPassed
  refine ⟨⟨fun {other otherInfo} foundOther proper => ?_, _,
    passedTraits.append (passed_of_within interfaces)⟩, ?_⟩
  · rw [interfaces.visits_eq fun interface isInterface same => ?_,
      traits.visits_eq fun trait isTrait same => ?_]
    · have before := descended.classes foundOther proper
      unfold visits at before ⊢
      rw [Std.TreeSet.contains_insert, Std.TreeSet.contains_insert, before]
    · rw [← byKey_class? index same, isTrait] at foundOther
      cases foundOther
    · rw [← byKey_class? index same] at foundOther
      exact proper (isInterface.2 otherInfo foundOther)
  · rintro body ⟨used, listed, other, otherInfo, reaches, foundOther, has⟩
    exact passedTraits.not_above (List.mem_append_right _ listed)
      ⟨other, otherInfo, reaches, foundOther, Option.isSome_iff_exists.mpr ⟨body, has⟩⟩

/-- The traits of a class are searched, and no other names are visited. -/
theorem ensures_fromTraits (shaped : Shaped index) (declares : info ∈ declarers index) (fuel : Nat)
    (owner : String) (visited : Visited) {best : Option FoundMethod}
    (lacking : isImplemented best = false) :
    Ensures (fromTraits (methodWalk index method fuel none) owner info.traits.toList best) visited
      fun answer after => Surveys index method visited (traitLinks info) answer after ∧
        (isImplemented answer = true → Finds (fun found => found.owner = owner) answer) ∧
        Within (IsTrait index) visited after := by
  have searched := surveys_fromTraits (fun visited used listed => @surveys_methodWalk index method
    shaped fuel visited used (shaped.used info declares used listed)) owner visited lacking
  have walks (visited : Visited) (used : String) (listed : used ∈ info.traits.toList) :
      Ensures (methodWalk index method fuel none used) visited
        fun _ after => Within (IsTrait index) visited after :=
    within_methodWalk (shaped.isTrait_of_link · · ·) fuel visited none used
      (shaped.used info declares used listed)
  have within := within_fromTraits walks owner visited best
  intro answer after run
  obtain ⟨surveys, owned, -⟩ := searched answer after run
  exact ⟨surveys, owned, within answer after run⟩

/-- The interfaces of a class are searched, and no other names are visited. -/
theorem ensures_firstHit (shaped : Shaped index) (declares : info ∈ declarers index) (fuel : Nat)
    (visited : Visited) :
    Ensures (firstHit (methodWalk index method fuel none) info.interfaces.toList) visited
      fun _ after => Within (IsInterface index) visited after :=
  within_firstHit (fun visited next listed =>
    within_methodWalk (shaped.isInterface_of_link · · ·) fuel visited none next
      (shaped.declared info declares next (List.mem_append_left _ listed))) visited

/-- A class has a body itself, or one from its traits, or its walk goes on to its parent. -/
theorem elects_methodStep (shaped : Shaped index) {fuel : Nat}
    (walks : ∀ passed visited best name, IsClass index name → isImplemented best = false →
      Descended index method passed visited → Ensures (methodWalk index method fuel best name) visited
        fun answer _ => Elects index method (lineage index passed name) answer)
    (passed visited : Visited) (best : Option FoundMethod) (name : String)
    (isClass : IsClass index name) (lacking : isImplemented best = false)
    (descended : Descended index method passed visited) :
    Ensures (methodStep index method (methodWalk index method fuel) best name) visited
      fun answer _ => Elects index method (lineage index passed name) answer := by
  unfold methodStep
  refine .entering_fresh (fun again => ?_) (fun unknown => ?_) fun info fresh found => ?_
  · have ends : lineage index passed name = [] := by
      cases known : index.class? name with
      | none => exact lineage_unknown known
      | some info =>
        exact lineage_visited ((descended.classes known (isClass.2 info known)).symm.trans again)
    exact ends ▸ .nil lacking
  · rw [lineage_unknown (by rwa [← classOrTrait?_eq isClass.1])]
    exact .nil lacking
  have declares := (classOrTrait?_some found).2
  rw [classOrTrait?_eq isClass.1] at found
  have proper := isClass.2 info found
  obtain ⟨flat, parents⟩ := shaped.classes info (mem_keys_values found).2 proper
  rw [lineage_known ((descended.classes found proper).symm.trans fresh) found, flat,
    shaped.unmixed info declares]
  dsimp only
  cases has : body? method info with
  | some body =>
    rw [preferOwn_of_body lacking has]
    exact .pure (.first rfl rfl ⟨info, found, .inl has⟩)
  | none =>
  have ownLacking : isImplemented (preferOwn method name info best) = false :=
    isImplemented_preferOwn lacking has
  rw [if_neg (by rw [ownLacking]; exact Bool.false_ne_true)]
  refine (ensures_fromTraits shaped declares fuel name _ ownLacking).bind ?_
  rintro best middle ⟨⟨sound, complete⟩, owned, traits⟩
  split
  · next implemented =>
    obtain ⟨hit, rfl, used, listed, offers⟩ := sound implemented
    exact .pure (.first implemented (owned implemented hit rfl)
      ⟨info, found, .inr ⟨has, used, listed, offers⟩⟩)
  next unimplemented =>
  have bestLacking : isImplemented best = false := eq_false_of_ne_true unimplemented
  simp only [firstHit, pure_bind, List.filter_nil]
  refine (ensures_firstHit shaped declares fuel middle).bind fun hit after interfaces => ?_
  have lastLacking := isImplemented_preferDeclared bestLacking hit
  obtain ⟨further, useless⟩ := descended.step shaped found traits (complete bestLacking) interfaces
  have lacks (body : FunctionInfo) : ¬ Supplies index method name body := by
    rintro ⟨other, foundOther, supplies⟩
    cases found.symm.trans foundOther
    rcases supplies with own | ⟨-, uses⟩
    · cases has.symm.trans own
    · exact useless body uses
  cases extended : info.parent with
  | none => exact .pure (.cons lacks (.nil lastLacking))
  | some parent =>
    exact fun answer last run => .cons lacks
      (walks _ after _ parent (parents parent extended) lastLacking further answer last run)

/-- The walk up from a class stops at the first parent with a body. -/
theorem elects_methodWalk (shaped : Shaped index) (fuel : Nat) (passed visited : Visited)
    (best : Option FoundMethod) (name : String) (isClass : IsClass index name)
    (lacking : isImplemented best = false) (descended : Descended index method passed visited) :
    Ensures (methodWalk index method fuel best name) visited
      fun answer _ => Elects index method (lineage index passed name) answer := by
  induction fuel generalizing passed visited best name with
  | zero => exact .failure
  | succ fuel inductionHypothesis =>
    exact elects_methodStep shaped inductionHypothesis passed visited best name isClass lacking
      descended

end

/-- In a hierarchy of the right shape, the method that is found for a class has a body if and only if
the class or one of its parents supplies one. Then it is the one that the first of them supplies. -/
theorem implementation_outranks_declarations (index : Index) (shaped : Shaped index)
    (name method : String) (isClass : IsClass index name) :
    (isImplemented (findMethod? index name method) = true ↔
      ∃ ancestor ∈ lineage index {} name, ∃ body, Supplies index method ancestor body) ∧
    ∀ found, findMethod? index name method = some found → found.implemented = true →
      Supplies index method found.owner found.info ∧ ∃ before after,
        lineage index {} name = before ++ found.owner :: after ∧
          ∀ earlier ∈ before, ∀ body, ¬ Supplies index method earlier body := by
  obtain ⟨answer, next, -, runs⟩ := finishes_methodWalk index method (.none _) name {}
  have run := runs (depth index) le_rfl
  have elects :=
    elects_methodWalk shaped (depth index) {} {} none name isClass rfl .start answer next run
  have equal : findMethod? index name method = answer := by
    rw [findMethod?, outcome?, run]
    rfl
  rw [equal]
  refine ⟨⟨fun implemented => ?_, ?_⟩, fun found same implemented => ?_⟩
  · obtain ⟨found, -, supplies, before, after, split, -⟩ := elects.sound implemented
    exact ⟨found.owner, by simp [split], found.info, supplies⟩
  · rintro ⟨ancestor, listed, body, supplies⟩
    by_contra missed
    exact elects.complete (eq_false_of_ne_true missed) ancestor listed body supplies
  · subst same
    obtain ⟨_, ⟨⟩, elected⟩ := elects.sound implemented
    exact elected

/-- The class `\Leaf` only declares its method, as an interface does, and is a parent of its own parent
`\Base`, which has the method from the trait `\Inner` of its trait `\Outer`. -/
def countingIndex : Index :=
  let position : Position := ⟨"sample", 1, 0, 1⟩
  let declared : FunctionInfo := { name := "count", position, isAbstract := true }
  let classLikes : List ClassInfo :=
    [ClassInfo.addMethod { name := "\\Countable", position, kind := .interface } declared,
      ClassInfo.addMethod
        { name := "\\Leaf", position, isAbstract := true, parent := some "\\Base",
          interfaces := .ofList ["\\Countable"] } declared,
      { name := "\\Base", position, parent := some "\\Leaf", traits := .ofList ["\\Outer"] },
      { name := "\\Outer", position, kind := .trait, traits := .ofList ["\\Inner"] },
      ClassInfo.addMethod { name := "\\Inner", position, kind := .trait }
        { name := "count", position }]
  Index.empty.insertFile "sample" (classLikes.foldl FileSymbols.addClass {})

theorem implementation_outranks_declarations_countingIndex :
    Shaped countingIndex ∧ IsClass countingIndex "\\Leaf" ∧
      ∃ body, Supplies countingIndex "count" "\\Base" body := by
  have shaped : Shaped countingIndex :=
    ⟨by decide, by decide, by decide, by decide, by decide, by decide, by decide⟩
  have isClass : IsClass countingIndex "\\Leaf" := by decide
  have owned : (findMethod? countingIndex "\\Leaf" "count").map
      (fun found => (found.owner, found.implemented)) = some ("\\Base", true) := by decide
  obtain ⟨found, known, same⟩ := Option.map_eq_some_iff.mp owned
  obtain ⟨owner, implemented⟩ := Prod.mk.inj same
  have elected := (implementation_outranks_declarations countingIndex shaped "\\Leaf" "count"
    isClass).2 found known implemented
  exact ⟨shaped, isClass, found.info, owner ▸ elected.1⟩

end PhpAudit.Hierarchy
