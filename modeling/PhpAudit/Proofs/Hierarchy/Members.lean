/-
This file proves that the lookups of methods and properties miss nothing and invent nothing: a member
is found if and only if a class-like that the class leads to declares it, and what is found is such a
declaration. A walk may come to a class-like by several links. That it enters it only once hides no
declaration, since a walk that goes on after an unsuccessful visit has followed all links of it.
-/

import PhpAudit.Proofs.Hierarchy.Search

namespace PhpAudit.Hierarchy

/-! ### Members above a class-like -/

section

variable {Declaration Found : Type} (lookup : String → Option ClassInfo)
  (links : ClassInfo → List String) (member : ClassInfo → Option Declaration) (root : String)

/-- A class-like that is reached from `root` has the member `declared`. -/
def Offers (declared : Declaration) : Prop :=
  ∃ name info, Reaches lookup links root name ∧ lookup name = some info ∧
    member info = some declared

/-- What a part of a lookup from `root` tells: it finds what is above, or has missed nothing on the
way. -/
structure Tells (declaration : Found → Declaration) (before : Visited) (names : List String)
    (answer : Option Found) (after : Visited) : Prop where
  sound : Finds (fun found => Offers lookup links member root (declaration found)) answer
  complete : answer = none →
    Passed lookup links (fun info => (member info).isSome = true) before after names

end

section

variable {Declaration Found : Type} {lookup : String → Option ClassInfo}
  {links : ClassInfo → List String} {member : ClassInfo → Option Declaration} {root : String}
  {declaration : Found → Declaration} {before after : Visited} {names : List String}

theorem Tells.found {found : Found}
    (offers : Offers lookup links member root (declaration found)) :
    Tells lookup links member root declaration before names (some found) after :=
  ⟨.some offers, fun contrary => by cases contrary⟩

theorem Tells.missed
    (passed : Passed lookup links (fun info => (member info).isSome = true) before after names) :
    Tells lookup links member root declaration before names none after :=
  ⟨.none _, fun _ => passed⟩

/-- A lookup that finishes, with nothing visited before, finds what is offered and nothing else. -/
theorem tells_outcome? {index : Index} {walk : Nat → Walking (Option Found)}
    {post : Option Found → Prop} (finishes : Finishes index walk post)
    (tells : ∀ fuel, Ensures (walk fuel) {}
      (Tells lookup links member root declaration {} [root])) :
    (((outcome? (walk (depth index))).join.isSome = true ↔
      ∃ declared, Offers lookup links member root declared)) ∧
    ∀ found, (outcome? (walk (depth index))).join = some found →
      Offers lookup links member root (declaration found) := by
  obtain ⟨answer, next, -, runs⟩ := finishes {}
  have run := runs (depth index) le_rfl
  have told := tells (depth index) answer next run
  have equal : (outcome? (walk (depth index))).join = answer := by
    rw [outcome?, run]
    rfl
  rw [equal]
  refine ⟨?_, told.sound⟩
  cases answer with
  | some found => exact ⟨fun _ => ⟨declaration found, told.sound found rfl⟩, fun _ => rfl⟩
  | none =>
    refine ⟨fun contrary => absurd contrary Bool.false_ne_true, ?_⟩
    rintro ⟨declared, name, info, reached, found, has⟩
    exact absurd ⟨name, info, reached, found, Option.isSome_iff_exists.mpr ⟨declared, has⟩⟩
      ((told.complete rfl).not_above (.head _))

/-- The names are asked in turn up to the first that something is found for. -/
theorem tells_firstHit {walk : String → Walking (Option Found)} (names : List String)
    (walks : ∀ visited, ∀ name ∈ names, Ensures (walk name) visited
      (Tells lookup links member root declaration visited [name])) (visited : Visited) :
    Ensures (firstHit walk names) visited
      (Tells lookup links member root (fun hit => declaration hit.2) visited names) := by
  induction names generalizing visited with
  | nil => exact .pure (.missed (.refl visited))
  | cons name rest inductionHypothesis =>
    unfold firstHit
    refine (walks visited name (.head _)).bind ?_
    rintro (_ | found) middle ⟨sound, complete⟩
    · intro answer after run
      have told := inductionHypothesis (fun visited name member => walks visited name (.tail _ member))
        middle answer after run
      exact ⟨told.sound, fun missed => (complete rfl).append (told.complete missed)⟩
    · exact .pure (.found (sound found rfl))

end

/-! ### Methods -/

/-- The class-likes that a class takes methods from. -/
def methodLinks (info : ClassInfo) : List String :=
  info.traits.toList ++ info.parentInterfaces ++ info.mixins ++ info.interfaces.toList ++
    info.parent.toList

section

variable {index : Index} {method root name : String} {info : ClassInfo}

/-- The declaration that was found is one of a class-like that `root` leads to. -/
def Offered (index : Index) (method root : String) (found : FoundMethod) : Prop :=
  Offers index.classOrTrait? methodLinks (·.method? method) root found.info

/-- What a part of a lookup tells that started from the best candidate so far: a candidate is never
lost. -/
structure Improves (index : Index) (method root : String) (best : Option FoundMethod)
    (before : Visited) (names : List String) (answer : Option FoundMethod) (after : Visited) :
    Prop where
  tells : Tells index.classOrTrait? methodLinks (·.method? method) root FoundMethod.info before
    names answer after
  kept : answer = none → best = none

/-- The walk improves on every candidate that is offered to it. -/
def Improving (index : Index) (method root : String)
    (walk : Option FoundMethod → String → Walking (Option FoundMethod)) : Prop :=
  ∀ visited best name, Reaches index.classOrTrait? methodLinks root name →
    Finds (Offered index method root) best →
    Ensures (walk best name) visited (Improves index method root best visited [name])

theorem ne_none_of_isImplemented {best : Option FoundMethod}
    (implemented : isImplemented best = true) : ¬ best = none := by
  rintro rfl
  cases implemented

theorem preferOwn_offered {best : Option FoundMethod}
    (reached : Reaches index.classOrTrait? methodLinks root name)
    (found : index.classOrTrait? name = some info)
    (offered : Finds (Offered index method root) best) :
    Finds (Offered index method root) (preferOwn method name info best) ∧
      (preferOwn method name info best = none →
        best = none ∧ ¬ (info.method? method).isSome = true) := by
  unfold preferOwn
  split
  · next own declares =>
    exact ⟨offered.prefer _ ⟨name, info, reached, found, declares⟩,
      fun contrary => by cases contrary⟩
  · next lacks => exact ⟨offered, fun nothing => ⟨nothing, by simp [lacks]⟩⟩

theorem preferDeclared_offered {best : Option FoundMethod} {hit : Option (String × FoundMethod)}
    (offered : Finds (Offered index method root) best)
    (hits : Finds (fun hit => Offered index method root hit.2) hit) :
    Finds (Offered index method root) (preferDeclared best hit) ∧
      (preferDeclared best hit = none → best = none ∧ hit = none) := by
  unfold preferDeclared
  split
  · next found => exact ⟨offered.prefer _ (hits _ rfl), fun contrary => by cases contrary⟩
  · exact ⟨offered, fun nothing => ⟨nothing, rfl⟩⟩

theorem improves_fromTraits {walk : Option FoundMethod → String → Walking (Option FoundMethod)}
    (improving : Improving index method root walk) (owner : String) (names : List String)
    (reached : ∀ name ∈ names, Reaches index.classOrTrait? methodLinks root name)
    (visited : Visited) {best : Option FoundMethod}
    (offered : Finds (Offered index method root) best) :
    Ensures (fromTraits (walk none) owner names best) visited
      (Improves index method root best visited names) := by
  induction names generalizing visited best with
  | nil =>
    exact .pure ⟨⟨offered, fun _ => .refl visited⟩, id⟩
  | cons name rest inductionHypothesis =>
    have later := inductionHypothesis fun name member => reached name (.tail _ member)
    unfold fromTraits
    refine (improving visited none name (reached name (.head _)) (.none _)).bind ?_
    rintro (_ | found) middle ⟨⟨sound, complete⟩, -⟩
    · intro answer after run
      obtain ⟨⟨soundRest, completeRest⟩, kept⟩ := later middle offered answer after run
      exact ⟨⟨soundRest, fun missed => (complete rfl).append (completeRest missed)⟩, kept⟩
    · have picked := offered.prefer ⟨found.info, owner, some name, !found.info.isAbstract⟩
        (sound found rfl)
      have nonempty {answer after} (answered : ¬ answer = none)
          (finds : Finds (Offered index method root) answer) :
          Improves index method root best visited (name :: rest) answer after :=
        ⟨⟨finds, fun missed => absurd missed answered⟩, fun missed => absurd missed answered⟩
      dsimp only
      split
      · exact .pure (nonempty (by simp) picked)
      · intro answer after run
        obtain ⟨told, kept⟩ := later middle picked answer after run
        exact nonempty (fun missed => by cases kept missed) told.sound

theorem improving_methodStep {walk : Option FoundMethod → String → Walking (Option FoundMethod)}
    (improving : Improving index method root walk) :
    Improving index method root (methodStep index method walk) := by
  intro visited best name reached offered
  unfold methodStep
  refine .entering (fun again => ⟨⟨offered, fun _ => .of_visited again⟩, id⟩)
    (fun unknown => ⟨⟨offered, fun _ => .of_unknown (byKey_classOrTrait? index) unknown⟩, id⟩)
    fun info found => ?_
  have linked {next : String} (link : next ∈ methodLinks info) :
      Reaches index.classOrTrait? methodLinks root next := reached.tail ⟨info, found, link⟩
  have asked (names : List String) (links : names ⊆ methodLinks info) :=
    tells_firstHit names fun visited next member answer after run =>
      (improving visited none next (linked (links member)) (.none _) answer after run).tells
  have answered {answer : Option FoundMethod} {after : Visited} (some : ¬ answer = none)
      (offered : Finds (Offered index method root) answer) :
      Improves index method root best visited [name] answer after :=
    ⟨⟨offered, fun missed => absurd missed some⟩, fun missed => absurd missed some⟩
  obtain ⟨ownOffered, ownMissed⟩ := preferOwn_offered reached found offered
  dsimp only
  split
  · next implemented => exact .pure (answered (ne_none_of_isImplemented implemented) ownOffered)
  refine (improves_fromTraits improving name _
    (fun next member => linked (by simp [methodLinks, member])) _ ownOffered).bind ?_
  rintro best visitedTraits ⟨⟨bestOffered, traitsPassed⟩, bestKept⟩
  split
  · next implemented => exact .pure (answered (ne_none_of_isImplemented implemented) bestOffered)
  refine (asked info.parentInterfaces (by intro; simp +contextual [methodLinks]) _).bind ?_
  rintro (_ | hit) visitedParents ⟨hits, parentsPassed⟩
  swap
  · exact .pure (answered (Option.some_ne_none _) (.some (hits hit rfl)))
  refine (asked (info.mixins.filter _) (by intro; simp +contextual [methodLinks]) _).bind ?_
  rintro (_ | hit) visitedMixins ⟨hits, mixinsPassed⟩
  swap
  · exact .pure (answered (Option.some_ne_none _) (.some (hits hit rfl)))
  refine (asked info.interfaces.toList (by intro; simp +contextual [methodLinks]) _).bind ?_
  rintro hit visitedInterfaces ⟨hits, interfacesPassed⟩
  obtain ⟨lastOffered, lastMissed⟩ := preferDeclared_offered bestOffered hits
  -- nothing was found, so all links were followed, but for mixins that are not indexed
  have missed {after : Visited} (nothing : preferDeclared best hit = none)
      (above : Passed index.classOrTrait? methodLinks (fun info => (info.method? method).isSome = true)
        visitedInterfaces after info.parent.toList) :
      Passed index.classOrTrait? methodLinks (fun info => (info.method? method).isSome = true)
        visited after [name] := by
    obtain ⟨bestNone, hitNone⟩ := lastMissed nothing
    have ownNone := bestKept bestNone
    refine .enter (byKey_classOrTrait? index) found (ownMissed ownNone).2
      (((((traitsPassed bestNone).append (parentsPassed rfl)).append (mixinsPassed rfl)).append
        (interfacesPassed hitNone)).append above) ?_
    intro next link known
    simpa [methodLinks, known] using link
  have kept (nothing : preferDeclared best hit = none) :=
    (ownMissed (bestKept (lastMissed nothing).1)).1
  cases extended : info.parent with
  | none =>
    rw [extended] at missed
    exact .pure ⟨⟨lastOffered, fun nothing => missed nothing (.refl _)⟩, kept⟩
  | some parent =>
    rw [extended] at missed
    intro answer after run
    obtain ⟨⟨sound, complete⟩, keptLast⟩ := improving _ _ parent
      (linked (by simp [methodLinks, extended])) lastOffered answer after run
    exact ⟨⟨sound, fun nothing => missed (keptLast nothing) (complete nothing)⟩,
      fun nothing => kept (keptLast nothing)⟩

theorem improving_methodWalk (fuel : Nat) :
    Improving index method root (methodWalk index method fuel) := by
  induction fuel with
  | zero => exact fun _ _ _ _ _ => .failure
  | succ fuel inductionHypothesis => exact improving_methodStep inductionHypothesis

/-- A method that is found is declared by a class-like that the class leads to. -/
theorem offered_of_findMethod? {found : FoundMethod}
    (known : findMethod? index name method = some found) : Offered index method name found :=
  (tells_outcome? (finishes_methodWalk index method (.none _) name) fun fuel answer after run =>
    (improving_methodWalk fuel {} none name .refl (.none _) answer after run).tells).2 found known

end

/-! ### Properties -/

/-- The class-likes that a class takes properties from. -/
def propertyLinks (info : ClassInfo) : List String :=
  if info.isShape then [] else info.traits.toList ++ info.mixins ++ info.parent.toList

/-- The property that a class-like which is no shape declares. -/
def ownProperty? (property : String) (info : ClassInfo) : Option PropertyInfo :=
  if info.isShape then none else info.property? property

section

variable {index : Index} {property root : String}

theorem tells_propertyStep {walk : String → Walking (Option FoundProperty)}
    (walks : ∀ visited name, Reaches index.classOrTrait? propertyLinks root name →
      Ensures (walk name) visited (Tells index.classOrTrait? propertyLinks (ownProperty? property)
        root FoundProperty.info visited [name]))
    (visited : Visited) (name : String)
    (reached : Reaches index.classOrTrait? propertyLinks root name) :
    Ensures (propertyStep index property walk name) visited (Tells index.classOrTrait?
      propertyLinks (ownProperty? property) root FoundProperty.info visited [name]) := by
  unfold propertyStep
  refine .entering (fun again => .missed (.of_visited again))
    (fun unknown => .missed (.of_unknown (byKey_classOrTrait? index) unknown)) fun info found => ?_
  split
  · next shape =>
    refine .pure (.missed (.enter (byKey_classOrTrait? index) found ?_ (.refl _) ?_))
    · simp [ownProperty?, shape]
    · simp [propertyLinks, shape]
  next plain =>
  have linked {next : String} (link : next ∈ propertyLinks info) :
      Reaches index.classOrTrait? propertyLinks root next := reached.tail ⟨info, found, link⟩
  have asked (names : List String) (links : names ⊆ propertyLinks info) :=
    tells_firstHit names fun visited next member => walks visited next (linked (links member))
  split
  · next own declares =>
    exact .pure (.found ⟨name, info, reached, found, by simp [ownProperty?, plain, declares]⟩)
  next lacks =>
  have noHit : ¬ (ownProperty? property info).isSome = true := by
    simp [ownProperty?, plain, lacks]
  have all : propertyLinks info = info.traits.toList ++ info.mixins ++ info.parent.toList := by
    simp [propertyLinks, plain]
  refine (asked info.traits.toList (by intro; simp +contextual [all]) _).bind ?_
  rintro (_ | hit) visitedTraits ⟨hits, traitsPassed⟩
  swap
  · exact .pure (.found (hits hit rfl))
  refine (asked info.mixins (by intro; simp +contextual [all]) _).bind ?_
  rintro (_ | hit) visitedMixins ⟨hits, mixinsPassed⟩
  swap
  · exact .pure (.found (hits hit rfl))
  have missed {after : Visited}
      (above : Passed index.classOrTrait? propertyLinks
        (fun info => (ownProperty? property info).isSome = true) visitedMixins after
        info.parent.toList) :
      Passed index.classOrTrait? propertyLinks
        (fun info => (ownProperty? property info).isSome = true) visited after [name] :=
    .enter (byKey_classOrTrait? index) found noHit
      (((traitsPassed rfl).append (mixinsPassed rfl)).append above) fun _ link _ => by rwa [all] at link
  cases extended : info.parent with
  | none =>
    rw [extended] at missed
    exact .pure (.missed (missed (.refl _)))
  | some parent =>
    rw [extended] at missed
    intro answer after run
    obtain ⟨sound, complete⟩ := walks _ parent (linked (by simp [all, extended])) answer after run
    exact ⟨sound, fun nothing => missed (complete nothing)⟩

theorem tells_propertyWalk (fuel : Nat) :
    ∀ visited name, Reaches index.classOrTrait? propertyLinks root name →
      Ensures (propertyWalk index property fuel name) visited (Tells index.classOrTrait?
        propertyLinks (ownProperty? property) root FoundProperty.info visited [name]) := by
  induction fuel with
  | zero => exact fun _ _ _ => .failure
  | succ fuel inductionHypothesis => exact tells_propertyStep inductionHypothesis

end

/-! ### Lookups -/

/--
Lookups miss nothing and invent nothing. A method is found if and only if a class-like that the class
leads to over any links declares it, and the method that is found is declared by one of them. The same
holds of properties, which shapes neither have nor pass on. Of a name that both a class and a trait
have, the class is meant.
-/
theorem lookup_finds_declarations (index : Index) (name : String) :
    (∀ method,
      ((findMethod? index name method).isSome = true ↔
        ∃ declared, Offers index.classOrTrait? methodLinks (·.method? method) name declared) ∧
      ∀ found, findMethod? index name method = some found →
        Offers index.classOrTrait? methodLinks (·.method? method) name found.info) ∧
    ∀ property,
      ((findProperty? index name property).isSome = true ↔
        ∃ declared, Offers index.classOrTrait? propertyLinks (ownProperty? property) name
          declared) ∧
      ∀ found, findProperty? index name property = some found →
        Offers index.classOrTrait? propertyLinks (ownProperty? property) name found.info := by
  constructor
  · intro method
    exact tells_outcome? (finishes_methodWalk index method (.none _) name)
      fun fuel answer after run =>
        (improving_methodWalk fuel {} none name .refl (.none _) answer after run).tells
  · intro property
    exact tells_outcome? (finishes_propertyWalk index property name)
      fun fuel => tells_propertyWalk fuel {} name .refl

/-- A class and a trait of one name, of which only the trait has a method. -/
def namesakes : FileSymbols :=
  let position : Position := ⟨"a.php", 1, 0, 0⟩
  let plain : ClassInfo := { name := "\\A", position }
  (FileSymbols.addClass {} plain).addClass
    ({ plain with kind := .trait }.addMethod { name := "m", position })

/-- A class or a trait of the name is indexed. -/
def Indexed (index : Index) (name : String) (info : ClassInfo) : Prop :=
  index.class? name = some info ∨ index.trait? name = some info

/--
A class hides the trait of its name. So it does not hold that a method is found if any class or trait
declares it that a name leads to.
-/
theorem lookup_misses_namesake :
    ¬ ∀ (index : Index) (name method : String), (findMethod? index name method).isSome = true ↔
      ∃ other info declared, Relation.ReflTransGen
          (fun name next => ∃ info, Indexed index name info ∧ next ∈ methodLinks info) name other ∧
        Indexed index other info ∧ info.method? method = some declared := by
  intro literal
  let index := Index.empty.insertFile "a.php" namesakes
  have missed : (findMethod? index "\\A" "m").isSome = false := by decide
  have declares : ((index.trait? "\\A").bind (·.method? "m")).isSome = true := by decide
  obtain ⟨declared, declares⟩ := Option.isSome_iff_exists.mp declares
  obtain ⟨info, found, declares⟩ := Option.bind_eq_some_iff.mp declares
  have hit := (literal index "\\A" "m").mpr ⟨"\\A", info, declared, .refl, .inr found, declares⟩
  exact absurd (missed.symm.trans hit) Bool.false_ne_true

end PhpAudit.Hierarchy
