/-
This file says what becomes of a declaration of a class-like where the class-likes that it leads to
declare the same member. A method without a body is kept only if there is no other declaration of it:
whatever the lookup meets next takes its place, be it a trait, an interface or a parent. A constant is
kept unless the interfaces that the class implements lead to another one, since they are searched
before the class itself; its parents, its traits and the interfaces that it extends come after it.

A search passes through a class-like once, so after it has entered one it sees the others only. What it
finds from there is found without coming back, and what it misses is missed on every way that does not
come back.
-/

import PhpAudit.Proofs.Hierarchy.Implementing

namespace PhpAudit.Hierarchy

/-! ### Names that a search has not come to -/

section

variable (lookup : String → Option ClassInfo)

/-- What is known of the names that were not visited. -/
def unvisited (visited : Visited) (name : String) : Option ClassInfo :=
  if visits visited (symbolKey name) = true then none else lookup name

/-- What is known of the names other than `name`. -/
def others (name other : String) : Option ClassInfo :=
  if symbolKey other = symbolKey name then none else lookup other

end

section

variable {Declaration : Type} {lookup : String → Option ClassInfo} {links : ClassInfo → List String}
  {member : ClassInfo → Option Declaration} {first second : Visited} {name other : String}
  {info : ClassInfo} {declared : Declaration}

theorem unvisited_some :
    unvisited lookup first name = some info ↔
      visits first (symbolKey name) = false ∧ lookup name = some info := by
  unfold unvisited
  cases visits first (symbolKey name) <;> simp

theorem unvisited_start (name : String) :
    unvisited lookup (Std.TreeSet.insert {} (symbolKey name)) = others lookup name := by
  funext other
  unfold unvisited others visits
  simp only [Std.TreeSet.contains_insert, Std.TreeSet.contains_emptyc, Bool.or_false, beq_iff_eq,
    Std.LawfulEqCmp.compare_eq_iff_eq]
  simp only [eq_comm]

/-- A class-like that is entered for the first time offers what it declares. -/
theorem offers_own (fresh : visits first (symbolKey name) = false) (found : lookup name = some info)
    (declares : member info = some declared) :
    Offers (unvisited lookup first) links member name declared :=
  ⟨name, info, .refl, unvisited_some.mpr ⟨fresh, found⟩, declares⟩

/-- What is found later would have been found before. -/
theorem offers_of_grows (grows : Grows visits first second)
    (offers : Offers (unvisited lookup second) links member name declared) :
    Offers (unvisited lookup first) links member name declared := by
  have known {name : String} {info : ClassInfo}
      (found : unvisited lookup second name = some info) : unvisited lookup first name = some info := by
    obtain ⟨fresh, found⟩ := unvisited_some.mp found
    refine unvisited_some.mpr ⟨Bool.eq_false_of_not_eq_true fun seen => ?_, found⟩
    cases fresh.symm.trans (grows _ seen)
  obtain ⟨other, info, reaches, found, declares⟩ := offers
  refine ⟨other, info, Relation.ReflTransGen.mono ?_ _ _ reaches, known found, declares⟩
  rintro _ _ ⟨info, found, link⟩
  exact ⟨info, known found, link⟩

/-- What is found behind a link is found from the class-like with the link. -/
theorem offers_enter (fresh : visits first (symbolKey name) = false)
    (found : lookup name = some info) (link : other ∈ links info)
    (grows : Grows visits first second)
    (offers : Offers (unvisited lookup second) links member other declared) :
    Offers (unvisited lookup first) links member name declared := by
  obtain ⟨last, lastInfo, reaches, foundLast, declares⟩ := offers_of_grows grows offers
  exact ⟨last, lastInfo, reaches.head ⟨info, unvisited_some.mpr ⟨fresh, found⟩, link⟩, foundLast,
    declares⟩

/-- A search without a hit has missed nothing that can be reached past what was visited before. -/
theorem Passed.not_offered {names : List String}
    (passed : Passed lookup links (fun info => (member info).isSome = true) first second names)
    (asked : name ∈ names) : ¬ Offers (unvisited lookup first) links member name declared := by
  rintro ⟨last, lastInfo, reaches, found, declares⟩
  have visited (known : (unvisited lookup first last).isSome = true) :
      visits second (symbolKey last) = true := by
    clear found
    obtain ⟨info, found⟩ := Option.isSome_iff_exists.mp known
    replace known : (lookup last).isSome = true := by rw [(unvisited_some.mp found).2]; rfl
    clear found
    induction reaches with
    | refl => exact passed.reached name asked known
    | tail _ link inductionHypothesis =>
      obtain ⟨above, foundAbove, linked⟩ := link
      obtain ⟨fresh, foundAbove⟩ := unvisited_some.mp foundAbove
      have visitedAbove := inductionHypothesis (by rw [foundAbove]; rfl)
      exact (passed.settled foundAbove fresh visitedAbove).2 _ linked known
  obtain ⟨fresh, foundLast⟩ := unvisited_some.mp found
  exact (passed.settled foundLast fresh (visited (by rw [found]; rfl))).1
    (by rw [declares]; rfl)

end

/-! ### What a part of a search comes upon -/

/--
Between two points of a search that was given `best`: it came upon nothing, so that `best` is the answer
and nothing was missed, or it came upon a declaration that one of the names offers.
-/
structure Answers {Declaration Found : Type} (lookup : String → Option ClassInfo)
    (links : ClassInfo → List String) (member : ClassInfo → Option Declaration)
    (declaration : Found → Declaration) (best : Option Found) (before : Visited)
    (names : List String) (answer : Option Found) (after : Visited) : Prop where
  grows : Grows visits before after
  outcome :
    answer = best ∧ Passed lookup links (fun info => (member info).isSome = true) before after names ∨
    ∃ found, answer = some found ∧
      ∃ name ∈ names, Offers (unvisited lookup before) links member name (declaration found)

namespace Answers

variable {Declaration Found : Type} {lookup : String → Option ClassInfo}
  {links : ClassInfo → List String} {member : ClassInfo → Option Declaration}
  {declaration : Found → Declaration} {best answer between : Option Found}
  {before middle after : Visited} {names more : List String}

theorem nothing
    (passed : Passed lookup links (fun info => (member info).isSome = true) before after names) :
    Answers lookup links member declaration best before names best after :=
  ⟨passed.grows, .inl ⟨rfl, passed⟩⟩

theorem missed (answers : Answers lookup links member declaration none before names none after) :
    Passed lookup links (fun info => (member info).isSome = true) before after names := by
  rcases answers.outcome with ⟨-, passed⟩ | ⟨_, contrary, -⟩
  · exact passed
  · cases contrary

/-- A hit is told as an answer. Neither the parts before it nor the names that were not asked matter. -/
theorem of_hit {Hit : Type} {hits : Hit → Declaration} {hit : Hit} {found : Found}
    (grows : Grows visits before middle)
    (answers : Answers lookup links member hits none middle names (some hit) after)
    (same : declaration found = hits hit) (among : names ⊆ more) :
    Answers lookup links member declaration best before more (some found) after := by
  obtain ⟨_, ⟨⟩, name, listed, offers⟩ := answers.outcome.resolve_left (by simp)
  exact ⟨grows.trans answers.grows,
    .inr ⟨found, rfl, name, among listed, same ▸ offers_of_grows grows offers⟩⟩

/-- Once something was found, the names that were not asked do not matter. -/
theorem of_changed (answers : Answers lookup links member declaration best before names answer after)
    (changed : answer ≠ best) (among : names ⊆ more) {other : Option Found} :
    Answers lookup links member declaration other before more answer after := by
  obtain ⟨found, same, name, listed, offers⟩ := answers.outcome.resolve_left (changed ·.1)
  exact ⟨answers.grows, .inr ⟨found, same, name, among listed, offers⟩⟩

/-- Names of which nothing is known need not be asked. -/
theorem of_known (answers : Answers lookup links member declaration best before names answer after)
    (among : names ⊆ more) (asked : ∀ name ∈ more, (lookup name).isSome = true → name ∈ names) :
    Answers lookup links member declaration best before more answer after := by
  refine ⟨answers.grows, answers.outcome.imp (fun ⟨unchanged, passed⟩ => ⟨unchanged, passed.grows,
    fun name listed known => passed.reached name (asked name listed known) known, passed.settled⟩)
    fun ⟨found, same, name, listed, offers⟩ => ⟨found, same, name, among listed, offers⟩⟩

/-- One part of a search after another. The later one may leave the answer as it is. -/
theorem trans (earlier : Answers lookup links member declaration best before names between middle)
    (later : Answers lookup links member declaration between middle more answer after) :
    Answers lookup links member declaration best before (names ++ more) answer after := by
  refine ⟨earlier.grows.trans later.grows, ?_⟩
  rcases later.outcome with ⟨rfl, passedLater⟩ | ⟨found, same, name, listed, offers⟩
  · rcases earlier.outcome with ⟨rfl, passed⟩ | ⟨found, same, name, listed, offers⟩
    · exact .inl ⟨rfl, passed.append passedLater⟩
    · exact .inr ⟨found, same, name, List.mem_append_left _ listed, offers⟩
  · exact .inr ⟨found, same, name, List.mem_append_right _ listed,
      offers_of_grows earlier.grows offers⟩

/-- A class-like was entered, and its links were followed with what it declares itself as the best. -/
theorem enter {name : String} {info : ClassInfo} {own : Option Found} (byKey : ByKey lookup)
    (fresh : visits before (symbolKey name) = false) (found : lookup name = some info)
    (inner : Answers lookup links member declaration own (before.insert (symbolKey name)) (links info)
      answer after)
    (declares : answer = own → member info = none ∧ own = best ∨
      ∃ found, own = some found ∧ member info = some (declaration found)) :
    Answers lookup links member declaration best before [name] answer after := by
  refine ⟨(grows_insert before _).trans inner.grows, ?_⟩
  rcases inner.outcome with ⟨rfl, passed⟩ | ⟨hit, same, next, link, offers⟩
  · rcases declares rfl with ⟨lacks, rfl⟩ | ⟨hit, same, declares⟩
    · exact .inl ⟨rfl, .enter byKey found (by simp [lacks]) passed fun _ link _ => link⟩
    · exact .inr ⟨hit, same, name, .head _, offers_own fresh found declares⟩
  · exact .inr ⟨hit, same, name, .head _,
      offers_enter fresh found link (grows_insert before _) offers⟩

end Answers

/-- The names are asked in turn up to the first that something is found for. -/
theorem answers_firstHit {Declaration Found : Type} {lookup : String → Option ClassInfo}
    {links : ClassInfo → List String} {member : ClassInfo → Option Declaration}
    {declaration : Found → Declaration} {walk : String → Walking (Option Found)}
    (walks : ∀ visited name,
      Ensures (walk name) visited (Answers lookup links member declaration none visited [name]))
    (names : List String) (visited : Visited) :
    Ensures (firstHit walk names) visited
      (Answers lookup links member (fun hit => declaration hit.2) none visited names) := by
  induction names generalizing visited with
  | nil => exact .pure (.nothing (.refl visited))
  | cons name rest inductionHypothesis =>
    unfold firstHit
    refine (walks visited name).bind ?_
    rintro (_ | found) middle answers
    · exact fun answer after run =>
        .trans (.nothing answers.missed) (inductionHypothesis middle answer after run)
    · exact .pure (.of_hit (.refl visited) answers rfl (by simp))

/-! ### Methods without a body -/

section

variable {index : Index} {method : String}

/-- What a lookup of the method that was given `best` comes upon. -/
abbrev Replaces (index : Index) (method : String) :=
  Answers index.classOrTrait? methodLinks (·.method? method) FoundMethod.info

/-- Whatever the walk finds takes the place of a candidate without a body. -/
def Replacing (index : Index) (method : String)
    (walk : Option FoundMethod → String → Walking (Option FoundMethod)) : Prop :=
  ∀ visited best name, isImplemented best = false →
    Ensures (walk best name) visited (Replaces index method best visited [name])

theorem replaces_fromTraits {walk : Option FoundMethod → String → Walking (Option FoundMethod)}
    (replacing : Replacing index method walk) (owner : String) (names : List String)
    (visited : Visited) {best : Option FoundMethod} (lacking : isImplemented best = false) :
    Ensures (fromTraits (walk none) owner names best) visited
      (Replaces index method best visited names) := by
  induction names generalizing visited best with
  | nil => exact .pure (.nothing (.refl visited))
  | cons name rest inductionHypothesis =>
    unfold fromTraits
    refine (replacing visited none name rfl).bind ?_
    rintro (_ | found) middle answers
    · exact fun answer after run =>
        .trans (.nothing answers.missed) (inductionHypothesis middle lacking answer after run)
    · dsimp only
      rw [prefer_eq lacking]
      split
      · exact .pure (.of_hit (.refl visited) answers rfl (by simp))
      · next unimplemented =>
        have taken : Replaces index method best visited [name]
            (some ⟨found.info, owner, some name, !found.info.isAbstract⟩) middle :=
          .of_hit (.refl visited) answers rfl (List.Subset.refl _)
        have bodiless : isImplemented
            (some ⟨found.info, owner, some name, !found.info.isAbstract⟩) = false :=
          eq_false_of_ne_true unimplemented
        exact fun answer after run =>
          taken.trans (inductionHypothesis middle bodiless answer after run)

/-- What the interfaces declare takes the place of a candidate without a body. -/
theorem replaces_preferDeclared {names : List String} {best : Option FoundMethod}
    {hit : Option (String × FoundMethod)} {before after : Visited}
    (lacking : isImplemented best = false)
    (answers : Answers index.classOrTrait? methodLinks (·.method? method) (fun hit => hit.2.info) none
      before names hit after) :
    Replaces index method best before names (preferDeclared best hit) after := by
  cases hit with
  | none => exact .nothing answers.missed
  | some found =>
    rw [preferDeclared, prefer_eq lacking]
    exact .of_hit (.refl before) answers rfl (List.Subset.refl _)

/--
From a class-like that has no body for the method itself, the lookup keeps the candidate if the
class-likes that its links lead to, itself apart, do not declare the method. Otherwise it comes upon
a declaration of theirs.
-/
theorem replaces_links {walk : Option FoundMethod → String → Walking (Option FoundMethod)}
    (replacing : Replacing index method walk) {visited : Visited} {best : Option FoundMethod}
    {name : String} {info : ClassInfo} (fresh : visits visited (symbolKey name) = false)
    (found : index.classOrTrait? name = some info)
    (lacking : isImplemented (preferOwn method name info best) = false) :
    Ensures (methodStep index method walk best name) visited
      (Replaces index method (preferOwn method name info best)
        (visited.insert (symbolKey name)) (methodLinks info)) := by
  unfold methodStep
  refine .entering_fresh (fun again => ?_) (fun unknown => ?_) fun other _ foundToo => ?_
  · cases fresh.symm.trans again
  · cases found.symm.trans unknown
  obtain rfl := Option.some.inj (found.symm.trans foundToo)
  have asked := answers_firstHit fun visited next => replacing visited none next rfl
  dsimp only
  rw [if_neg (by rw [lacking]; exact Bool.false_ne_true)]
  refine (replaces_fromTraits replacing name _ _ lacking).bind fun best visitedTraits traits => ?_
  split
  · next implemented =>
    refine .pure (traits.of_changed ?_ (by intro; simp +contextual [methodLinks]))
    rintro rfl
    cases lacking.symm.trans implemented
  next unimplemented =>
  have bestLacking : isImplemented best = false := eq_false_of_ne_true unimplemented
  refine (asked info.parentInterfaces visitedTraits).bind ?_
  rintro (_ | hit) visitedParents parents
  swap
  · exact .pure (.of_hit traits.grows parents rfl (by intro; simp +contextual [methodLinks]))
  have passed := traits.trans (.nothing parents.missed)
  refine (asked (info.mixins.filter _) visitedParents).bind ?_
  rintro (_ | hit) visitedMixins mixins
  swap
  · exact .pure (.of_hit passed.grows mixins rfl (by intro; simp +contextual [methodLinks]))
  have passed := passed.trans (.nothing mixins.missed)
  refine (asked info.interfaces.toList visitedMixins).bind fun hit visitedInterfaces interfaces => ?_
  have passed := passed.trans (replaces_preferDeclared bestLacking interfaces)
  -- all links were followed, but for mixins that are not indexed
  have followed {answer : Option FoundMethod} {after : Visited}
      (above : Replaces index method (preferDeclared best hit) visitedInterfaces info.parent.toList
        answer after) :
      Replaces index method _ (visited.insert (symbolKey name)) (methodLinks info) answer after :=
    (passed.trans above).of_known (by intro; simp +contextual [methodLinks, or_imp])
      (by intro next link known; simpa [methodLinks, known] using link)
  cases extended : info.parent with
  | none =>
    rw [extended] at followed
    exact .pure (followed (.nothing (.refl _)))
  | some parent =>
    rw [extended] at followed
    exact fun answer after run => followed (replacing _ _ parent
      (isImplemented_preferDeclared bestLacking hit) answer after run)

/-- What a class-like declares itself takes the place of a candidate without a body. -/
theorem preferOwn_declares {name : String} {info : ClassInfo} {best : Option FoundMethod}
    (lacking : isImplemented best = false) :
    info.method? method = none ∧ preferOwn method name info best = best ∨
      ∃ found, preferOwn method name info best = some found ∧
        info.method? method = some found.info := by
  unfold preferOwn
  cases declares : info.method? method with
  | none => exact .inl ⟨rfl, rfl⟩
  | some own => exact .inr ⟨_, congrArg some (prefer_eq lacking _), rfl⟩

/-- A body of the class-like itself is found at once. -/
theorem own_body_first {walk : Option FoundMethod → String → Walking (Option FoundMethod)}
    {visited : Visited} {best : Option FoundMethod} {name : String} {info : ClassInfo}
    (fresh : visits visited (symbolKey name) = false) (found : index.classOrTrait? name = some info)
    (implemented : isImplemented (preferOwn method name info best) = true) :
    Ensures (methodStep index method walk best name) visited fun answer after =>
      answer = preferOwn method name info best ∧ after = visited.insert (symbolKey name) := by
  unfold methodStep
  refine .entering_fresh (fun again => ?_) (fun unknown => ?_) fun other _ foundToo => ?_
  · cases fresh.symm.trans again
  · cases found.symm.trans unknown
  obtain rfl := Option.some.inj (found.symm.trans foundToo)
  dsimp only
  rw [if_pos implemented]
  exact .pure ⟨rfl, rfl⟩

theorem replacing_methodStep {walk : Option FoundMethod → String → Walking (Option FoundMethod)}
    (replacing : Replacing index method walk) :
    Replacing index method (methodStep index method walk) := by
  intro visited best name lacking
  by_cases entered : ∃ info, visits visited (symbolKey name) = false ∧
      index.classOrTrait? name = some info
  · obtain ⟨info, fresh, found⟩ := entered
    have own := @preferOwn_declares method name info best lacking
    intro answer after run
    cases implemented : isImplemented (preferOwn method name info best) with
    | false =>
      exact .enter (byKey_classOrTrait? index) fresh found
        (replaces_links replacing fresh found implemented answer after run) fun _ => own
    | true =>
      obtain ⟨rfl, rfl⟩ := own_body_first fresh found implemented answer after run
      obtain ⟨-, unchanged⟩ | ⟨hit, same, declares⟩ := own
      · rw [unchanged, lacking] at implemented
        cases implemented
      · exact ⟨grows_insert visited _, .inr ⟨hit, same, name, .head _,
          offers_own fresh found declares⟩⟩
  · unfold methodStep
    exact .entering_fresh (fun again => .nothing (.of_visited again))
      (fun unknown => .nothing (.of_unknown (byKey_classOrTrait? index) unknown))
      fun info fresh found => absurd ⟨info, fresh, found⟩ entered

theorem replacing_methodWalk (fuel : Nat) :
    Replacing index method (methodWalk index method fuel) := by
  induction fuel with
  | zero => exact fun _ _ _ _ => .failure
  | succ fuel inductionHypothesis => exact replacing_methodStep inductionHypothesis

end

/-! ### Declarations of a class-like and of those behind its links -/

section

variable {Declaration : Type} (lookup : String → Option ClassInfo)
  (first links : ClassInfo → List String) (member : ClassInfo → Option Declaration)

/-- A class-like that has the member is reached over one of the first links of `name`, without coming
back to `name`. -/
def OffersBehind (name : String) (declared : Declaration) : Prop :=
  ∃ info, lookup name = some info ∧ ∃ next ∈ first info,
    Offers (others lookup name) links member next declared

variable {lookup first links member} in
/-- A class-like that is linked directly offers what it declares. -/
theorem OffersBehind.of_link {name next : String} {info : ClassInfo} {declared : Declaration}
    (found : lookup name = some info) (link : next ∈ first info)
    (declares : (others lookup name next).bind member = some declared) :
    OffersBehind lookup first links member name declared := by
  obtain ⟨linked, foundNext, declares⟩ := Option.bind_eq_some_iff.mp declares
  exact ⟨info, found, next, link, next, linked, .refl, foundNext, declares⟩

variable {lookup first links member} in
theorem not_offersBehind_of_nil {name : String} {info : ClassInfo} (found : lookup name = some info)
    (alone : first info = []) :
    ¬ ∃ declared, OffersBehind lookup first links member name declared := by
  rintro ⟨_, other, foundToo, next, link, -⟩
  obtain rfl := Option.some.inj (found.symm.trans foundToo)
  rw [alone] at link
  cases link

/-- Whether the class-likes behind the first links have the member decides what the search from there
comes upon. -/
theorem Answers.tell_behind {Found : Type} {declaration : Found → Declaration}
    {best answer : Option Found} {name : String} {info : ClassInfo} {after : Visited}
    (found : lookup name = some info)
    (answers : Answers lookup links member declaration best
      (Std.TreeSet.insert {} (symbolKey name)) (first info) answer after) :
    ((¬ ∃ declared, OffersBehind lookup first links member name declared) → answer = best) ∧
    ((∃ declared, OffersBehind lookup first links member name declared) →
      ∃ hit, answer = some hit ∧
        OffersBehind lookup first links member name (declaration hit)) := by
  obtain ⟨-, ⟨unchanged, passed⟩ | ⟨hit, same, next, link, offers⟩⟩ := answers
  · refine ⟨fun _ => unchanged, ?_⟩
    rintro ⟨declared, other, foundToo, next, link, offers⟩
    obtain rfl := Option.some.inj (found.symm.trans foundToo)
    rw [← unvisited_start] at offers
    exact absurd offers (passed.not_offered link)
  · rw [unvisited_start] at offers
    have behind : OffersBehind lookup first links member name (declaration hit) :=
      ⟨info, found, next, link, offers⟩
    exact ⟨fun nothing => absurd ⟨_, behind⟩ nothing, fun _ => ⟨hit, same, behind⟩⟩

end

/-- The method is declared by a class-like that is above `name` and is not `name` itself. -/
abbrev Redeclared (index : Index) (method name : String) : FunctionInfo → Prop :=
  OffersBehind index.classOrTrait? methodLinks methodLinks (·.method? method) name

/--
A declaration without a body is kept only if it is the only one. If no other class-like above the class
declares the method, the lookup that finds no body finds the declaration of the class itself; otherwise
it finds one of the others.
-/
theorem bodiless_kept_unless_redeclared (index : Index) (name method : String) {info : ClassInfo}
    {own : FunctionInfo} (indexed : index.classOrTrait? name = some info)
    (declares : info.method? method = some own) {found : FoundMethod}
    (finds : findMethod? index name method = some found) (bodiless : found.implemented = false) :
    ((¬ ∃ declared, Redeclared index method name declared) →
      found = { info := own, owner := name, viaTrait := none, implemented := false }) ∧
    ((∃ declared, Redeclared index method name declared) →
      Redeclared index method name found.info) := by
  obtain ⟨answer, next, -, runs⟩ := finishes_methodWalk index method (.none _) name {}
  have run : (methodStep index method (methodWalk index method _) none name).run {} =
      some (answer, next) := runs (depth index) le_rfl
  have equal : findMethod? index name method = answer := by
    rw [findMethod?, outcome?, runs (depth index) le_rfl]
    rfl
  have fresh : visits {} (symbolKey name) = false := Std.TreeSet.contains_emptyc
  have same : preferOwn method name info none =
      some { info := own, owner := name, viaTrait := none, implemented := !own.isAbstract } := by
    rw [preferOwn, declares]
    rfl
  obtain rfl : answer = some found := equal.symm.trans finds
  cases implemented : isImplemented (preferOwn method name info none) with
  | true =>
    obtain ⟨answered, -⟩ := own_body_first fresh indexed implemented _ _ run
    rw [← answered] at implemented
    cases bodiless.symm.trans implemented
  | false =>
    have answers := replaces_links (replacing_methodWalk _) fresh indexed implemented _ _ run
    obtain ⟨alone, outranked⟩ := answers.tell_behind index.classOrTrait? methodLinks methodLinks
      (·.method? method) indexed
    refine ⟨fun nothing => ?_, fun redeclared => ?_⟩
    · obtain rfl := Option.some.inj ((alone nothing).trans same)
      rw [show (!own.isAbstract) = false from bodiless]
    · obtain ⟨hit, answered, behind⟩ := outranked redeclared
      cases answered
      exact behind

/-- The interface `\Numbers` extends `\Values` and narrows its method `get`. -/
def narrowedIndex : Index :=
  let position : Position := ⟨"sample", 1, 0, 1⟩
  let get (type : String) : FunctionInfo :=
    { name := "get", position, isAbstract := true, types := .named type }
  Index.empty.insertFile "sample" ((FileSymbols.addClass {}
    (ClassInfo.addMethod { name := "\\Values", position, kind := .interface } (get "mixed"))).addClass
    (ClassInfo.addMethod
      { name := "\\Numbers", position, kind := .interface, parentInterfaces := ["\\Values"] }
      (get "int")))

/-- The lookup for `\Values` finds what it declares, the lookup for `\Numbers` what is above it. -/
theorem bodiless_kept_unless_redeclared_narrowedIndex :
    (∃ own found, findMethod? narrowedIndex "\\Values" "get" = some found ∧
      found = { info := own, owner := "\\Values", viaTrait := none, implemented := false }) ∧
    ∃ found, findMethod? narrowedIndex "\\Numbers" "get" = some found ∧
      Redeclared narrowedIndex "get" "\\Numbers" found.info := by
  have known (name : String) (links : List String)
      (same : ((narrowedIndex.classOrTrait? name).map methodLinks,
          ((narrowedIndex.classOrTrait? name).bind (·.method? "get")).isSome,
          (findMethod? narrowedIndex name "get").map (·.implemented)) =
        (some links, true, some false)) :
      ∃ info own found, narrowedIndex.classOrTrait? name = some info ∧ methodLinks info = links ∧
        info.method? "get" = some own ∧ findMethod? narrowedIndex name "get" = some found ∧
        found.implemented = false := by
    simp only [Prod.mk.injEq] at same
    obtain ⟨linked, declares, finds⟩ := same
    obtain ⟨info, indexed, linked⟩ := Option.map_eq_some_iff.mp linked
    obtain ⟨own, declares⟩ := Option.isSome_iff_exists.mp declares
    rw [indexed] at declares
    obtain ⟨found, finds, bodiless⟩ := Option.map_eq_some_iff.mp finds
    exact ⟨info, own, found, indexed, linked, declares, finds, bodiless⟩
  constructor
  · obtain ⟨info, own, found, indexed, linked, declares, finds, bodiless⟩ :=
      known "\\Values" [] (by decide)
    exact ⟨own, found, finds, (bodiless_kept_unless_redeclared narrowedIndex "\\Values" "get"
      indexed declares finds bodiless).1 (not_offersBehind_of_nil indexed linked)⟩
  · obtain ⟨info, own, found, indexed, linked, declares, finds, bodiless⟩ :=
      known "\\Numbers" ["\\Values"] (by decide)
    have above : ((others narrowedIndex.classOrTrait? "\\Numbers" "\\Values").bind
        (·.method? "get")).isSome = true := by decide
    obtain ⟨declared, above⟩ := Option.isSome_iff_exists.mp above
    exact ⟨found, finds, (bodiless_kept_unless_redeclared narrowedIndex "\\Numbers" "get" indexed
      declares finds bodiless).2 ⟨declared, .of_link indexed (linked ▸ .head _) above⟩⟩

/-- The declaration above an interface takes the place of the narrower one that the interface has. -/
theorem narrowed_declaration_lost :
    ¬ ∀ (index : Index) (name method : String) (info : ClassInfo) (own : FunctionInfo)
      (found : FoundMethod), index.classOrTrait? name = some info →
        info.method? method = some own → findMethod? index name method = some found →
          found.implemented = false → found.info = own := by
  intro literal
  have declares : ((narrowedIndex.classOrTrait? "\\Numbers").bind (·.method? "get")).map
      (·.types) = some (.named "int") := by decide
  have finds : (findMethod? narrowedIndex "\\Numbers" "get").map
      (fun found => (found.info.types, found.implemented)) = some (.named "mixed", false) := by decide
  obtain ⟨own, declares, ownTypes⟩ := Option.map_eq_some_iff.mp declares
  obtain ⟨info, indexed, declares⟩ := Option.bind_eq_some_iff.mp declares
  obtain ⟨found, finds, same⟩ := Option.map_eq_some_iff.mp finds
  obtain ⟨foundTypes, bodiless⟩ := Prod.mk.inj same
  rw [literal _ _ _ info own found indexed declares finds bodiless, ownTypes] at foundTypes
  exact absurd foundTypes (by decide)

/-! ### Constants -/

/-- The interfaces that a class implements. -/
def interfaceLinks (info : ClassInfo) : List String :=
  info.interfaces.toList

/-- The class-likes that a class takes constants from, traits apart. -/
def constantLinks (info : ClassInfo) : List String :=
  info.interfaces.toList ++ info.parentInterfaces ++ info.parent.toList

/-- The constant of a class-like, its own or one that a trait it uses has itself. -/
def suppliedConstant? (index : Index) (constant : String) (info : ClassInfo) : Option ConstInfo :=
  (info.constant? constant).or
    ((constantOfTrait? index constant info.traits.toList).map FoundConstant.info)

section

variable {index : Index} {constant : String}

/-- What a lookup of the constant comes upon. -/
abbrev SuppliesConstant (index : Index) (constant : String) :=
  Answers index.class? constantLinks (suppliedConstant? index constant) FoundConstant.info none

theorem supplies_constantStep {walk : String → Walking (Option FoundConstant)}
    (walks : ∀ visited name,
      Ensures (walk name) visited (SuppliesConstant index constant visited [name]))
    (visited : Visited) (name : String) :
    Ensures (constantStep index constant walk name) visited
      (SuppliesConstant index constant visited [name]) := by
  unfold constantStep
  refine .entering_fresh (fun again => .nothing (.of_visited again))
    (fun unknown => .nothing (.of_unknown (byKey_class? index) unknown)) fun info fresh found => ?_
  have hit {answer : Option FoundConstant} {after : Visited}
      (inner : Answers index.class? constantLinks (suppliedConstant? index constant)
        FoundConstant.info none (visited.insert (symbolKey name)) (constantLinks info) answer after)
      (lacks : answer = none → suppliedConstant? index constant info = none) :
      SuppliesConstant index constant visited [name] answer after :=
    inner.enter (byKey_class? index) fresh found fun missed => .inl ⟨lacks missed, rfl⟩
  have own {hit : FoundConstant} {after : Visited}
      (grows : Grows visits (visited.insert (symbolKey name)) after)
      (supplies : suppliedConstant? index constant info = some hit.info) :
      SuppliesConstant index constant visited [name] (some hit) after :=
    ⟨(grows_insert visited _).trans grows, .inr ⟨hit, rfl, name, .head _,
      offers_own fresh found supplies⟩⟩
  have asked := answers_firstHit walks
  refine (asked info.interfaces.toList _).bind ?_
  rintro (_ | implemented) visitedInterfaces interfaces
  swap
  · exact .pure (hit (.of_hit (.refl _) interfaces rfl (by intro; simp +contextual [constantLinks]))
      (fun missed => by cases missed))
  dsimp only
  split
  · next declared declares =>
    exact .pure (own interfaces.grows (by rw [suppliedConstant?, declares]; rfl))
  next lacks =>
  have passed := interfaces.missed
  refine (asked info.parentInterfaces _).bind ?_
  rintro (_ | extended) visitedParents parents
  swap
  · exact .pure (hit (.of_hit passed.grows parents rfl (by intro; simp +contextual [constantLinks]))
      (fun missed => by cases missed))
  have passed := passed.append parents.missed
  dsimp only
  split
  · next used supplies =>
    exact .pure (own passed.grows (by rw [suppliedConstant?, lacks, supplies]; rfl))
  next traitless =>
  have nothing : suppliedConstant? index constant info = none := by
    rw [suppliedConstant?, lacks, traitless]
    rfl
  have followed {answer : Option FoundConstant} {after : Visited}
      (above : SuppliesConstant index constant visitedParents info.parent.toList answer after) :
      SuppliesConstant index constant visited [name] answer after :=
    hit (.trans (.nothing passed) above) fun _ => nothing
  cases extended : info.parent with
  | none =>
    rw [extended] at followed
    exact .pure (followed (.nothing (.refl _)))
  | some parent =>
    rw [extended] at followed
    exact fun answer after run => followed (walks _ parent answer after run)

theorem supplies_constantWalk (fuel : Nat) (visited : Visited) (name : String) :
    Ensures (constantWalk index constant fuel name) visited
      (SuppliesConstant index constant visited [name]) := by
  induction fuel generalizing visited name with
  | zero => exact .failure
  | succ fuel inductionHypothesis => exact supplies_constantStep inductionHypothesis visited name

end

/-- The constant is one of a class-like that is above an interface which `name` implements, and that is
not `name` itself. -/
abbrev Imposed (index : Index) (constant name : String) : ConstInfo → Prop :=
  OffersBehind index.class? interfaceLinks constantLinks (suppliedConstant? index constant) name

/--
A class has its own constant, whatever its parents, its traits and the interfaces that it extends
declare, unless the interfaces that it implements lead to a constant of the name. Then it has one of
theirs.
-/
theorem own_constant_unless_imposed (index : Index) (name constant : String) {info : ClassInfo}
    {own : ConstInfo} (indexed : index.class? name = some info)
    (declares : info.constant? constant = some own) :
    ((¬ ∃ declared, Imposed index constant name declared) →
      findConstant? index name constant = some { info := own, owner := name }) ∧
    ((∃ declared, Imposed index constant name declared) →
      ∃ found, findConstant? index name constant = some found ∧
        Imposed index constant name found.info) := by
  obtain ⟨answer, next, -, runs⟩ := finishes_constantWalk index constant name {}
  have run : (constantStep index constant (constantWalk index constant _) name).run {} =
      some (answer, next) := runs (depth index) le_rfl
  have equal : findConstant? index name constant = answer := by
    rw [findConstant?, outcome?, runs (depth index) le_rfl]
    rfl
  rw [equal]
  suffices searched : Ensures (constantStep index constant (constantWalk index constant _) name) {}
      fun answer _ => ∃ hit visited,
        answer = some (hit.getD { info := own, owner := name }) ∧
        Answers index.class? constantLinks (suppliedConstant? index constant) FoundConstant.info none
          (Std.TreeSet.insert {} (symbolKey name)) (interfaceLinks info) hit visited by
    obtain ⟨hit, visited, rfl, answers⟩ := searched _ _ run
    obtain ⟨alone, outranked⟩ := answers.tell_behind index.class? interfaceLinks constantLinks
      (suppliedConstant? index constant) indexed
    refine ⟨fun nothing => ?_, fun imposed => ?_⟩
    · rw [alone nothing]
      rfl
    · obtain ⟨found, rfl, behind⟩ := outranked imposed
      exact ⟨found, rfl, behind⟩
  unfold constantStep
  refine .entering_fresh (fun again => ?_) (fun unknown => ?_) fun other _ foundToo => ?_
  · cases Std.TreeSet.contains_emptyc.symm.trans again
  · cases indexed.symm.trans unknown
  obtain rfl := Option.some.inj (indexed.symm.trans foundToo)
  refine (answers_firstHit (supplies_constantWalk _) (interfaceLinks info) _).bind ?_
  rintro (_ | hit) visited answers
  · dsimp only
    rw [declares]
    exact .pure ⟨none, visited, rfl, .nothing answers.missed⟩
  · exact .pure ⟨some hit.2, visited, rfl, .of_hit (.refl _) answers rfl (List.Subset.refl _)⟩

/-- The class `\Product` replaces a constant of its parent `\Base`; the class `\Plugin` replaces one of
the interface `\Versioned` that it implements. -/
def versionIndex : Index :=
  let position : Position := ⟨"sample", 1, 0, 1⟩
  let version (type : String) : Std.TreeMap String ConstInfo :=
    Std.TreeMap.empty.insert "VERSION" { position, types := .named type }
  let classLikes : List ClassInfo :=
    [{ name := "\\Base", position, constants := version "float" },
      { name := "\\Product", position, parent := some "\\Base", constants := version "string" },
      { name := "\\Versioned", position, kind := .interface, constants := version "int" },
      { name := "\\Plugin", position, interfaces := .ofList ["\\Versioned"],
        constants := version "string" }]
  Index.empty.insertFile "sample" (classLikes.foldl FileSymbols.addClass {})

/-- `\Product` has the constant itself, `\Plugin` has that of the interface. -/
theorem own_constant_unless_imposed_versionIndex :
    (∃ own, findConstant? versionIndex "\\Product" "VERSION" =
      some { info := own, owner := "\\Product" }) ∧
    ∃ found, findConstant? versionIndex "\\Plugin" "VERSION" = some found ∧
      Imposed versionIndex "VERSION" "\\Plugin" found.info := by
  have known (name : String) (interfaces : List String)
      (same : ((versionIndex.class? name).map interfaceLinks,
          ((versionIndex.class? name).bind (·.constant? "VERSION")).isSome) =
        (some interfaces, true)) :
      ∃ info own, versionIndex.class? name = some info ∧ interfaceLinks info = interfaces ∧
        info.constant? "VERSION" = some own := by
    obtain ⟨linked, declares⟩ := Prod.mk.inj same
    obtain ⟨info, indexed, linked⟩ := Option.map_eq_some_iff.mp linked
    obtain ⟨own, declares⟩ := Option.isSome_iff_exists.mp declares
    rw [indexed] at declares
    exact ⟨info, own, indexed, linked, declares⟩
  constructor
  · obtain ⟨info, own, indexed, linked, declares⟩ := known "\\Product" [] (by decide)
    exact ⟨own, (own_constant_unless_imposed versionIndex "\\Product" "VERSION" indexed
      declares).1 (not_offersBehind_of_nil indexed linked)⟩
  · obtain ⟨info, own, indexed, linked, declares⟩ := known "\\Plugin" ["\\Versioned"] (by decide)
    have above : ((others versionIndex.class? "\\Plugin" "\\Versioned").bind
        (suppliedConstant? versionIndex "VERSION")).isSome = true := by decide
    obtain ⟨declared, above⟩ := Option.isSome_iff_exists.mp above
    exact (own_constant_unless_imposed versionIndex "\\Plugin" "VERSION" indexed declares).2
      ⟨declared, .of_link indexed (linked ▸ .head _) above⟩

/-- A class that replaces a constant of an interface does not have its own. -/
theorem own_constant_lost :
    ¬ ∀ (index : Index) (name constant : String) (info : ClassInfo) (own : ConstInfo),
      index.class? name = some info → info.constant? constant = some own →
        findConstant? index name constant = some { info := own, owner := name } := by
  intro literal
  have declares : ((versionIndex.class? "\\Plugin").bind (·.constant? "VERSION")).isSome = true := by
    decide
  have owned : (findConstant? versionIndex "\\Plugin" "VERSION").map (·.owner) =
      some "\\Versioned" := by decide
  obtain ⟨own, declares⟩ := Option.isSome_iff_exists.mp declares
  obtain ⟨info, indexed, declares⟩ := Option.bind_eq_some_iff.mp declares
  rw [literal _ _ _ info own indexed declares] at owned
  have same : "\\Plugin" = "\\Versioned" := Option.some.inj owned
  exact absurd same (by decide)

end PhpAudit.Hierarchy
