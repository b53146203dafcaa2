/-
This file follows searches through class hierarchies. A search passes through a class-like at most
once, whichever link it comes by, and ends where it finds something. So if it finds nothing, the
class-likes that it passed through lead to no others, and what is searched for is declared by none
of those that the start leads to.

The links may form cycles. A class-like that a search comes back to may still have links that were
not followed; the statement about a part of a search therefore speaks of the class-likes that were
entered and left within that part.
-/

import Mathlib.Logic.Relation
import PhpAudit.Proofs.Resolution.Walks

namespace PhpAudit.Hierarchy

/-! ### Links -/

section

variable (lookup : String → Option ClassInfo) (links : ClassInfo → List String)

/-- The class-like of a name has `next` among its links. -/
def Link (name next : String) : Prop :=
  ∃ info, lookup name = some info ∧ next ∈ links info

/-- The second name is reached from the first over any number of links. -/
abbrev Reaches : String → String → Prop :=
  Relation.ReflTransGen (Link lookup links)

/-- A class-like that is reached from `root` satisfies `hit`. -/
def Above (hit : ClassInfo → Prop) (root : String) : Prop :=
  ∃ name info, Reaches lookup links root name ∧ lookup name = some info ∧ hit info

end

/-- What is known of a name depends on its key alone. -/
def ByKey (lookup : String → Option ClassInfo) : Prop :=
  ∀ {name other : String}, symbolKey name = symbolKey other → lookup name = lookup other

theorem byKey_class? (index : Index) : ByKey index.class? := by
  intro name other same
  rw [Index.class?, same]
  rfl

theorem byKey_classOrTrait? (index : Index) : ByKey index.classOrTrait? := by
  intro name other same
  rw [Index.classOrTrait?, Index.class?, Index.trait?, same]
  rfl

/-! ### Class-likes that a search has passed through -/

/--
Between two points of a search without a hit: the known ones of the given names were visited, and
each class-like visited on the way is no hit and has known links only to visited ones.
-/
structure Passed (lookup : String → Option ClassInfo) (links : ClassInfo → List String)
    (hit : ClassInfo → Prop) (before after : Visited) (names : List String) : Prop where
  grows : Grows visits before after
  reached : ∀ name ∈ names, (lookup name).isSome = true → visits after (symbolKey name) = true
  settled : ∀ {name info}, lookup name = some info → visits before (symbolKey name) = false →
    visits after (symbolKey name) = true →
      ¬ hit info ∧ ∀ next ∈ links info, (lookup next).isSome = true →
        visits after (symbolKey next) = true

namespace Passed

variable {lookup : String → Option ClassInfo} {links : ClassInfo → List String}
  {hit : ClassInfo → Prop} {first second third : Visited} {names others : List String}
  {name : String}

theorem refl (visited : Visited) : Passed lookup links hit visited visited [] where
  grows := .refl visited
  reached _ member := absurd member List.not_mem_nil
  settled _ unvisited visited := absurd (unvisited.symm.trans visited) Bool.false_ne_true

theorem append (left : Passed lookup links hit first second names)
    (right : Passed lookup links hit second third others) :
    Passed lookup links hit first third (names ++ others) where
  grows := left.grows.trans right.grows
  reached name member known := (List.mem_append.mp member).elim
    (fun member => right.grows _ (left.reached name member known))
    (fun member => right.reached name member known)
  settled {name info} found unvisited visited := by
    cases between : visits second (symbolKey name) with
    | true =>
      obtain ⟨noHit, followed⟩ := left.settled found unvisited between
      exact ⟨noHit, fun next member known => right.grows _ (followed next member known)⟩
    | false => exact right.settled found between visited

/-- A class-like that is visited again is not entered. -/
theorem of_visited (visited : visits first (symbolKey name) = true) :
    Passed lookup links hit first first [name] where
  grows := .refl first
  reached other member _ := by
    rw [List.mem_singleton.mp member]
    exact visited
  settled _ unvisited visited := absurd (unvisited.symm.trans visited) Bool.false_ne_true

theorem visits_insert {visited : Visited} {key other : String}
    (found : visits (visited.insert key) other = true) :
    key = other ∨ visits visited other = true := by
  unfold visits at found ⊢
  rwa [Std.TreeSet.contains_insert, Bool.or_eq_true, beq_iff_eq,
    Std.LawfulEqCmp.compare_eq_iff_eq] at found

/-- A name that is not known leads nowhere. -/
theorem of_unknown (byKey : ByKey lookup) (unknown : lookup name = none) :
    Passed lookup links hit first (first.insert (symbolKey name)) [name] where
  grows := grows_insert first _
  reached other member known := by
    rw [List.mem_singleton.mp member, unknown] at known
    exact absurd known Bool.false_ne_true
  settled {other info} found unvisited visited := by
    rcases visits_insert visited with same | visited
    · rw [← byKey same, unknown] at found
      cases found
    · exact absurd (unvisited.symm.trans visited) Bool.false_ne_true

/-- A class-like is left when all its links were followed. -/
theorem enter (byKey : ByKey lookup) {info : ClassInfo} (found : lookup name = some info)
    (noHit : ¬ hit info)
    (inner : Passed lookup links hit (first.insert (symbolKey name)) second names)
    (followed : ∀ next ∈ links info, (lookup next).isSome = true → next ∈ names) :
    Passed lookup links hit first second [name] where
  grows := (grows_insert first _).trans inner.grows
  reached other member _ := by
    rw [List.mem_singleton.mp member]
    exact inner.grows _ Std.TreeSet.contains_insert_self
  settled {other otherInfo} foundOther unvisited visited := by
    cases entered : visits (first.insert (symbolKey name)) (symbolKey other) with
    | false => exact inner.settled foundOther entered visited
    | true =>
      have same := (visits_insert entered).resolve_right (by simp [unvisited])
      rw [← byKey same, found] at foundOther
      obtain rfl := Option.some.inj foundOther
      exact ⟨noHit, fun next member known =>
        inner.reached next (followed next member known) known⟩

/-- A search without a hit that started with nothing visited has missed nothing. -/
theorem not_above {root : String} {after : Visited} (passed : Passed lookup links hit {} after names)
    (asked : root ∈ names) : ¬ Above lookup links hit root := by
  rintro ⟨name, info, reaches, found, hits⟩
  have fresh (key : String) : visits {} key = false := Std.TreeSet.contains_emptyc
  have visited (known : (lookup name).isSome = true) : visits after (symbolKey name) = true := by
    clear found
    induction reaches with
    | refl => exact passed.reached root asked known
    | tail _ link inductionHypothesis =>
      obtain ⟨above, foundAbove, member⟩ := link
      have visitedAbove := inductionHypothesis (by rw [foundAbove]; rfl)
      exact (passed.settled foundAbove (fresh _) visitedAbove).2 _ member known
  exact (passed.settled found (fresh _) (visited (by rw [found]; rfl))).1 hits

end Passed

/-! ### Parts of a search -/

/-- What a walk comes to if it finishes. -/
def Ensures {Answer : Type} (walk : Walking Answer) (visited : Visited)
    (post : Answer → Visited → Prop) : Prop :=
  ∀ answer next, walk.run visited = some (answer, next) → post answer next

namespace Ensures

variable {Answer Other : Type} {visited : Visited} {post : Answer → Visited → Prop}

theorem pure {answer : Answer} (holds : post answer visited) :
    Ensures (pure answer) visited post := by
  intro _ _ run
  obtain ⟨rfl, rfl⟩ := Prod.mk.inj (Option.some.inj run)
  exact holds

theorem failure : Ensures (failure : Walking Answer) visited post := by
  intro _ _ run
  cases run

theorem bind {walk : Walking Other} {rest : Other → Walking Answer}
    {between : Other → Visited → Prop} (first : Ensures walk visited between)
    (second : ∀ answer next, between answer next → Ensures (rest answer) next post) :
    Ensures (walk >>= rest) visited post := by
  intro answer last run
  rw [StateT.run_bind] at run
  obtain ⟨⟨middle, next⟩, firstRun, secondRun⟩ := Option.bind_eq_some_iff.mp run
  exact second middle next (first middle next firstRun) answer last secondRun

/-- A class-like that is entered was not visited before. -/
theorem entering_fresh {lookup : String → Option ClassInfo} {name : String} {missed : Answer}
    {walk : ClassInfo → Walking Answer}
    (again : visits visited (symbolKey name) = true → post missed visited)
    (unknown : lookup name = none → post missed (visited.insert (symbolKey name)))
    (entered : ∀ info, visits visited (symbolKey name) = false → lookup name = some info →
      Ensures (walk info) (visited.insert (symbolKey name)) post) :
    Ensures (entering lookup name missed walk) visited post := by
  intro answer next run
  unfold Hierarchy.entering at run
  rw [StateT.run_bind] at run
  change StateT.run (if visits visited (symbolKey name) = true then _ else _) visited = _ at run
  split at run
  · next visitedBefore => exact pure (again visitedBefore) answer next run
  · next fresh =>
    rw [StateT.run_bind] at run
    cases found : lookup name with
    | none =>
      rw [found] at run
      exact pure (unknown found) answer next run
    | some info =>
      rw [found] at run
      exact entered info (Bool.eq_false_of_not_eq_true fresh) found answer next run

theorem entering {lookup : String → Option ClassInfo} {name : String} {missed : Answer}
    {walk : ClassInfo → Walking Answer}
    (again : visits visited (symbolKey name) = true → post missed visited)
    (unknown : lookup name = none → post missed (visited.insert (symbolKey name)))
    (entered : ∀ info, lookup name = some info →
      Ensures (walk info) (visited.insert (symbolKey name)) post) :
    Ensures (entering lookup name missed walk) visited post :=
  entering_fresh again unknown fun info _ => entered info

end Ensures

end PhpAudit.Hierarchy
