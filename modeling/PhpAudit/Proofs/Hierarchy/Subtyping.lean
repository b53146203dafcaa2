/-
This file proves that subtyping is reachability in the graph of indexed classes. A class extends what
its chain of parents leads to, and it implements what is listed by some class that its parents and
interfaces lead to. Cyclic hierarchies and names that are not indexed are no exceptions.
-/

import PhpAudit.Proofs.Hierarchy.Search

namespace PhpAudit.Hierarchy

/-! ### Links between classes -/

def parentLinks (info : ClassInfo) : List String :=
  info.parent.toList

/-- The interfaces that a class lists: those it implements, and those that it extends. -/
def listed (info : ClassInfo) : List String :=
  info.interfaces.toList ++ info.parentInterfaces

/-- The classes that a class inherits interfaces from. -/
def superLinks (info : ClassInfo) : List String :=
  listed info ++ parentLinks info

/-- Some of the names has the key `target`. -/
def Names (target : String) (names : List String) : Prop :=
  ∃ name ∈ names, symbolKey name = target

/-- What a search from `root` decides: whether a hit is above it, or nothing was missed on the way. -/
structure Decides (lookup : String → Option ClassInfo) (links : ClassInfo → List String)
    (hit : ClassInfo → Prop) (root : String) (before : Visited) (names : List String)
    (answer : Bool) (after : Visited) : Prop where
  sound : answer = true → Above lookup links hit root
  complete : answer = false → Passed lookup links hit before after names

section

variable {lookup : String → Option ClassInfo} {links : ClassInfo → List String}
  {hit : ClassInfo → Prop} {root : String}

theorem Decides.hits {before after : Visited} {names : List String}
    (above : Above lookup links hit root) : Decides lookup links hit root before names true after :=
  ⟨fun _ => above, fun contrary => absurd contrary Bool.false_ne_true.symm⟩

theorem Decides.misses {before after : Visited} {names : List String}
    (passed : Passed lookup links hit before after names) :
    Decides lookup links hit root before names false after :=
  ⟨fun contrary => absurd contrary Bool.false_ne_true, fun _ => passed⟩

/-- A search that finishes, with nothing visited before, decides its question. -/
theorem decided {index : Index} {walk : Nat → Walking Bool}
    (finishes : Finishes index walk fun _ => True)
    (decides : ∀ fuel, Ensures (walk fuel) {} (Decides lookup links hit root {} [root])) :
    (outcome? (walk (depth index))).getD false = true ↔ Above lookup links hit root := by
  obtain ⟨answer, next, -, runs⟩ := finishes {}
  have run := runs (depth index) le_rfl
  have decision := decides (depth index) answer next run
  have equal : (outcome? (walk (depth index))).getD false = answer := by
    rw [outcome?, run]
    rfl
  rw [equal]
  cases answer with
  | true => exact ⟨fun _ => decision.sound rfl, fun _ => rfl⟩
  | false =>
    exact ⟨fun contrary => absurd contrary Bool.false_ne_true,
      fun above => absurd above ((decision.complete rfl).not_above (.head _))⟩

end

/-! ### Parents -/

section

variable {index : Index} {root target : String}

theorem decides_parentStep {walk : String → Walking Bool}
    (walks : ∀ visited name, Reaches index.class? parentLinks root name →
      Ensures (walk name) visited (Decides index.class? parentLinks
        (fun info => Names target (parentLinks info)) root visited [name]))
    (visited : Visited) (name : String) (reached : Reaches index.class? parentLinks root name) :
    Ensures (parentStep index target walk name) visited (Decides index.class? parentLinks
      (fun info => Names target (parentLinks info)) root visited [name]) := by
  unfold parentStep
  refine .entering (fun again => .misses (.of_visited again))
    (fun unknown => .misses (.of_unknown (byKey_class? index) unknown)) fun info found => ?_
  cases above : info.parent with
  | none =>
    have orphan : parentLinks info = [] := by rw [parentLinks, above, Option.toList_none]
    refine .pure (.misses (.enter (byKey_class? index) found ?_ (.refl _) ?_))
    · rintro ⟨_, member, _⟩
      rw [orphan] at member
      exact absurd member List.not_mem_nil
    · rw [orphan]
      exact fun _ member => absurd member List.not_mem_nil
  | some parent =>
    have only : parentLinks info = [parent] := by rw [parentLinks, above, Option.toList_some]
    have member : parent ∈ parentLinks info := by simp [only]
    dsimp only
    split
    · next same => exact .pure (.hits ⟨name, info, reached, found, parent, member, eq_of_beq same⟩)
    · next other =>
      intro answer next run
      obtain ⟨sound, complete⟩ := walks _ parent (reached.tail ⟨info, found, member⟩) answer next run
      refine ⟨sound, fun missed => .enter (byKey_class? index) found ?_ (complete missed) ?_⟩
      · rintro ⟨_, member, same⟩
        rw [only, List.mem_singleton] at member
        exact other (beq_iff_eq.mpr (member ▸ same))
      · intro next member _
        rwa [only] at member

theorem decides_parentWalk (fuel : Nat) :
    ∀ visited name, Reaches index.class? parentLinks root name →
      Ensures (parentWalk index target fuel name) visited (Decides index.class? parentLinks
        (fun info => Names target (parentLinks info)) root visited [name]) := by
  induction fuel with
  | zero => exact fun _ _ _ => .failure
  | succ fuel inductionHypothesis => exact decides_parentStep inductionHypothesis

theorem hasParent_iff_above (index : Index) (name target : String) : hasParent index name target =
    true ↔ Above index.class? parentLinks (fun info => Names (symbolKey target) (parentLinks info))
      name :=
  decided (finishes_parentWalk index (symbolKey target) name)
    fun fuel => decides_parentWalk fuel {} name .refl

/-! ### Interfaces -/

theorem decides_leadsTo {walk : String → Walking Bool} {info : ClassInfo} {name : String}
    (walks : ∀ visited name, Reaches index.class? superLinks root name →
      Ensures (walk name) visited (Decides index.class? superLinks
        (fun info => Names target (listed info)) root visited [name]))
    (reached : Reaches index.class? superLinks root name) (found : index.class? name = some info)
    (names : List String) (included : names ⊆ listed info) (visited : Visited) :
    Ensures (leadsTo target walk names) visited fun answer after =>
      Decides index.class? superLinks (fun info => Names target (listed info)) root visited names
        answer after ∧ (answer = false → ¬ Names target names) := by
  induction names generalizing visited with
  | nil =>
    refine .pure ⟨.misses (.refl visited), ?_⟩
    rintro - ⟨_, member, _⟩
    exact absurd member List.not_mem_nil
  | cons next rest inductionHypothesis =>
    have lists : next ∈ listed info := included (.head _)
    unfold leadsTo
    split
    · next same =>
      exact .pure ⟨.hits ⟨name, info, reached, found, next, lists, eq_of_beq same⟩,
        fun contrary => absurd contrary Bool.false_ne_true.symm⟩
    · next other =>
      refine (walks visited next
        (reached.tail ⟨info, found, List.mem_append_left _ lists⟩)).bind ?_
      rintro (_ | _) middle ⟨sound, complete⟩
      · refine fun answer after run => ?_
        obtain ⟨⟨soundRest, completeRest⟩, unlisted⟩ := inductionHypothesis
          (fun _ member => included (.tail _ member)) middle answer after run
        refine ⟨⟨soundRest, fun missed => (complete rfl).append (completeRest missed)⟩, ?_⟩
        rintro missed ⟨listedName, member, same⟩
        rcases List.mem_cons.mp member with rfl | member
        · exact other (beq_iff_eq.mpr same)
        · exact unlisted missed ⟨listedName, member, same⟩
      · exact .pure ⟨.hits (sound rfl), fun contrary => absurd contrary Bool.false_ne_true.symm⟩

theorem decides_interfaceStep {walk : String → Walking Bool}
    (walks : ∀ visited name, Reaches index.class? superLinks root name →
      Ensures (walk name) visited (Decides index.class? superLinks
        (fun info => Names target (listed info)) root visited [name]))
    (visited : Visited) (name : String) (reached : Reaches index.class? superLinks root name) :
    Ensures (interfaceStep index target walk name) visited (Decides index.class? superLinks
      (fun info => Names target (listed info)) root visited [name]) := by
  unfold interfaceStep
  refine .entering (fun again => .misses (.of_visited again))
    (fun unknown => .misses (.of_unknown (byKey_class? index) unknown)) fun info found => ?_
  refine (decides_leadsTo walks reached found (listed info) (List.Subset.refl _) _).bind ?_
  rintro (_ | _) middle ⟨⟨sound, complete⟩, unlisted⟩
  · have followed := complete rfl
    cases above : info.parent with
    | none =>
      refine .pure (.misses (.enter (byKey_class? index) found (unlisted rfl) followed ?_))
      intro next member _
      rwa [superLinks, parentLinks, above, Option.toList_none, List.append_nil] at member
    | some parent =>
      have links : superLinks info = listed info ++ [parent] := by
        rw [superLinks, parentLinks, above, Option.toList_some]
      have member : parent ∈ superLinks info := by simp [links]
      intro answer after run
      obtain ⟨soundAbove, completeAbove⟩ :=
        walks middle parent (reached.tail ⟨info, found, member⟩) answer after run
      refine ⟨soundAbove, fun missed => .enter (byKey_class? index) found (unlisted rfl)
        (followed.append (completeAbove missed)) ?_⟩
      intro next member _
      rwa [links] at member
  · exact .pure (.hits (sound rfl))

theorem decides_interfaceWalk (fuel : Nat) :
    ∀ visited name, Reaches index.class? superLinks root name →
      Ensures (interfaceWalk index target fuel name) visited (Decides index.class? superLinks
        (fun info => Names target (listed info)) root visited [name]) := by
  induction fuel with
  | zero => exact fun _ _ _ => .failure
  | succ fuel inductionHypothesis => exact decides_interfaceStep inductionHypothesis

theorem implements_iff_above (index : Index) (name target : String) : implements index name target =
    true ↔ Above index.class? superLinks (fun info => Names (symbolKey target) (listed info)) name :=
  decided (finishes_interfaceWalk index (symbolKey target) name)
    fun fuel => decides_interfaceWalk fuel {} name .refl

end

/-! ### Subtyping -/

/--
Subtyping is reachability. A class extends the names that one or more links to parents lead to, and
implements the interfaces that are listed by an indexed class which any number of links to parents and
interfaces lead to; it is an instance of itself and of both. Names count as the same if their keys are.
-/
theorem subtyping_is_reachability (index : Index) (name target : String) :
    (hasParent index name target = true ↔
      ∃ parent, Relation.TransGen (Link index.class? parentLinks) name parent ∧
        symbolKey parent = symbolKey target) ∧
    (implements index name target = true ↔
      ∃ lister info, Relation.ReflTransGen (Link index.class? superLinks) name lister ∧
        index.class? lister = some info ∧
        ∃ interface ∈ listed info, symbolKey interface = symbolKey target) ∧
    (instanceOf index name target = true ↔
      symbolKey name = symbolKey target ∨ hasParent index name target = true ∨
        implements index name target = true) := by
  refine ⟨?_, implements_iff_above index name target, ?_⟩
  · rw [hasParent_iff_above]
    constructor
    · rintro ⟨child, info, reached, found, parent, member, same⟩
      exact ⟨parent, .tail' reached ⟨info, found, member⟩, same⟩
    · rintro ⟨parent, reached, same⟩
      obtain ⟨child, reachedChild, info, found, member⟩ :=
        Relation.TransGen.tail'_iff.mp reached
      exact ⟨child, info, reachedChild, found, parent, member, same⟩
  · unfold instanceOf
    rw [Bool.or_eq_true, Bool.or_eq_true, beq_iff_eq, or_assoc]

end PhpAudit.Hierarchy
