/-
This file says when resolution distributes over unions. The members of a set share one memo, so what
one of them leaves there may change what the next one gives: an entry made within a cycle lacks what
the value at the entrance of the cycle gives. Where the values only hand on what others give, the
missing names reach the union from the other member. Where a value does more with them, as to make
arrays of them, they are lost.
-/

import PhpAudit.Proofs.Resolution.CallGraph

namespace PhpAudit

/-! ### Sets in order -/

namespace TypeValue

/-- The values are names of concrete types in increasing order. -/
structure Ordered (members : List TypeValue) : Prop where
  named : ∀ value ∈ members, ∃ name, value = .concrete name
  increasing : members.Pairwise fun first second => first.precedes second = true

theorem precedes_concrete {first second : String} :
    (concrete first).precedes (concrete second) = true ↔ compare first second = .lt :=
  beq_iff_eq

theorem named_insertOrdered {name : String} {members : List TypeValue}
    (named : ∀ value ∈ members, ∃ name, value = .concrete name) :
    ∀ value ∈ insertOrdered (.concrete name) members, ∃ name, value = .concrete name := by
  intro value listed
  rcases mem_insertOrdered.mp listed with rfl | listed
  · exact ⟨name, rfl⟩
  · exact named value listed

theorem Ordered.insertOrdered {name : String} {members : List TypeValue} (ordered : Ordered members)
    (fresh : .concrete name ∉ members) : Ordered (insertOrdered (.concrete name) members) := by
  refine ⟨named_insertOrdered ordered.named, ?_⟩
  obtain ⟨named, increasing⟩ := ordered
  induction members with
  | nil => exact List.pairwise_singleton _ _
  | cons head rest inductionHypothesis =>
    obtain ⟨least, sorted⟩ := List.pairwise_cons.mp increasing
    obtain ⟨first, rfl⟩ := named head List.mem_cons_self
    have namedRest (value : TypeValue) (listed : value ∈ rest) :=
      named value (List.mem_cons_of_mem _ listed)
    rw [List.mem_cons, not_or] at fresh
    unfold TypeValue.insertOrdered
    split
    · next before =>
      rw [precedes_concrete] at before
      refine List.pairwise_cons.mpr ⟨fun value listed => ?_, increasing⟩
      rcases List.mem_cons.mp listed with rfl | listed
      · exact precedes_concrete.mpr before
      · obtain ⟨other, rfl⟩ := namedRest value listed
        exact precedes_concrete.mpr
          (Std.TransCmp.lt_trans before (precedes_concrete.mp (least _ listed)))
    · next after =>
      refine List.pairwise_cons.mpr ⟨fun value listed => ?_,
        inductionHypothesis fresh.2 namedRest sorted⟩
      rcases mem_insertOrdered.mp listed with rfl | listed
      · rw [precedes_concrete] at after ⊢
        have different : compare name first ≠ .eq := fun same =>
          fresh.1 (congrArg concrete (Std.LawfulEqCmp.eq_of_compare same))
        have greater : compare name first = .gt := by
          cases order : compare name first with
          | lt => exact absurd order after
          | eq => exact absurd order different
          | gt => rfl
        exact Std.OrientedCmp.lt_of_gt greater
      · exact least value listed

theorem Ordered.insertAll {members values : List TypeValue} (ordered : Ordered members)
    (named : ∀ value ∈ values, ∃ name, value = .concrete name) :
    Ordered (insertAll members values) := by
  unfold TypeValue.insertAll
  induction values generalizing members with
  | nil => exact ordered
  | cons value rest inductionHypothesis =>
    refine inductionHypothesis ?_ fun value listed => named value (List.mem_cons_of_mem _ listed)
    dsimp only [insertNew]
    split
    · exact ordered
    · next fresh =>
      obtain ⟨name, rfl⟩ := named value List.mem_cons_self
      exact ordered.insertOrdered fresh

/-- Ordered lists with the same members are the same list. -/
theorem Ordered.eq {first second : List TypeValue} (one : Ordered first) (two : Ordered second)
    (distinct : first.Nodup) (distinctToo : second.Nodup)
    (same : ∀ value, value ∈ first ↔ value ∈ second) : first = second := by
  refine List.Perm.eq_of_pairwise (fun left right listed listedToo before after => ?_) one.increasing
    two.increasing ((List.perm_ext_iff_of_nodup distinct distinctToo).mpr same)
  obtain ⟨name, rfl⟩ := one.named left listed
  obtain ⟨other, rfl⟩ := two.named right listedToo
  have reversed := Std.OrientedCmp.gt_of_lt (precedes_concrete.mp before)
  rw [precedes_concrete.mp after] at reversed
  cases reversed

end TypeValue

namespace Resolution

/-! ### Unions of resolved sets -/

variable {index : Index}

theorem mem_union {first second : TypeSet} {value : TypeValue} :
    value ∈ (first.union second).members ↔ value ∈ first.members ∨ value ∈ second.members := by
  refine ⟨mem_append, fun listed => ?_⟩
  unfold TypeSet.union TypeSet.append
  split
  · next isEmpty =>
    rw [List.isEmpty_iff.mp isEmpty] at listed
    exact listed.resolve_right List.not_mem_nil
  split
  · next isEmpty =>
    have none : first.members = [] := List.isEmpty_iff.mp isEmpty
    rw [none] at listed
    exact listed.resolve_left List.not_mem_nil
  · exact TypeValue.mem_insertAll.mpr listed

theorem ordered_toSet (names : Names) : TypeValue.Ordered (toSet names).members := by
  refine TypeValue.Ordered.insertAll ⟨by simp, List.Pairwise.nil⟩ fun value listed => ?_
  obtain ⟨name, -, rfl⟩ := List.mem_map.mp listed
  exact ⟨name, rfl⟩

theorem exists_resolve_eq_toSet (index : Index) (owner : String) (types : TypeSet) :
    ∃ names, resolve index owner types = toSet names := by
  obtain ⟨names, next, runs⟩ := exists_run? index owner types []
  exact ⟨names, by rw [resolve, resolveWith, runs _ le_rfl]⟩

theorem ordered_union {first second : TypeSet} (one : TypeValue.Ordered first.members)
    (two : TypeValue.Ordered second.members) : TypeValue.Ordered (first.union second).members := by
  unfold TypeSet.union TypeSet.append
  split
  · exact one
  split
  · exact two
  · exact one.insertAll two.named

theorem ext_members {first second : TypeSet} (members : first.members = second.members)
    (isSealed : first.isSealed = second.isSealed) (isPrecise : first.isPrecise = second.isPrecise) :
    first = second := by
  cases first
  cases second
  simp_all

/-- A resolved set is the union of two others if it has their members. -/
theorem toSet_eq_union {names first second : Names}
    (same : ∀ value, value ∈ (toSet names).members ↔
      value ∈ (toSet first).members ∨ value ∈ (toSet second).members) :
    toSet names = (toSet first).union (toSet second) := by
  refine ext_members ?_ ?_ ?_
  · refine (ordered_toSet names).eq (ordered_union (ordered_toSet first) (ordered_toSet second))
      (TypeSet.distinct _) (TypeSet.distinct _) fun value => ?_
    rw [same, mem_union]
  all_goals
    unfold TypeSet.union TypeSet.append
    split
    · rfl
    split <;> rfl

theorem met_union {owner : String} {first second : TypeSet} {key : Key}
    (met : Met index (Member owner (first.union second)) key) :
    Met index (Member owner first) key ∨ Met index (Member owner second) key := by
  induction met with
  | start starts =>
    rcases mem_union.mp starts.1 with listed | listed
    · exact Or.inl (.start ⟨listed, starts.2⟩)
    · exact Or.inr (.start ⟨listed, starts.2⟩)
  | part _ tangled partOf inductionHypothesis =>
    exact inductionHypothesis.imp (.part · tangled partOf) (.part · tangled partOf)

theorem Relayed.union {owner : String} {first second : TypeSet}
    (one : Relayed index (Member owner first)) (two : Relayed index (Member owner second)) :
    Relayed index (Member owner (first.union second)) where
  relays key met tangled :=
    (met_union met).elim (one.relays key · tangled) (two.relays key · tangled)
  settled key names met unrolls :=
    (met_union met).elim (one.settled key names · unrolls) (two.settled key names · unrolls)

/-- Resolution distributes over the union of sets if every value that they lead to either hands on
what others give, or has a finite tree of calls and does not give the type of an empty array. -/
theorem resolve_union (index : Index) (owner : String) (first second : TypeSet)
    (one : Relayed index (Member owner first)) (two : Relayed index (Member owner second)) :
    resolve index owner (first.union second) =
      (resolve index owner first).union (resolve index owner second) := by
  obtain ⟨names, joined⟩ := exists_resolve_eq_toSet index owner (first.union second)
  obtain ⟨firstNames, firstResolved⟩ := exists_resolve_eq_toSet index owner first
  obtain ⟨secondNames, secondResolved⟩ := exists_resolve_eq_toSet index owner second
  rw [joined, firstResolved, secondResolved]
  refine toSet_eq_union fun value => ?_
  rw [← joined, ← firstResolved, ← secondResolved, mem_resolve (one.union two), mem_resolve one,
    mem_resolve two, ← exists_or]
  refine exists_congr fun name => ?_
  rw [← and_or_left, ← exists_or]
  refine and_congr_right fun _ => exists_congr fun part => ?_
  rw [mem_union, or_and_right]

/-! ### Cycles -/

/-- The values of a cycle have infinite trees of calls. -/
theorem tangled_of_cycle {cycle : List Key}
    (turns : ∀ key ∈ cycle, ∃ source, recorded? index key.2 key.1 = some source ∧
      ∃ part ∈ source.2.members, (part, source.1) ∈ cycle ∧ (part, source.1) ≠ key)
    {key : Key} (listed : key ∈ cycle) : Tangled index key := by
  rintro names ⟨fuel, unrolls⟩
  induction fuel generalizing key names with
  | zero => cases unrolls
  | succ fuel inductionHypothesis =>
    obtain ⟨source, found, part, partOf, next, different⟩ := turns key listed
    obtain ⟨entry, expands, -⟩ := exists_exact_of_unrolled unrolls
    rw [expandApart, expand_recorded found] at expands
    obtain ⟨joined, gathered, -⟩ := Option.map_eq_some_iff.mp expands
    obtain ⟨others, step⟩ := (gather_eq_some gathered).1 part partOf
    dsimp only at step
    rw [if_neg different] at step
    exact inductionHypothesis next others step

/-- The value has a finite tree of calls and does not give the type of an empty array. -/
def isSettled (index : Index) (fuel : Nat) (key : Key) : Bool :=
  (unrolled index fuel key.2 key.1).any fun names => !names.contains TypeName.emptyArray

/-- The value stands for a recorded set of values of the two lists, among them another one of the
cycle. -/
def isOnCycle (index : Index) (finite cycle : List Key) (key : Key) : Bool :=
  (recorded? index key.2 key.1).any fun source =>
    source.2.members.all (fun part => (part, source.1) ∈ finite ++ cycle) &&
      source.2.members.any fun part => (part, source.1) ∈ cycle && (part, source.1) ≠ key

theorem exists_unrolls_of_isSettled {fuel : Nat} {key : Key}
    (settled : isSettled index fuel key = true) :
    ∃ names, Unrolls index key.2 key.1 names ∧ TypeName.emptyArray ∉ names := by
  unfold isSettled at settled
  cases unrolls : unrolled index fuel key.2 key.1 with
  | none =>
    rw [unrolls] at settled
    cases settled
  | some names =>
    rw [unrolls] at settled
    refine ⟨names, ⟨fuel, unrolls⟩, fun listed => ?_⟩
    simp [Std.TreeSet.contains_iff_mem.mpr listed] at settled

theorem relayed_of_cycle {start : Key → Prop} (fuel : Nat) (finite cycle : List Key)
    (starts : ∀ key, start key → key ∈ finite ++ cycle)
    (ends : finite.all (isSettled index fuel) = true)
    (turns : cycle.all (isOnCycle index finite cycle) = true) : Relayed index start := by
  have settled (key : Key) (listed : key ∈ finite) :=
    exists_unrolls_of_isSettled (List.all_eq_true.mp ends key listed)
  have onCycle (key : Key) (listed : key ∈ cycle) : ∃ source,
      recorded? index key.2 key.1 = some source ∧
      (∀ part ∈ source.2.members, (part, source.1) ∈ finite ++ cycle) ∧
      ∃ part ∈ source.2.members, (part, source.1) ∈ cycle ∧ (part, source.1) ≠ key := by
    have turn := List.all_eq_true.mp turns key listed
    unfold isOnCycle at turn
    cases found : recorded? index key.2 key.1 with
    | none =>
      rw [found] at turn
      cases turn
    | some source =>
      rw [found] at turn
      simpa using turn
  have tangled (key : Key) (listed : key ∈ cycle) : Tangled index key :=
    tangled_of_cycle (fun key listed => by
      obtain ⟨source, found, -, further⟩ := onCycle key listed
      exact ⟨source, found, further⟩) listed
  have met (key : Key) (onTheWay : Met index start key) : key ∈ finite ++ cycle := by
    induction onTheWay with
    | start starting => exact starts _ starting
    | part _ isTangled partOf inductionHypothesis =>
      rcases List.mem_append.mp inductionHypothesis with listed | listed
      · obtain ⟨names, unrolls, -⟩ := settled _ listed
        exact absurd unrolls (isTangled names)
      · obtain ⟨source, found, inside, -⟩ := onCycle _ listed
        cases partOf with
        | recorded foundToo partOf =>
          cases found.symm.trans foundToo
          exact inside _ partOf
        | member called =>
          rw [recorded?_of_object called] at found
          cases found
  constructor
  · intro key onTheWay isTangled
    rcases List.mem_append.mp (met key onTheWay) with listed | listed
    · obtain ⟨names, unrolls, -⟩ := settled key listed
      exact absurd unrolls (isTangled names)
    · obtain ⟨source, found, -⟩ := onCycle key listed
      exact .recorded (by rw [found]; rfl)
  · intro key names onTheWay unrolls
    rcases List.mem_append.mp (met key onTheWay) with listed | listed
    · obtain ⟨others, exactly, without⟩ := settled key listed
      exact unrolls.unique exactly ▸ without
    · exact absurd unrolls (tangled key listed names)

/-- The static methods of `\K` call each other, and one calls `\names`, which returns an array. -/
def chainIndex : Index :=
  Index.empty.insertFile "sample"
    ((FileSymbols.addClass {} (ClassInfo.addMethod (ClassInfo.addMethod
      { name := "\\K", position := ⟨"sample", 1, 0, 1⟩ }
      (returning "first" [.concrete "static", .staticCall "\\K" "second"]))
      (returning "second" [.staticCall "\\K" "first", .functionCall "\\names"]))).addFunction
      (returning "\\names" [.arrayOf (.concrete "string")]))

theorem resolve_union_chainIndex :
    Relayed chainIndex (Member "" (.singleton (.staticCall "\\K" "first"))) ∧
      Relayed chainIndex (Member "" (.ofList [.staticCall "\\K" "second",
        .elementOf (.functionCall "\\names")])) ∧
      resolve chainIndex "" (TypeSet.union (.singleton (.staticCall "\\K" "first"))
          (.ofList [.staticCall "\\K" "second", .elementOf (.functionCall "\\names")])) =
        (resolve chainIndex "" (.singleton (.staticCall "\\K" "first"))).union
          (resolve chainIndex "" (.ofList [.staticCall "\\K" "second",
            .elementOf (.functionCall "\\names")])) ∧
      (resolve chainIndex "" (.singleton (.staticCall "\\K" "first"))).names =
        ["\\K", "string[]"] := by
  have relayed (types : TypeSet) (within : ∀ value ∈ types.members,
      value ∈ [.staticCall "\\K" "first", .staticCall "\\K" "second",
        .elementOf (.functionCall "\\names")]) : Relayed chainIndex (Member "" types) := by
    refine relayed_of_cycle 4
      [(.concrete "static", "\\K"), (.functionCall "\\names", "\\K"),
        (.elementOf (.functionCall "\\names"), "")]
      [(.staticCall "\\K" "first", ""), (.staticCall "\\K" "second", ""),
        (.staticCall "\\K" "first", "\\K"), (.staticCall "\\K" "second", "\\K")]
      ?_ (by decide) (by decide)
    rintro ⟨value, owner⟩ ⟨listed, rfl⟩
    have among := within value listed
    simp only [List.mem_cons, List.not_mem_nil, or_false] at among
    rcases among with rfl | rfl | rfl <;> decide
  have one := relayed (.singleton (.staticCall "\\K" "first")) (by decide)
  have two := relayed (.ofList [.staticCall "\\K" "second", .elementOf (.functionCall "\\names")])
    (by decide)
  exact ⟨one, two, resolve_union chainIndex "" _ _ one two, by decide⟩

/-! ### Names that a union loses -/

/-- The name is found in one of two sets, but not in their union. -/
def isLost (index : Index) (owner : String) (first second : TypeSet) (name : String) : Bool :=
  ((resolve index owner first).union (resolve index owner second)).containsName name &&
    !(resolve index owner (first.union second)).containsName name

/-- The functions call each other, and `\g` makes arrays of what `\f` returns. -/
def nestingIndex : Index :=
  Index.empty.insertFile "sample"
    ((FileSymbols.addFunction {}
      (returning "\\f" [.concrete "string", .functionCall "\\g"])).addFunction
      (returning "\\g" [.concrete "int", .arrayOf (.functionCall "\\f")]))

/-- The functions call each other, `\f` returns an empty array and `\g` an array of integers; the
elements of what `\h` returns are empty arrays. -/
def emptyArrayIndex : Index :=
  Index.empty.insertFile "sample"
    (((FileSymbols.addFunction {}
      (returning "\\f" [.concrete TypeName.emptyArray, .functionCall "\\g"])).addFunction
      (returning "\\g" [.concrete "int[]", .functionCall "\\f"])).addFunction
      (returning "\\h" [.concrete "empty_array[]"]))

/-- The methods of `\K` call each other, and `__call` answers for a method without a type. -/
def magicIndex : Index :=
  Index.empty.insertFile "sample"
    (FileSymbols.addClass {} (ClassInfo.addMethod (ClassInfo.addMethod (ClassInfo.addMethod
      { name := "\\K", position := ⟨"sample", 1, 0, 1⟩ }
      (returning "a" [.methodCall (.concrete "\\K") "b"]))
      (returning "b" [.concrete "int", .methodCall (.concrete "\\K") "a"]))
      (returning "__call" [.concrete "string"])))

/-- `\K` has the method `g` from the trait `\T`, in whose types the name of the trait is replaced. -/
def traitIndex : Index :=
  Index.empty.insertFile "sample"
    (((FileSymbols.addFunction {}
      (returning "\\f" [.concrete "\\T", .staticCall "\\K" "g"])).addClass (ClassInfo.addMethod
        { name := "\\T", position := ⟨"sample", 1, 0, 1⟩, kind := .trait }
        (returning "g" [.concrete "int", .functionCall "\\f"]))).addClass
        { name := "\\K", position := ⟨"sample", 1, 0, 1⟩, traits := .ofList ["\\T"] })

/-- Cycles through arrays, through the type of an empty array, through `__call` and through traits
lose names in unions; so does the type of an empty array where it comes out of another array. -/
theorem isLost_in_union :
    isLost nestingIndex "" (.singleton (.functionCall "\\f")) (.singleton (.functionCall "\\g"))
        "string[]" = true ∧
      isLost emptyArrayIndex "" (.singleton (.functionCall "\\f"))
        (.singleton (.functionCall "\\g")) "mixed[]" = true ∧
      isLost emptyArrayIndex "" (.singleton (.elementOf (.functionCall "\\h"))) (.named "int[]")
        "mixed[]" = true ∧
      isLost magicIndex "\\K" (.singleton (.methodCall (.concrete "\\K") "a"))
        (.singleton (.methodCall (.concrete "\\K") "b")) "string" = true ∧
      isLost traitIndex "\\K" (.singleton (.functionCall "\\f"))
        (.singleton (.staticCall "\\K" "g")) "\\K" = true := by
  decide

end Resolution

end PhpAudit
