/-
This file says which variables a scope has after it was changed, and which variables a block has
after branches were joined into it. A join counts the branches that go on and define a variable; the
variable is defined after the join only if that number is the number of paths. So if the number of
paths is at least the number of branches that go on, a variable that the join defines is one that
every such branch defines.
-/

import Mathlib.Data.List.Basic
import PhpAudit.Flow.Guard

namespace PhpAudit

/-! ### Changes of a scope -/

namespace Scope

variable (scope : Scope) (name other : String)

theorem has_eq_true :
    scope.has name = true ↔ ∃ info, scope.get? name = some info ∧ info.always = true :=
  Option.any_eq_true ..

theorem get?_put (info : VarInfo) :
    (scope.put name info).get? other = if name = other then some info else scope.get? other := by
  simp [get?, put, Std.TreeMap.getElem?_insert]

theorem has_put (info : VarInfo) :
    (scope.put name info).has other = if name = other then info.always else scope.has other := by
  unfold has
  rw [get?_put]
  split <;> rfl

theorem mayHave_put (info : VarInfo) :
    (scope.put name info).mayHave other = (name == other || scope.mayHave other) := by
  unfold mayHave
  rw [get?_put]
  split <;> simp_all

/-- A variable is added or widened, and others stay as they are. -/
theorem has_add (types : TypeSet) (always : Bool) :
    (scope.add name types always).has other = (scope.has other || name == other && always) := by
  unfold add
  split
  · next info found =>
    rw [has_put]
    split
    · next equal => simp [← equal, has, found]
    · next different => simp [different]
  · next missing =>
    rw [has_put]
    split
    · next equal => simp [← equal, has, missing]
    · next different => simp [different]

/-- An assignment defines its variable at most. -/
theorem of_has_assign {types : TypeSet} {always : Bool}
    (defined : (scope.assign name types always).has other = true) :
    name = other ∨ scope.has other = true := by
  by_cases equal : name = other
  · exact .inl equal
  · right
    unfold assign at defined
    split at defined
    · split at defined <;> rwa [has_put, if_neg equal] at defined
    · rwa [has_put, if_neg equal] at defined

theorem of_mayHave_assign {types : TypeSet} {always : Bool}
    (defined : (scope.assign name types always).mayHave other = true) :
    name = other ∨ scope.mayHave other = true := by
  have put (info : VarInfo) (defined : (scope.put name info).mayHave other = true) :
      name = other ∨ scope.mayHave other = true := by
    simpa [mayHave_put] using defined
  unfold assign at defined
  split at defined
  · split at defined <;> exact put _ defined
  · exact put _ defined

theorem of_has_erase (defined : (scope.erase name).has other = true) : scope.has other = true := by
  unfold has get? erase at *
  rw [Std.TreeMap.getElem?_erase] at defined
  split at defined
  · simp at defined
  · exact defined

theorem mem_entries {info : VarInfo} : (name, info) ∈ scope.entries ↔ scope.get? name = some info :=
  Std.TreeMap.mem_toList_iff_getElem?_eq_some

/-- Changes made one after the other define only what one of them defines. -/
theorem of_has_foldl {Item : Type} {change : Scope → Item → Scope} {items : List Item}
    {scope : Scope} {name : String} (cause : Prop)
    (step : ∀ (scope : Scope), ∀ item ∈ items,
      (change scope item).has name = true → scope.has name = true ∨ cause)
    (defined : (items.foldl change scope).has name = true) : scope.has name = true ∨ cause := by
  induction items generalizing scope with
  | nil => exact .inl defined
  | cons item rest inductionHypothesis =>
    rcases inductionHypothesis (fun scope item member => step scope item (.tail _ member))
      defined with defined | caused
    · exact step scope item (.head _) defined
    · exact .inr caused

end Scope

/-! ### Joining branches -/

namespace Block

/-- The branches that go on. -/
def ongoing (branches : List Block) : List Block :=
  branches.filter (·.continues)

@[simp]
theorem ongoing_append (first second : List Block) :
    ongoing (first ++ second) = ongoing first ++ ongoing second :=
  List.filter_append ..

theorem length_ongoing_singleton (branch : Block) :
    (ongoing [branch]).length = if branch.continues then 1 else 0 := by
  unfold ongoing
  cases continues : branch.continues <;> simp [continues]

theorem mem_ongoing {branch : Block} {branches : List Block} (member : branch ∈ branches)
    (continues : branch.continues = true) : branch ∈ ongoing branches :=
  List.mem_filter.mpr ⟨member, continues⟩

/-- A scope has one entry for each of its variables. -/
theorem countP_entries (scope : Scope) (name : String) :
    scope.entries.countP (fun entry => entry.1 == name && entry.2.always) =
      if scope.has name then 1 else 0 := by
  have distinct : scope.entries.Pairwise fun first second => ¬ compare first.1 second.1 = .eq :=
    Std.TreeMap.distinct_keys_toList
  have atMostOne : scope.entries.countP (fun entry => entry.1 == name && entry.2.always) ≤ 1 := by
    generalize scope.entries = entries at distinct
    induction entries with
    | nil => simp
    | cons entry rest inductionHypothesis =>
      obtain ⟨others, distinct⟩ := List.pairwise_cons.mp distinct
      rw [List.countP_cons]
      split
      · next found =>
        have none : rest.countP (fun entry => entry.1 == name && entry.2.always) = 0 := by
          rw [List.countP_eq_zero]
          intro other member same
          simp only [Bool.and_eq_true, beq_iff_eq] at found same
          exact others other member (by simp [found.1, same.1])
        omega
      · simpa using inductionHypothesis distinct
  split
  · next defined =>
    obtain ⟨info, found, always⟩ := (scope.has_eq_true name).mp defined
    have positive : 0 < scope.entries.countP fun entry => entry.1 == name && entry.2.always :=
      List.countP_pos_iff.mpr ⟨(name, info), (scope.mem_entries name).mpr found, by simp [always]⟩
    omega
  · next undefined =>
    rw [List.countP_eq_zero]
    rintro ⟨other, info⟩ member same
    simp only [Bool.and_eq_true, beq_iff_eq] at same
    have found := (scope.mem_entries other).mp member
    rw [same.1] at found
    exact undefined ((scope.has_eq_true name).mpr ⟨info, found, same.2⟩)

theorem defined_joinVar (joined : Std.TreeMap String Joined) (name other : String)
    (info : VarInfo) :
    ((joinVar joined name info).getD other {}).defined =
      (joined.getD other {}).defined + if name == other && info.always then 1 else 0 := by
  unfold joinVar
  rw [Std.TreeMap.getD_insert]
  by_cases equal : name = other
  · subst equal
    cases info.always <;> simp
  · simp [equal]

theorem defined_foldl_joinVar (entries : List (String × VarInfo))
    (joined : Std.TreeMap String Joined) (name : String) :
    ((entries.foldl (fun joined (name, info) => joinVar joined name info) joined).getD
        name {}).defined =
      (joined.getD name {}).defined +
        entries.countP (fun entry => entry.1 == name && entry.2.always) := by
  induction entries generalizing joined with
  | nil => simp
  | cons entry rest inductionHypothesis =>
    rw [List.foldl_cons, inductionHypothesis, defined_joinVar, List.countP_cons]
    omega

/-- What is counted for a variable is the number of branches that go on and have it. -/
theorem defined_joinBranches (branches : List Block) (name : String) :
    ((joinBranches branches).getD name {}).defined =
      (ongoing branches).countP (·.scope.has name) := by
  have counted (branches : List Block) (joined : Std.TreeMap String Joined) :
      ((branches.foldl (fun joined branch => branch.scope.entries.foldl
          (fun joined (name, info) => joinVar joined name info) joined) joined).getD
          name {}).defined =
        (joined.getD name {}).defined + branches.countP (·.scope.has name) := by
    induction branches generalizing joined with
    | nil => simp
    | cons branch rest inductionHypothesis =>
      rw [List.foldl_cons, inductionHypothesis, defined_foldl_joinVar, countP_entries,
        List.countP_cons]
      omega
  unfold joinBranches
  rw [← ongoing, counted]
  simp

/-- A variable that a join defines was defined before or is counted once for each path. -/
theorem of_has_merge {block : Block} {branches : List Block} {links : Nat} {name : String}
    (defined : (block.merge branches links).scope.has name = true) :
    block.scope.has name = true ∨
      0 < links ∧ (ongoing branches).countP (·.scope.has name) = links := by
  refine Scope.of_has_foldl _ (fun scope item member defined => ?_) defined
  obtain ⟨other, joined⟩ := item
  rw [Scope.has_add, Bool.or_eq_true] at defined
  refine defined.imp_right fun defined => ?_
  simp only [Bool.and_eq_true, beq_iff_eq, decide_eq_true_eq] at defined
  obtain ⟨rfl, positive, equal⟩ := defined
  have found : (joinBranches branches).getD other {} = joined := by
    rw [Std.TreeMap.getD_eq_getD_getElem?, Std.TreeMap.mem_toList_iff_getElem?_eq_some.mp member]
    rfl
  rw [← defined_joinBranches, found]
  exact ⟨positive, equal⟩

/--
The join of branches with at least as many paths: a variable that it defines was defined before, or
every path is a branch that goes on and each of them has the variable.
-/
theorem of_has_merge_of_le {block : Block} {branches : List Block} {links : Nat} {name : String}
    (counted : (ongoing branches).length ≤ links)
    (defined : (block.merge branches links).scope.has name = true) :
    block.scope.has name = true ∨ links = (ongoing branches).length ∧
      ∀ branch ∈ ongoing branches, branch.scope.has name = true := by
  refine (of_has_merge defined).imp_right fun ⟨_, equal⟩ => ?_
  have atMost : (ongoing branches).countP (·.scope.has name) ≤ (ongoing branches).length :=
    List.countP_le_length
  have all : (ongoing branches).countP (·.scope.has name) = (ongoing branches).length := by omega
  exact ⟨by omega, List.countP_eq_length.mp all⟩

/-- A branch that may not run defines nothing. -/
theorem of_has_mergeOptional {block branch : Block} {name : String}
    (defined : (block.mergeOptional branch).scope.has name = true) : block.scope.has name = true :=
  (Scope.of_has_foldl False (fun scope item _ defined => by
    simpa [Scope.has_add] using defined) defined).resolve_right not_false

/-- Variables that get back what was known of them before are defined as before. -/
theorem of_has_restoreImplicit {initial : Scope} {block : Block} {name : String}
    (defined : (block.restoreImplicit initial).scope.has name = true) :
    block.scope.has name = true ∨ initial.has name = true := by
  refine Scope.of_has_foldl _ (fun scope item _ defined => ?_) defined
  obtain ⟨other, info⟩ := item
  dsimp only at defined
  split at defined
  · split at defined
    · next before found =>
      rw [Scope.has_put] at defined
      split at defined
      · next equal =>
        exact .inr ((initial.has_eq_true name).mpr ⟨before, equal ▸ found, defined⟩)
      · exact .inl defined
    · exact .inl defined
  · exact .inl defined

end Block

/-- Retracting markers defines nothing. -/
theorem Walk.of_has_dropMarkers {markers : List String} {walk : Walk} {name : String}
    (defined : (walk.dropMarkers markers).scope.has name = true) :
    walk.scope.has name = true := by
  unfold dropMarkers at defined
  induction markers generalizing walk with
  | nil => exact defined
  | cons marker rest inductionHypothesis =>
    have kept := inductionHypothesis defined
    dsimp only at kept
    split at kept
    · exact kept
    · next info found =>
      dsimp only [mapScope, mapBlock, scope, Block.mapScope] at kept
      split at kept
      · exact Scope.of_has_erase _ _ _ kept
      · rw [Scope.has_put] at kept
        split at kept
        · next equal =>
          subst equal
          simpa [Scope.has, found] using kept
        · exact kept

end PhpAudit
