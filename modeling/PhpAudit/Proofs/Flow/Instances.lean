/-
This file is about expressions that are known to be instances of one class. The walk looks their methods
up in that class, and their elements have the types that its `offsetGet` returns.

Closures are left out of both, and they are told from other classes by the start of the name. So the
classes whose names go on after `\Closure`, as `\ClosureList` and `\Closure\Pool` do, are taken for
closures: their methods are not looked up, and they have no elements.
-/

import PhpAudit.Proofs.Flow.Receivers
import PhpAudit.Proofs.Resolution.Declared

namespace PhpAudit

open Hierarchy Resolution

/-! ### Names of classes -/

section

variable {owner : String} (rooted : Text.startsWith owner "\\" = true)
  (isShape : TypeName.isShape owner = false) (isArray : TypeName.isArray owner = false)

include rooted isShape isArray

/-- Qualified names of neither shapes nor arrays are class names unless they are taken for closures. -/
theorem isClass_of_rooted : TypeName.isClass owner = !TypeName.isClosure owner := by
  rw [TypeName.isClass, rooted, isShape, isArray]
  rfl

/-- A sole receiver decides which method is looked up. -/
theorem Walk.lookupMethodOf?_of_names {env : Env} (complete : env.index.complete = true)
    {walk : Walk} {object : Expr} (single : (walk.typeOf env object).names = [owner])
    (method : String) :
    walk.lookupMethodOf? env object method =
      if TypeName.isClosure owner then none else findMethod? env.index owner method := by
  rw [Walk.lookupMethodOf?_eq complete, single, deciding?, List.filter_cons,
    isClass_of_rooted rooted isShape isArray]
  cases TypeName.isClosure owner with
  | true => rfl
  | false => cases found : findMethod? env.index owner method <;> simp [found]

/-- The elements of an array-like class are what its `offsetGet` returns. -/
theorem yielded_of_implements {index : Index}
    (arrayLike : implements index owner "\\ArrayAccess" = true) :
    yielded index owner =
      if TypeName.isClosure owner then .empty
      else returned ((findMethod? index owner "offsetGet").map (·.info)) := by
  have accesses : accessor? index owner = some "offsetGet" := by
    rw [accessor?, arrayLike]
    rfl
  rw [yielded, isClass_of_rooted rooted isShape isArray, accesses]
  cases TypeName.isClosure owner <;> rfl

/-- The elements of an instance, under a key or not, are those of its class. -/
theorem resolvesTo_yielded (index : Index) (context key : String) :
    ∀ deferred ∈ [TypeValue.elementOf (.concrete owner), .elementAt (.concrete owner) key],
      ResolvesTo index context deferred owner (yielded index owner) := by
  have unmarked : owner = TypeName.lateStatic → owner = context := fun same =>
    absurd same (ne_lateStatic_of_rooted rooted)
  intro deferred listed
  rcases List.mem_cons.mp listed with rfl | listed
  · exact (standsFor_elementOf rooted isArray).resolvesTo rfl unmarked
  · obtain rfl := List.mem_singleton.mp listed
    exact (standsFor_elementAt rooted isArray isShape key).resolvesTo rfl unmarked

end

/-! ### Instances of one class -/

/--
The method of an instance is the one of its class, and its elements have the types that `offsetGet` of
the class returns, unless the class is taken for a closure. Then it has neither.
-/
theorem instance_seen_unless_closure (env : Env) (complete : env.index.complete = true)
    (walk : Walk) (object : Expr) (owner method context key : String)
    (rooted : Text.startsWith owner "\\" = true) (isShape : TypeName.isShape owner = false)
    (isArray : TypeName.isArray owner = false)
    (single : (walk.typeOf env object).names = [owner]) :
    (TypeName.isClosure owner = false →
      walk.lookupMethodOf? env object method = findMethod? env.index owner method ∧
      (implements env.index owner "\\ArrayAccess" = true →
        ∀ deferred ∈ [TypeValue.elementOf (.concrete owner), .elementAt (.concrete owner) key],
          ResolvesTo env.index context deferred owner
            (returned ((findMethod? env.index owner "offsetGet").map (·.info))))) ∧
    (TypeName.isClosure owner = true →
      walk.lookupMethodOf? env object method = none ∧
      ∀ deferred ∈ [TypeValue.elementOf (.concrete owner), .elementAt (.concrete owner) key],
        ResolvesTo env.index context deferred owner .empty) := by
  have looksUp := Walk.lookupMethodOf?_of_names rooted isShape isArray complete single method
  have elements := resolvesTo_yielded rooted isShape isArray env.index context key
  constructor
  · intro other
    rw [other, if_neg Bool.false_ne_true] at looksUp
    refine ⟨looksUp, fun arrayLike => ?_⟩
    rwa [yielded_of_implements rooted isShape isArray arrayLike, other,
      if_neg Bool.false_ne_true] at elements
  · intro isClosure
    rw [isClosure, if_pos rfl] at looksUp
    refine ⟨looksUp, ?_⟩
    rwa [yielded, isClass_of_rooted rooted isShape isArray, isClosure, Bool.not_true,
      if_neg Bool.false_ne_true] at elements

/-- A class of the given name that is read like an array of integers. -/
def listIndex (name : String) : Index :=
  { Index.empty.insertFile "sample" (FileSymbols.addClass {} (ClassInfo.addMethod
      { name, position := ⟨"sample", 1, 0, 1⟩, interfaces := .ofList ["\\ArrayAccess"] }
      (returning "offsetGet" [.concrete "int"]))) with complete := true }

theorem instance_seen_unless_closure_itemList :
    let env : Env := { (default : Env) with index := listIndex "\\ItemList" }
    ((Flow.typedWalk ["\\ItemList"]).lookupMethodOf? env ⟨.var "$a", ⟨0, 1⟩⟩ "offsetGet").map
        (·.owner) = some "\\ItemList" ∧
      (resolve env.index "" (.singleton (.elementOf (.concrete "\\ItemList")))).names = ["int"] := by
  intro env
  obtain ⟨seen, -⟩ := instance_seen_unless_closure env rfl (Flow.typedWalk ["\\ItemList"])
    ⟨.var "$a", ⟨0, 1⟩⟩ "\\ItemList" "offsetGet" "" "" (by decide) (by decide) (by decide)
    (by decide)
  obtain ⟨looksUp, elements⟩ := seen (by decide)
  constructor
  · rw [looksUp]
    decide
  · rw [(elements (by decide) _ List.mem_cons_self).guarded]
    decide

/-- The same class under another name has neither the method nor the elements. -/
theorem closureList_unseen :
    ¬ ∀ (env : Env) (walk : Walk) (object : Expr) (owner method : String),
      env.index.complete = true → (env.index.class? owner).isSome = true →
      owner ≠ "\\Closure" → Text.startsWith owner "\\" = true → TypeName.isShape owner = false →
      TypeName.isArray owner = false → (walk.typeOf env object).names = [owner] →
      walk.lookupMethodOf? env object method = findMethod? env.index owner method ∧
      (implements env.index owner "\\ArrayAccess" = true →
        resolve env.index "" (.singleton (.elementOf (.concrete owner))) =
          resolve env.index owner
            (returned ((findMethod? env.index owner "offsetGet").map (·.info)))) := by
  intro sees
  have claimed := (sees { (default : Env) with index := listIndex "\\ClosureList" }
    (Flow.typedWalk ["\\ClosureList"]) ⟨.var "$a", ⟨0, 1⟩⟩ "\\ClosureList" "offsetGet" (by decide)
    (by decide) (by decide) (by decide) (by decide) (by decide) (by decide)).1
  replace claimed := congrArg (Option.map (·.owner)) claimed
  revert claimed
  decide

end PhpAudit
