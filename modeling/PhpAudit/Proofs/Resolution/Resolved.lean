/-
This file is about the type that the rest of the analyzer asks for: the local type of an expression,
resolved against a complete index. Whatever markers the scope, the hints and the index put into the
values on the way, the answer holds names of concrete types only, and none of the names that stand for
something else: `static` is bound and the type of an empty array is settled when the last set is put
together. Where neither is left there is nothing to resolve, so resolving the answer again, against
any index and for any class, gives it back.
-/

import PhpAudit.Proofs.Resolution.LateStatic
import PhpAudit.Typing

namespace PhpAudit

open Resolution

/-- Every member names a concrete type, and none names `static` or the type of an empty array. -/
def TypeSet.Settled (types : TypeSet) : Prop :=
  ∀ value ∈ types.members,
    ∃ name, value = .concrete name ∧ name ≠ TypeName.lateStatic ∧ name ≠ TypeName.emptyArray

namespace Resolution

variable {names : Names}

theorem settled_toSet (bound : TypeName.lateStatic ∉ names) (settled : TypeName.emptyArray ∉ names) :
    (toSet names).Settled := by
  intro value listed
  obtain ⟨name, given, rfl⟩ := mem_toSet.mp listed
  exact ⟨name, rfl, fun isStatic => bound (isStatic ▸ given), fun isEmpty => settled (isEmpty ▸ given)⟩

theorem notMem_of_settled (settled : (toSet names).Settled) :
    TypeName.lateStatic ∉ names ∧ TypeName.emptyArray ∉ names := by
  constructor <;> intro given
  all_goals
    obtain ⟨name, same, unmarked, filled⟩ := settled _ (mem_toSet_concrete.mpr given)
    cases same
  · exact unmarked rfl
  · exact filled rfl

/-- What is resolved is the set of some names. For a class that is not `static` itself, `static` is
bound in each of its values, and an empty array is settled in the whole. -/
theorem exists_resolve_eq (index : Index) {owner : String} (types : TypeSet)
    (proper : owner ≠ TypeName.lateStatic) :
    ∃ names, resolve index owner types = toSet names ∧ (toSet names).Settled := by
  obtain ⟨names, next, ends⟩ := exists_run? index owner types []
  have runs := ends _ le_rfl
  rw [run?, ofSet, StateT.run_map] at runs
  obtain ⟨⟨joined, last⟩, gathered, same⟩ := Option.map_eq_some_iff.mp runs
  cases same
  refine ⟨_, by rw [resolve, resolveWith, ends _ le_rfl], ?_⟩
  exact settled_toSet (lateStatic_notMem_of_run_gather proper gathered) fun listed =>
    (mem_settleEmptyArray.mp listed).1 rfl

/-- A settled set has nothing to resolve. -/
theorem resolve_of_settled (index : Index) (owner : String) (settled : (toSet names).Settled) :
    resolve index owner (toSet names) = toSet names := by
  have concrete (part : TypeValue) (listed : part ∈ (toSet names).members) :
      ∃ declared, part = .concrete declared := by
    obtain ⟨name, same, -⟩ := settled part listed
    exact ⟨name, same⟩
  obtain ⟨bound, filled⟩ := notMem_of_settled settled
  obtain ⟨final, next, ends⟩ := exists_run? index owner (toSet names) []
  have runs := ends _ le_rfl
  rw [run?, ofSet, StateT.run_map] at runs
  obtain ⟨⟨joined, last⟩, gathered, same⟩ := Option.map_eq_some_iff.mp runs
  cases same
  have unchanged (name : String) : name ∈ joined ↔ name ∈ names := by
    rw [mem_of_run_gather_concrete concrete gathered, mem_bindStatic_iff, mem_namesOf, mem_namesOf,
      mem_names, mem_toSet_concrete, mem_names, mem_toSet_concrete]
    constructor
    · rintro (⟨given, -⟩ | ⟨-, -, isStatic⟩)
      · exact given
      · exact absurd isStatic bound
    · exact fun given => .inl ⟨given, fun isStatic => bound (isStatic ▸ given)⟩
  have ordinary : TypeName.emptyArray ∉ joined := fun listed => filled ((unchanged _).mp listed)
  rw [resolve, resolveWith, ends _ le_rfl, settleEmptyArray_eq ordinary]
  exact toSet_congr unchanged

end Resolution

namespace Typing

/-- The type that stands for anything is a set of one name. -/
theorem mixed_eq : TypeSet.mixed = toSet (namesOf ["mixed"]) := by
  rfl

/-- Against a complete index, and for code outside classes or in a class with a qualified name, the
type of an expression is a set of names of concrete types. There is at least one, and neither `static`
nor the type of an empty array is among them. So resolving it again changes nothing, whatever the index
and the class for which that is done. -/
theorem typeOf_settled (index : Index) (scope : Scope) (naming : Naming) (expr : Expr)
    (complete : index.complete = true)
    (owner : naming.owner = "" ∨ Text.startsWith naming.owner "\\" = true) :
    (typeOf index scope naming expr).isEmpty = false ∧
      (typeOf index scope naming expr).Settled ∧
      ∀ (later : Index) (place : String),
        resolve later place (typeOf index scope naming expr) = typeOf index scope naming expr := by
  have proper : naming.owner ≠ TypeName.lateStatic := by
    intro isStatic
    rw [isStatic] at owner
    revert owner
    decide
  obtain ⟨names, resolved, settled⟩ :=
    exists_resolve_eq index (localType scope naming expr) proper
  simp only [typeOf, complete, if_true, resolved]
  cases isEmpty : (toSet names).isEmpty with
  | true =>
    rw [if_pos rfl, mixed_eq]
    have settled : (toSet (namesOf ["mixed"])).Settled := settled_toSet (by decide) (by decide)
    exact ⟨rfl, settled, fun later place => resolve_of_settled later place settled⟩
  | false =>
    rw [if_neg Bool.false_ne_true]
    exact ⟨isEmpty, settled, fun later place => resolve_of_settled later place settled⟩

/-- `$case ?? []` -/
def caseOrNothing : Expr :=
  ⟨.binary .coalesce ⟨.var "$case", ⟨0, 5⟩⟩ ⟨.array [], ⟨9, 11⟩⟩, ⟨0, 11⟩⟩

/-- An element of the cases of `\Suit` counts as one of the class around the code, and an array without
elements as an array of anything; that is the whole type, for whatever class it is resolved again. -/
theorem typeOf_settled_caseOrNothing :
    let index := { suitIndex with complete := true }
    let scope := Scope.empty.add "$case"
      (.singleton (.elementOf (.staticCall "\\Suit" "cases"))) true
    let types := typeOf index scope { owner := "\\K" } caseOrNothing
    index.complete = true ∧ Text.startsWith "\\K" "\\" = true ∧
      types.names = ["\\K", "mixed[]"] ∧ types.isEmpty = false ∧ types.Settled ∧
      resolve index "\\Suit" types = types := by
  intro index scope types
  have rooted : Text.startsWith "\\K" "\\" = true := by decide
  obtain ⟨filled, settled, again⟩ := typeOf_settled index scope { owner := "\\K" } caseOrNothing rfl
    (.inr rooted)
  exact ⟨rfl, rooted, by decide, filled, settled, again index "\\Suit"⟩

end Typing

end PhpAudit
