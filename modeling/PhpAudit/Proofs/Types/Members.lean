/-
This file says which values a set of types has after sets were combined. The marks of a set, which
tell how it came about, have no part in that.
-/

import PhpAudit.Types.Set

namespace PhpAudit

theorem TypeValue.isNamed_iff {value : TypeValue} {name : String} :
    value.isNamed name = true ↔ value = .concrete name := by
  cases value <;> simp [isNamed, name?]

namespace TypeSet

variable {set other : TypeSet} {value : TypeValue}

theorem mem_append :
    value ∈ (set.append other).members ↔ value ∈ set.members ∨ value ∈ other.members := by
  unfold append
  split
  · next none => simp [List.isEmpty_iff.mp none]
  · split
    · next none => simp [List.isEmpty_iff.mp none]
    · exact TypeValue.mem_insertAll

theorem mem_union :
    value ∈ (set.union other).members ↔ value ∈ set.members ∨ value ∈ other.members :=
  mem_append

theorem mem_named {name : String} : value ∈ (named name).members ↔ value = .concrete name :=
  TypeValue.mem_insertAll.trans (by simp)

theorem mem_filter {keep : TypeValue → Bool} :
    value ∈ (set.filter keep).members ↔ value ∈ set.members ∧ keep value = true :=
  List.mem_filter

theorem isEmpty_eq_false (member : value ∈ set.members) : set.isEmpty = false := by
  unfold isEmpty
  rw [List.isEmpty_eq_false_iff]
  exact List.ne_nil_of_mem member

end TypeSet

end PhpAudit
