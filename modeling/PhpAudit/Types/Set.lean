/-
This file defines union types: finite sets of type values, listed in the order of values. A set
carries two marks. A precise set stands in a declaration; a sealed set stays sealed when others are
joined to it, and keeps its precision only if both sides are precise.
-/

import PhpAudit.Types.Value

namespace PhpAudit

namespace TypeValue

/-! ### Ordered insertion -/

def precedes (first second : TypeValue) : Bool :=
  compare first second == .lt

/-- Inserts before the first member that `value` precedes. -/
def insertOrdered (value : TypeValue) : List TypeValue → List TypeValue
  | [] => [value]
  | head :: rest =>
    if value.precedes head then value :: head :: rest else head :: insertOrdered value rest

/-- Inserts a value that is not a member yet. -/
def insertNew (value : TypeValue) (members : List TypeValue) : List TypeValue :=
  if value ∈ members then members else insertOrdered value members

theorem mem_insertOrdered {value other : TypeValue} {members : List TypeValue} :
    other ∈ insertOrdered value members ↔ other = value ∨ other ∈ members := by
  induction members with
  | nil => simp [insertOrdered]
  | cons head rest inductionHypothesis =>
    unfold insertOrdered
    split
    · simp
    · simp [inductionHypothesis, or_left_comm]

theorem nodup_insertOrdered {value : TypeValue} {members : List TypeValue}
    (fresh : value ∉ members) (distinct : members.Nodup) :
    (insertOrdered value members).Nodup := by
  induction members with
  | nil => simp [insertOrdered]
  | cons head rest inductionHypothesis =>
    rw [List.mem_cons, not_or] at fresh
    rw [List.nodup_cons] at distinct
    unfold insertOrdered
    split
    · simp [fresh, distinct]
    · rw [List.nodup_cons, mem_insertOrdered, not_or]
      exact ⟨⟨Ne.symm fresh.1, distinct.1⟩, inductionHypothesis fresh.2 distinct.2⟩

theorem mem_insertNew {value other : TypeValue} {members : List TypeValue} :
    other ∈ insertNew value members ↔ other = value ∨ other ∈ members := by
  unfold insertNew
  split
  · next member =>
    constructor
    · exact Or.inr
    · rintro (rfl | found)
      · exact member
      · exact found
  · exact mem_insertOrdered

theorem nodup_insertNew {value : TypeValue} {members : List TypeValue}
    (distinct : members.Nodup) : (insertNew value members).Nodup := by
  unfold insertNew
  split
  · exact distinct
  · next fresh => exact nodup_insertOrdered fresh distinct

/-- Inserts every value of the second list into the first. -/
def insertAll (members values : List TypeValue) : List TypeValue :=
  values.foldl (fun members value => insertNew value members) members

theorem mem_insertAll {other : TypeValue} {members values : List TypeValue} :
    other ∈ insertAll members values ↔ other ∈ members ∨ other ∈ values := by
  unfold insertAll
  induction values generalizing members with
  | nil => simp
  | cons head rest inductionHypothesis =>
    rw [List.foldl_cons, inductionHypothesis, mem_insertNew, List.mem_cons]
    constructor
    · rintro ((equal | found) | found)
      · exact Or.inr (Or.inl equal)
      · exact Or.inl found
      · exact Or.inr (Or.inr found)
    · rintro (found | (equal | found))
      · exact Or.inl (Or.inr found)
      · exact Or.inl (Or.inl equal)
      · exact Or.inr found

theorem nodup_insertAll {members values : List TypeValue} (distinct : members.Nodup) :
    (insertAll members values).Nodup := by
  unfold insertAll
  induction values generalizing members with
  | nil => exact distinct
  | cons head rest inductionHypothesis => exact inductionHypothesis (nodup_insertNew distinct)

end TypeValue

/-- A union of type values. -/
structure TypeSet where
  members : List TypeValue
  distinct : members.Nodup
  isSealed : Bool
  isPrecise : Bool
deriving DecidableEq

namespace TypeSet

/-! ### Building sets -/

def empty : TypeSet where
  members := []
  distinct := List.nodup_nil
  isSealed := false
  isPrecise := false

instance : Inhabited TypeSet := ⟨empty⟩
instance : EmptyCollection TypeSet := ⟨empty⟩

def ofList (values : List TypeValue) : TypeSet where
  members := TypeValue.insertAll [] values
  distinct := TypeValue.nodup_insertAll List.nodup_nil
  isSealed := false
  isPrecise := false

def singleton (value : TypeValue) : TypeSet :=
  ofList [value]

/-- The set of one concrete type. -/
def named (name : String) : TypeSet :=
  singleton (.concrete name)

def sealed (set : TypeSet) : TypeSet :=
  { set with isSealed := true }

def precise (set : TypeSet) : TypeSet :=
  { set with isPrecise := true }

def mixed : TypeSet :=
  (named "mixed").sealed

def void : TypeSet :=
  (named "void").sealed

/-! ### Questions -/

def isEmpty (set : TypeSet) : Bool :=
  set.members.isEmpty

def size (set : TypeSet) : Nat :=
  set.members.length

instance : Membership TypeValue TypeSet := ⟨fun set value => value ∈ set.members⟩

instance {value : TypeValue} {set : TypeSet} : Decidable (value ∈ set) :=
  inferInstanceAs (Decidable (value ∈ set.members))

/-- Whether `name` is the one and only member. -/
def isJust (name : String) (set : TypeSet) : Bool :=
  set.size == 1 && set.members.all (·.isNamed name)

def containsName (name : String) (set : TypeSet) : Bool :=
  set.members.any (·.isNamed name)

/-- Whether every member is a concrete array type, and there is one. -/
def isArray (set : TypeSet) : Bool :=
  !set.isEmpty && set.members.all fun value => value.name?.any TypeName.isArray

def isDeferred (set : TypeSet) : Bool :=
  set.members.any (·.isDeferred)

/-- The names of the concrete members, in order. -/
def names (set : TypeSet) : List String :=
  set.members.filterMap (·.name?)

/-! ### Combining sets -/

/-- Joins `other` to `set`. -/
def append (set other : TypeSet) : TypeSet :=
  if other.isEmpty then
    set
  else if set.isEmpty then
    { other with isSealed := set.isSealed }
  else
    { members := TypeValue.insertAll set.members other.members
      distinct := TypeValue.nodup_insertAll set.distinct
      isSealed := set.isSealed
      isPrecise := set.isSealed && set.isPrecise && other.isPrecise }

/-- The union of two sets, sealed. -/
def union (set other : TypeSet) : TypeSet :=
  set.sealed.append other

def insert (value : TypeValue) (set : TypeSet) : TypeSet :=
  set.append (singleton value)

/-- The images of the members, with the marks of the set. -/
def map (image : TypeValue → TypeValue) (set : TypeSet) : TypeSet where
  members := TypeValue.insertAll [] (set.members.map image)
  distinct := TypeValue.nodup_insertAll List.nodup_nil
  isSealed := set.isSealed
  isPrecise := set.isPrecise

/-- The members accepted by `keep`, with the marks of the set. -/
def filter (keep : TypeValue → Bool) (set : TypeSet) : TypeSet where
  members := set.members.filter keep
  distinct := set.distinct.filter keep
  isSealed := set.isSealed
  isPrecise := set.isPrecise

/-- Arrays of each member. -/
def inArray (set : TypeSet) : TypeSet :=
  set.map TypeValue.inArray

/-- Elements of each member. -/
def element (set : TypeSet) : TypeSet :=
  set.map TypeValue.element

/-! ### Text -/

/-- The texts of the members in increasing order, separated by `|`. -/
def render (set : TypeSet) : String :=
  Text.join "|" ((set.members.map TypeValue.render).mergeSort fun first second =>
    decide (first ≤ second))

/-- Two sets that read alike are the same type. -/
def sameText (first second : TypeSet) : Bool :=
  first.render == second.render

end TypeSet

end PhpAudit
