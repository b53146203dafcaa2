/-
This file says what a property of type values must respect to hold of the types that a walk stores: the
rules for arrays and elements keep it, so do calls and properties of a value, and it holds of what is
described by names alone. That values are in normal form is such a law, and another one is that no
marker of a test occurs in them. The second is broken by the variables that a test marked, and by
nothing else as long as these are left alone.
-/

import PhpAudit.Flow.Guard
import PhpAudit.Proofs.Flow.Sparing

namespace PhpAudit

/-! ### Sets -/

namespace TypeSet

/-- Every member has the property. -/
def Every (holds : TypeValue → Prop) (set : TypeSet) : Prop :=
  ∀ value ∈ set.members, holds value

variable {holds : TypeValue → Prop} {set other : TypeSet}

theorem every_empty : TypeSet.empty.Every holds :=
  fun _ member => absurd member List.not_mem_nil

theorem every_ofList {values : List TypeValue} (every : ∀ value ∈ values, holds value) :
    (ofList values).Every holds := fun value member =>
  every value ((TypeValue.mem_insertAll.mp member).resolve_left List.not_mem_nil)

theorem every_singleton {value : TypeValue} (own : holds value) : (singleton value).Every holds :=
  every_ofList fun _ member => by rwa [List.mem_singleton.mp member]

namespace Every

theorem mono {wider : TypeValue → Prop} (every : set.Every holds)
    (weaker : ∀ value, holds value → wider value) : set.Every wider :=
  fun value member => weaker value (every value member)

theorem ite {test : Prop} [Decidable test] (yes : set.Every holds) (no : other.Every holds) :
    (if test then set else other).Every holds := by
  split
  · exact yes
  · exact no

theorem append (left : set.Every holds) (right : other.Every holds) :
    (set.append other).Every holds :=
  fun value member => (mem_append.mp member).elim (left value) (right value)

theorem union (left : set.Every holds) (right : other.Every holds) :
    (set.union other).Every holds :=
  append left right

theorem map {image : TypeValue → TypeValue} (every : set.Every holds)
    (preserved : ∀ value, holds value → holds (image value)) : (set.map image).Every holds := by
  intro value member
  obtain ⟨old, present, rfl⟩ :=
    List.mem_map.mp ((TypeValue.mem_insertAll.mp member).resolve_left List.not_mem_nil)
  exact preserved old (every old present)

theorem filter (every : set.Every holds) (keep : TypeValue → Bool) :
    (set.filter keep).Every holds :=
  fun value member => every value (mem_filter.mp member).1

theorem getD {found : Option TypeSet} {otherwise : TypeSet} (given : otherwise.Every holds)
    (every : ∀ types, found = some types → types.Every holds) :
    (found.getD otherwise).Every holds := by
  cases found with
  | none => exact given
  | some types => exact every types rfl

end Every

end TypeSet

/-! ### Scopes -/

namespace Scope

/-- Every type of every variable has the property, which may depend on the variable. -/
def Every (holds : String → TypeValue → Prop) (scope : Scope) : Prop :=
  ∀ name info, scope.get? name = some info → info.types.Every (holds name)

variable {holds : String → TypeValue → Prop} {scope : Scope}

theorem every_iff_mayBe :
    scope.Every holds ↔ ∀ name value, scope.MayBe name value → holds name value := by
  unfold Every TypeSet.Every MayBe
  grind

theorem every_empty : Scope.empty.Every holds := by
  intro name info found
  simp [get?, Scope.empty] at found

namespace Every

theorem mono {wider : String → TypeValue → Prop} (every : scope.Every holds)
    (weaker : ∀ name value, holds name value → wider name value) : scope.Every wider :=
  fun name info found => (every name info found).mono (weaker name)

theorem types? (every : scope.Every holds) {name : String} {types : TypeSet}
    (found : scope.types? name = some types) : types.Every (holds name) := by
  obtain ⟨info, known, rfl⟩ := Option.map_eq_some_iff.mp found
  exact every name info known

theorem put (every : scope.Every holds) (name : String) {info : VarInfo}
    (given : info.types.Every (holds name)) : (scope.put name info).Every holds := by
  intro other known found
  rw [get?_put] at found
  split at found
  · next equal => rwa [← Option.some.inj found, ← equal]
  · exact every other known found

theorem update (every : scope.Every holds) (name : String) {change : VarInfo → VarInfo}
    (preserved : ∀ info, info.types.Every (holds name) → (change info).types.Every (holds name)) :
    (scope.update name change).Every holds := by
  unfold Scope.update
  split
  · next info found => exact every.put name (preserved info (every name info found))
  · exact every

theorem add (every : scope.Every holds) (name : String) {types : TypeSet}
    (given : types.Every (holds name)) (always : Bool) :
    (scope.add name types always).Every holds := by
  unfold Scope.add
  split
  · next info found => exact every.put name ((every name info found).union given)
  · exact every.put name given

theorem assign (every : scope.Every holds) (name : String) {types : TypeSet}
    (given : types.Every (holds name)) (always : Bool) :
    (scope.assign name types always).Every holds := by
  unfold Scope.assign
  split
  · next info found =>
    split
    · exact every.put name ((every name info found).union given)
    · exact every.put name given
  · exact every.put name given

theorem erase (every : scope.Every holds) (name : String) : (scope.erase name).Every holds := by
  intro other info found
  unfold get? Scope.erase at found
  rw [Std.TreeMap.getElem?_erase] at found
  split at found
  · cases found
  · exact every other info found

theorem of_mem_entries (every : scope.Every holds) {entry : String × VarInfo}
    (member : entry ∈ scope.entries) : entry.2.types.Every (holds entry.1) :=
  every entry.1 entry.2 ((scope.mem_entries entry.1).mp member)

end Every

end Scope

/-! ### Laws -/

/-- The name is the marker of a variable, or that of arrays of it. -/
def TypeName.isMarker (name : String) : Bool :=
  Text.startsWith name "isset_$"

/-- The value is described by names alone, and the index is needed to tell the type. -/
def TypeValue.isSymbol : TypeValue → Bool
  | functionCall _ | staticCall _ _ | staticProperty _ _ | classConstant _ _ | global _ | constant _
  | baseParam _ _ _ => true
  | concrete _ | methodCall _ _ | property _ _ | arrayOf _ | elementOf _ | elementAt _ _ => false

/-- A property of type values that the rules for types respect. -/
structure TypeLaw where
  Holds : TypeValue → Prop
  /-- The law makes no exception of markers -/
  lenient : Bool
  concrete (name : String) (allowed : (lenient || !TypeName.isMarker name) = true) :
    Holds (.concrete name)
  symbol (value : TypeValue) (named : value.isSymbol = true) : Holds value
  methodCall (object : TypeValue) (method : String) (lawful : Holds object) :
    Holds (.methodCall object method)
  property (object : TypeValue) (name : String) (lawful : Holds object) :
    Holds (.property object name)
  inArray (value : TypeValue) (lawful : Holds value) : Holds value.inArray
  element (value : TypeValue) (lawful : Holds value) : Holds value.element
  elementUnder (key : String) (value : TypeValue) (lawful : Holds value) :
    Holds (value.elementUnder key)

namespace TypeLaw

variable (law : TypeLaw)

/-- The law holds of the concrete type with that name. -/
def allows (name : String) : Bool :=
  law.lenient || !TypeName.isMarker name

/-- What a variable may be if the law is kept but for the marker that a test gave to it. -/
def Permits (marked : String → Prop) (name : String) (value : TypeValue) : Prop :=
  law.Holds value ∨ marked name ∧ value = .concrete (issetMarker name)

theorem allows_plain {name : String} (plain : TypeName.isMarker name = false) :
    law.allows name = true := by
  rw [allows, plain, Bool.not_false, Bool.or_true]

theorem every_named {name : String} (allowed : law.allows name = true) :
    (TypeSet.named name).Every law.Holds :=
  TypeSet.every_singleton (law.concrete name allowed)

theorem every_plain {name : String} (plain : TypeName.isMarker name = false) :
    (TypeSet.named name).Every law.Holds :=
  law.every_named (law.allows_plain plain)

theorem every_mixed : TypeSet.mixed.Every law.Holds :=
  law.every_plain rfl

variable {law} {set : TypeSet}

theorem every_inArray (every : set.Every law.Holds) : set.inArray.Every law.Holds :=
  every.map law.inArray

theorem every_element (every : set.Every law.Holds) : set.element.Every law.Holds :=
  every.map law.element

theorem every_elements (every : set.Every law.Holds) (key : Option String) :
    (Typing.elements set key).Every law.Holds := by
  cases key with
  | none => exact every_element every
  | some key => exact every.map (law.elementUnder key)

end TypeLaw

/-- The law is kept in the scope, but for the marked variables that have their markers; and some
variables are sure to be defined. -/
structure Scope.Obeys (law : TypeLaw) (marked : String → Prop) (sure : List String)
    (scope : Scope) : Prop where
  types : scope.Every (law.Permits marked)
  defined : ∀ name ∈ sure, scope.has name = true

/-- The names of classes are allowed by the law. -/
def Naming.Obeys (law : TypeLaw) (naming : Naming) : Prop :=
  ∀ (ref : ClassRef) (name : String), ref.name? naming = some name → law.allows name = true

theorem Naming.Obeys.className {law : TypeLaw} {naming : Naming} (named : naming.Obeys law)
    (written : String) : law.allows (naming.className written) = true := by
  by_cases empty : (naming.className written).isEmpty = true
  · rw [String.isEmpty_iff.mp empty]
    exact law.allows_plain rfl
  · exact named (.named written) _ (if_neg empty)

/-- The types of all parameters satisfy the law. -/
def ParamInfo.AllObey (law : TypeLaw) (params : List ParamInfo) : Prop :=
  ∀ param ∈ params, param.types.Every law.Holds

namespace Scope

variable {law : TypeLaw} {marked others : String → Prop} {sure : List String} {scope : Scope}

theorem Every.more (every : scope.Every (law.Permits marked))
    (more : ∀ name, marked name → others name) : scope.Every (law.Permits others) :=
  every.mono fun name _ permitted =>
    permitted.imp_right fun marker => ⟨more name marker.1, marker.2⟩

/-- A lenient law holds of markers too. -/
theorem Every.of_lenient (every : scope.Every (law.Permits marked)) (lenient : law.lenient = true) :
    scope.Every (law.Permits others) :=
  every.mono fun name value permitted => .inl <| permitted.elim id fun marker =>
    marker.2 ▸ law.concrete _ (by rw [lenient, Bool.true_or])

/-- The types of a variable that no test marked satisfy the law. -/
theorem Every.unmarked (every : scope.Every (law.Permits marked)) {name : String}
    (unmarked : ¬ marked name) {types : TypeSet} (found : scope.types? name = some types) :
    types.Every law.Holds :=
  (every.types? found).mono fun _ permitted =>
    permitted.resolve_right fun marker => unmarked marker.1

namespace Obeys

theorem more (obeys : scope.Obeys law marked sure) (more : ∀ name, marked name → others name) :
    scope.Obeys law others sure :=
  ⟨obeys.types.more more, obeys.defined⟩

theorem put (obeys : scope.Obeys law marked sure) (name : String) {info : VarInfo}
    (given : info.types.Every (law.Permits marked name)) (always : info.always = true) :
    (scope.put name info).Obeys law marked sure := by
  refine ⟨obeys.types.put name given, fun other member => ?_⟩
  rw [has_put]
  split
  · exact always
  · exact obeys.defined other member

theorem widen (obeys : scope.Obeys law marked sure) (name : String) {types : TypeSet}
    (given : types.Every (law.Permits marked name)) :
    (scope.update name fun info => { info with types := info.types.union types }).Obeys law marked
      sure := by
  refine ⟨obeys.types.update name fun info known => known.union given, fun other member => ?_⟩
  have has := obeys.defined other member
  unfold Scope.update
  split
  · next info found =>
    rw [has_put]
    split
    · next equal => simpa [← equal, Scope.has, found] using has
    · exact has
  · exact has

/-- A variable is added with types that it may have. -/
theorem join (obeys : scope.Obeys law marked sure) (name : String) {types : TypeSet}
    (given : types.Every (law.Permits marked name)) (always : Bool) :
    (scope.add name types always).Obeys law marked sure :=
  ⟨obeys.types.add name given always, fun other member =>
    has_add_of_has (obeys.defined other member)⟩

theorem add (obeys : scope.Obeys law marked sure) (name : String) {types : TypeSet}
    (given : types.Every law.Holds) (always : Bool) :
    (scope.add name types always).Obeys law marked sure :=
  obeys.join name (given.mono fun _ => .inl) always

theorem assign (obeys : scope.Obeys law marked sure) (name : String) {types : TypeSet}
    (given : types.Every law.Holds) : (scope.assign name types true).Obeys law marked sure :=
  ⟨obeys.types.assign name (given.mono fun _ => .inl) true, fun other member =>
    has_assign_of_has (obeys.defined other member)⟩

theorem erase (obeys : scope.Obeys law marked sure) {name : String} (unsure : name ∉ sure) :
    (scope.erase name).Obeys law marked sure :=
  ⟨obeys.types.erase name, fun other member =>
    has_erase_of_ne (fun equal => unsure (equal ▸ member)) (obeys.defined other member)⟩

/-- The variables of another scope are added. -/
theorem joinAll (obeys : scope.Obeys law marked sure) {other : Scope}
    (given : other.Every (law.Permits marked)) (always : VarInfo → Bool) :
    (other.entries.foldl (fun scope entry => scope.add entry.1 entry.2.types (always entry.2))
      scope).Obeys law marked sure :=
  List.foldlRecOn _ _ obeys fun _ obeys entry member =>
    obeys.join entry.1 (given.of_mem_entries member) _

end Obeys

end Scope

/-! ### Blocks -/

namespace Block

variable {law : TypeLaw} {marked : String → Prop} {sure : List String} {block : Block}

theorem every_restoreImplicit {holds : String → TypeValue → Prop} {initial : Scope}
    (every : block.scope.Every holds) (before : initial.Every holds) :
    (block.restoreImplicit initial).scope.Every holds := by
  intro name info found
  rw [get?_restoreImplicit] at found
  split at found
  · exact before name info found
  · exact every name info found

theorem obeys_mergeOptional {branch : Block} (obeys : block.scope.Obeys law marked sure)
    (walked : branch.scope.Every (law.Permits marked)) :
    (block.mergeOptional branch).scope.Obeys law marked sure :=
  obeys.joinAll walked fun _ => false

theorem obeys_merge {branches : List Block} (obeys : block.scope.Obeys law marked sure)
    (walked : ∀ branch ∈ branches, branch.scope.Every (law.Permits marked)) (links : Nat) :
    (block.merge branches links).scope.Obeys law marked sure := by
  refine ⟨Scope.every_iff_mayBe.mpr fun name value mayBe => ?_, fun name member =>
    has_merge.mpr (.inl (obeys.defined name member))⟩
  rcases mayBe_merge.mp mayBe with mayBe | ⟨branch, member, mayBe⟩
  · exact Scope.every_iff_mayBe.mp obeys.types name value mayBe
  · exact Scope.every_iff_mayBe.mp (walked branch (List.mem_filter.mp member).1) name value mayBe

end Block

end PhpAudit
