/-
This file proves that types are kept in normal form: no part of a value could be folded. The rules for
arrays and elements look at the outermost constructor only, so they undo each other on normal values
alone; on these they do, and they give normal values again. So normal form is a law of type values, and
the local type of an expression is normal if the types in the scope are.
-/

import PhpAudit.Params
import PhpAudit.Proofs.Types.Copying

namespace PhpAudit

/-! ### Normal values -/

namespace TypeValue

/-- A rule for arrays or elements would fold the value: it is an array of elements or a concrete type,
or an element of an array. -/
def folds : TypeValue → Bool
  | arrayOf (elementOf _) | arrayOf (concrete _) | elementOf (arrayOf _)
  | elementAt (arrayOf _) _ => true
  | elementOf (concrete name) | elementAt (concrete name) _ => TypeName.isArray name
  | _ => false

/-- A value and the values that it is built from. -/
def parts : TypeValue → List TypeValue
  | methodCall object method => methodCall object method :: parts object
  | property object name => property object name :: parts object
  | arrayOf element => arrayOf element :: parts element
  | elementOf array => elementOf array :: parts array
  | elementAt array key => elementAt array key :: parts array
  | value => [value]

/-- No part of the value folds. -/
def Normal (value : TypeValue) : Prop :=
  ∀ part ∈ value.parts, part.folds = false

instance (value : TypeValue) : Decidable value.Normal :=
  inferInstanceAs (Decidable (∀ part ∈ _, _))

section

variable {value : TypeValue} {key : String}

/-- A value that is built from names only. -/
theorem normal_of_parts (alone : value.parts = [value]) (unfolded : value.folds = false) :
    value.Normal := by
  intro part member
  rw [alone, List.mem_singleton] at member
  rwa [member]

@[simp]
theorem normal_concrete (name : String) : (concrete name).Normal := by
  simp [Normal, parts, folds]

@[simp]
theorem normal_methodCall (method : String) : (methodCall value method).Normal ↔ value.Normal := by
  simp [Normal, parts, folds]

@[simp]
theorem normal_property (name : String) : (property value name).Normal ↔ value.Normal := by
  simp [Normal, parts, folds]

theorem normal_arrayOf : (arrayOf value).Normal ↔ (arrayOf value).folds = false ∧ value.Normal := by
  simp [Normal, parts]

theorem normal_elementOf :
    (elementOf value).Normal ↔ (elementOf value).folds = false ∧ value.Normal := by
  simp [Normal, parts]

theorem normal_elementAt :
    (elementAt value key).Normal ↔ (elementAt value key).folds = false ∧ value.Normal := by
  simp [Normal, parts]

end

end TypeValue

/-! ### Names of array types -/

namespace TypeName

theorem beforeEnd?_arrayOf (name : String) : Text.beforeEnd? (arrayOf name) "[]" = some name := by
  simp [Text.beforeEnd?, Text.endsWith, arrayOf]

theorem arrayOf_of_beforeEnd? {name inner : String} (before : Text.beforeEnd? name "[]" = some inner) :
    arrayOf inner = name := by
  unfold Text.beforeEnd? at before
  split at before
  · next ends =>
    obtain ⟨start, equal⟩ := List.isSuffixOf_iff_suffix.mp ends
    obtain rfl := Option.some.inj before
    refine String.toList_inj.mp ?_
    rw [arrayOf, String.toList_append, String.toList_ofList, ← equal, List.length_append,
      Nat.add_sub_cancel, List.take_left]
  · cases before

theorem isArray_eq_isSome (name : String) : isArray name = (Text.beforeEnd? name "[]").isSome := by
  unfold isArray Text.beforeEnd?
  split
  · next ends => exact ends
  · next other => exact eq_false_of_ne_true other

end TypeName

/-! ### The rules for arrays and elements -/

namespace TypeValue

variable {value : TypeValue}

theorem Normal.inArray (normal : value.Normal) : value.inArray.Normal := by
  cases value with
  | elementOf array => exact (normal_elementOf.mp normal).2
  | concrete name => exact normal_concrete _
  | _ => exact normal_arrayOf.mpr ⟨rfl, normal⟩

theorem Normal.element (normal : value.Normal) : value.element.Normal := by
  cases value with
  | arrayOf element => exact (normal_arrayOf.mp normal).2
  | concrete name =>
    cases before : Text.beforeEnd? name "[]" with
    | some inner => simp [TypeValue.element, before]
    | none => simp [TypeValue.element, before, normal_elementOf, folds, TypeName.isArray_eq_isSome]
  | _ => exact normal_elementOf.mpr ⟨rfl, normal⟩

theorem Normal.elementUnder (normal : value.Normal) (key : String) :
    (value.elementUnder key).Normal := by
  cases value with
  | arrayOf element => exact (normal_arrayOf.mp normal).2
  | concrete name =>
    cases before : Text.beforeEnd? name "[]" with
    | some inner => simp [TypeValue.elementUnder, before]
    | none =>
      simp [TypeValue.elementUnder, before, normal_elementAt, folds, TypeName.isArray_eq_isSome]
  | _ => exact normal_elementAt.mpr ⟨rfl, normal⟩

/-- The elements of the arrays of a normal value are that value. -/
theorem Normal.element_inArray (normal : value.Normal) : value.inArray.element = value := by
  cases value with
  | elementOf array =>
    have unfolded := (normal_elementOf.mp normal).1
    cases array with
    | arrayOf element => cases unfolded
    | concrete name =>
      have before : Text.beforeEnd? name "[]" = none := by
        simpa [folds, TypeName.isArray_eq_isSome] using unfolded
      simp [TypeValue.inArray, TypeValue.element, before]
    | _ => rfl
  | concrete name =>
    simp [TypeValue.inArray, TypeValue.element, TypeName.beforeEnd?_arrayOf]
  | _ => rfl

/-- The arrays of the elements of a normal value are that value. -/
theorem Normal.inArray_element (normal : value.Normal) : value.element.inArray = value := by
  cases value with
  | arrayOf element =>
    have unfolded := (normal_arrayOf.mp normal).1
    cases element with
    | elementOf | concrete => cases unfolded
    | _ => rfl
  | concrete name =>
    cases before : Text.beforeEnd? name "[]" with
    | some inner =>
      simp [TypeValue.element, before, TypeValue.inArray, TypeName.arrayOf_of_beforeEnd? before]
    | none => simp [TypeValue.element, before, TypeValue.inArray]
  | _ => rfl

end TypeValue

/-- Normal form is a law, and markers are no exception. -/
def TypeLaw.normal : TypeLaw where
  Holds := TypeValue.Normal
  lenient := true
  concrete name _ := TypeValue.normal_concrete name
  symbol value named := by
    cases value with
    | concrete | methodCall | property | arrayOf | elementOf | elementAt => cases named
    | _ => exact TypeValue.normal_of_parts rfl rfl
  methodCall _ method := (TypeValue.normal_methodCall method).mpr
  property _ name := (TypeValue.normal_property name).mpr
  inArray _ := TypeValue.Normal.inArray
  element _ := TypeValue.Normal.element
  elementUnder key _ normal := normal.elementUnder key

/-! ### Sets and scopes -/

/-- Every member is normal. -/
def TypeSet.Normal (set : TypeSet) : Prop :=
  ∀ value ∈ set.members, value.Normal

instance (set : TypeSet) : Decidable set.Normal :=
  inferInstanceAs (Decidable (∀ value ∈ _, _))

/-- The types of every variable are normal. -/
def Scope.Normal (scope : Scope) : Prop :=
  ∀ name info, scope.get? name = some info → info.types.Normal

theorem Scope.normal_empty : Scope.empty.Normal :=
  Scope.every_empty

theorem Scope.normal_iff_every {scope : Scope} :
    scope.Normal ↔ scope.Every (TypeLaw.normal.Permits fun _ => False) := by
  refine ⟨fun normal => ?_, fun every name info found => ?_⟩
  · have every : scope.Every fun _ => TypeLaw.normal.Holds := normal
    exact every.mono fun _ _ => .inl
  · exact (every name info found).mono fun value permitted =>
      permitted.resolve_right fun marker => marker.1

theorem Scope.normal_iff_obeys {scope : Scope} {marked : String → Prop} :
    scope.Normal ↔ scope.Obeys .normal marked [] :=
  ⟨fun normal => ⟨(normal_iff_every.mp normal).of_lenient rfl, fun _ none =>
      absurd none List.not_mem_nil⟩,
    fun obeys => normal_iff_every.mpr (obeys.types.of_lenient rfl)⟩

theorem Naming.obeys_normal (naming : Naming) : naming.Obeys .normal :=
  fun _ _ _ => rfl

/-- The local type of an expression is normal if the types in the scope are. -/
theorem Typing.normal_localType {scope : Scope} (naming : Naming) (normal : scope.Normal)
    (expr : Expr) : (localType scope naming expr).Normal := by
  have care : everyExpr (careful true [] []) expr = true := careful_of_lenient expr
  exact every_localType (Scope.normal_iff_every.mp normal) naming.obeys_normal expr care
    fun _ _ => id

/-! ### Parameters -/

/-- The types of every parameter are normal. -/
def ParamInfo.AllNormal (params : List ParamInfo) : Prop :=
  ∀ param ∈ params, param.types.Normal

/-- A hint names concrete types. -/
theorem Hint.normal_read (naming : Naming) (hint : String) : (Hint.read naming hint).Normal := by
  have concrete (text : String) : ∀ value ∈ part naming text,
      ∃ name, value = TypeValue.concrete name := by
    intro value member
    unfold part at member
    dsimp only at member
    split at member
    · exact absurd member List.not_mem_nil
    · split at member <;> simp at member <;> grind
  refine TypeSet.every_ofList fun value member => ?_
  obtain ⟨text, _, member⟩ := List.mem_flatMap.mp member
  obtain ⟨name, rfl⟩ := concrete text value member
  exact TypeValue.normal_concrete name

namespace Param

/-- Types that fill up an empty set. -/
theorem normal_orElse {types : TypeSet} (given : types.Normal) (otherwise : Option TypeSet)
    (normal : ∀ types, otherwise = some types → types.Normal) :
    (if types.isEmpty then otherwise.getD types else types).Normal :=
  TypeSet.Every.ite (TypeSet.Every.getD given normal) given

theorem normal_types (naming : Naming) (base : Option BaseMethod) (position : Nat)
    (param : Param) : (param.types naming base position).Normal := by
  have hinted : ((param.hint.map (Hint.read naming)).getD .empty).Normal := by
    refine TypeSet.Every.getD TypeSet.every_empty fun types read => ?_
    obtain ⟨hint, _, rfl⟩ := Option.map_eq_some_iff.mp read
    exact Hint.normal_read naming hint
  have given := normal_orElse hinted (param.default.map (Typing.localType .empty naming))
    fun types typed => by
      obtain ⟨value, _, rfl⟩ := Option.map_eq_some_iff.mp typed
      exact Typing.normal_localType naming Scope.normal_empty value
  have declared := normal_orElse given (base.map fun base =>
      TypeSet.singleton (.baseParam position base.owner base.name)) fun types typed => by
    obtain ⟨base, _, rfl⟩ := Option.map_eq_some_iff.mp typed
    exact TypeSet.every_singleton (TypeValue.normal_of_parts rfl rfl)
  unfold Param.types
  dsimp only
  split
  · exact TypeLaw.normal.every_inArray declared
  · exact declared

theorem normal_describe (naming : Naming) (base : Option BaseMethod) (params : List Param) :
    ParamInfo.AllNormal (describe naming base params) := by
  intro info member
  obtain ⟨⟨param, position⟩, _, rfl⟩ := List.mem_map.mp member
  exact param.normal_types naming base position

end Param

end PhpAudit
