/-
This file proves that no marker of a test comes out of the rules for types if none goes in: arrays and
elements of a value are built from the same names, and the names of classes start with a backslash, so
they are not taken for markers. To be free of markers is a law of type values, which makes an exception
of the variables that a test marked.
-/

import PhpAudit.Proofs.Types.Normal

namespace PhpAudit

/-! ### Names -/

namespace TypeName

/-- Arrays of a marked variable are marked, and no others are. -/
theorem isMarker_arrayOf (name : String) : isMarker (arrayOf name) = isMarker name := by
  have brackets : (arrayOf name).toList = (name.toList ++ ['[']) ++ [']'] := by
    rw [arrayOf, String.toList_append, List.append_assoc]
    rfl
  have marker : "isset_$".toList = "isset_".toList ++ ['$'] := rfl
  have differs (text : List Char) {last : Char} (other : '$' ≠ last) :
      "isset_".toList ++ ['$'] ≠ text ++ [last] :=
    fun equal => other (List.singleton_inj.mp (List.append_inj' equal rfl).2)
  unfold isMarker Text.startsWith
  rw [Bool.eq_iff_iff, List.isPrefixOf_iff_prefix, List.isPrefixOf_iff_prefix, brackets, marker,
    List.prefix_concat_iff, List.prefix_concat_iff]
  refine ⟨fun starts => ?_, fun starts => .inr (.inr starts)⟩
  exact (starts.resolve_left (differs _ (by decide))).resolve_left (differs _ (by decide))

theorem isMarker_of_rooted {name : String} (rooted : Text.startsWith name "\\" = true) :
    isMarker name = false := by
  unfold isMarker Text.startsWith at *
  obtain ⟨rest, equal⟩ := List.isPrefixOf_iff_prefix.mp rooted
  rw [← equal]
  rfl

end TypeName

/-! ### Values without markers -/

namespace TypeValue

/-- No marker of a test occurs in the value. -/
def Unmarked (value : TypeValue) : Prop :=
  ∀ part ∈ value.parts, part.name?.any TypeName.isMarker = false

instance (value : TypeValue) : Decidable value.Unmarked :=
  inferInstanceAs (Decidable (∀ part ∈ _, _))

variable {value : TypeValue}

theorem unmarked_concrete {name : String} :
    (concrete name).Unmarked ↔ TypeName.isMarker name = false := by
  simp [Unmarked, parts, name?]

theorem unmarked_methodCall {method : String} :
    (methodCall value method).Unmarked ↔ value.Unmarked := by
  simp [Unmarked, parts, name?]

theorem unmarked_property {name : String} : (property value name).Unmarked ↔ value.Unmarked := by
  simp [Unmarked, parts, name?]

theorem unmarked_arrayOf : (arrayOf value).Unmarked ↔ value.Unmarked := by
  simp [Unmarked, parts, name?]

theorem unmarked_elementOf : (elementOf value).Unmarked ↔ value.Unmarked := by
  simp [Unmarked, parts, name?]

theorem unmarked_elementAt {key : String} : (elementAt value key).Unmarked ↔ value.Unmarked := by
  simp [Unmarked, parts, name?]

/-- Arrays without markers have elements without markers. -/
theorem unmarked_of_beforeEnd? {name inner : String}
    (before : Text.beforeEnd? name "[]" = some inner) (unmarked : (concrete name).Unmarked) :
    (concrete inner).Unmarked := by
  rw [unmarked_concrete, ← TypeName.arrayOf_of_beforeEnd? before, TypeName.isMarker_arrayOf] at unmarked
  exact unmarked_concrete.mpr unmarked

theorem Unmarked.inArray (unmarked : value.Unmarked) : value.inArray.Unmarked := by
  cases value with
  | elementOf array => exact unmarked_elementOf.mp unmarked
  | concrete name =>
    rw [unmarked_concrete] at unmarked
    exact unmarked_concrete.mpr ((TypeName.isMarker_arrayOf name).trans unmarked)
  | _ => exact unmarked_arrayOf.mpr unmarked

theorem Unmarked.element (unmarked : value.Unmarked) : value.element.Unmarked := by
  cases value with
  | arrayOf element => exact unmarked_arrayOf.mp unmarked
  | concrete name =>
    cases before : Text.beforeEnd? name "[]" with
    | some inner => simpa only [TypeValue.element, before] using unmarked_of_beforeEnd? before unmarked
    | none => simpa only [TypeValue.element, before] using unmarked_elementOf.mpr unmarked
  | _ => exact unmarked_elementOf.mpr unmarked

theorem Unmarked.elementUnder (unmarked : value.Unmarked) (key : String) :
    (value.elementUnder key).Unmarked := by
  cases value with
  | arrayOf element => exact unmarked_arrayOf.mp unmarked
  | concrete name =>
    cases before : Text.beforeEnd? name "[]" with
    | some inner =>
      simpa only [TypeValue.elementUnder, before] using unmarked_of_beforeEnd? before unmarked
    | none => simpa only [TypeValue.elementUnder, before] using unmarked_elementAt.mpr unmarked
  | _ => exact unmarked_elementAt.mpr unmarked

end TypeValue

/-- To be free of markers is a law, if one leaves out the variables that a test marked. -/
def TypeLaw.unmarked : TypeLaw where
  Holds := TypeValue.Unmarked
  lenient := false
  concrete name allowed := TypeValue.unmarked_concrete.mpr (by simpa using allowed)
  symbol value named := by
    cases value with
    | concrete | methodCall | property | arrayOf | elementOf | elementAt => cases named
    | _ => simp [TypeValue.Unmarked, TypeValue.parts, TypeValue.name?]
  methodCall _ _ := TypeValue.unmarked_methodCall.mpr
  property _ _ := TypeValue.unmarked_property.mpr
  inArray _ := TypeValue.Unmarked.inArray
  element _ := TypeValue.Unmarked.element
  elementUnder key _ unmarked := unmarked.elementUnder key

/-! ### Names of classes -/

/-- The names in a naming context start with a backslash, or are empty where nothing is named. -/
structure Naming.Rooted (naming : Naming) : Prop where
  space : naming.space = "" ∨ Text.startsWith naming.space "\\" = true
  owner : naming.owner = "" ∨ Text.startsWith naming.owner "\\" = true
  parent : naming.parent = "" ∨ Text.startsWith naming.parent "\\" = true
  classes : ∀ (shortName name : String), naming.classes[shortName]? = some name →
    Text.startsWith name "\\" = true

namespace Text

theorem startsWith_append {name : String} (rest : String) {start : String}
    (starts : startsWith name start = true) : startsWith (name ++ rest) start = true := by
  unfold startsWith at *
  rw [List.isPrefixOf_iff_prefix, String.toList_append]
  exact (List.isPrefixOf_iff_prefix.mp starts).trans (List.prefix_append ..)

end Text

namespace Naming

variable {naming : Naming}

theorem rooted_ofNamespace (space : Option String) : (ofNamespace space).Rooted := by
  have noClasses (shortName name : String)
      (found : ({} : Std.TreeMap String String)[shortName]? = some name) :
      Text.startsWith name "\\" = true := by
    simp at found
  unfold ofNamespace
  split
  · exact ⟨.inl rfl, .inl rfl, .inl rfl, noClasses⟩
  split
  · exact ⟨.inl rfl, .inl rfl, .inl rfl, noClasses⟩
  · exact ⟨.inr (Text.startsWith_append _ rfl), .inl rfl, .inl rfl, noClasses⟩

/-- Names as declared in a namespace start with a backslash. -/
theorem Rooted.declared (rooted : naming.Rooted) (name : String) :
    Text.startsWith (naming.declared name) "\\" = true := by
  unfold Naming.declared
  rw [String.append_assoc]
  rcases rooted.space with none | starts
  · rw [none, String.empty_append]
    exact Text.startsWith_append name rfl
  · exact Text.startsWith_append _ starts

theorem Rooted.className (rooted : naming.Rooted) (name : String) :
    Text.startsWith (naming.className name) "\\" = true := by
  unfold Naming.className
  split
  · next starts => exact starts
  split
  · exact rooted.declared _
  · dsimp only
    split
    · next imported found => exact Text.startsWith_append _ (rooted.classes _ imported found)
    · exact rooted.declared name

/-- The name of a class is not the marker of a variable. -/
theorem Rooted.obeys (rooted : naming.Rooted) : naming.Obeys .unmarked := by
  intro ref name found
  refine TypeLaw.unmarked.allows_plain (TypeName.isMarker_of_rooted ?_)
  have given {written : String}
      (starts : written = "" ∨ Text.startsWith written "\\" = true)
      (found : (if written.isEmpty then none else some written) = some name) :
      Text.startsWith name "\\" = true := by
    split at found
    · cases found
    · next filled =>
      obtain rfl := Option.some.inj found
      exact starts.resolve_left fun empty => filled (empty ▸ rfl)
  cases ref with
  | named written => exact given (.inr (rooted.className written)) found
  | self | static => exact given rooted.owner found
  | parent => exact given rooted.parent found
  | dynamic => cases found

end Naming

end PhpAudit
