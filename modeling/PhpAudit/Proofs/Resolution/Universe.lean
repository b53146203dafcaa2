/-
This file counts what resolution can come to. The values are those of the set that is resolved and
of the index, with their parts. The classes are the one that the resolution starts with and the
spellings of the names in the index, which may differ from the key in the case of letters and in the
leading backslash.
-/

import PhpAudit.Proofs.Resolution.Walks
import PhpAudit.Resolution

namespace PhpAudit.Resolution

/-! ### Parts of values -/

/-- A value and the values that it is about. -/
def parts (value : TypeValue) : List TypeValue :=
  value :: match value with
    | .methodCall inner _ | .property inner _ | .arrayOf inner | .elementOf inner
    | .elementAt inner _ => parts inner
    | _ => []

theorem length_parts (value : TypeValue) : (parts value).length = weight value := by
  induction value <;> simp_all [parts, weight]

theorem mem_parts (value : TypeValue) : value ∈ parts value := by
  unfold parts
  exact List.mem_cons_self

theorem parts_subset {value part : TypeValue} (member : part ∈ parts value) :
    parts part ⊆ parts value := by
  induction value with
  | methodCall inner _ inductionHypothesis | property inner _ inductionHypothesis
  | arrayOf inner inductionHypothesis | elementOf inner inductionHypothesis
  | elementAt inner _ inductionHypothesis =>
    rw [parts] at member
    rcases List.mem_cons.mp member with rfl | member
    · exact List.Subset.refl _
    · rw [parts]
      exact List.subset_cons_of_subset _ (inductionHypothesis member)
  | _ =>
    simp only [parts, List.mem_singleton] at member
    rw [member]
    exact List.Subset.refl _

/-! ### Sets of an index -/

def functionSets (info : FunctionInfo) : List TypeSet :=
  info.types :: info.params.map (·.types)

def classSets (info : ClassInfo) : List TypeSet :=
  info.methods.values.flatMap functionSets ++ info.properties.values.map (·.types) ++
    info.constants.values.map (·.types)

/-- The sets that the declarations of an index carry. -/
def indexSets (index : Index) : List TypeSet :=
  index.classes.values.flatMap classSets ++ index.traits.values.flatMap classSets ++
    index.functions.values.flatMap functionSets ++ index.constants.values.map (·.types) ++
    index.files.values.flatMap (·.globals.values)

section

variable {Item Part : Type} (weightOf : Part → Nat)

theorem total_append (first second : List Part) :
    total weightOf (first ++ second) = total weightOf first + total weightOf second := by
  induction first with
  | nil => exact (Nat.zero_add _).symm
  | cons item rest inductionHypothesis =>
    rw [List.cons_append, total, inductionHypothesis, total, Nat.add_assoc]

theorem total_map (partOf : Item → Part) (items : List Item) :
    total weightOf (items.map partOf) = total (fun item => weightOf (partOf item)) items := by
  induction items with
  | nil => rfl
  | cons item rest inductionHypothesis => rw [List.map_cons, total, inductionHypothesis, total]

theorem total_flatMap (partsOf : Item → List Part) (items : List Item) :
    total weightOf (items.flatMap partsOf) =
      total (fun item => total weightOf (partsOf item)) items := by
  induction items with
  | nil => rfl
  | cons item rest inductionHypothesis =>
    rw [List.flatMap_cons, total_append, inductionHypothesis, total]

theorem length_flatMap (partsOf : Item → List Part) (items : List Item) :
    (items.flatMap partsOf).length = total (fun item => (partsOf item).length) items := by
  induction items with
  | nil => rfl
  | cons item rest inductionHypothesis =>
    rw [List.flatMap_cons, List.length_append, inductionHypothesis, total]

end

theorem total_functionSets (info : FunctionInfo) :
    total setWeight (functionSets info) = functionWeight info := by
  rw [functionSets, total, total_map, functionWeight]

theorem total_classSets (info : ClassInfo) :
    total setWeight (classSets info) = classWeight info := by
  simp only [classSets, total_append, total_flatMap, total_map, total_functionSets, classWeight]

theorem total_indexSets (index : Index) :
    total setWeight (indexSets index) = indexWeight index := by
  simp only [indexSets, total_append, total_flatMap, total_map, total_functionSets,
    total_classSets, indexWeight]

/-! ### Values that can occur -/

/-- The values of a set and their parts. -/
def setParts (types : TypeSet) : List TypeValue :=
  types.members.flatMap parts

/-- The values of the index and of the set `types`, with their parts. -/
def values (index : Index) (types : TypeSet) : List TypeValue :=
  (indexSets index).flatMap setParts ++ setParts types

theorem length_setParts (types : TypeSet) : (setParts types).length = setWeight types := by
  simp only [setParts, length_flatMap, length_parts, setWeight]

theorem length_values (index : Index) (types : TypeSet) :
    (values index types).length = indexWeight index + setWeight types := by
  rw [values, List.length_append, length_flatMap, length_setParts, ← total_indexSets]
  simp only [length_setParts]

theorem mem_values {index : Index} {types : TypeSet} {value : TypeValue} :
    value ∈ values index types ↔
      ∃ whole, value ∈ parts whole ∧
        ((∃ set ∈ indexSets index, whole ∈ set.members) ∨ whole ∈ types.members) := by
  simp only [values, setParts, List.mem_append, List.mem_flatMap]
  constructor
  · rintro (⟨set, listed, whole, member, isPart⟩ | ⟨whole, member, isPart⟩)
    · exact ⟨whole, isPart, Or.inl ⟨set, listed, member⟩⟩
    · exact ⟨whole, isPart, Or.inr member⟩
  · rintro ⟨whole, isPart, ⟨set, listed, member⟩ | member⟩
    · exact Or.inl ⟨set, listed, whole, member, isPart⟩
    · exact Or.inr ⟨whole, member, isPart⟩

/-- The parts of a value that can occur can occur. -/
theorem parts_subset_values {index : Index} {types : TypeSet} {value : TypeValue}
    (occurs : value ∈ values index types) : parts value ⊆ values index types := by
  obtain ⟨whole, isPart, source⟩ := mem_values.mp occurs
  exact fun part found => mem_values.mpr ⟨whole, parts_subset isPart found, source⟩

/-- The members of the set are in the index. -/
def DrawnFrom (index : Index) (types : TypeSet) : Prop :=
  ∀ value ∈ types.members, ∃ set ∈ indexSets index, value ∈ set.members

theorem DrawnFrom.of_mem {index : Index} {types : TypeSet} (listed : types ∈ indexSets index) :
    DrawnFrom index types :=
  fun _ member => ⟨types, listed, member⟩

theorem DrawnFrom.mem_values {index : Index} {drawn types : TypeSet}
    (source : DrawnFrom index drawn) {value : TypeValue} (member : value ∈ drawn.members) :
    value ∈ values index types :=
  Resolution.mem_values.mpr ⟨value, mem_parts value, Or.inl (source value member)⟩

/-! ### Spellings of names -/

theorem val_toLower (char : Char) :
    char.toLower.val =
      if char.val ≥ 'A'.val ∧ char.val ≤ 'Z'.val then char.val + ('a'.val - 'A'.val)
      else char.val := by
  unfold Char.toLower
  split <;> rfl

theorem val_toUpper (char : Char) :
    char.toUpper.val =
      if char.val ≥ 'a'.val ∧ char.val ≤ 'z'.val then char.val + ('A'.val - 'a'.val)
      else char.val := by
  unfold Char.toUpper
  split <;> rfl

/-- A character is what it folds to, or the other case of it. -/
theorem toLower_or_toUpper (char : Char) :
    char = char.toLower ∨ char = char.toLower.toUpper := by
  by_cases upper : char.val ≥ 'A'.val ∧ char.val ≤ 'Z'.val
  · refine Or.inr (Char.ext ?_)
    rw [val_toUpper, val_toLower, if_pos upper]
    split <;> grind
  · refine Or.inl (Char.ext ?_)
    rw [val_toLower, if_neg upper]

theorem length_flatMap_pair {Item Part : Type} (first second : Item → Part) (items : List Item) :
    (items.flatMap fun item => [first item, second item]).length = items.length * 2 := by
  induction items with
  | nil => rfl
  | cons item rest inductionHypothesis =>
    simp only [List.flatMap_cons, List.length_append, List.length_cons, List.length_nil,
      inductionHypothesis]
    omega

/-- The texts that fold to `key`. -/
def foldings : List Char → List (List Char)
  | [] => [[]]
  | char :: rest => (foldings rest).flatMap fun tail => [char :: tail, char.toUpper :: tail]

theorem length_foldings (key : List Char) :
    (foldings key).length = Nat.pow 2 key.length := by
  induction key with
  | nil => rfl
  | cons char rest inductionHypothesis =>
    rw [foldings, length_flatMap_pair, inductionHypothesis, List.length_cons]
    rfl

theorem mem_foldings (text : List Char) : text ∈ foldings (text.map Char.toLower) := by
  induction text with
  | nil => exact List.mem_singleton_self _
  | cons char rest inductionHypothesis =>
    rw [List.map_cons, foldings, List.mem_flatMap]
    refine ⟨rest, inductionHypothesis, ?_⟩
    rcases toLower_or_toUpper char with same | same
    · rw [← same]
      exact List.mem_cons_self
    · rw [← same]
      exact List.mem_cons_of_mem _ List.mem_cons_self

/-- The names with the given key. -/
def namesWithKey (key : String) : List String :=
  (foldings key.toList).flatMap fun text => [String.ofList text, String.ofList text.tail]

theorem length_namesWithKey (key : String) :
    (namesWithKey key).length = Nat.pow 2 (key.length + 1) := by
  rw [namesWithKey, length_flatMap_pair, length_foldings, String.length_toList]
  rfl

theorem mem_namesWithKey (name : String) : name ∈ namesWithKey (symbolKey name) := by
  rw [namesWithKey, List.mem_flatMap]
  refine ⟨(absolute name).toList, ?_, ?_⟩
  · rw [symbolKey, Text.lower, String.toList_ofList]
    exact mem_foldings _
  · unfold absolute
    split
    · simp
    · simp

/-- The classes that resolution can come to from the class `owner`. -/
def owners (index : Index) (owner : String) : List String :=
  owner :: (Hierarchy.indexedKeys index).flatMap namesWithKey

theorem length_owners (index : Index) (owner : String) :
    (owners index owner).length = spellings index + 1 := by
  rw [owners, List.length_cons, length_flatMap]
  simp only [length_namesWithKey]
  rfl

theorem mem_owners {index : Index} {name : String} (owner : String)
    (indexed : symbolKey name ∈ Hierarchy.indexedKeys index) : name ∈ owners index owner :=
  List.mem_cons_of_mem _ (List.mem_flatMap.mpr ⟨_, indexed, mem_namesWithKey name⟩)

end PhpAudit.Resolution
