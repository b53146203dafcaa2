/-
This file compares an index with what is left of it after a file was added and retracted again. The
indexed files, the counts and the globals come back as they were. An entry of a merged table comes
back unless the added file displaced it and, of the declarations that are as large as the entry,
another one is in a file with a smaller name: while files are added, the first of equally large
declarations stays, but when a displaced entry is looked for again, the smallest file name decides.
-/

import Mathlib.Data.List.Induction
import PhpAudit.Proofs.Symbol.Changes

namespace PhpAudit

namespace Merged

variable {Info : Type} {position : Info → Position}

/-! ### The first of the largest declarations -/

/-- The largest declaration has only smaller ones before it. -/
theorem split_of_largest? {candidates : List Info} {best : Info}
    (found : largest? position candidates = some best) :
    ∃ before after, candidates = before ++ best :: after ∧
      (∀ info ∈ before, (position info).length < (position best).length) ∧
      ∀ info ∈ after, (position info).length ≤ (position best).length := by
  induction candidates using List.reverseRecOn generalizing best with
  | nil => simp [largest?] at found
  | append_singleton rest last inductionHypothesis =>
    simp only [largest?, List.foldl_append, List.foldl_cons, List.foldl_nil] at found
    split at found
    · next current equal =>
      obtain ⟨before, after, rfl, smaller, notLarger⟩ := inductionHypothesis equal
      split at found
      · next larger =>
        obtain rfl := Option.some.inj found
        refine ⟨before ++ current :: after, [], by simp, fun info member => ?_, by simp⟩
        rcases List.mem_append.mp member with member | member
        · exact (smaller info member).trans larger
        · rcases List.mem_cons.mp member with rfl | member
          · exact larger
          · exact (notLarger info member).trans_lt larger
      · next notLarger' =>
        obtain rfl := Option.some.inj (equal.symm.trans found)
        refine ⟨before, after ++ [last], by simp, smaller, fun info member => ?_⟩
        rcases List.mem_append.mp member with member | member
        · exact notLarger info member
        · rw [List.mem_singleton.mp member]
          exact not_lt.mp notLarger'
    · next equal =>
      obtain rfl := Option.some.inj found
      have empty : rest = [] := by
        have spec := largest?_spec position rest
        rwa [show largest? position rest = none from equal] at spec
      exact ⟨[], [], by simp [empty], by simp, by simp⟩

variable {table : FileSymbols → Std.TreeMap String Info}
  {files : Std.TreeMap String FileSymbols} {merged : Std.TreeMap String Info} {key : String}

/-- The declarations of a key in the indexed files, by increasing file name. -/
def candidates (table : FileSymbols → Std.TreeMap String Info)
    (files : Std.TreeMap String FileSymbols) (key : String) : List Info :=
  files.values.filterMap fun symbols => (table symbols)[key]?

theorem mem_candidates {info : Info} :
    info ∈ candidates table files key ↔ ∃ file, declarations table files key file = some info := by
  unfold candidates declarations
  rw [List.mem_filterMap]
  constructor
  · rintro ⟨symbols, member, declares⟩
    obtain ⟨file, indexed⟩ := mem_values.mp member
    exact ⟨file, by rw [indexed, Option.bind_some, declares]⟩
  · rintro ⟨file, declares⟩
    obtain ⟨symbols, indexed, declares⟩ := Option.bind_eq_some_iff.mp declares
    exact ⟨symbols, mem_values.mpr ⟨file, indexed⟩, declares⟩

theorem sorted_candidates (owned : Owned position (declarations table files key)) :
    (candidates table files key).Pairwise fun first second =>
      (position first).file < (position second).file := by
  have values : files.values = files.toList.map Prod.snd := by
    have folded : files.values = files.foldr (fun _ value rest => value :: rest) [] := rfl
    rw [folded, Std.TreeMap.foldr_eq_foldr_toList, List.map_eq_foldr]
  have sorted : files.toList.Pairwise fun first second => compare first.1 second.1 = .lt :=
    Std.TreeMap.ordered_keys_toList
  have places {item : String × FileSymbols} {info : Info} (member : item ∈ files.toList)
      (declares : (table item.2)[key]? = some info) : (position info).file = item.1 := by
    refine owned item.1 info ?_
    rw [declarations, Std.TreeMap.mem_toList_iff_getElem?_eq_some.mp member, Option.bind_some,
      declares]
  unfold candidates
  rw [values, List.filterMap_map, List.pairwise_filterMap]
  refine sorted.imp_of_mem fun {first second} member memberToo before info declares other
    declaresToo => ?_
  rw [places member declares, places memberToo declaresToo]
  exact compareOfLessAndEq_eq_lt.mp before

/-! ### Disputed entries -/

/-- Some declaration is as large as the entry of the key and is in a file with a smaller name. -/
def Disputed (position : Info → Position) (table : FileSymbols → Std.TreeMap String Info)
    (files : Std.TreeMap String FileSymbols) (merged : Std.TreeMap String Info) (key : String) :
    Prop :=
  ∃ entry, merged[key]? = some entry ∧ ∃ file other, declarations table files key file = some other ∧
    (position other).length = (position entry).length ∧ file < (position entry).file

/-- The declaration of the key is larger than its entry. -/
def Displaces (position : Info → Position) (declared merged : Std.TreeMap String Info)
    (key : String) : Prop :=
  ∃ entry info, merged[key]? = some entry ∧ declared[key]? = some info ∧
    (position entry).length < (position info).length

/-- An entry is found again among the declarations of the files exactly if it is not disputed. -/
theorem largest?_eq_entry_iff (agrees : Agrees position table files merged) {entry : Info}
    (held : merged[key]? = some entry) :
    largest? position (candidates table files key) = some entry ↔
      ¬ Disputed position table files merged key := by
  obtain ⟨owned, wins⟩ := agrees key
  rw [held] at wins
  have sorted := sorted_candidates owned
  constructor
  · rintro found ⟨current, heldToo, file, other, declares, equal, before⟩
    obtain rfl := Option.some.inj (held.symm.trans heldToo)
    have place := owned file other declares
    have member : other ∈ candidates table files key := mem_candidates.mpr ⟨file, declares⟩
    obtain ⟨smaller, notLarger, split, areSmaller, _⟩ := split_of_largest? found
    rw [split] at member sorted
    rcases List.mem_append.mp member with member | member
    · exact absurd equal (areSmaller other member).ne
    · rcases List.mem_cons.mp member with rfl | member
      · exact String.lt_irrefl _ (place ▸ before)
      · have after := (List.pairwise_cons.mp (List.pairwise_append.mp sorted).2.1).1 other member
        exact String.lt_irrefl _ (String.lt_trans before (place ▸ after))
  · intro undisputed
    have member : entry ∈ candidates table files key := mem_candidates.mpr ⟨_, wins.1⟩
    have spec := largest?_spec position (candidates table files key)
    split at spec
    · rw [spec] at member
      cases member
    · next best found =>
      obtain ⟨file, declares⟩ := mem_candidates.mp spec.1
      have equal : (position best).length = (position entry).length :=
        Nat.le_antisymm (wins.2 file best declares) (spec.2 entry member)
      obtain ⟨smaller, notLarger, split, areSmaller, _⟩ := split_of_largest? found
      rw [split] at member sorted
      rcases List.mem_append.mp member with member | member
      · exact absurd equal.symm (areSmaller entry member).ne
      · rcases List.mem_cons.mp member with rfl | member
        · exact found
        · have before := (List.pairwise_cons.mp (List.pairwise_append.mp sorted).2.1).1 entry member
          rw [owned file best declares] at before
          exact absurd ⟨entry, held, file, best, declares, equal, before⟩ undisputed

/-! ### Adding and retracting -/

theorem getElem?_erase_insert {Value : Type} (map : Std.TreeMap String Value) {file : String}
    (absent : map[file]? = none) (value : Value) (other : String) :
    ((map.insert file value).erase file)[other]? = map[other]? := by
  rw [Std.TreeMap.getElem?_erase, Std.TreeMap.getElem?_insert]
  by_cases same : file = other
  · subst same
    simp [absent]
  · simp [same]

theorem candidates_erase_insert {file : String} (absent : files[file]? = none)
    (symbols : FileSymbols) (key : String) :
    candidates table ((files.insert file symbols).erase file) key = candidates table files key := by
  have same := Std.TreeMap.Equiv.of_forall_constGet?_eq (getElem?_erase_insert files absent symbols)
  unfold candidates
  rw [same.values_eq]

/-- An entry survives that a file is added and retracted exactly if it is not both displaced and
disputed. -/
theorem restored_iff (agrees : Agrees position table files merged) {file : String}
    (absent : files[file]? = none) {symbols : FileSymbols}
    (own : ∀ (key : String) info, (table symbols)[key]? = some info → (position info).file = file)
    (key : String) :
    (retractAll position file (candidates table ((files.insert file symbols).erase file))
        (offerAll position merged (table symbols)) (table symbols))[key]? = merged[key]? ↔
      ¬ (Displaces position (table symbols) merged key ∧
        Disputed position table files merged key) := by
  rw [getElem?_retractAll, getElem?_offerAll, candidates_erase_insert absent]
  cases declared : (table symbols)[key]? with
  | none =>
    have missing : key ∉ table symbols := by
      rw [Std.TreeMap.mem_iff_isSome_getElem?, declared]
      simp
    rw [if_neg missing, Option.elim_none]
    simp [Displaces, declared]
  | some info =>
    have member : key ∈ table symbols := by
      rw [Std.TreeMap.mem_iff_isSome_getElem?, declared]
      rfl
    rw [if_pos member, Option.elim_some]
    cases held : merged[key]? with
    | none =>
      have wins := (agrees key).2
      rw [held] at wins
      have empty : candidates table files key = [] := by
        refine List.eq_nil_iff_forall_not_mem.mpr fun other member => ?_
        obtain ⟨file, declares⟩ := mem_candidates.mp member
        rw [wins file] at declares
        cases declares
      simp [retained, challenged, own key info declared, empty, largest?, Displaces, held]
    | some entry =>
      have source := (agrees key).2
      rw [held] at source
      have elsewhere : (position entry).file ≠ file := by
        intro same
        have declares := source.1
        rw [same, declarations, absent] at declares
        cases declares
      by_cases larger : (position entry).length < (position info).length
      · have displaced : Displaces position (table symbols) merged key :=
          ⟨entry, info, held, declared, larger⟩
        simp only [retained, challenged, if_pos larger, Option.bind_some, own key info declared,
          beq_self_eq_true, if_true, displaced, true_and]
        exact largest?_eq_entry_iff agrees held
      · have kept : ¬ Displaces position (table symbols) merged key := by
          rintro ⟨current, other, heldToo, declaredToo, smaller⟩
          obtain rfl := Option.some.inj (held.symm.trans heldToo)
          obtain rfl := Option.some.inj (declared.symm.trans declaredToo)
          exact larger smaller
        simp [retained, challenged, larger, elsewhere, kept]

/-- Tables with the same keys are of the same size. -/
theorem size_eq_of_mem_iff {first second : Std.TreeMap String Info}
    (same : ∀ key, key ∈ first ↔ key ∈ second) : first.size = second.size := by
  rw [← Std.TreeMap.length_keys, ← Std.TreeMap.length_keys]
  refine ((List.perm_ext_iff_of_nodup (nodup_keys first) (nodup_keys second)).mpr fun key => ?_).length_eq
  rw [Std.TreeMap.mem_keys, Std.TreeMap.mem_keys]
  exact same key

/-- Tables that agree with the same files are of the same size. -/
theorem Agrees.size_eq {others : Std.TreeMap String FileSymbols} {second : Std.TreeMap String Info}
    (agrees : Agrees position table files merged) (agreesToo : Agrees position table others second)
    (same : ∀ file : String, others[file]? = files[file]?) : second.size = merged.size := by
  refine size_eq_of_mem_iff fun key => ?_
  rw [agrees.merges.mem_iff, agreesToo.merges.mem_iff]
  simp only [same]

end Merged

namespace Index

/-- The entry of a symbol does not come back once the file is retracted. -/
def Unsettled {Info : Type} (position : Info → Position)
    (table : FileSymbols → Std.TreeMap String Info) (merged : Index → Std.TreeMap String Info)
    (index : Index) (symbols : FileSymbols) (key : String) : Prop :=
  Merged.Displaces position (table symbols) (merged index) key ∧
    Merged.Disputed position table index.files (merged index) key

theorem files_eraseFile_insertFile {index : Index} {file : String}
    (absent : index.files[file]? = none) (symbols : FileSymbols) (other : String) :
    ((index.insertFile file symbols).eraseFile file).files[other]? = index.files[other]? := by
  have indexed : (index.insertFile file symbols).files[file]? = some symbols := by
    simp [insertFile]
  rw [eraseFile, indexed]
  exact Merged.getElem?_erase_insert index.files absent symbols other

/--
Adding a file that is not indexed to an index that is not frozen, and deleting it again, restores the
index: the indexed files, the counts and the globals are the same as before, and a symbol is the
same exactly if its entry was not displaced while it was disputed.
-/
theorem retraction_restores {index : Index} (reachable : index.Reachable)
    (unfrozen : index.complete = false) {file : String} (absent : index.hasFile file = false)
    {symbols : FileSymbols} (declared : symbols.DeclaredIn file) :
    ∃ added restored, index.addFile file symbols = .ok added ∧
      added.deleteFile file = .ok restored ∧
      restored.fileNames = index.fileNames ∧ restored.stats = index.stats ∧
      (∀ name, restored.global? name = index.global? name) ∧
      (∀ name, restored.class? name = index.class? name ↔
        ¬ Unsettled ClassInfo.position (·.classes) classes index symbols (symbolKey name)) ∧
      (∀ name, restored.trait? name = index.trait? name ↔
        ¬ Unsettled ClassInfo.position (·.traits) traits index symbols (symbolKey name)) ∧
      (∀ name, restored.function? name = index.function? name ↔
        ¬ Unsettled FunctionInfo.position (·.functions) functions index symbols
          (symbolKey name)) ∧
      ∀ name, restored.constant? name = index.constant? name ↔
        ¬ Unsettled ConstInfo.position (·.constants) constants index symbols (absolute name) := by
  have agrees := reachable.agrees
  have missing : index.files[file]? = none :=
    Std.TreeMap.getElem?_eq_none_of_contains_eq_false absent
  let added := index.insertFile file symbols
  have agreesAfter : (added.eraseFile file).Agrees :=
    (agrees.insertFile missing declared).eraseFile file
  have files := files_eraseFile_insertFile missing symbols
  have accepted : index.addFile file symbols = .ok added := by
    have applied := Change.apply_eq index (.add file symbols)
    rwa [unfrozen, Bool.false_and, if_neg Bool.false_ne_true] at applied
  have retracted : added.deleteFile file = .ok (added.eraseFile file) := by
    have applied := Change.apply_eq added (.delete file)
    rwa [show added.complete = false from unfrozen, Bool.false_and, if_neg Bool.false_ne_true]
      at applied
  have indexed : added.files[file]? = some symbols := by
    simp [added, insertFile]
  have sameFiles := Std.TreeMap.Equiv.of_forall_constGet?_eq files
  refine ⟨added, added.eraseFile file, accepted, retracted, sameFiles.keys_eq, ?_,
    global?_eq_of_files files, fun name => ?_, fun name => ?_, fun name => ?_, fun name => ?_⟩
  · unfold stats
    rw [sameFiles.size_eq, agrees.classes.size_eq agreesAfter.classes files,
      agrees.traits.size_eq agreesAfter.traits files,
      agrees.functions.size_eq agreesAfter.functions files,
      agrees.constants.size_eq agreesAfter.constants files]
  all_goals
    rw [eraseFile, indexed]
  · exact Merged.restored_iff agrees.classes missing declared.classes (symbolKey name)
  · exact Merged.restored_iff agrees.traits missing declared.traits (symbolKey name)
  · exact Merged.restored_iff agrees.functions missing declared.functions (symbolKey name)
  · exact Merged.restored_iff agrees.constants missing declared.constants (absolute name)

/-- One file declares a class. -/
def smallSample : Index :=
  (Change.replace "small" (.ofClass "\\A" "small" 5)).after .empty

theorem reachable_smallSample : smallSample.Reachable :=
  .step .empty (FileSymbols.declaredIn_ofClass "\\A" "small" 5)

/-- A larger declaration displaces the class of the sample; retracting it brings the class back. -/
theorem retraction_restores_smallSample :
    smallSample.Reachable ∧ smallSample.complete = false ∧ smallSample.hasFile "big" = false ∧
      (FileSymbols.ofClass "\\A" "big" 50).DeclaredIn "big" ∧
      ∃ added restored, smallSample.addFile "big" (.ofClass "\\A" "big" 50) = .ok added ∧
        added.deleteFile "big" = .ok restored ∧
        restored.fileNames = smallSample.fileNames ∧ restored.stats = smallSample.stats ∧
        restored.class? "\\A" = smallSample.class? "\\A" := by
  have declared := FileSymbols.declaredIn_ofClass "\\A" "big" 50
  obtain ⟨added, restored, accepted, retracted, names, stats, _, classes, _⟩ :=
    retraction_restores reachable_smallSample (by decide) (by decide) declared
  refine ⟨reachable_smallSample, by decide, by decide, declared, added, restored,
    accepted, retracted, names, stats, (classes "\\A").mpr ?_⟩
  rintro ⟨_, entry, held, file, other, declares, _, before⟩
  -- the only indexed file is the one that the entry is from
  have place : (entry.position).file = "small" := by
    have found : (smallSample.class? "\\A").map (·.position.file) = some "small" := by
      decide
    rw [class?, held] at found
    exact Option.some.inj found
  obtain ⟨symbols, indexed, _⟩ := Option.bind_eq_some_iff.mp declares
  have only : file ∈ smallSample.fileNames := by
    rw [fileNames, Std.TreeMap.mem_keys, Std.TreeMap.mem_iff_isSome_getElem?, indexed]
    rfl
  have names : smallSample.fileNames = ["small"] := by decide
  rw [names, List.mem_singleton] at only
  rw [only, place] at before
  exact String.lt_irrefl _ before

/-- Two files declare a class of the same size; the one with the larger name came first. -/
def tiedSample : Index :=
  (Change.replace "a" (.ofClass "\\A" "a" 5)).after
    ((Change.replace "z" (.ofClass "\\A" "z" 5)).after .empty)

/-- Of equally large declarations another one is found after a larger one was retracted. -/
theorem entry_changes_tiedSample :
    tiedSample.Reachable ∧ tiedSample.complete = false ∧ tiedSample.hasFile "big" = false ∧
      (FileSymbols.ofClass "\\A" "big" 50).DeclaredIn "big" ∧
      (tiedSample.class? "\\A").map (·.position.file) = some "z" ∧
      ((((tiedSample.addFile "big" (.ofClass "\\A" "big" 50)).bind (·.deleteFile "big")).toOption.bind
        (·.class? "\\A")).map (·.position.file)) = some "a" :=
  ⟨.step (.step .empty (FileSymbols.declaredIn_ofClass "\\A" "z" 5))
      (FileSymbols.declaredIn_ofClass "\\A" "a" 5),
    by decide, by decide, FileSymbols.declaredIn_ofClass "\\A" "big" 50,
    by decide, by decide⟩

end Index

end PhpAudit
