/-
This file follows an index through its changes. From the empty index or the builtin one, any
sequence of changes keeps the four merged tables in agreement with the indexed files, provided that
a file is added only while it is not indexed and that its declarations carry its name. A frozen
index refuses every change of a file and stays as it is.
-/

import PhpAudit.Proofs.Symbol.Merged

namespace PhpAudit

/-! ### Declarations of a file -/

/-- The declarations of a file carry its name. -/
structure FileSymbols.DeclaredIn (symbols : FileSymbols) (file : String) : Prop where
  classes : ∀ (key : String) info, symbols.classes[key]? = some info → info.position.file = file
  traits : ∀ (key : String) info, symbols.traits[key]? = some info → info.position.file = file
  functions : ∀ (key : String) info,
    symbols.functions[key]? = some info → info.position.file = file
  constants : ∀ (key : String) info,
    symbols.constants[key]? = some info → info.position.file = file

namespace FileSymbols

theorem DeclaredIn.empty (file : String) : DeclaredIn {} file := by
  constructor <;> simp

/-- One more declaration that carries the name of the file. -/
theorem own_insert {Info : Type} {position : Info → Position} {file : String}
    {declared : Std.TreeMap String Info} {info : Info} (added : String)
    (own : ∀ (key : String) info, declared[key]? = some info → (position info).file = file)
    (carries : (position info).file = file) (key : String) (other : Info)
    (found : (declared.insert added info)[key]? = some other) : (position other).file = file := by
  rw [Std.TreeMap.getElem?_insert] at found
  split at found
  · rwa [← Option.some.inj found]
  · exact own key other found

variable {symbols : FileSymbols} {file : String}

theorem DeclaredIn.addClass (declared : symbols.DeclaredIn file) {info : ClassInfo}
    (carries : info.position.file = file) : (symbols.addClass info).DeclaredIn file := by
  unfold FileSymbols.addClass
  split
  · exact { declared with traits := own_insert _ declared.traits carries }
  · exact { declared with classes := own_insert _ declared.classes carries }

theorem DeclaredIn.addFunction (declared : symbols.DeclaredIn file) {info : FunctionInfo}
    (carries : info.position.file = file) : (symbols.addFunction info).DeclaredIn file :=
  { declared with functions := own_insert _ declared.functions carries }

end FileSymbols

theorem ClassInfo.position_foldl_addMethod {Row : Type} (methodOf : Row → FunctionInfo)
    (rows : List Row) (info : ClassInfo) :
    (rows.foldl (fun info row => info.addMethod (methodOf row)) info).position = info.position := by
  induction rows generalizing info with
  | nil => rfl
  | cons row rest inductionHypothesis => exact inductionHypothesis (info.addMethod (methodOf row))

theorem Builtin.declaredIn_symbols : Builtin.symbols.DeclaredIn builtinFile := by
  have foldl_of_add {Row : Type} (add : FileSymbols → Row → FileSymbols)
      (keeps : ∀ symbols row, symbols.DeclaredIn builtinFile →
        (add symbols row).DeclaredIn builtinFile) (rows : List Row) (symbols : FileSymbols)
      (declared : symbols.DeclaredIn builtinFile) :
      (rows.foldl add symbols).DeclaredIn builtinFile := by
    induction rows generalizing symbols with
    | nil => exact declared
    | cons row rest inductionHypothesis => exact inductionHypothesis _ (keeps symbols row declared)
  refine foldl_of_add _ (fun symbols row declared => declared.addFunction rfl) _ _ ?_
  refine foldl_of_add _ (fun symbols row declared => declared.addClass ?_) _ _ (.empty _)
  exact congrArg Position.file (ClassInfo.position_foldl_addMethod _ _ _)

/-! ### The merged tables of an index -/

/-- The four merged tables agree with the indexed files. -/
structure Index.Agrees (index : Index) : Prop where
  classes : Merged.Agrees ClassInfo.position (·.classes) index.files index.classes
  traits : Merged.Agrees ClassInfo.position (·.traits) index.files index.traits
  functions : Merged.Agrees FunctionInfo.position (·.functions) index.files index.functions
  constants : Merged.Agrees ConstInfo.position (·.constants) index.files index.constants

namespace Index

variable {index : Index} {file : String}

theorem Agrees.empty : Agrees .empty := by
  constructor <;> intro key <;>
    exact ⟨fun file info found => by simp [Merged.declarations, Index.empty] at found,
      by simp [Merged.Wins, Merged.declarations, Index.empty]⟩

theorem Agrees.insertFile (agrees : index.Agrees) (absent : index.files[file]? = none)
    {symbols : FileSymbols} (declared : symbols.DeclaredIn file) :
    (index.insertFile file symbols).Agrees where
  classes := agrees.classes.offerAll absent declared.classes
  traits := agrees.traits.offerAll absent declared.traits
  functions := agrees.functions.offerAll absent declared.functions
  constants := agrees.constants.offerAll absent declared.constants

theorem Agrees.eraseFile (agrees : index.Agrees) (file : String) :
    (index.eraseFile file).Agrees := by
  unfold Index.eraseFile
  split
  · exact agrees
  · next old indexed =>
    exact
      { classes := agrees.classes.retractAll indexed
        traits := agrees.traits.retractAll indexed
        functions := agrees.functions.retractAll indexed
        constants := agrees.constants.retractAll indexed }

theorem Agrees.setComplete (agrees : index.Agrees) (complete : Bool) :
    (index.setComplete complete).Agrees :=
  { agrees with }

theorem files_eraseFile (index : Index) (file : String) :
    (index.eraseFile file).files[file]? = none := by
  unfold eraseFile
  split
  · assumption
  · simp

theorem global?_eq_of_files {first second : Index}
    (same : ∀ file : String, first.files[file]? = second.files[file]?) (name : String) :
    first.global? name = second.global? name := by
  have alike : first.files.values = second.files.values :=
    (Std.TreeMap.Equiv.of_forall_constGet?_eq same).values_eq
  rw [Index.global?, Index.global?, alike]

end Index

/-! ### Histories -/

/-- What can be asked of an index. -/
inductive Change where
  | add (file : String) (symbols : FileSymbols)
  | delete (file : String)
  | replace (file : String) (symbols : FileSymbols)
  | setComplete (complete : Bool)

namespace Change

def apply (index : Index) : Change → Except IndexError Index
  | add file symbols => index.addFile file symbols
  | delete file => index.deleteFile file
  | replace file symbols => index.replaceFile file symbols
  | setComplete complete => .ok (index.setComplete complete)

/-- The index after a change was asked of it; a refused change leaves the index as it is. -/
def after (change : Change) (index : Index) : Index :=
  match change.apply index with
  | .ok next => next
  | .error _ => index

/-- The change concerns a file. -/
def ofFile : Change → Bool
  | setComplete _ => false
  | _ => true

/-- The change adds only a file that is not indexed, and what it declares carries its name. -/
def Admissible (index : Index) : Change → Prop
  | add file symbols => index.hasFile file = false ∧ symbols.DeclaredIn file
  | replace file symbols => symbols.DeclaredIn file
  | _ => True

/-- A frozen index refuses the changes of files; else every change is accepted. -/
theorem apply_eq (index : Index) (change : Change) :
    change.apply index =
      if index.complete && change.ofFile then .error .indexingComplete
      else .ok (match change with
        | add file symbols => index.insertFile file symbols
        | delete file => index.eraseFile file
        | replace file symbols => (index.eraseFile file).insertFile file symbols
        | setComplete complete => index.setComplete complete) := by
  cases change with
  | setComplete complete => simp [apply, ofFile]
  | _ =>
    simp only [ofFile, Bool.and_true]
    rfl

theorem agrees_after {index : Index} {change : Change} (agrees : index.Agrees)
    (admissible : change.Admissible index) : (change.after index).Agrees := by
  unfold after
  rw [apply_eq]
  split
  · next next accepted =>
    split at accepted
    · cases accepted
    · injection accepted with accepted
      subst accepted
      cases change with
      | add file symbols =>
        have absent := Std.TreeMap.getElem?_eq_none_of_contains_eq_false admissible.1
        exact agrees.insertFile absent admissible.2
      | delete file => exact agrees.eraseFile file
      | replace file symbols =>
        exact (agrees.eraseFile file).insertFile (index.files_eraseFile file) admissible
      | setComplete complete => exact agrees.setComplete complete
  · exact agrees

end Change

/-- The indexes that a sequence of admissible changes leads to. -/
inductive Index.Reachable : Index → Prop
  | empty : Reachable .empty
  | builtin : Reachable Builtin.index
  | step {index : Index} {change : Change} (reachable : Reachable index)
      (admissible : change.Admissible index) : Reachable (change.after index)

theorem Index.Reachable.agrees {index : Index} (reachable : index.Reachable) : index.Agrees := by
  induction reachable with
  | empty => exact .empty
  | builtin => exact Agrees.empty.insertFile rfl Builtin.declaredIn_symbols
  | step _ admissible inductionHypothesis =>
    exact Change.agrees_after inductionHypothesis admissible

/-! ### What the tables hold -/

/-- A merged table holds the keys that some indexed file declares. Its entry is the declaration in
the file that it names, and no indexed file has a larger one. -/
structure Index.Merges {Info : Type} (position : Info → Position)
    (table : FileSymbols → Std.TreeMap String Info) (files : Std.TreeMap String FileSymbols)
    (merged : Std.TreeMap String Info) : Prop where
  mem_iff : ∀ key, key ∈ merged ↔ ∃ (file : String) (symbols : FileSymbols),
    files[file]? = some symbols ∧ key ∈ table symbols
  source : ∀ (key : String) (entry : Info), merged[key]? = some entry →
    ∃ symbols, files[(position entry).file]? = some symbols ∧ (table symbols)[key]? = some entry
  largest : ∀ (key : String) (entry : Info), merged[key]? = some entry →
    ∀ (file : String) (symbols : FileSymbols) (other : Info), files[file]? = some symbols →
      (table symbols)[key]? = some other → (position other).length ≤ (position entry).length

theorem Merged.Agrees.merges {Info : Type} {position : Info → Position}
    {table : FileSymbols → Std.TreeMap String Info} {files : Std.TreeMap String FileSymbols}
    {merged : Std.TreeMap String Info} (agrees : Merged.Agrees position table files merged) :
    Index.Merges position table files merged := by
  have declared {key file : String} {symbols : FileSymbols} {info : Info}
      (indexed : files[file]? = some symbols) (found : (table symbols)[key]? = some info) :
      Merged.declarations table files key file = some info := by
    simp [Merged.declarations, indexed, found]
  have source (key : String) (entry : Info) (found : merged[key]? = some entry) :
      ∃ symbols, files[(position entry).file]? = some symbols ∧
        (table symbols)[key]? = some entry := by
    have wins := (agrees key).2
    rw [found] at wins
    exact Option.bind_eq_some_iff.mp wins.1
  refine ⟨fun key => ?_, source, fun key entry found file symbols other indexed declares => ?_⟩
  · constructor
    · intro member
      rw [Std.TreeMap.mem_iff_isSome_getElem?, Option.isSome_iff_exists] at member
      obtain ⟨entry, found⟩ := member
      obtain ⟨symbols, indexed, declares⟩ := source key entry found
      refine ⟨_, symbols, indexed, ?_⟩
      rw [Std.TreeMap.mem_iff_isSome_getElem?, declares]
      rfl
    · rintro ⟨file, symbols, indexed, member⟩
      rw [Std.TreeMap.mem_iff_isSome_getElem?, Option.isSome_iff_exists] at member
      obtain ⟨info, declares⟩ := member
      rw [Std.TreeMap.mem_iff_isSome_getElem?, Option.isSome_iff_ne_none]
      intro missing
      have wins := (agrees key).2
      rw [missing] at wins
      have none := wins file
      rw [declared indexed declares] at none
      cases none
  · have wins := (agrees key).2
    rw [found] at wins
    exact wins.2 file other (declared indexed declares)

/-- In every reachable index the merged tables hold the largest declarations of the indexed files,
and if the index is frozen, a change of a file is refused and changes nothing. -/
theorem Index.merged_of_reachable {index : Index} (reachable : index.Reachable) :
    Merges ClassInfo.position (·.classes) index.files index.classes ∧
      Merges ClassInfo.position (·.traits) index.files index.traits ∧
      Merges FunctionInfo.position (·.functions) index.files index.functions ∧
      Merges ConstInfo.position (·.constants) index.files index.constants ∧
      ∀ change : Change, index.complete = true → change.ofFile = true →
        change.apply index = .error .indexingComplete ∧ change.after index = index := by
  have agrees := reachable.agrees
  refine ⟨agrees.classes.merges, agrees.traits.merges, agrees.functions.merges,
    agrees.constants.merges, fun change complete ofFile => ?_⟩
  have refused : change.apply index = .error .indexingComplete := by
    rw [Change.apply_eq, complete, ofFile]
    rfl
  refine ⟨refused, ?_⟩
  unfold Change.after
  rw [refused]

/-- A file that declares one class, which spans `length` bytes. -/
def FileSymbols.ofClass (name file : String) (length : Nat) : FileSymbols :=
  FileSymbols.addClass {} { name, position := ⟨file, 1, 0, length⟩ }

theorem FileSymbols.declaredIn_ofClass (name file : String) (length : Nat) :
    (ofClass name file length).DeclaredIn file :=
  (DeclaredIn.empty file).addClass rfl

/-- Two files declare a class on top of the builtin ones; the larger declaration is retracted, and
the index is frozen. -/
def Index.retractedSample : Index :=
  [Change.add "stub" (.ofClass "\\A" "stub" 5), .add "real" (.ofClass "\\A" "real" 50),
    .delete "real", .setComplete true].foldl (fun index change => change.after index) Builtin.index

theorem Index.reachable_retractedSample : retractedSample.Reachable := by
  simp only [retractedSample, List.foldl_cons, List.foldl_nil]
  refine .step (.step (.step (.step .builtin ?_) ?_) ?_) ?_
  · exact ⟨by decide, FileSymbols.declaredIn_ofClass _ _ _⟩
  · exact ⟨by decide, FileSymbols.declaredIn_ofClass _ _ _⟩
  · trivial
  · trivial

theorem Index.merged_of_reachable_retractedSample :
    retractedSample.Reachable ∧
      (retractedSample.class? "\\a").map (·.position.file) = some "stub" ∧
      Merges ClassInfo.position (·.classes) retractedSample.files retractedSample.classes ∧
      (Change.delete "stub").apply retractedSample = .error .indexingComplete :=
  ⟨reachable_retractedSample, by decide +kernel,
    (merged_of_reachable reachable_retractedSample).1,
    ((merged_of_reachable reachable_retractedSample).2.2.2.2 (.delete "stub")
      (by decide) rfl).1⟩

end PhpAudit
