/-
This file says when the order in which files are indexed does not matter. What a file declares
depends on the index that it is walked against only through the functions that it calls by name:
whether they are pure, and what they take by reference. A file that is indexed before its callee
sees neither.

So the order is of no consequence if no file calls a function of another file that is pure or takes
an argument by reference. Every file then declares the same in every order, and if no two files
declare the same symbol, the merged tables are the same as well.
-/

import Mathlib.Data.List.Nodup
import Mathlib.Data.List.Pairwise
import Mathlib.Data.List.Perm.Basic
import PhpAudit.Document
import PhpAudit.Proofs.Reporting
import PhpAudit.Proofs.Symbol.Changes

namespace PhpAudit

/-! ### Single files -/

/-- The functions that a document calls by name. -/
def Document.calls (document : Document) : List Candidates :=
  FileWalk.calls document.parsed

/-- What a document declares when it is indexed. -/
def Document.symbols (index : Index) (options : Options) (document : Document) : FileSymbols :=
  (document.walk index options .indexing).symbols

/-- Walked against incomplete indexes in which the functions that it calls are alike, a document is
found to declare the same. -/
theorem Document.symbols_eq {first second : Index} (before : first.complete = false)
    (after : second.complete = false) (options : Options) (document : Document)
    (same : SameCallees first second document.calls) :
    document.symbols second options = document.symbols first options := by
  let env : FileEnv := ⟨first, options, document.source⟩
  have answers : env.Answers second document.calls := .inr ⟨before, after, same⟩
  exact FileWalk.symbols_withIndex env false document.parsed answers

/-! ### Tables after several files -/

/-- Adds the symbols of documents, one after another. -/
def insertAll (symbolsOf : Document → FileSymbols) (documents : List Document) (index : Index) :
    Index :=
  documents.foldl (fun index document => index.insertFile document.name (symbolsOf document)) index

section

variable {symbolsOf : Document → FileSymbols} {documents others : List Document} {index : Index}

theorem complete_insertAll : (insertAll symbolsOf documents index).complete = index.complete := by
  unfold insertAll
  induction documents generalizing index with
  | nil => rfl
  | cons document rest inductionHypothesis =>
    rw [List.foldl_cons, inductionHypothesis]
    rfl

/-- The last of the documents with the name of a file tells what the file declares. -/
theorem files_insertAll (file : String) :
    (insertAll symbolsOf documents index).files[file]? = documents.foldl (fun current document =>
      if document.name = file then some (symbolsOf document) else current) index.files[file]? := by
  unfold insertAll
  induction documents generalizing index with
  | nil => rfl
  | cons document rest inductionHypothesis =>
    rw [List.foldl_cons, inductionHypothesis, List.foldl_cons]
    congr 1
    rw [show (index.insertFile document.name (symbolsOf document)).files =
      index.files.insert document.name (symbolsOf document) from rfl, Std.TreeMap.getElem?_insert]
    simp only [Std.LawfulEqCmp.compare_eq_iff_eq]

variable {Info : Type} {position : Info → Position} {table : FileSymbols → Std.TreeMap String Info}
  {merged : Index → Std.TreeMap String Info}

/-- What is left of an entry when the declarations of a document are offered. -/
def contested (position : Info → Position) (table : FileSymbols → Std.TreeMap String Info)
    (symbolsOf : Document → FileSymbols) (key : String) (current : Option Info)
    (document : Document) : Option Info :=
  (table (symbolsOf document))[key]?.elim current fun info =>
    some (Merged.challenged position current info)

theorem merged_insertAll (offered : ∀ index file symbols, merged (index.insertFile file symbols) =
      Merged.offerAll position (merged index) (table symbols)) (key : String) :
    (merged (insertAll symbolsOf documents index))[key]? =
      documents.foldl (contested position table symbolsOf key) (merged index)[key]? := by
  unfold insertAll
  induction documents generalizing index with
  | nil => rfl
  | cons document rest inductionHypothesis =>
    rw [List.foldl_cons, inductionHypothesis, offered, Merged.getElem?_offerAll, List.foldl_cons]
    rfl

theorem challenged_eq_or (position : Info → Position) (current : Option Info) (info : Info) :
    current = some (Merged.challenged position current info) ∨
      Merged.challenged position current info = info := by
  unfold Merged.challenged
  split
  · split
    · exact Or.inr rfl
    · exact Or.inl rfl
  · exact Or.inr rfl

/-- An entry comes from the index or from one of the documents. -/
theorem foldl_contested_eq_some {key : String} {current : Option Info} {info : Info}
    (found : documents.foldl (contested position table symbolsOf key) current = some info) :
    current = some info ∨
      ∃ document ∈ documents, (table (symbolsOf document))[key]? = some info := by
  induction documents generalizing current with
  | nil => exact Or.inl found
  | cons document rest inductionHypothesis =>
    rcases inductionHypothesis found with first | ⟨other, listed, declared⟩
    · unfold contested at first
      cases own : (table (symbolsOf document))[key]? with
      | none =>
        rw [own] at first
        exact Or.inl first
      | some offered =>
        rw [own, Option.elim_some, Option.some.injEq] at first
        rcases challenged_eq_or position current offered with kept | entered
        · exact Or.inl (kept.trans (congrArg some first))
        · exact Or.inr ⟨document, List.mem_cons_self, by rw [own, ← first, entered]⟩
    · exact Or.inr ⟨other, List.mem_cons_of_mem _ listed, declared⟩

theorem foldl_contested_of_missing {key : String} {current : Option Info}
    (missing : ∀ document ∈ documents, (table (symbolsOf document))[key]? = none) :
    documents.foldl (contested position table symbolsOf key) current = current := by
  induction documents with
  | nil => rfl
  | cons document rest inductionHypothesis =>
    rw [List.foldl_cons, contested, missing document List.mem_cons_self, Option.elim_none]
    exact inductionHypothesis fun other listed => missing other (List.mem_cons_of_mem _ listed)

theorem foldl_contested_perm {key : String} (current : Option Info)
    (apart : ∀ first ∈ documents, ∀ second ∈ documents, first ≠ second →
      (table (symbolsOf first))[key]? = none ∨ (table (symbolsOf second))[key]? = none)
    (reordered : documents.Perm others) :
    documents.foldl (contested position table symbolsOf key) current =
      others.foldl (contested position table symbolsOf key) current := by
  refine reordered.foldl_eq' (fun first listed second listedToo current => ?_) current
  by_cases same : first = second
  · rw [same]
  · rcases apart first listed second listedToo same with missing | missing
    · simp only [contested, missing, Option.elim_none]
    · simp only [contested, missing, Option.elim_none]

end

/-! ### Documents that do not depend on each other -/

/-- Neither map has a key of the other. -/
def disjointKeys {Info : Type} (first second : Std.TreeMap String Info) : Bool :=
  first.keys.all fun key => !second.contains key

/-- The files declare no symbol in common. -/
def FileSymbols.isApart (first second : FileSymbols) : Bool :=
  disjointKeys first.classes second.classes && disjointKeys first.traits second.traits &&
    disjointKeys first.functions second.functions && disjointKeys first.constants second.constants

/-- An indexed caller sees no difference to a function that is not known. -/
def FunctionInfo.isPlain (info : FunctionInfo) : Bool :=
  !info.isPure && info.params.all fun param => !param.byRef

def Candidates.names (candidates : Candidates) : List String :=
  candidates.name :: candidates.fallback.toList

/-- The functions that a call may mean if some files are indexed. -/
def meanings (start : Index) (files : List FileSymbols) (call : Candidates) : List FunctionInfo :=
  call.names.flatMap fun name =>
    (start.function? name).toList ++ files.filterMap (·.functions[symbolKey name]?)

/-- The files tell an indexed caller nothing: they do not declare the function, or whatever it may
mean is neither pure nor takes an argument by reference. -/
def isUnobserved (start : Index) (files : List FileSymbols) (call : Candidates) : Bool :=
  (files.all fun symbols =>
      call.names.all fun name => !symbols.functions.contains (symbolKey name)) ||
    (meanings start files call).all (·.isPlain)

/-- The documents are different files that are not indexed yet, declare different symbols, and tell
each other nothing. -/
@[mk_iff]
structure Independent (start : Index) (options : Options) (documents : List Document) : Prop where
  named : (documents.map (·.name)).Nodup
  fresh : ∀ document ∈ documents, start.hasFile document.name = false
  apart : documents.Pairwise fun first second =>
    (first.symbols start options).isApart (second.symbols start options) = true
  unobserved : ∀ document ∈ documents, ∀ call ∈ document.calls,
    isUnobserved start ((documents.filter (·.name != document.name)).map
      (Document.symbols start options)) call = true

instance (start : Index) (options : Options) (documents : List Document) :
    Decidable (Independent start options documents) :=
  decidable_of_iff _ (independent_iff start options documents).symm

theorem refParam?_eq_none {params : List ParamInfo}
    (byValue : ∀ param ∈ params, param.byRef = false) (position : Nat) :
    Flow.refParam? (some params) position = none := by
  rw [Flow.refParam?, Option.bind_some, Option.filter_eq_none_iff]
  intro param found
  rw [Option.orElse_eq_orElse, Option.orElse_eq_or, Option.or_eq_some_iff] at found
  have listed : param ∈ params := by
    rcases found with found | ⟨-, found⟩
    · exact List.mem_of_getElem? found
    · exact List.mem_of_getLast? (Option.filter_eq_some_iff.mp found).1
  simp [byValue param listed]

theorem calledAlike_none {callee : Option FunctionInfo}
    (plain : ∀ info, callee = some info → info.isPlain = true) : CalledAlike callee none := by
  cases callee with
  | none => exact ⟨rfl, fun _ => rfl⟩
  | some info =>
    obtain ⟨impure, byValue⟩ := Bool.and_eq_true_iff.mp (plain info rfl)
    have noneByRef (param : ParamInfo) (listed : param ∈ info.params) : param.byRef = false := by
      simpa using List.all_eq_true.mp byValue param listed
    exact ⟨by simpa using impure, refParam?_eq_none noneByRef⟩

theorem CalledAlike.trans {first second third : Option FunctionInfo}
    (one : CalledAlike first second) (two : CalledAlike second third) : CalledAlike first third :=
  ⟨one.isPure.trans two.isPure,
    fun position => (one.refParam position).trans (two.refParam position)⟩

theorem CalledAlike.symm {first second : Option FunctionInfo} (alike : CalledAlike first second) :
    CalledAlike second first :=
  ⟨alike.isPure.symm, fun position => (alike.refParam position).symm⟩

section

variable {symbolsOf : Document → FileSymbols} {done : List Document} {start : Index}
  {files : List FileSymbols} {call : Candidates}

theorem exists_function?_of_callee? {index : Index} {info : FunctionInfo}
    (found : index.callee? call = some info) :
    ∃ name ∈ call.names, index.function? name = some info := by
  rw [Index.callee?, Option.orElse_eq_orElse, Option.orElse_eq_or, Option.or_eq_some_iff] at found
  rcases found with own | ⟨-, fallback⟩
  · exact ⟨call.name, List.mem_cons_self, own⟩
  · obtain ⟨name, named, known⟩ := Option.bind_eq_some_iff.mp fallback
    exact ⟨name, List.mem_cons_of_mem _ (Option.mem_toList.mpr named), known⟩

theorem function?_insertAll (name : String) :
    (insertAll symbolsOf done start).function? name =
      done.foldl (contested FunctionInfo.position FileSymbols.functions symbolsOf (symbolKey name))
        (start.function? name) :=
  merged_insertAll (fun _ _ _ => rfl) (symbolKey name)

theorem callee?_congr {first second : Index}
    (same : ∀ name ∈ call.names, first.function? name = second.function? name) :
    first.callee? call = second.callee? call := by
  have fallback : call.fallback.bind first.function? = call.fallback.bind second.function? := by
    refine Option.bind_congr fun name named => same name (List.mem_cons_of_mem _ ?_)
    exact Option.mem_toList.mpr named
  rw [Index.callee?, Index.callee?, same call.name List.mem_cons_self, fallback]

/-- Files that tell nothing do not change what a caller sees. -/
theorem calledAlike_insertAll (unobserved : isUnobserved start files call = true)
    (among : ∀ document ∈ done, symbolsOf document ∈ files) :
    CalledAlike ((insertAll symbolsOf done start).callee? call) (start.callee? call) := by
  rcases Bool.or_eq_true_iff.mp unobserved with undeclared | plain
  · -- What the files do not declare stays as it was.
    have same (name : String) (listed : name ∈ call.names) :
        (insertAll symbolsOf done start).function? name = start.function? name := by
      rw [function?_insertAll]
      refine foldl_contested_of_missing fun document indexed => ?_
      have others := List.all_eq_true.mp undeclared _ (among document indexed)
      have missing := List.all_eq_true.mp others name listed
      exact Std.TreeMap.getElem?_eq_none_of_contains_eq_false (by simpa using missing)
    rw [callee?_congr same]
    exact ⟨rfl, fun _ => rfl⟩
  · have isPlain {info : FunctionInfo} {name : String} (listed : name ∈ call.names)
        (known : info ∈ (start.function? name).toList ++
          files.filterMap (·.functions[symbolKey name]?)) : info.isPlain = true :=
      List.all_eq_true.mp plain info (List.mem_flatMap.mpr ⟨name, listed, known⟩)
    -- Before and after, a caller cannot tell the function from one that is not known.
    refine (calledAlike_none fun info found => ?_).trans
      (calledAlike_none fun info found => ?_).symm
    · obtain ⟨name, listed, known⟩ := exists_function?_of_callee? found
      rw [function?_insertAll] at known
      refine isPlain listed (List.mem_append.mpr ?_)
      rcases foldl_contested_eq_some known with before | ⟨document, listed, declared⟩
      · exact Or.inl (Option.mem_toList.mpr before)
      · exact Or.inr (List.mem_filterMap.mpr ⟨_, among document listed, declared⟩)
    · obtain ⟨name, listed, known⟩ := exists_function?_of_callee? found
      exact isPlain listed (List.mem_append_left _ (Option.mem_toList.mpr known))

end

/-! ### Indexing in turn -/

/-- Takes documents through the indexing phase, one after another. -/
def indexAll (options : Options) (documents : List Document) (index : Index) :
    Except IndexError Index :=
  documents.foldlM (fun index document =>
    (document.analyze index options .indexing).map Prod.fst) index

theorem files_insertAll_of_unnamed {symbolsOf : Document → FileSymbols} {done : List Document}
    {start : Index} {file : String} (unnamed : ∀ document ∈ done, document.name ≠ file) :
    (insertAll symbolsOf done start).files[file]? = start.files[file]? := by
  rw [files_insertAll, List.foldl_ext _ (fun current _ => current) _ fun current document listed =>
    if_neg (unnamed document listed)]
  exact List.foldl_fixed _

/-- A file that is not indexed is only added. -/
theorem Index.replaceFile_of_fresh {index : Index} {file : String} (symbols : FileSymbols)
    (unfrozen : index.complete = false) (fresh : index.files[file]? = none) :
    index.replaceFile file symbols = .ok (index.insertFile file symbols) := by
  have erased : index.eraseFile file = index := by
    rw [eraseFile, fresh]
  refine (Change.apply_eq index (.replace file symbols)).trans ?_
  simp only [unfrozen, Bool.false_and, Bool.false_eq_true, if_false, erased]

namespace Independent

variable {start : Index} {options : Options} {documents : List Document}

/-- A document sees the same functions after other documents were indexed. -/
theorem sameCallees (independent : Independent start options documents) {done : List Document}
    {document : Document} (listed : document ∈ documents)
    (others : ∀ other ∈ done, other ∈ documents ∧ other.name ≠ document.name) :
    SameCallees start (insertAll (Document.symbols start options) done start) document.calls := by
  intro call called
  refine calledAlike_insertAll (independent.unobserved document listed call called)
    fun other indexed => List.mem_map_of_mem (List.mem_filter.mpr ?_)
  exact ⟨(others other indexed).1, bne_iff_ne.mpr (others other indexed).2⟩

/-- One more document adds what it would declare at the start. -/
theorem analyze_eq (independent : Independent start options documents)
    (unfrozen : start.complete = false) {done : List Document} {document : Document}
    (listed : document ∈ documents)
    (others : ∀ other ∈ done, other ∈ documents ∧ other.name ≠ document.name) :
    (document.analyze (insertAll (Document.symbols start options) done start) options .indexing).map
        Prod.fst =
      .ok (insertAll (Document.symbols start options) (done ++ [document]) start) := by
  have fresh : (insertAll (Document.symbols start options) done start).files[document.name]? =
      none := by
    rw [files_insertAll_of_unnamed fun other indexed => (others other indexed).2]
    exact Std.TreeMap.getElem?_eq_none_of_contains_eq_false (independent.fresh document listed)
  have same : (document.walk (insertAll (Document.symbols start options) done start) options
      .indexing).symbols = document.symbols start options :=
    document.symbols_eq unfrozen (complete_insertAll.trans unfrozen) options
      (independent.sameCallees listed others)
  simp only [Document.analyze]
  rw [same, Index.replaceFile_of_fresh _ (complete_insertAll.trans unfrozen) fresh]
  simp only [insertAll, List.foldl_append]
  rfl

/-- In every order, each document adds what it would declare at the start. -/
theorem indexAll_eq (independent : Independent start options documents)
    (unfrozen : start.complete = false) {order : List Document} (reordered : documents.Perm order) :
    indexAll options order start =
      .ok (insertAll (Document.symbols start options) order start) := by
  have named := (reordered.map (·.name)).nodup_iff.mp independent.named
  -- By induction on the documents that are left; each is walked against an index that the documents
  -- before it have extended, and still declares what it would declare at the start.
  suffices ∀ done rest, done ++ rest = order →
      indexAll options rest (insertAll (Document.symbols start options) done start) =
        .ok (insertAll (Document.symbols start options) order start) from this [] order rfl
  intro done rest split
  induction rest generalizing done with
  | nil =>
    rw [List.append_nil] at split
    rw [split]
    rfl
  | cons document rest inductionHypothesis =>
    subst split
    rw [List.map_append, List.nodup_append] at named
    have listed : document ∈ documents := reordered.mem_iff.mpr (by simp)
    have others (other : Document) (indexed : other ∈ done) :
        other ∈ documents ∧ other.name ≠ document.name :=
      ⟨reordered.mem_iff.mpr (by simp [indexed]),
        named.2.2 _ (List.mem_map_of_mem indexed) _ (by simp)⟩
    rw [indexAll, List.foldlM_cons, independent.analyze_eq unfrozen listed others]
    exact inductionHypothesis (done ++ [document]) (by simp)

end Independent

/-! ### Answers in every order -/

/-- Both indexes give the same answers. -/
structure AnswersAlike (first second : Index) : Prop where
  classes : ∀ name, first.class? name = second.class? name
  traits : ∀ name, first.trait? name = second.trait? name
  functions : ∀ name, first.function? name = second.function? name
  constants : ∀ name, first.constant? name = second.constant? name
  globals : ∀ name, first.global? name = second.global? name

theorem getElem?_or_of_disjointKeys {Info : Type} {first second : Std.TreeMap String Info}
    (disjoint : disjointKeys first second = true) (key : String) :
    first[key]? = none ∨ second[key]? = none := by
  by_cases listed : key ∈ first
  · right
    have missing := List.all_eq_true.mp disjoint key (Std.TreeMap.mem_keys.mpr listed)
    exact Std.TreeMap.getElem?_eq_none_of_contains_eq_false (by simpa using missing)
  · exact Or.inl (Std.TreeMap.getElem?_eq_none listed)

section

variable {symbolsOf : Document → FileSymbols} {documents others : List Document} {start : Index}

theorem merged_insertAll_perm {Info : Type} {position : Info → Position}
    (merged : Index → Std.TreeMap String Info) (table : FileSymbols → Std.TreeMap String Info)
    (offered : ∀ index file symbols, merged (index.insertFile file symbols) =
      Merged.offerAll position (merged index) (table symbols))
    (apart : documents.Pairwise fun first second =>
      disjointKeys (table (symbolsOf first)) (table (symbolsOf second)) = true)
    (reordered : documents.Perm others) (key : String) :
    (merged (insertAll symbolsOf documents start))[key]? =
      (merged (insertAll symbolsOf others start))[key]? := by
  rw [merged_insertAll offered, merged_insertAll offered]
  let Alone (first second : Document) : Prop :=
    (table (symbolsOf first))[key]? = none ∨ (table (symbolsOf second))[key]? = none
  have symmetric : Std.Symm Alone := ⟨fun _ _ => Or.symm⟩
  have alone : documents.Pairwise Alone :=
    apart.imp fun disjoint => getElem?_or_of_disjointKeys disjoint key
  exact foldl_contested_perm _ (fun first listed second listedToo =>
    alone.forall listed listedToo) reordered

/-- Documents with different names tell in every order what the files declare. -/
theorem files_insertAll_perm (named : (documents.map (·.name)).Nodup)
    (reordered : documents.Perm others) (file : String) :
    (insertAll symbolsOf documents start).files[file]? =
      (insertAll symbolsOf others start).files[file]? := by
  rw [files_insertAll, files_insertAll]
  refine reordered.foldl_eq' (fun first listed second listedToo current => ?_) _
  by_cases own : first.name = file
  · by_cases ownToo : second.name = file
    · rw [List.inj_on_of_nodup_map named listed listedToo (own.trans ownToo.symm)]
    · simp only [own, ownToo, if_true, if_false]
  · simp only [own, if_false]

theorem answersAlike_insertAll (named : (documents.map (·.name)).Nodup)
    (apart : documents.Pairwise fun first second =>
      (symbolsOf first).isApart (symbolsOf second) = true)
    (reordered : documents.Perm others) :
    AnswersAlike (insertAll symbolsOf documents start) (insertAll symbolsOf others start) := by
  simp only [FileSymbols.isApart, Bool.and_eq_true] at apart
  exact
    { classes := fun name => merged_insertAll_perm Index.classes FileSymbols.classes
        (fun _ _ _ => rfl) (apart.imp (·.1.1.1)) reordered (symbolKey name)
      traits := fun name => merged_insertAll_perm Index.traits FileSymbols.traits
        (fun _ _ _ => rfl) (apart.imp (·.1.1.2)) reordered (symbolKey name)
      functions := fun name => merged_insertAll_perm Index.functions FileSymbols.functions
        (fun _ _ _ => rfl) (apart.imp (·.1.2)) reordered (symbolKey name)
      constants := fun name => merged_insertAll_perm Index.constants FileSymbols.constants
        (fun _ _ _ => rfl) (apart.imp (·.2)) reordered (absolute name)
      globals := Index.global?_eq_of_files (files_insertAll_perm named reordered) }

end

/--
In two incomplete indexes that are alike in the functions it calls, a document is found to declare
the same. Hence documents that are independent of each other can be indexed in every order: nothing
is refused, and the answers are the same.
-/
theorem indexing_unordered (options : Options) :
    (∀ (document : Document) (first second : Index), first.complete = false →
      second.complete = false → SameCallees first second document.calls →
      document.symbols second options = document.symbols first options) ∧
    ∀ (start : Index) (documents others : List Document), start.complete = false →
      Independent start options documents → documents.Perm others →
      ∃ first second, indexAll options documents start = .ok first ∧
        indexAll options others start = .ok second ∧ AnswersAlike first second := by
  refine ⟨fun document first second before after same => ?_,
    fun start documents others unfrozen independent reordered => ?_⟩
  · exact document.symbols_eq before after options same
  · exact ⟨_, _, independent.indexAll_eq unfrozen (List.Perm.refl documents),
      independent.indexAll_eq unfrozen reordered,
      answersAlike_insertAll independent.named independent.apart reordered⟩

def visitFile : Document :=
  .ofText "visit.php" "<?php class A {} function visit() { greet(); return new A; } $s = greet();"

def greetFile : Document :=
  .ofText "greet.php" "<?php trait T {} function greet() { echo 1; visit(); } $s = 2;"

/-- Two files whose functions call each other. -/
theorem indexing_unordered_greetFile :
    SameCallees .empty (insertAll (Document.symbols .empty {}) [greetFile] .empty) visitFile.calls ∧
      visitFile.symbols (insertAll (Document.symbols .empty {}) [greetFile] .empty) {} =
        visitFile.symbols .empty {} ∧
      Independent .empty {} [visitFile, greetFile] ∧
      ∃ first second, indexAll {} [visitFile, greetFile] .empty = .ok first ∧
        indexAll {} [greetFile, visitFile] .empty = .ok second ∧ AnswersAlike first second := by
  have independent : Independent .empty {} [visitFile, greetFile] := by decide +kernel
  have others (other : Document) (indexed : other ∈ [greetFile]) :
      other ∈ [visitFile, greetFile] ∧ other.name ≠ visitFile.name := by
    obtain rfl := List.mem_singleton.mp indexed
    exact ⟨List.mem_cons_of_mem _ indexed, by decide⟩
  have same := independent.sameCallees List.mem_cons_self others
  exact ⟨same, (indexing_unordered {}).1 visitFile _ _ rfl rfl same, independent,
    (indexing_unordered {}).2 _ _ _ rfl independent (List.Perm.swap _ _ _)⟩

def callerFile : Document :=
  .ofText "f.php" "<?php function f() { return g(); }"

def calleeFile : Document :=
  .ofText "g.php" "<?php function g() { return 1; }"

/-- A function is found pure only if the function that it calls is indexed before. -/
theorem isPure_after_callee :
    (callerFile.symbols .empty {}).isApart (calleeFile.symbols .empty {}) = true ∧
      ((indexAll {} [callerFile, calleeFile] .empty).toOption.bind (·.function? "\\f")).map
        (·.isPure) = some false ∧
      ((indexAll {} [calleeFile, callerFile] .empty).toOption.bind (·.function? "\\f")).map
        (·.isPure) = some true := by
  decide +kernel

end PhpAudit
