/-
This file proves what the merged tables of an index hold. Whatever the order in which files were
added, replaced and retracted, a table holds a key exactly if some indexed file declares it, and its
entry is a largest one among the declarations of the key, taken from the file that its position
names.

For one key, the declarations of the indexed files form a family with at most one member per file.
The entry of the table has to win in this family. Adding a file extends the family by one member,
which challenges the entry; retracting a file removes one member, and if it was the entry, the
largest of the others wins.
-/

import Mathlib.Order.Lattice
import Mathlib.Order.Nat
import PhpAudit.Symbol.Builtin

namespace PhpAudit

namespace Merged

variable {Info : Type} (position : Info → Position)

/-! ### Families of declarations -/

/-- The entry is a largest declaration of the family, from the file that it names. -/
def Wins (family : String → Option Info) : Option Info → Prop
  | none => ∀ file, family file = none
  | some entry => family (position entry).file = some entry ∧
      ∀ file other, family file = some other → (position other).length ≤ (position entry).length

/-- Every declaration names the file that it is in. -/
def Owned (family : String → Option Info) : Prop :=
  ∀ file info, family file = some info → (position info).file = file

/-- What is left of an entry and a declaration that is offered. -/
def challenged (current : Option Info) (info : Info) : Info :=
  match current with
  | some current => if (position current).length < (position info).length then info else current
  | none => info

/-- What is left of an entry when the declarations of `file` are retracted; `rest` are others. -/
def retained (file : String) (rest : List Info) (current : Option Info) : Option Info :=
  current.bind fun current =>
    if (position current).file == file then largest? position rest else some current

/-- The largest of some declarations is one of them, and none of them is larger. -/
theorem largest?_spec (candidates : List Info) :
    match largest? position candidates with
    | none => candidates = []
    | some best => best ∈ candidates ∧
        ∀ info ∈ candidates, (position info).length ≤ (position best).length := by
  -- the fold over a longer list, from the best of the part before it
  have scan (rest done : List Info) (best : Info) (member : best ∈ done)
      (largest : ∀ info ∈ done, (position info).length ≤ (position best).length) :
      ∃ winner, rest.foldl (fun best info =>
          match best with
          | some current =>
            if (position current).length < (position info).length then some info else best
          | none => some info) (some best) = some winner ∧ winner ∈ done ++ rest ∧
        ∀ info ∈ done ++ rest, (position info).length ≤ (position winner).length := by
    induction rest generalizing done best with
    | nil => exact ⟨best, rfl, by simpa using member, by simpa using largest⟩
    | cons info rest inductionHypothesis =>
      rw [List.foldl_cons, List.append_cons]
      dsimp only
      split
      · next smaller =>
        refine inductionHypothesis (done ++ [info]) info (by simp) fun other found => ?_
        rcases List.mem_append.mp found with found | found
        · exact (largest other found).trans smaller.le
        · rw [List.mem_singleton.mp found]
      · next notSmaller =>
        refine inductionHypothesis (done ++ [info]) best (by simp [member]) fun other found => ?_
        rcases List.mem_append.mp found with found | found
        · exact largest other found
        · rw [List.mem_singleton.mp found]
          exact not_lt.mp notSmaller
  cases candidates with
  | nil => rfl
  | cons info rest =>
    obtain ⟨winner, equal, member, largest⟩ := scan rest [info] info (by simp) (by simp)
    have found : largest? position (info :: rest) = some winner := equal
    rw [found]
    exact ⟨member, largest⟩

variable {position} {family : String → Option Info} {file : String}

theorem wins_challenged {current : Option Info} {info : Info} (wins : Wins position family current)
    (absent : family file = none) (own : (position info).file = file) :
    Wins position (Function.update family file (some info))
      (some (challenged position current info)) := by
  cases current with
  | none =>
    refine ⟨by simp [challenged, own], fun other declared found => ?_⟩
    by_cases same : other = file
    · rw [same, Function.update_self, Option.some.injEq] at found
      simp [challenged, found]
    · rw [Function.update_of_ne same, wins other] at found
      cases found
  | some current =>
    obtain ⟨source, largest⟩ := wins
    have elsewhere : (position current).file ≠ file := by
      intro same
      rw [same, absent] at source
      cases source
    simp only [challenged]
    split
    · next smaller =>
      refine ⟨by simp [own], fun other declared found => ?_⟩
      by_cases same : other = file
      · rw [same, Function.update_self, Option.some.injEq] at found
        exact (congrArg (fun info => (position info).length) found).ge
      · rw [Function.update_of_ne same] at found
        exact (largest other declared found).trans smaller.le
    · next notSmaller =>
      refine ⟨by rwa [Function.update_of_ne elsewhere], fun other declared found => ?_⟩
      by_cases same : other = file
      · rw [same, Function.update_self, Option.some.injEq] at found
        rw [← found]
        exact not_lt.mp notSmaller
      · rw [Function.update_of_ne same] at found
        exact largest other declared found

theorem wins_retained {current : Option Info} {rest : List Info} (owned : Owned position family)
    (wins : Wins position family current)
    (others : ∀ info, info ∈ rest ↔ ∃ other ≠ file, family other = some info) :
    Wins position (Function.update family file none) (retained position file rest current) := by
  have without {other : String} {declared : Info}
      (found : Function.update family file none other = some declared) :
      other ≠ file ∧ family other = some declared := by
    by_cases same : other = file
    · rw [same, Function.update_self] at found
      cases found
    · exact ⟨same, by rwa [Function.update_of_ne same] at found⟩
  cases current with
  | none =>
    intro other
    by_cases same : other = file
    · rw [same, Function.update_self]
    · rw [Function.update_of_ne same]
      exact wins other
  | some current =>
    obtain ⟨source, largest⟩ := wins
    simp only [retained, Option.bind_some]
    split
    · have spec := largest?_spec position rest
      split at spec
      · next none =>
        rw [none]
        intro other
        cases found : Function.update family file Option.none other with
        | none => rfl
        | some declared =>
          have member := (others declared).mpr ⟨other, without found⟩
          rw [spec] at member
          cases member
      · next best some =>
        rw [some]
        obtain ⟨other, different, found⟩ := (others best).mp spec.1
        have place := owned other best found
        refine ⟨?_, fun another declared declares => ?_⟩
        · rw [place, Function.update_of_ne different]
          exact found
        · exact spec.2 declared ((others declared).mpr ⟨another, without declares⟩)
    · next elsewhere =>
      refine ⟨?_, fun other declared found => largest other declared (without found).2⟩
      rw [Function.update_of_ne (by simpa using elsewhere)]
      exact source

/-! ### Tables -/

variable (position)

theorem getElem?_offer (table : Std.TreeMap String Info) (key other : String) (info : Info) :
    (offer position table key info)[other]? =
      if key = other then some (challenged position table[key]? info) else table[other]? := by
  by_cases same : key = other
  · subst same
    unfold offer challenged
    split
    · split <;> simp_all
    · simp_all
  · unfold offer
    split
    · split <;> simp [Std.TreeMap.getElem?_insert, same]
    · simp [Std.TreeMap.getElem?_insert, same]

theorem getElem?_retract (file : String) (others : String → List Info)
    (table : Std.TreeMap String Info) (key other : String) :
    (retract position file others table key)[other]? =
      if key = other then retained position file (others key) table[key]? else table[other]? := by
  by_cases same : key = other
  · subst same
    unfold retract retained
    split
    · next current found =>
      rw [found, Option.bind_some]
      split
      · split <;> simp_all
      · simpa using found
    · next missing => simp [missing]
  · rw [if_neg same]
    unfold retract
    split
    · split
      · split <;> simp [Std.TreeMap.getElem?_insert, Std.TreeMap.getElem?_erase, same]
      · rfl
    · rfl

/-- A step that changes one key at a time, taken for distinct keys. -/
theorem getElem?_foldl_of_distinct {Item : Type}
    (step : Std.TreeMap String Info → Item → Std.TreeMap String Info) (keyOf : Item → String)
    (value : Option Info → Item → Option Info)
    (stepped : ∀ table item other, (step table item)[other]? =
      if keyOf item = other then value table[keyOf item]? item else table[other]?)
    (items : List Item) (distinct : (items.map keyOf).Nodup) (table : Std.TreeMap String Info) :
    (∀ item ∈ items, (items.foldl step table)[keyOf item]? = value table[keyOf item]? item) ∧
      ∀ other, other ∉ items.map keyOf → (items.foldl step table)[other]? = table[other]? := by
  induction items generalizing table with
  | nil => simp
  | cons item rest inductionHypothesis =>
    rw [List.map_cons, List.nodup_cons] at distinct
    obtain ⟨present, absent⟩ := inductionHypothesis distinct.2 (step table item)
    constructor
    · intro other member
      rw [List.foldl_cons]
      rcases List.mem_cons.mp member with rfl | member
      · rw [absent _ distinct.1, stepped, if_pos rfl]
      · have different : keyOf item ≠ keyOf other := fun same =>
          distinct.1 (same ▸ List.mem_map_of_mem member)
        rw [present other member, stepped, if_neg different]
    · intro other missing
      rw [List.map_cons, List.mem_cons, not_or] at missing
      rw [List.foldl_cons, absent other missing.2, stepped, if_neg (Ne.symm missing.1)]

theorem nodup_keys (declared : Std.TreeMap String Info) : declared.keys.Nodup := by
  have distinct := Std.TreeMap.distinct_keys (t := declared)
  exact distinct.imp fun different same => different (by simp [same])

theorem mem_values {Value : Type} {map : Std.TreeMap String Value} {value : Value} :
    value ∈ map.values ↔ ∃ key : String, map[key]? = some value := by
  have folded : map.values = map.foldr (fun _ value rest => value :: rest) [] := rfl
  rw [folded, Std.TreeMap.foldr_eq_foldr_toList, ← List.map_eq_foldr, List.mem_map]
  constructor
  · rintro ⟨⟨key, _⟩, member, rfl⟩
    exact ⟨key, Std.TreeMap.mem_toList_iff_getElem?_eq_some.mp member⟩
  · rintro ⟨key, found⟩
    exact ⟨(key, value), Std.TreeMap.mem_toList_iff_getElem?_eq_some.mpr found, rfl⟩

/-- Offering the declarations of a file challenges the entries of their keys. -/
theorem getElem?_offerAll (table declared : Std.TreeMap String Info) (key : String) :
    (offerAll position table declared)[key]? =
      declared[key]?.elim table[key]? fun info => some (challenged position table[key]? info) := by
  have keys : declared.toList.map Prod.fst = declared.keys := Std.TreeMap.map_fst_toList_eq_keys
  obtain ⟨present, absent⟩ := getElem?_foldl_of_distinct
    (fun table item => offer position table item.1 item.2) Prod.fst
    (fun current item => some (challenged position current item.2))
    (fun table item other => getElem?_offer position table item.1 other item.2) declared.toList
    (keys ▸ nodup_keys declared) table
  cases found : declared[key]? with
  | some info =>
    exact present (key, info) (Std.TreeMap.mem_toList_iff_getElem?_eq_some.mpr found)
  | none =>
    refine absent key ?_
    rw [keys, Std.TreeMap.mem_keys]
    intro member
    rw [Std.TreeMap.mem_iff_isSome_getElem?, found] at member
    cases member

/-- Retracting the declarations of a file retains the entries of other files. -/
theorem getElem?_retractAll (file : String) (others : String → List Info)
    (table declared : Std.TreeMap String Info) (key : String) :
    (retractAll position file others table declared)[key]? =
      if key ∈ declared then retained position file (others key) table[key]? else table[key]? := by
  obtain ⟨present, absent⟩ := getElem?_foldl_of_distinct (retract position file others) id
    (fun current key => retained position file (others key) current)
    (fun table key other => getElem?_retract position file others table key other) declared.keys
    (by simpa using nodup_keys declared) table
  split
  · next member => exact present key (Std.TreeMap.mem_keys.mpr member)
  · next missing =>
    refine absent key ?_
    rwa [List.map_id, Std.TreeMap.mem_keys]

/-! ### Tables of an index -/

/-- The declarations of one key in the indexed files; `table` picks the kind of symbol. -/
def declarations (table : FileSymbols → Std.TreeMap String Info)
    (files : Std.TreeMap String FileSymbols) (key : String) (file : String) : Option Info :=
  files[file]?.bind fun symbols => (table symbols)[key]?

/-- For every key the merged table holds the entry that wins among the indexed files. -/
def Agrees (table : FileSymbols → Std.TreeMap String Info)
    (files : Std.TreeMap String FileSymbols) (merged : Std.TreeMap String Info) : Prop :=
  ∀ key, Owned position (declarations table files key) ∧
    Wins position (declarations table files key) merged[key]?

variable {position} {table : FileSymbols → Std.TreeMap String Info}
  {files : Std.TreeMap String FileSymbols} {merged : Std.TreeMap String Info}

theorem declarations_insert (file : String) (symbols : FileSymbols) (key : String) :
    declarations table (files.insert file symbols) key =
      Function.update (declarations table files key) file (table symbols)[key]? := by
  funext other
  unfold declarations
  rw [Std.TreeMap.getElem?_insert]
  by_cases same : file = other
  · subst same
    simp
  · rw [Function.update_of_ne (Ne.symm same)]
    simp [same]

theorem declarations_erase (file : String) (key : String) :
    declarations table (files.erase file) key =
      Function.update (declarations table files key) file none := by
  funext other
  unfold declarations
  rw [Std.TreeMap.getElem?_erase]
  by_cases same : file = other
  · subst same
    simp
  · rw [Function.update_of_ne (Ne.symm same)]
    simp [same]

theorem Owned.update (owned : Owned position family) {entry : Option Info}
    (own : ∀ info, entry = some info → (position info).file = file) :
    Owned position (Function.update family file entry) := by
  intro other info found
  by_cases same : other = file
  · subst same
    rw [Function.update_self] at found
    exact own info found
  · rw [Function.update_of_ne same] at found
    exact owned other info found

/-- Adding a file that is not indexed. -/
theorem Agrees.offerAll (agrees : Agrees position table files merged)
    (absent : files[file]? = none) {symbols : FileSymbols}
    (own : ∀ (key : String) info, (table symbols)[key]? = some info → (position info).file = file) :
    Agrees position table (files.insert file symbols)
      (Merged.offerAll position merged (table symbols)) := by
  intro key
  obtain ⟨owned, wins⟩ := agrees key
  have missing : declarations table files key file = none := by
    simp [declarations, absent]
  rw [declarations_insert, getElem?_offerAll]
  refine ⟨owned.update (own key), ?_⟩
  cases found : (table symbols)[key]? with
  | none =>
    rw [Option.elim_none, ← missing, Function.update_eq_self]
    exact wins
  | some info => exact wins_challenged wins missing (own key info found)

/-- Retracting a file that is indexed. -/
theorem Agrees.retractAll (agrees : Agrees position table files merged)
    {old : FileSymbols} (indexed : files[file]? = some old) :
    Agrees position table (files.erase file) (Merged.retractAll position file
      (fun key => (files.erase file).values.filterMap fun symbols => (table symbols)[key]?)
      merged (table old)) := by
  intro key
  obtain ⟨owned, wins⟩ := agrees key
  rw [declarations_erase, getElem?_retractAll]
  refine ⟨owned.update (by simp), ?_⟩
  split
  · refine wins_retained owned wins fun info => ?_
    rw [List.mem_filterMap]
    constructor
    · rintro ⟨symbols, member, declares⟩
      obtain ⟨other, found⟩ := mem_values.mp member
      rw [Std.TreeMap.getElem?_erase] at found
      by_cases same : file = other
      · simp [same] at found
      · rw [if_neg (by simpa using same)] at found
        exact ⟨other, Ne.symm same, by simp [declarations, found, declares]⟩
    · rintro ⟨other, different, declares⟩
      obtain ⟨symbols, found, declares⟩ := Option.bind_eq_some_iff.mp declares
      refine ⟨symbols, mem_values.mpr ⟨other, ?_⟩, declares⟩
      rw [Std.TreeMap.getElem?_erase]
      simp [Ne.symm different, found]
  · next undeclared =>
    have missing : declarations table files key file = none := by
      rw [Std.TreeMap.mem_iff_isSome_getElem?, Option.not_isSome_iff_eq_none] at undeclared
      simp [declarations, indexed, undeclared]
    rw [← missing, Function.update_eq_self]
    exact wins

end Merged

end PhpAudit
