/-
This file proves that the memo of a resolution changes nothing where nothing is cyclic. The plain
resolver follows the same rules without a memo and without a guard against coming back to a value,
so it has an answer exactly if the tree of its calls is finite.

The memo is filled in other orders, for other classes, and holds an empty set for every value that
is being expanded. Between the two stands a resolver that leaves out a value's own calls of itself
and has no memo either. Where it has an answer, so has the resolver with the memo, and the same one:
an entry that is not final belongs to a value further up in the tree of calls, and the tree is
finite.
-/

import PhpAudit.Proofs.Resolution.Relating
import PhpAudit.Proofs.Resolution.Termination

namespace PhpAudit.Resolution

/-! ### Resolvers without a memo -/

/-- The names of one value without a memo, in at most `fuel` nested steps. -/
def plain (index : Index) : Nat → String → TypeValue → Option Names
  | 0, _, _ => none
  | fuel + 1, owner, value => bindStatic owner <$> expand index (plain index fuel) owner value

/-- Resolves a set without a memo, in at most `fuel` nested steps. -/
def plainSet? (index : Index) (fuel : Nat) (owner : String) (types : TypeSet) : Option Names :=
  ofSet (plain index fuel) owner types

/-- Expands a value; where it calls itself for the same class, the call gives nothing. -/
def expandApart (index : Index) (resolve : String → TypeValue → Option Names) (owner : String)
    (value : TypeValue) : Option Names :=
  expand index (fun other part => if (part, other) = (value, owner) then some {}
    else resolve other part) owner value

/-- The names of one value without a memo, a value's own calls of itself left out. -/
def unrolled (index : Index) : Nat → String → TypeValue → Option Names
  | 0, _, _ => none
  | fuel + 1, owner, value =>
    bindStatic owner <$> expandApart index (unrolled index fuel) owner value

/-- The calls below a value, its own calls of itself left out, form a finite tree, and they give
`names`. -/
def Unrolls (index : Index) (owner : String) (value : TypeValue) (names : Names) : Prop :=
  ∃ fuel, unrolled index fuel owner value = some names

/-! ### Answers without a memo -/

/-- The second computation has the answers of the first. -/
def Refines (Answer : Type) (first second : Option Answer) : Prop :=
  ∀ answer, first = some answer → second = some answer

theorem sequential_refines : Sequential Refines where
  pure _ := fun _ equal => equal
  bind both rest := by
    intro answer equal
    obtain ⟨between, found, answered⟩ := Option.bind_eq_some_iff.mp equal
    exact Option.bind_eq_some_iff.mpr ⟨between, both between found, rest between answer answered⟩

theorem plain_succ (index : Index) (fuel : Nat) (owner : String) (value : TypeValue) :
    Refines Names (plain index fuel owner value) (plain index (fuel + 1) owner value) := by
  induction fuel generalizing owner value with
  | zero => exact fun _ equal => by cases equal
  | succ fuel inductionHypothesis =>
    exact sequential_refines.map _ (sequential_refines.expand inductionHypothesis owner value)

theorem expandApart_refines {index : Index} {first second : String → TypeValue → Option Names}
    (resolves : ∀ owner value, Refines Names (first owner value) (second owner value))
    (owner : String) (value : TypeValue) :
    Refines Names (expandApart index first owner value) (expandApart index second owner value) := by
  refine sequential_refines.expand (fun other part => ?_) owner value
  split
  · exact fun _ equal => equal
  · exact resolves other part

theorem unrolled_mono (index : Index) {fuel more : Nat} (enough : fuel ≤ more) (owner : String)
    (value : TypeValue) :
    Refines Names (unrolled index fuel owner value) (unrolled index more owner value) := by
  induction fuel generalizing more owner value with
  | zero => exact fun _ equal => by cases equal
  | succ fuel inductionHypothesis =>
    obtain ⟨more, rfl⟩ := Nat.exists_eq_succ_of_ne_zero (Nat.ne_zero_of_lt enough)
    exact sequential_refines.map _
      (expandApart_refines (inductionHypothesis (Nat.le_of_succ_le_succ enough)) owner value)

/-- A value with a finite tree of calls does not call itself. -/
theorem plain_refines_unrolled (index : Index) (fuel : Nat) (owner : String) (value : TypeValue) :
    Refines Names (plain index fuel owner value) (unrolled index fuel owner value) := by
  induction fuel generalizing owner value with
  | zero => exact fun _ equal => by cases equal
  | succ fuel inductionHypothesis =>
    cases earlier : plain index fuel owner value with
    | some names =>
      have sooner := inductionHypothesis owner value names earlier
      rw [plain_succ index fuel owner value names earlier]
      rintro _ ⟨⟩
      exact unrolled_mono index (Nat.le_succ fuel) owner value names sooner
    | none =>
      refine sequential_refines.map _ (sequential_refines.expand (fun other part => ?_) owner value)
      split
      · next same =>
        obtain ⟨rfl, rfl⟩ := Prod.mk.inj same
        rw [earlier]
        exact fun _ equal => by cases equal
      · exact inductionHypothesis other part

/-! ### Memos -/

/-- The entry is what the value expands to. -/
def Exact (index : Index) (key : Key) (names : Names) : Prop :=
  ∃ fuel, expandApart index (unrolled index fuel) key.2 key.1 = some names

theorem Exact.unique {index : Index} {key : Key} {names others : Names}
    (first : Exact index key names) (second : Exact index key others) : names = others := by
  obtain ⟨fuel, first⟩ := first
  obtain ⟨more, second⟩ := second
  have firstLater := expandApart_refines (unrolled_mono index (Nat.le_max_left fuel more))
    key.2 key.1 names first
  have secondLater := expandApart_refines (unrolled_mono index (Nat.le_max_right fuel more))
    key.2 key.1 others second
  exact Option.some.inj (firstLater.symm.trans secondLater)

theorem Unrolls.unique {index : Index} {owner : String} {value : TypeValue} {names others : Names}
    (first : Unrolls index owner value names) (second : Unrolls index owner value others) :
    names = others := by
  obtain ⟨fuel, first⟩ := first
  obtain ⟨more, second⟩ := second
  have firstLater := unrolled_mono index (Nat.le_max_left fuel more) owner value names first
  have secondLater := unrolled_mono index (Nat.le_max_right fuel more) owner value others second
  exact Option.some.inj (firstLater.symm.trans secondLater)

theorem exists_exact_of_unrolled {index : Index} {fuel : Nat} {owner : String} {value : TypeValue}
    {names : Names} (unrolls : unrolled index (fuel + 1) owner value = some names) :
    ∃ entry, expandApart index (unrolled index fuel) owner value = some entry ∧
      bindStatic owner entry = names :=
  Option.map_eq_some_iff.mp unrolls

/-- The second memo keeps the entries of the first, and those that it adds are exact. -/
structure Extends (index : Index) (memo next : Memo) : Prop where
  keeps : ∀ key names, memo.lookup key = some names → next.lookup key = some names
  adds : ∀ key names, next.lookup key = some names →
    memo.lookup key = some names ∨ Exact index key names

theorem Extends.refl (index : Index) (memo : Memo) : Extends index memo memo :=
  ⟨fun _ _ found => found, fun _ _ found => Or.inl found⟩

theorem Extends.trans {index : Index} {memo between next : Memo}
    (first : Extends index memo between) (second : Extends index between next) :
    Extends index memo next where
  keeps key names found := second.keeps key names (first.keeps key names found)
  adds key names found := (second.adds key names found).elim (first.adds key names) Or.inr

/-- Every entry is exact, or belongs to a value whose tree of calls is deeper than `fuel`. -/
def Trusted (index : Index) (fuel : Nat) (memo : Memo) : Prop :=
  ∀ key names, memo.lookup key = some names →
    Exact index key names ∨ unrolled index fuel key.2 key.1 = none

theorem Trusted.extend {index : Index} {fuel : Nat} {memo next : Memo}
    (trusted : Trusted index fuel memo) (grown : Extends index memo next) :
    Trusted index fuel next :=
  fun key names found => (grown.adds key names found).elim (trusted key names) Or.inl

theorem Trusted.mono {index : Index} {fuel more : Nat} {memo : Memo}
    (trusted : Trusted index more memo) (enough : fuel ≤ more) : Trusted index fuel memo := by
  intro key names found
  refine (trusted key names found).imp_right fun deeper => ?_
  cases sooner : unrolled index fuel key.2 key.1 with
  | none => rfl
  | some others =>
    rw [unrolled_mono index enough key.2 key.1 others sooner] at deeper
    cases deeper

/-! ### Steps of the resolver with a memo -/

section

variable (index : Index) {resolve : String → TypeValue → Resolving Names} {owner : String}
  {deferred : TypeValue} {memo : Memo}

theorem run_value (fuel : Nat) :
    (value index (fuel + 1) owner deferred).run memo =
      ((remembered index (value index fuel) owner deferred).run memo).map fun result =>
        (bindStatic owner result.1, result.2) := by
  rw [value, StateT.run_map]
  rfl

theorem run_remembered_known (isDeferred : deferred.isDeferred = true) {names : Names}
    (known : memo.lookup (deferred, owner) = some names) :
    (remembered index resolve owner deferred).run memo = some (names, memo) := by
  cases deferred with
  | concrete name => cases isDeferred
  | _ =>
    simp only [remembered, StateT.run_bind, StateT.run_get, Option.pure_def, Option.bind_eq_bind,
      Option.bind_some, known]
    rfl

theorem run_remembered_unknown (isDeferred : deferred.isDeferred = true)
    (unknown : memo.lookup (deferred, owner) = none) :
    (remembered index resolve owner deferred).run memo =
      ((expand index resolve owner deferred).run (((deferred, owner), {}) :: memo)).map
        fun result => (result.1, ((deferred, owner), result.1) :: result.2) := by
  cases deferred with
  | concrete name => cases isDeferred
  | _ =>
    simp only [remembered, StateT.run_bind, StateT.run_get, Option.pure_def, Option.bind_eq_bind,
      Option.bind_some, unknown]
    rw [Option.map_eq_bind]
    rfl

end

/-! ### The memo is exact -/

/-- From every admitted memo the second computation finishes with the answer of the first, and adds
exact entries only. -/
def Simulates (index : Index) (admits : Memo → Prop) (Answer : Type) (first : Option Answer)
    (second : Resolving Answer) : Prop :=
  ∀ answer, first = some answer → ∀ memo, admits memo →
    ∃ next, second.run memo = some (answer, next) ∧ Extends index memo next

theorem sequential_simulates {index : Index} {admits : Memo → Prop}
    (stable : ∀ memo next, admits memo → Extends index memo next → admits next) :
    Sequential (Simulates index admits) where
  pure _ := by
    rintro _ ⟨⟩ memo _
    exact ⟨memo, rfl, .refl index memo⟩
  bind both rest := by
    intro answer equal memo admitted
    obtain ⟨between, found, answered⟩ := Option.bind_eq_some_iff.mp equal
    obtain ⟨middle, firstRun, firstExtends⟩ := both between found memo admitted
    obtain ⟨next, restRun, restExtends⟩ :=
      rest between answer answered middle (stable memo middle admitted firstExtends)
    refine ⟨next, ?_, firstExtends.trans restExtends⟩
    rw [StateT.run_bind, firstRun]
    exact restRun

/-- The memo while a value is expanded whose tree of calls is deeper than `fuel`. -/
def Expanding (index : Index) (fuel : Nat) (key : Key) (memo : Memo) : Prop :=
  Trusted index fuel memo ∧ memo.lookup key = some {}

theorem expanding_cons {index : Index} {fuel : Nat} {memo : Memo} {key : Key}
    (trusted : Trusted index fuel memo) (deeper : unrolled index fuel key.2 key.1 = none) :
    Expanding index fuel key ((key, {}) :: memo) := by
  refine ⟨fun other names found => ?_, List.lookup_cons_self⟩
  by_cases same : other = key
  · subst same
    exact Or.inr deeper
  · rw [List.lookup_cons, beq_false_of_ne same] at found
    exact trusted other names found

/-- The final entry of a value takes the place of the empty one. -/
theorem extends_finished {index : Index} {memo next : Memo} {key : Key} {entry : Names}
    (unknown : memo.lookup key = none) (grown : Extends index ((key, {}) :: memo) next)
    (finished : Exact index key entry) : Extends index memo ((key, entry) :: next) := by
  constructor
  · intro other names found
    have different : other ≠ key := by
      rintro rfl
      rw [unknown] at found
      cases found
    rw [List.lookup_cons, beq_false_of_ne different]
    refine grown.keeps other names ?_
    rw [List.lookup_cons, beq_false_of_ne different]
    exact found
  · intro other names found
    by_cases same : other = key
    · subst same
      rw [List.lookup_cons_self, Option.some.injEq] at found
      exact Or.inr (found ▸ finished)
    · rw [List.lookup_cons, beq_false_of_ne same] at found
      have added := grown.adds other names found
      rwa [List.lookup_cons, beq_false_of_ne same] at added

/-- Where the calls form a finite tree, the resolver with the memo has the same answer. -/
theorem simulates_value (index : Index) {fuel steps : Nat} (enough : fuel < steps)
    (owner : String) (deferred : TypeValue) :
    Simulates index (Trusted index fuel) Names (unrolled index fuel owner deferred)
      (value index steps owner deferred) := by
  induction fuel generalizing steps owner deferred with
  | zero => exact fun _ equal => by cases equal
  | succ fuel inductionHypothesis =>
    obtain ⟨steps, rfl⟩ := Nat.exists_eq_succ_of_ne_zero (Nat.ne_zero_of_lt enough)
    intro names unrolls memo trusted
    obtain ⟨entry, expands, rfl⟩ := exists_exact_of_unrolled unrolls
    rw [Nat.succ_eq_add_one, run_value]
    cases isDeferred : deferred.isDeferred with
    | false =>
      cases deferred with
      | concrete name =>
        cases expands
        exact ⟨memo, rfl, .refl index memo⟩
      | _ => cases isDeferred
    | true =>
      cases known : memo.lookup (deferred, owner) with
      | some found =>
        have isExact : Exact index (deferred, owner) found := by
          refine (trusted (deferred, owner) found known).resolve_right fun deeper => ?_
          rw [unrolls] at deeper
          cases deeper
        rw [run_remembered_known index isDeferred known, isExact.unique ⟨fuel, expands⟩]
        exact ⟨memo, rfl, .refl index memo⟩
      | none =>
        -- the value must lie above its own calls, so the induction starts at its exact depth
        cases earlier : unrolled index fuel owner deferred with
        | some sooner =>
          have later := unrolled_mono index (Nat.le_succ fuel) owner deferred sooner earlier
          obtain rfl : bindStatic owner entry = sooner :=
            Option.some.inj (unrolls.symm.trans later)
          obtain ⟨next, runs, grown⟩ := inductionHypothesis (Nat.lt_of_succ_lt enough) owner
            deferred _ earlier memo (trusted.mono (Nat.le_succ fuel))
          rw [run_value] at runs
          exact ⟨next, runs, grown⟩
        | none =>
          have sequential : Sequential (Simulates index (Expanding index fuel (deferred, owner))) :=
            sequential_simulates fun memo next expanding grown =>
              ⟨expanding.1.extend grown, grown.keeps _ _ expanding.2⟩
          have expanding : Expanding index fuel (deferred, owner)
              (((deferred, owner), {}) :: memo) :=
            expanding_cons (trusted.mono (Nat.le_succ fuel)) earlier
          have resolves (other : String) (part : TypeValue) :
              Simulates index (Expanding index fuel (deferred, owner)) Names
                (if (part, other) = (deferred, owner) then some {}
                  else unrolled index fuel other part)
                (value index steps other part) := by
            split
            · next same =>
              obtain ⟨rfl, rfl⟩ := Prod.mk.inj same
              rintro _ ⟨⟩ later expanding
              obtain ⟨steps, rfl⟩ := Nat.exists_eq_succ_of_ne_zero
                (Nat.ne_zero_of_lt (Nat.lt_of_succ_lt_succ enough))
              rw [Nat.succ_eq_add_one, run_value,
                run_remembered_known index isDeferred expanding.2]
              exact ⟨later, rfl, .refl index later⟩
            · exact fun answer equal later expanding => inductionHypothesis
                (Nat.lt_of_succ_lt_succ enough) other part answer equal later expanding.1
          obtain ⟨next, runs, grown⟩ :=
            sequential.expand resolves owner deferred entry expands _ expanding
          rw [run_remembered_unknown index isDeferred known, runs]
          exact ⟨_, rfl, extends_finished known grown ⟨fuel, expands⟩⟩

/-! ### Resolving sets in turn -/

/-- Every entry of the memo is exact. -/
def AllExact (index : Index) (memo : Memo) : Prop :=
  ∀ key names, memo.lookup key = some names → Exact index key names

theorem AllExact.extend {index : Index} {memo next : Memo} (allExact : AllExact index memo)
    (grown : Extends index memo next) : AllExact index next :=
  fun key names found => (grown.adds key names found).elim (allExact key names) id

/-- A set whose members have finite trees of calls resolves to what the plain resolver gives. -/
theorem run?_of_plain {index : Index} {fuel : Nat} {owner : String} {types : TypeSet}
    {names : Names} (plainly : plainSet? index fuel owner types = some names) {memo : Memo}
    (allExact : AllExact index memo) :
    ∃ next, run? index (stepBound index types) owner types memo = some (names, next) ∧
      AllExact index next := by
  obtain ⟨others, last, ends⟩ := exists_run? index owner types memo
  have sequential : Sequential (Simulates index (AllExact index)) :=
    sequential_simulates fun _ _ allExact grown => allExact.extend grown
  have resolves (other : String) (part : TypeValue) :
      Simulates index (AllExact index) Names (plain index fuel other part)
        (value index (max (fuel + 1) (stepBound index types)) other part) := by
    intro answer equal later laterExact
    exact simulates_value index (Nat.lt_of_succ_le (Nat.le_max_left _ _)) other part answer
      (plain_refines_unrolled index fuel other part answer equal) later
      fun key names found => Or.inl (laterExact key names found)
  obtain ⟨next, runs, grown⟩ := sequential.ofSet resolves owner types names plainly memo allExact
  refine ⟨next, ?_, allExact.extend grown⟩
  rw [ends _ le_rfl, ← ends _ (Nat.le_max_right (fuel + 1) _)]
  exact runs

/-- Resolves sets one after another, each for its class, with one memo for all. -/
def resolveInTurn (index : Index) : List (String × TypeSet) → Memo → List TypeSet
  | [], _ => []
  | (owner, types) :: rest, memo =>
    let (resolved, memo) := resolveWith index owner types memo
    resolved :: resolveInTurn index rest memo

theorem resolveInTurn_eq {index : Index} {queries : List (String × TypeSet)} {answers : List Names}
    (plainly : List.Forall₂ (fun query names =>
      ∃ fuel, plainSet? index fuel query.1 query.2 = some names) queries answers) {memo : Memo}
    (allExact : AllExact index memo) : resolveInTurn index queries memo = answers.map toSet := by
  induction plainly generalizing memo with
  | nil => rfl
  | cons first _ inductionHypothesis =>
    obtain ⟨fuel, first⟩ := first
    obtain ⟨next, runs, nextExact⟩ := run?_of_plain first allExact
    simp only [resolveInTurn, resolveWith, runs, List.map_cons, inductionHypothesis nextExact]

/-- Resolving sets one after another with one memo gives for each set what the plain resolver gives,
if the plain resolver comes to an end on each of them. -/
theorem resolved_plainly (index : Index) (queries : List (String × TypeSet))
    (answers : List Names)
    (plainly : List.Forall₂ (fun query names =>
      ∃ fuel, plainSet? index fuel query.1 query.2 = some names) queries answers) :
    resolveInTurn index queries [] = answers.map toSet :=
  resolveInTurn_eq plainly fun _ _ found => by cases found

/-- A function of a sample file that returns the given types. -/
def returning (name : String) (types : List TypeValue) : FunctionInfo where
  name := name
  position := ⟨"sample", 1, 0, 1⟩
  types := .ofList types

/-- The static method `\K::make` returns `static` or null, `\make` returns what it makes, and `\all`
a list of what `\make` returns. -/
def factoryIndex : Index :=
  Index.empty.insertFile "sample"
    (((FileSymbols.addClass {} (ClassInfo.addMethod
      { name := "\\K", position := ⟨"sample", 1, 0, 1⟩ }
      (returning "make" [.concrete "static", .concrete "null"]))).addFunction
      (returning "\\make" [.staticCall "\\K" "make"])).addFunction
      (returning "\\all" [.arrayOf (.functionCall "\\make")]))

theorem resolved_plainly_factoryIndex :
    ∃ listed made,
      plainSet? factoryIndex 6 "" (.singleton (.elementOf (.functionCall "\\all"))) = some listed ∧
      plainSet? factoryIndex 6 "\\L" (.ofList [.functionCall "\\make", .staticCall "\\K" "make"]) =
        some made ∧
      resolveInTurn factoryIndex
        [("", .singleton (.elementOf (.functionCall "\\all"))),
          ("\\L", .ofList [.functionCall "\\make", .staticCall "\\K" "make"])] [] =
        [toSet listed, toSet made] ∧
      listed.toList = ["\\K", "null"] ∧ made.toList = ["\\K", "null"] := by
  have first : (plainSet? factoryIndex 6 "" (.singleton (.elementOf (.functionCall "\\all")))).map
      (·.toList) = some ["\\K", "null"] := by
    decide
  have second : (plainSet? factoryIndex 6 "\\L"
      (.ofList [.functionCall "\\make", .staticCall "\\K" "make"])).map (·.toList) =
      some ["\\K", "null"] := by
    decide
  obtain ⟨listed, listedFound, listedNames⟩ := Option.map_eq_some_iff.mp first
  obtain ⟨made, madeFound, madeNames⟩ := Option.map_eq_some_iff.mp second
  exact ⟨listed, made, listedFound, madeFound,
    resolved_plainly factoryIndex _ [listed, made]
      (.cons ⟨6, listedFound⟩ (.cons ⟨6, madeFound⟩ .nil)), listedNames, madeNames⟩

end PhpAudit.Resolution
