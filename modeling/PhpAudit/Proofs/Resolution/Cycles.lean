/-
This file tells what a resolution finds where values lead back to each other. Many values only hand
on what others give: a call stands for the set that a function is recorded with, a property for its
declared types, and the members of such a set are resolved in turn. Mutual recursion makes cycles of
such values.

A value that is met again while it is expanded gives nothing there, and the entries made meanwhile
stay incomplete. Still the set as a whole loses nothing: each value is expanded once, what its parts
give is handed on to the top, and when the resolution ends, the values that were expanded lead only
to such values. This needs that every value with an infinite tree of calls only hands on what its
parts give, and that no part gives the type of an empty array, which the arrays beside it replace.
-/

import PhpAudit.Proofs.Resolution.Plain

namespace PhpAudit.Resolution

/-! ### Members of sets of names -/

theorem mem_join {first second : Names} {name : String} :
    name ∈ join first second ↔ name ∈ first ∨ name ∈ second := by
  rw [join, Std.TreeSet.mem_insertMany_list, List.contains_iff_mem, Std.TreeSet.mem_toList]

theorem mem_namesOf {names : List String} {name : String} :
    name ∈ namesOf names ↔ name ∈ names := by
  rw [namesOf, Std.TreeSet.mem_ofList, List.contains_iff_mem]

theorem settleEmptyArray_eq {names : Names} (without : TypeName.emptyArray ∉ names) :
    settleEmptyArray names = names := by
  rw [settleEmptyArray, if_neg]
  rwa [Std.TreeSet.contains_iff_mem]

/-- `static` is left only for a class of that name. -/
theorem eq_of_lateStatic_mem {owner : String} {names : Names}
    (member : TypeName.lateStatic ∈ bindStatic owner names) : owner = TypeName.lateStatic := by
  have erased : TypeName.lateStatic ∉ names.erase TypeName.lateStatic := by
    rw [Std.TreeSet.mem_erase]
    exact fun found => found.1 Std.ReflCmp.compare_self
  unfold bindStatic at member
  split at member
  · dsimp only at member
    split at member
    · exact absurd member erased
    · rw [Std.TreeSet.mem_insert] at member
      exact Std.LawfulEqCmp.eq_of_compare (member.resolve_right erased)
  · next missing => exact absurd (Std.TreeSet.contains_iff_mem.mpr member) missing

/-- Names in which `static` was bound before stay as they are. -/
theorem mem_bindStatic {owner : String} {names : Names}
    (bound : TypeName.lateStatic ∈ names → owner = TypeName.lateStatic) {name : String} :
    name ∈ bindStatic owner names ↔ name ∈ names := by
  unfold bindStatic
  split
  · next found =>
    have member := Std.TreeSet.contains_iff_mem.mp found
    obtain rfl := bound member
    rw [if_neg (by decide), Std.TreeSet.mem_insert, Std.TreeSet.mem_erase]
    by_cases same : name = TypeName.lateStatic
    · subst same
      simp [member]
    · simp [Std.LawfulEqCmp.compare_eq_iff_eq, Ne.symm same]
  · rfl

theorem mem_toSet {names : Names} {value : TypeValue} :
    value ∈ (toSet names).members ↔ ∃ name ∈ names, value = .concrete name := by
  show value ∈ TypeValue.insertAll [] (names.toList.map TypeValue.concrete) ↔ _
  rw [TypeValue.mem_insertAll]
  simp only [List.not_mem_nil, false_or, List.mem_map, Std.TreeSet.mem_toList, eq_comm]

theorem eq_of_lateStatic_mem_unrolls {index : Index} {owner : String} {value : TypeValue}
    {names : Names} (unrolls : Unrolls index owner value names)
    (member : TypeName.lateStatic ∈ names) : owner = TypeName.lateStatic := by
  obtain ⟨fuel, unrolls⟩ := unrolls
  cases fuel with
  | zero => cases unrolls
  | succ fuel =>
    obtain ⟨entry, -, rfl⟩ := exists_exact_of_unrolled unrolls
    exact eq_of_lateStatic_mem member

/-! ### Values that hand on what others give -/

/-- The recorded set that a value stands for, and the class it is resolved for. What a trait supplies
is left out, since the name of the trait is replaced in it. -/
def recorded? (index : Index) (owner : String) : TypeValue → Option (String × TypeSet)
  | .global name => (index.global? ("$" ++ name)).map (owner, ·)
  | .constant name => (constantOrGlobal? index name).map fun found => (owner, found.types)
  | .functionCall name => (functionOrGlobal? index name).map fun found => (owner, found.types)
  | .classConstant called constant =>
    (Hierarchy.findConstant? index called constant).map fun found => (owner, found.info.types)
  | .baseParam position called method => (baseParam? index position called method).map (owner, ·)
  | .staticCall called method =>
    if called = TypeName.lateStatic then none
    else match Hierarchy.findMethod? index called method with
      | some found => if found.viaTrait.isSome then none else some (called, found.info.types)
      | none => (Hierarchy.findMethod? index called "__callStatic").map fun magic =>
          (called, magic.info.types)
  | .staticProperty called property =>
    if called = TypeName.lateStatic then none
    else (Hierarchy.findProperty? index called property).bind fun found =>
      if found.viaTrait.isSome then none else some (called, found.info.types)
  | _ => none

/-- The set that a method or property stands for in the class `name`, and the class it is resolved
for. -/
def memberSet? (index : Index) (owner : String) : TypeValue → String → Option (String × TypeSet)
  | .methodCall _ method, name =>
    (Hierarchy.findMethod? index name method).map fun found => (name, found.info.types)
  | .property _ property, name =>
    match Hierarchy.findProperty? index name property with
    | some found => some (owner, found.info.types)
    | none => (Hierarchy.findMethod? index name "__get").map fun getter => (name, getter.info.types)
  | _, _ => none

/-- The class `name` has the method without the help of a trait, and has no `__call`. -/
def isDirect (index : Index) (method name : String) : Bool :=
  (Hierarchy.findMethod? index name method).all (·.viaTrait.isNone) &&
    (Hierarchy.findMethod? index name "__call").isNone

/-- The object of a method call or of a property. -/
def object? : TypeValue → Option TypeValue
  | .methodCall object _ | .property object _ => some object
  | _ => none

/-- The second value is a member of a set that the first stands for. -/
inductive Part (index : Index) : Key → Key → Prop
  | recorded {value part : TypeValue} {owner other : String} {types : TypeSet}
      (found : recorded? index owner value = some (other, types)) (listed : part ∈ types.members) :
      Part index (value, owner) (part, other)
  | member {value object part : TypeValue} {owner name other : String} {instances : Names}
      {types : TypeSet} (called : object? value = some object)
      (unrolls : Unrolls index owner object instances) (instanceOf : name ∈ instances)
      (found : memberSet? index owner value name = some (other, types))
      (listed : part ∈ types.members) : Part index (value, owner) (part, other)

/-- A value only hands on what its parts give: it stands for a recorded set, or it is a property or a
direct method of an object that has a finite tree of calls itself. -/
inductive Relays (index : Index) : Key → Prop
  | recorded {value : TypeValue} {owner : String}
      (found : (recorded? index owner value).isSome = true) : Relays index (value, owner)
  | method {object : TypeValue} {method owner : String} {instances : Names}
      (unrolls : Unrolls index owner object instances)
      (direct : ∀ name ∈ instances, isDirect index method name = true) :
      Relays index (.methodCall object method, owner)
  | property {object : TypeValue} {property owner : String} {instances : Names}
      (unrolls : Unrolls index owner object instances) :
      Relays index (.property object property, owner)

/-- The tree of the calls below a value is infinite, its own calls of itself left out. -/
def Tangled (index : Index) (key : Key) : Prop :=
  ∀ names, ¬ Unrolls index key.2 key.1 names

/-- The names that a value leads to. -/
inductive Yields (index : Index) : Key → String → Prop
  | own {key : Key} {names : Names} {name : String} (unrolls : Unrolls index key.2 key.1 names)
      (listed : name ∈ names) : Yields index key name
  | part {key other : Key} {name : String} (tangled : Tangled index key)
      (partOf : Part index key other) (yields : Yields index other name) : Yields index key name

/-- The values that some values lead to. -/
inductive Met (index : Index) (start : Key → Prop) : Key → Prop
  | start {key : Key} (starts : start key) : Met index start key
  | part {key other : Key} (met : Met index start key) (tangled : Tangled index key)
      (partOf : Part index key other) : Met index start other

/-- Every value on the way hands on what its parts give, or has a finite tree of calls and does not
give the type of an empty array. -/
structure Relayed (index : Index) (start : Key → Prop) : Prop where
  relays : ∀ key, Met index start key → Tangled index key → Relays index key
  settled : ∀ key names, Met index start key → Unrolls index key.2 key.1 names →
    TypeName.emptyArray ∉ names

section

variable {index : Index}

theorem recorded?_class {owner other : String} {value : TypeValue} {types : TypeSet}
    (found : recorded? index owner value = some (other, types)) :
    other = owner ∨ other ≠ TypeName.lateStatic := by
  cases value with
  | staticCall called method =>
    unfold recorded? at found
    grind [Option.map_eq_some_iff]
  | staticProperty called property =>
    unfold recorded? at found
    grind [Option.bind_eq_some_iff]
  | global name | constant name | functionCall name | classConstant called constant
  | baseParam position called method =>
    obtain ⟨_, -, same⟩ := Option.map_eq_some_iff.mp found
    exact Or.inl (Prod.mk.inj same).1.symm
  | _ => cases found

theorem memberSet?_class {owner other name : String} {value : TypeValue} {types : TypeSet}
    (found : memberSet? index owner value name = some (other, types)) :
    other = owner ∨ other = name := by
  cases value with
  | methodCall object method | property object property =>
    unfold memberSet? at found
    grind [Option.map_eq_some_iff]
  | _ => cases found

theorem recorded?_of_object {owner : String} {value object : TypeValue}
    (called : object? value = some object) : recorded? index owner value = none := by
  cases value with
  | methodCall object method | property object property => rfl
  | _ => cases called

theorem Part.eq_of_lateStatic {key other : Key} (partOf : Part index key other)
    (isStatic : other.2 = TypeName.lateStatic) : key.2 = TypeName.lateStatic := by
  cases partOf with
  | recorded found _ =>
    rcases recorded?_class found with same | different
    · exact same ▸ isStatic
    · exact absurd isStatic different
  | member _ unrolls instanceOf found _ =>
    rcases memberSet?_class found with same | same
    · exact same ▸ isStatic
    · subst same
      exact eq_of_lateStatic_mem_unrolls unrolls (isStatic ▸ instanceOf)

theorem Yields.eq_of_lateStatic {key : Key} (yields : Yields index key TypeName.lateStatic) :
    key.2 = TypeName.lateStatic := by
  generalize same : TypeName.lateStatic = name at yields
  induction yields with
  | own unrolls listed => exact same ▸ eq_of_lateStatic_mem_unrolls unrolls (same ▸ listed)
  | part _ partOf _ inductionHypothesis =>
    subst same
    exact partOf.eq_of_lateStatic (inductionHypothesis rfl)

theorem Yields.ne_emptyArray {start : Key → Prop} (relayed : Relayed index start) {key : Key}
    (met : Met index start key) {name : String} (yields : Yields index key name) :
    name ≠ TypeName.emptyArray := by
  induction yields with
  | own unrolls listed =>
    rintro rfl
    exact relayed.settled _ _ met unrolls listed
  | part tangled partOf _ inductionHypothesis => exact inductionHypothesis (.part met tangled partOf)

/-! ### Expansions that hand on -/

section

variable {Computing : Type → Type} [Monad Computing]
  {resolve : String → TypeValue → Computing Names} {owner : String}

/-- Resolves the set that a value stands for, if there is one. -/
def ofSource (resolve : String → TypeValue → Computing Names) :
    Option (String × TypeSet) → Computing Names
  | some (owner, types) => ofSet resolve owner types
  | none => pure {}

theorem ofProperty_eq (object : TypeValue) (property name : String) :
    ofProperty index resolve owner property name =
      ofSource resolve (memberSet? index owner (.property object property) name) := by
  simp only [ofProperty, memberSet?]
  cases Hierarchy.findProperty? index name property with
  | some found => rfl
  | none => cases Hierarchy.findMethod? index name "__get" <;> rfl

theorem gather_congr {Source : Type} {step other : Source → Computing Names} {sources : List Source}
    (same : ∀ source ∈ sources, step source = other source) :
    gather step sources = gather other sources := by
  induction sources with
  | nil => rfl
  | cons source rest inductionHypothesis =>
    rw [gather, gather, same source List.mem_cons_self,
      inductionHypothesis fun source listed => same source (List.mem_cons_of_mem _ listed)]

variable [LawfulMonad Computing]

theorem expand_recorded {value : TypeValue} {source : String × TypeSet}
    (found : recorded? index owner value = some source) :
    expand index resolve owner value = ofSet resolve source.1 source.2 := by
  cases value with
  | global name | constant name | functionCall name | classConstant called constant
  | baseParam position called method =>
    obtain ⟨_, known, rfl⟩ := Option.map_eq_some_iff.mp found
    simp only [expand, known]
  | staticCall called method =>
    simp only [recorded?, Option.ite_none_left_eq_some] at found
    simp only [expand]
    cases known : Hierarchy.findMethod? index called method with
    | some method =>
      simp only [known, Option.ite_none_left_eq_some, Option.some.injEq] at found
      obtain ⟨-, own, rfl⟩ := found
      dsimp only
      rw [Option.not_isSome_iff_eq_none.mp own]
      exact bind_pure _
    | none =>
      rw [known] at found
      obtain ⟨magic, known, rfl⟩ := Option.map_eq_some_iff.mp found.2
      simp only [known]
  | staticProperty called property =>
    simp only [recorded?, Option.ite_none_left_eq_some] at found
    obtain ⟨property, known, found⟩ := Option.bind_eq_some_iff.mp found.2
    simp only [Option.ite_none_left_eq_some, Option.some.injEq] at found
    obtain ⟨own, rfl⟩ := found
    simp only [expand, known]
    rw [Option.not_isSome_iff_eq_none.mp own]
    exact bind_pure _
  | _ => cases found

theorem ofMethod_eq {object : TypeValue} {method : String} {instances : List String}
    (direct : ∀ name ∈ instances, isDirect index method name = true) :
    ofMethod index resolve instances method =
      gather (fun name => ofSource resolve (memberSet? index owner (.methodCall object method) name))
        instances := by
  refine gather_congr fun name listed => ?_
  obtain ⟨own, -⟩ := Bool.and_eq_true_iff.mp (direct name listed)
  simp only [memberSet?]
  cases known : Hierarchy.findMethod? index name method with
  | none => rfl
  | some found =>
    rw [known] at own
    dsimp only [Option.map_some, ofSource]
    rw [Option.isNone_iff_eq_none.mp own]
    exact bind_pure _

/-- Nobody answers for a method that no instance has. -/
theorem ofMethod_eq_pure {instances : List String} {method : String}
    (missing : ∀ name ∈ instances, Hierarchy.findMethod? index name method = none) :
    ofMethod index resolve instances method = pure {} := by
  induction instances with
  | nil => rfl
  | cons name rest inductionHypothesis =>
    have others := inductionHypothesis fun name listed =>
      missing name (List.mem_cons_of_mem _ listed)
    rw [ofMethod] at others ⊢
    rw [gather, others, missing name List.mem_cons_self]
    simp only [pure_bind]
    rfl

end

/-! ### More steps -/

/-- The second computation finishes with the same result wherever the first finishes. -/
def Outlasts (Answer : Type) (first second : Resolving Answer) : Prop :=
  ∀ memo result, first.run memo = some result → second.run memo = some result

theorem run_bind_eq_some {Answer Other : Type} {first : Resolving Answer}
    {rest : Answer → Resolving Other} {memo : Memo} {result : Other × Memo} :
    (first >>= rest).run memo = some result ↔
      ∃ answer middle, first.run memo = some (answer, middle) ∧
        (rest answer).run middle = some result := by
  rw [StateT.run_bind, Option.bind_eq_bind, Option.bind_eq_some_iff]
  exact Prod.exists

theorem sequential_outlasts : Sequential Outlasts where
  pure _ := fun _ _ runs => runs
  bind both rest := by
    intro memo result runs
    obtain ⟨answer, middle, first, runs⟩ := run_bind_eq_some.mp runs
    exact run_bind_eq_some.mpr ⟨answer, middle, both _ _ first, rest _ _ _ runs⟩

theorem value_outlasts {steps more : Nat} (enough : steps ≤ more) (owner : String)
    (deferred : TypeValue) :
    Outlasts Names (value index steps owner deferred) (value index more owner deferred) := by
  induction steps generalizing more owner deferred with
  | zero => exact fun _ _ runs => by cases runs
  | succ steps inductionHypothesis =>
    obtain ⟨more, rfl⟩ := Nat.exists_eq_succ_of_ne_zero (Nat.ne_zero_of_lt enough)
    have expands : Outlasts Names (expand index (value index steps) owner deferred)
        (expand index (value index more) owner deferred) :=
      sequential_outlasts.expand (inductionHypothesis (Nat.le_of_succ_le_succ enough)) owner deferred
    intro memo result runs
    rw [run_value] at runs
    rw [Nat.succ_eq_add_one, run_value]
    cases isDeferred : deferred.isDeferred with
    | false =>
      cases deferred with
      | concrete name => exact runs
      | _ => cases isDeferred
    | true =>
      cases known : memo.lookup (deferred, owner) with
      | some found =>
        rw [run_remembered_known index isDeferred known] at runs ⊢
        exact runs
      | none =>
        rw [run_remembered_unknown index isDeferred known] at runs ⊢
        obtain ⟨entered, found, rfl⟩ := Option.map_eq_some_iff.mp runs
        obtain ⟨expanded, ran, rfl⟩ := Option.map_eq_some_iff.mp found
        rw [expands _ _ ran]
        rfl

/-! ### What a run collects -/

/-- Every entry is exact, or belongs to a value with an infinite tree of calls that leads to its
names. -/
def Fair (index : Index) (memo : Memo) : Prop :=
  ∀ key names, memo.lookup key = some names →
    Exact index key names ∨ Tangled index key ∧ ∀ name ∈ names, Yields index key name

/-- The names hold what the value gives, or its parts are looked after: it is in the memo. -/
structure Covered (index : Index) (memo : Memo) (names : Names) (key : Key) : Prop where
  gives : ∀ others, Unrolls index key.2 key.1 others → ∀ name ∈ others, name ∈ names
  known : Tangled index key → isKnown memo key = true

/-- A run has resolved the values in `parts`: it found only names that these lead to, and all of them
but those behind values that were in the memo before. -/
structure Collects (index : Index) (parts : Key → Prop) (memo : Memo) (names : Names)
    (next : Memo) : Prop where
  grows : Grows isKnown memo next
  fair : Fair index next
  sound : ∀ name ∈ names, ∃ key, parts key ∧ Yields index key name
  covers : ∀ key, parts key → Covered index next names key
  closed : ∀ key, isKnown next key = true → isKnown memo key = false → Tangled index key →
    ∀ other, Part index key other → Covered index next names other

theorem not_tangled_of_exact {key : Key} {names : Names} (isExact : Exact index key names) :
    ¬ Tangled index key := by
  obtain ⟨fuel, expands⟩ := isExact
  refine fun tangled => tangled (bindStatic key.2 names) ⟨fuel + 1, ?_⟩
  rw [unrolled, expands]
  rfl

theorem Fair.trusted {memo : Memo} (fair : Fair index memo) (fuel : Nat) :
    Trusted index fuel memo := by
  intro key names found
  refine (fair key names found).imp_right fun entry => ?_
  rw [Option.eq_none_iff_forall_ne_some]
  exact fun others unrolls => entry.1 others ⟨fuel, unrolls⟩

theorem Fair.extend {memo next : Memo} (fair : Fair index memo) (grown : Extends index memo next) :
    Fair index next :=
  fun key names found => (grown.adds key names found).elim (fair key names) Or.inl

theorem Fair.cons {memo : Memo} (fair : Fair index memo) {key : Key} {names : Names}
    (tangled : Tangled index key) (sound : ∀ name ∈ names, Yields index key name) :
    Fair index ((key, names) :: memo) := by
  intro other others found
  by_cases same : other = key
  · subst same
    rw [List.lookup_cons_self, Option.some.injEq] at found
    exact Or.inr ⟨tangled, found ▸ sound⟩
  · rw [List.lookup_cons, beq_false_of_ne same] at found
    exact fair other others found

theorem Extends.grows {memo next : Memo} (grown : Extends index memo next) :
    Grows isKnown memo next := by
  intro key known
  obtain ⟨names, found⟩ := Option.isSome_iff_exists.mp known
  exact Option.isSome_iff_exists.mpr ⟨names, grown.keeps key names found⟩

/-- What is added to a memo exactly has a finite tree of calls. -/
theorem Extends.not_tangled {memo next : Memo} (grown : Extends index memo next) {key : Key}
    (later : isKnown next key = true) (before : isKnown memo key = false) : ¬ Tangled index key := by
  obtain ⟨names, found⟩ := Option.isSome_iff_exists.mp later
  rcases grown.adds key names found with known | isExact
  · rw [isKnown, known] at before
    cases before
  · exact not_tangled_of_exact isExact

theorem Covered.mono {memo next : Memo} {names others : Names} {key : Key}
    (covered : Covered index memo names key) (grows : Grows isKnown memo next)
    (subset : ∀ name ∈ names, name ∈ others) : Covered index next others key where
  gives given unrolls name listed := subset name (covered.gives given unrolls name listed)
  known tangled := grows key (covered.known tangled)

theorem Collects.congr {parts others : Key → Prop} {memo next : Memo} {names same : Names}
    (collects : Collects index parts memo names next) (equivalent : ∀ key, others key ↔ parts key)
    (members : ∀ name, name ∈ same ↔ name ∈ names) : Collects index others memo same next where
  grows := collects.grows
  fair := collects.fair
  sound name listed := by
    obtain ⟨key, listed, yields⟩ := collects.sound name ((members name).mp listed)
    exact ⟨key, (equivalent key).mpr listed, yields⟩
  covers key listed := (collects.covers key ((equivalent key).mp listed)).mono (.refl next)
    fun name => (members name).mpr
  closed key later before tangled other partOf :=
    (collects.closed key later before tangled other partOf).mono (.refl next)
      fun name => (members name).mpr

theorem Collects.nothing {memo : Memo} (fair : Fair index memo) :
    Collects index (fun _ => False) memo {} memo where
  grows := .refl memo
  fair := fair
  sound name listed := absurd listed Std.TreeSet.not_mem_emptyc
  covers _ impossible := impossible.elim
  closed key later before := by
    rw [later] at before
    cases before

theorem Collects.join {first second : Key → Prop} {memo middle next : Memo} {names others : Names}
    (one : Collects index first memo names middle) (two : Collects index second middle others next) :
    Collects index (fun key => first key ∨ second key) memo (join names others) next where
  grows key known := two.grows key (one.grows key known)
  fair := two.fair
  sound name listed := by
    rcases mem_join.mp listed with listed | listed
    · obtain ⟨key, starts, yields⟩ := one.sound name listed
      exact ⟨key, Or.inl starts, yields⟩
    · obtain ⟨key, starts, yields⟩ := two.sound name listed
      exact ⟨key, Or.inr starts, yields⟩
  covers key starts := by
    rcases starts with starts | starts
    · exact (one.covers key starts).mono two.grows fun name listed => mem_join.mpr (Or.inl listed)
    · exact (two.covers key starts).mono (.refl next)
        fun name listed => mem_join.mpr (Or.inr listed)
  closed key later before tangled other partOf := by
    cases between : isKnown middle key with
    | true =>
      exact (one.closed key between before tangled other partOf).mono two.grows
        fun name listed => mem_join.mpr (Or.inl listed)
    | false =>
      exact (two.closed key later between tangled other partOf).mono (.refl next)
        fun name listed => mem_join.mpr (Or.inr listed)

theorem Collects.after {parts : Key → Prop} {memo middle next : Memo} {names : Names}
    (grown : Extends index memo middle) (collects : Collects index parts middle names next) :
    Collects index parts memo names next where
  grows key known := collects.grows key (grown.grows key known)
  fair := collects.fair
  sound := collects.sound
  covers := collects.covers
  closed key later before tangled := by
    cases between : isKnown middle key with
    | true => exact absurd tangled (grown.not_tangled between before)
    | false => exact collects.closed key later between tangled

theorem Collects.of_extends {memo next : Memo} {names : Names} {key : Key} (fair : Fair index memo)
    (grown : Extends index memo next) (unrolls : Unrolls index key.2 key.1 names) :
    Collects index (· = key) memo names next where
  grows := grown.grows
  fair := fair.extend grown
  sound name listed := ⟨key, rfl, .own unrolls listed⟩
  covers other same := by
    subst same
    exact ⟨fun others unrollsToo name listed => unrollsToo.unique unrolls ▸ listed,
      fun tangled => absurd unrolls (tangled names)⟩
  closed other later before tangled := absurd tangled (grown.not_tangled later before)

/-- A run on a value in the memo gives what the entry leads to. -/
theorem Collects.of_known {memo : Memo} {names : Names} {key : Key} (fair : Fair index memo)
    (known : memo.lookup key = some names) (tangled : Tangled index key) :
    Collects index (· = key) memo names memo where
  grows := .refl memo
  fair := fair
  sound name listed := by
    rcases fair key names known with isExact | ⟨-, sound⟩
    · exact absurd tangled (not_tangled_of_exact isExact)
    · exact ⟨key, rfl, sound name listed⟩
  covers other same := by
    subst same
    refine ⟨fun others unrolls => absurd unrolls (tangled others), fun _ => ?_⟩
    rw [isKnown, known]
    rfl
  closed other later before := by
    rw [later] at before
    cases before

/-- A run on the parts of a value, while the memo holds the empty set for it, makes its entry. -/
theorem Collects.of_parts {memo next : Memo} {names : Names} {key : Key}
    (tangled : Tangled index key)
    (collects : Collects index (Part index key) ((key, {}) :: memo) names next) :
    Collects index (· = key) memo names ((key, names) :: next) := by
  have sound (name : String) (listed : name ∈ names) : Yields index key name := by
    obtain ⟨other, partOf, yields⟩ := collects.sound name listed
    exact .part tangled partOf yields
  have grows : Grows isKnown next ((key, names) :: next) := grows_cons next key names
  refine ⟨?_, collects.fair.cons tangled sound, fun name listed => ⟨key, rfl, sound name listed⟩,
    ?_, ?_⟩
  · exact fun other known => grows other (collects.grows other (grows_cons memo key {} other known))
  · rintro other rfl
    refine ⟨fun others unrolls => absurd unrolls (tangled others), fun _ => ?_⟩
    rw [isKnown, List.lookup_cons_self]
    rfl
  · intro other later before otherTangled part partOf
    by_cases same : other = key
    · subst same
      exact (collects.covers part partOf).mono grows fun name listed => listed
    · refine (collects.closed other ?_ ?_ otherTangled part partOf).mono grows
        fun name listed => listed
      · rwa [isKnown, List.lookup_cons, beq_false_of_ne same] at later
      · rwa [isKnown, List.lookup_cons, beq_false_of_ne same]

/-! ### Runs collect -/

/-- A value with a finite tree of calls gives its names, and adds exact entries only. -/
theorem run_of_unrolls {steps : Nat} {owner : String} {deferred : TypeValue} {names found : Names}
    {memo next : Memo} (fair : Fair index memo) (unrolls : Unrolls index owner deferred names)
    (runs : (value index steps owner deferred).run memo = some (found, next)) :
    found = names ∧ Extends index memo next := by
  obtain ⟨fuel, unrolls⟩ := unrolls
  obtain ⟨last, exactly, grown⟩ := simulates_value index (Nat.le_max_left (fuel + 1) steps) owner
    deferred names unrolls memo (fair.trusted fuel)
  rw [value_outlasts (Nat.le_max_right (fuel + 1) steps) owner deferred memo _ runs] at exactly
  cases exactly
  exact ⟨rfl, grown⟩

theorem collects_gather {Source : Type} {step : Source → Resolving Names}
    {parts : Source → Key → Prop} {sources : List Source}
    (each : ∀ source ∈ sources, ∀ memo names next, Fair index memo →
      (step source).run memo = some (names, next) → Collects index (parts source) memo names next)
    {memo next : Memo} {names : Names} (fair : Fair index memo)
    (runs : (gather step sources).run memo = some (names, next)) :
    Collects index (fun key => ∃ source ∈ sources, parts source key) memo names next := by
  induction sources generalizing memo names with
  | nil =>
    cases runs
    exact (Collects.nothing fair).congr (by simp) fun _ => Iff.rfl
  | cons source rest inductionHypothesis =>
    obtain ⟨first, middle, firstRuns, runs⟩ := run_bind_eq_some.mp runs
    obtain ⟨others, last, restRuns, runs⟩ := run_bind_eq_some.mp runs
    cases runs
    have one := each source List.mem_cons_self memo first middle fair firstRuns
    have two := inductionHypothesis
      (fun source listed => each source (List.mem_cons_of_mem _ listed)) one.fair restRuns
    exact (one.join two).congr (by simp) fun _ => Iff.rfl

/-- Every run on a value on the way resolves it, in `steps` nested steps. -/
def Collecting (index : Index) (start : Key → Prop) (steps : Nat) : Prop :=
  ∀ key, Met index start key → ∀ memo names next, Fair index memo →
    (value index steps key.2 key.1).run memo = some (names, next) →
    Collects index (· = key) memo names next

section

variable {start : Key → Prop} (relayed : Relayed index start) {steps : Nat}
  (collecting : Collecting index start steps)

include relayed collecting

theorem collects_ofSet {owner : String} {types : TypeSet}
    (met : ∀ part ∈ types.members, Met index start (part, owner)) {memo next : Memo} {names : Names}
    (fair : Fair index memo)
    (runs : (ofSet (value index steps) owner types).run memo = some (names, next)) :
    Collects index (fun key => key.1 ∈ types.members ∧ key.2 = owner) memo names next := by
  rw [ofSet, StateT.run_map] at runs
  obtain ⟨⟨joined, last⟩, gathered, same⟩ := Option.map_eq_some_iff.mp runs
  cases same
  have collects := collects_gather (fun part listed => collecting (part, owner) (met part listed))
    fair gathered
  have without : TypeName.emptyArray ∉ joined := by
    intro listed
    obtain ⟨_, ⟨part, partOf, rfl⟩, yields⟩ := collects.sound _ listed
    exact yields.ne_emptyArray relayed (met part partOf) rfl
  rw [settleEmptyArray_eq without]
  refine collects.congr (fun key => ?_) fun _ => Iff.rfl
  constructor
  · rintro ⟨listed, rfl⟩
    exact ⟨key.1, listed, rfl⟩
  · rintro ⟨part, listed, rfl⟩
    exact ⟨listed, rfl⟩

theorem collects_ofSource {source : Option (String × TypeSet)}
    (met : ∀ owner types, source = some (owner, types) → ∀ part ∈ types.members,
      Met index start (part, owner)) {memo next : Memo} {names : Names} (fair : Fair index memo)
    (runs : (ofSource (value index steps) source).run memo = some (names, next)) :
    Collects index (fun key => ∃ types, source = some (key.2, types) ∧ key.1 ∈ types.members)
      memo names next := by
  cases source with
  | none =>
    cases runs
    exact (Collects.nothing fair).congr (by simp) fun _ => Iff.rfl
  | some source =>
    have collects := collects_ofSet relayed collecting (met source.1 source.2 rfl) fair runs
    refine collects.congr (fun key => ?_) fun _ => Iff.rfl
    constructor
    · rintro ⟨types, same, listed⟩
      cases same
      exact ⟨listed, rfl⟩
    · rintro ⟨listed, same⟩
      exact ⟨source.2, by rw [same], listed⟩

/-- The members of an object are looked up in the classes that the object has. -/
theorem collects_members {owner : String} {value object : TypeValue} {instances : Names}
    (called : object? value = some object) (unrolls : Unrolls index owner object instances)
    (met : Met index start (value, owner)) (tangled : Tangled index (value, owner))
    {memo next : Memo} {names : Names} (fair : Fair index memo)
    (runs : (gather (fun name => ofSource (Resolution.value index steps)
      (memberSet? index owner value name)) instances.toList).run memo = some (names, next)) :
    Collects index (Part index (value, owner)) memo names next := by
  have each (name : String) (listed : name ∈ instances.toList) (memo : Memo) (names : Names)
      (next : Memo) (fair : Fair index memo)
      (runs : (ofSource (Resolution.value index steps)
        (memberSet? index owner value name)).run memo = some (names, next)) := by
    refine collects_ofSource relayed collecting (fun other types found part partOf => ?_) fair runs
    exact .part met tangled
      (.member called unrolls (Std.TreeSet.mem_toList.mp listed) found partOf)
  refine (collects_gather each fair runs).congr (fun key => ?_) fun _ => Iff.rfl
  constructor
  · intro partOf
    cases partOf with
    | recorded found _ =>
      rw [recorded?_of_object called] at found
      cases found
    | member calledToo unrollsToo instanceOf found listed =>
      cases called.symm.trans calledToo
      cases unrolls.unique unrollsToo
      exact ⟨_, Std.TreeSet.mem_toList.mpr instanceOf, _, found, listed⟩
  · rintro ⟨name, instanceOf, types, found, listed⟩
    exact .member called unrolls (Std.TreeSet.mem_toList.mp instanceOf) found listed

/-- Expanding a value that hands on resolves its parts. -/
theorem collects_expand {owner : String} {value : TypeValue} (met : Met index start (value, owner))
    (tangled : Tangled index (value, owner)) {memo next : Memo} {names : Names}
    (fair : Fair index memo)
    (runs : (expand index (Resolution.value index steps) owner value).run memo =
      some (names, next)) :
    Collects index (Part index (value, owner)) memo names next := by
  cases relayed.relays (value, owner) met tangled with
  | recorded isSome =>
    obtain ⟨source, found⟩ := Option.isSome_iff_exists.mp isSome
    rw [expand_recorded found] at runs
    have collects := collects_ofSet relayed collecting
      (fun part partOf => .part met tangled (.recorded found partOf)) fair runs
    refine collects.congr (fun key => ?_) fun _ => Iff.rfl
    constructor
    · intro partOf
      cases partOf with
      | recorded foundToo listed =>
        cases found.symm.trans foundToo
        exact ⟨listed, rfl⟩
      | member called =>
        rw [recorded?_of_object called] at found
        cases found
    · obtain ⟨part, other⟩ := key
      rintro ⟨listed, same⟩
      obtain rfl : other = source.1 := same
      exact .recorded found listed
  | method unrolls direct =>
    obtain ⟨found, middle, objectRuns, runs⟩ := run_bind_eq_some.mp runs
    obtain ⟨rfl, grown⟩ := run_of_unrolls fair unrolls objectRuns
    obtain ⟨given, last, runs, ends⟩ := run_bind_eq_some.mp runs
    rw [ofMethod_eq fun name listed => direct name (Std.TreeSet.mem_toList.mp listed)] at runs
    have collects := collects_members relayed collecting rfl unrolls met tangled
      (fair.extend grown) runs
    have missing (name : String) (listed : name ∈ found.toList) :
        Hierarchy.findMethod? index name "__call" = none :=
      Option.isNone_iff_eq_none.mp
        (Bool.and_eq_true_iff.mp (direct name (Std.TreeSet.mem_toList.mp listed))).2
    rw [ofMethod_eq_pure missing] at ends
    split at ends
    · next isEmpty =>
      cases ends
      refine (collects.congr (fun _ => Iff.rfl) fun name => ?_).after grown
      simp [Std.TreeSet.isEmpty_iff_forall_not_mem.mp isEmpty name]
    · cases ends
      exact collects.after grown
  | property unrolls =>
    obtain ⟨found, middle, objectRuns, runs⟩ := run_bind_eq_some.mp runs
    obtain ⟨rfl, grown⟩ := run_of_unrolls fair unrolls objectRuns
    rw [gather_congr fun name _ => ofProperty_eq _ _ name] at runs
    exact (collects_members relayed collecting rfl unrolls met tangled (fair.extend grown)
      runs).after grown

end

theorem collecting_steps {start : Key → Prop} (relayed : Relayed index start) (steps : Nat) :
    Collecting index start steps := by
  induction steps with
  | zero => exact fun _ _ _ _ _ _ runs => by cases runs
  | succ steps inductionHypothesis =>
    rintro ⟨deferred, owner⟩ met memo names next fair runs
    by_cases tangled : Tangled index (deferred, owner)
    · have isDeferred : deferred.isDeferred = true := by
        cases deferred with
        | concrete name => exact absurd ⟨1, rfl⟩ (tangled _)
        | _ => rfl
      rw [run_value] at runs
      obtain ⟨⟨entry, last⟩, entered, same⟩ := Option.map_eq_some_iff.mp runs
      cases same
      have collects : Collects index (· = (deferred, owner)) memo entry last := by
        cases known : memo.lookup (deferred, owner) with
        | some found =>
          rw [run_remembered_known index isDeferred known] at entered
          cases entered
          exact .of_known fair known tangled
        | none =>
          rw [run_remembered_unknown index isDeferred known] at entered
          obtain ⟨expanded, ran, same⟩ := Option.map_eq_some_iff.mp entered
          cases same
          refine .of_parts tangled (collects_expand relayed inductionHypothesis met tangled ?_ ran)
          exact fair.cons tangled fun name listed => absurd listed Std.TreeSet.not_mem_emptyc
      refine collects.congr (fun _ => Iff.rfl) fun name => mem_bindStatic fun isStatic => ?_
      obtain ⟨_, rfl, yields⟩ := collects.sound _ isStatic
      exact yields.eq_of_lateStatic
    · obtain ⟨exactly, unrolls⟩ := not_forall_not.mp tangled
      obtain ⟨rfl, grown⟩ := run_of_unrolls fair unrolls runs
      exact .of_extends fair grown unrolls

/-! ### Resolved sets -/

/-- What is covered at the end of a run that began without a memo is found with all that it leads
to. -/
theorem Collects.complete {parts : Key → Prop} {names : Names} {next : Memo}
    (collects : Collects index parts [] names next) {key : Key}
    (covered : Covered index next names key) {name : String} (yields : Yields index key name) :
    name ∈ names := by
  induction yields with
  | own unrolls listed => exact covered.gives _ unrolls _ listed
  | part tangled partOf _ inductionHypothesis =>
    exact inductionHypothesis (collects.closed _ (covered.known tangled) rfl tangled _ partOf)

/-- The members of a set, for the class they are resolved for. -/
def Member (owner : String) (types : TypeSet) (key : Key) : Prop :=
  key.1 ∈ types.members ∧ key.2 = owner

/-- A set resolves to the names that its members lead to, cycles or not. -/
theorem mem_resolve {owner : String} {types : TypeSet}
    (relayed : Relayed index (Member owner types)) (value : TypeValue) :
    value ∈ (resolve index owner types).members ↔
      ∃ name, value = .concrete name ∧
        ∃ part ∈ types.members, Yields index (part, owner) name := by
  obtain ⟨names, next, runs⟩ := exists_run? index owner types []
  have collects : Collects index (Member owner types) [] names next :=
    collects_ofSet relayed (collecting_steps relayed _) (fun part listed => .start ⟨listed, rfl⟩)
      (fun _ _ found => by cases found) (runs _ le_rfl)
  rw [resolve, resolveWith, runs _ le_rfl, mem_toSet]
  constructor
  · rintro ⟨name, listed, rfl⟩
    obtain ⟨⟨part, _⟩, ⟨partOf, rfl⟩, yields⟩ := collects.sound name listed
    exact ⟨name, rfl, part, partOf, yields⟩
  · rintro ⟨name, rfl, part, partOf, yields⟩
    exact ⟨name, collects.complete (collects.covers (part, owner) ⟨partOf, rfl⟩) yields, rfl⟩

end

end PhpAudit.Resolution
