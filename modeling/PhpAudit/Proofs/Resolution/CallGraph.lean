/-
This file proves that resolving calls of functions is exact, however the functions call each other.
In a call graph every function is recorded with names of concrete types and with calls of other
functions. A set of names and calls then resolves to its own names and to those of the functions
that it reaches.
-/

import PhpAudit.Proofs.Resolution.Cycles

namespace PhpAudit.Resolution

/-! ### Call graphs -/

/-- A name that no rule rewrites, or a call of a function. -/
def isNameOrCall : TypeValue → Bool
  | .concrete name => name != TypeName.lateStatic && name != TypeName.emptyArray
  | .functionCall _ => true
  | _ => false

/-- The index records functions with names and calls only. -/
def IsCallGraph (index : Index) : Prop :=
  ∀ name info, index.function? name = some info →
    ∀ value ∈ info.types.members, isNameOrCall value = true

/-- The functions that a set calls, directly or through other functions. -/
inductive Reaches (index : Index) (types : TypeSet) : FunctionInfo → Prop
  | called {name : String} {info : FunctionInfo} (listed : .functionCall name ∈ types.members)
      (found : functionOrGlobal? index name = some info) : Reaches index types info
  | further {caller info : FunctionInfo} {name : String} (reaches : Reaches index types caller)
      (listed : .functionCall name ∈ caller.types.members)
      (found : functionOrGlobal? index name = some info) : Reaches index types info

/-- The names that a value leads to by calls. -/
inductive Leads (index : Index) : TypeValue → String → Prop
  | name (name : String) : Leads index (.concrete name) name
  | call {called name : String} {info : FunctionInfo} {part : TypeValue}
      (found : functionOrGlobal? index called = some info) (listed : part ∈ info.types.members)
      (leads : Leads index part name) : Leads index (.functionCall called) name

section

variable {index : Index} {types : TypeSet}

theorem Reaches.mono {others : TypeSet} {info : FunctionInfo}
    (calls : ∀ name, .functionCall name ∈ types.members →
      ∀ called, functionOrGlobal? index name = some called → Reaches index others called)
    (reaches : Reaches index types info) : Reaches index others info := by
  induction reaches with
  | called listed found => exact calls _ listed _ found
  | further _ listed found inductionHypothesis => exact .further inductionHypothesis listed found

theorem Reaches.leads {name : String} {info : FunctionInfo} (reaches : Reaches index types info)
    {part : TypeValue} (listed : part ∈ info.types.members) (leads : Leads index part name) :
    ∃ value ∈ types.members, Leads index value name := by
  induction reaches generalizing part with
  | called member found => exact ⟨_, member, .call found listed leads⟩
  | further _ member found inductionHypothesis =>
    exact inductionHypothesis member (.call found listed leads)

/-- A set leads to its own names and to those of the functions that it reaches. -/
theorem exists_leads_iff {name : String} :
    (∃ value ∈ types.members, Leads index value name) ↔
      .concrete name ∈ types.members ∨
        ∃ info, Reaches index types info ∧ .concrete name ∈ info.types.members := by
  constructor
  · rintro ⟨value, listed, leads⟩
    induction leads generalizing types with
    | name name => exact Or.inl listed
    | call found member _ inductionHypothesis =>
      rcases inductionHypothesis member with own | ⟨info, reaches, own⟩
      · exact Or.inr ⟨_, .called listed found, own⟩
      · refine Or.inr ⟨info, reaches.mono fun name callee called known => ?_, own⟩
        exact .further (.called listed found) callee known
  · rintro (listed | ⟨info, reaches, listed⟩)
    · exact ⟨_, listed, .name name⟩
    · exact reaches.leads listed (.name name)

/-! ### Names of calls -/

section

variable (graph : IsCallGraph index)

include graph

theorem isNameOrCall_of_functionOrGlobal? {name : String} {info : FunctionInfo}
    (found : functionOrGlobal? index name = some info) {value : TypeValue}
    (listed : value ∈ info.types.members) : isNameOrCall value = true := by
  obtain ⟨_, known⟩ := known_of_rootFallback? found
  exact graph _ info known value listed

/-- Calls lead to names that no rule rewrites. -/
theorem Leads.isPlain {value : TypeValue} {name : String} (leads : Leads index value name)
    (kind : isNameOrCall value = true) :
    name ≠ TypeName.lateStatic ∧ name ≠ TypeName.emptyArray := by
  induction leads with
  | name name => simpa [isNameOrCall] using kind
  | call found listed _ inductionHypothesis =>
    exact inductionHypothesis (isNameOrCall_of_functionOrGlobal? graph found listed)

theorem settled_of_leads {joined : Names} {value : TypeValue} (kind : isNameOrCall value = true)
    (leads : ∀ name ∈ joined, Leads index value name) (owner name : String) :
    name ∈ bindStatic owner (settleEmptyArray joined) ↔ name ∈ joined := by
  rw [settleEmptyArray_eq fun listed => ((leads _ listed).isPlain graph kind).2 rfl]
  exact mem_bindStatic fun listed => absurd rfl ((leads _ listed).isPlain graph kind).1

end

/-- Joining the names of some sources finds the names of each. -/
theorem gather_eq_some {Source : Type} {step : Source → Option Names} {sources : List Source}
    {joined : Names} (gathered : gather step sources = some joined) :
    (∀ source ∈ sources, ∃ names, step source = some names) ∧
      ∀ name, name ∈ joined ↔ ∃ source ∈ sources, ∃ names, step source = some names ∧
        name ∈ names := by
  induction sources generalizing joined with
  | nil =>
    cases gathered
    simp
  | cons source rest inductionHypothesis =>
    obtain ⟨first, found, gathered⟩ := Option.bind_eq_some_iff.mp gathered
    obtain ⟨others, rest, joins⟩ := Option.bind_eq_some_iff.mp gathered
    obtain rfl := Option.some.inj joins
    obtain ⟨all, mem⟩ := inductionHypothesis rest
    refine ⟨by simpa [found] using all, fun name => ?_⟩
    rw [mem_join, mem]
    simp [found]

/-- What a call unrolls to, in terms of the set of the function. -/
theorem unrolled_call {owner called : String} {info : FunctionInfo} {fuel : Nat} {names : Names}
    (found : functionOrGlobal? index called = some info)
    (unrolls : unrolled index (fuel + 1) owner (.functionCall called) = some names) :
    ∃ joined, names = bindStatic owner (settleEmptyArray joined) ∧
      (∀ part ∈ info.types.members, part ≠ .functionCall called →
        ∃ names, unrolled index fuel owner part = some names) ∧
      ∀ name, name ∈ joined ↔ ∃ part ∈ info.types.members, part ≠ .functionCall called ∧
        ∃ names, unrolled index fuel owner part = some names ∧ name ∈ names := by
  obtain ⟨entry, expands, rfl⟩ := exists_exact_of_unrolled unrolls
  simp only [expandApart, expand, found] at expands
  obtain ⟨joined, gathered, rfl⟩ := Option.map_eq_some_iff.mp expands
  obtain ⟨all, mem⟩ := gather_eq_some gathered
  refine ⟨joined, rfl, fun part listed different => ?_, fun name => ?_⟩
  · obtain ⟨names, step⟩ := all part listed
    dsimp only at step
    rw [if_neg fun same => different (Prod.mk.inj same).1] at step
    exact ⟨names, step⟩
  · rw [mem]
    refine exists_congr fun part => and_congr_right fun _ => ?_
    by_cases same : part = .functionCall called
    · subst same
      simp
    · simp [same]

theorem exists_unrolls_concrete (owner : String) {only : String}
    (kind : isNameOrCall (.concrete only) = true) :
    ∃ names, Unrolls index owner (.concrete only) names ∧ ∀ name, name ∈ names ↔ name = only := by
  refine ⟨bindStatic owner (namesOf [only]), ⟨1, rfl⟩, fun name => ?_⟩
  rw [mem_bindStatic, mem_namesOf, List.mem_singleton]
  intro isStatic
  rw [mem_namesOf, List.mem_singleton] at isStatic
  subst isStatic
  cases kind

theorem unrolls_missing (owner : String) {called : String}
    (missing : functionOrGlobal? index called = none) :
    Unrolls index owner (.functionCall called) {} := by
  refine ⟨1, ?_⟩
  simp only [unrolled, expandApart, expand, missing]
  rfl

theorem leads_of_unrolled (graph : IsCallGraph index) {owner : String} {value : TypeValue}
    (kind : isNameOrCall value = true) {fuel : Nat} {names : Names}
    (unrolls : unrolled index fuel owner value = some names) {name : String}
    (listed : name ∈ names) :
    Leads index value name := by
  induction fuel generalizing value names name with
  | zero => cases unrolls
  | succ fuel inductionHypothesis =>
    cases value with
    | concrete only =>
      obtain ⟨others, exactly, mem⟩ := exists_unrolls_concrete owner kind
      cases Unrolls.unique ⟨fuel + 1, unrolls⟩ exactly
      rw [(mem name).mp listed]
      exact .name only
    | functionCall called =>
      cases found : functionOrGlobal? index called with
      | none =>
        cases Unrolls.unique ⟨fuel + 1, unrolls⟩ (unrolls_missing owner found)
        exact absurd listed Std.TreeSet.not_mem_emptyc
      | some info =>
        obtain ⟨joined, rfl, -, mem⟩ := unrolled_call found unrolls
        have leads (name : String) (member : name ∈ joined) :
            Leads index (.functionCall called) name := by
          obtain ⟨part, partOf, -, names, partUnrolls, listed⟩ := (mem name).mp member
          exact .call found partOf (inductionHypothesis
            (isNameOrCall_of_functionOrGlobal? graph found partOf) partUnrolls listed)
        exact leads name ((settled_of_leads graph rfl leads owner name).mp listed)
    | _ => cases kind

/-- A call with a finite tree of calls gives what the members of the function's set give. -/
theorem mem_of_unrolls_call (graph : IsCallGraph index) {owner called : String}
    {info : FunctionInfo} (found : functionOrGlobal? index called = some info) {part : TypeValue}
    (partOf : part ∈ info.types.members) {name : String} (yields : Yields index (part, owner) name)
    {names : Names} (unrolls : Unrolls index owner (.functionCall called) names) :
    part = .functionCall called ∨ name ∈ names := by
  refine or_iff_not_imp_left.mpr fun different => ?_
  obtain ⟨_ | fuel, unrolled⟩ := unrolls
  · cases unrolled
  obtain ⟨joined, rfl, all, mem⟩ := unrolled_call found unrolled
  have leads (name : String) (member : name ∈ joined) :
      Leads index (.functionCall called) name := by
    obtain ⟨other, otherOf, -, names, otherUnrolls, listed⟩ := (mem name).mp member
    exact .call found otherOf (leads_of_unrolled graph
      (isNameOrCall_of_functionOrGlobal? graph found otherOf) otherUnrolls listed)
  rw [settled_of_leads graph rfl leads, mem]
  obtain ⟨names, partUnrolls⟩ := all part partOf different
  refine ⟨part, partOf, different, names, partUnrolls, ?_⟩
  cases yields with
  | own unrollsToo listed => exact unrollsToo.unique ⟨fuel, partUnrolls⟩ ▸ listed
  | part tangled => exact absurd ⟨fuel, partUnrolls⟩ (tangled names)

theorem yields_of_leads (graph : IsCallGraph index) (owner : String) {value : TypeValue}
    (kind : isNameOrCall value = true) {name : String} (leads : Leads index value name) :
    Yields index (value, owner) name := by
  induction leads with
  | name only =>
    obtain ⟨names, unrolls, mem⟩ := exists_unrolls_concrete owner kind
    exact .own unrolls ((mem only).mpr rfl)
  | @call called name info part found partOf _ inductionHypothesis =>
    have yields := inductionHypothesis (isNameOrCall_of_functionOrGlobal? graph found partOf)
    by_cases tangled : Tangled index (.functionCall called, owner)
    · refine .part tangled (.recorded ?_ partOf) yields
      rw [recorded?, found]
      rfl
    · obtain ⟨names, unrolls⟩ := not_forall_not.mp tangled
      rcases mem_of_unrolls_call graph found partOf yields unrolls with rfl | listed
      · exact yields
      · exact .own unrolls listed

theorem Part.of_call {called owner : String} {other : Key}
    (partOf : Part index (.functionCall called, owner) other) :
    ∃ info, functionOrGlobal? index called = some info ∧ other.1 ∈ info.types.members ∧
      other.2 = owner := by
  cases partOf with
  | recorded found listed =>
    obtain ⟨info, known, same⟩ := Option.map_eq_some_iff.mp found
    cases same
    exact ⟨info, known, listed, rfl⟩
  | member called => cases called

/-- Resolution finds behind a value the names that it leads to by calls. -/
theorem yields_iff_leads (graph : IsCallGraph index) {owner : String} {value : TypeValue}
    (kind : isNameOrCall value = true) {name : String} :
    Yields index (value, owner) name ↔ Leads index value name := by
  refine ⟨fun yields => ?_, yields_of_leads graph owner kind⟩
  generalize same : (value, owner) = key at yields
  induction yields generalizing value with
  | own unrolls listed =>
    subst same
    obtain ⟨fuel, unrolled⟩ := unrolls
    exact leads_of_unrolled graph kind unrolled listed
  | part tangled partOf _ inductionHypothesis =>
    subst same
    cases value with
    | concrete only =>
      obtain ⟨names, unrolls, -⟩ := exists_unrolls_concrete owner kind
      exact absurd unrolls (tangled names)
    | functionCall called =>
      obtain ⟨info, found, listed, rfl⟩ := partOf.of_call
      exact .call found listed (inductionHypothesis
        (isNameOrCall_of_functionOrGlobal? graph found listed) rfl)
    | _ => cases kind

/-! ### Resolved calls -/

/-- Calls lead to calls and names. -/
theorem isNameOrCall_of_met (graph : IsCallGraph index) {owner : String}
    (kinds : ∀ value ∈ types.members, isNameOrCall value = true) {key : Key}
    (met : Met index (Member owner types) key) : isNameOrCall key.1 = true := by
  induction met with
  | start starts => exact kinds _ starts.1
  | @part key other _ _ partOf inductionHypothesis =>
    obtain ⟨value, owner⟩ := key
    cases value with
    | concrete only =>
      cases partOf with
      | recorded found => cases found
      | member called => cases called
    | functionCall called =>
      obtain ⟨info, found, listed, -⟩ := partOf.of_call
      exact isNameOrCall_of_functionOrGlobal? graph found listed
    | _ => cases inductionHypothesis

/-- A call only hands on what the function is recorded with. -/
theorem relayed_of_calls (graph : IsCallGraph index) (owner : String)
    (kinds : ∀ value ∈ types.members, isNameOrCall value = true) :
    Relayed index (Member owner types) where
  relays := by
    rintro ⟨value, other⟩ met tangled
    have kind : isNameOrCall value = true := isNameOrCall_of_met graph kinds met
    cases value with
    | concrete only =>
      obtain ⟨names, unrolls, -⟩ := exists_unrolls_concrete other kind
      exact absurd unrolls (tangled names)
    | functionCall called =>
      cases found : functionOrGlobal? index called with
      | none => exact absurd (unrolls_missing other found) (tangled {})
      | some info =>
        refine .recorded ?_
        rw [recorded?, found]
        rfl
    | _ => cases kind
  settled key names met unrolls listed := by
    obtain ⟨fuel, unrolled⟩ := unrolls
    have kind := isNameOrCall_of_met graph kinds met
    exact ((leads_of_unrolled graph kind unrolled listed).isPlain graph kind).2 rfl

end

/-- `\parity\even` is not declared, so calls of it mean `\even`, which calls `\odd`, which calls it
again. `\left` and `\right` only call each other. -/
def recursionIndex : Index :=
  Index.empty.insertFile "sample"
    ((((FileSymbols.addFunction {}
      (returning "\\even" [.concrete "bool", .functionCall "\\parity\\odd"])).addFunction
      (returning "\\parity\\odd" [.functionCall "\\parity\\even", .concrete "null"])).addFunction
      (returning "\\left" [.functionCall "\\right"])).addFunction
      (returning "\\right" [.functionCall "\\left"]))

theorem isCallGraph_of_values {index : Index}
    (all : (index.functions.values.all fun info => info.types.members.all isNameOrCall) = true) :
    IsCallGraph index := by
  intro name info found
  have member : info ∈ index.functions.values := Merged.mem_values.mpr ⟨_, found⟩
  exact List.all_eq_true.mp (List.all_eq_true.mp all info member)

end PhpAudit.Resolution
