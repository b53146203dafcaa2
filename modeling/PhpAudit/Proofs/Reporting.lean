/-
This file proves that reporting does not influence what is indexed. The symbols of a file are the
same whether its issues are reported or not, and a file whose issues are not reported has none.

A report is handed through the declarations of the file one after another and then through the code
outside them. None of them looks at it, so hushing it at the start changes nothing but the report. Nor
do they ask more of an index that is being filled than about the functions that the file calls by name,
so the symbols are the same against another index that tells the same of these.
-/

import PhpAudit.FileWalk
import PhpAudit.Proofs.Flow.Deafness

namespace PhpAudit

/-! ### Functions that a file calls -/

def callsMember : Member → List String
  | .method decl => callsOptionalStmts decl.body
  | _ => []

/-- The names of the functions that the bodies in a declaration call. -/
def callsDeclaration (stmt : Stmt) : List String :=
  match stmt.kind with
  | .function decl => callsStmts decl.body
  | .classLike decl => decl.members.flatMap callsMember
  | _ => []

/-- The functions that a statement outside functions calls, in its bodies or else. -/
def FileWalk.callsPlaced (placed : Placed) : List Candidates :=
  (callsStmt placed.2 ++ callsDeclaration placed.2).map placed.1.functionName

/-- The functions are alike in both indexes. -/
def SameCallees (first second : Index) (calls : List Candidates) : Prop :=
  ∀ call ∈ calls, CalledAlike (second.callee? call) (first.callee? call)

def FileEnv.withIndex (env : FileEnv) (index : Index) : FileEnv :=
  { env with index }

/-- The other index gives a file that makes some calls the same answers: it is the same index, or
neither is complete and the functions are alike. -/
def FileEnv.Answers (env : FileEnv) (index : Index) (calls : List Candidates) : Prop :=
  index = env.index ∨
    env.index.complete = false ∧ index.complete = false ∧ SameCallees env.index index calls

section

variable {env : FileEnv} {index : Index} {calls others : List Candidates}

theorem SameCallees.mono {first second : Index} (same : SameCallees first second calls)
    (subset : others ⊆ calls) : SameCallees first second others :=
  fun call listed => same call (subset listed)

theorem FileEnv.Answers.same (calls : List Candidates) : env.Answers env.index calls :=
  .inl rfl

theorem FileEnv.Answers.mono (answers : env.Answers index calls) (subset : others ⊆ calls) :
    env.Answers index others :=
  answers.imp_right fun ⟨before, after, same⟩ => ⟨before, after, same.mono subset⟩

/-- Where names mean the same functions, bodies see the same functions. -/
theorem FileEnv.Answers.body {naming inner : Naming} {names : List String}
    (answers : env.Answers index (names.map naming.functionName))
    (meaning : inner.functionName = naming.functionName) :
    PhpAudit.Answers (env.walkEnv inner) index names := by
  refine answers.imp_right fun ⟨before, after, same⟩ => ⟨before, after, fun name listed => ?_⟩
  rw [show (env.walkEnv inner).naming = inner from rfl, meaning]
  exact same _ (List.mem_map_of_mem listed)

theorem FileEnv.walkEnv_withIndex (naming : Naming) :
    (env.withIndex index).walkEnv naming = (env.walkEnv naming).withIndex index := rfl

end

theorem Naming.functionName_enterFunction (naming : Naming) (function : String) :
    (naming.enterFunction function).functionName = naming.functionName := by
  unfold functionName enterFunction
  rfl

theorem Naming.functionName_enterClass (naming : Naming) (owner parent : String) (inTrait : Bool) :
    (naming.enterClass owner parent inTrait).functionName = naming.functionName := by
  unfold functionName enterClass
  rfl

/-! ### Declarations -/

/-- The declarations so far, with a report that drops what it is given. -/
def Declared.hush (declared : Declared) : Declared :=
  { declared with report := { enabled := false } }

namespace Declaration

variable {env : FileEnv} {index : Index} {naming : Naming}

def Described.hush (described : Described) : Described :=
  { described with report := { enabled := false } }

def ClassBody.hush (body : ClassBody) : ClassBody :=
  { body with report := { enabled := false } }

theorem describe_mirrors (base : Option BaseMethod) (this : Option String) (signature : Signature)
    {body : Option (List Stmt)}
    (answers : Answers (env.walkEnv naming) index (callsOptionalStmts body)) (report : Report) :
    describe (env.withIndex index) naming base this signature body { enabled := false } =
      (describe env naming base this signature body report).hush := by
  cases body with
  | none => rfl
  | some body =>
    unfold describe
    dsimp only
    rw [Flow.startBody_hush _ _ report, FileEnv.walkEnv_withIndex,
      Flow.walkBody_mirrors body answers]
    rfl

theorem describe_hush (env : FileEnv) (naming : Naming) (base : Option BaseMethod)
    (this : Option String) (signature : Signature) (body : Option (List Stmt)) (report : Report) :
    describe env naming base this signature body { enabled := false } =
      (describe env naming base this signature body report).hush :=
  describe_mirrors base this signature (.same _) report

theorem function_mirrors (decl : FunctionDecl)
    (answers : env.Answers index ((callsStmts decl.body).map naming.functionName))
    (declared : Declared) :
    function (env.withIndex index) naming decl declared.hush =
      (function env naming decl declared).hush := by
  have inBody : Answers (env.walkEnv (naming.enterFunction (naming.declared decl.name))) index
      (callsOptionalStmts (some decl.body)) :=
    answers.body (naming.functionName_enterFunction _)
  unfold function
  dsimp only [Declared.hush]
  rw [describe_mirrors _ _ _ inBody declared.report]
  rfl

theorem member_mirrors {inner : Naming} (meaning : inner.functionName = naming.functionName)
    (withBase : Bool) (item : Member)
    (answers : env.Answers index ((callsMember item).map naming.functionName)) (body : ClassBody) :
    member (env.withIndex index) inner withBase body.hush item =
      (member env inner withBase body item).hush := by
  cases item with
  | method decl =>
    have inBody : Answers (env.walkEnv (inner.enterFunction decl.name)) index
        (callsOptionalStmts decl.body) :=
      answers.body ((inner.functionName_enterFunction _).trans meaning)
    unfold member method
    dsimp only [ClassBody.hush]
    rw [describe_mirrors _ _ _ inBody body.report]
    rfl
  | property | constants | enumCase | traitUse => rfl

theorem members_mirrors {inner : Naming} (meaning : inner.functionName = naming.functionName)
    (withBase : Bool) (members : List Member)
    (answers : env.Answers index ((members.flatMap callsMember).map naming.functionName))
    (body : ClassBody) :
    members.foldl (member (env.withIndex index) inner withBase) body.hush =
      (members.foldl (member env inner withBase) body).hush := by
  induction members generalizing body with
  | nil => rfl
  | cons item rest inductionHypothesis =>
    rw [List.flatMap_cons, List.map_append] at answers
    rw [List.foldl_cons, List.foldl_cons,
      member_mirrors meaning withBase item (answers.mono (List.subset_append_left _ _)),
      inductionHypothesis (answers.mono (List.subset_append_right _ _))]

theorem classLike_mirrors (decl : ClassDecl)
    (answers : env.Answers index ((decl.members.flatMap callsMember).map naming.functionName))
    (declared : Declared) :
    classLike (env.withIndex index) naming decl declared.hush =
      (classLike env naming decl declared).hush := by
  unfold classLike
  extract_lets name parent inner interfaces _ bodyHushed info body
  have same : bodyHushed = body.hush :=
    members_mirrors (naming.functionName_enterClass _ _ _) (!interfaces.isEmpty) decl.members answers
      { info, report := declared.report }
  rw [same]
  rfl

end Declaration

/-! ### Files -/

namespace FileWalk

section

variable {env : FileEnv} {index : Index}

theorem declare_mirrors (placed : Placed) (answers : env.Answers index (callsPlaced placed))
    (declared : Declared) :
    declare (env.withIndex index) declared.hush placed = (declare env declared placed).hush := by
  obtain ⟨naming, ⟨kind, span⟩⟩ := placed
  have bodies : env.Answers index ((callsDeclaration ⟨kind, span⟩).map naming.functionName) := by
    refine answers.mono ?_
    rw [callsPlaced, List.map_append]
    exact List.subset_append_right _ _
  cases kind with
  | function decl => exact Declaration.function_mirrors decl bodies declared
  | classLike decl => exact Declaration.classLike_mirrors decl bodies declared
  | _ => rfl

/-- Declarations taken in turn do not look at the report. -/
theorem foldl_mirrors {Item : Type} {quiet step : Declared → Item → Declared} (items : List Item)
    (mirrors : ∀ item ∈ items, ∀ declared, quiet declared.hush item = (step declared item).hush)
    (declared : Declared) : items.foldl quiet declared.hush = (items.foldl step declared).hush := by
  induction items generalizing declared with
  | nil => rfl
  | cons item rest inductionHypothesis =>
    rw [List.foldl_cons, List.foldl_cons, mirrors item List.mem_cons_self,
      inductionHypothesis fun item member => mirrors item (List.mem_cons_of_mem _ member)]

theorem declareAll_mirrors (placed : List Placed)
    (answers : env.Answers index
      ((placed ++ (nestedIn placed).declarations).flatMap callsPlaced)) (report : Report) :
    declareAll (env.withIndex index) placed { enabled := false } =
      (declareAll env placed report).hush := by
  have each (item : Placed) (listed : item ∈ placed ++ (nestedIn placed).declarations)
      (declared : Declared) :
      declare (env.withIndex index) declared.hush item = (declare env declared item).hush :=
    declare_mirrors item (answers.mono fun call called =>
      List.mem_flatMap.mpr ⟨item, listed, called⟩) declared
  have direct := foldl_mirrors placed (fun item listed => each item (List.mem_append_left _ listed))
    { report }
  have nested := foldl_mirrors (nestedIn placed).declarations
    (fun item listed => each item (List.mem_append_right _ listed))
    (placed.foldl (declare env) { report })
  unfold declareAll
  dsimp only
  rw [show placed.foldl (declare (env.withIndex index)) { report := { enabled := false } } = _
    from direct, nested]
  exact foldl_mirrors (nestedIn placed).defines (fun _ _ _ => rfl) _

theorem walkPlaced_mirrors (placed : List Placed)
    (answers : env.Answers index (placed.flatMap callsPlaced)) (report : Report) :
    walkPlaced (env.withIndex index) placed { enabled := false } =
      (walkPlaced env placed report).hush := by
  have walked : Walk.Mirrors
      (placed.foldl fun walk stmt => Flow.walkStmt ((env.walkEnv stmt.1).withIndex index) stmt.2 walk)
      (placed.foldl fun walk stmt => Flow.walkStmt (env.walkEnv stmt.1) stmt.2 walk) := by
    refine .foldl placed fun stmt listed => Flow.walkStmt_mirrors stmt.2 ?_
    have own : env.Answers index ((callsStmt stmt.2).map stmt.1.functionName) := by
      refine answers.mono fun call called => List.mem_flatMap.mpr ⟨stmt, listed, ?_⟩
      rw [callsPlaced, List.map_append]
      exact List.mem_append_left _ called
    exact own.body rfl
  exact walked (.start .empty report)

end

variable (env : FileEnv)

/-- Problems of the parser are reported first, if anything is. -/
def reported (report : Bool) (parsed : ParsedFile) : Report :=
  parsed.errors.foldl (fun (report : Report) error =>
    report.add env.source ⟨error.offset, error.offset⟩ .error "parse" error.message)
      { enabled := isReported env report }

theorem reported_of_silent {report : Bool} (silent : isReported env report = false)
    (parsed : ParsedFile) : reported env report parsed = { enabled := false } := by
  unfold reported
  rw [silent]
  induction parsed.errors with
  | nil => rfl
  | cons error rest inductionHypothesis => exact inductionHypothesis

/-- The functions that a file calls by name. -/
def calls (parsed : ParsedFile) : List Candidates :=
  let placed := plan {} parsed.statements
  (placed ++ (nestedIn placed).declarations).flatMap callsPlaced

variable {env}

/-- The symbols of a file are those that a silent analysis finds, also against another index that gives
the same answers. -/
theorem symbols_run_mirrors {index : Index} (parsed : ParsedFile)
    (answers : env.Answers index (calls parsed)) (report : Bool) :
    let placed := plan {} parsed.statements
    (run env report parsed).symbols =
      addGlobals (walkPlaced (env.withIndex index) placed { enabled := false })
        (declareAll (env.withIndex index) placed { enabled := false }).symbols := by
  intro placed
  have outside : env.Answers index (placed.flatMap callsPlaced) := by
    refine answers.mono ?_
    unfold calls
    rw [List.flatMap_append]
    exact List.subset_append_left _ _
  rw [declareAll_mirrors placed answers (reported env report parsed),
    walkPlaced_mirrors placed outside (declareAll env placed (reported env report parsed)).report]
  rfl

variable (env)

theorem symbols_run (report : Bool) (parsed : ParsedFile) :
    let placed := plan {} parsed.statements
    (run env report parsed).symbols =
      addGlobals (walkPlaced env placed { enabled := false })
        (declareAll env placed { enabled := false }).symbols :=
  symbols_run_mirrors parsed (.same _) report

/-- Against another index that gives the same answers, a file declares the same. -/
theorem symbols_withIndex {index : Index} (report : Bool) (parsed : ParsedFile)
    (answers : env.Answers index (calls parsed)) :
    (run (env.withIndex index) report parsed).symbols = (run env report parsed).symbols := by
  rw [symbols_run (env.withIndex index), symbols_run_mirrors parsed answers]

/-- A file whose issues are not reported has none. -/
theorem issues_run_of_silent {report : Bool} (silent : isReported env report = false)
    (parsed : ParsedFile) : (run env report parsed).issues = [] := by
  have started := reported_of_silent env silent parsed
  let placed := plan {} parsed.statements
  have declared : (declareAll env placed { enabled := false }).report = { enabled := false } :=
    congrArg Declared.report (declareAll_mirrors placed (.same _) { enabled := false })
  have walked : (walkPlaced env placed { enabled := false }).report = { enabled := false } :=
    congrArg Walk.report (walkPlaced_mirrors placed (.same _) { enabled := false })
  show Issue.sortInFile (walkPlaced env placed
    (declareAll env placed (reported env report parsed)).report).report.issues = []
  rw [started, declared, walked]
  simp [Issue.sortInFile]

/--
Reporting does not influence the analysis. For every file, with a marker that opts it out or without
one, the symbols are the same with and without reporting; and if nothing is reported, by demand or
because of the marker, there are no issues.
-/
theorem symbols_independent_of_report (parsed : ParsedFile) :
    (run env true parsed).symbols = (run env false parsed).symbols ∧
      ∀ report, isReported env report = false → (run env report parsed).issues = [] := by
  constructor
  · rw [symbols_run, symbols_run]
  · intro report silent
    exact issues_run_of_silent env silent parsed

/-- `function f() { return $x; }` -/
def undefinedFile : ParsedFile where
  statements := [⟨.function ⟨"f", ⟨9, 10⟩, ⟨0, 26⟩, [], none, false,
    [⟨.returns (some ⟨.var "$x", ⟨22, 24⟩⟩), ⟨15, 25⟩⟩]⟩, ⟨0, 26⟩⟩]

/-- A file with an issue, which is found only if it is reported. -/
theorem symbols_independent_of_report_undefinedFile :
    (run default true undefinedFile).issues.length = 1 ∧
      isReported default false = false ∧
      (run default true undefinedFile).symbols = (run default false undefinedFile).symbols ∧
      (run default false undefinedFile).issues = [] := by
  obtain ⟨symbols, issues⟩ := symbols_independent_of_report default undefinedFile
  exact ⟨by decide +kernel, by decide +kernel, symbols, issues false (by decide +kernel)⟩

end FileWalk

end PhpAudit
